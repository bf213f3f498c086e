/-
  Monitor/Stream.lean --- the streams that `parse_pcf_params` decodes.

  A cell is a structure other than a group, with the parameter that the decoder makes
  of it wherever it stands.  A stream is a sequence of cells and of groups, each group
  in the layout in which the queue manager sends it: a header of 16 bytes that counts
  the members, and the members behind it.

  WHAT THE FILE PROVES.  `ResourceMonitor::parse_pcf_params` decodes every stream: the
  parameters in order, each group with exactly its members.
-/
import IbmmqExporter.Monitor.Params
import IbmmqExporter.Pcf.RoundTrip

set_option autoImplicit false

namespace IbmmqExporter.Monitor

open Foundation Pcf

/-! ## Cells -/

/-- A structure other than a group, and the parameter it stands for. -/
structure Cell where
  type : Int32
  id : Int32
  /-- what follows the first twelve bytes -/
  body : Bytes
  param : PCFParam
  type_ne : type ≠ mqcftGroup
  long : 4 ≤ body.length
  short : 12 + body.length < 2 ^ 31
  decodes {data post : Bytes} {off : Nat} :
    data.drop off = encodeStructure type id body ++ post →
      parseValue data off type ((12 + body.length : Nat) : Int) id = .ok param

namespace Cell

/-- The bytes of the structure. -/
def encode (c : Cell) : Bytes := encodeStructure c.type c.id c.body

theorem length_encode (c : Cell) : c.encode.length = 12 + c.body.length :=
  length_encodeStructure c.type c.id c.body

/-- `MQCFIN`. -/
def integer (id v : Int32) : Cell where
  type := mqcftInteger
  id := id
  body := encodeInt32 v
  param := { type := mqcftInteger, paramId := id, intValue := v, int64Value := v.toInt64 }
  type_ne := by decide
  long := by simp
  short := by simp
  decodes {data post off} h := by
    have w := words_of_drop h (by simp)
    have hvalue : (readInt32 data (off + 12) : Parse Int32) = .ok v := readInt32_peel w.body_at
    rw [parseValue, if_pos rfl, hvalue]
    rfl

/-- `MQCFIN64`. -/
def integer64 (id : Int32) (v : Int64) : Cell where
  type := mqcftInteger64
  id := id
  body := encodeInt32 0 ++ encodeInt64 v
  param := { type := mqcftInteger64, paramId := id, intValue := v.toInt32, int64Value := v }
  type_ne := by decide
  long := by simp
  short := by simp
  decodes {data post off} h := by
    have w := words_of_drop h (by simp)
    have hbody := w.body_at
    rw [List.append_assoc] at hbody
    have hvalue : (readInt64 data (off + 16) : Parse Int64) = .ok v :=
      readInt64_peel (drop_peel_int32 hbody)
    rw [parseValue, if_neg (by decide), if_neg (by decide), if_pos rfl, if_pos (by simp), hvalue]
    rfl

/-- `MQCFST`. -/
def string (id ccsid : Int32) (s : Text)
    (short : 12 + (encodeInt32 ccsid ++ (encodeInt32 (Int32.ofNat s.bytes.length) ++
      (s.bytes ++ filling s.bytes.length))).length < 2 ^ 31) : Cell where
  type := mqcftString
  id := id
  body := encodeInt32 ccsid ++ (encodeInt32 (Int32.ofNat s.bytes.length) ++
    (s.bytes ++ filling s.bytes.length))
  param := { type := mqcftString, paramId := id, strValue := s.bytes }
  type_ne := by decide
  long := by
    simp only [List.length_append, length_encodeInt32]
    omega
  short := short
  decodes {data post off} h := by
    have w := words_of_drop h (by rw [length_encodeStructure]; exact short)
    have hfits := w.fits
    have hbody := w.body_at
    simp only [List.append_assoc] at hbody
    have h16 := drop_peel_int32 hbody
    have h20 := drop_peel_int32 h16
    simp only [List.length_append, length_encodeInt32] at hfits short
    have hcount : (readInt data (off + 16) : Parse Int) = .ok s.bytes.length := by
      rw [readInt_peel h16, Int32.toInt_ofNat_of_lt (by omega)]
    have hlong : (20 : Int) ≤ ((12 + (encodeInt32 ccsid ++ (encodeInt32
        (Int32.ofNat s.bytes.length) ++ (s.bytes ++ filling s.bytes.length))).length : Nat) :
        Int) := by
      simp only [List.length_append, length_encodeInt32]
      omega
    rw [parseValue, if_neg (by decide), if_pos rfl, parseStr, if_pos hlong, hcount]
    by_cases hnil : s.bytes = []
    · simp [hnil]
    · have hpos : 0 < s.bytes.length := List.length_pos_iff.mpr hnil
      have hread := slice_peel (ε := StdException) h20 hpos
      simp only [Outcome.ok_bind, Int.toNat_natCast]
      rw [if_pos ⟨by omega, by omega⟩, hread]
      simp

/-- The parameter of a cell has its type. -/
theorem param_type (c : Cell) : c.param.type = c.type := by
  have h : c.encode.drop 0 = encodeStructure c.type c.id c.body ++ [] :=
    (List.append_nil c.encode).symm
  have hvalue := c.decodes h
  unfold parseValue at hvalue
  split at hvalue
  · obtain ⟨v, -, hvalue⟩ := Outcome.bind_eq_ok.mp hvalue
    rw [← Outcome.ok.inj hvalue]
  · split at hvalue
    · obtain ⟨v, -, hvalue⟩ := Outcome.bind_eq_ok.mp hvalue
      rw [← Outcome.ok.inj hvalue]
    · split at hvalue
      · split at hvalue
        · obtain ⟨v, -, hvalue⟩ := Outcome.bind_eq_ok.mp hvalue
          rw [← Outcome.ok.inj hvalue]
        · rw [← Outcome.ok.inj hvalue]
      · rw [← Outcome.ok.inj hvalue]

/-- What the loops read of a cell before they look at its type. -/
theorem reads (c : Cell) {data post : Bytes} {off : Nat}
    (h : data.drop off = c.encode ++ post) :
    off + 16 ≤ data.length ∧ off + (12 + c.body.length) ≤ data.length ∧
      (readInt32 data off : Parse Int32) = .ok c.type ∧
      (readInt data (off + 4) : Parse Int) = .ok ((12 + c.body.length : Nat) : Int) ∧
      (readInt32 data (off + 8) : Parse Int32) = .ok c.id := by
  have hlong := c.long
  have w := words_of_drop h (by rw [length_encodeStructure]; exact c.short)
  have hfits := w.fits
  refine ⟨by omega, hfits, ?_, ?_, w.id_read⟩
  · rw [readInt32_eq (by omega), w.type_eq]
  · rw [readInt_eq (by omega), w.length_eq]
    push_cast
    rfl

end Cell

/-! ## Streams -/

/-- A parameter of a stream: a cell, or the header of a group with the cells that follow
it. -/
inductive Entry where
  | leaf (c : Cell)
  | group (id : Int32) (members : List Cell) (short : members.length < 2 ^ 31)

/-- The header of a group with `count` members. -/
def encodeGroupHeader (id : Int32) (count : Nat) : Bytes :=
  encodeStructure mqcftGroup id (encodeInt32 (Int32.ofNat count))

/-- The bytes of a parameter. -/
def Entry.encode : Entry → Bytes
  | .leaf c => c.encode
  | .group id members _ =>
      encodeGroupHeader id members.length ++ members.flatMap Cell.encode

/-- The parameter as it is decoded. -/
def Entry.param : Entry → PCFParam
  | .leaf c => c.param
  | .group id members _ =>
      { type := mqcftGroup, paramId := id, groupParams := members.map Cell.param }

/-! ## Decoding -/

/-- The inner loop takes exactly the members of the group. -/
theorem parseMembers_cells (members : List Cell) {data post : Bytes} {off : Nat}
    (h : data.drop off = members.flatMap Cell.encode ++ post) :
    ∃ m, parseMembers data members.length off = .ok m ∧
      m.params = members.map Cell.param ∧ data.drop m.stop = post := by
  induction members generalizing off with
  | nil => exact ⟨_, rfl, rfl, h⟩
  | cons c members ih =>
      simp only [List.flatMap_cons, List.append_assoc] at h
      obtain ⟨h16, hfits, htype, hread, hid⟩ := c.reads h
      have hlong := c.long
      have hvalue := c.decodes h
      have hdrop : data.drop (off + (12 + c.body.length)) =
          members.flatMap Cell.encode ++ post := by
        rw [← c.length_encode]
        exact drop_peel h
      obtain ⟨m, hm, hparams, hstop⟩ := ih hdrop
      have hgo : ¬ (((12 + c.body.length : Nat) : Int) < 16 ∨
          data.length < off + (12 + c.body.length)) := by omega
      refine ⟨⟨c.param :: m.params, m.stop, Nat.le_of_add_right_le m.le⟩, ?_, ?_, hstop⟩
      · rw [List.length_cons, parseMembers, if_pos h16, htype, hread, hid]
        simp only [Outcome.ok_bind, Int.toNat_natCast, if_neg hgo, hvalue, hm]
        rfl
      · rw [List.map_cons, hparams]

theorem parsePcfParamsFrom_entries (entries : List Entry) {data : Bytes} {off : Nat}
    (h : data.drop off = entries.flatMap Entry.encode) :
    parsePcfParamsFrom data off = .ok (entries.map Entry.param) := by
  induction entries generalizing off with
  | nil =>
      have hlen := congrArg List.length h
      simp only [List.length_drop, List.flatMap_nil, List.length_nil] at hlen
      rw [parsePcfParamsFrom, dif_neg (by omega)]
      rfl
  | cons e entries ih =>
      rw [List.flatMap_cons] at h
      cases e with
      | leaf c =>
          change data.drop off = c.encode ++ entries.flatMap Entry.encode at h
          obtain ⟨h16, hfits, htype, hread, hid⟩ := c.reads h
          have hlong := c.long
          have hvalue := c.decodes h
          have hdrop : data.drop (off + (12 + c.body.length)) =
              entries.flatMap Entry.encode := by
            rw [← c.length_encode]
            exact drop_peel h
          have hgo : ¬ (((12 + c.body.length : Nat) : Int) < 16 ∨
              data.length < off + (12 + c.body.length)) := by omega
          rw [parsePcfParamsFrom, dif_pos h16, htype, hread, hid]
          simp only [Outcome.ok_bind, Int.toNat_natCast, dif_neg hgo, if_neg c.type_ne, hvalue,
            ih hdrop]
          rfl
      | group id members short =>
          simp only [Entry.encode, List.append_assoc] at h
          have hheader : (encodeGroupHeader id members.length).length = 16 := by
            simp [encodeGroupHeader]
          have w := words_of_drop h (by rw [← encodeGroupHeader]; omega)
          have hfits := w.fits
          rw [length_encodeInt32] at hfits
          have htype : (readInt32 data off : Parse Int32) = .ok mqcftGroup := by
            rw [readInt32_eq (by omega), w.type_eq]
          have hread : (readInt data (off + 4) : Parse Int) = .ok 16 := by
            rw [readInt_eq (by omega), w.length_eq, length_encodeInt32]
            rfl
          have hcount : (readInt data (off + 12) : Parse Int) = .ok members.length := by
            rw [readInt_peel w.body_at, Int32.toInt_ofNat_of_lt short]
          have hdrop : data.drop (off + 16) =
              members.flatMap Cell.encode ++ entries.flatMap Entry.encode := by
            rw [← hheader]
            exact drop_peel h
          obtain ⟨m, hm, hparams, hstop⟩ := parseMembers_cells members hdrop
          have hgo : ¬ ((16 : Int) < 16 ∨ data.length < off + (16 : Int).toNat) := by omega
          rw [parsePcfParamsFrom, dif_pos (by omega), htype, hread, w.id_read]
          simp only [Outcome.ok_bind, dif_neg hgo, if_pos, hcount, Int.toNat_natCast, hm,
            ih hstop, hparams]
          rfl

/-- The monitor decodes every stream: the parameters in order, each group with exactly
its members. -/
theorem parsePcfParams_entries (entries : List Entry) :
    parsePcfParams (entries.flatMap Entry.encode) = .ok (entries.map Entry.param) :=
  parsePcfParamsFrom_entries entries rfl

end IbmmqExporter.Monitor
