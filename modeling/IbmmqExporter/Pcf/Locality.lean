/-
  Pcf/Locality.lean --- `parse_parameters` of a buffer that is put together from two.

  What the parser makes of a structure follows from the structure's own bytes, but for
  the test in the case `MQCFT_STRING`, which compares the stated length of the string
  with the length of the whole buffer.

  WHAT THE FILE PROVES.  Unless it throws, the parser makes of two buffers, the walk
  over the first of which ends at its end, what it makes of each, if and only if in
  neither of them stands a string that is too long for its buffer and not too long for
  both.
-/
import IbmmqExporter.Foundation.Locality
import IbmmqExporter.Pcf.Safety

set_option autoImplicit false

namespace IbmmqExporter.Pcf

open Foundation

/-! ## Structures in two places -/

section Same

variable {n : Nat} {data data' : Bytes} {off off' : Nat}

theorem parseIntValues_same (h : SameBytes n data off data' off') (paramType : Int32)
    (count k : Nat) :
    parseIntValues data paramType (off + n) count (off + k) =
      parseIntValues data' paramType (off' + n) count (off' + k) := by
  induction count generalizing k with
  | zero => rfl
  | succ count ih =>
      have hshift (m : Nat) : (off + k + m ≤ off + n ↔ k + m ≤ n) ∧
          (off' + k + m ≤ off' + n ↔ k + m ≤ n) := by omega
      rw [parseIntValues, parseIntValues]
      simp only [hshift]
      split
      · next h4 =>
          split
          · next h8 =>
              rw [h.readInt64_eq h8.2, Nat.add_assoc, Nat.add_assoc, ih]
          · rw [h.readInt32_eq h4, Nat.add_assoc, Nat.add_assoc, ih]
      · rfl

theorem sizeAdd_of_nonneg {strLen : Int} (h : 0 ≤ strLen) (off : Nat) :
    sizeAdd off strLen = off + strLen.toNat := by
  rw [sizeAdd, if_pos (by omega)]
  omega

theorem parseStringValues_same (h : SameBytes n data off data' off') {strLen : Int}
    (hlen : 0 ≤ strLen) (count k : Nat) :
    parseStringValues data strLen (off + n) count (off + k) =
      parseStringValues data' strLen (off' + n) count (off' + k) := by
  induction count generalizing k with
  | zero => rfl
  | succ count ih =>
      have hshift (m : Nat) : (off + k + m ≤ off + n ↔ k + m ≤ n) ∧
          (off' + k + m ≤ off' + n ↔ k + m ≤ n) := by omega
      rw [parseStringValues, parseStringValues]
      simp only [sizeAdd_of_nonneg hlen, hshift, if_neg (Int.not_lt.mpr hlen)]
      split
      · next hfits => rw [h.slice_eq hfits, Nat.add_assoc, Nat.add_assoc, ih]
      · rfl

/-- A string list of negative length that does not throw throws nowhere nearer to the
front either. -/
theorem parseStringValues_same_negative {strLen : Int} {count : Nat} {strings : List Bytes}
    (hlen : strLen < 0) (hword : -2 ^ 31 ≤ strLen) (hn : n < 2 ^ 31) (h24 : 24 ≤ n)
    (hle : off ≤ off')
    (hok : parseStringValues data' strLen (off' + n) count (off' + 24) = .ok strings) :
    parseStringValues data strLen (off + n) count (off + 24) = .ok strings := by
  rw [parseStringValues_negative hlen] at hok ⊢
  split at hok
  · cases hok
  · next hnot =>
      obtain rfl := Outcome.ok.inj hok
      refine if_neg ?_
      rintro ⟨hcount, hsum⟩
      have hbeyond : ¬ sizeAdd (off' + 24) strLen ≤ off' + n := fun hcon => hnot ⟨hcount, hcon⟩
      unfold sizeAdd at hsum hbeyond
      split at hbeyond
      · omega
      · rw [if_neg (by omega)] at hsum
        omega

/-- Only texts depend on more than the structure's bytes. -/
theorem parseStructure_same (h : SameBytes n data off data' off') {paramType : Int32}
    (hstring : paramType ≠ mqcftString) (hlist : paramType ≠ mqcftStringList) :
    parseStructure data off paramType n = parseStructure data' off' paramType n := by
  unfold parseStructure
  rw [if_neg hstring, if_neg hstring, if_neg hlist, if_neg hlist]
  split
  · split
    · rw [h.readInt32_eq (by omega), h.readInt32_eq (by omega)]
    · rfl
  · split
    · split
      · rw [h.readInt32_eq (by omega), h.readInt64_eq (by omega)]
      · rfl
    · split
      · split
        · rw [h.readInt32_eq (by omega), h.readInt_eq (by omega)]
          simp only [parseIntValues_same h]
        · rfl
      · split
        · rw [h.readInt32_eq (by omega)]
        · rfl

theorem groupBody_same (h : SameBytes n data off data' off') :
    groupBody data off n = groupBody data' off' n := by
  by_cases h16 : 16 ≤ n
  · exact h.take_drop_eq (by omega)
  · have hzero : n - 16 = 0 := by omega
    rw [groupBody, groupBody, hzero, List.take_zero, List.take_zero]

/-- The structure at `off` is a string that is too long for `data`, and not too long for a
buffer of `len` bytes. -/
def CutAt (data : Bytes) (len off : Nat) : Prop :=
  int32At data off = mqcftString ∧ 20 ≤ intAt data (off + 4) ∧
    (data.length : Int) < 20 + intAt data (off + 16) ∧ 20 + intAt data (off + 16) ≤ len

instance (data : Bytes) (len off : Nat) : Decidable (CutAt data len off) :=
  inferInstanceAs (Decidable (_ ∧ _ ∧ _ ∧ _))

/-- What the parser makes of a string depends on whether it is cut. -/
theorem parseStructure_string (h : SameBytes n data off data' off')
    (hn : (intAt data (off + 4)).toNat = n) (htype : int32At data off = mqcftString)
    (hlen : data.length ≤ data'.length) :
    (¬ CutAt data data'.length off →
      parseStructure data off mqcftString n = parseStructure data' off' mqcftString n) ∧
    (CutAt data data'.length off → ∃ parameter s,
      parseStructure data off mqcftString n = .ok ⟨parameter, mqcftString, .monostate⟩ ∧
        parseStructure data' off' mqcftString n = .ok ⟨parameter, mqcftString, .string s⟩) := by
  have hfits := h.fits
  have hfits' := h.fits'
  simp only [parseStructure, if_neg (show mqcftString ≠ mqcftInteger by decide),
    if_neg (show mqcftString ≠ mqcftInteger64 by decide), if_true]
  by_cases h20 : 20 ≤ n
  · rw [if_pos h20, if_pos h20, readInt32_eq (by omega), readInt32_eq (by omega),
      readInt_eq (by omega), readInt_eq (by omega), h.int32At_eq (by omega), ← h.intAt_eq (by omega)]
    simp only [Outcome.ok_bind]
    constructor
    · intro hcut
      have hiff : (0 < intAt data (off + 16) ∧
          off + 20 + (intAt data (off + 16)).toNat ≤ data.length + off) ↔
          (0 < intAt data (off + 16) ∧
            off' + 20 + (intAt data (off + 16)).toNat ≤ data'.length + off') := by
        constructor
        · rintro ⟨hpos, hle⟩
          omega
        · rintro ⟨hpos, hle⟩
          refine ⟨hpos, ?_⟩
          by_contra hshort
          exact hcut ⟨htype, by omega, by omega, by omega⟩
      simp only [hiff]
      split
      · rw [h.slice_eq (by omega)]
      · rfl
    · rintro ⟨-, -, hover, hunder⟩
      rw [if_neg (by omega), if_pos (by omega), slice_eq_ok (by omega)]
      exact ⟨_, _, rfl, rfl⟩
  · rw [if_neg h20, if_neg h20]
    refine ⟨fun _ => rfl, ?_⟩
    rintro ⟨-, h20', -, -⟩
    omega

theorem parseStructure_stringList_same (h : SameBytes n data off data' off') (hle : off ≤ off')
    (hn : (intAt data (off + 4)).toNat = n) {p : PCFParameter}
    (hok : parseStructure data' off' mqcftStringList n = .ok p) :
    parseStructure data off mqcftStringList n = .ok p := by
  have hfits := h.fits
  have hfits' := h.fits'
  have hlength : intAt data (off + 4) < 2 ^ 31 := (int32At data (off + 4)).toInt_lt
  have hword : -2 ^ 31 ≤ intAt data (off + 20) := (int32At data (off + 20)).le_toInt
  simp only [parseStructure, if_neg (show mqcftStringList ≠ mqcftInteger by decide),
    if_neg (show mqcftStringList ≠ mqcftInteger64 by decide),
    if_neg (show mqcftStringList ≠ mqcftString by decide),
    if_neg (show ¬ (mqcftStringList = mqcftIntegerList ∨ mqcftStringList = mqcftInteger64List)
      by decide), if_true] at hok ⊢
  split at hok
  · next h24 =>
      rw [if_pos h24, h.readInt32_eq (by omega), h.readInt_eq (by omega), h.readInt_eq (by omega)]
      rw [readInt32_eq (by omega), readInt_eq (by omega), readInt_eq (by omega)] at hok ⊢
      simp only [Outcome.ok_bind] at hok ⊢
      rw [← h.intAt_eq (k := 20) (by omega)] at hok ⊢
      by_cases hneg : intAt data (off + 20) < 0
      · obtain ⟨strings, hstrings, hok⟩ := Outcome.bind_eq_ok.mp hok
        rw [parseStringValues_same_negative hneg hword (by omega) h24 hle hstrings]
        exact hok
      · rwa [parseStringValues_same h (by omega)]
  · next h24 => rwa [if_neg h24]

/-- Where the parser does not throw, it makes the same of a structure in the buffer that is
longer, unless the structure is cut; then it does not. -/
theorem parseAt_same (h : SameBytes (max n 8) data off data' off') (hle : off ≤ off')
    (hlen : data.length ≤ data'.length) (hnext : parserFraming.next (data.drop off) = some n)
    {p : PCFParameter} (hok : parseAt data' off' = .ok p) :
    parseAt data off = .ok p ↔ ¬ CutAt data data'.length off := by
  obtain ⟨h8, hpos, -, hn⟩ := parserFraming_next.mp hnext
  have hs := h.mono (Nat.le_max_left n 8)
  have hh := h.mono (Nat.le_max_right n 8)
  have htype : int32At data' off' = int32At data off := (hh.int32At_eq (k := 0) (by omega)).symm
  have hlength : intAt data' (off' + 4) = intAt data (off + 4) := (hh.intAt_eq (by omega)).symm
  unfold parseAt at hok ⊢
  rw [htype, hlength, hn] at hok
  rw [hn]
  split at hok
  · next hgroup =>
      have hcut : ¬ CutAt data data'.length off := by
        rintro ⟨hstring, -, -, -⟩
        rw [hgroup] at hstring
        exact absurd hstring (by decide)
      refine iff_of_true ?_ hcut
      rw [if_pos hgroup]
      split at hok
      · next h16 =>
          rw [if_pos h16, groupBody_same hs, hs.int32At_eq (by omega)]
          exact hok
      · next h16 => rwa [if_neg h16]
  · next hgroup =>
      rw [if_neg hgroup]
      by_cases hstring : int32At data off = mqcftString
      · obtain ⟨hsame, hother⟩ := parseStructure_string hs hn hstring hlen
        rw [hstring] at hok ⊢
        by_cases hcut : CutAt data data'.length off
        · obtain ⟨parameter, s, hcutOff, hwhole⟩ := hother hcut
          rw [hwhole] at hok
          obtain rfl := Outcome.ok.inj hok
          rw [hcutOff]
          simp [hcut]
        · rw [hsame hcut]
          exact iff_of_true hok hcut
      · have hcut : ¬ CutAt data data'.length off := fun hcut => hstring hcut.1
        refine iff_of_true ?_ hcut
        by_cases hlist : int32At data off = mqcftStringList
        · rw [hlist] at hok ⊢
          exact parseStructure_stringList_same hs hle hn hok
        · rwa [parseStructure_same hs hstring hlist]

end Same

/-! ## Buffers put together -/

theorem parserFraming_local : parserFraming.Local := by
  intro rest post n h
  obtain ⟨h8, hleast, hle, hclaim⟩ := Framing.next_eq_some.mp h
  have hsame : SameBytes 8 rest 0 (rest ++ post) 0 :=
    SameBytes.append_left post (by rw [Nat.zero_add]; exact h8)
  refine Framing.next_eq_some.mpr ⟨?_, hleast, ?_, ?_⟩
  · rw [List.length_append]
    omega
  · rw [List.length_append]
    omega
  · rw [← hclaim]
    exact congrArg Int.toNat (hsame.intAt_eq (k := 4) (by omega)).symm

/-- A structure is cut in one of the two buffers, and not in both together. -/
def Cut (a b : Bytes) : Prop :=
  (∃ off ∈ parserFraming.offsets a 0, CutAt a (a.length + b.length) off) ∨
    ∃ off ∈ parserFraming.offsets b 0, CutAt b (a.length + b.length) off

/-- The parser makes of two buffers, one behind the other, what it makes of each. -/
def Splits (a b : Bytes) (ps : List PCFParameter) : Prop :=
  ∃ pa pb, parseParameters a = .ok pa ∧ parseParameters b = .ok pb ∧ ps = pa ++ pb

/-- If the walk over the first buffer ends at its end and the parser does not throw, it
parses the buffers one by one if and only if no string is cut in one of them. -/
theorem parseParameters_append_iff {a b : Bytes} (hstop : parserFraming.stop a 0 = a.length)
    {ps : List PCFParameter} (hok : parseParameters (a ++ b) = .ok ps) :
    Splits a b ps ↔ ¬ Cut a b := by
  rw [parseParameters_eq_mapM, Framing.offsets_append parserFraming_local b (Nat.zero_le _) hstop,
    List.mapM_append, List.mapM_map] at hok
  obtain ⟨xs, hxs, hok⟩ := Outcome.bind_eq_ok.mp hok
  obtain ⟨ys, hys, hok⟩ := Outcome.bind_eq_ok.mp hok
  obtain rfl := Outcome.ok.inj hok
  have hlen : a.length + b.length = (a ++ b).length := List.length_append.symm
  have hfirst : parseParameters a = .ok xs ↔
      ∀ off ∈ parserFraming.offsets a 0, ¬ CutAt a (a.length + b.length) off := by
    rw [parseParameters_eq_mapM]
    refine Outcome.mapM_eq_ok_iff (fun off hoff p hp => ?_) hxs
    obtain ⟨n, hn⟩ := Framing.next_of_mem_offsets hoff
    have hbounds := parserFraming_next.mp hn
    have hsame : SameBytes (max n 8) a off (a ++ b) off :=
      SameBytes.append_left b (by omega)
    rw [hlen]
    exact parseAt_same hsame (Nat.le_refl off) (by omega) hn hp
  have hsecond : parseParameters b = .ok ys ↔
      ∀ off ∈ parserFraming.offsets b 0, ¬ CutAt b (a.length + b.length) off := by
    rw [parseParameters_eq_mapM]
    refine Outcome.mapM_eq_ok_iff (fun off hoff p hp => ?_) hys
    obtain ⟨n, hn⟩ := Framing.next_of_mem_offsets hoff
    have hbounds := parserFraming_next.mp hn
    have hsame : SameBytes (max n 8) b off (a ++ b) (a.length + off) :=
      SameBytes.append_right a (by omega)
    rw [hlen]
    exact parseAt_same hsame (by omega) (by omega) hn hp
  have hcut : ¬ Cut a b ↔ parseParameters a = .ok xs ∧ parseParameters b = .ok ys := by
    rw [hfirst, hsecond]
    simp only [Cut, not_or, not_exists, not_and]
  rw [hcut]
  constructor
  · rintro ⟨pa, pb, hpa, hpb, heq⟩
    -- both lists have one parameter for each structure of the first buffer
    have hlength : xs.length = pa.length := by
      rw [parseParameters_eq_mapM] at hpa
      rw [Outcome.length_of_mapM hxs, Outcome.length_of_mapM hpa]
    obtain ⟨rfl, rfl⟩ := List.append_inj heq hlength
    exact ⟨hpa, hpb⟩
  · rintro ⟨hpa, hpb⟩
    exact ⟨xs, ys, hpa, hpb, rfl⟩

/-- A string of 24 bytes that states eight characters, and has room for four. -/
def overlongString : Bytes :=
  encodeInt32 mqcftString ++ (encodeInt32 24 ++ (encodeInt32 mqcaQName ++ (encodeInt32 0 ++
    (encodeInt32 8 ++ [65, 66, 67, 68]))))

theorem offsets_overlongString (post : Bytes) (h : post.length < 8) :
    parserFraming.offsets (overlongString ++ post) 0 = [0] ∧
      parserFraming.stop (overlongString ++ post) 0 = 24 := by
  have hfirst : parserFraming.next ((overlongString ++ post).drop 0) = some 24 :=
    parserFraming_local overlongString post 24 (by decide +kernel)
  have hsecond : parserFraming.next ((overlongString ++ post).drop (0 + 24)) = none := by
    have hdrop : (overlongString ++ post).drop (0 + 24) = post := List.drop_left' rfl
    rw [hdrop, Framing.next, if_neg]
    rintro ⟨h8, -, -⟩
    exact absurd h8 (Nat.not_le.mpr h)
  rw [Framing.offsets_of_some hfirst, Framing.offsets_of_none hsecond,
    Framing.stop_of_some hfirst, Framing.stop_of_none hsecond]
  exact ⟨rfl, rfl⟩

theorem stop_overlongString : parserFraming.stop overlongString 0 = overlongString.length := by
  have h := (offsets_overlongString [] (by decide)).2
  rwa [List.append_nil] at h

theorem parse_overlongString :
    parseParameters overlongString = .ok [⟨mqcaQName, mqcftString, .monostate⟩] := by
  have h := (offsets_overlongString [] (by decide)).1
  rw [List.append_nil] at h
  rw [parseParameters_eq_mapM, h]
  rfl

theorem parse_overlongString_append :
    parseParameters (overlongString ++ [0, 0, 0, 0]) =
      .ok [⟨mqcaQName, mqcftString, .string [65, 66, 67, 68]⟩] := by
  rw [parseParameters_eq_mapM, (offsets_overlongString [0, 0, 0, 0] (by decide)).1]
  rfl

theorem parseParameters_append_iff_overlongString :
    Splits overlongString [0, 0, 0, 0] [⟨mqcaQName, mqcftString, .string [65, 66, 67, 68]⟩] ↔
      ¬ Cut overlongString [0, 0, 0, 0] :=
  parseParameters_append_iff stop_overlongString parse_overlongString_append

/-- Four bytes behind the string give it a value. -/
theorem not_parseParameters_append :
    ¬ ∀ a b ps, parserFraming.stop a 0 = a.length → parseParameters (a ++ b) = .ok ps →
      Splits a b ps := by
  intro h
  obtain ⟨pa, pb, hpa, -, hps⟩ :=
    h overlongString [0, 0, 0, 0] _ stop_overlongString parse_overlongString_append
  rw [parse_overlongString] at hpa
  obtain rfl := Outcome.ok.inj hpa
  cases hps

end IbmmqExporter.Pcf
