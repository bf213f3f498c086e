/-
  Pcf/Values.lean --- how many values `parse_parameters` makes of a buffer.

  The loops over the elements of a list count down from a Count of the wire, and stop
  where the next element would not fit into the structure any more.  An empty string
  always fits.

  WHAT THE FILE PROVES.  The values that take up bytes are not more than the bytes.  All
  values together are not more than the bytes if and only if the empty strings, as many
  as the string lists of StringLength zero state, are not more than the others leave.
-/
import Mathlib.Algebra.BigOperators.Group.List.Basic
import IbmmqExporter.Pcf.Encode
import IbmmqExporter.Pcf.Safety

set_option autoImplicit false

namespace IbmmqExporter.Pcf

open Foundation

/-! ## Values -/

/- The values in a parameter, and in a list of parameters. -/
mutual
/-- A parameter, with the elements of its list or what its group holds. -/
def PCFParameter.values : PCFParameter → Nat
  | ⟨_, _, .group nested⟩ => 1 + decodedValues nested
  | ⟨_, _, .intList vs⟩ => 1 + vs.length
  | ⟨_, _, .stringList ss⟩ => 1 + ss.length
  | ⟨_, _, .int32 _⟩ => 1
  | ⟨_, _, .string _⟩ => 1
  | ⟨_, _, .monostate⟩ => 1
  | ⟨_, _, .int64 _⟩ => 1
/-- The values of a list of parameters, at all levels. -/
def decodedValues : List PCFParameter → Nat
  | [] => 0
  | p :: ps => p.values + decodedValues ps
end

/-! ## Counting over a buffer -/

/-- What `f` counts at the structures of a buffer, at all levels. -/
def countOver (f : Bytes → Nat → Nat) (data : Bytes) : Nat :=
  ((parserFraming.offsets data 0).attach.map fun off =>
    f data off.1 +
      if int32At data off.1 = mqcftGroup ∧ 16 ≤ intAt data (off.1 + 4) then
        countOver f (groupBody data off.1 (intAt data (off.1 + 4)).toNat)
      else 0).sum
termination_by data.length
decreasing_by
  obtain ⟨n, hn⟩ := Framing.next_of_mem_offsets off.2
  obtain ⟨-, -, -, rfl⟩ := parserFraming_next.mp hn
  exact length_groupBody_lt hn

/-- What `f` counts at a structure and inside of it. -/
def countedAt (f : Bytes → Nat → Nat) (data : Bytes) (off : Nat) : Nat :=
  f data off +
    if int32At data off = mqcftGroup ∧ 16 ≤ intAt data (off + 4) then
      countOver f (groupBody data off (intAt data (off + 4)).toNat)
    else 0

theorem countOver_eq (f : Bytes → Nat → Nat) (data : Bytes) :
    countOver f data = ((parserFraming.offsets data 0).map (countedAt f data)).sum := by
  rw [countOver]
  congr 1
  exact List.attach_map_val (f := countedAt f data)

/-- The elements that fit into `room` bytes of an integer list. -/
def integersFitting (paramType : Int32) (room : Nat) : Nat :=
  if paramType = mqcftInteger64List then room / 8 + room % 8 / 4 else room / 4

/-- A structure, and the elements of its list that take up bytes. -/
def sizedAt (data : Bytes) (off : Nat) : Nat :=
  let paramType := int32At data off
  let strucLength := intAt data (off + 4)
  if (paramType = mqcftIntegerList ∨ paramType = mqcftInteger64List) ∧ 16 ≤ strucLength then
    1 + min (intAt data (off + 12)).toNat (integersFitting paramType (strucLength.toNat - 16))
  else if paramType = mqcftStringList ∧ 24 ≤ strucLength ∧ 0 < intAt data (off + 20) then
    1 + min (intAt data (off + 16)).toNat
      ((strucLength.toNat - 24) / (intAt data (off + 20)).toNat)
  else 1

/-- The empty strings of a structure: the Count of a string list of StringLength zero. -/
def emptyAt (data : Bytes) (off : Nat) : Nat :=
  if int32At data off = mqcftStringList ∧ 24 ≤ intAt data (off + 4) ∧
      intAt data (off + 20) = 0 then
    (intAt data (off + 16)).toNat
  else 0

/-- The values that take up bytes. -/
def sizedValues (data : Bytes) : Nat := countOver sizedAt data

/-- The elements that do not. -/
def emptyStrings (data : Bytes) : Nat := countOver emptyAt data

/-! ## The loops over the elements -/

theorem length_parseIntValues {data : Bytes} {paramType : Int32} {stop count off : Nat}
    {vs : List Int64} (h : parseIntValues data paramType stop count off = .ok vs) :
    vs.length = min count (integersFitting paramType (stop - off)) := by
  induction count generalizing off vs with
  | zero =>
      obtain rfl := Outcome.ok.inj h
      exact (Nat.zero_min _).symm
  | succ count ih =>
      rw [parseIntValues] at h
      split at h
      · next hfits =>
          split at h
          · next hwide =>
              obtain ⟨v, -, h⟩ := Outcome.bind_eq_ok.mp h
              obtain ⟨values, hvalues, h⟩ := Outcome.bind_eq_ok.mp h
              obtain rfl := Outcome.ok.inj h
              rw [List.length_cons, ih hvalues]
              simp only [integersFitting, if_pos hwide.1]
              omega
          · next hnarrow =>
              obtain ⟨v, -, h⟩ := Outcome.bind_eq_ok.mp h
              obtain ⟨values, hvalues, h⟩ := Outcome.bind_eq_ok.mp h
              obtain rfl := Outcome.ok.inj h
              rw [List.length_cons, ih hvalues]
              unfold integersFitting
              split
              · next htype =>
                  have hlast : ¬ off + 8 ≤ stop := fun h8 => hnarrow ⟨htype, h8⟩
                  omega
              · omega
      · next hstop =>
          obtain rfl := Outcome.ok.inj h
          have hnone : integersFitting paramType (stop - off) = 0 := by
            unfold integersFitting
            split <;> omega
          rw [hnone, Nat.min_zero]
          rfl

theorem length_parseStringValues {data : Bytes} {strLen : Int} {stop count off : Nat}
    {ss : List Bytes} (hpos : 0 < strLen)
    (h : parseStringValues data strLen stop count off = .ok ss) :
    ss.length = min count ((stop - off) / strLen.toNat) := by
  have hadd (off : Nat) : sizeAdd off strLen = off + strLen.toNat := by
    rw [sizeAdd, if_pos (by omega)]
    omega
  induction count generalizing off ss with
  | zero =>
      obtain rfl := Outcome.ok.inj h
      exact (Nat.zero_min _).symm
  | succ count ih =>
      rw [parseStringValues, hadd] at h
      split at h
      · next hfits =>
          rw [if_neg (by omega)] at h
          obtain ⟨s, -, h⟩ := Outcome.bind_eq_ok.mp h
          obtain ⟨strings, hstrings, h⟩ := Outcome.bind_eq_ok.mp h
          obtain rfl := Outcome.ok.inj h
          have hdiv : (stop - off) / strLen.toNat = (stop - (off + strLen.toNat)) / strLen.toNat + 1 := by
            rw [Nat.div_eq_sub_div (by omega) (by omega), Nat.sub_sub]
          rw [List.length_cons, ih hstrings, hdiv, Nat.succ_min_succ]
      · next hstop =>
          obtain rfl := Outcome.ok.inj h
          rw [Nat.div_eq_of_lt (by omega), Nat.min_zero]
          rfl

/-- The loop over empty strings gives as many as the Count states. -/
theorem length_parseStringValues_zero {data : Bytes} {stop count off : Nat} {ss : List Bytes}
    (hoff : off ≤ stop) (h : parseStringValues data 0 stop count off = .ok ss) :
    ss.length = count := by
  have hadd : sizeAdd off 0 = off := by
    rw [sizeAdd, if_pos (by omega)]
    omega
  induction count generalizing ss with
  | zero =>
      obtain rfl := Outcome.ok.inj h
      rfl
  | succ count ih =>
      rw [parseStringValues, hadd, if_pos hoff, if_neg (by omega)] at h
      obtain ⟨s, -, h⟩ := Outcome.bind_eq_ok.mp h
      obtain ⟨strings, hstrings, h⟩ := Outcome.bind_eq_ok.mp h
      obtain rfl := Outcome.ok.inj h
      rw [List.length_cons, ih hstrings]

/-! ## Structures -/

/-- A structure that is neither a list nor a group is one value. -/
theorem sizedAt_other {data : Bytes} {off : Nat}
    (hints : ¬ (int32At data off = mqcftIntegerList ∨ int32At data off = mqcftInteger64List))
    (hstrings : int32At data off ≠ mqcftStringList) :
    sizedAt data off = 1 ∧ emptyAt data off = 0 := by
  unfold sizedAt emptyAt
  dsimp only
  rw [if_neg fun h => hints h.1, if_neg fun h => hstrings h.1, if_neg fun h => hstrings h.1]
  exact ⟨rfl, rfl⟩

/-- The strings of a string list. -/
theorem length_strings {data : Bytes} {off : Nat} {ss : List Bytes}
    (htype : int32At data off = mqcftStringList) (h24 : 24 ≤ intAt data (off + 4))
    (h : parseStringValues data (intAt data (off + 20)) (off + (intAt data (off + 4)).toNat)
      (intAt data (off + 16)).toNat (off + 24) = .ok ss) :
    1 + ss.length = sizedAt data off + emptyAt data off := by
  have hints : ¬ (int32At data off = mqcftIntegerList ∨
      int32At data off = mqcftInteger64List) := by
    rw [htype]
    decide
  unfold sizedAt emptyAt
  dsimp only
  rw [if_neg fun hints' => hints hints'.1]
  rcases Int.lt_trichotomy (intAt data (off + 20)) 0 with hneg | hzero | hpos
  · rw [parseStringValues_negative hneg] at h
    split at h
    · cases h
    · obtain rfl := Outcome.ok.inj h
      rw [if_neg (by omega), if_neg (by omega)]
      rfl
  · rw [hzero] at h
    rw [if_neg (by omega), if_pos ⟨htype, h24, hzero⟩,
      length_parseStringValues_zero (by omega) h]
  · have hroom : off + (intAt data (off + 4)).toNat - (off + 24) =
        (intAt data (off + 4)).toNat - 24 := by omega
    rw [if_pos ⟨htype, h24, hpos⟩, if_neg (by omega), length_parseStringValues hpos h, hroom]
    rfl

/-- A structure that is no string list states no empty strings. -/
theorem emptyAt_other {data : Bytes} {off : Nat} (h : int32At data off ≠ mqcftStringList) :
    emptyAt data off = 0 :=
  if_neg fun hlist => h hlist.1

/-- The integers of an integer list. -/
theorem values_integers {data : Bytes} {off : Nat} {p : PCFParameter}
    (hints : int32At data off = mqcftIntegerList ∨ int32At data off = mqcftInteger64List)
    (h8 : off + 8 ≤ data.length) (hpos : 0 < intAt data (off + 4))
    (hle : (intAt data (off + 4)).toNat ≤ data.length - off)
    (hp : parseStructure data off (int32At data off) (intAt data (off + 4)).toNat = .ok p) :
    p.values = sizedAt data off + emptyAt data off := by
  have hplain : int32At data off ≠ mqcftInteger ∧ int32At data off ≠ mqcftInteger64 ∧
      int32At data off ≠ mqcftString ∧ int32At data off ≠ mqcftStringList := by
    rcases hints with htype | htype <;> rw [htype] <;> decide
  unfold parseStructure at hp
  rw [if_neg hplain.1, if_neg hplain.2.1, if_neg hplain.2.2.1, if_pos hints] at hp
  rw [emptyAt_other hplain.2.2.2, Nat.add_zero]
  unfold sizedAt
  dsimp only
  by_cases h16 : 16 ≤ intAt data (off + 4)
  · rw [if_pos (by omega), readInt32_eq (by omega), readInt_eq (by omega)] at hp
    simp only [Outcome.ok_bind] at hp
    obtain ⟨values, hvalues, hp⟩ := Outcome.bind_eq_ok.mp hp
    obtain rfl := Outcome.ok.inj hp
    have hroom : off + (intAt data (off + 4)).toNat - (off + 16) =
        (intAt data (off + 4)).toNat - 16 := by omega
    rw [if_pos ⟨hints, h16⟩, PCFParameter.values, length_parseIntValues hvalues, hroom]
  · rw [if_neg (by omega)] at hp
    obtain rfl := Outcome.ok.inj hp
    rw [if_neg fun hlong => h16 hlong.2, if_neg fun hlist => hplain.2.2.2 hlist.1]
    rfl

/-- The strings of a string list, and the list. -/
theorem values_strings {data : Bytes} {off : Nat} {p : PCFParameter}
    (hstrings : int32At data off = mqcftStringList)
    (h8 : off + 8 ≤ data.length) (hpos : 0 < intAt data (off + 4))
    (hle : (intAt data (off + 4)).toNat ≤ data.length - off)
    (hp : parseStructure data off (int32At data off) (intAt data (off + 4)).toNat = .ok p) :
    p.values = sizedAt data off + emptyAt data off := by
  have hints : ¬ (int32At data off = mqcftIntegerList ∨
      int32At data off = mqcftInteger64List) := by
    rw [hstrings]
    decide
  unfold parseStructure at hp
  rw [hstrings, if_neg (by decide), if_neg (by decide), if_neg (by decide),
    if_neg (by decide), if_pos rfl] at hp
  by_cases h24 : 24 ≤ intAt data (off + 4)
  · rw [if_pos (by omega), readInt32_eq (by omega), readInt_eq (by omega),
      readInt_eq (by omega)] at hp
    simp only [Outcome.ok_bind] at hp
    obtain ⟨strings, hss, hp⟩ := Outcome.bind_eq_ok.mp hp
    obtain rfl := Outcome.ok.inj hp
    exact length_strings hstrings h24 hss
  · rw [if_neg (by omega)] at hp
    obtain rfl := Outcome.ok.inj hp
    unfold sizedAt emptyAt
    dsimp only
    rw [if_neg fun hints' => hints hints'.1, if_neg fun hlong => h24 hlong.2.1,
      if_neg fun hlong => h24 hlong.2.1]
    rfl

/-- Any other structure has no elements. -/
theorem values_other {data : Bytes} {off n : Nat} {p : PCFParameter}
    (hints : ¬ (int32At data off = mqcftIntegerList ∨ int32At data off = mqcftInteger64List))
    (hstrings : int32At data off ≠ mqcftStringList)
    (hp : parseStructure data off (int32At data off) n = .ok p) : p.values = 1 := by
  unfold parseStructure at hp
  rw [if_neg hints, if_neg hstrings] at hp
  split at hp
  · split at hp
    · obtain ⟨parameter, -, hp⟩ := Outcome.bind_eq_ok.mp hp
      obtain ⟨value, -, hp⟩ := Outcome.bind_eq_ok.mp hp
      obtain rfl := Outcome.ok.inj hp
      rfl
    · obtain rfl := Outcome.ok.inj hp
      rfl
  · split at hp
    · split at hp
      · obtain ⟨parameter, -, hp⟩ := Outcome.bind_eq_ok.mp hp
        obtain ⟨value, -, hp⟩ := Outcome.bind_eq_ok.mp hp
        obtain rfl := Outcome.ok.inj hp
        rfl
      · obtain rfl := Outcome.ok.inj hp
        rfl
    · split at hp
      · split at hp
        · obtain ⟨parameter, -, hp⟩ := Outcome.bind_eq_ok.mp hp
          obtain ⟨strLen, -, hp⟩ := Outcome.bind_eq_ok.mp hp
          split at hp
          · obtain ⟨s, -, hp⟩ := Outcome.bind_eq_ok.mp hp
            obtain rfl := Outcome.ok.inj hp
            rfl
          · obtain rfl := Outcome.ok.inj hp
            rfl
        · obtain rfl := Outcome.ok.inj hp
          rfl
      · split at hp
        · obtain ⟨parameter, -, hp⟩ := Outcome.bind_eq_ok.mp hp
          obtain rfl := Outcome.ok.inj hp
          rfl
        · obtain rfl := Outcome.ok.inj hp
          rfl

/-- The values of one structure, when the bodies of groups are counted. -/
theorem values_parseAt {data : Bytes} {off n : Nat} {p : PCFParameter}
    (h : parserFraming.next (data.drop off) = some n)
    (hbody : ∀ ps, parseParameters (groupBody data off n) = .ok ps →
      decodedValues ps = sizedValues (groupBody data off n) +
        emptyStrings (groupBody data off n))
    (hp : parseAt data off = .ok p) :
    p.values = countedAt sizedAt data off + countedAt emptyAt data off := by
  obtain ⟨h8, hpos, hle, rfl⟩ := parserFraming_next.mp h
  unfold parseAt at hp
  unfold countedAt
  by_cases hgroup : int32At data off = mqcftGroup
  · have hints : ¬ (int32At data off = mqcftIntegerList ∨
        int32At data off = mqcftInteger64List) := by
      rw [hgroup]
      decide
    have hstrings : int32At data off ≠ mqcftStringList := by
      rw [hgroup]
      decide
    obtain ⟨hsized, hempty⟩ := sizedAt_other hints hstrings
    rw [if_pos hgroup] at hp
    rw [hsized, hempty]
    by_cases h16 : 16 ≤ intAt data (off + 4)
    · rw [if_pos h16] at hp
      obtain ⟨nested, hnested, hp⟩ := Outcome.bind_eq_ok.mp hp
      obtain rfl := Outcome.ok.inj hp
      rw [if_pos ⟨hgroup, h16⟩, if_pos ⟨hgroup, h16⟩, PCFParameter.values, hbody nested hnested]
      unfold sizedValues emptyStrings
      omega
    · rw [if_neg h16] at hp
      obtain rfl := Outcome.ok.inj hp
      rw [if_neg fun hlong => h16 hlong.2, if_neg fun hlong => h16 hlong.2]
      rfl
  · rw [if_neg hgroup] at hp
    rw [if_neg fun hlong => hgroup hlong.1, if_neg fun hlong => hgroup hlong.1]
    by_cases hints : int32At data off = mqcftIntegerList ∨ int32At data off = mqcftInteger64List
    · exact values_integers hints h8 hpos hle hp
    · by_cases hstrings : int32At data off = mqcftStringList
      · exact values_strings hstrings h8 hpos hle hp
      · obtain ⟨hsized, hempty⟩ := sizedAt_other hints hstrings
        rw [hsized, hempty, values_other hints hstrings hp]

/-! ## Buffers -/

theorem decodedValues_eq_sum (ps : List PCFParameter) :
    decodedValues ps = (ps.map PCFParameter.values).sum := by
  induction ps with
  | nil => rfl
  | cons p ps ih => rw [decodedValues, ih, List.map_cons, List.sum_cons]

/-- The values of a buffer are those that take up bytes and the empty strings. -/
theorem decodedValues_eq {data : Bytes} {ps : List PCFParameter}
    (h : parseParameters data = .ok ps) :
    decodedValues ps = sizedValues data + emptyStrings data := by
  induction hk : data.length using Nat.strongRecOn generalizing data ps with
  | ind k ih =>
      rw [parseParameters_eq_mapM] at h
      have hvalues : ps.map PCFParameter.values = (parserFraming.offsets data 0).map
          fun off => countedAt sizedAt data off + countedAt emptyAt data off := by
        refine Outcome.map_of_mapM h ?_
        intro off hoff p hp
        obtain ⟨n, hn⟩ := Framing.next_of_mem_offsets hoff
        refine values_parseAt hn ?_ hp
        intro nested hnested
        exact ih _ (hk ▸ length_groupBody_lt hn) hnested rfl
      rw [decodedValues_eq_sum, sizedValues, emptyStrings, countOver_eq, countOver_eq, hvalues,
        List.sum_map_add]

/-- What fits into a structure is no longer than the structure. -/
theorem sizedAt_le {data : Bytes} {off n : Nat}
    (h : parserFraming.next (data.drop off) = some n) : sizedAt data off ≤ n := by
  obtain ⟨h8, hpos, hle, rfl⟩ := parserFraming_next.mp h
  unfold sizedAt
  dsimp only
  split
  · next hlong =>
      have hroom : integersFitting (int32At data off) ((intAt data (off + 4)).toNat - 16) ≤
          (intAt data (off + 4)).toNat - 16 := by
        unfold integersFitting
        split <;> omega
      have hmin := Nat.min_le_right (intAt data (off + 12)).toNat
        (integersFitting (int32At data off) ((intAt data (off + 4)).toNat - 16))
      omega
  · split
    · next hlong =>
        have hroom := Nat.div_le_self ((intAt data (off + 4)).toNat - 24)
          (intAt data (off + 20)).toNat
        have hmin := Nat.min_le_right (intAt data (off + 16)).toNat
          (((intAt data (off + 4)).toNat - 24) / (intAt data (off + 20)).toNat)
        omega
    · omega

/-- With the values in a group's body, too. -/
theorem countedAt_sizedAt_le {data : Bytes} {off n : Nat}
    (h : parserFraming.next (data.drop off) = some n)
    (hbody : sizedValues (groupBody data off n) ≤ (groupBody data off n).length) :
    countedAt sizedAt data off ≤ n := by
  obtain ⟨h8, hpos, hle, rfl⟩ := parserFraming_next.mp h
  unfold countedAt
  split
  · next hgroup =>
      have hints : ¬ (int32At data off = mqcftIntegerList ∨
          int32At data off = mqcftInteger64List) := by
        rw [hgroup.1]
        decide
      have hstrings : int32At data off ≠ mqcftStringList := by
        rw [hgroup.1]
        decide
      have hlen : (groupBody data off (intAt data (off + 4)).toNat).length ≤
          (intAt data (off + 4)).toNat - 16 := List.length_take_le _ _
      unfold sizedValues at hbody
      rw [(sizedAt_other hints hstrings).1]
      omega
  · exact sizedAt_le h

/-- The values that take up bytes are not more than the bytes. -/
theorem sizedValues_le (data : Bytes) : sizedValues data ≤ data.length := by
  induction hk : data.length using Nat.strongRecOn generalizing data with
  | ind k ih =>
      rw [sizedValues, countOver_eq, ← hk]
      refine Framing.sum_offsets_le ?_ 0
      intro off n hn
      refine countedAt_sizedAt_le hn ?_
      exact ih _ (hk ▸ length_groupBody_lt hn) _ rfl

/-! ## The bound -/

/-- What `parse_parameters` makes of a buffer is not more values than there are bytes. -/
def BoundedByBytes (data : Bytes) : Prop :=
  ∀ ps, parseParameters data = .ok ps → decodedValues ps ≤ data.length

/-- The number of values is bounded by the bytes if and only if the empty strings of a buffer
that the parser accepts are not more than the bytes that the other values leave. -/
theorem boundedByBytes_iff (data : Bytes) :
    BoundedByBytes data ↔
      (Accepted data → emptyStrings data ≤ data.length - sizedValues data) := by
  have hle := sizedValues_le data
  obtain ⟨-, hreturns⟩ := parseParameters_decides data
  constructor
  · intro hbound haccepted
    obtain ⟨ps, hps⟩ := hreturns.mpr haccepted
    have hvalues := hbound ps hps
    rw [decodedValues_eq hps] at hvalues
    omega
  · intro hempty ps hps
    have hroom := hempty (hreturns.mp ⟨ps, hps⟩)
    rw [decodedValues_eq hps]
    omega

/-- A string list of 24 bytes that states thirty empty strings. -/
def thirtyEmptyStrings : Bytes :=
  encodeStructure mqcftStringList 3050 (encodeInt32 0 ++ (encodeInt32 30 ++ encodeInt32 0))

theorem parseParameters_thirtyEmptyStrings :
    parseParameters thirtyEmptyStrings = .ok
      [{ type := mqcftStringList, parameter := 3050,
         value := .stringList (List.replicate 30 []) }] := by
  have hnext : parserFraming.next (thirtyEmptyStrings.drop 0) = some 24 := by decide
  have hend : parserFraming.next (thirtyEmptyStrings.drop 24) = none := by decide
  rw [parseParameters_eq_mapM, Framing.offsets_of_some hnext, Framing.offsets_of_none hend]
  rfl

/-- Those 24 bytes become 31 values. -/
theorem not_boundedByBytes_thirty : ¬ BoundedByBytes thirtyEmptyStrings := by
  intro hbound
  have hvalues := hbound _ parseParameters_thirtyEmptyStrings
  rw [decodedValues, decodedValues, PCFParameter.values, List.length_replicate] at hvalues
  exact absurd hvalues (by decide)

end IbmmqExporter.Pcf
