/-
  Pcf/InquirySafety.lean --- where the response readers read.

  The readers clamp the length or count that a parameter states to what the
  parameter can hold.  They compare `20 + str_len` and `16 + count * 4` with the
  parameter's length in 32-bit arithmetic.

  WHAT THE FILE PROVES.  Every read of the four readers lies inside the parameter,
  except when one of the two sums wraps around `2^32` and what is left of it does
  not exceed the parameter's length; then the clamp is skipped and the reader runs
  past the end.
-/
import IbmmqExporter.Pcf.Inquiry

set_option autoImplicit false

namespace IbmmqExporter.Pcf

open Foundation

/-! ## The readers' words -/

/-- The `StringLength` that a parameter states. -/
def statedStrLen (p : ResponseParam) : Nat := (uint32At p.pdata 16).toNat

/-- The `Count` that a parameter states. -/
def statedCount (p : ResponseParam) : Nat := (uint32At p.pdata 12).toNat

/-- `20 + str_len` wraps around. -/
def StringWraps (p : ResponseParam) : Prop :=
  24 ≤ p.plen.toNat ∧ 2 ^ 32 ≤ 20 + statedStrLen p

/-- `16 + count * 4` wraps around to at most the parameter's length. -/
def ListWraps (p : ResponseParam) : Prop :=
  16 ≤ p.plen.toNat ∧ 2 ^ 32 ≤ 16 + statedCount p * 4 ∧
    (16 + statedCount p * 4) % 2 ^ 32 ≤ p.plen.toNat

/-! ## The string reader -/

theorem pcfStringBytes_short {p : ResponseParam} (h : p.plen.toNat < 24) :
    pcfStringBytes p.pdata p.plen = .ok [] := by
  unfold pcfStringBytes
  rw [if_pos (by rw [UInt32.lt_iff_toNat_lt]; simpa using h)]
  rfl

/-- Without a wrap the string has the stated length, or what is left of the
parameter. -/
theorem pcfStringBytes_eq {p : ResponseParam} (h24 : 24 ≤ p.plen.toNat)
    (h : 20 + statedStrLen p < 2 ^ 32) :
    pcfStringBytes p.pdata p.plen =
      .ok ((p.pdata.drop 20).take (min (statedStrLen p) (p.plen.toNat - 20))) := by
  have hlen := p.length_pdata
  have hshort : ¬ p.plen < 24 := by
    rw [UInt32.lt_iff_toNat_lt]
    simpa using h24
  have hsum : (20 + uint32At p.pdata 16).toNat = 20 + statedStrLen p := by
    rw [UInt32.toNat_add]
    exact Nat.mod_eq_of_lt h
  unfold pcfStringBytes
  rw [if_neg hshort, readUInt32_eq (by omega), Outcome.ok_bind]
  dsimp only
  by_cases hclamp : p.plen < 20 + uint32At p.pdata 16
  · have hsub : (p.plen - 20).toNat = p.plen.toNat - 20 := by
      rw [UInt32.toNat_sub_of_le]
      · rfl
      · rw [UInt32.le_iff_toNat_le]
        exact Nat.le_trans (by decide) h24
    rw [if_pos hclamp, hsub, slice_eq_ok (by omega)]
    rw [UInt32.lt_iff_toNat_lt, hsum] at hclamp
    rw [Nat.min_eq_right (by omega)]
  · rw [if_neg hclamp]
    rw [UInt32.lt_iff_toNat_lt, hsum] at hclamp
    have hmin : min (statedStrLen p) (p.plen.toNat - 20) = (uint32At p.pdata 16).toNat :=
      Nat.min_eq_left (by omega)
    rw [hmin, slice_eq_ok]
    unfold statedStrLen at hclamp
    omega

/-- With a wrap the reader asks for the stated length, which no parameter has. -/
theorem pcfStringBytes_wraps {p : ResponseParam} (h : StringWraps p) :
    pcfStringBytes p.pdata p.plen = .undefined := by
  obtain ⟨h24, hwrap⟩ := h
  have hlen := p.length_pdata
  have hlt := p.plen.toNat_lt
  have hword := (uint32At p.pdata 16).toNat_lt
  have hshort : ¬ p.plen < 24 := by
    rw [UInt32.lt_iff_toNat_lt]
    simpa using h24
  unfold statedStrLen at hwrap
  have hsum : (20 + uint32At p.pdata 16).toNat < 24 := by
    rw [UInt32.toNat_add]
    have : (20 : UInt32).toNat = 20 := rfl
    omega
  have hclamp : ¬ p.plen < 20 + uint32At p.pdata 16 := by
    rw [UInt32.lt_iff_toNat_lt]
    omega
  unfold pcfStringBytes
  rw [if_neg hshort, readUInt32_eq (by omega), Outcome.ok_bind, if_neg hclamp, slice,
    if_neg (by omega)]

/-! ## The list reader -/

/-- The loop stays inside when its last element does. -/
theorem readPcfInts_inside {pdata : Bytes} (n : Nat) {i : UInt32}
    (h : 16 + 4 * (i.toNat + n) ≤ pdata.length) (hwrap : 4 * (i.toNat + n) < 2 ^ 32) :
    ∃ values, readPcfInts pdata n i = .ok values ∧ values.length = n := by
  induction n generalizing i with
  | zero => exact ⟨[], rfl, rfl⟩
  | succ n ih =>
      have hmul : (i * 4).toNat = 4 * i.toNat := by
        simp only [UInt32.toNat_mul, UInt32.toNat_ofNat]
        omega
      have hnext : (i + 1).toNat = i.toNat + 1 := by
        rw [UInt32.toNat_add]
        have : (1 : UInt32).toNat = 1 := rfl
        omega
      obtain ⟨values, hvalues, hlen⟩ := ih (by rw [hnext]; omega) (by rw [hnext]; omega)
      rw [readPcfInts, hmul, readInt32_eq (by omega), Outcome.ok_bind, hvalues]
      exact ⟨_, rfl, by simpa using hlen⟩

/-- A loop that returns has read each of its elements inside. -/
theorem inside_of_readPcfInts {pdata : Bytes} (n : Nat) {i : UInt32}
    {values : List Int32} (h : readPcfInts pdata n i = .ok values)
    (hwrap : i.toNat + n ≤ 2 ^ 32) :
    ∀ j < n, 16 + 4 * (i.toNat + j) % 2 ^ 32 + 4 ≤ pdata.length := by
  induction n generalizing i values with
  | zero =>
      intro j hj
      exact absurd hj (Nat.not_lt_zero j)
  | succ n ih =>
      rw [readPcfInts] at h
      obtain ⟨v, hv, hrest⟩ := Outcome.bind_eq_ok.mp h
      obtain ⟨rest, hrest, _⟩ := Outcome.bind_eq_ok.mp hrest
      have hfirst : 16 + (i * 4).toNat + 4 ≤ pdata.length := by
        by_contra hcon
        rw [readInt32, readUInt32_undefined (by omega)] at hv
        cases hv
      have hmul : (i * 4).toNat = 4 * i.toNat % 2 ^ 32 := by
        rw [UInt32.toNat_mul, Nat.mul_comm]
        rfl
      intro j hj
      cases j with
      | zero =>
          rw [hmul] at hfirst
          exact hfirst
      | succ j =>
          have hnext : (i + 1).toNat = i.toNat + 1 := by
            rw [UInt32.toNat_add]
            have : (1 : UInt32).toNat = 1 := rfl
            omega
          have hj := ih hrest (by rw [hnext]; omega) j (by omega)
          rw [hnext] at hj
          rw [show i.toNat + (j + 1) = i.toNat + 1 + j by omega]
          exact hj

theorem readPcfIntList_short {p : ResponseParam} (h : p.plen.toNat < 16) :
    readPcfIntList p.pdata p.plen = .ok [] := by
  unfold readPcfIntList
  rw [if_pos (by rw [UInt32.lt_iff_toNat_lt]; simpa using h)]
  rfl

/-- The count that the list reader takes, for a parameter of at least 16 bytes. -/
def takenCount (p : ResponseParam) : Nat :=
  if (16 + statedCount p * 4) % 2 ^ 32 ≤ p.plen.toNat then statedCount p
  else (p.plen.toNat - 16) / 4

theorem readPcfIntList_eq {p : ResponseParam} (h : 16 ≤ p.plen.toNat) :
    readPcfIntList p.pdata p.plen = readPcfInts p.pdata (takenCount p) 0 := by
  have hlen := p.length_pdata
  have hshort : ¬ p.plen < 16 := by
    rw [UInt32.lt_iff_toNat_lt]
    simpa using h
  have hsum : (16 + uint32At p.pdata 12 * 4).toNat = (16 + statedCount p * 4) % 2 ^ 32 := by
    rw [UInt32.toNat_add, UInt32.toNat_mul]
    simp [statedCount, Nat.add_mod]
  have hsub : ((p.plen - 16) / 4).toNat = (p.plen.toNat - 16) / 4 := by
    rw [UInt32.toNat_div, UInt32.toNat_sub_of_le]
    · rfl
    · rw [UInt32.le_iff_toNat_le]
      exact h
  unfold readPcfIntList takenCount
  rw [if_neg hshort, readUInt32_eq (by omega), Outcome.ok_bind]
  dsimp only
  by_cases hclamp : p.plen < 16 + uint32At p.pdata 12 * 4
  · have hnat : ¬ (16 + statedCount p * 4) % 2 ^ 32 ≤ p.plen.toNat := by
      rw [UInt32.lt_iff_toNat_lt, hsum] at hclamp
      omega
    rw [if_pos hclamp, if_neg hnat, hsub]
  · have hnat : (16 + statedCount p * 4) % 2 ^ 32 ≤ p.plen.toNat := by
      rw [UInt32.lt_iff_toNat_lt, hsum] at hclamp
      omega
    rw [if_neg hclamp, if_pos hnat, statedCount]

theorem readPcfIntList_inside {p : ResponseParam} (h : ¬ ListWraps p) :
    ∃ values, readPcfIntList p.pdata p.plen = .ok values ∧
      values.length ≤ (p.plen.toNat - 16) / 4 := by
  by_cases h16 : 16 ≤ p.plen.toNat
  · have hlen := p.length_pdata
    have hlt := p.plen.toNat_lt
    have hfits : 16 + 4 * takenCount p ≤ p.plen.toNat := by
      unfold takenCount
      split
      · rename_i hle
        by_cases hwrap : 2 ^ 32 ≤ 16 + statedCount p * 4
        · exact absurd ⟨h16, hwrap, hle⟩ h
        · rw [Nat.mod_eq_of_lt (by omega)] at hle
          omega
      · omega
    have hzero : (0 : UInt32).toNat = 0 := rfl
    have hlast : 16 + 4 * ((0 : UInt32).toNat + takenCount p) ≤ p.pdata.length := by
      rw [hzero]
      omega
    obtain ⟨values, hvalues, hcount⟩ := readPcfInts_inside (takenCount p) hlast
      (by rw [hzero]; omega)
    rw [readPcfIntList_eq h16]
    exact ⟨values, hvalues, by omega⟩
  · rw [readPcfIntList_short (by omega)]
    exact ⟨[], rfl, Nat.zero_le _⟩

theorem readPcfIntList_wraps {p : ResponseParam} (h : ListWraps p) :
    ¬ (readPcfIntList p.pdata p.plen).Returns := by
  obtain ⟨h16, hwrap, hle⟩ := h
  have hlen := p.length_pdata
  have hlt := p.plen.toNat_lt
  have hcount : statedCount p < 2 ^ 32 := (uint32At p.pdata 12).toNat_lt
  rw [readPcfIntList_eq h16, takenCount, if_pos hle]
  rintro ⟨values, hvalues⟩
  have hzero : (0 : UInt32).toNat = 0 := rfl
  have hall := inside_of_readPcfInts (statedCount p) hvalues (by rw [hzero]; omega)
  -- the first element that does not fit in the parameter
  have hbad := hall ((p.plen.toNat - 16) / 4) (by omega)
  rw [hzero, Nat.mod_eq_of_lt (by omega)] at hbad
  omega

/-! ## The readers on a response -/

/-- All reads of the four readers on a parameter lie inside it; the string has at
most `plen - 20` bytes before trimming and the list at most `(plen - 16) / 4`
elements. -/
structure ReadsInside (p : ResponseParam) : Prop where
  string : (readPcfString p.pdata p.plen).Returns
  int32 : (readPcfInt32 p.pdata p.plen).Returns
  int64 : (readPcfInt64 p.pdata p.plen).Returns
  intList : (readPcfIntList p.pdata p.plen).Returns
  string_le : ∀ s, pcfStringBytes p.pdata p.plen = .ok s → s.length ≤ p.plen.toNat - 20
  list_le : ∀ vs, readPcfIntList p.pdata p.plen = .ok vs →
    vs.length ≤ (p.plen.toNat - 16) / 4

theorem readPcfInt32_returns (p : ResponseParam) :
    (readPcfInt32 p.pdata p.plen).Returns := by
  have hlen := p.length_pdata
  unfold readPcfInt32
  split
  · exact Outcome.returns_ok _
  · rename_i h
    rw [UInt32.lt_iff_toNat_lt] at h
    have : (16 : UInt32).toNat = 16 := rfl
    rw [readInt32_eq (by omega)]
    exact Outcome.returns_ok _

theorem readPcfInt64_returns (p : ResponseParam) :
    (readPcfInt64 p.pdata p.plen).Returns := by
  have hlen := p.length_pdata
  unfold readPcfInt64
  split
  · exact Outcome.returns_ok _
  · rename_i h
    rw [UInt32.lt_iff_toNat_lt] at h
    have : (24 : UInt32).toNat = 24 := rfl
    rw [readInt64_eq (by omega)]
    exact Outcome.returns_ok _

theorem pcfStringBytes_inside {p : ResponseParam} (h : ¬ StringWraps p) :
    ∃ s, pcfStringBytes p.pdata p.plen = .ok s ∧ s.length ≤ p.plen.toNat - 20 := by
  by_cases h24 : 24 ≤ p.plen.toNat
  · have hwrap : 20 + statedStrLen p < 2 ^ 32 := by
      by_contra hcon
      exact h ⟨h24, by omega⟩
    refine ⟨_, pcfStringBytes_eq h24 hwrap, ?_⟩
    rw [List.length_take]
    omega
  · exact ⟨[], pcfStringBytes_short (by omega), Nat.zero_le _⟩

theorem readsInside_of_not_wraps {p : ResponseParam} (hs : ¬ StringWraps p)
    (hl : ¬ ListWraps p) : ReadsInside p := by
  obtain ⟨s, hs, hslen⟩ := pcfStringBytes_inside hs
  obtain ⟨vs, hvs, hvslen⟩ := readPcfIntList_inside hl
  refine ⟨?_, readPcfInt32_returns p, readPcfInt64_returns p, ⟨vs, hvs⟩, ?_, ?_⟩
  · rw [readPcfString, hs]
    exact Outcome.returns_ok _
  · intro s' hs'
    rw [hs] at hs'
    cases hs'
    exact hslen
  · intro vs' hvs'
    rw [hvs] at hvs'
    cases hvs'
    exact hvslen

theorem not_wraps_of_readsInside {p : ResponseParam} (h : ReadsInside p) :
    ¬ StringWraps p ∧ ¬ ListWraps p := by
  constructor
  · intro hwrap
    have hstring := h.string
    rw [readPcfString, pcfStringBytes_wraps hwrap] at hstring
    exact absurd hstring (Outcome.not_returns_undefined)
  · intro hwrap
    exact readPcfIntList_wraps hwrap h.intList

/-- The readers stay inside the visited parameters of a response exactly when no
parameter makes a clamp wrap around. -/
theorem readsInside_iff (data : Bytes) :
    (∀ p ∈ responseParams data, ReadsInside p) ↔
      ∀ p ∈ responseParams data, ¬ StringWraps p ∧ ¬ ListWraps p := by
  constructor
  · intro h p hp
    exact not_wraps_of_readsInside (h p hp)
  · intro h p hp
    obtain ⟨hs, hl⟩ := h p hp
    exact readsInside_of_not_wraps hs hl

instance (p : ResponseParam) : Decidable (StringWraps p) :=
  inferInstanceAs (Decidable (_ ∧ _))

/-- A response with one string parameter of 24 bytes that states `2^32 - 1` as the
length of its string. -/
def wrappingResponse : Bytes :=
  List.replicate 36 0 ++
    (encodeInt32 4 ++ (encodeInt32 24 ++ (encodeInt32 3501 ++ (encodeInt32 0 ++
      (encodeUInt32 0xFFFFFFFF ++ [65, 66, 67, 68])))))

theorem wrappingResponse_not_inside :
    ¬ ∀ p ∈ responseParams wrappingResponse, ReadsInside p := by
  intro h
  have hwraps : ∃ p ∈ responseParams wrappingResponse, StringWraps p := by
    decide +kernel
  obtain ⟨p, hp, hwrap⟩ := hwraps
  exact (not_wraps_of_readsInside (h p hp)).1 hwrap

end IbmmqExporter.Pcf
