/-
  Mq/Names.lean --- the queue names that `MQClient::discover_queues` reads.

  WHAT THE FILE PROVES.  The loop over a response adds the names of certain readings to
  the queues, one by one; and when such a name lies inside the structure it is read from.
-/
import IbmmqExporter.Foundation.Extent
import IbmmqExporter.Mq.Discovery

set_option autoImplicit false

namespace IbmmqExporter.Mq

open Foundation Pcf

/-! ## Readings -/

/-- What the loop over a name trims. -/
def trimmed (b : UInt8) : Bool := decide (b = nul ∨ b = blank)

/-- The name that is read. -/
def readName (resp : Bytes) (r : Reading) : Bytes := trimPadding (r.raw resp)

/-- Where the structure at `offset` ends. -/
def endOf (resp : Bytes) (offset : Nat) : Nat := offset + (uint32At resp (offset + 4)).toNat

/-- The name in the MQCFST at `offset`. -/
def stringReadings (resp : Bytes) (offset : Nat) : List Reading :=
  let strLen := uint32At resp (offset + 16)
  if uint32At resp (offset + 8) = 2016 ∧ 0 < strLen ∧
      offset + 20 + strLen.toNat ≤ resp.length then
    [Reading.behind offset (endOf resp offset) 20 strLen.toNat]
  else []

/-- The names in the MQCFSL at `offset` that are left, `n` of them at most. -/
def listReadings (resp : Bytes) (offset strLen : Nat) :
    Nat → (pos : Nat) → offset ≤ pos → List Reading
  | 0, _, _ => []
  | n + 1, pos, h =>
      if resp.length < pos + strLen then []
      else
        { start := offset, stop := endOf resp offset, pos := pos, len := strLen, start_le := h } ::
          listReadings resp offset strLen n (pos + strLen) (Nat.le_add_right_of_le h)

/-- The names in the structure at `offset`. -/
def readingsAt (resp : Bytes) (offset : Nat) : List Reading :=
  let paramType := uint32At resp offset
  let paramLen := uint32At resp (offset + 4)
  if paramType = 4 ∧ 24 ≤ paramLen then stringReadings resp offset
  else if paramType = 6 ∧ 24 ≤ paramLen then
    if uint32At resp (offset + 8) = 2016 ∧ 0 < uint32At resp (offset + 20) then
      listReadings resp offset (uint32At resp (offset + 20)).toNat
        (uint32At resp (offset + 16)).toNat (offset + 24) (Nat.le_add_right offset 24)
    else []
  else []

/-- The names in a response. -/
def readings (resp : Bytes) : List Reading :=
  if 36 ≤ resp.length ∧ uint32At resp 24 = 0 then
    (responseFraming.offsets resp 36).flatMap (readingsAt resp)
  else []

/-- The queues with the names of some readings. -/
def addNames (resp : Bytes) (queues : List Bytes) (rs : List Reading) : List Bytes :=
  (rs.map (readName resp)).foldl addQueue queues

/-! ## The loop -/

theorem addNames_append (resp : Bytes) (queues : List Bytes) (rs rs' : List Reading) :
    addNames resp queues (rs ++ rs') = addNames resp (addNames resp queues rs) rs' := by
  simp [addNames, List.foldl_append]

theorem discoverString_eq {resp : Bytes} {offset : Nat} (h : offset + 24 ≤ resp.length)
    (queues : List Bytes) :
    discoverString resp queues offset =
      .ok (addNames resp queues (stringReadings resp offset)) := by
  unfold discoverString stringReadings
  rw [readUInt32_eq (by omega), readUInt32_eq (by omega)]
  simp only [Outcome.ok_bind]
  split
  · next hname =>
      rw [slice_eq_ok (by omega)]
      rfl
  · rfl

theorem discoverStrings_names (resp : Bytes) (offset strLen n pos : Nat) (h : offset ≤ pos)
    (queues : List Bytes) :
    discoverStrings resp strLen n pos queues =
      .ok (addNames resp queues (listReadings resp offset strLen n pos h)) := by
  induction n generalizing pos queues with
  | zero => rfl
  | succ n ih =>
      unfold discoverStrings listReadings
      split
      · rfl
      · next hfits =>
          rw [slice_eq_ok (by omega), Outcome.ok_bind, ih _ (Nat.le_add_right_of_le h)]
          rfl

theorem discoverList_eq {resp : Bytes} {offset : Nat} (h : offset + 24 ≤ resp.length)
    (queues : List Bytes) :
    discoverList resp queues offset =
      .ok (addNames resp queues
        (if uint32At resp (offset + 8) = 2016 ∧ 0 < uint32At resp (offset + 20) then
          listReadings resp offset (uint32At resp (offset + 20)).toNat
            (uint32At resp (offset + 16)).toNat (offset + 24) (Nat.le_add_right offset 24)
        else [])) := by
  unfold discoverList
  rw [readUInt32_eq (by omega), readUInt32_eq (by omega), readUInt32_eq (by omega)]
  simp only [Outcome.ok_bind]
  split
  · exact discoverStrings_names resp offset _ _ _ _ queues
  · rfl

/-- The body of the loop adds the names of the structure it visits. -/
theorem discoverAt_eq {resp : Bytes} {offset n : Nat}
    (h : responseFraming.next (resp.drop offset) = some n) (queues : List Bytes) :
    discoverAt resp queues offset = .ok (addNames resp queues (readingsAt resp offset)) := by
  obtain ⟨h8, hpos, hle, hlen⟩ := responseFraming_next.mp h
  have hwide : 24 ≤ uint32At resp (offset + 4) → offset + 24 ≤ resp.length := by
    intro h24
    have := UInt32.le_iff_toNat_le.mp h24
    have h24' : (24 : UInt32).toNat = 24 := rfl
    omega
  unfold discoverAt readingsAt
  rw [readUInt32_eq (by omega), readUInt32_eq (by omega)]
  simp only [Outcome.ok_bind]
  split
  · next hstring => exact discoverString_eq (hwide hstring.2) queues
  · split
    · next hlist => exact discoverList_eq (hwide hlist.2) queues
    · rfl

/-- The loop over a response adds the names of its readings. -/
theorem discoverIn_eq (queues : List Bytes) (resp : Bytes) :
    discoverIn queues resp = .ok (addNames resp queues (readings resp)) := by
  unfold discoverIn readings
  split
  · next h36 =>
      rw [if_neg fun h => absurd h.1 (by omega)]
      rfl
  · rw [readUInt32_eq (by omega), Outcome.ok_bind]
    split
    · next hcode =>
        rw [if_neg fun h => hcode h.2]
        rfl
    · next hcode =>
        rw [if_pos ⟨by omega, not_not.mp hcode⟩]
        have hall := fun (offset : Nat) (hoffset : offset ∈ responseFraming.offsets resp 36) =>
          Framing.next_of_mem_offsets hoffset
        generalize responseFraming.offsets resp 36 = offsets at hall
        induction offsets generalizing queues with
        | nil => rfl
        | cons offset offsets ih =>
            obtain ⟨n, hn⟩ := hall offset List.mem_cons_self
            rw [List.foldlM_cons, discoverAt_eq hn, Outcome.ok_bind, List.flatMap_cons,
              addNames_append]
            exact ih _ fun o ho => hall o (List.mem_cons_of_mem offset ho)

/-- The queues are the names of all readings, in order, without those that are left
out. -/
theorem discoverResponses_eq (responses : List Bytes) :
    responses.foldlM discoverIn [] =
      .ok ((responses.flatMap fun resp => (readings resp).map (readName resp)).foldl
        addQueue []) := by
  generalize ([] : List Bytes) = queues
  induction responses generalizing queues with
  | nil => rfl
  | cons resp responses ih =>
      rw [List.foldlM_cons, discoverIn_eq, Outcome.ok_bind, ih, List.flatMap_cons,
        List.foldl_append]
      rfl

/-! ## Names inside their structures -/

/-- Every name in the response consists of bytes of the structure it is read from. -/
def NamesInside (resp : Bytes) : Prop := ∀ r ∈ readings resp, r.Inside resp (readName resp r)

/-- Whatever of a name is read behind its structure are blanks and NULs. -/
def NamesFit (resp : Bytes) : Prop := ∀ r ∈ readings resp, r.Fits resp trimmed

instance (resp : Bytes) : Decidable (NamesFit resp) :=
  List.decidableBAll (fun r : Reading => r.Fits resp trimmed) _

theorem namesInside_iff (resp : Bytes) : NamesInside resp ↔ NamesFit resp :=
  forall₂_congr fun r _ => r.inside_iff resp trimmed

end IbmmqExporter.Mq
