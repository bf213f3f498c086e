/-
  Pcf/QueueStatus.lean --- `PCFInquiry::parse_queue_status_response` of
  `pcf_inquiry.cpp`, with its readers `parse_string_param` and `parse_integer_param`.

  The readers are given a pointer behind `StrucLength` and the length
  `param_struc_len - 8`, which is computed in `uint32_t`.  Their arguments here are the
  bytes of the message from the pointer on, so that a read behind the message is
  undefined, and the length as it comes out.

  WHAT THE FILE PROVES.  The function reads inside of its bytes, with no difference and
  no sum of words that wraps around, if and only if no structure it visits is shorter
  than eight bytes and no string states a length within twelve of `2^32`.
-/
import IbmmqExporter.Pcf.Inquiry

set_option autoImplicit false

namespace IbmmqExporter.Pcf

open Foundation

/-! ## Handles -/

/-- `QueueHandleDetails`. -/
structure QueueHandleDetails where
  queueName : Bytes := []
  applicationTag : Bytes := []
  channelName : Bytes := []
  connectionName : Bytes := []
  userId : Bytes := []
  processId : Int32 := 0
  inputMode : Bytes := []
  outputMode : Bytes := []
  deriving DecidableEq, Repr

/-- The `switch` of `parse_string_param`. -/
def QueueHandleDetails.withString (handle : QueueHandleDetails) (paramId : UInt32)
    (val : Bytes) : QueueHandleDetails :=
  if paramId = 2016 then { handle with queueName := val }
  else if paramId = 3501 then { handle with channelName := val }
  else if paramId = 3502 then { handle with connectionName := val }
  else if paramId = 2549 then { handle with applicationTag := val }
  else if paramId = 2046 then { handle with userId := val }
  else handle

/-- The `switch` of `parse_integer_param`. -/
def QueueHandleDetails.withInteger (handle : QueueHandleDetails) (paramId : UInt32)
    (value : Int32) : QueueHandleDetails :=
  if paramId = 3002 then { handle with processId := value }
  else if paramId = 1411 then
    if 0 < value then { handle with inputMode := ascii "INPUT" } else handle
  else if paramId = 1412 then
    if 0 < value then { handle with outputMode := ascii "OUTPUT" } else handle
  else handle

/-- `PCFInquiry::parse_string_param`. -/
def parseStringParam (data : Bytes) (len : Nat) (handle : QueueHandleDetails) :
    Parse QueueHandleDetails := do
  if len < 12 then return handle
  else
    let paramId ← readUInt32 data 0
    let strLen ← readUInt32 data 8
    if len < (12 + strLen).toNat then return handle
    else
      let val ← slice data 12 strLen.toNat
      return handle.withString paramId (trimPadding val)

/-- `PCFInquiry::parse_integer_param`. -/
def parseIntegerParam (data : Bytes) (len : Nat) (handle : QueueHandleDetails) :
    Parse QueueHandleDetails := do
  if len < 8 then return handle
  else
    let paramId ← readUInt32 data 0
    let value ← readInt32 data 4
    return handle.withInteger paramId value

/-! ## The loop -/

/-- The variables of the loop of `parse_queue_status_response`. -/
structure HandleScan where
  handles : List QueueHandleDetails := []
  current : QueueHandleDetails := {}
  inGroup : Bool := false
  deriving DecidableEq, Repr

/-- The case `MQCFT_GROUP`. -/
def HandleScan.openGroup (scan : HandleScan) : HandleScan where
  handles :=
    if scan.inGroup = true ∧ scan.current.queueName ≠ [] then scan.handles ++ [scan.current]
    else scan.handles
  current := {}
  inGroup := true

/-- What is returned behind the loop. -/
def HandleScan.finish (scan : HandleScan) : List QueueHandleDetails :=
  if scan.current.queueName ≠ [] then scan.handles ++ [scan.current] else scan.handles

/-- The `switch` of the loop, for the structure of `paramStrucLen` bytes at `offset`. -/
def HandleScan.visit (data : Bytes) (offset : Nat) (paramType paramStrucLen : UInt32)
    (scan : HandleScan) : Parse HandleScan := do
  let paramData := data.drop (offset + 8)
  let paramDataLen := (paramStrucLen - 8).toNat
  if paramType = 20 then return scan.openGroup
  else if paramType = 4 then
    let current ← parseStringParam paramData paramDataLen scan.current
    return { scan with current := current }
  else if paramType = 3 then
    let current ← parseIntegerParam paramData paramDataLen scan.current
    return { scan with current := current }
  else return scan

/-- The loop of `parse_queue_status_response`, from `offset` on.  It also gives the offset
at which it ends. -/
def queueStatusLoop (data : Bytes) (offset : Nat) (scan : HandleScan) :
    Parse (HandleScan × Nat) :=
  if _h : offset + 8 ≤ data.length then do
    let paramType ← readUInt32 data offset
    let paramStrucLen ← readUInt32 data (offset + 4)
    if _hn : paramStrucLen.toNat = 0 ∨ data.length < offset + paramStrucLen.toNat then
      return (scan, offset)
    else
      let scan ← scan.visit data offset paramType paramStrucLen
      queueStatusLoop data (offset + paramStrucLen.toNat) scan
  else return (scan, offset)
termination_by data.length - offset
decreasing_by omega

/-- `PCFInquiry::parse_queue_status_response`. -/
def parseQueueStatusResponse (data : Bytes) : Parse (List QueueHandleDetails) := do
  if data.length < 36 then return []
  else
    let compCode ← readUInt32 data 24
    if compCode ≠ 0 then return []
    else
      let (scan, _) ← queueStatusLoop data 36 {}
      return scan.finish

/-! ## The walk -/

/-- The body of the loop for the structure at `offset`. -/
def HandleScan.visitAt (data : Bytes) (scan : HandleScan) (offset : Nat) : Parse HandleScan :=
  scan.visit data offset (uint32At data offset) (uint32At data (offset + 4))

/-- The loop visits the structures of the walk and ends where it does. -/
theorem queueStatusLoop_eq (data : Bytes) (offset : Nat) (scan : HandleScan) :
    queueStatusLoop data offset scan =
      (fun scan => (scan, responseFraming.stop data offset)) <$>
        (responseFraming.offsets data offset).foldlM (HandleScan.visitAt data) scan := by
  induction offset using responseFraming.walk_induction data generalizing scan with
  | done offset h =>
      rw [Framing.offsets_of_none h, Framing.stop_of_none h, queueStatusLoop]
      split
      · next h8 =>
          have hstop := responseFraming_next_none h h8
          rw [readUInt32_eq (by omega), readUInt32_eq (by omega)]
          simp only [Outcome.ok_bind, dif_pos hstop]
          rfl
      · rfl
  | step offset n h ih =>
      obtain ⟨h8, hpos, hle, rfl⟩ := responseFraming_next.mp h
      have hgo : ¬ ((uint32At data (offset + 4)).toNat = 0 ∨
          data.length < offset + (uint32At data (offset + 4)).toNat) := by omega
      rw [Framing.offsets_of_some h, Framing.stop_of_some h, List.foldlM_cons, queueStatusLoop,
        dif_pos h8, readUInt32_eq (by omega), readUInt32_eq (by omega)]
      simp only [Outcome.ok_bind, dif_neg hgo, map_bind]
      congr 1
      funext scan
      exact ih scan

/-- The offsets that `parse_queue_status_response` visits. -/
def queueStatusOffsets (data : Bytes) : List Nat :=
  if 36 ≤ data.length ∧ uint32At data 24 = 0 then responseFraming.offsets data 36 else []

theorem parseQueueStatusResponse_eq (data : Bytes) :
    parseQueueStatusResponse data =
      HandleScan.finish <$> (queueStatusOffsets data).foldlM (HandleScan.visitAt data) {} := by
  unfold parseQueueStatusResponse queueStatusOffsets
  split
  · next h36 =>
      rw [if_neg fun h => absurd h.1 (by omega)]
      rfl
  · rw [readUInt32_eq (by omega), Outcome.ok_bind, queueStatusLoop_eq]
    split
    · next hcode =>
        rw [if_neg fun h => hcode h.2]
        rfl
    · next hcode =>
        rw [if_pos ⟨by omega, not_not.mp hcode⟩]
        cases (responseFraming.offsets data 36).foldlM (HandleScan.visitAt data) {} <;> rfl

theorem next_of_mem_queueStatusOffsets {data : Bytes} {offset : Nat}
    (h : offset ∈ queueStatusOffsets data) :
    ∃ n, responseFraming.next (data.drop offset) = some n := by
  unfold queueStatusOffsets at h
  split at h
  · exact Framing.next_of_mem_offsets h
  · cases h

/-! ## Safety -/

/-- The arithmetic on the words of the structure at `offset` does not wrap around: the
difference `param_struc_len - 8`, and the sum `12 + str_len` where it is compared. -/
structure Unwrapped (data : Bytes) (offset : Nat) : Prop where
  length : ((uint32At data (offset + 4) - 8).toNat : ℤ) =
    ((uint32At data (offset + 4)).toNat : ℤ) - 8
  string : uint32At data offset = 4 → 12 ≤ (uint32At data (offset + 4) - 8).toNat →
    (12 + uint32At data (offset + 16)).toNat = 12 + (uint32At data (offset + 16)).toNat

/-- The function reads inside of its bytes and ends, and no arithmetic wraps around. -/
structure QueueStatusSafe (data : Bytes) : Prop where
  returns : (parseQueueStatusResponse data).Returns
  unwrapped : ∀ offset ∈ queueStatusOffsets data, Unwrapped data offset

/-- The structure at `offset` is not degenerate: its length is at least that of its first
two words, and the length of its string, if it is one, stays clear of `2^32`. -/
def Sound (data : Bytes) (offset : Nat) : Prop :=
  8 ≤ (uint32At data (offset + 4)).toNat ∧
    (uint32At data offset = 4 → 20 ≤ (uint32At data (offset + 4)).toNat →
      (uint32At data (offset + 16)).toNat < 2 ^ 32 - 12)

instance (data : Bytes) (offset : Nat) : Decidable (Sound data offset) :=
  inferInstanceAs (Decidable (_ ∧ _))

theorem toNat_sub_eight {w : UInt32} (h : 8 ≤ w.toNat) : (w - 8).toNat = w.toNat - 8 := by
  have h8 : (8 : UInt32).toNat = 8 := rfl
  rw [UInt32.toNat_sub_of_le, h8]
  rw [UInt32.le_iff_toNat_le, h8]
  exact h

theorem toNat_add_twelve (w : UInt32) :
    (12 + w).toNat = 12 + w.toNat ↔ w.toNat < 2 ^ 32 - 12 := by
  have h12 : (12 : UInt32).toNat = 12 := rfl
  have hlt := w.toNat_lt
  rw [UInt32.toNat_add, h12]
  omega

/-- The words do not wrap around if and only if the structure is not degenerate. -/
theorem unwrapped_iff (data : Bytes) (offset : Nat) : Unwrapped data offset ↔ Sound data offset := by
  constructor
  · intro h
    have hlength : 8 ≤ (uint32At data (offset + 4)).toNat := by
      have := h.length
      omega
    refine ⟨hlength, fun htype h20 => ?_⟩
    have hsub := toNat_sub_eight hlength
    exact (toNat_add_twelve _).mp (h.string htype (by omega))
  · rintro ⟨hlength, hstring⟩
    have hsub := toNat_sub_eight hlength
    refine ⟨by omega, fun htype h12 => ?_⟩
    exact (toNat_add_twelve _).mpr (hstring htype (by omega))

theorem parseStringParam_returns {data : Bytes} {offset : Nat} (handle : QueueHandleDetails)
    (hsound : Sound data offset) (htype : uint32At data offset = 4)
    (hle : offset + (uint32At data (offset + 4)).toNat ≤ data.length) :
    (parseStringParam (data.drop (offset + 8)) (uint32At data (offset + 4) - 8).toNat
      handle).Returns := by
  have hsub := toNat_sub_eight hsound.1
  have hlen : (data.drop (offset + 8)).length = data.length - (offset + 8) := List.length_drop
  unfold parseStringParam
  split
  · exact Outcome.returns_ok _
  · next h12 =>
      have hsum := (toNat_add_twelve _).mpr (hsound.2 htype (by omega))
      have h16 : offset + 8 + 8 = offset + 16 := Nat.add_assoc offset 8 8
      rw [readUInt32_eq (by omega), readUInt32_eq (by omega), uint32At_drop, uint32At_drop, h16]
      simp only [Outcome.ok_bind, hsum]
      split
      · exact Outcome.returns_ok _
      · next hfits =>
          rw [slice_eq_ok (by omega)]
          exact Outcome.returns_ok _

theorem parseIntegerParam_returns {data : Bytes} {offset : Nat} (handle : QueueHandleDetails)
    (hsound : Sound data offset)
    (hle : offset + (uint32At data (offset + 4)).toNat ≤ data.length) :
    (parseIntegerParam (data.drop (offset + 8)) (uint32At data (offset + 4) - 8).toNat
      handle).Returns := by
  have hsub := toNat_sub_eight hsound.1
  have hlen : (data.drop (offset + 8)).length = data.length - (offset + 8) := List.length_drop
  unfold parseIntegerParam
  split
  · exact Outcome.returns_ok _
  · rw [readUInt32_eq (by omega), readInt32_eq (by omega)]
    exact Outcome.returns_ok _

/-- The readers stay inside the message if the structure is not degenerate. -/
theorem HandleScan.visitAt_returns {data : Bytes} {offset n : Nat}
    (h : responseFraming.next (data.drop offset) = some n) (hsound : Sound data offset)
    (scan : HandleScan) : (scan.visitAt data offset).Returns := by
  obtain ⟨-, -, hle, rfl⟩ := responseFraming_next.mp h
  unfold HandleScan.visitAt HandleScan.visit
  dsimp only
  split
  · exact Outcome.returns_ok _
  · split
    · next htype =>
        obtain ⟨current, hcurrent⟩ := parseStringParam_returns scan.current hsound htype hle
        rw [hcurrent]
        exact Outcome.returns_ok _
    · split
      · obtain ⟨current, hcurrent⟩ := parseIntegerParam_returns scan.current hsound hle
        rw [hcurrent]
        exact Outcome.returns_ok _
      · exact Outcome.returns_ok _

/-- The function is safe if and only if no structure it visits is degenerate. -/
theorem queueStatusSafe_iff (data : Bytes) :
    QueueStatusSafe data ↔ ∀ offset ∈ queueStatusOffsets data, Sound data offset := by
  constructor
  · intro h offset hoffset
    exact (unwrapped_iff data offset).mp (h.unwrapped offset hoffset)
  · intro h
    refine ⟨?_, fun offset hoffset => (unwrapped_iff data offset).mpr (h offset hoffset)⟩
    rw [parseQueueStatusResponse_eq, Outcome.returns_map]
    refine Outcome.returns_foldlM (fun offset hoffset scan => ?_) _
    obtain ⟨n, hn⟩ := next_of_mem_queueStatusOffsets hoffset
    exact scan.visitAt_returns hn (h offset hoffset)

/-- A response that ends in a string structure of four bytes. -/
def truncatedString : Bytes := List.replicate 36 0 ++ (encodeInt32 4 ++ encodeInt32 4)

/-- The reader of the string reads behind the response. -/
theorem not_queueStatusSafe : ¬ ∀ data, QueueStatusSafe data := by
  intro h
  have hnext : responseFraming.next (truncatedString.drop 36) = some 4 := by decide +kernel
  have hnone : responseFraming.next (truncatedString.drop (36 + 4)) = none := by decide +kernel
  have hoffsets : queueStatusOffsets truncatedString = [36] := by
    rw [queueStatusOffsets, if_pos (by decide +kernel), Framing.offsets_of_some hnext,
      Framing.offsets_of_none hnone]
  have hreturns := (h truncatedString).returns
  rw [parseQueueStatusResponse_eq, hoffsets] at hreturns
  exact absurd hreturns (by decide +kernel)

end IbmmqExporter.Pcf
