/-
  Mq/Discovery.lean --- `MQClient::discover_queues`.

  The loop over a response finds its structures as `parse_pcf_response_params` does,
  and takes the queue names out of the strings and the string lists.

  WHAT THE FILE PROVES.  Whatever the bytes of the responses, every read is inside of
  them, and the call does not throw.  It does not return a name twice.
-/
import Mathlib.Data.List.Nodup
import IbmmqExporter.Mq.Client
import IbmmqExporter.Pcf.Encode
import IbmmqExporter.Pcf.Inquiry

set_option autoImplicit false

namespace IbmmqExporter.Mq

open Foundation Pcf

/-! ## Names -/

/-- `s.find(text) != std::string::npos`. -/
def contains (text : Bytes) : Bytes → Bool
  | [] => text.isPrefixOf []
  | c :: s => text.isPrefixOf (c :: s) || contains text s

/-- Temporary, dynamic and model queues, which are left out. -/
def isSkipped (qname : Bytes) : Bool :=
  qname.take 4 == ascii "AMQ." || qname.take 9 == ascii "EXPORTER." ||
    contains (ascii "MANAGED.NDURABLE") qname || contains (ascii "MODEL") qname

/-- Add a name to `queues`. -/
def addQueue (queues : List Bytes) (qname : Bytes) : List Bytes :=
  if qname = [] ∨ isSkipped qname = true ∨ qname ∈ queues then queues else queues ++ [qname]

/-! ## Responses -/

/-- The name in the MQCFST at `offset`. -/
def discoverString (resp : Bytes) (queues : List Bytes) (offset : Nat) :
    Parse (List Bytes) := do
  let paramId ← readUInt32 resp (offset + 8)
  let strLen ← readUInt32 resp (offset + 16)
  if paramId = 2016 ∧ 0 < strLen ∧ offset + 20 + strLen.toNat ≤ resp.length then
    let qname ← slice resp (offset + 20) strLen.toNat
    return addQueue queues (trimPadding qname)
  else return queues

/-- The loop over the `n` names of an MQCFSL that are left, from `pos` on. -/
def discoverStrings (resp : Bytes) (strLen : Nat) :
    Nat → Nat → List Bytes → Parse (List Bytes)
  | 0, _, queues => return queues
  | n + 1, pos, queues => do
      if resp.length < pos + strLen then return queues
      else
        let qname ← slice resp pos strLen
        discoverStrings resp strLen n (pos + strLen) (addQueue queues (trimPadding qname))

/-- The names in the MQCFSL at `offset`. -/
def discoverList (resp : Bytes) (queues : List Bytes) (offset : Nat) :
    Parse (List Bytes) := do
  let paramId ← readUInt32 resp (offset + 8)
  let count ← readUInt32 resp (offset + 16)
  let strLen ← readUInt32 resp (offset + 20)
  if paramId = 2016 ∧ 0 < strLen then
    discoverStrings resp strLen.toNat count.toNat (offset + 24) queues
  else return queues

/-- The body of the loop over a response. -/
def discoverAt (resp : Bytes) (queues : List Bytes) (offset : Nat) : Parse (List Bytes) := do
  let paramType ← readUInt32 resp offset
  let paramLen ← readUInt32 resp (offset + 4)
  if paramType = 4 ∧ 24 ≤ paramLen then discoverString resp queues offset
  else if paramType = 6 ∧ 24 ≤ paramLen then discoverList resp queues offset
  else return queues

/-- The body of the loop over the responses. -/
def discoverIn (queues : List Bytes) (resp : Bytes) : Parse (List Bytes) := do
  if resp.length < 36 then return queues
  else
    let compCode ← readUInt32 resp 24
    if compCode ≠ 0 then return queues
    else (responseFraming.offsets resp 36).foldlM (discoverAt resp) queues

/-- `MQClient::discover_queues`. -/
def discoverQueues (pattern : Bytes) : Method (List Bytes) := do
  let responses ← sendPcfCommand (buildInquireQCmd pattern)
  Effect.lift (responses.foldlM discoverIn [])

/-! ## Reads -/

theorem discoverString_returns {resp : Bytes} {offset : Nat} (h : offset + 24 ≤ resp.length)
    (queues : List Bytes) : (discoverString resp queues offset).Returns := by
  unfold discoverString
  rw [readUInt32_eq (by omega), readUInt32_eq (by omega)]
  simp only [Outcome.ok_bind]
  split
  · next hname =>
      rw [slice_eq_ok (by omega)]
      exact Outcome.returns_ok _
  · exact Outcome.returns_ok _

theorem discoverStrings_returns (resp : Bytes) (strLen n pos : Nat) (queues : List Bytes) :
    (discoverStrings resp strLen n pos queues).Returns := by
  induction n generalizing pos queues with
  | zero => exact Outcome.returns_ok _
  | succ n ih =>
      unfold discoverStrings
      split
      · exact Outcome.returns_ok _
      · next hfits =>
          rw [slice_eq_ok (by omega)]
          exact ih _ _

theorem discoverList_returns {resp : Bytes} {offset : Nat} (h : offset + 24 ≤ resp.length)
    (queues : List Bytes) : (discoverList resp queues offset).Returns := by
  unfold discoverList
  rw [readUInt32_eq (by omega), readUInt32_eq (by omega), readUInt32_eq (by omega)]
  simp only [Outcome.ok_bind]
  split
  · exact discoverStrings_returns _ _ _ _ _
  · exact Outcome.returns_ok _

/-- The structure at an offset that the walk visits lies inside the response. -/
theorem discoverAt_returns {resp : Bytes} {offset n : Nat}
    (h : responseFraming.next (resp.drop offset) = some n) (queues : List Bytes) :
    (discoverAt resp queues offset).Returns := by
  obtain ⟨h8, hpos, hle, hlen⟩ := responseFraming_next.mp h
  have hwide : 24 ≤ uint32At resp (offset + 4) → offset + 24 ≤ resp.length := by
    intro h24
    have := UInt32.le_iff_toNat_le.mp h24
    have h24' : (24 : UInt32).toNat = 24 := rfl
    omega
  unfold discoverAt
  rw [readUInt32_eq (by omega), readUInt32_eq (by omega)]
  simp only [Outcome.ok_bind]
  split
  · next hstring => exact discoverString_returns (hwide hstring.2) queues
  · split
    · next hlist => exact discoverList_returns (hwide hlist.2) queues
    · exact Outcome.returns_ok _

theorem discoverIn_returns (queues : List Bytes) (resp : Bytes) :
    (discoverIn queues resp).Returns := by
  unfold discoverIn
  split
  · exact Outcome.returns_ok _
  · rw [readUInt32_eq (by omega)]
    simp only [Outcome.ok_bind]
    split
    · exact Outcome.returns_ok _
    · refine Outcome.returns_foldlM ?_ queues
      intro offset hoffset queues'
      obtain ⟨n, hn⟩ := Framing.next_of_mem_offsets hoffset
      exact discoverAt_returns hn queues'

/-- Reading the names out of any responses stays inside their bytes. -/
theorem discoverResponses_returns (responses : List Bytes) :
    (responses.foldlM discoverIn []).Returns :=
  Outcome.returns_foldlM (fun resp _ queues => discoverIn_returns queues resp) []

/-! ## No name twice -/

theorem nodup_addQueue {queues : List Bytes} (h : queues.Nodup) (qname : Bytes) :
    (addQueue queues qname).Nodup := by
  unfold addQueue
  split
  · exact h
  · next hnew =>
      rw [not_or, not_or] at hnew
      exact List.Nodup.append h (List.nodup_singleton qname)
        (List.disjoint_singleton.mpr hnew.2.2)

section Nodup

variable {resp : Bytes} {queues queues' : List Bytes} {offset : Nat}

theorem nodup_discoverString (hnodup : queues.Nodup)
    (h : discoverString resp queues offset = .ok queues') : queues'.Nodup := by
  unfold discoverString at h
  obtain ⟨paramId, -, h⟩ := Outcome.bind_eq_ok.mp h
  obtain ⟨strLen, -, h⟩ := Outcome.bind_eq_ok.mp h
  split at h
  · obtain ⟨qname, -, h⟩ := Outcome.bind_eq_ok.mp h
    obtain rfl := Outcome.ok.inj h
    exact nodup_addQueue hnodup _
  · obtain rfl := Outcome.ok.inj h
    exact hnodup

theorem nodup_discoverStrings {strLen n pos : Nat} (hnodup : queues.Nodup)
    (h : discoverStrings resp strLen n pos queues = .ok queues') : queues'.Nodup := by
  induction n generalizing pos queues with
  | zero =>
      obtain rfl := Outcome.ok.inj h
      exact hnodup
  | succ n ih =>
      unfold discoverStrings at h
      split at h
      · obtain rfl := Outcome.ok.inj h
        exact hnodup
      · obtain ⟨qname, -, h⟩ := Outcome.bind_eq_ok.mp h
        exact ih (nodup_addQueue hnodup _) h

theorem nodup_discoverList (hnodup : queues.Nodup)
    (h : discoverList resp queues offset = .ok queues') : queues'.Nodup := by
  unfold discoverList at h
  obtain ⟨paramId, -, h⟩ := Outcome.bind_eq_ok.mp h
  obtain ⟨count, -, h⟩ := Outcome.bind_eq_ok.mp h
  obtain ⟨strLen, -, h⟩ := Outcome.bind_eq_ok.mp h
  split at h
  · exact nodup_discoverStrings hnodup h
  · obtain rfl := Outcome.ok.inj h
    exact hnodup

theorem nodup_discoverAt (hnodup : queues.Nodup)
    (h : discoverAt resp queues offset = .ok queues') : queues'.Nodup := by
  unfold discoverAt at h
  obtain ⟨paramType, -, h⟩ := Outcome.bind_eq_ok.mp h
  obtain ⟨paramLen, -, h⟩ := Outcome.bind_eq_ok.mp h
  split at h
  · exact nodup_discoverString hnodup h
  · split at h
    · exact nodup_discoverList hnodup h
    · obtain rfl := Outcome.ok.inj h
      exact hnodup

theorem nodup_discoverIn (hnodup : queues.Nodup) (h : discoverIn queues resp = .ok queues') :
    queues'.Nodup := by
  unfold discoverIn at h
  split at h
  · obtain rfl := Outcome.ok.inj h
    exact hnodup
  · obtain ⟨compCode, -, h⟩ := Outcome.bind_eq_ok.mp h
    split at h
    · obtain rfl := Outcome.ok.inj h
      exact hnodup
    · exact Outcome.foldlM_keeps (fun _ _ _ => nodup_discoverAt) hnodup h

/-- `discover_queues` does not return a name twice. -/
theorem nodup_discoverQueues {pattern : Bytes} {s s' : Session}
    (h : discoverQueues pattern s = (.ok queues, s')) : queues.Nodup := by
  have hwp : Effect.wp (discoverQueues pattern) (fun queues _ => queues.Nodup)
      (fun _ _ => True) s := by
    unfold discoverQueues
    rw [Effect.wp_bind]
    refine Effect.wp_mono (Effect.wp_of_state (R := fun _ => True) trivial) ?_ fun _ _ _ => trivial
    intro responses s' _
    rw [Effect.wp_lift]
    refine ⟨fun queues hqueues => ?_, fun _ _ => trivial⟩
    exact Outcome.foldlM_keeps (fun _ _ _ => nodup_discoverIn) List.nodup_nil hqueues
  have := Effect.of_wp_ok hwp h
  exact this

end Nodup

/-! ## A queue manager with one queue -/

/-- The response that names a queue. -/
def queueResponse (qname : Bytes) : Bytes :=
  PCFHeader.encode
    { type := 2, strucLength := 36, version := 1, command := 3, msgSeqNumber := 1, control := 1
      compCode := 0, reason := 0, parameterCount := 1 } ++
    encodeStructure mqcftString mqcaQName (encodeInt32 0 ++ (encodeInt32 (.ofNat qname.length) ++
      (qname ++ filling qname.length)))

/-- The replies in which `discover_queues` finds the queue and no other. -/
def discoveryReplies (qname : Bytes) : List Reply :=
  [{ cc := .ok, objectName := ascii "EXPORTER.1" }, { cc := .ok }, { cc := .ok }, { cc := .ok },
    { cc := .ok, message := queueResponse qname }, { cc := .ok }]

end IbmmqExporter.Mq
