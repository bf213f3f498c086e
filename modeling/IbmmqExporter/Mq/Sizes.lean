/-
  Mq/Sizes.lean --- `strip_mqrfh2` and `discover_queues` with the sizes of the code.

  `Mq/Client.lean` and `Mq/Discovery.lean` compute with natural numbers, find the
  structures of a response by a walk that ends by construction, and read what
  `strip_mqrfh2` reads without a check.  Here the offsets and the lengths are `size_t`s,
  whose sums wrap, every read is checked against the bytes that are there, and the loop
  over a response runs for as many turns as it is given.

  WHAT THE FILE PROVES.  For vectors of any bytes the functions read inside of them only,
  the loop ends, and they compute what the model over the natural numbers computes.
-/
import IbmmqExporter.Foundation.Size
import IbmmqExporter.Mq.Discovery
import IbmmqExporter.Pcf.Loops

set_option autoImplicit false

namespace IbmmqExporter.Mq.Sized

open Foundation Pcf

/-! ## The header before a publication -/

/-- `strip_mqrfh2`. -/
def stripMqrfh2 (msg : MQMessage) : Parse MQMessage := do
  if size msg.data < 16 then return msg
  else
    let magic ← slice msg.data 0 4
    if magic ≠ ascii "RFH " then return msg
    else
      let strucLength ← readInt32 msg.data 8
      if strucLength < 36 ∨ size msg.data ≤ toSize strucLength then return msg
      else
        let embeddedFormat ← slice msg.data 20 8
        let data ← advance msg.data (toSize strucLength).toNat
        return { msg with data, format := embeddedFormat }

theorem stripMqrfh2_eq {msg : MQMessage} (hdata : Addressable msg.data) :
    stripMqrfh2 msg = .ok (Mq.stripMqrfh2 msg) := by
  have hsize := toNat_size hdata
  have hshort : size msg.data < 16 ↔ msg.data.length < 16 := by
    rw [UInt64.lt_iff_toNat_lt, hsize]
    exact Iff.rfl
  unfold stripMqrfh2 Mq.stripMqrfh2
  simp only [hshort]
  split
  · rfl
  · rw [slice_eq_ok (by omega), readInt32_eq (by omega)]
    simp only [Outcome.ok_bind, List.drop_zero]
    split
    · rfl
    · have hlow : int32At msg.data 8 < 36 ↔ intAt msg.data 8 < 36 := Int32.lt_iff_toInt_lt
      by_cases h36 : intAt msg.data 8 < 36
      · rw [if_pos (.inl (hlow.mpr h36)), if_pos (.inl h36)]
        rfl
      · have hpos : 0 ≤ (int32At msg.data 8).toInt := by unfold intAt at h36; omega
        have hfits : size msg.data ≤ toSize (int32At msg.data 8) ↔
            msg.data.length ≤ (intAt msg.data 8).toNat := by
          rw [UInt64.le_iff_toNat_le, hsize, toNat_toSize hpos]
          exact Iff.rfl
        simp only [hlow, hfits, toNat_toSize hpos]
        split
        · rfl
        · next hle =>
            rw [not_or, not_lt, not_le] at hle
            unfold intAt at hle
            rw [slice_eq_ok (by omega), advance_eq_ok (by omega)]
            rfl

/-! ## Queue names -/

/-- The name in the MQCFST at `offset`. -/
def discoverString (resp : Bytes) (queues : List Bytes) (offset : Size) :
    Parse (List Bytes) := do
  let paramId ← readUInt32 resp (offset.toNat + 8)
  let strLen ← readUInt32 resp (offset.toNat + 16)
  if paramId = 2016 ∧ 0 < strLen ∧ offset + 20 + strLen.toUInt64 ≤ size resp then
    let qname ← slice resp (offset.toNat + 20) strLen.toNat
    return addQueue queues (trimPadding qname)
  else return queues

/-- The loop over the `n` names of an MQCFSL that are left, from `pos` on. -/
def discoverStrings (resp : Bytes) (strLen : UInt32) :
    Nat → Size → List Bytes → Parse (List Bytes)
  | 0, _, queues => return queues
  | n + 1, pos, queues => do
      if size resp < pos + strLen.toUInt64 then return queues
      else
        let qname ← slice resp pos.toNat strLen.toNat
        discoverStrings resp strLen n (pos + strLen.toUInt64)
          (addQueue queues (trimPadding qname))

/-- The names in the MQCFSL at `offset`. -/
def discoverList (resp : Bytes) (queues : List Bytes) (offset : Size) :
    Parse (List Bytes) := do
  let paramId ← readUInt32 resp (offset.toNat + 8)
  let count ← readUInt32 resp (offset.toNat + 16)
  let strLen ← readUInt32 resp (offset.toNat + 20)
  if paramId = 2016 ∧ 0 < strLen then
    discoverStrings resp strLen count.toNat (offset + 24) queues
  else return queues

/-- What the loop over a response does with a structure. -/
def discoverStructure (resp : Bytes) (paramType paramLen : UInt32) (queues : List Bytes)
    (offset : Size) : Parse (List Bytes) := do
  if paramType = 4 ∧ 24 ≤ paramLen then discoverString resp queues offset
  else if paramType = 6 ∧ 24 ≤ paramLen then discoverList resp queues offset
  else return queues

/-- The loop over a response, from `offset` on, for at most `turns` turns. -/
def discoverFrom (resp : Bytes) : Nat → Size → List Bytes → Parse (List Bytes)
  | 0, _, _ => .pending
  | turns + 1, offset, queues =>
      if offset + 8 ≤ size resp then do
        let paramType ← readUInt32 resp offset.toNat
        let paramLen ← readUInt32 resp (offset.toNat + 4)
        if paramLen = 0 ∨ size resp < offset + paramLen.toUInt64 then return queues
        else
          let queues ← discoverStructure resp paramType paramLen queues offset
          discoverFrom resp turns (offset + paramLen.toUInt64) queues
      else return queues

/-- The loop over a response, around anything that it may do with a structure. -/
def nameLoop {σ : Type} (resp : Bytes) (visit : σ → Visit → Parse σ) :
    Nat → Size → σ → Parse (σ × Nat)
  | 0, _, _ => .pending
  | turns + 1, offset, s =>
      if offset + 8 ≤ size resp then do
        let paramType ← readUInt32 resp offset.toNat
        let paramLen ← readUInt32 resp (offset.toNat + 4)
        if paramLen = 0 ∨ size resp < offset + paramLen.toUInt64 then return (s, offset.toNat)
        else
          let s ← visit s ⟨offset.toNat, paramType, paramLen⟩
          nameLoop resp visit turns (offset + paramLen.toUInt64) s
      else return (s, offset.toNat)

/-- What the loop does with a structure to find names. -/
def visitNames (resp : Bytes) (queues : List Bytes) (v : Visit) : Parse (List Bytes) :=
  discoverStructure resp v.type v.strucLength queues (.ofNat v.offset)

/-- The loop, without the offset at which it ends. -/
theorem discoverFrom_loop (resp : Bytes) (turns : Nat) (offset : Size) (queues : List Bytes) :
    discoverFrom resp turns offset queues =
      Prod.fst <$> nameLoop resp (visitNames resp) turns offset queues := by
  induction turns generalizing offset queues with
  | zero => rfl
  | succ turns ih =>
      unfold discoverFrom nameLoop
      split
      · simp only [map_bind]
        refine bind_congr fun paramType => bind_congr fun paramLen => ?_
        split
        · rfl
        · rw [map_bind, visitNames, UInt64.ofNat_toNat]
          exact bind_congr fun queues' => ih _ queues'
      · rfl

/-- The body of the loop over the responses. -/
def discoverIn (turns : Nat) (queues : List Bytes) (resp : Bytes) : Parse (List Bytes) := do
  if size resp < 36 then return queues
  else
    let compCode ← readUInt32 resp 24
    if compCode ≠ 0 then return queues
    else discoverFrom resp turns 36 queues

/-- `discover_queues` behind `send_pcf_command`. -/
def discoverResponses (turns : Nat) (responses : List Bytes) : Parse (List Bytes) :=
  responses.foldlM (discoverIn turns) []

section Names

variable {resp : Bytes} {offset pos : Size}

theorem toNat_toUInt64_lt (n : UInt32) : n.toUInt64.toNat < 2 ^ 33 := by
  have := n.toNat_lt
  rw [UInt32.toNat_toUInt64]
  omega

/-- The test whether a string of `n` bytes lies inside of the response. -/
theorem offset_add_length_le_iff (hresp : Addressable resp) (hpos : pos.toNat ≤ resp.length)
    (n : UInt32) : pos + n.toUInt64 ≤ size resp ↔ pos.toNat + n.toNat ≤ resp.length := by
  rw [offset_add_le_iff hresp (toNat_size hresp) hpos (toNat_toUInt64_lt n),
    UInt32.toNat_toUInt64]

theorem lt_offset_add_length_iff (hresp : Addressable resp) (hpos : pos.toNat ≤ resp.length)
    (n : UInt32) : size resp < pos + n.toUInt64 ↔ resp.length < pos.toNat + n.toNat := by
  rw [lt_offset_add_iff hresp (toNat_size hresp) hpos (toNat_toUInt64_lt n),
    UInt32.toNat_toUInt64]

theorem discoverString_eq (hresp : Addressable resp) (h : offset.toNat + 24 ≤ resp.length)
    (queues : List Bytes) :
    discoverString resp queues offset = Mq.discoverString resp queues offset.toNat := by
  have h20 : (offset + 20).toNat = offset.toNat + 20 :=
    toNat_offset_add hresp (by omega) (by decide)
  have hpos : (offset + 20).toNat ≤ resp.length := by omega
  have htest (n : UInt32) := offset_add_length_le_iff hresp hpos n
  unfold discoverString Mq.discoverString
  simp only [htest, h20]

theorem discoverStrings_eq (hresp : Addressable resp) (strLen : UInt32) (n : Nat)
    (hpos : pos.toNat ≤ resp.length) (queues : List Bytes) :
    discoverStrings resp strLen n pos queues =
      Mq.discoverStrings resp strLen.toNat n pos.toNat queues := by
  induction n generalizing pos queues with
  | zero => rfl
  | succ n ih =>
      unfold discoverStrings Mq.discoverStrings
      simp only [lt_offset_add_length_iff hresp hpos strLen]
      split
      · rfl
      · next hfits =>
          have hnext : (pos + strLen.toUInt64).toNat = pos.toNat + strLen.toNat := by
            rw [toNat_offset_add hresp hpos (toNat_toUInt64_lt strLen), UInt32.toNat_toUInt64]
          refine bind_congr fun qname => ?_
          rw [ih (by omega), hnext]

theorem discoverList_eq (hresp : Addressable resp) (h : offset.toNat + 24 ≤ resp.length)
    (queues : List Bytes) :
    discoverList resp queues offset = Mq.discoverList resp queues offset.toNat := by
  have h24 : (offset + 24).toNat = offset.toNat + 24 :=
    toNat_offset_add hresp (by omega) (by decide)
  have hpos : (offset + 24).toNat ≤ resp.length := by omega
  have hnames (strLen : UInt32) (n : Nat) := discoverStrings_eq hresp strLen n hpos queues
  unfold discoverList Mq.discoverList
  simp only [hnames, h24]

/-- A structure that the walk visits. -/
theorem discoverStructure_eq (hresp : Addressable resp) {n : Nat}
    (h : responseFraming.next (resp.drop offset.toNat) = some n) (queues : List Bytes) :
    discoverStructure resp (uint32At resp offset.toNat) (uint32At resp (offset.toNat + 4))
      queues offset = discoverAt resp queues offset.toNat := by
  obtain ⟨h8, -, hle, hn⟩ := responseFraming_next.mp h
  have hwide : 24 ≤ uint32At resp (offset.toNat + 4) → offset.toNat + 24 ≤ resp.length := by
    intro h24
    have h24' : (24 : UInt32).toNat ≤ n := hn ▸ UInt32.le_iff_toNat_le.mp h24
    have : (24 : UInt32).toNat = 24 := rfl
    omega
  unfold discoverStructure discoverAt
  rw [readUInt32_eq (by omega), readUInt32_eq (by omega)]
  simp only [Outcome.ok_bind]
  split
  · next hstring => exact discoverString_eq hresp (hwide hstring.2) queues
  · split
    · next hlist => exact discoverList_eq hresp (hwide hlist.2) queues
    · rfl

/-- The loop makes a turn for each structure of the walk, and one to end. -/
theorem nameLoop_follows (hresp : Addressable resp) {turns : Nat}
    (hoffset : offset.toNat ≤ resp.length) (hturns : resp.length - offset.toNat < turns) :
    Follows (fun _ visit s => nameLoop resp visit turns offset s)
      (walkOf responseFraming resp offset.toNat) := by
  intro σ visit
  dsimp only
  induction turns generalizing offset with
  | zero => omega
  | succ turns ih =>
      intro s
      have h8 : offset + 8 ≤ size resp ↔ offset.toNat + 8 ≤ resp.length :=
        offset_add_le_iff hresp (toNat_size hresp) hoffset (by decide)
      have hbeyond := lt_offset_add_length_iff hresp hoffset (uint32At resp (offset.toNat + 4))
      have hzero : uint32At resp (offset.toNat + 4) = 0 ↔
          (uint32At resp (offset.toNat + 4)).toNat = 0 := UInt32.toNat_inj.symm
      unfold nameLoop
      cases hnext : responseFraming.next (resp.drop offset.toNat) with
      | none =>
          rw [walkOf_of_none hnext]
          split
          · next hhead =>
              have hhead := h8.mp hhead
              have hstop : uint32At resp (offset.toNat + 4) = 0 ∨
                  size resp < offset + (uint32At resp (offset.toNat + 4)).toUInt64 := by
                rw [hzero, hbeyond]
                exact responseFraming_next_none hnext hhead
              rw [readUInt32_eq (by omega), readUInt32_eq (by omega)]
              simp only [Outcome.ok_bind]
              exact if_pos hstop
          · rfl
      | some n =>
          obtain ⟨hhead, hpos, hle, hn⟩ := responseFraming_next.mp hnext
          have hgo : ¬ (uint32At resp (offset.toNat + 4) = 0 ∨
              size resp < offset + (uint32At resp (offset.toNat + 4)).toUInt64) := by
            rw [hzero, hbeyond]
            omega
          have hstep : (offset + (uint32At resp (offset.toNat + 4)).toUInt64).toNat =
              offset.toNat + n := by
            rw [toNat_offset_add hresp hoffset (toNat_toUInt64_lt _), UInt32.toNat_toUInt64, hn]
          have hrest := ih (by omega) (by omega : resp.length -
            (offset + (uint32At resp (offset.toNat + 4)).toUInt64).toNat < turns)
          rw [hstep] at hrest
          rw [walkOf_of_some hnext, if_pos (h8.mpr hhead), readUInt32_eq (by omega),
            readUInt32_eq (by omega), List.foldlM_cons, map_bind]
          simp only [Outcome.ok_bind]
          rw [if_neg hgo]
          exact bind_congr hrest

/-- The loop looks for names in the structures that the walk visits. -/
theorem discoverFrom_eq (hresp : Addressable resp) {turns : Nat}
    (hoffset : offset.toNat ≤ resp.length) (hturns : resp.length - offset.toNat < turns)
    (queues : List Bytes) :
    discoverFrom resp turns offset queues =
      (responseFraming.offsets resp offset.toNat).foldlM (discoverAt resp) queues := by
  rw [discoverFrom_loop, (nameLoop_follows hresp hoffset hturns).fst, walkOf, List.foldlM_map]
  refine Outcome.foldlM_congr (fun off hoff queues => ?_) queues
  obtain ⟨n, hn⟩ := Framing.next_of_mem_offsets hoff
  have hoff : (UInt64.ofNat off).toNat = off := by
    have hlt := (Framing.next_bounds hn).2.2
    unfold Addressable at hresp
    exact UInt64.toNat_ofNat_of_lt' (by unfold UInt64.size; omega)
  rw [← hoff] at hn
  have hvisit := discoverStructure_eq hresp hn queues
  rw [hoff] at hvisit
  exact hvisit

theorem discoverIn_eq (hresp : Addressable resp) {turns : Nat} (hturns : resp.length < turns)
    (queues : List Bytes) : discoverIn turns queues resp = Mq.discoverIn queues resp := by
  have hshort : size resp < 36 ↔ resp.length < 36 := by
    rw [UInt64.lt_iff_toNat_lt, toNat_size hresp]
    exact Iff.rfl
  unfold discoverIn Mq.discoverIn
  simp only [hshort]
  split
  · rfl
  · refine bind_congr fun compCode => ?_
    split
    · rfl
    · have h36 : (36 : Size).toNat = 36 := rfl
      exact discoverFrom_eq hresp (by omega) (by omega) queues

end Names

/-- For enough turns the loop over the responses computes what the model does. -/
theorem discoverResponses_eq {responses : List Bytes} {turns : Nat}
    (hresponses : ∀ resp ∈ responses, Addressable resp ∧ resp.length < turns) :
    discoverResponses turns responses = responses.foldlM Mq.discoverIn [] := by
  unfold discoverResponses
  generalize ([] : List Bytes) = queues
  induction responses generalizing queues with
  | nil => rfl
  | cons resp responses ih =>
      obtain ⟨hresp, hturns⟩ := hresponses resp List.mem_cons_self
      rw [List.foldlM_cons, List.foldlM_cons, discoverIn_eq hresp hturns]
      exact bind_congr fun queues' => ih (fun r hr => hresponses r (List.mem_cons_of_mem resp hr)) _

/-- Whatever the vectors, their names are read without leaving one of them. -/
theorem discoverResponses_returns (responses : List ByteVector) :
    ∃ turns, (discoverResponses turns (responses.map ByteVector.bytes)).Returns := by
  let lengths := responses.map fun v => v.bytes.length
  refine ⟨lengths.max?.getD 0 + 1, ?_⟩
  rw [discoverResponses_eq]
  · exact Mq.discoverResponses_returns _
  · intro resp hresp
    obtain ⟨v, hv, rfl⟩ := List.mem_map.mp hresp
    refine ⟨v.addressable, Nat.lt_succ_of_le ?_⟩
    exact List.le_max?_getD_of_mem (List.mem_map_of_mem hv)

end IbmmqExporter.Mq.Sized
