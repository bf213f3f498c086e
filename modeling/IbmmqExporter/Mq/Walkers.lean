/-
  Mq/Walkers.lean --- the four functions that walk over PCF structures.

  `parse_parameters` is given what stands behind a header.  `parse_pcf_response_params`,
  `parse_queue_status_response` and `discover_queues` are given the whole response and
  walk over it only if it is successful.

  WHAT THE FILE PROVES.  Behind the header of a successful response the four loops visit
  the same structures and end at the same offset, whatever they do with a structure
  (`walkers_alike`).  They read `StrucLength` as signed or as unsigned and test it in
  different ways, but a length that is negative as a signed one is longer than the
  bytes.
-/
import IbmmqExporter.Foundation.Locality
import IbmmqExporter.Mq.Sizes
import IbmmqExporter.Pcf.Structures

set_option autoImplicit false

namespace IbmmqExporter.Mq

open Foundation Pcf

/-! ## Walkers -/

/-- What the functions on responses do in front of their loop. -/
def whenSuccessful {σ : Type} (data : Bytes) (s : σ) (loop : Parse (σ × Nat)) :
    Parse (σ × Nat) := do
  if data.length < 36 then return (s, 0)
  else
    let compCode ← readUInt32 data 24
    if compCode ≠ 0 then return (s, 0) else loop

/-- `parse_parameters`. -/
def parametersWalker (data : Bytes) : Loop := fun _ visit s => parameterLoop data visit 0 s

/-- `parse_pcf_response_params`. -/
def responseParamsWalker (data : Bytes) : Loop := fun _ visit s =>
  whenSuccessful data s (structureLoop data visit 36 s)

/-- `parse_queue_status_response`. -/
def queueStatusWalker (data : Bytes) : Loop := fun _ visit s =>
  whenSuccessful data s (structureLoop data visit 36 s)

/-- `discover_queues` on one response. -/
def discoverWalker (turns : Nat) (data : Bytes) : Loop := fun _ visit s =>
  whenSuccessful data s (Sized.nameLoop data visit turns 36 s)

theorem parseParameters_walker (data : Bytes) :
    parseParameters data =
      Prod.fst <$> parametersWalker data (List PCFParameter)
        (fun params v => (fun param => params ++ [param]) <$> parseAt data v.offset) [] :=
  parseParameters_loop data

theorem parsePcfResponseParams_walker {σ : Type} (data : Bytes)
    (visitor : σ → ResponseParam → Parse σ) (s : σ) :
    parsePcfResponseParams data visitor s =
      Prod.fst <$> responseParamsWalker data σ (fun s v => paramOf data v >>= visitor s) s := by
  unfold parsePcfResponseParams responseParamsWalker whenSuccessful
  split
  · rfl
  · rw [map_bind]
    refine bind_congr fun compCode => ?_
    split
    · rfl
    · rw [responseLoop_loop, map_eq_pure_bind]

theorem parseQueueStatusResponse_walker (data : Bytes) :
    parseQueueStatusResponse data =
      (fun r => r.1.finish) <$> queueStatusWalker data HandleScan
        (fun scan v => scan.visit data v.offset v.type v.strucLength) {} := by
  unfold parseQueueStatusResponse queueStatusWalker whenSuccessful
  split
  · rfl
  · rw [map_bind]
    refine bind_congr fun compCode => ?_
    split
    · rfl
    · rw [queueStatusLoop_loop, map_eq_pure_bind]

theorem discoverIn_walker {resp : Bytes} (hresp : Addressable resp) (turns : Nat)
    (queues : List Bytes) :
    Sized.discoverIn turns queues resp =
      Prod.fst <$> discoverWalker turns resp (List Bytes) (Sized.visitNames resp) queues := by
  have hshort : size resp < 36 ↔ resp.length < 36 := by
    rw [UInt64.lt_iff_toNat_lt, toNat_size hresp]
    exact Iff.rfl
  unfold Sized.discoverIn discoverWalker whenSuccessful
  simp only [hshort]
  split
  · rfl
  · rw [map_bind]
    refine bind_congr fun compCode => ?_
    split
    · rfl
    · rw [Sized.discoverFrom_loop]

/-! ## One walk -/

/-- Without room for `2^31` bytes a length is found as signed if it is as unsigned. -/
theorem parserFraming_next_eq {data : Bytes} (hlen : data.length < 2 ^ 31) (off : Nat) :
    parserFraming.next (data.drop off) = responseFraming.next (data.drop off) := by
  have hword := intAt_uint32At data (off + 4)
  apply Option.ext
  intro n
  rw [parserFraming_next, responseFraming_next]
  omega

theorem walkOf_increasing (F : Framing) (data : Bytes) (off : Nat) :
    (walkOf F data off).Increasing := by
  have hoffsets : (walkOf F data off).visits.map Visit.offset = F.offsets data off := by
    rw [walkOf, List.map_map]
    exact List.map_id _
  rw [Walk.Increasing, hoffsets]
  exact F.pairwise_offsets data off

/-- Behind a header the walk is the same, shifted. -/
theorem walkOf_append_right (F : Framing) (a b : Bytes) :
    walkOf F (a ++ b) a.length = (walkOf F b 0).behind a.length := by
  have hoffsets := F.offsets_append_right a b 0
  have hstop := F.stop_append_right a b 0
  rw [Nat.add_zero] at hoffsets hstop
  have hvisit : ∀ off, visitAt (a ++ b) (a.length + off) =
      { visitAt b off with offset := a.length + off } := by
    intro off
    have hword : ∀ k, uint32At (a ++ b) (a.length + k) = uint32At b k := by
      intro k
      rw [← uint32At_drop, List.drop_left]
    rw [visitAt, hword, Nat.add_assoc, hword]
    rfl
  rw [walkOf, walkOf, Walk.behind, hoffsets, hstop, List.map_map, List.map_map]
  congr 1
  exact List.map_congr_left fun off _ => hvisit off

/-- A response goes on to the loop if it is successful. -/
theorem whenSuccessful_of_accepted {σ : Type} {data : Bytes}
    (h : 36 ≤ data.length ∧ uint32At data 24 = 0) (s : σ) (loop : Parse (σ × Nat)) :
    whenSuccessful data s loop = loop := by
  obtain ⟨h36, hcode⟩ := h
  rw [whenSuccessful, if_neg (by omega), readUInt32_eq (by omega), Outcome.ok_bind, hcode]
  exact if_neg (not_not.mpr rfl)

/-- On a response and on what stands behind its header the four functions follow one walk.
`discover_queues` needs more turns than the response has bytes, at most. -/
structure WalkAlike (resp body : Bytes) (w : Walk) : Prop where
  increasing : w.Increasing
  parameters : Follows (parametersWalker body) w
  responseParams : Follows (responseParamsWalker resp) (w.behind 36)
  queueStatus : Follows (queueStatusWalker resp) (w.behind 36)
  discover : ∀ turns, resp.length < turns → Follows (discoverWalker turns resp) (w.behind 36)

/-- The four functions walk alike over what stands behind the header of a successful
response. -/
theorem walkers_alike {hdr : PCFHeader} (hcode : hdr.compCode = 0) {body : Bytes}
    (hlen : body.length < 2 ^ 31) :
    ∃ w, WalkAlike (hdr.encode ++ body) body w := by
  have hlength : (hdr.encode ++ body).length = 36 + body.length := by
    rw [List.length_append, hdr.length_encode]
  have haccepted : 36 ≤ (hdr.encode ++ body).length ∧ uint32At (hdr.encode ++ body) 24 = 0 := by
    refine ⟨by omega, ?_⟩
    rw [compCode_encode, hcode]
    rfl
  have hbehind : walkOf responseFraming (hdr.encode ++ body) 36 =
      (walkOf responseFraming body 0).behind 36 := by
    have h := walkOf_append_right responseFraming hdr.encode body
    rwa [hdr.length_encode] at h
  refine ⟨walkOf responseFraming body 0, walkOf_increasing _ _ _, ?_, ?_, ?_, ?_⟩
  · have hsame : walkOf parserFraming body 0 = walkOf responseFraming body 0 := by
      have h := Framing.offsets_congr (parserFraming_next_eq hlen) 0
      rw [walkOf, walkOf, h.1, h.2]
    rw [← hsame]
    exact parameterLoop_follows body 0
  · intro σ visit s
    rw [responseParamsWalker, whenSuccessful_of_accepted haccepted, ← hbehind]
    exact structureLoop_follows _ 36 σ visit s
  · intro σ visit s
    rw [queueStatusWalker, whenSuccessful_of_accepted haccepted, ← hbehind]
    exact structureLoop_follows _ 36 σ visit s
  · intro turns hturns σ visit s
    have haddressable : Addressable (hdr.encode ++ body) := by
      unfold Addressable
      omega
    have h36 : (36 : Size).toNat = 36 := rfl
    rw [discoverWalker, whenSuccessful_of_accepted haccepted, ← hbehind]
    exact Sized.nameLoop_follows haddressable (by omega) (by omega) σ visit s

/-- A structure of twelve bytes, and one that states a negative length. -/
def negativeLength : Bytes :=
  encodeStructure mqcftInteger 1 [] ++ (encodeInt32 3 ++ encodeInt32 (-1))

theorem walkers_alike_negativeLength :
    ∃ w, WalkAlike ((responseHeader 41 2).encode ++ negativeLength) negativeLength w :=
  walkers_alike rfl (by decide +kernel)

end IbmmqExporter.Mq
