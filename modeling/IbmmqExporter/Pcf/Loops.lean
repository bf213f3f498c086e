/-
  Pcf/Loops.lean --- the loops over PCF structures, around anything they may do.

  `parse_parameters`, `parse_pcf_response_params` and `parse_queue_status_response` have
  a loop each that reads the type and the `StrucLength` of a structure, decides whether
  to go on, does something with the structure and advances.  Here the loops are written
  with the something as an argument.

  WHAT THE FILE PROVES.  A loop does it with the structures of its walk, one after the
  other, and ends where the walk does (`Follows`).  The functions are these loops.
-/
import IbmmqExporter.Pcf.QueueStatus

set_option autoImplicit false

namespace IbmmqExporter.Pcf

open Foundation

/-! ## Loops -/

/-- What a loop knows of a structure when it visits it. -/
structure Visit where
  offset : Nat
  type : UInt32
  strucLength : UInt32
  deriving DecidableEq, Repr

section Loops

variable {σ : Type} (data : Bytes) (visit : σ → Visit → Parse σ)

/-- The loop of `parse_parameters`.  The loops also give the offset at which they end. -/
def parameterLoop (offset : Nat) (s : σ) : Parse (σ × Nat) :=
  if _h : offset + 8 ≤ data.length then do
    let paramType ← readInt32 data offset
    let strucLength ← readInt32 data (offset + 4)
    if _hn : strucLength.toInt ≤ 0 ∨ data.length - offset < strucLength.toInt.toNat then
      return (s, offset)
    else
      let s ← visit s ⟨offset, paramType.toUInt32, strucLength.toUInt32⟩
      parameterLoop (offset + strucLength.toInt.toNat) s
  else return (s, offset)
termination_by data.length - offset
decreasing_by omega

/-- The loop of `parse_pcf_response_params` and of `parse_queue_status_response`. -/
def structureLoop (offset : Nat) (s : σ) : Parse (σ × Nat) :=
  if _h : offset + 8 ≤ data.length then do
    let paramType ← readUInt32 data offset
    let paramLen ← readUInt32 data (offset + 4)
    if _hn : paramLen.toNat = 0 ∨ data.length < offset + paramLen.toNat then return (s, offset)
    else
      let s ← visit s ⟨offset, paramType, paramLen⟩
      structureLoop (offset + paramLen.toNat) s
  else return (s, offset)
termination_by data.length - offset
decreasing_by omega

end Loops

/-! ## Walks -/

/-- The structures that a loop visits, and the offset at which it ends. -/
structure Walk where
  visits : List Visit
  stop : Nat
  deriving DecidableEq, Repr

/-- The walk behind `n` bytes. -/
def Walk.behind (w : Walk) (n : Nat) : Walk where
  visits := w.visits.map fun v => { v with offset := n + v.offset }
  stop := n + w.stop

/-- The offsets increase. -/
def Walk.Increasing (w : Walk) : Prop := (w.visits.map Visit.offset).Pairwise (· < ·)

/-- What the words at an offset say. -/
def visitAt (data : Bytes) (offset : Nat) : Visit :=
  ⟨offset, uint32At data offset, uint32At data (offset + 4)⟩

/-- The walk of a framing. -/
def walkOf (F : Framing) (data : Bytes) (offset : Nat) : Walk where
  visits := (F.offsets data offset).map (visitAt data)
  stop := F.stop data offset

theorem walkOf_of_none {F : Framing} {data : Bytes} {offset : Nat}
    (h : F.next (data.drop offset) = none) : walkOf F data offset = ⟨[], offset⟩ := by
  rw [walkOf, Framing.offsets_of_none h, Framing.stop_of_none h]
  rfl

theorem walkOf_of_some {F : Framing} {data : Bytes} {offset n : Nat}
    (h : F.next (data.drop offset) = some n) :
    walkOf F data offset =
      ⟨visitAt data offset :: (walkOf F data (offset + n)).visits,
        (walkOf F data (offset + n)).stop⟩ := by
  rw [walkOf, Framing.offsets_of_some h, Framing.stop_of_some h]
  rfl

/-- A loop around anything that it may do with a structure. -/
abbrev Loop : Type 1 := (σ : Type) → (σ → Visit → Parse σ) → σ → Parse (σ × Nat)

/-- The loop visits the structures of the walk, in order, and ends where the walk does. -/
def Follows (loop : Loop) (w : Walk) : Prop :=
  ∀ (σ : Type) (visit : σ → Visit → Parse σ) (s : σ),
    loop σ visit s = (fun s => (s, w.stop)) <$> w.visits.foldlM visit s

/-- What a loop comes to, without the offset at which it ends. -/
theorem Follows.fst {loop : Loop} {w : Walk} (h : Follows loop w) {σ : Type}
    (visit : σ → Visit → Parse σ) (s : σ) :
    Prod.fst <$> loop σ visit s = w.visits.foldlM visit s := by
  rw [h, Functor.map_map]
  exact id_map _

theorem parameterLoop_follows (data : Bytes) (offset : Nat) :
    Follows (fun _ visit s => parameterLoop data visit offset s)
      (walkOf parserFraming data offset) := by
  intro σ visit
  dsimp only
  induction offset using parserFraming.walk_induction data with
  | done offset h =>
      intro s
      rw [walkOf_of_none h, parameterLoop]
      split
      · next h8 =>
          have hstop := parserFraming_next_none h h8
          rw [readInt32_eq (by omega), readInt32_eq (by omega)]
          simp only [Outcome.ok_bind]
          exact dif_pos hstop
      · rfl
  | step offset n h ih =>
      intro s
      obtain ⟨h8, hpos, hle, rfl⟩ := parserFraming_next.mp h
      have hgo : ¬ ((int32At data (offset + 4)).toInt ≤ 0 ∨
          data.length - offset < (int32At data (offset + 4)).toInt.toNat) := by
        unfold intAt at hpos hle
        omega
      rw [walkOf_of_some h, parameterLoop, dif_pos h8, readInt32_eq (by omega),
        readInt32_eq (by omega), List.foldlM_cons, map_bind]
      simp only [Outcome.ok_bind]
      rw [dif_neg hgo]
      exact bind_congr ih

theorem structureLoop_follows (data : Bytes) (offset : Nat) :
    Follows (fun _ visit s => structureLoop data visit offset s)
      (walkOf responseFraming data offset) := by
  intro σ visit
  dsimp only
  induction offset using responseFraming.walk_induction data with
  | done offset h =>
      intro s
      rw [walkOf_of_none h, structureLoop]
      split
      · next h8 =>
          have hstop : (uint32At data (offset + 4)).toNat = 0 ∨
              data.length < offset + (uint32At data (offset + 4)).toNat :=
            responseFraming_next_none h h8
          rw [readUInt32_eq (by omega), readUInt32_eq (by omega)]
          simp only [Outcome.ok_bind]
          exact dif_pos hstop
      · rfl
  | step offset n h ih =>
      intro s
      obtain ⟨h8, hpos, hle, rfl⟩ := responseFraming_next.mp h
      have hgo : ¬ ((uint32At data (offset + 4)).toNat = 0 ∨
          data.length < offset + (uint32At data (offset + 4)).toNat) := by omega
      rw [walkOf_of_some h, structureLoop, dif_pos h8, readUInt32_eq (by omega),
        readUInt32_eq (by omega), List.foldlM_cons, map_bind]
      simp only [Outcome.ok_bind]
      rw [dif_neg hgo]
      exact bind_congr ih

/-! ## The functions as loops -/

/-- `parse_parameters` puts what it makes of a structure behind what it has. -/
theorem parseParameters_loop (data : Bytes) :
    parseParameters data =
      Prod.fst <$> parameterLoop data
        (fun params v => (fun param => params ++ [param]) <$> parseAt data v.offset) 0 [] := by
  rw [(parameterLoop_follows data 0).fst, walkOf, List.foldlM_map, parseParameters_eq_mapM]
  have hconcat := Outcome.foldlM_concat (parseAt data) (parserFraming.offsets data 0) []
  rw [show (([] : List PCFParameter) ++ ·) = id from rfl, id_map] at hconcat
  exact hconcat.symm

/-- What the visitor of `parse_pcf_response_params` is given: a pointer to the structure,
which lies inside of the response. -/
def paramOf (data : Bytes) (v : Visit) : Parse ResponseParam :=
  if h : v.offset + v.strucLength.toNat ≤ data.length then
    .ok
      { paramType := v.type
        paramId := if v.offset + 12 ≤ data.length then uint32At data (v.offset + 8) else 0
        pdata := (data.drop v.offset).take v.strucLength.toNat
        plen := v.strucLength
        length_pdata := by
          simp only [List.length_take, List.length_drop]
          omega }
  else .undefined

/-- `parse_pcf_response_params` calls its visitor. -/
theorem responseLoop_loop {σ : Type} (data : Bytes) (visitor : σ → ResponseParam → Parse σ)
    (offset : Nat) (s : σ) :
    responseLoop data visitor offset s =
      structureLoop data (fun s v => paramOf data v >>= visitor s) offset s := by
  have h := structureLoop_follows data offset σ (fun s v => paramOf data v >>= visitor s) s
  dsimp only at h
  rw [responseLoop_eq, h, walkOf, List.foldlM_map, visitedParams]
  refine congrArg _ (Outcome.foldlM_pmap _ (fun s off hnext => ?_) s)
  obtain ⟨n, hn⟩ := hnext
  obtain ⟨h8, -, hle, rfl⟩ := responseFraming_next.mp hn
  have hparam : paramOf data (visitAt data off) = .ok (paramAt data off ⟨_, hn⟩) := dif_pos hle
  rw [hparam]
  rfl

/-- `parse_queue_status_response` looks at the type. -/
theorem queueStatusLoop_loop (data : Bytes) (offset : Nat) (scan : HandleScan) :
    queueStatusLoop data offset scan =
      structureLoop data (fun scan v => scan.visit data v.offset v.type v.strucLength) offset
        scan := by
  have h := structureLoop_follows data offset HandleScan
    (fun scan v => scan.visit data v.offset v.type v.strucLength) scan
  dsimp only at h
  rw [queueStatusLoop_eq, h, walkOf, List.foldlM_map]
  rfl

end IbmmqExporter.Pcf
