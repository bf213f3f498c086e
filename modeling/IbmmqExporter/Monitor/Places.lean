/-
  Monitor/Places.lean --- where `parse_pcf_params` takes its parameters from.

  The two loops of the decoder share one offset.  The inner one takes as many of the
  structures that follow a group's header as the header counts, the outer one goes on
  behind them.

  WHAT THE FILE PROVES.  The parameters, each group followed by its members, are what
  the structures at the places of the loops hold.  If the headers of all groups have 16
  bytes, these places are those of the plain walk over the bytes: nothing is lost and
  nothing taken twice, and a group has as many members as it counts, or as follow.
-/
import IbmmqExporter.Monitor.Params

set_option autoImplicit false

namespace IbmmqExporter.Monitor

open Foundation Pcf

/-! ## Structures -/

/-- How both loops find the next structure: at least 16 bytes, and a `StrucLength` of at
least 16 that fits. -/
def monitorFraming : Framing where
  header := 16
  claim rest := (intAt rest 4).toNat
  least := 16
  least_pos := by decide

theorem monitorFraming_next {data : Bytes} {off n : Nat} :
    monitorFraming.next (data.drop off) = some n ↔
      off + 16 ≤ data.length ∧ 16 ≤ n ∧ off + n ≤ data.length ∧
        (intAt data (off + 4)).toNat = n := by
  rw [Framing.next_eq_some]
  simp only [monitorFraming, intAt_drop, List.length_drop]
  omega

theorem monitorFraming_next_none {data : Bytes} {off : Nat}
    (h : monitorFraming.next (data.drop off) = none) (h16 : off + 16 ≤ data.length) :
    intAt data (off + 4) < 16 ∨ data.length < off + (intAt data (off + 4)).toNat := by
  by_contra hcon
  have hsome : monitorFraming.next (data.drop off) = some (intAt data (off + 4)).toNat :=
    monitorFraming_next.mpr ⟨h16, by omega, by omega, rfl⟩
  rw [h] at hsome
  cases hsome

/-- What the decoder makes of the structure at `off`, members aside. -/
def valueAt (data : Bytes) (off : Nat) : Parse PCFParam :=
  parseValue data off (int32At data off) (intAt data (off + 4)) (int32At data (off + 8))

theorem valueAt_returns {data : Bytes} {off n : Nat}
    (h : monitorFraming.next (data.drop off) = some n) : (valueAt data off).Returns := by
  obtain ⟨h16, hn, hle, rfl⟩ := monitorFraming_next.mp h
  exact parseValue_returns (by omega) (by omega) _ _

/-- The header of a group has no value. -/
theorem valueAt_group {data : Bytes} {off : Nat} (h : int32At data off = mqcftGroup) :
    valueAt data off = .ok { type := mqcftGroup, paramId := int32At data (off + 8) } := by
  rw [valueAt, h, parseValue, if_neg (by decide), if_neg (by decide), if_neg (by decide)]
  rfl

/-- A structure itself has no members. -/
theorem groupParams_of_valueAt {data : Bytes} {off : Nat} {p : PCFParam}
    (h : valueAt data off = .ok p) : p.type = int32At data off ∧ p.groupParams = [] := by
  unfold valueAt parseValue at h
  split at h
  · obtain ⟨v, -, h⟩ := Outcome.bind_eq_ok.mp h
    obtain rfl := Outcome.ok.inj h
    exact ⟨rfl, rfl⟩
  · split at h
    · obtain ⟨v, -, h⟩ := Outcome.bind_eq_ok.mp h
      obtain rfl := Outcome.ok.inj h
      exact ⟨rfl, rfl⟩
    · split at h
      · split at h
        · obtain ⟨v, -, h⟩ := Outcome.bind_eq_ok.mp h
          obtain rfl := Outcome.ok.inj h
          exact ⟨rfl, rfl⟩
        · obtain rfl := Outcome.ok.inj h
          exact ⟨rfl, rfl⟩
      · obtain rfl := Outcome.ok.inj h
        exact ⟨rfl, rfl⟩

/-! ## The loops -/

/-- The number of members that the header at `off` counts. -/
def countAt (data : Bytes) (off : Nat) : Nat := (intAt data (off + 12)).toNat

/-- The inner loop takes the next structures of the walk. -/
theorem parseMembers_eq (data : Bytes) (count off : Nat) :
    ∃ m, parseMembers data count off = .ok m ∧
      ((monitorFraming.offsets data off).take count).mapM (valueAt data) = .ok m.params ∧
        m.stop = monitorFraming.skip data count off := by
  induction count generalizing off with
  | zero => exact ⟨_, rfl, rfl, rfl⟩
  | succ count ih =>
      unfold parseMembers
      cases h : monitorFraming.next (data.drop off) with
      | none =>
          rw [Framing.offsets_of_none h, Framing.skip_of_none h]
          split
          · next h16 =>
              rw [readInt32_eq (by omega), readInt_eq (by omega), readInt32_eq (by omega)]
              simp only [Outcome.ok_bind, if_pos (monitorFraming_next_none h h16)]
              exact ⟨_, rfl, rfl, rfl⟩
          · exact ⟨_, rfl, rfl, rfl⟩
      | some n =>
          obtain ⟨h16, hn, hle, hword⟩ := monitorFraming_next.mp h
          obtain ⟨p, hp⟩ := valueAt_returns h
          obtain ⟨m, hm, hparams, hstop⟩ := ih (off + n)
          subst hword
          have hgo : ¬ (intAt data (off + 4) < 16 ∨
              data.length < off + (intAt data (off + 4)).toNat) := by omega
          rw [Framing.offsets_of_some h, Framing.skip_of_some h, if_pos h16,
            readInt32_eq (by omega), readInt_eq (by omega), readInt32_eq (by omega)]
          simp only [Outcome.ok_bind, if_neg hgo]
          rw [valueAt] at hp
          rw [hp, Outcome.ok_bind, hm]
          refine ⟨_, rfl, ?_, hstop⟩
          rw [List.take_succ_cons, List.mapM_cons, valueAt, hp, hparams]
          rfl

/-- What the outer loop makes of the bytes from an offset on, structure by structure. -/
inductive Decoded (data : Bytes) : Nat → List PCFParam → Prop where
  | done {off : Nat} (h : monitorFraming.next (data.drop off) = none) : Decoded data off []
  | leaf {off n : Nat} {p : PCFParam} {ps : List PCFParam}
      (h : monitorFraming.next (data.drop off) = some n) (htype : int32At data off ≠ mqcftGroup)
      (hvalue : valueAt data off = .ok p) (hrest : Decoded data (off + n) ps) :
      Decoded data off (p :: ps)
  | group {off n : Nat} {members ps : List PCFParam}
      (h : monitorFraming.next (data.drop off) = some n) (htype : int32At data off = mqcftGroup)
      (hmembers : ((monitorFraming.offsets data (off + 16)).take (countAt data off)).mapM
        (valueAt data) = .ok members)
      (hrest : Decoded data (monitorFraming.skip data (countAt data off) (off + 16)) ps) :
      Decoded data off ({ type := mqcftGroup, paramId := int32At data (off + 8)
                          groupParams := members } :: ps)

theorem parsePcfParamsFrom_decoded (data : Bytes) (off : Nat) :
    ∃ ps, parsePcfParamsFrom data off = .ok ps ∧ Decoded data off ps := by
  induction hrest : data.length - off using Nat.strong_induction_on generalizing off with
  | _ rest ih =>
      unfold parsePcfParamsFrom
      cases h : monitorFraming.next (data.drop off) with
      | none =>
          split
          · next h16 =>
              rw [readInt32_eq (by omega), readInt_eq (by omega), readInt32_eq (by omega)]
              simp only [Outcome.ok_bind, dif_pos (monitorFraming_next_none h h16)]
              exact ⟨[], rfl, .done h⟩
          · exact ⟨[], rfl, .done h⟩
      | some n =>
          obtain ⟨h16, hn, hle, rfl⟩ := monitorFraming_next.mp h
          have hgo : ¬ (intAt data (off + 4) < 16 ∨
              data.length < off + (intAt data (off + 4)).toNat) := by omega
          rw [dif_pos h16, readInt32_eq (by omega), readInt_eq (by omega), readInt32_eq (by omega)]
          simp only [Outcome.ok_bind, dif_neg hgo]
          split
          · next hgroup =>
              rw [readInt_eq (by omega)]
              simp only [Outcome.ok_bind]
              obtain ⟨m, hm, hparams, hstop⟩ :=
                parseMembers_eq data (intAt data (off + 12)).toNat (off + 16)
              have hle := m.le
              obtain ⟨ps, hps, hdecoded⟩ := ih _ (by omega) m.stop rfl
              rw [hm, Outcome.ok_bind, hps, hgroup]
              rw [hstop] at hdecoded
              exact ⟨_, rfl, .group h hgroup hparams hdecoded⟩
          · next hgroup =>
              obtain ⟨p, hp⟩ := valueAt_returns h
              obtain ⟨ps, hps, hdecoded⟩ :=
                ih _ (by omega) (off + (intAt data (off + 4)).toNat) rfl
              refine ⟨p :: ps, ?_, .leaf h hgroup hp hdecoded⟩
              rw [valueAt] at hp
              rw [hp, Outcome.ok_bind, hps]
              rfl

/-! ## Conservation -/

/-- The parameters in the order of the stream: each group followed by its members. -/
def flatten (ps : List PCFParam) : List PCFParam :=
  ps.flatMap fun p => { p with groupParams := [] } :: p.groupParams

theorem flatten_cons (p : PCFParam) (ps : List PCFParam) :
    flatten (p :: ps) = { p with groupParams := [] } :: (p.groupParams ++ flatten ps) := rfl

/-- Every group header that the plain walk meets has 16 bytes. -/
def HeadersShort (data : Bytes) : Prop :=
  ∀ off ∈ monitorFraming.offsets data 0,
    int32At data off = mqcftGroup → intAt data (off + 4) = 16

/-- A parameter is the structure at `off`, with as many of the `following` structures for
members as its header counts, if it is a group, and with none if it is not. -/
structure Owns (data : Bytes) (off following : Nat) (p : PCFParam) : Prop where
  type_eq : p.type = int32At data off
  group : p.type = mqcftGroup → p.groupParams.length = min (countAt data off) following
  leaf : p.type ≠ mqcftGroup → p.groupParams = []

/-- The parameters are the structures of the walk. -/
structure Conserves (data : Bytes) (walk : List Nat) (ps : List PCFParam) : Prop where
  /-- in order, each one once, with the values that they hold -/
  values : walk.mapM (valueAt data) = .ok (flatten ps)
  /-- a member has no members -/
  flat : ∀ p ∈ ps, ∀ m ∈ p.groupParams, m.groupParams = []
  owns : ∀ before p after, ps = before ++ p :: after →
    ∃ pre off post, walk = pre ++ off :: post ∧ pre.length = (flatten before).length ∧
      Owns data off post.length p

theorem flat_of_mapM {data : Bytes} {offs : List Nat} {ms : List PCFParam}
    (h : offs.mapM (valueAt data) = .ok ms) : ∀ m ∈ ms, m.groupParams = [] := by
  intro m hm
  obtain ⟨off, -, hoff⟩ := Outcome.exists_of_mem_mapM h hm
  exact (groupParams_of_valueAt hoff).2

/-- One more parameter in front: the structure at `off`, and its members at `offs`. -/
theorem Conserves.cons {data : Bytes} {walk offs : List Nat} {ps : List PCFParam} {off : Nat}
    {p : PCFParam} (h : Conserves data walk ps)
    (hvalue : valueAt data off = .ok { p with groupParams := [] })
    (hmembers : offs.mapM (valueAt data) = .ok p.groupParams)
    (howns : Owns data off (offs ++ walk).length p) :
    Conserves data (off :: (offs ++ walk)) (p :: ps) where
  values := by
    rw [List.mapM_cons, List.mapM_append, hvalue, hmembers, h.values]
    rfl
  flat := by
    intro q hq m hm
    rcases List.mem_cons.mp hq with rfl | hq
    · exact flat_of_mapM hmembers m hm
    · exact h.flat q hq m hm
  owns := by
    intro before q after hsplit
    cases before with
    | nil =>
        obtain ⟨rfl, rfl⟩ := List.cons.inj hsplit
        exact ⟨[], off, offs ++ walk, rfl, rfl, howns⟩
    | cons p' before =>
        obtain ⟨rfl, hps⟩ := List.cons.inj hsplit
        obtain ⟨pre, off', post, rfl, hlen, hown⟩ := h.owns before q after hps
        refine ⟨off :: (offs ++ pre), off', post, by simp, ?_, hown⟩
        rw [flatten_cons, List.length_cons, List.length_cons, List.length_append,
          List.length_append, hlen, Outcome.length_of_mapM hmembers]

/-- What the outer loop decodes are the structures of the walk. -/
theorem Decoded.conserves {data : Bytes} {off : Nat} {ps : List PCFParam}
    (h : Decoded data off ps)
    (hshort : ∀ o ∈ monitorFraming.offsets data off,
      int32At data o = mqcftGroup → intAt data (o + 4) = 16) :
    Conserves data (monitorFraming.offsets data off) ps := by
  induction h with
  | done h =>
      rw [Framing.offsets_of_none h]
      exact ⟨rfl, fun p hp => absurd hp List.not_mem_nil,
        fun before p after hsplit => by simp at hsplit⟩
  | @leaf off n p ps h htype hvalue hrest ih =>
      rw [Framing.offsets_of_some h] at hshort ⊢
      have hrest' := ih fun o ho => hshort o (List.mem_cons_of_mem off ho)
      obtain ⟨hptype, hmembers⟩ := groupParams_of_valueAt hvalue
      have hself : { p with groupParams := [] } = p := by
        cases p
        exact congrArg _ hmembers.symm
      have hnone : ([] : List Nat).mapM (valueAt data) = .ok p.groupParams := by
        rw [hmembers]
        rfl
      have hcons : Conserves data (off :: ([] ++ monitorFraming.offsets data (off + n))) (p :: ps) :=
        hrest'.cons (by rw [hself, hvalue]) hnone
          ⟨hptype, fun hgroup => absurd (hptype ▸ hgroup) htype, fun _ => hmembers⟩
      exact hcons
  | @group off n members ps h htype hmembers hrest ih =>
      have hn : n = 16 := by
        have hhead : off ∈ monitorFraming.offsets data off := by
          rw [Framing.offsets_of_some h]
          exact List.mem_cons_self
        have hword := hshort off hhead htype
        obtain ⟨-, -, -, hlen⟩ := monitorFraming_next.mp h
        omega
      subst hn
      rw [Framing.offsets_of_some h] at hshort ⊢
      rw [Framing.offsets_skip] at ih
      have hrest' := ih fun o ho => hshort o (List.mem_cons_of_mem off (List.mem_of_mem_drop ho))
      rw [← List.take_append_drop (countAt data off) (monitorFraming.offsets data (off + 16))]
      refine hrest'.cons (valueAt_group htype) hmembers ⟨htype.symm, fun _ => ?_, ?_⟩
      · have hlen := Outcome.length_of_mapM hmembers
        rw [List.length_take] at hlen
        rw [List.take_append_drop]
        exact hlen
      · intro hne
        exact absurd rfl hne

/-- If the headers of all groups have 16 bytes, the decoder loses and duplicates
nothing. -/
theorem parsePcfParams_conserves {data : Bytes} (h : HeadersShort data) :
    ∃ ps, parsePcfParams data = .ok ps ∧
      Conserves data (monitorFraming.offsets data 0) ps := by
  obtain ⟨ps, hps, hdecoded⟩ := parsePcfParamsFrom_decoded data 0
  exact ⟨ps, hps, hdecoded.conserves h⟩

/-- A group that counts two members, of which one follows. -/
def shortOfMembers : Bytes :=
  encodeInt32 mqcftGroup ++ (encodeInt32 16 ++ (encodeInt32 8010 ++ (encodeInt32 2 ++
    (encodeInt32 mqcftInteger ++ (encodeInt32 16 ++ (encodeInt32 3 ++ encodeInt32 7))))))

theorem headersShort_shortOfMembers : HeadersShort shortOfMembers := by
  have hfirst : monitorFraming.next (shortOfMembers.drop 0) = some 16 := by decide +kernel
  have hsecond : monitorFraming.next (shortOfMembers.drop (0 + 16)) = some 16 := by decide +kernel
  have hthird : monitorFraming.next (shortOfMembers.drop (0 + 16 + 16)) = none := by decide +kernel
  unfold HeadersShort
  rw [Framing.offsets_of_some hfirst, Framing.offsets_of_some hsecond,
    Framing.offsets_of_none hthird]
  decide +kernel

theorem parsePcfParams_conserves_shortOfMembers :
    ∃ ps, parsePcfParams shortOfMembers = .ok ps ∧
      Conserves shortOfMembers (monitorFraming.offsets shortOfMembers 0) ps :=
  parsePcfParams_conserves headersShort_shortOfMembers

end IbmmqExporter.Monitor
