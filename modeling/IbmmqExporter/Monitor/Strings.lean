/-
  Monitor/Strings.lean --- whose bytes the strings of the decoders are.

  `parse_pcf_params` and `discover_queues` compare the length that a string states with
  what is left of the message, and not with the structure.

  WHAT THE FILE PROVES.  A string consists of bytes of its own structure if and only if
  what is read behind the structure is trimmed off again.
-/
import IbmmqExporter.Monitor.Places
import IbmmqExporter.Mq.Names

set_option autoImplicit false

namespace IbmmqExporter.Monitor

open Foundation Pcf Mq

/-! ## The places of the loops -/

/-- The offsets of the structures that the two loops decode, in order. -/
def places (data : Bytes) (off : Nat) : List Nat :=
  match _h : monitorFraming.next (data.drop off) with
  | none => []
  | some n =>
      if int32At data off = mqcftGroup then
        off :: ((monitorFraming.offsets data (off + 16)).take (countAt data off) ++
          places data (monitorFraming.skip data (countAt data off) (off + 16)))
      else off :: places data (off + n)
termination_by data.length - off
decreasing_by
  · have hle := Framing.le_skip (F := monitorFraming) data (countAt data off) (off + 16)
    have := Framing.next_bounds _h
    omega
  · have := Framing.next_bounds _h
    omega

theorem places_of_none {data : Bytes} {off : Nat}
    (h : monitorFraming.next (data.drop off) = none) : places data off = [] := by
  rw [places]
  split
  · rfl
  · next n hn =>
      rw [h] at hn
      cases hn

theorem places_of_some {data : Bytes} {off n : Nat}
    (h : monitorFraming.next (data.drop off) = some n) :
    places data off =
      if int32At data off = mqcftGroup then
        off :: ((monitorFraming.offsets data (off + 16)).take (countAt data off) ++
          places data (monitorFraming.skip data (countAt data off) (off + 16)))
      else off :: places data (off + n) := by
  rw [places]
  split
  · next hn =>
      rw [h] at hn
      cases hn
  · next m hm =>
      rw [h] at hm
      cases hm
      rfl

/-- The parameters are what the structures at the places hold. -/
theorem Decoded.values {data : Bytes} {off : Nat} {ps : List PCFParam}
    (h : Decoded data off ps) : (places data off).mapM (valueAt data) = .ok (flatten ps) := by
  induction h with
  | done h =>
      rw [places_of_none h]
      rfl
  | @leaf off n p ps h htype hvalue hrest ih =>
      have hself : { p with groupParams := [] } = p := by
        have hmembers := (groupParams_of_valueAt hvalue).2
        cases p
        exact congrArg _ hmembers.symm
      rw [places_of_some h, if_neg htype, List.mapM_cons, hvalue, ih, flatten_cons, hself,
        (groupParams_of_valueAt hvalue).2]
      rfl
  | @group off n members ps h htype hmembers hrest ih =>
      rw [places_of_some h, if_pos htype, List.mapM_cons, List.mapM_append, valueAt_group htype,
        hmembers, ih]
      rfl

/-- There is a structure at every place. -/
theorem next_of_mem_places {data : Bytes} {off o : Nat} (h : o ∈ places data off) :
    ∃ n, monitorFraming.next (data.drop o) = some n := by
  induction hk : data.length - off using Nat.strong_induction_on generalizing off with
  | _ k ih =>
      cases hnext : monitorFraming.next (data.drop off) with
      | none =>
          rw [places_of_none hnext] at h
          cases h
      | some n =>
          have hbounds := Framing.next_bounds hnext
          rw [places_of_some hnext] at h
          split at h
          · have hle := Framing.le_skip (F := monitorFraming) data (countAt data off) (off + 16)
            rcases List.mem_cons.mp h with rfl | h
            · exact ⟨n, hnext⟩
            · rcases List.mem_append.mp h with h | h
              · exact Framing.next_of_mem_offsets (List.mem_of_mem_take h)
              · exact ih _ (by omega) h rfl
          · rcases List.mem_cons.mp h with rfl | h
            · exact ⟨n, hnext⟩
            · exact ih _ (by omega) h rfl

/-! ## Strings inside their structures -/

/-- What `parse_pcf_params` trims. -/
def trimmedBlank (b : UInt8) : Bool := decide (b = blank)

/-- The string that the structure at `off` states. -/
def stringAt (data : Bytes) (off : Nat) : Reading :=
  Reading.behind off (off + (intAt data (off + 4)).toNat) 20 (intAt data (off + 16)).toNat

/-- The string at `off` passes the tests of `parse_pcf_params`. -/
def IsRead (data : Bytes) (off : Nat) : Prop :=
  int32At data off = mqcftString ∧ 20 ≤ intAt data (off + 4) ∧ 0 < intAt data (off + 16) ∧
    off + 20 + (intAt data (off + 16)).toNat ≤ data.length

instance (data : Bytes) (off : Nat) : Decidable (IsRead data off) :=
  inferInstanceAs (Decidable (_ ∧ _ ∧ _ ∧ _))

/-- The string of a parameter is read from its structure, or is empty. -/
theorem strValue_of_valueAt {data : Bytes} {off n : Nat} {p : PCFParam}
    (h : monitorFraming.next (data.drop off) = some n) (hp : valueAt data off = .ok p) :
    p.strValue =
      if IsRead data off then ((stringAt data off).raw data).rdropWhile trimmedBlank else [] := by
  obtain ⟨h16, hn, hle, hlen⟩ := monitorFraming_next.mp h
  unfold valueAt parseValue at hp
  split at hp
  · next htype =>
      obtain ⟨v, -, hp⟩ := Outcome.bind_eq_ok.mp hp
      obtain rfl := Outcome.ok.inj hp
      rw [if_neg]
      intro hread
      rw [hread.1] at htype
      exact absurd htype (by decide)
  · split at hp
    · next htype =>
        obtain ⟨s, hs, hp⟩ := Outcome.bind_eq_ok.mp hp
        obtain rfl := Outcome.ok.inj hp
        unfold parseStr at hs
        split at hs
        · next h20 =>
            rw [readInt_eq (by omega), Outcome.ok_bind] at hs
            split at hs
            · next hguard =>
                rw [slice_eq_ok (by omega), Outcome.ok_bind] at hs
                obtain rfl := Outcome.ok.inj hs
                rw [if_pos ⟨htype, h20, hguard.1, hguard.2⟩]
                rfl
            · next hguard =>
                obtain rfl := Outcome.ok.inj hs
                rw [if_neg fun hread => hguard ⟨hread.2.2.1, hread.2.2.2⟩]
        · next h20 =>
            obtain rfl := Outcome.ok.inj hs
            rw [if_neg fun hread => h20 hread.2.1]
    · next htype =>
        rw [if_neg fun hread => htype hread.1]
        split at hp
        · split at hp
          · obtain ⟨v, -, hp⟩ := Outcome.bind_eq_ok.mp hp
            obtain rfl := Outcome.ok.inj hp
            rfl
          · obtain rfl := Outcome.ok.inj hp
            rfl
        · obtain rfl := Outcome.ok.inj hp
          rfl

/-- Every string that `parse_pcf_params` decodes, at the top and in groups, consists of
bytes of its structure. -/
def StringsInside (data : Bytes) : Prop :=
  ∃ ps, parsePcfParams data = .ok ps ∧
    List.Forall₂ (fun off p => valueAt data off = .ok p ∧
      (stringAt data off).Inside data p.strValue) (places data 0) (flatten ps)

/-- Whatever of a string is read behind its structure are blanks. -/
def StringsFit (data : Bytes) : Prop :=
  ∀ off ∈ places data 0, IsRead data off → (stringAt data off).Fits data trimmedBlank

theorem inside_nil (r : Reading) (data : Bytes) : r.Inside data [] :=
  fun _ h => absurd h (Nat.not_lt_zero _)

/-- The string of one structure. -/
theorem strValue_inside_iff {data : Bytes} {off n : Nat} {p : PCFParam}
    (h : monitorFraming.next (data.drop off) = some n) (hp : valueAt data off = .ok p) :
    (stringAt data off).Inside data p.strValue ↔
      (IsRead data off → (stringAt data off).Fits data trimmedBlank) := by
  rw [strValue_of_valueAt h hp]
  split
  · next hread =>
      rw [Reading.inside_iff]
      exact ⟨fun hfits _ => hfits, fun hfits => hfits hread⟩
  · next hread =>
      exact iff_of_true (inside_nil _ _) fun hread' => absurd hread' hread

theorem stringsInside_parse_iff (data : Bytes) : StringsInside data ↔ StringsFit data := by
  obtain ⟨ps, hps, hdecoded⟩ := parsePcfParamsFrom_decoded data 0
  have hvalues := Outcome.forall₂_of_mapM hdecoded.values
  have hiff := forall₂_and_iff hvalues
    (Q := fun off p => (stringAt data off).Inside data p.strValue)
    (C := fun off => IsRead data off → (stringAt data off).Fits data trimmedBlank) (by
      intro off hoff p hp
      obtain ⟨n, hn⟩ := next_of_mem_places hoff
      exact strValue_inside_iff hn hp)
  unfold StringsInside StringsFit
  rw [← hiff]
  constructor
  · rintro ⟨ps', hps', hinside⟩
    obtain rfl := Outcome.ok.inj (hps.symm.trans hps')
    exact hinside
  · intro hinside
    exact ⟨ps, hps, hinside⟩

/-- The strings of both decoders consist of bytes of their structures if and only if what
is read behind the structures is trimmed off. -/
theorem stringsInside_iff (data : Bytes) (responses : List Bytes) :
    (StringsInside data ↔ StringsFit data) ∧
      (responses.foldlM discoverIn [] : Parse (List Bytes)) =
        .ok ((responses.flatMap fun resp => (readings resp).map (readName resp)).foldl
          addQueue []) ∧
      ((∀ resp ∈ responses, NamesInside resp) ↔ ∀ resp ∈ responses, NamesFit resp) :=
  ⟨stringsInside_parse_iff data, discoverResponses_eq responses,
    forall₂_congr fun resp _ => namesInside_iff resp⟩

/-- A string of 24 bytes that states eight characters, and another structure. -/
def overlongStream : Bytes :=
  encodeInt32 mqcftString ++ (encodeInt32 24 ++ (encodeInt32 Pcf.mqcaQName ++ (encodeInt32 0 ++
    (encodeInt32 8 ++ ([65, 66, 67, 68] ++ [69, 70, 71, 72])))))

/-- The string is read to the end of the stream. -/
theorem not_stringsInside :
    (¬ ∀ data, StringsInside data) ∧ ¬ ∀ resp, NamesInside resp := by
  constructor
  · intro h
    have hfit := (stringsInside_parse_iff overlongStream).mp (h overlongStream)
    have hnext : monitorFraming.next (overlongStream.drop 0) = some 24 := by decide +kernel
    have hmem : 0 ∈ places overlongStream 0 := by
      rw [places_of_some hnext, if_neg (by decide +kernel)]
      exact List.mem_cons_self
    exact absurd (hfit 0 hmem) (by decide +kernel)
  · intro h
    let resp := List.replicate 36 0 ++ overlongStream
    have hfit := (namesInside_iff resp).mp (h resp)
    have hnext : responseFraming.next (resp.drop 36) = some 24 := by decide +kernel
    have hmem : ∀ r ∈ readingsAt resp 36, r ∈ readings resp := by
      intro r hr
      unfold readings
      rw [if_pos (by decide +kernel), Framing.offsets_of_some hnext, List.flatMap_cons]
      exact List.mem_append_left _ hr
    exact absurd (fun r hr => hfit r (hmem r hr)) (by decide +kernel)

end IbmmqExporter.Monitor
