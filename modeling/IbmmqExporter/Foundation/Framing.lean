/-
  Foundation/Framing.lean --- streams of length-prefixed records.

  A record states its own length in its first bytes, and a stream is read by
  looking at those bytes, visiting the record and advancing by the length.  A
  `Framing` is the part of such a reader that decides how far to advance:
  `offsets` are the places it visits and `stop` the place where it gives up.

  WHAT THE FILE PROVIDES.  The visited offsets lie inside the buffer and
  increase; on a buffer that is a concatenation of records which all state their
  own length the reader visits exactly those records (`offsets_stream`) and stops
  at the end (`stop_stream`).  A reader that maps over the visited offsets
  therefore decodes a concatenation record by record (`mapM_stream`).
-/
import IbmmqExporter.Foundation.Bytes

set_option autoImplicit false

namespace IbmmqExporter.Foundation

/-- How a reader of a record stream finds the next record. -/
structure Framing where
  /-- the bytes that must be left before a record is looked at -/
  header : Nat
  /-- the length that the record at the front states -/
  claim : Bytes → Nat
  /-- shorter records end the walk -/
  least : Nat
  least_pos : 0 < least

namespace Framing

variable (F : Framing)

/-- The length of the record at the front, when there is one. -/
def next (rest : Bytes) : Option Nat :=
  if F.header ≤ rest.length ∧ F.least ≤ F.claim rest ∧ F.claim rest ≤ rest.length then
    some (F.claim rest)
  else none

variable {F}

theorem next_eq_some {rest : Bytes} {n : Nat} :
    F.next rest = some n ↔
      F.header ≤ rest.length ∧ F.least ≤ n ∧ n ≤ rest.length ∧ F.claim rest = n := by
  unfold next
  split
  · rename_i h
    constructor
    · intro hn
      have : F.claim rest = n := Option.some.inj hn
      subst this
      exact ⟨h.1, h.2.1, h.2.2, rfl⟩
    · rintro ⟨_, _, _, rfl⟩
      rfl
  · rename_i h
    constructor
    · intro hn
      cases hn
    · rintro ⟨h1, h2, h3, rfl⟩
      exact absurd ⟨h1, h2, h3⟩ h

/-- No record is found in an empty buffer. -/
@[simp] theorem next_nil : F.next [] = none := by
  have hpos := F.least_pos
  unfold next
  rw [if_neg]
  rintro ⟨_, hleast, hle⟩
  simp only [List.length_nil] at hle
  omega

/-- A record is never empty, and it ends inside the buffer. -/
theorem next_bounds {data : Bytes} {off n : Nat} (h : F.next (data.drop off) = some n) :
    0 < n ∧ off + n ≤ data.length ∧ off < data.length := by
  obtain ⟨_, hleast, hle, _⟩ := next_eq_some.mp h
  have hpos := F.least_pos
  simp only [List.length_drop] at hle
  omega

variable (F)

/-- The offsets at which the reader finds a record, from `off` on. -/
def offsets (data : Bytes) (off : Nat) : List Nat :=
  match _h : F.next (data.drop off) with
  | none => []
  | some n => off :: offsets data (off + n)
termination_by data.length - off
decreasing_by
  have := next_bounds _h
  omega

/-- The offset at which the reader gives up. -/
def stop (data : Bytes) (off : Nat) : Nat :=
  match _h : F.next (data.drop off) with
  | none => off
  | some n => stop data (off + n)
termination_by data.length - off
decreasing_by
  have := next_bounds _h
  omega

variable {F}

theorem offsets_of_none {data : Bytes} {off : Nat} (h : F.next (data.drop off) = none) :
    F.offsets data off = [] := by
  rw [offsets]
  split
  · rfl
  · rename_i hn
    rw [h] at hn
    cases hn

theorem offsets_of_some {data : Bytes} {off n : Nat}
    (h : F.next (data.drop off) = some n) :
    F.offsets data off = off :: F.offsets data (off + n) := by
  rw [offsets]
  split
  · rename_i hn
    rw [h] at hn
    cases hn
  · rename_i m hm
    rw [h] at hm
    cases hm
    rfl

theorem stop_of_none {data : Bytes} {off : Nat} (h : F.next (data.drop off) = none) :
    F.stop data off = off := by
  rw [stop]
  split
  · rfl
  · rename_i hn
    rw [h] at hn
    cases hn

theorem stop_of_some {data : Bytes} {off n : Nat}
    (h : F.next (data.drop off) = some n) :
    F.stop data off = F.stop data (off + n) := by
  rw [stop]
  split
  · rename_i hn
    rw [h] at hn
    cases hn
  · rename_i m hm
    rw [h] at hm
    cases hm
    rfl

/-- The walk, one record at a time: the rule for proofs about `offsets`. -/
theorem walk_induction (F : Framing) (data : Bytes) {P : Nat → Prop}
    (done : ∀ off, F.next (data.drop off) = none → P off)
    (step : ∀ off n, F.next (data.drop off) = some n → P (off + n) → P off)
    (off : Nat) : P off := by
  induction hk : data.length - off using Nat.strongRecOn generalizing off with
  | ind k ih =>
      cases h : F.next (data.drop off) with
      | none => exact done off h
      | some n =>
          have hb := next_bounds h
          exact step off n h (ih (data.length - (off + n)) (by omega) (off + n) rfl)

/-- Every visited offset is the start of a record that ends inside the buffer. -/
theorem next_of_mem_offsets {data : Bytes} {off x : Nat} (hx : x ∈ F.offsets data off) :
    ∃ n, F.next (data.drop x) = some n := by
  induction off using F.walk_induction data with
  | done off h =>
      rw [offsets_of_none h] at hx
      cases hx
  | step off n h ih =>
      rw [offsets_of_some h] at hx
      rcases List.mem_cons.mp hx with rfl | hx
      · exact ⟨n, h⟩
      · exact ih hx

/-- The walk does not go back. -/
theorem le_of_mem_offsets {data : Bytes} {off x : Nat} (hx : x ∈ F.offsets data off) :
    off ≤ x := by
  induction off using F.walk_induction data with
  | done off h =>
      rw [offsets_of_none h] at hx
      cases hx
  | step off n h ih =>
      rw [offsets_of_some h] at hx
      rcases List.mem_cons.mp hx with rfl | hx
      · exact Nat.le_refl x
      · exact Nat.le_of_add_right_le (ih hx)

theorem pairwise_offsets (data : Bytes) (off : Nat) : (F.offsets data off).Pairwise (· < ·) := by
  induction off using F.walk_induction data with
  | done off h =>
      rw [offsets_of_none h]
      exact .nil
  | step off n h ih =>
      rw [offsets_of_some h]
      refine .cons (fun x hx => ?_) ih
      have hle := le_of_mem_offsets hx
      have hpos := (next_bounds h).1
      omega

/-- What is counted at each record, and not more than its length, adds up to at most what
is left of the buffer. -/
theorem sum_offsets_le {data : Bytes} {f : Nat → Nat}
    (h : ∀ off n, F.next (data.drop off) = some n → f off ≤ n) (off : Nat) :
    ((F.offsets data off).map f).sum ≤ data.length - off := by
  induction off using F.walk_induction data with
  | done off hnone =>
      rw [offsets_of_none hnone]
      exact Nat.zero_le _
  | step off n hsome ih =>
      have hhead := h off n hsome
      have hb := next_bounds hsome
      rw [offsets_of_some hsome, List.map_cons, List.sum_cons]
      omega

/-- Two readers that find the same records in a buffer walk alike over it. -/
theorem offsets_congr {G : Framing} {data : Bytes}
    (h : ∀ off, F.next (data.drop off) = G.next (data.drop off)) (off : Nat) :
    F.offsets data off = G.offsets data off ∧ F.stop data off = G.stop data off := by
  induction off using F.walk_induction data with
  | done off hnone =>
      have hnone' : G.next (data.drop off) = none := by rw [← h, hnone]
      rw [offsets_of_none hnone, offsets_of_none hnone', stop_of_none hnone, stop_of_none hnone']
      exact ⟨rfl, rfl⟩
  | step off n hsome ih =>
      have hsome' : G.next (data.drop off) = some n := by rw [← h, hsome]
      rw [offsets_of_some hsome, offsets_of_some hsome', stop_of_some hsome, stop_of_some hsome',
        ih.1, ih.2]
      exact ⟨rfl, rfl⟩

/-! ## Walks in two parts -/

variable (F) in
/-- The offset behind the next `count` records, or behind the last one if there are
fewer. -/
def skip (data : Bytes) : Nat → Nat → Nat
  | 0, off => off
  | count + 1, off =>
      match F.next (data.drop off) with
      | none => off
      | some n => skip data count (off + n)

theorem skip_of_none {data : Bytes} {off : Nat} (h : F.next (data.drop off) = none)
    (count : Nat) : F.skip data count off = off := by
  cases count with
  | zero => rfl
  | succ count => rw [skip, h]

theorem skip_of_some {data : Bytes} {off n : Nat} (h : F.next (data.drop off) = some n)
    (count : Nat) : F.skip data (count + 1) off = F.skip data count (off + n) := by
  rw [skip, h]

theorem le_skip (data : Bytes) (count off : Nat) : off ≤ F.skip data count off := by
  induction count generalizing off with
  | zero => exact Nat.le_refl off
  | succ count ih =>
      cases h : F.next (data.drop off) with
      | none => exact (skip_of_none h _).ge
      | some n =>
          rw [skip_of_some h]
          exact Nat.le_of_add_right_le (ih (off + n))

/-- Behind some records the reader visits what is left of its offsets. -/
theorem offsets_skip (data : Bytes) (count off : Nat) :
    F.offsets data (F.skip data count off) = (F.offsets data off).drop count := by
  induction count generalizing off with
  | zero => rfl
  | succ count ih =>
      cases h : F.next (data.drop off) with
      | none => rw [skip_of_none h, offsets_of_none h, List.drop_nil]
      | some n => rw [skip_of_some h, ih, offsets_of_some h, List.drop_succ_cons]

/-! ## Streams of records that state their own length -/

section Stream

variable {α : Type} {enc : α → Bytes}

/-- `off` is the place of the record `item` in `data`. -/
def RecordAt (enc : α → Bytes) (data : Bytes) (off : Nat) (item : α) : Prop :=
  ∃ post, data.drop off = enc item ++ post

/-- A record is no longer than a concatenation it is part of. -/
theorem length_le_flatMap (enc : α → Bytes) {item : α} {items : List α} (h : item ∈ items) :
    (enc item).length ≤ (items.flatMap enc).length := by
  obtain ⟨before, after, rfl⟩ := List.append_of_mem h
  simp only [List.flatMap_append, List.flatMap_cons, List.length_append]
  omega

theorem next_stream {item : α} {items : List α}
    (hnext : ∀ post : Bytes, F.next (enc item ++ post) = some (enc item).length) (pre : Bytes) :
    F.next ((pre ++ (item :: items).flatMap enc).drop pre.length) = some (enc item).length := by
  rw [List.drop_left, List.flatMap_cons]
  exact hnext _

/-- The reader visits exactly the records of a concatenation, in order. -/
theorem offsets_stream (items : List α)
    (hnext : ∀ item ∈ items, ∀ post : Bytes,
      F.next (enc item ++ post) = some (enc item).length)
    (pre : Bytes) :
    List.Forall₂ (RecordAt enc (pre ++ items.flatMap enc))
      (F.offsets (pre ++ items.flatMap enc) pre.length) items := by
  induction items generalizing pre with
  | nil =>
      rw [offsets_of_none (by simp)]
      exact .nil
  | cons item items ih =>
      have hsplit : pre ++ (item :: items).flatMap enc =
          (pre ++ enc item) ++ items.flatMap enc := by simp
      rw [offsets_of_some (next_stream (hnext item List.mem_cons_self) pre)]
      refine .cons ⟨items.flatMap enc, by simp⟩ ?_
      have hlen : pre.length + (enc item).length = (pre ++ enc item).length := by simp
      rw [hsplit, hlen]
      exact ih (fun other hm => hnext other (List.mem_cons_of_mem item hm)) _

/-- On a concatenation of records the reader stops at the end. -/
theorem stop_stream (items : List α)
    (hnext : ∀ item ∈ items, ∀ post : Bytes,
      F.next (enc item ++ post) = some (enc item).length)
    (pre : Bytes) :
    F.stop (pre ++ items.flatMap enc) pre.length =
      (pre ++ items.flatMap enc).length := by
  induction items generalizing pre with
  | nil =>
      rw [stop_of_none (by simp)]
      simp
  | cons item items ih =>
      have hsplit : pre ++ (item :: items).flatMap enc =
          (pre ++ enc item) ++ items.flatMap enc := by simp
      have hlen : pre.length + (enc item).length = (pre ++ enc item).length := by simp
      rw [stop_of_some (next_stream (hnext item List.mem_cons_self) pre), hsplit, hlen]
      exact ih (fun other hm => hnext other (List.mem_cons_of_mem item hm)) _

end Stream

end Framing

/-! ## Relations along two lists -/

/-- A second relation holds along the lists wherever a condition on the first list says. -/
theorem forall₂_and_iff {α β : Type} {R : α → β → Prop} {Q : α → β → Prop} {C : α → Prop}
    {as : List α} {bs : List β} (h : List.Forall₂ R as bs)
    (hiff : ∀ a ∈ as, ∀ b, R a b → (Q a b ↔ C a)) :
    List.Forall₂ (fun a b => R a b ∧ Q a b) as bs ↔ ∀ a ∈ as, C a := by
  induction h with
  | nil => simp
  | @cons a b as bs hab _ ih =>
      rw [List.forall₂_cons, List.forall_mem_cons, ← hiff a List.mem_cons_self b hab,
        ih fun c hc => hiff c (List.mem_cons_of_mem a hc)]
      simp [hab]

/-- A relation along two lists, with a proof at hand for each element of the first. -/
theorem forall₂_pmap {α β γ : Type} {R : α → β → Prop} {S : γ → β → Prop}
    {P : α → Prop} {f : (a : α) → P a → γ} {as : List α} {bs : List β}
    (h : List.Forall₂ R as bs) (hP : ∀ a ∈ as, P a)
    (hS : ∀ a b (ha : P a), b ∈ bs → R a b → S (f a ha) b) :
    List.Forall₂ S (as.pmap f hP) bs := by
  induction h with
  | nil => exact .nil
  | cons hab _ ih =>
      rw [List.pmap_cons]
      refine .cons (hS _ _ _ List.mem_cons_self hab) (ih _ ?_)
      intro a b ha hb hab
      exact hS a b ha (List.mem_cons_of_mem _ hb) hab

/-! ## Decoding record by record -/

section Decode

variable {ε α β γ : Type}

/-- A decoder that succeeds at every place of a list yields the decoded list. -/
theorem mapM_eq_ok {R : α → β → Prop} {f : α → Outcome ε γ} {g : β → γ}
    {places : List α} {items : List β} (hR : List.Forall₂ R places items)
    (hf : ∀ place item, R place item → item ∈ items → f place = .ok (g item)) :
    places.mapM f = .ok (items.map g) := by
  induction hR with
  | nil => simp
  | cons h _ ih =>
      have hhead := hf _ _ h List.mem_cons_self
      have htail := ih fun place item hr hm => hf place item hr (List.mem_cons_of_mem _ hm)
      simp [hhead, htail]

/-- A loop that goes on at every place of a list folds over the decoded list. -/
theorem foldlM_eq_ok {σ : Type} {R : α → β → Prop} {f : σ → α → Outcome ε σ} {g : σ → β → σ}
    {places : List α} {items : List β} (hR : List.Forall₂ R places items)
    (hf : ∀ s place item, R place item → item ∈ items → f s place = .ok (g s item)) (s : σ) :
    places.foldlM f s = .ok (items.foldl g s) := by
  induction hR generalizing s with
  | nil => rfl
  | cons h _ ih =>
      rw [List.foldlM_cons, hf s _ _ h List.mem_cons_self, List.foldl_cons]
      exact ih (fun s place item hr hm => hf s place item hr (List.mem_cons_of_mem _ hm)) _

/-- A reader that maps over the visited offsets decodes a concatenation of
records record by record. -/
theorem Framing.mapM_stream {F : Framing} {enc : β → Bytes} {f : Nat → Outcome ε γ}
    {g : β → γ} {items : List β} (pre : Bytes)
    (hnext : ∀ item ∈ items, ∀ post : Bytes,
      F.next (enc item ++ post) = some (enc item).length)
    (hf : ∀ off item, RecordAt enc (pre ++ items.flatMap enc) off item → item ∈ items →
      f off = .ok (g item)) :
    (F.offsets (pre ++ items.flatMap enc) pre.length).mapM f = .ok (items.map g) :=
  mapM_eq_ok (offsets_stream items hnext pre) hf

end Decode

end IbmmqExporter.Foundation
