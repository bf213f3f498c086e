/-
  Pcf/Safety.lean --- on which bytes the PCF parser returns.

  WHAT THE FILE PROVES.  Whatever the bytes, `parse_message` reads only inside
  them and comes to an end: it returns or raises `std::length_error`.  It raises
  exactly when the walk, at some nesting depth, meets an `MQCFT_STRING_LIST` that
  states a count of at least one and a negative string length which, added to the
  offset of the first string, does not wrap around: the element loop then asks for
  a `std::string` of that length.
-/
import IbmmqExporter.Pcf.Statistics

set_option autoImplicit false

namespace IbmmqExporter.Pcf

open Foundation

/-! ## Contained outcomes -/

/-- The call ends, inside its bytes: it returns or raises `std::length_error`. -/
def Contained {α : Type} (x : Parse α) : Prop := x.Returns ∨ x = .raised .lengthError

theorem contained_ok {α : Type} (a : α) : Contained (.ok a : Parse α) :=
  .inl (Outcome.returns_ok a)

theorem Contained.bind {α β : Type} {x : Parse α} {f : α → Parse β} (hx : Contained x)
    (hf : ∀ a, x = .ok a → Contained (f a)) : Contained (x >>= f) := by
  rcases hx with ⟨a, rfl⟩ | rfl
  · exact hf a rfl
  · exact .inr rfl

theorem Contained.mapM {α β : Type} {f : α → Parse β} {l : List α}
    (hf : ∀ a ∈ l, Contained (f a)) : Contained (l.mapM f) := by
  induction l with
  | nil => exact contained_ok []
  | cons a l ih =>
      rw [List.mapM_cons]
      refine (hf a List.mem_cons_self).bind ?_
      intro b _
      refine (ih fun c hc => hf c (List.mem_cons_of_mem a hc)).bind ?_
      intro bs _
      exact contained_ok (b :: bs)

/-! ## One structure -/

/-- The structure at `off` makes the string-list loop ask for a string of negative
length. -/
def RefusedAt (block : Bytes) (off : Nat) : Prop :=
  int32At block off = mqcftStringList ∧ 24 ≤ intAt block (off + 4) ∧
    0 < intAt block (off + 16) ∧ intAt block (off + 20) < 0 ∧
    sizeAdd (off + 24) (intAt block (off + 20)) ≤ off + (intAt block (off + 4)).toNat

instance (block : Bytes) (off : Nat) : Decidable (RefusedAt block off) :=
  inferInstanceAs (Decidable (_ ∧ _ ∧ _ ∧ _ ∧ _))

theorem parseIntValues_returns {data : Bytes} {stop : Nat} (hstop : stop ≤ data.length)
    (paramType : Int32) (count off : Nat) :
    (parseIntValues data paramType stop count off).Returns := by
  induction count generalizing off with
  | zero => exact Outcome.returns_ok _
  | succ count ih =>
      rw [parseIntValues]
      split
      · split
        · rename_i hwide
          obtain ⟨values, hvalues⟩ := ih (off + 8)
          rw [readInt64_eq (by omega), hvalues]
          exact Outcome.returns_ok _
        · obtain ⟨values, hvalues⟩ := ih (off + 4)
          rw [readInt32_eq (by omega), hvalues]
          exact Outcome.returns_ok _
      · exact Outcome.returns_ok _

theorem parseStringValues_returns {data : Bytes} {strLen : Int} {stop : Nat}
    (hstop : stop ≤ data.length) (hlen : 0 ≤ strLen) (count off : Nat) :
    (parseStringValues data strLen stop count off).Returns := by
  induction count generalizing off with
  | zero => exact Outcome.returns_ok _
  | succ count ih =>
      rw [parseStringValues]
      split
      · rename_i hfits
        have hadd : sizeAdd off strLen = off + strLen.toNat := by
          rw [sizeAdd, if_pos (by omega)]
          omega
        obtain ⟨strings, hstrings⟩ := ih (sizeAdd off strLen)
        rw [if_neg (by omega), slice_eq_ok (by omega), Outcome.ok_bind, hstrings]
        exact Outcome.returns_ok _
      · exact Outcome.returns_ok _

/-- With a negative length the loop raises at the first string, unless there is none
to read or the sum wraps around. -/
theorem parseStringValues_negative {data : Bytes} {strLen : Int} {stop : Nat}
    (hlen : strLen < 0) (count off : Nat) :
    parseStringValues data strLen stop count off =
      if 0 < count ∧ sizeAdd off strLen ≤ stop then .raised .lengthError else .ok [] := by
  cases count with
  | zero => rfl
  | succ count =>
      rw [parseStringValues]
      split
      · rename_i hsum
        exact (if_pos ⟨Nat.succ_pos count, hsum⟩).symm
      · rename_i hsum
        exact (if_neg fun hcon => hsum hcon.2).symm

theorem parseStructure_stringList {data : Bytes} {off n : Nat}
    (h : parserFraming.next (data.drop off) = some n)
    (hlist : int32At data off = mqcftStringList) :
    (RefusedAt data off →
      parseStructure data off (int32At data off) n = .raised .lengthError) ∧
    (¬ RefusedAt data off → (parseStructure data off (int32At data off) n).Returns) := by
  obtain ⟨h8, hpos, hle, rfl⟩ := parserFraming_next.mp h
  rw [hlist, parseStructure, if_neg (by decide), if_neg (by decide), if_neg (by decide),
    if_neg (by decide), if_pos rfl]
  by_cases h24 : 24 ≤ intAt data (off + 4)
  · rw [if_pos (by omega), readInt32_eq (by omega), readInt_eq (by omega),
      readInt_eq (by omega)]
    simp only [Outcome.ok_bind]
    by_cases hneg : intAt data (off + 20) < 0
    · rw [parseStringValues_negative hneg]
      constructor
      · rintro ⟨_, _, hcount, _, hsum⟩
        rw [if_pos ⟨by omega, hsum⟩]
        rfl
      · intro hok
        rw [if_neg]
        · exact Outcome.returns_ok _
        · rintro ⟨hcount, hsum⟩
          exact hok ⟨hlist, h24, by omega, hneg, hsum⟩
    · constructor
      · rintro ⟨_, _, _, hbad, _⟩
        exact absurd hbad hneg
      · intro _
        have hstop : off + (intAt data (off + 4)).toNat ≤ data.length := by omega
        have hnonneg : 0 ≤ intAt data (off + 20) := by omega
        obtain ⟨strings, hstrings⟩ := parseStringValues_returns hstop hnonneg
          (intAt data (off + 16)).toNat (off + 24)
        rw [hstrings]
        exact Outcome.returns_ok _
  · constructor
    · rintro ⟨_, hbad, _⟩
      exact absurd hbad h24
    · intro _
      rw [if_neg (by omega)]
      exact Outcome.returns_ok _

theorem parseStructure_returns {data : Bytes} {off n : Nat}
    (h : parserFraming.next (data.drop off) = some n)
    (hlist : int32At data off ≠ mqcftStringList) :
    (parseStructure data off (int32At data off) n).Returns := by
  obtain ⟨h8, hpos, hle, rfl⟩ := parserFraming_next.mp h
  unfold parseStructure
  split
  · split
    · rw [readInt32_eq (by omega), readInt32_eq (by omega)]
      exact Outcome.returns_ok _
    · exact Outcome.returns_ok _
  · split
    · split
      · rw [readInt32_eq (by omega), readInt64_eq (by omega)]
        exact Outcome.returns_ok _
      · exact Outcome.returns_ok _
    · split
      · split
        · rw [readInt32_eq (by omega), readInt_eq (by omega)]
          simp only [Outcome.ok_bind]
          split
          · rw [slice_eq_ok (by omega)]
            exact Outcome.returns_ok _
          · exact Outcome.returns_ok _
        · exact Outcome.returns_ok _
      · split
        · split
          · have hstop : off + (intAt data (off + 4)).toNat ≤ data.length := by omega
            obtain ⟨values, hvalues⟩ := parseIntValues_returns hstop
              (int32At data off) (intAt data (off + 12)).toNat (off + 16)
            rw [readInt32_eq (by omega), readInt_eq (by omega)]
            simp only [Outcome.ok_bind, hvalues]
            exact Outcome.returns_ok _
          · exact Outcome.returns_ok _
        · split
          · rw [readInt32_eq (by omega)]
            exact Outcome.returns_ok _
          · exact Outcome.returns_ok _

/-! ## The walk at every depth -/

/-- The walk over the bytes `data`, or over the body of a group in them at any depth,
finds a structure at `off` of the bytes `block`. -/
inductive Visits : Bytes → Bytes → Nat → Prop where
  | here {data : Bytes} {off : Nat} (h : off ∈ parserFraming.offsets data 0) :
      Visits data data off
  | inGroup {data block : Bytes} {off inner : Nat}
      (h : off ∈ parserFraming.offsets data 0)
      (hgroup : int32At data off = mqcftGroup) (hlong : 16 ≤ intAt data (off + 4))
      (hinner : Visits (groupBody data off (intAt data (off + 4)).toNat) block inner) :
      Visits data block inner

theorem length_groupBody_lt {data : Bytes} {off n : Nat}
    (h : parserFraming.next (data.drop off) = some n) :
    (groupBody data off n).length < data.length := by
  have hb := Framing.next_bounds h
  simp only [groupBody, List.length_take, List.length_drop]
  omega

/-- The walk over `data` finds nothing that is refused, at any depth. -/
def Accepted (data : Bytes) : Prop :=
  ∀ block off, Visits data block off → ¬ RefusedAt block off

/-- A structure is decoded when it is not refused and, if it is a group, nothing in
its body is. -/
def AcceptedAt (data : Bytes) (off : Nat) : Prop :=
  ¬ RefusedAt data off ∧
    (int32At data off = mqcftGroup → 16 ≤ intAt data (off + 4) →
      Accepted (groupBody data off (intAt data (off + 4)).toNat))

theorem accepted_iff {data : Bytes} :
    Accepted data ↔ ∀ off ∈ parserFraming.offsets data 0, AcceptedAt data off := by
  constructor
  · intro hall off hoff
    refine ⟨hall data off (.here hoff), ?_⟩
    intro hgroup hlong block inner hinner
    exact hall block inner (.inGroup hoff hgroup hlong hinner)
  · intro hat block off hvisit
    cases hvisit with
    | here hoff => exact (hat off hoff).1
    | inGroup hoff hgroup hlong hinner =>
        exact (hat _ hoff).2 hgroup hlong block off hinner

/-- The parser ends inside its bytes, and returns exactly on accepted ones. -/
def Decides (data : Bytes) : Prop :=
  Contained (parseParameters data) ∧ ((parseParameters data).Returns ↔ Accepted data)

/-- One turn of the loop, for a parser that decides the bodies of groups. -/
theorem parseAt_outcome {data : Bytes} {off n : Nat}
    (h : parserFraming.next (data.drop off) = some n)
    (hbody : Decides (groupBody data off n)) :
    Contained (parseAt data off) ∧
      ((parseAt data off).Returns ↔ AcceptedAt data off) := by
  have hnat : (intAt data (off + 4)).toNat = n := (parserFraming_next.mp h).2.2.2
  unfold parseAt AcceptedAt
  rw [hnat]
  split
  · rename_i hgroup
    have hok : ¬ RefusedAt data off := by
      rintro ⟨hlist, _⟩
      rw [hgroup] at hlist
      exact absurd hlist (by decide)
    split
    · rename_i hlong
      obtain ⟨hcont, hret⟩ := hbody
      refine ⟨hcont.bind fun _ _ => contained_ok _, ?_⟩
      rw [Outcome.returns_bind]
      constructor
      · rintro ⟨nested, hnested, _⟩
        exact ⟨hok, fun _ _ => hret.mp ⟨nested, hnested⟩⟩
      · rintro ⟨_, hall⟩
        obtain ⟨nested, hnested⟩ := hret.mpr (hall hgroup hlong)
        exact ⟨nested, hnested, Outcome.returns_ok _⟩
    · rename_i hshort
      exact ⟨contained_ok _, fun _ => ⟨hok, fun _ hlong => absurd hlong hshort⟩,
        fun _ => Outcome.returns_ok _⟩
  · rename_i hgroup
    by_cases hlist : int32At data off = mqcftStringList
    · obtain ⟨hbad, hgood⟩ := parseStructure_stringList h hlist
      by_cases hrefused : RefusedAt data off
      · rw [hbad hrefused]
        refine ⟨.inr rfl, ?_⟩
        constructor
        · intro hret
          exact absurd hret (Outcome.not_returns_raised _)
        · rintro ⟨hok, _⟩
          exact absurd hrefused hok
      · exact ⟨.inl (hgood hrefused),
          fun _ => ⟨hrefused, fun hcon => absurd hcon hgroup⟩, fun _ => hgood hrefused⟩
    · have hret := parseStructure_returns h hlist
      exact ⟨.inl hret,
        fun _ => ⟨fun hbad => hlist hbad.1, fun hcon => absurd hcon hgroup⟩,
        fun _ => hret⟩

/-- Whatever the bytes, the parser ends inside them; it returns when nothing that the
walk visits is refused, and only then. -/
theorem parseParameters_decides (data : Bytes) : Decides data := by
  induction hk : data.length using Nat.strongRecOn generalizing data with
  | ind k ih =>
      have hat : ∀ off ∈ parserFraming.offsets data 0,
          Contained (parseAt data off) ∧
            ((parseAt data off).Returns ↔ AcceptedAt data off) := by
        intro off hoff
        obtain ⟨n, hn⟩ := Framing.next_of_mem_offsets hoff
        have hlt := length_groupBody_lt hn
        exact parseAt_outcome hn (ih _ (hk ▸ hlt) (groupBody data off n) rfl)
      unfold Decides
      rw [parseParameters_eq_mapM, Outcome.returns_mapM, accepted_iff]
      refine ⟨Contained.mapM fun off hoff => (hat off hoff).1, ?_⟩
      constructor
      · intro hret off hoff
        exact (hat off hoff).2.mp (hret off hoff)
      · intro hacc off hoff
        exact (hat off hoff).2.mpr (hacc off hoff)

/-! ## Messages -/

/-- A message that is too short to have a header, or whose parameters are accepted. -/
def AcceptedMessage (data : Bytes) : Prop :=
  data.length < 36 ∨ Accepted (data.drop 36)

theorem parseHeader_returns {data : Bytes} (h : 36 ≤ data.length) :
    (parseHeader data).Returns := by
  unfold parseHeader
  rw [if_neg (by omega)]
  simp only [readInt32_eq (show 0 + 4 ≤ data.length by omega),
    readInt32_eq (show 4 + 4 ≤ data.length by omega),
    readInt32_eq (show 8 + 4 ≤ data.length by omega),
    readInt32_eq (show 12 + 4 ≤ data.length by omega),
    readInt32_eq (show 16 + 4 ≤ data.length by omega),
    readInt32_eq (show 20 + 4 ≤ data.length by omega),
    readInt32_eq (show 24 + 4 ≤ data.length by omega),
    readInt32_eq (show 28 + 4 ≤ data.length by omega),
    readInt32_eq (show 32 + 4 ≤ data.length by omega), Outcome.ok_bind]
  exact Outcome.returns_ok _

/-- The message parser ends inside the message, and returns exactly on accepted
ones. -/
theorem parseMessage_decides (data : Bytes) (msgType : String) :
    Contained (parseMessage data msgType) ∧
      ((parseMessage data msgType).Returns ↔ AcceptedMessage data) := by
  unfold parseMessage AcceptedMessage
  by_cases h36 : data.length < 36
  · rw [if_pos h36]
    exact ⟨contained_ok _, fun _ => .inl h36, fun _ => Outcome.returns_ok _⟩
  · rw [if_neg h36]
    obtain ⟨hdr, hhdr⟩ := parseHeader_returns (show 36 ≤ data.length by omega)
    obtain ⟨hcont, hret⟩ := parseParameters_decides (data.drop 36)
    rw [hhdr, Outcome.ok_bind]
    refine ⟨hcont.bind fun _ _ => contained_ok _, ?_⟩
    rw [Outcome.returns_bind]
    constructor
    · rintro ⟨params, hparams, _⟩
      exact .inr (hret.mp ⟨params, hparams⟩)
    · rintro (hshort | hacc)
      · exact absurd hshort h36
      · obtain ⟨params, hparams⟩ := hret.mpr hacc
        exact ⟨params, hparams, Outcome.returns_ok _⟩

end IbmmqExporter.Pcf
