/-
  Mq/DiscoveredNames.lean --- which queues `MQClient::discover_queues` finds.

  A queue name comes in a structure of its own or in a list of names of one width, beside
  other structures, in one of many responses; and some of the responses report an error.
  The function leaves a name out where it finds it in a structure, and in a list it only
  takes the names that it does not leave out.

  WHAT THE FILE PROVES.  The queues are the trimmed names of the successful responses that
  are not left out, each once, in the order in which they first occur
  (`discoverQueues_names`).  A name in a structure shorter than 24 bytes is not seen.
-/
import IbmmqExporter.Mq.Names
import IbmmqExporter.Pcf.Structures

set_option autoImplicit false

namespace IbmmqExporter.Mq

open Foundation Pcf

/-! ## Responses -/

/-- A structure of a response. -/
inductive NameStructure where
  /-- a queue name, with the bytes behind it up to `StrucLength` -/
  | string (ccsid : Int32) (text fill : Bytes)
  /-- queue names of one width -/
  | list (ccsid : Int32) (width : Nat) (texts : List Bytes)
      (hwidth : ∀ text ∈ texts, text.length = width) (fill : Bytes)
  /-- any other structure -/
  | other (s : PcfStructure)
      (h : ¬ (s.id = Pcf.mqcaQName ∧ (s.type = mqcftString ∨ s.type = mqcftStringList)))

namespace NameStructure

/-- The structure in the response. -/
def pcfStructure : NameStructure → PcfStructure
  | string ccsid text fill => .string Pcf.mqcaQName ccsid text fill
  | list ccsid width texts _ fill => .stringList Pcf.mqcaQName ccsid width texts fill
  | other s _ => s

/-- The names in it, as they stand there. -/
def names : NameStructure → List Bytes
  | string _ text _ => [text]
  | list _ _ texts _ _ => texts
  | other _ _ => []

/-- `StrucLength` can state the length. -/
def WellFormed (s : NameStructure) : Prop := s.pcfStructure.encode.length < 2 ^ 31

instance (s : NameStructure) : Decidable s.WellFormed := inferInstanceAs (Decidable (_ < _))

/-- A name in a structure of its own is in one of 24 bytes at least. -/
def Wide : NameStructure → Prop
  | string _ text fill => text = [] ∨ 4 ≤ text.length + fill.length
  | list _ _ _ _ _ => True
  | other _ _ => True

instance : (s : NameStructure) → Decidable s.Wide
  | string _ _ _ => inferInstanceAs (Decidable (_ ∨ _))
  | list _ _ _ _ _ => isTrue trivial
  | other _ _ => isTrue trivial

end NameStructure

/-- A response: an error, or structures behind a header with CompCode zero. -/
inductive NameResponse where
  | error (bytes : Bytes) (h : bytes.length < 36 ∨ uint32At bytes 24 ≠ 0)
  | success (hdr : PCFHeader) (hcode : hdr.compCode = 0) (ss : List NameStructure)

namespace NameResponse

/-- The bytes of the response. -/
def bytes : NameResponse → Bytes
  | error bytes _ => bytes
  | success hdr _ ss => encodeResponse hdr (ss.map NameStructure.pcfStructure)

/-- Its structures. -/
def structures : NameResponse → List NameStructure
  | error _ _ => []
  | success _ _ ss => ss

/-- The names in it. -/
def names (resp : NameResponse) : List Bytes := resp.structures.flatMap NameStructure.names

end NameResponse

/-! ## Which names are found -/

/-- A name that is not left out. -/
def Listed (qname : Bytes) : Prop :=
  qname ≠ [] ∧ ¬ ascii "AMQ." <+: qname ∧ ¬ ascii "EXPORTER." <+: qname ∧
    ¬ ascii "MANAGED.NDURABLE" <:+: qname ∧ ¬ ascii "MODEL" <:+: qname

instance (qname : Bytes) : Decidable (Listed qname) := inferInstanceAs (Decidable (_ ∧ _))

/-- The trimmed names that are not left out. -/
def listedNames (names : List Bytes) : List Bytes :=
  (names.map trimPadding).filter fun qname => decide (Listed qname)

/-- Each of them where it first occurs. -/
def foundQueues (names : List Bytes) : List Bytes := (listedNames names).eraseDups

theorem listedNames_append (names names' : List Bytes) :
    listedNames (names ++ names') = listedNames names ++ listedNames names' := by
  rw [listedNames, List.map_append, List.filter_append]
  rfl

/-- Empty names are left out. -/
theorem listedNames_of_empty {names : List Bytes} (h : ∀ name ∈ names, name = []) :
    listedNames names = [] := by
  unfold listedNames
  rw [List.filter_eq_nil_iff]
  rintro qname hmem hlisted
  obtain ⟨name, hname, rfl⟩ := List.mem_map.mp hmem
  rw [h name hname] at hlisted
  exact (of_decide_eq_true hlisted).1 rfl

theorem contains_iff (text s : Bytes) : contains text s = true ↔ text <:+: s := by
  induction s with
  | nil => simp [contains]
  | cons c s ih =>
      rw [contains, Bool.or_eq_true, List.isPrefixOf_iff_prefix, ih, List.infix_cons_iff]

theorem take_beq_iff {s text : Bytes} {n : Nat} (hn : text.length = n) :
    (s.take n == text) = true ↔ text <+: s := by
  rw [beq_iff_eq, List.prefix_iff_eq_take, hn, eq_comm]

/-- The function leaves out the names that are not listed. -/
theorem listed_iff (qname : Bytes) : Listed qname ↔ qname ≠ [] ∧ isSkipped qname = false := by
  unfold Listed isSkipped
  rw [← Bool.not_eq_true, Bool.or_eq_true, Bool.or_eq_true, Bool.or_eq_true,
    take_beq_iff (by decide), take_beq_iff (by decide), contains_iff, contains_iff]
  simp only [not_or, and_assoc]

/-- An element at the end is kept if it has not occurred before. -/
theorem eraseDups_concat (qnames : List Bytes) (qname : Bytes) :
    (qnames ++ [qname]).eraseDups =
      if qname ∈ qnames then qnames.eraseDups else qnames.eraseDups ++ [qname] := by
  rw [List.eraseDups_append, List.removeAll, List.filter_singleton]
  split
  · next hold => simp [hold]
  · next hnew => simp [hnew, List.eraseDups_cons]

/-- Adding names one by one gives those that are listed, each where it first occurs. -/
theorem foldl_addQueue (names : List Bytes) :
    names.foldl addQueue [] = (names.filter fun qname => decide (Listed qname)).eraseDups := by
  induction names using List.reverseRecOn with
  | nil => rfl
  | append_singleton names qname ih =>
      rw [List.foldl_concat, ih, addQueue, List.filter_append, List.filter_singleton]
      simp only [List.mem_eraseDups]
      by_cases hlisted : Listed qname
      · obtain ⟨hne, hskipped⟩ := (listed_iff qname).mp hlisted
        rw [decide_eq_true hlisted, cond_true, eraseDups_concat, hskipped]
        simp only [hne, Bool.false_eq_true, false_or]
      · have hleft : qname = [] ∨ isSkipped qname = true := by
          by_contra hkept
          rw [not_or, Bool.not_eq_true] at hkept
          exact hlisted ((listed_iff qname).mpr hkept)
        rw [decide_eq_false hlisted, cond_false, List.append_nil]
        exact if_pos (hleft.imp_right .inl)

/-! ## What is read of a structure -/

section Readings

variable {resp post : Bytes} {offset : Nat}

/-- The names of a list that stand in a row. -/
theorem listReadings_peel {width : Nat} {texts : List Bytes}
    (hwidth : ∀ text ∈ texts, text.length = width) {pos : Nat} (hle : offset ≤ pos)
    (hpos : 0 < width) (h : resp.drop pos = texts.flatten ++ post) :
    (listReadings resp offset width texts.length pos hle).map (Reading.raw · resp) = texts := by
  induction texts generalizing pos with
  | nil => rfl
  | cons text texts ih =>
      have hlen : text.length = width := hwidth text List.mem_cons_self
      rw [List.flatten_cons, List.append_assoc] at h
      have hfits := le_length_peel h (by omega)
      have hrest := drop_peel h
      rw [hlen] at hrest hfits
      rw [List.length_cons, listReadings, if_neg (by omega), List.map_cons,
        ih (fun t ht => hwidth t (List.mem_cons_of_mem text ht)) _ hrest, Reading.raw, h, ← hlen,
        List.take_left]

/-- A name in a structure of its own. -/
theorem readingsAt_string {ccsid : Int32} {text fill : Bytes}
    (w : Words resp offset mqcftString Pcf.mqcaQName
      (encodeInt32 ccsid ++ (encodeInt32 (Int32.ofNat text.length) ++ (text ++ fill))) post)
    (hne : text ≠ []) (hwide : 4 ≤ text.length + fill.length) :
    (readingsAt resp offset).map (Reading.raw · resp) = [text] := by
  have hbody := w.body_at
  have hfits := w.fits
  have hshort := w.short
  have hlength := w.length_word
  simp only [List.length_append, length_encodeInt32] at hfits hshort hlength
  simp only [List.append_assoc] at hbody
  have h16 := drop_peel_int32 hbody
  have h20 : resp.drop (offset + 20) = text ++ (fill ++ post) := drop_peel_int32 h16
  have hstated : (uint32At resp (offset + 16)).toNat = text.length := by
    rw [uint32At_peel h16]
    exact toNat_toUInt32_ofNat (by omega)
  have hpos : 0 < text.length := List.length_pos_iff.mpr hne
  have htype : uint32At resp offset = 4 := w.type_word
  have hid : uint32At resp (offset + 8) = 2016 := w.id_word
  have h24 : 24 ≤ uint32At resp (offset + 4) := by
    rw [UInt32.le_iff_toNat_le, hlength]
    have h24' : (24 : UInt32).toNat = 24 := rfl
    omega
  have hsome : 0 < uint32At resp (offset + 16) := by
    rw [UInt32.lt_iff_toNat_lt, hstated]
    exact hpos
  unfold readingsAt stringReadings
  dsimp only
  rw [if_pos ⟨htype, h24⟩, if_pos ⟨hid, hsome, by omega⟩, List.map_singleton, hstated]
  show [(resp.drop (offset + 20)).take text.length] = [text]
  rw [h20, List.take_left]

/-- The bytes of names of one width. -/
theorem length_flatten_of_width {width : Nat} {texts : List Bytes}
    (hwidth : ∀ text ∈ texts, text.length = width) :
    texts.flatten.length = texts.length * width := by
  induction texts with
  | nil => simp
  | cons text texts ih =>
      rw [List.flatten_cons, List.length_append, hwidth text List.mem_cons_self,
        ih fun t ht => hwidth t (List.mem_cons_of_mem text ht), List.length_cons,
        Nat.succ_mul, Nat.add_comm]

/-- The names of a list. -/
theorem readingsAt_list {ccsid : Int32} {width : Nat} {texts : List Bytes} {fill : Bytes}
    (hwidth : ∀ text ∈ texts, text.length = width) (hpos : 0 < width) (hne : texts ≠ [])
    (w : Words resp offset mqcftStringList Pcf.mqcaQName
      (encodeInt32 ccsid ++ (encodeInt32 (Int32.ofNat texts.length) ++
        (encodeInt32 (Int32.ofNat width) ++ (texts.flatten ++ fill)))) post) :
    (readingsAt resp offset).map (Reading.raw · resp) = texts := by
  have hbody := w.body_at
  have hfits := w.fits
  have hshort := w.short
  have hlength := w.length_word
  have hflatten := length_flatten_of_width hwidth
  have hsome : 0 < texts.length := List.length_pos_iff.mpr hne
  have hcount : texts.length ≤ texts.length * width := Nat.le_mul_of_pos_right _ hpos
  have hroom : width ≤ texts.length * width := Nat.le_mul_of_pos_left _ hsome
  simp only [List.length_append, length_encodeInt32] at hfits hshort hlength
  simp only [List.append_assoc] at hbody
  have h16 := drop_peel_int32 hbody
  have h20 := drop_peel_int32 h16
  have h24 : resp.drop (offset + 24) = texts.flatten ++ (fill ++ post) := drop_peel_int32 h20
  have hnumber : (uint32At resp (offset + 16)).toNat = texts.length := by
    rw [uint32At_peel h16]
    exact toNat_toUInt32_ofNat (by omega)
  have hstated : (uint32At resp (offset + 20)).toNat = width := by
    rw [uint32At_peel h20]
    exact toNat_toUInt32_ofNat (by omega)
  have htype : uint32At resp offset = 6 := w.type_word
  have hid : uint32At resp (offset + 8) = 2016 := w.id_word
  have hlong : 24 ≤ uint32At resp (offset + 4) := by
    rw [UInt32.le_iff_toNat_le, hlength]
    have h24' : (24 : UInt32).toNat = 24 := rfl
    omega
  have hwide : 0 < uint32At resp (offset + 20) := by
    rw [UInt32.lt_iff_toNat_lt, hstated]
    exact hpos
  unfold readingsAt
  dsimp only
  rw [if_neg fun hstring => absurd (hstring.1.symm.trans htype) (by decide),
    if_pos ⟨htype, hlong⟩, if_pos ⟨hid, hwide⟩]
  simp only [hnumber, hstated]
  exact listReadings_peel hwidth _ hpos h24

/-- Nothing is read of a string of length zero. -/
theorem readingsAt_emptyString (htype : uint32At resp offset = 4)
    (hempty : uint32At resp (offset + 16) = 0) : readingsAt resp offset = [] := by
  unfold readingsAt stringReadings
  dsimp only
  rw [htype, hempty]
  simp

/-- Nothing is read of a list without strings, or with strings of length zero. -/
theorem readingsAt_emptyList (htype : uint32At resp offset = 6)
    (hempty : uint32At resp (offset + 16) = 0 ∨ uint32At resp (offset + 20) = 0) :
    readingsAt resp offset = [] := by
  unfold readingsAt
  dsimp only
  rw [htype]
  rcases hempty with hcount | hwidth
  · rw [hcount]
    simp [listReadings]
  · rw [hwidth]
    simp

/-- Nothing is read of any other structure. -/
theorem readingsAt_other
    (h : ¬ (uint32At resp (offset + 8) = 2016 ∧
      (uint32At resp offset = 4 ∨ uint32At resp offset = 6))) : readingsAt resp offset = [] := by
  unfold readingsAt stringReadings
  dsimp only
  split
  · next hstring => exact if_neg fun hname => h ⟨hname.1, .inl hstring.1⟩
  · split
    · next hlist => exact if_neg fun hname => h ⟨hname.1, .inr hlist.1⟩
    · rfl

/-- Of a structure of the response its names are read, as far as they are listed. -/
theorem listedNames_readingsAt {s : NameStructure}
    (h : Framing.RecordAt PcfStructure.encode resp offset s.pcfStructure) (hlen : s.WellFormed)
    (hwide : s.Wide) :
    listedNames ((readingsAt resp offset).map (Reading.raw · resp)) = listedNames s.names := by
  obtain ⟨post, w⟩ := words_of_recordAt h hlen
  cases s with
  | string ccsid text fill =>
      rcases eq_or_ne text [] with rfl | hne
      · have hbody : resp.drop (offset + 12) =
            encodeInt32 ccsid ++ (encodeInt32 (Int32.ofNat 0) ++ (fill ++ post)) := by
          simpa [NameStructure.pcfStructure, PcfStructure.string] using w.body_at
        rw [readingsAt_emptyString w.type_word (uint32At_peel (drop_peel_int32 hbody))]
        exact (listedNames_of_empty (by simp [NameStructure.names])).symm
      · rw [readingsAt_string w hne (hwide.resolve_left hne)]
        rfl
  | list ccsid width texts hwidth fill =>
      have hbody : resp.drop (offset + 12) = encodeInt32 ccsid ++
          (encodeInt32 (Int32.ofNat texts.length) ++ (encodeInt32 (Int32.ofNat width) ++
            (texts.flatten ++ (fill ++ post)))) := by
        simpa [NameStructure.pcfStructure, PcfStructure.stringList] using w.body_at
      have h16 := drop_peel_int32 hbody
      rcases eq_or_ne texts [] with rfl | hne
      · rw [readingsAt_emptyList w.type_word (.inl (uint32At_peel h16))]
        rfl
      · rcases Nat.eq_zero_or_pos width with rfl | hpos
        · have hempty : ∀ name ∈ texts, name = [] := fun name hname =>
            List.length_eq_zero_iff.mp (hwidth name hname)
          rw [readingsAt_emptyList w.type_word
            (.inr (uint32At_peel (drop_peel_int32 h16)))]
          exact (listedNames_of_empty hempty).symm
        · rw [readingsAt_list hwidth hpos hne w]
          rfl
  | other s hother =>
      rw [readingsAt_other]
      · rfl
      · rw [w.id_word, w.type_word]
        rintro ⟨hid, htype⟩
        exact hother ⟨toUInt32_inj.mp hid, htype.imp toUInt32_inj.mp toUInt32_inj.mp⟩

/-- Of structures that the walk visits their names are read, as far as they are listed. -/
theorem listedNames_flatMap {offsets : List Nat} {ss : List NameStructure}
    (h : List.Forall₂ (Framing.RecordAt PcfStructure.encode resp) offsets
      (ss.map NameStructure.pcfStructure)) (hall : ∀ s ∈ ss, s.WellFormed ∧ s.Wide) :
    listedNames ((offsets.flatMap (readingsAt resp)).map (Reading.raw · resp)) =
      listedNames (ss.flatMap NameStructure.names) := by
  rw [List.forall₂_map_right_iff] at h
  induction h with
  | nil => rfl
  | @cons offset s offsets ss hrecord _ ih =>
      obtain ⟨hformed, hwide⟩ := hall s List.mem_cons_self
      rw [List.flatMap_cons, List.flatMap_cons, List.map_append, listedNames_append,
        listedNames_append, listedNames_readingsAt hrecord hformed hwide,
        ih fun t ht => hall t (List.mem_cons_of_mem s ht)]

end Readings

/-! ## Responses -/

namespace NameResponse

/-- Every structure of the response is well formed. -/
def WellFormed (resp : NameResponse) : Prop := ∀ s ∈ resp.structures, s.WellFormed

instance (resp : NameResponse) : Decidable resp.WellFormed :=
  List.decidableBAll NameStructure.WellFormed _

/-- Every name in a structure of its own is in one of 24 bytes at least. -/
def Wide (resp : NameResponse) : Prop := ∀ s ∈ resp.structures, s.Wide

instance (resp : NameResponse) : Decidable resp.Wide := List.decidableBAll NameStructure.Wide _

/-- Of a response its names are read, as far as they are listed. -/
theorem listedNames_readings {resp : NameResponse} (hformed : resp.WellFormed)
    (hwide : resp.Wide) :
    listedNames ((readings resp.bytes).map (Reading.raw · resp.bytes)) =
      listedNames resp.names := by
  cases resp with
  | error bytes herror =>
      have hnone : readings bytes = [] := by
        refine if_neg ?_
        rintro ⟨h36, hcode⟩
        rcases herror with hshort | hfailed
        · omega
        · exact hfailed hcode
      show listedNames ((readings bytes).map (Reading.raw · bytes)) = _
      rw [hnone]
      rfl
  | success hdr hcode ss =>
      show listedNames ((readings (encodeResponse hdr _)).map (Reading.raw · _)) = _
      rw [readings, if_pos (response_accepted hcode)]
      exact listedNames_flatMap (offsets_structures (List.forall_mem_map.mpr hformed))
        fun s hs => ⟨hformed s hs, hwide s hs⟩

end NameResponse

/-- `discover_queues` returns the names of the responses that are listed, each once. -/
def DiscoversNames (responses : List NameResponse) : Prop :=
  (responses.map NameResponse.bytes).foldlM discoverIn [] =
      .ok (foundQueues (responses.flatMap NameResponse.names)) ∧
    ∀ pattern s s', sendPcfCommand (buildInquireQCmd pattern) s =
        (.ok (responses.map NameResponse.bytes), s') →
      discoverQueues pattern s = (.ok (foundQueues (responses.flatMap NameResponse.names)), s')

/-- The loop over the responses finds the names. -/
theorem discoverIn_names {responses : List NameResponse}
    (hformed : ∀ resp ∈ responses, resp.WellFormed) (hwide : ∀ resp ∈ responses, resp.Wide) :
    (responses.map NameResponse.bytes).foldlM discoverIn [] =
      .ok (foundQueues (responses.flatMap NameResponse.names)) := by
  rw [discoverResponses_eq, foldl_addQueue, foundQueues]
  congr 2
  induction responses with
  | nil => rfl
  | cons resp responses ih =>
      obtain ⟨hresp, hresponses⟩ := List.forall_mem_cons.mp hformed
      obtain ⟨hrespWide, hresponsesWide⟩ := List.forall_mem_cons.mp hwide
      have hhead := NameResponse.listedNames_readings hresp hrespWide
      rw [listedNames, List.map_map] at hhead
      rw [List.map_cons, List.flatMap_cons, List.filter_append, ih hresponses hresponsesWide,
        List.flatMap_cons, listedNames_append, ← hhead]
      rfl

/-- The other responses hold in one list what the first hold in structures of their own. -/
inductive OneList : List NameResponse → List NameResponse → Prop where
  | intro (before after : List NameResponse) (ss ss' : List NameStructure)
      {hdr hdr' : PCFHeader} (hcode : hdr.compCode = 0) (hcode' : hdr'.compCode = 0)
      {strings : List NameStructure} (ccsid : Int32) {width : Nat} {texts : List Bytes}
      (hwidth : ∀ text ∈ texts, text.length = width) (fill : Bytes)
      (hstrings : List.Forall₂ (fun s text => ∃ ccsid fill, s = NameStructure.string ccsid text fill)
        strings texts) :
      OneList (before ++ .success hdr hcode (ss ++ (strings ++ ss')) :: after)
        (before ++ .success hdr' hcode' (ss ++ .list ccsid width texts hwidth fill :: ss') :: after)

section OneList

variable {responses others : List NameResponse}

theorem names_strings {strings : List NameStructure} {texts : List Bytes}
    (h : List.Forall₂ (fun s text => ∃ ccsid fill, s = NameStructure.string ccsid text fill)
      strings texts) : strings.flatMap NameStructure.names = texts := by
  induction h with
  | nil => rfl
  | cons hs _ ih =>
      obtain ⟨ccsid, fill, rfl⟩ := hs
      rw [List.flatMap_cons, ih]
      rfl

/-- The names are the same, and so is their order. -/
theorem OneList.names_eq (h : OneList responses others) :
    others.flatMap NameResponse.names = responses.flatMap NameResponse.names := by
  obtain ⟨before, after, ss, ss', hcode, hcode', ccsid, hwidth, fill, hstrings⟩ := h
  simp only [List.flatMap_append, List.flatMap_cons, NameResponse.names,
    NameResponse.structures, names_strings hstrings, NameStructure.names]

theorem OneList.wide (h : OneList responses others) (hwide : ∀ resp ∈ responses, resp.Wide) :
    ∀ resp ∈ others, resp.Wide := by
  obtain ⟨before, after, ss, ss', hcode, hcode', ccsid, hwidth, fill, hstrings⟩ := h
  rw [List.forall_mem_append, List.forall_mem_cons] at hwide ⊢
  obtain ⟨hbefore, hresp, hafter⟩ := hwide
  refine ⟨hbefore, ?_, hafter⟩
  intro s hs
  rcases List.mem_append.mp hs with hs | hs
  · exact hresp s (List.mem_append_left _ hs)
  · rcases List.mem_cons.mp hs with rfl | hs
    · exact trivial
    · exact hresp s (List.mem_append_right _ (List.mem_append_right _ hs))

end OneList

/-- Of well-formed responses in which no name stands in a structure shorter than 24 bytes,
`discover_queues` returns the trimmed names that are listed, each once, in the order in
which they first occur; and names of one width may as well come in one list. -/
theorem discoverQueues_names {responses : List NameResponse}
    (hformed : ∀ resp ∈ responses, resp.WellFormed) (hwide : ∀ resp ∈ responses, resp.Wide) :
    DiscoversNames responses ∧
      ∀ others, OneList responses others → (∀ resp ∈ others, resp.WellFormed) →
        (others.map NameResponse.bytes).foldlM discoverIn [] =
          (responses.map NameResponse.bytes).foldlM discoverIn [] := by
  have hnames := discoverIn_names hformed hwide
  refine ⟨⟨hnames, ?_⟩, ?_⟩
  · intro pattern s s' hsend
    unfold discoverQueues
    rw [Effect.bind_of_ok hsend, hnames]
    rfl
  · intro others hlist hothers
    rw [discoverIn_names hothers (hlist.wide hwide), hlist.names_eq, hnames]

/-- Two names in structures of their own, behind an error. -/
def namesApart : List NameResponse :=
  [.error [] (by decide), .success (responseHeader 13 2) rfl
    [.string 0 (ascii "Q1  ") [], .string 0 (ascii "Q2  ") []]]

/-- The same names in one list. -/
def namesTogether : List NameResponse :=
  [.error [] (by decide), .success (responseHeader 13 1) rfl
    [.list 0 4 [ascii "Q1  ", ascii "Q2  "] (by decide) []]]

theorem oneList_together : OneList namesApart namesTogether :=
  .intro [.error [] (by decide)] [] [] [] rfl rfl 0 (by decide) []
    (.cons ⟨0, [], rfl⟩ (.cons ⟨0, [], rfl⟩ .nil))

theorem discoverQueues_names_two :
    DiscoversNames namesApart ∧
      (namesTogether.map NameResponse.bytes).foldlM discoverIn [] =
        (namesApart.map NameResponse.bytes).foldlM discoverIn [] :=
  let found := discoverQueues_names (by decide : ∀ resp ∈ namesApart, resp.WellFormed) (by decide)
  ⟨found.1, found.2 namesTogether oneList_together (by decide)⟩

/-- A name of one character in a structure of 21 bytes. -/
def shortName : List NameResponse :=
  [.success (responseHeader 13 1) rfl [.string 0 (ascii "A") []]]

theorem readings_shortName :
    readings (encodeResponse (responseHeader 13 1)
      [.string Pcf.mqcaQName 0 (ascii "A") []]) = [] := by
  rw [readings, if_pos (response_accepted rfl), Framing.offsets_of_some (n := 21) (by decide),
    Framing.offsets_of_none (by decide)]
  rfl

/-- It is not seen. -/
theorem not_discoversNames_short :
    ¬ ∀ responses : List NameResponse,
      (∀ resp ∈ responses, resp.WellFormed) → DiscoversNames responses := by
  intro hall
  obtain ⟨hloop, -⟩ := hall shortName (by decide)
  have hfound : foundQueues (shortName.flatMap NameResponse.names) = [ascii "A"] := by decide
  rw [discoverResponses_eq, hfound] at hloop
  have hnone : (shortName.map NameResponse.bytes).flatMap
      (fun resp => (readings resp).map (readName resp)) = [] := by
    show (readings (encodeResponse _ [.string Pcf.mqcaQName 0 (ascii "A") []])).map _ ++ [] = []
    rw [readings_shortName]
    rfl
  rw [hnone] at hloop
  cases hloop

end IbmmqExporter.Mq
