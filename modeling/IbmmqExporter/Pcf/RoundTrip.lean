/-
  Pcf/RoundTrip.lean --- decoding undoes encoding, for every tree of the PCF
  parameter grammar.

  The argument goes structure by structure.  `Words` collects what can be read of
  one encoded structure wherever it stands in a buffer; the element loops of the
  list structures are followed by induction on the list; a group is decoded by the
  same theorem on its members, which is the induction hypothesis of
  `PcfTree.induction`.  `Framing.mapM_stream` then puts the structures together.
-/
import IbmmqExporter.Pcf.Encode
import IbmmqExporter.Pcf.Statistics

set_option autoImplicit false

namespace IbmmqExporter.Pcf

open Foundation

/-! ## One structure in a buffer -/

/-- What can be read of the structure `encodeStructure type id body` that stands at
`off`, followed by `post`. -/
structure Words (data : Bytes) (off : Nat) (type id : Int32) (body post : Bytes) :
    Prop where
  type_eq : int32At data off = type
  length_eq : intAt data (off + 4) = 12 + body.length
  id_eq : int32At data (off + 8) = id
  fits : off + (12 + body.length) ≤ data.length
  short : 12 + body.length < 2 ^ 31
  body_at : data.drop (off + 12) = body ++ post

theorem words_of_drop {data body post : Bytes} {off : Nat} {type id : Int32}
    (h : data.drop off = encodeStructure type id body ++ post)
    (hlen : (encodeStructure type id body).length < 2 ^ 31) :
    Words data off type id body post := by
  have hfits := le_length_peel h (by simp)
  rw [length_encodeStructure] at hfits hlen
  simp only [encodeStructure, encodeHeader, List.append_assoc] at h
  have h4 := drop_peel_int32 h
  have h8 := drop_peel_int32 h4
  have h12 := drop_peel_int32 h8
  refine ⟨int32At_peel h, ?_, int32At_peel h8, hfits, hlen, h12⟩
  rw [intAt_peel h4, Int32.toInt_ofNat_of_lt (by omega)]
  push_cast
  rfl

theorem Words.toNat_length {data body post : Bytes} {off : Nat} {type id : Int32}
    (w : Words data off type id body post) :
    (intAt data (off + 4)).toNat = 12 + body.length := by
  rw [w.length_eq]
  omega

theorem Words.id_read {data body post : Bytes} {off : Nat} {type id : Int32}
    (w : Words data off type id body post) :
    (readInt32 data (off + 8) : Parse Int32) = .ok id := by
  have hfits := w.fits
  rw [readInt32_eq (by omega), w.id_eq]

/-- A structure that is not a group is left to `parseStructure`. -/
theorem Words.parseAt_eq {data body post : Bytes} {off : Nat} {type id : Int32}
    (w : Words data off type id body post) (htype : type ≠ mqcftGroup) :
    parseAt data off = parseStructure data off type (12 + body.length) := by
  rw [parseAt, w.type_eq, if_neg htype, w.toNat_length]

/-- The parser's walk finds an encoded structure and steps over it. -/
theorem next_encodeStructure {type id : Int32} {body post : Bytes}
    (hlen : 12 + body.length < 2 ^ 31) :
    parserFraming.next (encodeStructure type id body ++ post) =
      some (encodeStructure type id body).length := by
  have hclaim : parserFraming.claim (encodeStructure type id body ++ post) =
      12 + body.length := by
    have h : (encodeStructure type id body ++ post).drop 0 =
        encodeInt32 type ++ (encodeInt32 (Int32.ofNat (12 + body.length)) ++
          (encodeInt32 id ++ (body ++ post))) := by
      simp [encodeStructure, encodeHeader]
    have h4 := drop_peel_int32 h
    rw [Nat.zero_add] at h4
    simp only [parserFraming]
    rw [intAt_peel h4, Int32.toInt_ofNat_of_lt hlen]
    omega
  rw [Framing.next_eq_some]
  refine ⟨?_, ?_, ?_, ?_⟩
  · simp [parserFraming]
    omega
  · simp [parserFraming]
    omega
  · simp
  · rw [hclaim, length_encodeStructure]

/-! ## The element loops -/

theorem parseIntValues_encodeInt32 (vs : List Int32) {data post : Bytes}
    {off stop : Nat} (h : data.drop off = vs.flatMap encodeInt32 ++ post)
    (hstop : off + 4 * vs.length ≤ stop) :
    parseIntValues data mqcftIntegerList stop vs.length off =
      .ok (vs.map Int32.toInt64) := by
  induction vs generalizing off with
  | nil => rfl
  | cons v vs ih =>
      simp only [List.flatMap_cons, List.append_assoc] at h
      simp only [List.length_cons] at hstop ⊢
      have hread : (readInt32 data off : Parse Int32) = .ok v := readInt32_peel h
      have hrest := ih (drop_peel_int32 h) (by omega)
      have hwide : ¬ (mqcftIntegerList = mqcftInteger64List ∧ off + 8 ≤ stop) := by
        intro hw
        exact absurd hw.1 (by decide)
      rw [parseIntValues, if_pos (by omega), if_neg hwide, hread, Outcome.ok_bind, hrest]
      rfl

theorem parseIntValues_encodeInt64 (vs : List Int64) {data post : Bytes}
    {off stop : Nat} (h : data.drop off = vs.flatMap encodeInt64 ++ post)
    (hstop : off + 8 * vs.length ≤ stop) :
    parseIntValues data mqcftInteger64List stop vs.length off = .ok vs := by
  induction vs generalizing off with
  | nil => rfl
  | cons v vs ih =>
      simp only [List.flatMap_cons, List.append_assoc] at h
      simp only [List.length_cons] at hstop ⊢
      have hread : (readInt64 data off : Parse Int64) = .ok v := readInt64_peel h
      have hrest := ih (drop_peel_int64 h) (by omega)
      rw [parseIntValues, if_pos (by omega), if_pos ⟨rfl, by omega⟩, hread,
        Outcome.ok_bind, hrest]
      rfl

theorem sizeAdd_nat (a b : Nat) : sizeAdd a (b : Int) = a + b := by
  rw [sizeAdd, if_pos (by omega)]
  omega

theorem cleanString_field {width : Nat} (f : Field width) :
    cleanString f.bytes = f.text.bytes :=
  f.text.trimBlanks_untilNul_append f.isPadding

theorem parseStringValues_fields {width : Nat} (hw : 0 < width)
    (ss : List (Field width)) {data post : Bytes} {off stop : Nat}
    (h : data.drop off = ss.flatMap Field.bytes ++ post)
    (hstop : off + ss.length * width ≤ stop) :
    parseStringValues data (width : Int) stop ss.length off =
      .ok (ss.map fun f => f.text.bytes) := by
  induction ss generalizing off with
  | nil => rfl
  | cons f ss ih =>
      simp only [List.flatMap_cons, List.append_assoc] at h
      simp only [List.length_cons, Nat.add_mul, Nat.one_mul] at hstop ⊢
      have hread := slice_peel (ε := StdException) h (by simpa using hw)
      have hdrop := drop_peel h
      rw [Field.length_bytes] at hread hdrop
      have hrest := ih hdrop (by omega)
      have hneg : ¬ (width : Int) < 0 := by omega
      rw [parseStringValues, sizeAdd_nat, if_pos (by omega), if_neg hneg,
        Int.toNat_natCast, hread, Outcome.ok_bind, hrest]
      simp [cleanString_field]

/-! ## Every structure -/

theorem Scalar.encode_eq (s : Scalar) :
    ∃ type id body, s.encode = encodeStructure type id body := by
  cases s <;> exact ⟨_, _, _, rfl⟩

theorem PcfTree.encode_eq (t : PcfTree) :
    ∃ type id body, t.encode = encodeStructure type id body := by
  cases t with
  | scalar s => exact s.encode_eq
  | integerList id vs => exact ⟨_, _, _, rfl⟩
  | integer64List id vs => exact ⟨_, _, _, rfl⟩
  | stringList id ccsid width hw ss => exact ⟨_, _, _, rfl⟩
  | group id count members => exact ⟨_, _, _, rfl⟩

theorem next_encode (t : PcfTree) {post : Bytes} (hlen : t.encode.length < 2 ^ 31) :
    parserFraming.next (t.encode ++ post) = some t.encode.length := by
  obtain ⟨type, id, body, heq⟩ := t.encode_eq
  rw [heq] at hlen ⊢
  exact next_encodeStructure (by simpa using hlen)

theorem parseAt_scalar {data : Bytes} {off : Nat} {s : Scalar}
    (h : Framing.RecordAt Scalar.encode data off s)
    (hlen : s.encode.length < 2 ^ 31) :
    parseAt data off = .ok s.param := by
  obtain ⟨post, h⟩ := h
  cases s with
  | integer id v =>
      have w := words_of_drop h hlen
      have hvalue : (readInt32 data (off + 12) : Parse Int32) = .ok v :=
        readInt32_peel w.body_at
      rw [w.parseAt_eq (by decide), parseStructure,
        if_pos rfl, if_pos (by simp), w.id_read]
      simp [hvalue, Scalar.param]
  | integer64 id v =>
      have w := words_of_drop h hlen
      have hbody := w.body_at
      rw [List.append_assoc] at hbody
      have hvalue : (readInt64 data (off + 16) : Parse Int64) = .ok v.toInt64 :=
        readInt64_peel (drop_peel_int32 hbody)
      rw [w.parseAt_eq (by decide), parseStructure,
        if_neg (by decide), if_pos rfl, if_pos (by simp), w.id_read]
      simp [hvalue, Scalar.param]
  | string id ccsid s =>
      have w := words_of_drop h hlen
      have hfits := w.fits
      have hshort := w.short
      have hbody := w.body_at
      simp only [List.append_assoc] at hbody
      have h16 := drop_peel_int32 hbody
      have h20 := drop_peel_int32 h16
      simp only [List.length_append, length_encodeInt32] at hfits hshort
      have hcount : (readInt data (off + 16) : Parse Int) = .ok s.bytes.length := by
        rw [readInt_peel h16, Int32.toInt_ofNat_of_lt (by omega)]
      rw [w.parseAt_eq (by decide), parseStructure,
        if_neg (by decide), if_neg (by decide), if_pos rfl, if_pos (by simp; omega),
        w.id_read]
      simp only [Outcome.ok_bind, hcount]
      by_cases hnil : s.bytes = []
      · rw [if_neg (by simp [hnil])]
        simp [Scalar.param, hnil]
      · have hpos : 0 < s.bytes.length := List.length_pos_iff.mpr hnil
        have hread := slice_peel (ε := StdException) h20 hpos
        have hmin : min s.bytes.length (12 + (encodeInt32 ccsid ++
            (encodeInt32 (Int32.ofNat s.bytes.length) ++
              (s.bytes ++ filling s.bytes.length))).length - 20) = s.bytes.length := by
          simp only [List.length_append, length_encodeInt32]
          omega
        rw [if_pos ⟨by omega, by omega⟩, Int.toNat_natCast, hmin, hread]
        simp [Scalar.param, hnil, cleanString, s.trimBlanks_untilNul]

theorem parseAt_integerList {data : Bytes} {off : Nat} {id : Int32} {vs : List Int32}
    (h : Framing.RecordAt PcfTree.encode data off (.integerList id vs))
    (hlen : (PcfTree.integerList id vs).encode.length < 2 ^ 31) :
    parseAt data off = .ok (PcfTree.integerList id vs).param := by
  obtain ⟨post, h⟩ := h
  have w := words_of_drop h hlen
  have hfits := w.fits
  have hshort := w.short
  have hbody := w.body_at
  simp only [List.append_assoc] at hbody
  have hvs : (vs.flatMap encodeInt32).length = 4 * vs.length := by
    simp [List.length_flatMap]
    omega
  simp only [List.length_append, length_encodeInt32, hvs] at hfits hshort
  have hcount : (readInt data (off + 12) : Parse Int) = .ok vs.length := by
    rw [readInt_peel hbody, Int32.toInt_ofNat_of_lt (by omega)]
  have hstop : off + 16 + 4 * vs.length ≤ off + (12 + (4 + 4 * vs.length)) := by omega
  have hvalues := parseIntValues_encodeInt32 vs (drop_peel_int32 hbody) hstop
  rw [w.parseAt_eq (by decide), parseStructure,
    if_neg (by decide), if_neg (by decide), if_neg (by decide), if_pos (.inl rfl),
    if_pos (by simp; omega), w.id_read]
  simp [hcount, hvs, hvalues, PcfTree.param]

theorem parseAt_integer64List {data : Bytes} {off : Nat} {id : Int32}
    {vs : List Int64}
    (h : Framing.RecordAt PcfTree.encode data off (.integer64List id vs))
    (hlen : (PcfTree.integer64List id vs).encode.length < 2 ^ 31) :
    parseAt data off = .ok (PcfTree.integer64List id vs).param := by
  obtain ⟨post, h⟩ := h
  have w := words_of_drop h hlen
  have hfits := w.fits
  have hshort := w.short
  have hbody := w.body_at
  simp only [List.append_assoc] at hbody
  have hvs : (vs.flatMap encodeInt64).length = 8 * vs.length := by
    simp [List.length_flatMap]
    omega
  simp only [List.length_append, length_encodeInt32, hvs] at hfits hshort
  have hcount : (readInt data (off + 12) : Parse Int) = .ok vs.length := by
    rw [readInt_peel hbody, Int32.toInt_ofNat_of_lt (by omega)]
  have hstop : off + 16 + 8 * vs.length ≤ off + (12 + (4 + 8 * vs.length)) := by omega
  have hvalues := parseIntValues_encodeInt64 vs (drop_peel_int32 hbody) hstop
  rw [w.parseAt_eq (by decide), parseStructure,
    if_neg (by decide), if_neg (by decide), if_neg (by decide), if_pos (.inr rfl),
    if_pos (by simp; omega), w.id_read]
  simp [hcount, hvs, hvalues, PcfTree.param]

/-- The string list of a structure, whatever its width: with no element to read the
stated width does not matter. -/
theorem parseStringValues_stated {width : Nat} (hw : 0 < width)
    (ss : List (Field width)) {data post : Bytes} {off stop : Nat} {strLen : Int32}
    (hlen : strLen = Int32.ofNat width)
    (h : data.drop off = ss.flatMap Field.bytes ++ post)
    (hstop : off + ss.length * width ≤ stop) (hsize : ss.length * width < 2 ^ 31) :
    parseStringValues data strLen.toInt stop ss.length off =
      .ok (ss.map fun f => f.text.bytes) := by
  cases ss with
  | nil => rfl
  | cons f ss =>
      have hwidth : width ≤ (f :: ss).length * width :=
        Nat.le_mul_of_pos_left width (by simp)
      rw [hlen, Int32.toInt_ofNat_of_lt (by omega)]
      exact parseStringValues_fields hw (f :: ss) h hstop

theorem parseAt_stringList {data : Bytes} {off : Nat} {id ccsid : Int32} {width : Nat}
    {hw : 0 < width} {ss : List (Field width)}
    (h : Framing.RecordAt PcfTree.encode data off (.stringList id ccsid width hw ss))
    (hlen : (PcfTree.stringList id ccsid width hw ss).encode.length < 2 ^ 31) :
    parseAt data off = .ok (PcfTree.stringList id ccsid width hw ss).param := by
  obtain ⟨post, h⟩ := h
  have w := words_of_drop h hlen
  have hfits := w.fits
  have hshort := w.short
  have hbody := w.body_at
  simp only [List.append_assoc] at hbody
  have h16 := drop_peel_int32 hbody
  have h20 := drop_peel_int32 h16
  have h24 := drop_peel_int32 h20
  have hss : (ss.flatMap Field.bytes).length = ss.length * width := by
    simp [List.length_flatMap]
  have hcount_le : ss.length ≤ ss.length * width := Nat.le_mul_of_pos_right _ hw
  simp only [List.length_append, length_encodeInt32, hss] at hfits hshort
  have hcount : (readInt data (off + 16) : Parse Int) = .ok ss.length := by
    rw [readInt_peel h16, Int32.toInt_ofNat_of_lt (by omega)]
  have hstrLen : (readInt data (off + 20) : Parse Int) =
      .ok (Int32.ofNat width).toInt := readInt_peel h20
  have hstop : off + 24 + ss.length * width ≤ off + (12 + (4 + (4 + (4 +
      (ss.length * width + (filling (ss.length * width)).length))))) := by omega
  have hvalues := parseStringValues_stated hw ss rfl h24 hstop (by omega)
  rw [w.parseAt_eq (by decide), parseStructure,
    if_neg (by decide), if_neg (by decide), if_neg (by decide), if_neg (by decide),
    if_pos rfl, if_pos (by simp; omega), w.id_read]
  simp only [Outcome.ok_bind, hcount, hstrLen, Int.toNat_natCast, List.length_append,
    length_encodeInt32, hss]
  rw [hvalues]
  rfl

/-! ## Lists of trees -/

/-- Lists of trees decode when their trees do: the walk of `parse_parameters` over a
concatenation visits each of them. -/
theorem parseParameters_flatMap {ts : List PcfTree}
    (hlen : ∀ t ∈ ts, t.encode.length < 2 ^ 31)
    (hts : ∀ t ∈ ts, ∀ (data : Bytes) (off : Nat), t.encode.length < 2 ^ 31 →
      Framing.RecordAt PcfTree.encode data off t → parseAt data off = .ok t.param) :
    parseParameters (ts.flatMap PcfTree.encode) = .ok (ts.map PcfTree.param) := by
  rw [parseParameters_eq_mapM]
  refine Framing.mapM_stream [] ?_ ?_
  · intro t ht post
    exact next_encode t (hlen t ht)
  · intro off t hat ht
    exact hts t ht _ off (hlen t ht) hat

theorem parseAt_group {data : Bytes} {off : Nat} {id count : Int32}
    {members : List PcfTree}
    (hlen : (PcfTree.group id count members).encode.length < 2 ^ 31)
    (h : Framing.RecordAt PcfTree.encode data off (.group id count members))
    (hmembers : ∀ t ∈ members, ∀ (data : Bytes) (off : Nat), t.encode.length < 2 ^ 31 →
      Framing.RecordAt PcfTree.encode data off t → parseAt data off = .ok t.param) :
    parseAt data off = .ok (PcfTree.group id count members).param := by
  obtain ⟨post, h⟩ := h
  have w := words_of_drop h hlen
  have hfits := w.fits
  have hbody := w.body_at
  simp only [List.append_assoc] at hbody
  have h16 := drop_peel_int32 hbody
  simp only [List.length_append, length_encodeInt32] at hfits
  have hnat : (intAt data (off + 4)).toNat - 16 = (encodeAll members).length := by
    rw [w.toNat_length]
    simp only [List.length_append, length_encodeInt32]
    omega
  have hgroup : groupBody data off (intAt data (off + 4)).toNat = encodeAll members := by
    rw [groupBody, hnat, h16, List.take_left]
  have hlong : 16 ≤ intAt data (off + 4) := by
    rw [w.length_eq]
    simp only [List.length_append, length_encodeInt32]
    omega
  have hsize : ∀ t ∈ members, t.encode.length < 2 ^ 31 := by
    intro t ht
    have hle := Framing.length_le_flatMap PcfTree.encode ht
    simp only [PcfTree.encode, length_encodeStructure, List.length_append,
      length_encodeInt32, encodeAll_eq_flatMap] at hlen
    omega
  have hnested := parseParameters_flatMap hsize hmembers
  rw [parseAt, w.type_eq, if_pos rfl, if_pos hlong, hgroup, encodeAll_eq_flatMap, hnested,
    w.id_eq]
  simp [PcfTree.param, paramAll_eq_map]

/-- Wherever an encoded tree stands in a buffer, `parse_parameters` decodes it. -/
theorem parseAt_encode (t : PcfTree) (data : Bytes) (off : Nat)
    (hlen : t.encode.length < 2 ^ 31) (h : Framing.RecordAt PcfTree.encode data off t) :
    parseAt data off = .ok t.param := by
  induction t using PcfTree.induction generalizing data off with
  | scalar s => exact parseAt_scalar h hlen
  | integerList id vs => exact parseAt_integerList h hlen
  | integer64List id vs => exact parseAt_integer64List h hlen
  | stringList id ccsid width hw ss => exact parseAt_stringList h hlen
  | group id count members ih =>
      apply parseAt_group hlen h
      intro t ht data off hlen h
      exact ih t ht data off hlen h

/-- A concatenation of encoded trees is decoded tree by tree, if the `StrucLength` of
each of them fits in its field. -/
theorem parseParameters_trees {ts : List PcfTree}
    (hlen : ∀ t ∈ ts, t.encode.length < 2 ^ 31) :
    parseParameters (ts.flatMap PcfTree.encode) = .ok (ts.map PcfTree.param) :=
  parseParameters_flatMap hlen fun t _ data off ht h => parseAt_encode t data off ht h

/-- `parse_header` gives back the header. -/
theorem parseHeader_encode (hdr : PCFHeader) (post : Bytes) :
    parseHeader (hdr.encode ++ post) = .ok hdr := by
  have hlen : 36 ≤ (hdr.encode ++ post).length := by
    rw [List.length_append, hdr.length_encode]
    exact Nat.le_add_right _ _
  have h0 : (hdr.encode ++ post).drop 0 =
      encodeInt32 hdr.type ++ (encodeInt32 hdr.strucLength ++ (encodeInt32 hdr.version ++
        (encodeInt32 hdr.command ++ (encodeInt32 hdr.msgSeqNumber ++
          (encodeInt32 hdr.control ++ (encodeInt32 hdr.compCode ++ (encodeInt32 hdr.reason ++
            (encodeInt32 hdr.parameterCount ++ post)))))))) := by
    simp [PCFHeader.encode]
  have h4 := drop_peel_int32 h0
  have h8 := drop_peel_int32 h4
  have h12 := drop_peel_int32 h8
  have h16 := drop_peel_int32 h12
  have h20 := drop_peel_int32 h16
  have h24 := drop_peel_int32 h20
  have h28 := drop_peel_int32 h24
  have h32 := drop_peel_int32 h28
  unfold parseHeader
  rw [if_neg (Nat.not_lt.mpr hlen), readInt32_peel h0, readInt32_peel h4, readInt32_peel h8,
    readInt32_peel h12, readInt32_peel h16, readInt32_peel h20, readInt32_peel h24,
    readInt32_peel h28, readInt32_peel h32]
  rfl

/-- `parse_message` on a header and parameters. -/
theorem parseMessage_of_params (hdr : PCFHeader) {data : Bytes} {ps : List PCFParameter}
    (h : parseParameters data = .ok ps) (msgType : String) :
    parseMessage (hdr.encode ++ data) msgType = .ok (some (interpret hdr ps msgType)) := by
  have hdrop : (hdr.encode ++ data).drop 36 = data := by
    rw [← hdr.length_encode, List.drop_left]
  have hlong : ¬ (hdr.encode ++ data).length < 36 := by
    rw [List.length_append, hdr.length_encode]
    exact Nat.not_lt.mpr (Nat.le_add_right _ _)
  unfold parseMessage
  rw [if_neg hlong, parseHeader_encode, hdrop, h]
  rfl

/-- `parse_message` on a header and trees. -/
theorem parseMessage_eq {hdr : PCFHeader} {ts : List PcfTree} {msgType : String}
    (hlen : ∀ t ∈ ts, t.encode.length < 2 ^ 31) :
    parseMessage (hdr.encode ++ ts.flatMap PcfTree.encode) msgType =
      .ok (some (interpret hdr (ts.map PcfTree.param) msgType)) :=
  parseMessage_of_params hdr (parseParameters_trees hlen) msgType

/-- Decoding undoes encoding: `parse_parameters` on the encoding of a list of trees
gives back exactly these trees. -/
theorem parseParameters_encodeAll (ts : List PcfTree)
    (hlen : (encodeAll ts).length < 2 ^ 31) :
    parseParameters (encodeAll ts) = .ok (paramAll ts) := by
  rw [encodeAll_eq_flatMap] at hlen ⊢
  rw [paramAll_eq_map]
  apply parseParameters_trees
  intro t ht
  have hle := Framing.length_le_flatMap PcfTree.encode ht
  omega

/-- A queue name in a group, inside a group, next to a list of two names in fields of
eight bytes. -/
def nestedExample : List PcfTree :=
  [.group 8010 2
    [.scalar (.integer 36 (-5)),
     .group 8011 1 [.scalar (.string 2016 0 ⟨[81, 49], by decide, by decide⟩)]],
   .stringList 3070 0 8 (by decide)
    [⟨⟨[65], by decide, by decide⟩, [32, 32, 32, 32, 32, 32, 32], by decide, rfl⟩,
     ⟨⟨[], by decide, by decide⟩, [0, 0, 0, 0, 32, 32, 32, 32], by decide, rfl⟩]]

theorem parseParameters_encodeAll_nested :
    (encodeAll nestedExample).length < 2 ^ 31 ∧
      parseParameters (encodeAll nestedExample) = .ok (paramAll nestedExample) :=
  ⟨by decide +kernel, parseParameters_encodeAll nestedExample (by decide +kernel)⟩

end IbmmqExporter.Pcf
