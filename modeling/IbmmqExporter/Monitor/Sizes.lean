/-
  Monitor/Sizes.lean --- the path of a publication with the sizes of the code.

  A delivered message goes through `strip_mqrfh2`, the inspection of its header and
  `parse_pcf_params`.  `Monitor/Params.lean` and `Monitor/ResourceMonitor.lean` compute
  with natural numbers and hand the parser the bytes that are left.  Here the parser has a
  pointer and a length, which are computed apart from each other, in sizes that wrap; its
  loop runs for as many turns as it is given.

  WHAT THE FILE PROVES.  Whatever the bytes of the message, the loops end, every read is
  inside of them, the length handed to the parser is that of the bytes behind the pointer,
  and the path computes what the model over the natural numbers computes.
-/
import IbmmqExporter.Monitor.ResourceMonitor
import IbmmqExporter.Mq.Sizes

set_option autoImplicit false

namespace IbmmqExporter.Monitor.Sized

open Foundation Pcf Mq

/-! ## The parser

`data` is what the pointer may be followed to, `len` the length that the parser is
given. -/

/-- The string cases of `parse_pcf_params`. -/
def parseStr (data : Bytes) (len offset : Size) (strucLen : Int32) : Parse Bytes := do
  if 20 ≤ strucLen then
    let strLen ← readInt32 data (offset.toNat + 16)
    if 0 < strLen ∧ offset + 20 + toSize strLen ≤ len then
      let s ← slice data (offset.toNat + 20) (toSize strLen).toNat
      return trimBlanks s
    else return []
  else return []

/-- The cases `PCF_INTEGER`, `PCF_STRING` and `PCF_INTEGER64` of `parse_pcf_params`. -/
def parseValue (data : Bytes) (len offset : Size) (type strucLen paramId : Int32) :
    Parse PCFParam := do
  if type = mqcftInteger then
    let intValue ← readInt32 data (offset.toNat + 12)
    return { type, paramId, intValue, int64Value := intValue.toInt64 }
  else if type = mqcftString then
    let strValue ← parseStr data len offset strucLen
    return { type, paramId, strValue }
  else if type = mqcftInteger64 then
    if 24 ≤ strucLen then
      let int64Value ← readInt64 data (offset.toNat + 16)
      return { type, paramId, int64Value, intValue := int64Value.toInt32 }
    else return { type, paramId }
  else return { type, paramId }

/-- The inner loop of `parse_pcf_params`, for `count` more members, and the offset behind
them. -/
def parseMembers (data : Bytes) (len : Size) : Nat → Size → Parse (List PCFParam × Size)
  | 0, offset => return ([], offset)
  | count + 1, offset =>
      if len < offset + 16 then return ([], offset)
      else do
        let innerType ← readInt32 data offset.toNat
        let innerLen ← readInt32 data (offset.toNat + 4)
        let innerParam ← readInt32 data (offset.toNat + 8)
        if innerLen < 16 ∨ len < offset + toSize innerLen then return ([], offset)
        else
          let inner ← parseValue data len offset innerType innerLen innerParam
          let (rest, stop) ← parseMembers data len count (offset + toSize innerLen)
          return (inner :: rest, stop)

/-- The loop of `parse_pcf_params`, from `offset` on, for at most `turns` turns. -/
def parsePcfParamsFrom (data : Bytes) (len : Size) : Nat → Size → Parse (List PCFParam)
  | 0, _ => .pending
  | turns + 1, offset =>
      if offset + 16 ≤ len then do
        let type ← readInt32 data offset.toNat
        let strucLen ← readInt32 data (offset.toNat + 4)
        let paramId ← readInt32 data (offset.toNat + 8)
        if strucLen < 16 ∨ len < offset + toSize strucLen then return []
        else if type = mqcftGroup then
          let groupCount ← readInt32 data (offset.toNat + 12)
          let (groupParams, stop) ←
            parseMembers data len groupCount.toInt.toNat (offset + 16)
          let params ← parsePcfParamsFrom data len turns stop
          return { type, paramId, groupParams } :: params
        else
          let p ← parseValue data len offset type strucLen paramId
          let params ← parsePcfParamsFrom data len turns (offset + toSize strucLen)
          return p :: params
      else return []

section Parser

variable {data : Bytes} {len offset : Size}

/-- The test whether the length that is read at `place` is too small or reaches beyond the
end. -/
theorem tooShort_or_beyond_iff (hdata : Addressable data) (hlen : len.toNat = data.length)
    (hoffset : offset.toNat ≤ data.length) (place : Nat) :
    int32At data place < 16 ∨ len < offset + toSize (int32At data place) ↔
      intAt data place < 16 ∨ data.length < offset.toNat + (intAt data place).toNat := by
  have hlow : int32At data place < 16 ↔ intAt data place < 16 := Int32.lt_iff_toInt_lt
  by_cases h16 : intAt data place < 16
  · exact iff_of_true (.inl (hlow.mpr h16)) (.inl h16)
  · have hpos : 0 ≤ (int32At data place).toInt := by
      unfold intAt at h16
      omega
    have hlt := toNat_toSize_lt hpos
    rw [hlow, lt_offset_add_iff hdata hlen hoffset (by omega), toNat_toSize hpos]
    exact Iff.rfl

/-- The offset behind a structure whose length is read at `place`. -/
theorem toNat_offset_add_toSize (hdata : Addressable data) (hoffset : offset.toNat ≤ data.length)
    {place : Nat} (hplace : 0 ≤ intAt data place) :
    (offset + toSize (int32At data place)).toNat = offset.toNat + (intAt data place).toNat := by
  have hlt := toNat_toSize_lt hplace
  rw [toNat_offset_add hdata hoffset (by omega), toNat_toSize hplace]
  rfl

theorem parseStr_eq (hdata : Addressable data) (hlen : len.toNat = data.length)
    {strucLen : Int32} (h : offset.toNat + strucLen.toInt.toNat ≤ data.length) :
    parseStr data len offset strucLen =
      Monitor.parseStr data offset.toNat strucLen.toInt := by
  have hwide : 20 ≤ strucLen ↔ 20 ≤ strucLen.toInt := Int32.le_iff_toInt_le
  unfold parseStr Monitor.parseStr
  simp only [hwide]
  split
  · next h20 =>
      have hchars : (offset + 20).toNat = offset.toNat + 20 :=
        toNat_offset_add hdata (by omega) (by decide)
      rw [readInt32_eq (by omega), readInt_eq (by omega)]
      simp only [Outcome.ok_bind]
      have hpos : 0 < int32At data (offset.toNat + 16) ↔ 0 < intAt data (offset.toNat + 16) :=
        Int32.lt_iff_toInt_lt
      by_cases hzero : 0 < intAt data (offset.toNat + 16)
      · have hnonneg : 0 ≤ (int32At data (offset.toNat + 16)).toInt := le_of_lt hzero
        have hlt := toNat_toSize_lt hnonneg
        have htest : offset + 20 + toSize (int32At data (offset.toNat + 16)) ≤ len ↔
            offset.toNat + 20 + (intAt data (offset.toNat + 16)).toNat ≤ data.length := by
          rw [offset_add_le_iff hdata hlen (by omega) (by omega), hchars, toNat_toSize hnonneg]
          exact Iff.rfl
        simp only [hpos, htest, toNat_toSize hnonneg]
        rfl
      · rw [if_neg fun hcon => hzero (hpos.mp hcon.1), if_neg fun hcon => hzero hcon.1]
  · rfl

theorem parseValue_eq (hdata : Addressable data) (hlen : len.toNat = data.length)
    (type : Int32) {strucLen : Int32} (paramId : Int32)
    (h : offset.toNat + strucLen.toInt.toNat ≤ data.length) :
    parseValue data len offset type strucLen paramId =
      Monitor.parseValue data offset.toNat type strucLen.toInt paramId := by
  have hwide : 24 ≤ strucLen ↔ 24 ≤ strucLen.toInt := Int32.le_iff_toInt_le
  unfold parseValue Monitor.parseValue
  rw [parseStr_eq hdata hlen h]
  simp only [hwide]

/-- The members of a group are the model's, and the offset behind them is inside of the
bytes. -/
theorem parseMembers_eq (hdata : Addressable data) (hlen : len.toNat = data.length)
    (count : Nat) {n : Nat} (hn : offset.toNat = n) (hle : n ≤ data.length) :
    ∃ (members : Members n) (stop : Size),
      Monitor.parseMembers data count n = .ok members ∧
      parseMembers data len count offset = .ok (members.params, stop) ∧
      stop.toNat = members.stop ∧ members.stop ≤ data.length := by
  induction count generalizing offset n with
  | zero => exact ⟨_, _, rfl, rfl, hn, hle⟩
  | succ count ih =>
      subst hn
      have h16 : len < offset + 16 ↔ ¬ offset.toNat + 16 ≤ data.length := by
        rw [lt_offset_add_iff hdata hlen hle (by decide), not_le]
        exact Iff.rfl
      unfold parseMembers Monitor.parseMembers
      by_cases hhead : offset.toNat + 16 ≤ data.length
      · rw [if_pos hhead, if_neg fun hcon => h16.mp hcon hhead, readInt32_eq (by omega),
          readInt32_eq (by omega), readInt32_eq (by omega), readInt_eq (by omega)]
        simp only [Outcome.ok_bind, tooShort_or_beyond_iff hdata hlen hle]
        by_cases hstop : intAt data (offset.toNat + 4) < 16 ∨
            data.length < offset.toNat + (intAt data (offset.toNat + 4)).toNat
        · rw [if_pos hstop, if_pos hstop]
          exact ⟨_, _, rfl, rfl, rfl, hle⟩
        · rw [if_neg hstop, if_neg hstop]
          have hlong : 16 ≤ intAt data (offset.toNat + 4) := by omega
          have hfits : offset.toNat + (intAt data (offset.toNat + 4)).toNat ≤ data.length := by
            omega
          have hstep := toNat_offset_add_toSize hdata hle (le_trans (by decide) hlong)
          obtain ⟨inner, hinner⟩ := parseValue_returns hlong hfits (int32At data offset.toNat)
            (int32At data (offset.toNat + 8))
          obtain ⟨rest, stop, hmodel, hsized, hend⟩ := ih hstep hfits
          rw [parseValue_eq hdata hlen _ _ hfits, ← intAt, hinner, hmodel, hsized]
          exact ⟨_, _, rfl, rfl, hend⟩
      · rw [if_neg hhead, if_pos (h16.mpr hhead)]
        exact ⟨_, _, rfl, rfl, rfl, hle⟩

/-- The loop makes a turn for each parameter of the stream. -/
theorem parsePcfParamsFrom_eq (hdata : Addressable data) (hlen : len.toNat = data.length)
    {turns n : Nat} (hn : offset.toNat = n) (hle : n ≤ data.length)
    (hturns : data.length - n < turns) :
    parsePcfParamsFrom data len turns offset = Monitor.parsePcfParamsFrom data n := by
  induction turns generalizing offset n with
  | zero => omega
  | succ turns ih =>
      subst hn
      have h16 : offset + 16 ≤ len ↔ offset.toNat + 16 ≤ data.length :=
        offset_add_le_iff hdata hlen hle (by decide)
      rw [parsePcfParamsFrom, Monitor.parsePcfParamsFrom]
      by_cases hhead : offset.toNat + 16 ≤ data.length
      · rw [if_pos (h16.mpr hhead), dif_pos hhead, readInt32_eq (by omega),
          readInt32_eq (by omega), readInt32_eq (by omega), readInt_eq (by omega)]
        simp only [Outcome.ok_bind, tooShort_or_beyond_iff hdata hlen hle]
        by_cases hstop : intAt data (offset.toNat + 4) < 16 ∨
            data.length < offset.toNat + (intAt data (offset.toNat + 4)).toNat
        · rw [if_pos hstop, dif_pos hstop]
        · rw [if_neg hstop, dif_neg hstop]
          have hlong : 16 ≤ intAt data (offset.toNat + 4) := by omega
          have hfits : offset.toNat + (intAt data (offset.toNat + 4)).toNat ≤ data.length := by
            omega
          by_cases hgroup : int32At data offset.toNat = mqcftGroup
          · have hbehind : (offset + 16).toNat = offset.toNat + 16 :=
              toNat_offset_add hdata hle (by decide)
            obtain ⟨members, stop, hmodel, hsized, hend, hinside⟩ :=
              parseMembers_eq hdata hlen (intAt data (offset.toNat + 12)).toNat hbehind hhead
            have hprogress := members.le
            rw [if_pos hgroup, if_pos hgroup, readInt32_eq (by omega), readInt_eq (by omega)]
            simp only [Outcome.ok_bind]
            rw [← intAt, hmodel, hsized]
            simp only [Outcome.ok_bind]
            rw [ih hend hinside (by omega)]
          · have hstep := toNat_offset_add_toSize hdata hle (le_trans (by decide) hlong)
            rw [if_neg hgroup, if_neg hgroup, parseValue_eq hdata hlen _ _ hfits,
              ih hstep hfits (by omega)]
            rfl
      · rw [if_neg fun hcon => hhead (h16.mp hcon), dif_neg hhead]

end Parser

/-! ## The inspection of the header -/

/-- The functions that inspect a delivered message. -/
inductive Inspection where
  | discoverClasses
  | discoverTypes
  | discoverElements
  | processPublications

/-- The least `StrucLength` that the function takes for the offset of the parameters. -/
def Inspection.least : Inspection → Int32
  | discoverClasses => 36
  | _ => 1

/-- The words of the header that the function reads for its log. -/
def Inspection.logged : Inspection → List Nat
  | discoverClasses => [0, 8, 12, 24, 28, 32]
  | _ => []

/-- The choice of `params_offset`. -/
def paramsOffset (least cfhStrucLength : Int32) (data : Bytes) : Size :=
  if least ≤ cfhStrucLength ∧ toSize cfhStrucLength ≤ size data then toSize cfhStrucLength
  else 36

/-- The header and the parameters behind it; `none` if the message is shorter than a
header. -/
def inspect (turns : Nat) (i : Inspection) (data : Bytes) :
    Parse (Option (List PCFParam)) := do
  if size data < 36 then return none
  else
    let _ ← i.logged.mapM (readInt32 data)
    let cfhStrucLength ← readInt32 data 4
    let offset := paramsOffset i.least cfhStrucLength data
    let behind ← advance data offset.toNat
    some <$> parsePcfParamsFrom behind (size data - offset) turns 0

/-- The way of a delivered message. -/
def publicationPath (turns : Nat) (i : Inspection) (msg : MQMessage) :
    Parse (Option (List PCFParam)) := do
  let msg ← Mq.Sized.stripMqrfh2 msg
  inspect turns i msg.data

section Path

variable {data : Bytes}

theorem Inspection.least_pos (i : Inspection) : 0 < i.least.toInt := by
  cases i <;> decide

/-- `params_offset` is the offset of the model. -/
theorem toNat_paramsOffset (hdata : Addressable data) (i : Inspection) :
    (paramsOffset i.least (int32At data 4) data).toNat =
      Monitor.paramsOffset i.least.toInt data := by
  have hpos := i.least_pos
  have hlow : i.least ≤ int32At data 4 ↔ i.least.toInt ≤ intAt data 4 := Int32.le_iff_toInt_le
  unfold paramsOffset Monitor.paramsOffset
  by_cases hleast : i.least.toInt ≤ intAt data 4
  · have hnonneg : 0 ≤ (int32At data 4).toInt := by
      unfold intAt at hleast
      omega
    have hfits : toSize (int32At data 4) ≤ size data ↔ (intAt data 4).toNat ≤ data.length := by
      rw [UInt64.le_iff_toNat_le, toNat_size hdata, toNat_toSize hnonneg]
      exact Iff.rfl
    simp only [hlow, hfits]
    split
    · exact toNat_toSize hnonneg
    · rfl
  · rw [if_neg fun hcon => hleast (hlow.mp hcon.1), if_neg fun hcon => hleast hcon.1]
    rfl

theorem paramsOffset_le_length {least : Int} (h : pcfHeaderSize ≤ data.length) :
    Monitor.paramsOffset least data ≤ data.length := by
  unfold Monitor.paramsOffset
  dsimp only
  split
  · next hclaim => exact hclaim.2
  · exact h

/-- The subtraction `data.size() - params_offset` does not wrap. -/
theorem paramsOffset_le_size (hdata : Addressable data) (h : pcfHeaderSize ≤ data.length)
    (i : Inspection) : paramsOffset i.least (int32At data 4) data ≤ size data := by
  rw [UInt64.le_iff_toNat_le, toNat_paramsOffset hdata, toNat_size hdata]
  exact paramsOffset_le_length h

theorem logged_returns (i : Inspection) (h : pcfHeaderSize ≤ data.length) :
    (i.logged.mapM (readInt32 data) : Parse (List Int32)).Returns := by
  rw [Outcome.returns_mapM]
  intro place hplace
  have hinside : place + 4 ≤ pcfHeaderSize := by
    cases i with
    | discoverClasses =>
        simp only [Inspection.logged, List.mem_cons, List.not_mem_nil, or_false] at hplace
        unfold pcfHeaderSize
        omega
    | _ => cases hplace
  rw [readInt32_eq (by omega)]
  exact Outcome.returns_ok _

theorem inspect_eq (hdata : Addressable data) {turns : Nat} (hturns : data.length < turns)
    (i : Inspection) :
    inspect turns i data =
      if data.length < pcfHeaderSize then return none
      else some <$> paramsBehind i.least.toInt data := by
  have hshort : size data < 36 ↔ data.length < pcfHeaderSize := by
    rw [UInt64.lt_iff_toNat_lt, toNat_size hdata]
    exact Iff.rfl
  unfold inspect
  simp only [hshort]
  split
  · rfl
  · next hheader =>
      have hheader := not_lt.mp hheader
      have h36 : 36 ≤ data.length := hheader
      obtain ⟨words, hwords⟩ := logged_returns i hheader
      have hle : Monitor.paramsOffset i.least.toInt data ≤ data.length :=
        paramsOffset_le_length hheader
      have hbehind : (size data - paramsOffset i.least (int32At data 4) data).toNat =
          (data.drop (Monitor.paramsOffset i.least.toInt data)).length := by
        rw [Size.toNat_sub (paramsOffset_le_size hdata hheader i), toNat_size hdata,
          toNat_paramsOffset hdata, List.length_drop]
      rw [hwords, readInt32_eq (by omega)]
      simp only [Outcome.ok_bind]
      rw [toNat_paramsOffset hdata, advance_eq_ok hle]
      simp only [Outcome.ok_bind]
      rw [parsePcfParamsFrom_eq (hdata.drop _) hbehind (n := 0) rfl (Nat.zero_le _)
        (by rw [List.length_drop]; omega)]
      rfl

/-- What is left of a message by `strip_mqrfh2` is not longer than the message. -/
theorem length_stripMqrfh2_le (msg : MQMessage) :
    (Mq.stripMqrfh2 msg).data.length ≤ msg.data.length := by
  unfold Mq.stripMqrfh2
  split
  · exact Nat.le_refl _
  · split
    · exact Nat.le_refl _
    · dsimp only
      split
      · exact Nat.le_refl _
      · exact (List.drop_sublist _ _).length_le

end Path

/-- The path of a message computes what the model does. -/
theorem publicationPath_eq {msg : MQMessage} (hdata : Addressable msg.data) {turns : Nat}
    (hturns : msg.data.length < turns) (i : Inspection) :
    publicationPath turns i msg =
      if (Mq.stripMqrfh2 msg).data.length < pcfHeaderSize then return none
      else some <$> paramsBehind i.least.toInt (Mq.stripMqrfh2 msg).data := by
  have hle := length_stripMqrfh2_le msg
  have hstripped : Addressable (Mq.stripMqrfh2 msg).data := lt_of_le_of_lt hle hdata
  unfold publicationPath
  rw [Mq.Sized.stripMqrfh2_eq hdata, Outcome.ok_bind, inspect_eq hstripped (by omega)]

theorem publicationPath_returns {msg : MQMessage} (hdata : Addressable msg.data) {turns : Nat}
    (hturns : msg.data.length < turns) (i : Inspection) :
    (publicationPath turns i msg).Returns := by
  rw [publicationPath_eq hdata hturns]
  split
  · exact Outcome.returns_ok _
  · rw [Outcome.returns_map]
    exact parsePcfParams_returns _

/-- Every message, at every function that inspects one, and all responses are read to an
end and inside of their vectors, and the length behind `params_offset` does not wrap. -/
theorem publicationPath_inside :
    (∀ (i : Inspection) (msg : MQMessage) (v : ByteVector),
      ∃ turns, (publicationPath turns i { msg with data := v.bytes }).Returns) ∧
    (∀ (i : Inspection) (v : ByteVector), pcfHeaderSize ≤ v.bytes.length →
      paramsOffset i.least (int32At v.bytes 4) v.bytes ≤ size v.bytes) ∧
    ∀ responses : List ByteVector,
      ∃ turns,
        (Mq.Sized.discoverResponses turns (responses.map ByteVector.bytes)).Returns := by
  refine ⟨?_, fun i v h => paramsOffset_le_size v.addressable h i,
    Mq.Sized.discoverResponses_returns⟩
  intro i msg v
  exact ⟨v.bytes.length + 1, publicationPath_returns v.addressable (Nat.lt_succ_self _) i⟩

end IbmmqExporter.Monitor.Sized
