/-
  Pcf/Parser.lean --- `PCFParser::parse_header` and `PCFParser::parse_parameters`
  of `pcf_parser.cpp`.

  `parse_parameters` is called with a pointer and a length.  Its argument here is
  the list of the `len` bytes from the pointer on, so that a read of a byte outside
  it is undefined.  Lengths and counts stay the signed 32-bit words they are on the
  wire until the source converts them.
-/
import IbmmqExporter.Foundation.Framing
import IbmmqExporter.Pcf.Parameter

set_option autoImplicit false

namespace IbmmqExporter.Pcf

open Foundation

/-- What a parser call comes to. -/
abbrev Parse (α : Type) : Type := Outcome StdException α

/-- `PCFParser::clean_string`: cut at the first NUL, then drop trailing blanks. -/
def cleanString (s : Bytes) : Bytes := trimBlanks (untilNul s)

/-- `PCFParser::parse_header`. -/
def parseHeader (data : Bytes) : Parse PCFHeader := do
  if data.length < 36 then
    .raised (.runtimeError (ascii "Insufficient data for PCF header"))
  else
    let type ← readInt32 data 0
    let strucLength ← readInt32 data 4
    let version ← readInt32 data 8
    let command ← readInt32 data 12
    let msgSeqNumber ← readInt32 data 16
    let control ← readInt32 data 20
    let compCode ← readInt32 data 24
    let reason ← readInt32 data 28
    let parameterCount ← readInt32 data 32
    return { type, strucLength, version, command, msgSeqNumber, control, compCode,
             reason, parameterCount }

/-- `a + b` in `size_t`, for an offset `a` into a buffer and a signed `b`: the sum
wraps around `2^64` exactly when it would be negative. -/
def sizeAdd (a : Nat) (b : Int) : Nat :=
  if 0 ≤ (a : Int) + b then ((a : Int) + b).toNat else ((a : Int) + b + 2 ^ 64).toNat

/-- The element loop of `MQCFT_INTEGER_LIST` and `MQCFT_INTEGER64_LIST`: `stop` is
`offset + struc_length` and the counter runs down from `count`. -/
def parseIntValues (data : Bytes) (paramType : Int32) (stop : Nat) :
    Nat → Nat → Parse (List Int64)
  | 0, _ => return []
  | count + 1, valOffset =>
      if valOffset + 4 ≤ stop then
        if paramType = mqcftInteger64List ∧ valOffset + 8 ≤ stop then do
          let v ← readInt64 data valOffset
          let values ← parseIntValues data paramType stop count (valOffset + 8)
          return v :: values
        else do
          let v ← readInt32 data valOffset
          let values ← parseIntValues data paramType stop count (valOffset + 4)
          return v.toInt64 :: values
      else return []

/-- The element loop of `MQCFT_STRING_LIST`.  A negative `str_len` becomes a
`size_t` beyond `max_size()`, which the constructor of `std::string` refuses. -/
def parseStringValues (data : Bytes) (strLen : Int) (stop : Nat) :
    Nat → Nat → Parse (List Bytes)
  | 0, _ => return []
  | count + 1, valOffset =>
      if sizeAdd valOffset strLen ≤ stop then
        if strLen < 0 then .raised .lengthError
        else do
          let s ← slice data valOffset strLen.toNat
          let strings ← parseStringValues data strLen stop count (sizeAdd valOffset strLen)
          return cleanString s :: strings
      else return []

/-- The cases of the `switch` in `parse_parameters` other than `MQCFT_GROUP`, for
the structure of `strucLength` bytes at `offset`. -/
def parseStructure (data : Bytes) (offset : Nat) (paramType : Int32)
    (strucLength : Nat) : Parse PCFParameter := do
  if paramType = mqcftInteger then
    if 16 ≤ strucLength then
      let parameter ← readInt32 data (offset + 8)
      let value ← readInt32 data (offset + 12)
      return { type := paramType, parameter, value := .int32 value }
    else return { type := paramType }
  else if paramType = mqcftInteger64 then
    if 24 ≤ strucLength then
      let parameter ← readInt32 data (offset + 8)
      let value ← readInt64 data (offset + 16)
      return { type := paramType, parameter, value := .int32 value.toInt32 }
    else return { type := paramType }
  else if paramType = mqcftString then
    if 20 ≤ strucLength then
      let parameter ← readInt32 data (offset + 8)
      let strLen ← readInt data (offset + 16)
      if 0 < strLen ∧ offset + 20 + strLen.toNat ≤ data.length + offset then
        let s ← slice data (offset + 20) (min strLen.toNat (strucLength - 20))
        return { type := paramType, parameter, value := .string (cleanString s) }
      else return { type := paramType, parameter }
    else return { type := paramType }
  else if paramType = mqcftIntegerList ∨ paramType = mqcftInteger64List then
    if 16 ≤ strucLength then
      let parameter ← readInt32 data (offset + 8)
      let count ← readInt data (offset + 12)
      let values ← parseIntValues data paramType (offset + strucLength) count.toNat
        (offset + 16)
      return { type := paramType, parameter, value := .intList values }
    else return { type := paramType }
  else if paramType = mqcftStringList then
    if 24 ≤ strucLength then
      let parameter ← readInt32 data (offset + 8)
      let count ← readInt data (offset + 16)
      let strLen ← readInt data (offset + 20)
      let strings ← parseStringValues data strLen (offset + strucLength) count.toNat
        (offset + 24)
      return { type := paramType, parameter, value := .stringList strings }
    else return { type := paramType }
  else
    if 12 ≤ strucLength then
      let parameter ← readInt32 data (offset + 8)
      return { type := paramType, parameter }
    else return { type := paramType }

/-- The loop of `PCFParser::parse_parameters`, from `offset` on. -/
def parseParametersFrom (data : Bytes) (offset : Nat) : Parse (List PCFParameter) :=
  if _h : offset + 8 ≤ data.length then do
    let paramType ← readInt32 data offset
    let strucLength ← readInt data (offset + 4)
    if _hn : strucLength ≤ 0 ∨ data.length - offset < strucLength.toNat then return []
    else
      let param ← (
        if paramType = mqcftGroup then
          if 16 ≤ strucLength then do
            let parameter ← readInt32 data (offset + 8)
            -- the nested call gets the bytes of the group's own StrucLength
            let nested ← parseParametersFrom
              ((data.drop (offset + 16)).take (strucLength.toNat - 16)) 0
            return { type := paramType, parameter, value := .group nested }
          else return { type := paramType }
        else parseStructure data offset paramType strucLength.toNat)
      let params ← parseParametersFrom data (offset + strucLength.toNat)
      return param :: params
  else return []
termination_by data.length - offset
decreasing_by
  · simp only [List.length_take, List.length_drop]
    omega
  · omega

/-- `PCFParser::parse_parameters`. -/
def parseParameters (data : Bytes) : Parse (List PCFParameter) :=
  parseParametersFrom data 0

/-! ## The walk -/

/-- How `parse_parameters` finds the next structure: at least eight bytes, and a
positive signed `StrucLength` that fits. -/
def parserFraming : Framing where
  header := 8
  claim rest := (intAt rest 4).toNat
  least := 1
  least_pos := Nat.one_pos

/-- The bytes that a group's own `StrucLength` holds after its header. -/
def groupBody (data : Bytes) (offset strucLength : Nat) : Bytes :=
  (data.drop (offset + 16)).take (strucLength - 16)

/-- What `parse_parameters` makes of the structure at `offset`. -/
def parseAt (data : Bytes) (offset : Nat) : Parse PCFParameter :=
  if int32At data offset = mqcftGroup then
    if 16 ≤ intAt data (offset + 4) then do
      let nested ← parseParameters (groupBody data offset (intAt data (offset + 4)).toNat)
      return { type := int32At data offset, parameter := int32At data (offset + 8),
               value := .group nested }
    else return { type := int32At data offset }
  else
    parseStructure data offset (int32At data offset) (intAt data (offset + 4)).toNat

/-- A structure that the parser's walk finds, in terms of the words it reads. -/
theorem parserFraming_next {data : Bytes} {offset n : Nat} :
    parserFraming.next (data.drop offset) = some n ↔
      offset + 8 ≤ data.length ∧ 0 < intAt data (offset + 4) ∧
        (intAt data (offset + 4)).toNat ≤ data.length - offset ∧
        (intAt data (offset + 4)).toNat = n := by
  rw [Framing.next_eq_some]
  simp only [parserFraming, intAt_drop, List.length_drop]
  omega

theorem parserFraming_next_none {data : Bytes} {offset : Nat}
    (h : parserFraming.next (data.drop offset) = none) (h8 : offset + 8 ≤ data.length) :
    intAt data (offset + 4) ≤ 0 ∨
      data.length - offset < (intAt data (offset + 4)).toNat := by
  by_contra hcon
  have hsome : parserFraming.next (data.drop offset) =
      some (intAt data (offset + 4)).toNat :=
    parserFraming_next.mpr ⟨h8, by omega, by omega, rfl⟩
  rw [h] at hsome
  cases hsome

/-- The loop of `parse_parameters` maps `parseAt` over the offsets of its walk. -/
theorem parseParametersFrom_eq_mapM (data : Bytes) (offset : Nat) :
    parseParametersFrom data offset =
      (parserFraming.offsets data offset).mapM (parseAt data) := by
  induction offset using parserFraming.walk_induction data with
  | done offset h =>
      rw [Framing.offsets_of_none h, parseParametersFrom]
      split
      · rename_i h8
        have hstop := parserFraming_next_none h h8
        rw [readInt32_eq (by omega), readInt_eq (by omega)]
        simp only [Outcome.ok_bind, dif_pos hstop]
        rfl
      · rfl
  | step offset n h ih =>
      obtain ⟨h8, hpos, hle, rfl⟩ := parserFraming_next.mp h
      have hgo : ¬ (intAt data (offset + 4) ≤ 0 ∨
          data.length - offset < (intAt data (offset + 4)).toNat) := by omega
      rw [Framing.offsets_of_some h, parseParametersFrom, dif_pos h8,
        readInt32_eq (by omega), readInt_eq (by omega)]
      simp only [Outcome.ok_bind, dif_neg hgo, List.mapM_cons, ih]
      congr 1
      conv_rhs => unfold parseAt
      split
      · split
        · rw [readInt32_eq (by omega)]
          rfl
        · rfl
      · rfl

theorem parseParameters_eq_mapM (data : Bytes) :
    parseParameters data = (parserFraming.offsets data 0).mapM (parseAt data) :=
  parseParametersFrom_eq_mapM data 0

end IbmmqExporter.Pcf
