/-
  Monitor/Params.lean --- `ResourceMonitor::parse_pcf_params` of
  `resource_monitor.cpp`.

  The resource monitor has a PCF decoder of its own.  It takes a group's members
  from the stream behind the group's 16-byte header and counts them, where
  `PCFParser` takes them from inside the group's `StrucLength`.

  WHAT THE FILE PROVES.  Whatever the bytes, the decoder reads inside of them, and
  returns.
-/
import IbmmqExporter.Pcf.Parser

set_option autoImplicit false

namespace IbmmqExporter.Monitor

open Foundation Pcf

/-- `ResourceMonitor::PCFParam`. -/
structure PCFParam where
  type : Int32 := 0
  paramId : Int32 := 0
  intValue : Int32 := 0
  int64Value : Int64 := 0
  strValue : Bytes := []
  groupParams : List PCFParam := []

/-- The string cases of `parse_pcf_params`.  `" \0"` is a C string, so
`find_last_not_of` leaves NULs in place and trims blanks only. -/
def parseStr (data : Bytes) (offset : Nat) (strucLen : Int) : Parse Bytes := do
  if 20 ≤ strucLen then
    let strLen ← readInt data (offset + 16)
    if 0 < strLen ∧ offset + 20 + strLen.toNat ≤ data.length then
      let s ← slice data (offset + 20) strLen.toNat
      return trimBlanks s
    else return []
  else return []

/-- The cases `PCF_INTEGER`, `PCF_STRING` and `PCF_INTEGER64` of `parse_pcf_params`,
which stand there twice: for the parameters of the stream and for the members of a
group. -/
def parseValue (data : Bytes) (offset : Nat) (type : Int32) (strucLen : Int)
    (paramId : Int32) : Parse PCFParam := do
  if type = mqcftInteger then
    let intValue ← readInt32 data (offset + 12)
    return { type, paramId, intValue, int64Value := intValue.toInt64 }
  else if type = mqcftString then
    let strValue ← parseStr data offset strucLen
    return { type, paramId, strValue }
  else if type = mqcftInteger64 then
    if 24 ≤ strucLen then
      let int64Value ← readInt64 data (offset + 16)
      return { type, paramId, int64Value, intValue := int64Value.toInt32 }
    else return { type, paramId }
  else return { type, paramId }

/-- The members of a group that starts before `offset`, and the offset behind the
last of them. -/
structure Members (offset : Nat) where
  params : List PCFParam
  stop : Nat
  le : offset ≤ stop

/-- The inner loop of `parse_pcf_params`, for `count` more members. -/
def parseMembers (data : Bytes) : Nat → (offset : Nat) → Parse (Members offset)
  | 0, offset => return ⟨[], offset, Nat.le_refl offset⟩
  | count + 1, offset =>
      if offset + 16 ≤ data.length then do
        let innerType ← readInt32 data offset
        let innerLen ← readInt data (offset + 4)
        let innerParam ← readInt32 data (offset + 8)
        if innerLen < 16 ∨ data.length < offset + innerLen.toNat then
          return ⟨[], offset, Nat.le_refl offset⟩
        else
          let inner ← parseValue data offset innerType innerLen innerParam
          let rest ← parseMembers data count (offset + innerLen.toNat)
          return ⟨inner :: rest.params, rest.stop, Nat.le_of_add_right_le rest.le⟩
      else return ⟨[], offset, Nat.le_refl offset⟩

/-- The loop of `parse_pcf_params`, from `offset` on. -/
def parsePcfParamsFrom (data : Bytes) (offset : Nat) : Parse (List PCFParam) :=
  if _h : offset + 16 ≤ data.length then do
    let type ← readInt32 data offset
    let strucLen ← readInt data (offset + 4)
    let paramId ← readInt32 data (offset + 8)
    if _hn : strucLen < 16 ∨ data.length < offset + strucLen.toNat then return []
    else if type = mqcftGroup then
      let groupCount ← readInt data (offset + 12)
      let members ← parseMembers data groupCount.toNat (offset + 16)
      let params ← parsePcfParamsFrom data members.stop
      return { type, paramId, groupParams := members.params } :: params
    else
      let p ← parseValue data offset type strucLen paramId
      let params ← parsePcfParamsFrom data (offset + strucLen.toNat)
      return p :: params
  else return []
termination_by data.length - offset
decreasing_by
  · have := members.le
    omega
  · omega

/-- `ResourceMonitor::parse_pcf_params`. -/
def parsePcfParams (data : Bytes) : Parse (List PCFParam) := parsePcfParamsFrom data 0

/-! ## Reads -/

section Reads

variable {data : Bytes} {offset : Nat}

theorem parseStr_returns {strucLen : Int} (h : offset + strucLen.toNat ≤ data.length) :
    (parseStr data offset strucLen).Returns := by
  unfold parseStr
  split
  · next h20 =>
      rw [readInt_eq (by omega)]
      simp only [Outcome.ok_bind]
      split
      · next hfits =>
          rw [slice_eq_ok (by omega)]
          exact Outcome.returns_ok _
      · exact Outcome.returns_ok _
  · exact Outcome.returns_ok _

theorem parseValue_returns {strucLen : Int} (h16 : 16 ≤ strucLen)
    (h : offset + strucLen.toNat ≤ data.length) (type paramId : Int32) :
    (parseValue data offset type strucLen paramId).Returns := by
  unfold parseValue
  split
  · rw [readInt32_eq (by omega)]
    exact Outcome.returns_ok _
  · split
    · obtain ⟨s, hs⟩ := parseStr_returns h
      rw [hs]
      exact Outcome.returns_ok _
    · split
      · split
        · next h24 =>
            rw [readInt64_eq (by omega)]
            exact Outcome.returns_ok _
        · exact Outcome.returns_ok _
      · exact Outcome.returns_ok _

theorem parseMembers_returns (data : Bytes) (count offset : Nat) :
    (parseMembers data count offset).Returns := by
  induction count generalizing offset with
  | zero => exact Outcome.returns_ok _
  | succ count ih =>
      unfold parseMembers
      split
      · rw [readInt32_eq (by omega), readInt_eq (by omega), readInt32_eq (by omega)]
        simp only [Outcome.ok_bind]
        split
        · exact Outcome.returns_ok _
        · next hfits =>
            have h16 : 16 ≤ intAt data (offset + 4) := by omega
            have hle : offset + (intAt data (offset + 4)).toNat ≤ data.length := by omega
            obtain ⟨inner, hinner⟩ := parseValue_returns h16 hle _ _
            rw [hinner]
            simp only [Outcome.ok_bind]
            obtain ⟨rest, hrest⟩ := ih (offset + (intAt data (offset + 4)).toNat)
            rw [hrest]
            exact Outcome.returns_ok _
      · exact Outcome.returns_ok _

theorem parsePcfParamsFrom_returns (data : Bytes) (offset : Nat) :
    (parsePcfParamsFrom data offset).Returns := by
  induction hrest : data.length - offset using Nat.strong_induction_on generalizing offset with
  | _ rest ih =>
      unfold parsePcfParamsFrom
      split
      · rw [readInt32_eq (by omega), readInt_eq (by omega), readInt32_eq (by omega)]
        simp only [Outcome.ok_bind]
        split
        · exact Outcome.returns_ok _
        · next hfits =>
            have h16 : 16 ≤ intAt data (offset + 4) := by omega
            have hle : offset + (intAt data (offset + 4)).toNat ≤ data.length := by omega
            split
            · rw [readInt_eq (by omega)]
              simp only [Outcome.ok_bind]
              obtain ⟨members, hmembers⟩ :=
                parseMembers_returns data (intAt data (offset + 12)).toNat (offset + 16)
              rw [hmembers]
              simp only [Outcome.ok_bind]
              have hstop := members.le
              obtain ⟨params, hparams⟩ := ih _ (by omega) members.stop rfl
              rw [hparams]
              exact Outcome.returns_ok _
            · obtain ⟨p, hp⟩ := parseValue_returns h16 hle _ _
              rw [hp]
              simp only [Outcome.ok_bind]
              obtain ⟨params, hparams⟩ :=
                ih _ (by omega) (offset + (intAt data (offset + 4)).toNat) rfl
              rw [hparams]
              exact Outcome.returns_ok _
      · exact Outcome.returns_ok _

/-- The parser reads inside of its bytes only, whatever they are. -/
theorem parsePcfParams_returns (data : Bytes) : (parsePcfParams data).Returns :=
  parsePcfParamsFrom_returns data 0

end Reads

end IbmmqExporter.Monitor
