/-
  Monitor/Trimming.lean --- the padding of fixed-width names.

  Five places of the program take a name out of a field that is filled up with blanks or
  NULs.  Two of them name the characters to trim as `" \0"`, a C string with one
  character.

  WHAT THE FILE PROVES.  All five give back the name if and only if the padding has no
  NUL in it.
-/
import IbmmqExporter.Monitor.Params
import IbmmqExporter.Mq.Discovery

set_option autoImplicit false

namespace IbmmqExporter.Monitor

open Foundation Pcf Mq

/-- The field of a string structure: its StringLength at `offset + 16`, and the characters
behind it. -/
structure HasField (data : Bytes) (offset : Nat) (field : Bytes) : Prop where
  length_le : offset + 20 + field.length ≤ data.length
  stringLength : (uint32At data (offset + 16)).toNat = field.length
  chars : (data.drop (offset + 20)).take field.length = field

/-- What each of the places makes of a field that holds the name. -/
structure TrimsTo (field name : Bytes) : Prop where
  /-- `PCFParser::clean_string` -/
  cleanString : cleanString field = name
  /-- `trim_mq_string` in `read_pcf_string` -/
  readPcfString (pdata : Bytes) (plen : UInt32) : pcfStringBytes pdata plen = .ok field →
    readPcfString pdata plen = .ok name
  /-- the string cases of `parse_pcf_params` -/
  parseStr (data : Bytes) (offset : Nat) (strucLen : Int) : HasField data offset field →
    field.length < 2 ^ 31 → 20 ≤ strucLen → parseStr data offset strucLen = .ok name
  /-- a string in `discover_queues` -/
  discoverString (resp : Bytes) (queues : List Bytes) (offset : Nat) :
    HasField resp offset field → uint32At resp (offset + 8) = 2016 →
      discoverString resp queues offset = .ok (addQueue queues name)
  /-- an element of a string list in `discover_queues` -/
  discoverStrings (resp : Bytes) (queues : List Bytes) (n pos : Nat) :
    pos + field.length ≤ resp.length → (resp.drop pos).take field.length = field →
      discoverStrings resp field.length (n + 1) pos queues =
        discoverStrings resp field.length n (pos + field.length) (addQueue queues name)
  /-- the resolved name in `open_queue` -/
  openDynamicQueue (queueName : Bytes) (options : Int32) (dynamicQName : Bytes) (s : Session)
    (r : Reply) (supply : List Reply) : s.mqi.supply = r :: supply → r.cc ≠ .failed →
      r.objectName = field →
        (openDynamicQueue queueName options dynamicQName s).1 = .ok (r.handle.1, name)

/-! ## The trimmers -/

variable {field name : Bytes}

theorem HasField.slice_eq {data : Bytes} {offset : Nat} (h : HasField data offset field) :
    (slice data (offset + 20) field.length : Parse Bytes) = .ok field := by
  rw [slice_eq_ok h.length_le, h.chars]

theorem parseStr_field {data : Bytes} {offset : Nat} {strucLen : Int}
    (h : HasField data offset field) (hne : field ≠ []) (hshort : field.length < 2 ^ 31)
    (h20 : 20 ≤ strucLen) : parseStr data offset strucLen = .ok (trimBlanks field) := by
  have hpos : 0 < field.length := List.length_pos_of_ne_nil hne
  have hle := h.length_le
  have hint : intAt data (offset + 16) = field.length := by
    have hlen := h.stringLength
    rcases intAt_uint32At data (offset + 16) with ⟨-, heq⟩ | ⟨hbig, -⟩
    · rw [heq, hlen]
    · omega
  unfold parseStr
  rw [if_pos h20, readInt_eq (by omega), Outcome.ok_bind, hint, Int.toNat_natCast,
    if_pos ⟨by omega, hle⟩, h.slice_eq]
  rfl

theorem discoverString_field {resp : Bytes} {offset : Nat} (h : HasField resp offset field)
    (hne : field ≠ []) (hid : uint32At resp (offset + 8) = 2016) (queues : List Bytes) :
    discoverString resp queues offset = .ok (addQueue queues (trimPadding field)) := by
  have hpos : 0 < field.length := List.length_pos_of_ne_nil hne
  have hle := h.length_le
  have hlen := h.stringLength
  have hsome : 0 < uint32At resp (offset + 16) := by
    rw [UInt32.lt_iff_toNat_lt, hlen]
    exact hpos
  unfold discoverString
  rw [readUInt32_eq (by omega), readUInt32_eq (by omega), Outcome.ok_bind, Outcome.ok_bind, hlen,
    if_pos ⟨hid, hsome, hle⟩, h.slice_eq]
  rfl

theorem discoverStrings_field {resp : Bytes} {pos : Nat} (hle : pos + field.length ≤ resp.length)
    (hchars : (resp.drop pos).take field.length = field) (queues : List Bytes) (n : Nat) :
    discoverStrings resp field.length (n + 1) pos queues =
      discoverStrings resp field.length n (pos + field.length)
        (addQueue queues (trimPadding field)) := by
  conv_lhs => unfold discoverStrings
  rw [if_neg (by omega), slice_eq_ok hle, hchars]
  rfl

theorem openDynamicQueue_field {queueName dynamicQName : Bytes} {options : Int32} {s : Session}
    {r : Reply} {supply : List Reply} (hs : s.mqi.supply = r :: supply) (hcc : r.cc ≠ .failed) :
    (openDynamicQueue queueName options dynamicQName s).1 =
      .ok (r.handle.1,
        if trimBlanks r.objectName = [] then r.objectName else trimBlanks r.objectName) := by
  unfold openDynamicQueue mqopen
  dsimp only
  rw [Effect.bind_of_ok (mqi_call_cons hs)]
  simp only [id, if_neg hcc]
  rfl

/-- All that matters is what becomes of the field when blanks are trimmed, and blanks and
NULs. -/
theorem trimsTo_of_eq (hne : field ≠ []) (hname : name ≠ []) (hclean : cleanString field = name)
    (hblanks : trimBlanks field = name) (hpadding : trimPadding field = name) :
    TrimsTo field name where
  cleanString := hclean
  readPcfString pdata plen hbytes := by
    unfold Pcf.readPcfString
    rw [hbytes, ← hpadding]
    rfl
  parseStr data offset strucLen hfield hshort h20 := by
    rw [parseStr_field hfield hne hshort h20, hblanks]
  discoverString resp queues offset hfield hid := by
    rw [discoverString_field hfield hne hid, hpadding]
  discoverStrings resp queues n pos hle hchars := by
    rw [discoverStrings_field hle hchars, hpadding]
  openDynamicQueue queueName options dynamicQName s r supply hs hcc hobject := by
    rw [openDynamicQueue_field hs hcc, hobject, hblanks, if_neg hname]

/-- The blanks at the end of a field are the padding if there is no NUL in it. -/
theorem trimBlanks_append_iff (t : Text) {pad : Bytes} (hpad : IsPadding pad) :
    trimBlanks (t.bytes ++ pad) = t.bytes ↔ nul ∉ pad := by
  constructor
  · intro htrim hnul
    have hsplit : trimBlanks (t.bytes ++ pad) ++
        (t.bytes ++ pad).rtakeWhile (fun b => b = blank) = t.bytes ++ pad :=
      List.rdropWhile_append_rtakeWhile
    rw [htrim] at hsplit
    have hrest := List.append_cancel_left hsplit
    rw [← hrest] at hnul
    exact absurd (List.mem_rtakeWhile_imp hnul) (by decide)
  · intro hnul
    have hall : ∀ b ∈ pad, decide (b = blank) = true := by
      intro b hb
      rcases hpad b hb with rfl | rfl
      · exact absurd hb hnul
      · rfl
    rw [trimBlanks, rdropWhile_append_of_all hall]
    exact t.trimBlanks_eq

/-- The name that MQOPEN resolves has its blanks trimmed. -/
theorem TrimsTo.trimBlanks_eq {t : Text} {pad : Bytes} (h : TrimsTo (t.bytes ++ pad) t.bytes) :
    trimBlanks (t.bytes ++ pad) = t.bytes := by
  let r : Reply := { cc := .ok, objectName := t.bytes ++ pad }
  have hcc : r.cc ≠ .failed := fun hfailed => nomatch hfailed
  have hopen := h.openDynamicQueue [] 0 [] { mqi := { supply := [r] } } r [] rfl hcc rfl
  rw [openDynamicQueue_field rfl hcc] at hopen
  have hresolved := (Prod.mk.inj (Outcome.ok.inj hopen)).2
  split at hresolved
  · have hself : t.bytes ++ pad = t.bytes := hresolved
    rw [hself]
    exact t.trimBlanks_eq
  · exact hresolved

/-- All places give back the name if and only if the padding has no NUL in it. -/
theorem trimsTo_iff (t : Text) (hne : t.bytes ≠ []) {pad : Bytes} (hpad : IsPadding pad) :
    TrimsTo (t.bytes ++ pad) t.bytes ↔ nul ∉ pad := by
  have hfield : t.bytes ++ pad ≠ [] := fun hnil => hne (List.append_eq_nil_iff.mp hnil).1
  rw [← trimBlanks_append_iff t hpad]
  constructor
  · exact TrimsTo.trimBlanks_eq
  · intro hblanks
    exact trimsTo_of_eq hfield hne (t.trimBlanks_untilNul_append hpad) hblanks
      (t.trimPadding_append hpad)

/-- A queue name. -/
def queueQ : Text := ⟨ascii "Q", by decide, by decide⟩

theorem trimsTo_iff_blanks :
    TrimsTo (queueQ.bytes ++ [blank, blank]) queueQ.bytes ↔ nul ∉ [blank, blank] :=
  trimsTo_iff queueQ (by decide) (by decide)

/-- A NUL behind the name is not trimmed. -/
theorem not_trimsTo_nul :
    ¬ ∀ (t : Text) (pad : Bytes), t.bytes ≠ [] → IsPadding pad → TrimsTo (t.bytes ++ pad) t.bytes := by
  intro h
  have hkept := (h queueQ [nul] (by decide) (by decide)).trimBlanks_eq
  exact absurd hkept (by decide)

end IbmmqExporter.Monitor
