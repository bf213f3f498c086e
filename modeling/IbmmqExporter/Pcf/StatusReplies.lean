/-
  Pcf/StatusReplies.lean --- what error replies do to the parsers of status responses.

  `parse_pcf_response_params` visits nothing in a response whose CompCode is not zero.
  The parsers go on all the same, and ask their record, as it was before the first
  parameter, whether it goes to the result.

  WHAT THE FILE PROVES.  The five parsers that keep no record without a name make
  nothing of error replies.  The other three make a record of each one.
-/
import IbmmqExporter.Pcf.Status

set_option autoImplicit false

namespace IbmmqExporter.Pcf

open Foundation

/-! ## Responses one by one -/

section Entries

variable {α : Type} (parser : StatusParser α)

/-- What a response adds to the result. -/
def StatusParser.entries (resp : Bytes) : Parse (List α) := do
  if resp.length < 36 then return []
  else
    let a ← parsePcfResponseParams resp parser.visit parser.empty
    return if parser.keeps a then [a] else []

theorem StatusParser.parseIn_eq (result : List α) (resp : Bytes) :
    parser.parseIn result resp = (result ++ ·) <$> parser.entries resp := by
  unfold StatusParser.parseIn StatusParser.entries
  split
  · simp
  · cases parsePcfResponseParams resp parser.visit parser.empty with
    | ok a =>
        simp only [Outcome.ok_bind, Outcome.pure_eq, Outcome.map_ok]
        split <;> simp
    | raised e => rfl
    | undefined => rfl
    | pending => rfl

/-- The result is made of what each response adds to it. -/
theorem StatusParser.parse_eq_mapM (responses : List Bytes) :
    parser.parse responses = List.flatten <$> responses.mapM parser.entries := by
  have hstep : parser.parseIn = fun result resp => (result ++ ·) <$> parser.entries resp := by
    funext result resp
    exact parser.parseIn_eq result resp
  rw [StatusParser.parse, hstep, Outcome.foldlM_append]
  rfl

theorem StatusParser.parse_cons (resp : Bytes) (responses : List Bytes) :
    parser.parse (resp :: responses) =
      parser.entries resp >>= fun as => (as ++ ·) <$> parser.parse responses := by
  rw [parse_eq_mapM, parse_eq_mapM, List.mapM_cons]
  cases parser.entries resp with
  | ok as => cases responses.mapM parser.entries <;> rfl
  | raised e => rfl
  | undefined => rfl
  | pending => rfl

/-! ### Responses that are read beyond their end -/

/-- The parser reads the parameter, and the clamp of the reader wraps around. -/
def StatusParser.Overruns (p : ResponseParam) : Prop :=
  (parser.strings.isEmpty = false ∧ p.paramType = 4 ∧ StringWraps p) ∨
    (parser.integerLists.isEmpty = false ∧ p.paramType = 5 ∧ ListWraps p)

theorem Cases.visit_returns_iff {ν : Type} (cases : Cases ν α) {read : Bytes → UInt32 → Parse ν}
    (a : α) (p : ResponseParam) :
    (cases.visit read a p).Returns ↔ cases.isEmpty = true ∨ (read p.pdata p.plen).Returns := by
  unfold Cases.visit
  split
  · next h => simp [h]
  · next h =>
      rw [Outcome.returns_bind]
      simp [h, Outcome.Returns]

theorem readPcfString_returns_iff (p : ResponseParam) :
    (readPcfString p.pdata p.plen).Returns ↔ ¬ StringWraps p := by
  rw [readPcfString, Outcome.returns_map]
  constructor
  · intro h hwraps
    rw [pcfStringBytes_wraps hwraps] at h
    exact Outcome.not_returns_undefined h
  · intro h
    obtain ⟨s, hs, -⟩ := pcfStringBytes_inside h
    exact ⟨s, hs⟩

theorem readPcfIntList_returns_iff (p : ResponseParam) :
    (readPcfIntList p.pdata p.plen).Returns ↔ ¬ ListWraps p := by
  constructor
  · intro h hwraps
    exact readPcfIntList_wraps hwraps h
  · intro h
    obtain ⟨vs, hvs, -⟩ := readPcfIntList_inside h
    exact ⟨vs, hvs⟩

theorem StatusParser.visit_returns_iff (a : α) (p : ResponseParam) :
    (parser.visit a p).Returns ↔ ¬ parser.Overruns p := by
  unfold StatusParser.visit StatusParser.Overruns
  split_ifs with h4 h3 h23 h5
  · rw [Cases.visit_returns_iff, readPcfString_returns_iff]
    simp [h4, imp_iff_not_or]
  · simp [h3, Cases.visit_returns_iff, readPcfInt32_returns p]
  · simp [h23, Cases.visit_returns_iff, readPcfInt64_returns p]
  · rw [Cases.visit_returns_iff, readPcfIntList_returns_iff]
    simp [h5, imp_iff_not_or]
  · simp [h4, h5]

/-- A response is read to its end if and only if no parameter overruns. -/
theorem StatusParser.entries_returns_iff (resp : Bytes) :
    (parser.entries resp).Returns ↔ ∀ p ∈ responseParams resp, ¬ parser.Overruns p := by
  unfold StatusParser.entries
  split
  · next h36 =>
      have hnone : responseParams resp = [] := if_neg fun h => absurd h.1 (by omega)
      simp [hnone]
  · rw [parsePcfResponseParams_eq, Outcome.returns_bind,
      ← Outcome.returns_foldlM_iff parser.visit_returns_iff parser.empty]
    simp [Outcome.Returns]

end Entries

/-! ## Error replies -/

/-- The response has a CompCode other than zero. -/
def isErrorReply (resp : Bytes) : Bool := decide (28 ≤ resp.length ∧ uint32At resp 24 ≠ 0)

/-- The responses without the error replies. -/
def withoutErrors (responses : List Bytes) : List Bytes :=
  responses.filter fun resp => !isErrorReply resp

/-- No response that has a header has a CompCode other than zero. -/
def NoErrorReply (responses : List Bytes) : Prop :=
  ∀ resp ∈ responses, 36 ≤ resp.length → uint32At resp 24 = 0

section Errors

variable {α : Type} {parser : StatusParser α}

/-- Of an error reply the parser keeps the record it starts with, if it keeps that. -/
theorem StatusParser.entries_error {resp : Bytes} (h : isErrorReply resp = true) :
    parser.entries resp =
      .ok (if 36 ≤ resp.length ∧ parser.keeps parser.empty then [parser.empty] else []) := by
  obtain ⟨h28, hcode⟩ := of_decide_eq_true h
  unfold StatusParser.entries
  by_cases h36 : 36 ≤ resp.length
  · have hnone : responseParams resp = [] := if_neg fun h => hcode h.2
    rw [if_neg (by omega), parsePcfResponseParams_eq, hnone]
    simp [h36]
  · rw [if_pos (by omega), if_neg fun h => h36 h.1]
    rfl

/-- Error replies of which nothing is kept can be left out. -/
theorem StatusParser.parse_withoutErrors {responses : List Bytes}
    (h : ∀ resp ∈ responses, isErrorReply resp = true → parser.entries resp = .ok []) :
    parser.parse (withoutErrors responses) = parser.parse responses := by
  induction responses with
  | nil => rfl
  | cons resp responses ih =>
      have hrest := ih fun resp' hresp' => h resp' (List.mem_cons_of_mem resp hresp')
      unfold withoutErrors at hrest ⊢
      cases herror : isErrorReply resp with
      | true =>
          rw [List.filter_cons_of_neg (by simp [herror]), hrest, parse_cons,
            h resp List.mem_cons_self herror]
          cases parser.parse responses <;> rfl
      | false =>
          rw [List.filter_cons_of_pos (by simp [herror]), parse_cons, hrest, parse_cons]

/-- A parser that keeps every record makes one of each response that has a header. -/
theorem StatusParser.length_parse (hkeeps : ∀ a, parser.keeps a = true) {responses : List Bytes}
    {result : List α} (h : parser.parse responses = .ok result) :
    result.length = (responses.filter fun resp => decide (36 ≤ resp.length)).length := by
  induction responses generalizing result with
  | nil =>
      obtain rfl := Outcome.ok.inj h
      rfl
  | cons resp responses ih =>
      rw [parse_cons] at h
      obtain ⟨as, has, h⟩ := Outcome.bind_eq_ok.mp h
      cases hrest : parser.parse responses with
      | ok result' =>
          rw [hrest] at h
          obtain rfl := Outcome.ok.inj h
          rw [List.length_append, ih hrest]
          unfold StatusParser.entries at has
          split at has
          · next h36 =>
              obtain rfl := Outcome.ok.inj has
              rw [List.filter_cons_of_neg (by simpa using h36)]
              exact Nat.zero_add _
          · next h36 =>
              obtain ⟨a, -, has⟩ := Outcome.bind_eq_ok.mp has
              rw [if_pos (hkeeps a)] at has
              obtain rfl := Outcome.ok.inj has
              rw [List.filter_cons_of_pos (by simpa using h36), List.length_cons]
              exact Nat.add_comm 1 _
      | raised e => rw [hrest] at h; cases h
      | undefined => rw [hrest] at h; cases h
      | pending => rw [hrest] at h; cases h

/-- A parser that keeps every record makes nothing of error replies if and only if there
are none, or it does not get through the responses. -/
theorem StatusParser.parse_withoutErrors_iff (hkeeps : ∀ a, parser.keeps a = true)
    (responses : List Bytes) :
    parser.parse (withoutErrors responses) = parser.parse responses ↔
      NoErrorReply responses ∨
        ∃ resp ∈ responses, ∃ p ∈ responseParams resp, parser.Overruns p := by
  constructor
  · intro heq
    by_cases hover : ∃ resp ∈ responses, ∃ p ∈ responseParams resp, parser.Overruns p
    · exact .inr hover
    · refine .inl fun resp hresp h36 => ?_
      have hreturns : (responses.mapM parser.entries).Returns := by
        refine Outcome.returns_mapM.mpr fun resp hresp => ?_
        exact (parser.entries_returns_iff resp).mpr fun p hp ho => hover ⟨resp, hresp, p, hp, ho⟩
      obtain ⟨bss, hbss⟩ := hreturns
      have hparse : parser.parse responses = .ok bss.flatten := by
        rw [parser.parse_eq_mapM, hbss]
        rfl
      -- as many responses with a header are left as there were, so they are all left
      have hlength := (StatusParser.length_parse hkeeps (heq.trans hparse)).symm.trans
        (StatusParser.length_parse hkeeps hparse)
      have hsublist : ((withoutErrors responses).filter fun resp => decide (36 ≤ resp.length)).Sublist
          (responses.filter fun resp => decide (36 ≤ resp.length)) :=
        List.filter_sublist.filter _
      have hmem : resp ∈ withoutErrors responses := by
        refine (List.mem_filter (p := fun resp => decide (36 ≤ resp.length))).mp ?_ |>.1
        rw [hsublist.eq_of_length hlength]
        exact List.mem_filter.mpr ⟨hresp, by simpa using h36⟩
      have hgood := (List.mem_filter.mp hmem).2
      by_contra hcode
      have hbad : isErrorReply resp = true := decide_eq_true ⟨by omega, hcode⟩
      rw [hbad] at hgood
      cases hgood
  · rintro (hnone | ⟨resp, hresp, p, hp, hover⟩)
    · refine StatusParser.parse_withoutErrors fun resp hresp herror => ?_
      rw [StatusParser.entries_error herror, if_neg]
      intro h36
      exact (of_decide_eq_true herror).2 (hnone resp hresp h36.1)
    · -- the loop fails at the same response in both lists
      obtain ⟨g, hg⟩ := Outcome.mapM_filter (q := fun resp => !isErrorReply resp)
        (f := parser.entries) (l := responses) fun resp _ herror => by
          rw [StatusParser.entries_error (by simpa using herror)]
          exact Outcome.returns_ok _
      have hfails : ¬ (responses.mapM parser.entries).Returns := by
        intro hreturns
        have hresp' := Outcome.returns_mapM.mp hreturns resp hresp
        exact (parser.entries_returns_iff resp).mp hresp' p hp hover
      rw [parser.parse_eq_mapM, parser.parse_eq_mapM, withoutErrors, hg]
      cases hrun : responses.mapM parser.entries with
      | ok bss =>
          rw [hrun] at hfails
          exact absurd (Outcome.returns_ok bss) hfails
      | raised e => rfl
      | undefined => rfl
      | pending => rfl

end Errors

/-! ### The eight parsers -/

/-- Leaving out the error replies leaves the result unchanged. -/
def Unchanged {α : Type} (parse : List Bytes → Parse (List α)) (responses : List Bytes) : Prop :=
  parse (withoutErrors responses) = parse responses

/-- The parsers that keep no record without a name. -/
structure NamedUnchanged (responses : List Bytes) : Prop where
  channel : Unchanged parseChannelStatusResponse responses
  topic : Unchanged parseTopicStatusResponse responses
  sub : Unchanged parseSubStatusResponse responses
  clusterQmgr : Unchanged parseClusterQmgrResponse responses
  queueOnline : Unchanged parseQueueOnlineStatusResponse responses

/-- The parsers that keep every record. -/
structure UnnamedUnchanged (responses : List Bytes) : Prop where
  qmgr : Unchanged parseQmgrStatusResponse responses
  usageBp : Unchanged parseUsageBpResponse responses
  usagePs : Unchanged parseUsagePsResponse responses

instance {α : Type} [DecidableEq α] (parse : List Bytes → Parse (List α))
    (responses : List Bytes) : Decidable (Unchanged parse responses) :=
  inferInstanceAs (Decidable (_ = _))

theorem unchanged_of_drops {α : Type} {parser : StatusParser α}
    (h : parser.keeps parser.empty = false) (responses : List Bytes) :
    Unchanged parser.parse responses := by
  refine StatusParser.parse_withoutErrors fun resp _ herror => ?_
  rw [StatusParser.entries_error herror, if_neg]
  rintro ⟨-, hkeeps⟩
  rw [h] at hkeeps
  cases hkeeps

/-- A parser of numbers never overruns. -/
theorem not_overruns_of_numbers {α : Type} {parser : StatusParser α}
    (hs : parser.strings.isEmpty = true) (hl : parser.integerLists.isEmpty = true)
    (p : ResponseParam) : ¬ parser.Overruns p := by
  rintro (⟨h, -, -⟩ | ⟨h, -, -⟩)
  · rw [hs] at h
    cases h
  · rw [hl] at h
    cases h

/-- Error replies contribute nothing to the parsers that keep no record without a name,
and to all eight if and only if there are none. -/
theorem errorReplies_unchanged_iff (responses : List Bytes) :
    NamedUnchanged responses ∧
      (UnnamedUnchanged responses ↔ NoErrorReply responses) ∧
      (Unchanged parseQmgrStatusResponse responses ↔
        NoErrorReply responses ∨
          ∃ resp ∈ responses, ∃ p ∈ responseParams resp, p.paramType = 4 ∧ StringWraps p) := by
  have hqmgr : Unchanged parseQmgrStatusResponse responses ↔
      NoErrorReply responses ∨
        ∃ resp ∈ responses, ∃ p ∈ responseParams resp, p.paramType = 4 ∧ StringWraps p := by
    have h := qmgrStatusParser.parse_withoutErrors_iff (fun _ => rfl) responses
    simpa [Unchanged, parseQmgrStatusResponse, StatusParser.Overruns, qmgrStatusParser] using h
  have hnumbers {α : Type} (parser : StatusParser α) (hkeeps : ∀ a, parser.keeps a = true)
      (hs : parser.strings.isEmpty = true) (hl : parser.integerLists.isEmpty = true) :
      Unchanged parser.parse responses ↔ NoErrorReply responses := by
    refine (parser.parse_withoutErrors_iff hkeeps responses).trans (or_iff_left ?_)
    rintro ⟨resp, -, p, -, hover⟩
    exact not_overruns_of_numbers hs hl p hover
  have hbp : Unchanged parseUsageBpResponse responses ↔ NoErrorReply responses :=
    hnumbers usageBpParser (fun _ => rfl) rfl rfl
  have hps : Unchanged parseUsagePsResponse responses ↔ NoErrorReply responses :=
    hnumbers usagePsParser (fun _ => rfl) rfl rfl
  refine ⟨⟨unchanged_of_drops rfl _, unchanged_of_drops rfl _, unchanged_of_drops rfl _,
    unchanged_of_drops rfl _, unchanged_of_drops rfl _⟩, ?_, hqmgr⟩
  constructor
  · intro h
    exact hbp.mp h.usageBp
  · intro h
    exact ⟨hqmgr.mpr (.inl h), hbp.mpr h, hps.mpr h⟩

/-- A header with a CompCode of two. -/
def failedReply : Bytes := List.replicate 24 0 ++ (encodeInt32 2 ++ List.replicate 8 0)

/-- A failed inquiry becomes a queue manager, a buffer pool and a page set. -/
theorem not_errorReplies_unchanged :
    ¬ (∀ responses, Unchanged parseQmgrStatusResponse responses) ∧
      ¬ (∀ responses, Unchanged parseUsageBpResponse responses) ∧
      ¬ ∀ responses, Unchanged parseUsagePsResponse responses := by
  refine ⟨fun h => ?_, fun h => ?_, fun h => ?_⟩ <;>
    exact absurd (h [failedReply]) (by decide +kernel)

end IbmmqExporter.Pcf
