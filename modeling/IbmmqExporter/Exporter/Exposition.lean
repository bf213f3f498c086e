/-
  Exporter/Exposition.lean --- what a scrape of the exporter finds.

  The registry of the process is exposed as it is at any time: under the name of its
  family, each series with its labels.

  WHAT THE FILE PROVES.  In every state of a run a family's series have one set of label
  names, with the metadata, but for the five families that the queue manager's status
  shares with publications, which have two; and a name and labels belong to one series
  (`run_exposed`).
-/
import IbmmqExporter.Exporter.HandleGauges
import IbmmqExporter.Metrics.Exposition

set_option autoImplicit false

namespace IbmmqExporter.Exporter

open Foundation Mq
open Metrics (Family Labels LabelName Measurement Registry exposedName)

/-- The labels that the metadata add to every series. -/
def tagNames (cfg : Metrics.Config) : List LabelName :=
  (cfg.metadataTags.zip cfg.metadataValues).map Prod.fst

/-- The labels have the names of a list, and those of the metadata. -/
def HasNames (cfg : Metrics.Config) (names : List LabelName) (ls : Labels) : Prop :=
  ∀ n, n ∈ ls ↔ n ∈ names ∨ n ∈ tagNames cfg

/-- What is asked of a scrape under a prefix: a series is known by its name and its
labels, the names of its labels are those of its family, and but for the families that
the status of the queue manager shares with publications they are the same for all the
series of a family. -/
structure Exposed (cfg : Metrics.Config) (pre : Bytes) (r : Registry) : Prop where
  apart : ∀ f ls f' ls', r f ls ≠ none → r f' ls' ≠ none →
    exposedName pre f = exposedName pre f' → ls = ls' → (f, ls) = (f', ls')
  labelled : ∀ f ls, r f ls ≠ none → ∃ names ∈ f.schemas, HasNames cfg names ls
  uniform : ∀ f ls ls', r f ls ≠ none → r f ls' ≠ none →
    (∀ name ∈ Metrics.statusNames, f ≠ .qmgr name) → ls.keys = ls'.keys

section Names

variable {cfg : Metrics.Config}

theorem isSome_lookup_iff {κ ν : Type} [BEq κ] [LawfulBEq κ] (l : List (κ × ν)) (k : κ) :
    (l.lookup k).isSome = true ↔ k ∈ l.map Prod.fst := by
  induction l with
  | nil => simp
  | cons e l ih =>
      rw [List.lookup_cons, List.map_cons, List.mem_cons]
      cases hk : k == e.1 with
      | true => simp [eq_of_beq hk]
      | false => simp [ne_of_beq_false hk, ih]

/-- The labels of a measurement. -/
theorem hasNames_series (x : Measurement) :
    HasNames cfg ((x.entries cfg.origin).map Prod.fst) (cfg.series x) := by
  intro n
  have htags : (lastValue (cfg.metadataTags.zip cfg.metadataValues) n).isSome = true ↔
      n ∈ tagNames cfg := by
    unfold lastValue tagNames
    rw [isSome_lookup_iff, List.map_reverse, List.mem_reverse]
  rw [← Finmap.lookup_isSome, lookup_series_eq, Option.isSome_or, Bool.or_eq_true, htags,
    isSome_lookup_iff]
  exact or_comm

/-- One set of names for a family with one schema. -/
theorem schemas_eq_singleton {f : Family} (h : ∀ name ∈ Metrics.statusNames, f ≠ .qmgr name) :
    ∃ names, f.schemas = [names] := by
  cases f with
  | qmgr name =>
      refine ⟨[Metrics.qmgrLabel, Metrics.platformLabel, Metrics.typeLabel], ?_⟩
      show _ :: (if _ then _ else _) = _
      rw [if_neg fun hname => h name (List.contains_iff_mem.mp hname) rfl]
  | _ => exact ⟨_, rfl⟩

theorem HasNames.keys_eq {names : List LabelName} {ls ls' : Labels} (h : HasNames cfg names ls)
    (h' : HasNames cfg names ls') : ls.keys = ls'.keys := by
  ext n
  rw [Finmap.mem_keys, Finmap.mem_keys, h n, h' n]

/-- A registry of measurements can be exposed. -/
theorem Recorded.exposed {cfg : Config} {r : Registry} (h : Recorded cfg r) (pre : Bytes) :
    Exposed cfg.metrics pre r := by
  have hlabelled (f : Family) (ls : Labels) (hls : r f ls ≠ none) :
      ∃ names ∈ f.schemas, HasNames cfg.metrics names ls := by
    obtain ⟨x, -, hwrites, rfl⟩ := h f ls hls
    exact ⟨_, Metrics.names_mem_schemas cfg.metrics.origin hwrites, hasNames_series x⟩
  refine ⟨fun f ls f' ls' _ _ hname hls => ?_, hlabelled, fun f ls ls' hls hls' hf => ?_⟩
  · rw [Metrics.exposedName_injective pre hname, hls]
  · obtain ⟨names, hnames⟩ := schemas_eq_singleton hf
    obtain ⟨n, hn, hhas⟩ := hlabelled f ls hls
    obtain ⟨n', hn', hhas'⟩ := hlabelled f ls' hls'
    rw [hnames] at hn hn'
    obtain rfl := List.mem_singleton.mp hn
    obtain rfl := List.mem_singleton.mp hn'
    exact hhas.keys_eq hhas'

end Names

/-- In a run the registry can be exposed at any time. -/
theorem run_exposed {cfg : Config} {supply : List Reply} {actions : List Action}
    {trace : List Step}
    (hrun : history (Process.step cfg) (Process.initial cfg supply) actions = some trace) :
    ∀ t ∈ trace, ∀ pre, Exposed cfg.metrics pre t.after.holdings.registry :=
  fun t ht => (run_recorded hrun t ht).exposed

/-- There are series to expose in `countedRun`. -/
theorem run_exposed_countedRun :
    ∃ trace, countedRun 1 0 = some trace ∧
      (∃ t ∈ trace, ∃ f ls, t.after.holdings.registry f ls ≠ none) ∧
      ∀ t ∈ trace, ∀ pre, Exposed countedQueue.metrics pre t.after.holdings.registry := by
  obtain ⟨trace, htrace, hany⟩ := (Option.any_eq_true _ _).mp countedRun_stale
  obtain ⟨t, ht, hstale⟩ := List.any_eq_true.mp hany
  obtain ⟨info, -, hcheck⟩ := (Option.any_eq_true _ _).mp hstale
  rw [Bool.and_eq_true, decide_eq_true_eq, decide_eq_true_eq] at hcheck
  refine ⟨trace, htrace, ⟨t, ht, .queueInputHandles,
    Metrics.handleLabels countedQueue.metrics (ascii "APP.A"), ?_⟩, run_exposed htrace⟩
  rw [hcheck.2]
  exact Option.some_ne_none 1

end IbmmqExporter.Exporter
