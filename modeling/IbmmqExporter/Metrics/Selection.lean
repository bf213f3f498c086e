/-
  Metrics/Selection.lean --- the queues that `MetricsCollector` monitors.

  `get_queues_to_monitor` asks `discover_queues` about each pattern, and falls back to
  all queues, and to two names that are built in.  What it finds goes through
  `queue_exclusion_patterns`.

  WHAT THE FILE PROVES.  A pattern that begins with `!` is passed over: it does not
  exclude anything.  So no queue that it names is selected only if what is found is
  excluded by other means.  The names that are built in do not go through
  `queue_exclusion_patterns`: an excluded queue is selected exactly when nothing is found
  and one of these names is excluded.
-/
import IbmmqExporter.Metrics.Messages
import IbmmqExporter.Mq.Discovery

set_option autoImplicit false

namespace IbmmqExporter.Metrics

open Foundation Mq

/-! ## Patterns -/

/-- The comparison with a prefix in `matches_hlq_pattern`. -/
def hasQualifier (queueName qualifier : Bytes) : Bool :=
  decide (qualifier.length < queueName.length) &&
    queueName.take (qualifier.length + 1) == qualifier ++ ascii "."

/-- `matches_hlq_pattern`. -/
def matchesHlqPattern (queueName pattern : Bytes) : Bool :=
  if pattern = ascii "*" then true
  else if 2 < pattern.length ∧ pattern.drop (pattern.length - 2) = ascii ".*" then
    hasQualifier queueName (pattern.take (pattern.length - 2))
  else if 3 < pattern.length ∧ pattern.drop (pattern.length - 3) = ascii ".**" then
    hasQualifier queueName (pattern.take (pattern.length - 3))
  else queueName == pattern

/-- `queue_matches_exclusion`. -/
def queueMatchesExclusion (queueName : Bytes) (patterns : List Bytes) : Bool :=
  patterns.any fun p => matchesHlqPattern queueName p

/-- `!pattern.empty() && pattern[0] == '!'`. -/
def isNegated (pattern : Bytes) : Bool := (ascii "!").isPrefixOf pattern

/-! ## The selection -/

/-- The part of the configuration that `get_queues_to_monitor` reads. -/
structure SelectionConfig where
  monitorAllQueues : Bool := true
  monitoredQueues : List Bytes := []
  queueExclusionPatterns : List Bytes := []

/-- The names in `queues` that are not excluded. -/
def SelectionConfig.withoutExcluded (cfg : SelectionConfig) (queues : List Bytes) : List Bytes :=
  queues.filter fun q => !queueMatchesExclusion q cfg.queueExclusionPatterns

/-- The names that are built in. -/
def systemQueues : List Bytes :=
  [ascii "SYSTEM.ADMIN.STATISTICS.QUEUE", ascii "SYSTEM.ADMIN.ACCOUNTING.QUEUE"]

section Selection

variable {σ : Type} (discover : Bytes → Effect σ StdException (List Bytes))

/-- The loop over the patterns, from the names found so far. -/
def discoverPatterns : List Bytes → List Bytes → Effect σ StdException (List Bytes)
  | [], allQueues => return allQueues
  | pattern :: patterns, allQueues =>
      if isNegated pattern then discoverPatterns patterns allQueues
      else do
        let qs ← discover pattern
        discoverPatterns patterns (allQueues ++ qs)

/-- `get_queues_to_monitor`, with the method that discovers queues. -/
def selectQueues (cfg : SelectionConfig) : Effect σ StdException (List Bytes) := do
  if cfg.monitorAllQueues = false ∧ cfg.monitoredQueues = [] then return []
  else
    let allQueues ← discoverPatterns discover cfg.monitoredQueues []
    if allQueues ≠ [] then return cfg.withoutExcluded allQueues
    else
      let allQueues ← discover (ascii "*")
      if allQueues ≠ [] then return cfg.withoutExcluded allQueues
      else return systemQueues

/-- The names that the last discovery of `selectQueues` has found. -/
def foundQueues (cfg : SelectionConfig) : Effect σ StdException (List Bytes) := do
  if cfg.monitorAllQueues = false ∧ cfg.monitoredQueues = [] then return []
  else
    let allQueues ← discoverPatterns discover cfg.monitoredQueues []
    if allQueues ≠ [] then return allQueues
    else discover (ascii "*")

end Selection

/-- `MetricsCollector::get_queues_to_monitor`. -/
def getQueuesToMonitor (cfg : SelectionConfig) : Collect (List Bytes) :=
  selectQueues (fun pattern => session (discoverQueues pattern)) cfg

/-- What `selectQueues` makes of the names that have been found. -/
def SelectionConfig.select (cfg : SelectionConfig) (found : List Bytes) : List Bytes :=
  if cfg.monitorAllQueues = false ∧ cfg.monitoredQueues = [] then []
  else if found ≠ [] then cfg.withoutExcluded found
  else systemQueues

/-- The selection is made of what the last discovery has found. -/
theorem selectQueues_eq {σ : Type} (discover : Bytes → Effect σ StdException (List Bytes))
    (cfg : SelectionConfig) :
    selectQueues discover cfg = cfg.select <$> foundQueues discover cfg := by
  unfold selectQueues foundQueues
  by_cases hoff : cfg.monitorAllQueues = false ∧ cfg.monitoredQueues = []
  · rw [if_pos hoff, if_pos hoff]
    have hselect : cfg.select [] = [] := if_pos hoff
    rw [map_pure, hselect]
  · have hselect (found : List Bytes) : cfg.select found =
        if found ≠ [] then cfg.withoutExcluded found else systemQueues := if_neg hoff
    rw [if_neg hoff, if_neg hoff, map_bind]
    apply bind_congr
    intro allQueues
    by_cases hfound : allQueues ≠ []
    · rw [if_pos hfound, if_pos hfound, map_pure, hselect, if_pos hfound]
    · rw [if_neg hfound, if_neg hfound, ← bind_pure_comp]
      apply bind_congr
      intro found
      rw [hselect]
      exact (apply_ite pure _ _ _).symm

/-! ## Negated patterns -/

/-- A pattern with `!` names the queue. -/
def SelectionConfig.negates (cfg : SelectionConfig) (queueName : Bytes) : Bool :=
  cfg.monitoredQueues.any fun p => isNegated p && matchesHlqPattern queueName (p.drop 1)

/-- What is asked of the selection: it has no queue that a pattern with `!` names. -/
def HonoursNegation (cfg : SelectionConfig) (c : MetricsCollector) : Prop :=
  ∀ queues, (getQueuesToMonitor cfg c).1 = .ok queues →
    ∀ q ∈ queues, cfg.negates q = false

/-- The names that the deciding discovery of `get_queues_to_monitor` finds. -/
def discovered (cfg : SelectionConfig) : Collect (List Bytes) :=
  foundQueues (fun pattern => session (discoverQueues pattern)) cfg

/-- What is found is excluded as far as a pattern with `!` names it, and where nothing
is found no such pattern names a queue that is built in. -/
def ExcludedOtherwise (cfg : SelectionConfig) (c : MetricsCollector) : Prop :=
  ∀ found, (discovered cfg c).1 = .ok found →
    (∀ q ∈ found, cfg.negates q = true →
      queueMatchesExclusion q cfg.queueExclusionPatterns = true) ∧
    (found = [] → ∀ q ∈ systemQueues, cfg.negates q = false)

theorem SelectionConfig.select_negates_iff (cfg : SelectionConfig) (found : List Bytes) :
    (∀ q ∈ cfg.select found, cfg.negates q = false) ↔
      (∀ q ∈ found, cfg.negates q = true →
        queueMatchesExclusion q cfg.queueExclusionPatterns = true) ∧
      (found = [] → ∀ q ∈ systemQueues, cfg.negates q = false) := by
  unfold SelectionConfig.select
  split
  · next hoff =>
      have hnone (q : Bytes) : cfg.negates q = false := by
        unfold SelectionConfig.negates
        rw [hoff.2]
        rfl
      refine iff_of_true (fun _ h => absurd h List.not_mem_nil) ⟨fun q _ hq => ?_, fun _ q _ => ?_⟩
      · rw [hnone] at hq
        cases hq
      · exact hnone q
  · split
    · next hfound =>
        rw [and_iff_left fun h => absurd h hfound]
        unfold SelectionConfig.withoutExcluded
        constructor
        · intro h q hq hnegates
          by_contra hkept
          have hq' := h q (List.mem_filter.mpr ⟨hq, by simpa using hkept⟩)
          exact Bool.false_ne_true (hq'.symm.trans hnegates)
        · intro h q hq
          obtain ⟨hq, hkept⟩ := List.mem_filter.mp hq
          refine Bool.eq_false_of_not_eq_true fun hnegates => ?_
          rw [h q hq hnegates] at hkept
          cases hkept
    · next hfound =>
        rw [not_not.mp hfound]
        constructor
        · exact fun h => ⟨fun _ hq => absurd hq List.not_mem_nil, fun _ => h⟩
        · exact fun h => h.2 rfl

/-- Queues named by a pattern with `!` are left out if and only if they are excluded
otherwise. -/
theorem honoursNegation_iff (cfg : SelectionConfig) (c : MetricsCollector) :
    HonoursNegation cfg c ↔ ExcludedOtherwise cfg c := by
  unfold HonoursNegation ExcludedOtherwise getQueuesToMonitor discovered
  rw [selectQueues_eq]
  constructor
  · intro h found hfound
    exact (cfg.select_negates_iff found).mp (h _ (Effect.map_fst_eq_ok.mpr ⟨found, hfound, rfl⟩))
  · intro h queues hqueues
    obtain ⟨found, hfound, rfl⟩ := Effect.map_fst_eq_ok.mp hqueues
    exact (cfg.select_negates_iff found).mpr (h found hfound)

/-- The queues with the exception of the system queues, as the configuration file puts
it. -/
def allButSystem : SelectionConfig := { monitoredQueues := [ascii "*", ascii "!SYSTEM.*"] }

/-- A collector that is connected to a queue manager with one queue. -/
def facingQueue (qname : Bytes) : MetricsCollector :=
  { session := { mqi := { supply := discoveryReplies qname }, client := { connected := true } } }

theorem getQueuesToMonitor_systemQueue :
    (match (getQueuesToMonitor allButSystem (facingQueue (ascii "SYSTEM.TEST"))).1 with
      | .ok queues => decide (queues = [ascii "SYSTEM.TEST"])
      | _ => false) = true := by decide +kernel

/-- Of the queues but for `SYSTEM.*` a queue `SYSTEM.TEST` is selected. -/
theorem not_honoursNegation_systemQueue :
    ¬ ∀ (cfg : SelectionConfig) (c : MetricsCollector), HonoursNegation cfg c := by
  intro h
  have hrun := getQueuesToMonitor_systemQueue
  split at hrun
  · next queues hqueues =>
      have hmem : ascii "SYSTEM.TEST" ∈ queues := by
        rw [of_decide_eq_true hrun]
        exact List.mem_singleton_self _
      have hnot := h allButSystem (facingQueue (ascii "SYSTEM.TEST")) queues hqueues _ hmem
      exact absurd hnot (by decide)
  · cases hrun

/-! ## Exclusion patterns -/

/-- The queue is excluded. -/
def SelectionConfig.excludes (cfg : SelectionConfig) (queueName : Bytes) : Bool :=
  queueMatchesExclusion queueName cfg.queueExclusionPatterns

/-- What is asked of the selection: it has no queue that is excluded. -/
def HonoursExclusion (cfg : SelectionConfig) (c : MetricsCollector) : Prop :=
  ∀ queues, (getQueuesToMonitor cfg c).1 = .ok queues →
    ∀ q ∈ queues, cfg.excludes q = false

/-- Where the deciding discovery finds nothing, no queue is monitored or the names that
are built in are not excluded. -/
def FallbackAllowed (cfg : SelectionConfig) (c : MetricsCollector) : Prop :=
  (discovered cfg c).1 = .ok [] →
    (cfg.monitorAllQueues = false ∧ cfg.monitoredQueues = []) ∨
      ∀ q ∈ systemQueues, cfg.excludes q = false

theorem SelectionConfig.select_excludes_iff (cfg : SelectionConfig) (found : List Bytes) :
    (∀ q ∈ cfg.select found, cfg.excludes q = false) ↔
      (found = [] → (cfg.monitorAllQueues = false ∧ cfg.monitoredQueues = []) ∨
        ∀ q ∈ systemQueues, cfg.excludes q = false) := by
  unfold SelectionConfig.select
  split
  · next hoff => exact iff_of_true (fun _ h => absurd h List.not_mem_nil) fun _ => .inl hoff
  · next hon =>
      split
      · next hfound =>
          refine iff_of_true ?_ fun h => absurd h hfound
          intro q hq
          obtain ⟨-, hkept⟩ := List.mem_filter.mp hq
          simpa [SelectionConfig.excludes] using hkept
      · next hfound =>
          constructor
          · exact fun h _ => .inr h
          · intro h
            exact (h (not_not.mp hfound)).resolve_left hon

/-- No excluded queue is selected if and only if the fallback is not taken or names no
excluded queue. -/
theorem honoursExclusion_iff (cfg : SelectionConfig) (c : MetricsCollector) :
    HonoursExclusion cfg c ↔ FallbackAllowed cfg c := by
  unfold HonoursExclusion FallbackAllowed getQueuesToMonitor discovered
  rw [selectQueues_eq]
  constructor
  · intro h hfound
    exact (cfg.select_excludes_iff []).mp
      (h _ (Effect.map_fst_eq_ok.mpr ⟨[], hfound, rfl⟩)) rfl
  · intro h queues hqueues
    obtain ⟨found, hfound, rfl⟩ := Effect.map_fst_eq_ok.mp hqueues
    refine (cfg.select_excludes_iff found).mpr ?_
    rintro rfl
    exact h hfound

/-- All queues, with the exception of the system queues. -/
def systemExcluded : SelectionConfig :=
  { monitoredQueues := [ascii "*"], queueExclusionPatterns := [ascii "SYSTEM.*"] }

/-- A collector that is connected and may not open the model queue. -/
def withoutModelQueue : MetricsCollector :=
  { session := { mqi := { supply := [{ cc := .failed }, { cc := .failed }] }
                 client := { connected := true } } }

theorem getQueuesToMonitor_withoutModelQueue :
    (match (getQueuesToMonitor systemExcluded withoutModelQueue).1 with
      | .ok queues => decide (queues = systemQueues)
      | _ => false) = true := by decide +kernel

/-- Where discovery finds nothing, the excluded system queues are selected. -/
theorem not_honoursExclusion :
    ¬ ∀ (cfg : SelectionConfig) (c : MetricsCollector), HonoursExclusion cfg c := by
  intro h
  have hrun := getQueuesToMonitor_withoutModelQueue
  split at hrun
  · next queues hqueues =>
      have hmem : ascii "SYSTEM.ADMIN.STATISTICS.QUEUE" ∈ queues := by
        rw [of_decide_eq_true hrun]
        exact List.mem_cons_self
      have hnot := h systemExcluded withoutModelQueue queues hqueues _ hmem
      exact absurd hnot (by decide)
  · cases hrun

end IbmmqExporter.Metrics
