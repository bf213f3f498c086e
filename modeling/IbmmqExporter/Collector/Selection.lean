/-
  Collector/Selection.lean --- the queues of `setup_after_connect` and those of
  `get_queues_to_monitor`.

  Both ask `discover_queues` about the patterns of `monitored_queues`.  What they do
  with the answers is written twice: `setup_after_connect` takes the names as they
  are, and `get_queues_to_monitor` filters them and falls back to others.

  WHAT THE FILE PROVES.  When the two select the same queues: when nothing that is
  found is excluded, and something is found.
-/
import IbmmqExporter.Collector.Steps
import IbmmqExporter.Metrics.Selection

set_option autoImplicit false

namespace IbmmqExporter.Collector

open Foundation Mq
open Metrics (SelectionConfig queueMatchesExclusion)

/-! ## Methods with the discovery as a parameter -/

/-- The configuration with the part that `get_queues_to_monitor` reads. -/
structure QueueConfig extends base : Config where
  monitorAllQueues : Bool := true
  queueExclusionPatterns : List Bytes := []

/-- The part that `get_queues_to_monitor` reads. -/
def QueueConfig.selection (cfg : QueueConfig) : SelectionConfig :=
  { monitorAllQueues := cfg.monitorAllQueues, monitoredQueues := cfg.monitoredQueues,
    queueExclusionPatterns := cfg.queueExclusionPatterns }

/-- `discoverMonitored`, with the method that discovers queues. -/
def discoverMonitoredBy (discover : Bytes → Program (List Bytes)) (patterns : List Bytes) :
    Program Unit :=
  Effect.forEach patterns fun pattern => Effect.when (isExcluding pattern = false) do
    let qs ← discover pattern
    Effect.modify fun o => { o with discoveredQueues := o.discoveredQueues ++ qs }

/-- What `setup_after_connect` does before it discovers queues. -/
def openAndSubscribe (cfg : Config) : Program Unit := do
  Effect.tryCatch (client (openStatsQueue cfg.statsQueue)) fun _ => return
  Effect.tryCatch (client (openAccountingQueue cfg.accountingQueue)) fun _ => return
  Effect.forEach cfg.monitoredTopics fun topic => do
    let _ ← client (subscribeToTopic topic)

/-- `setupAfterConnect`, with the method that discovers queues. -/
def setupAfterConnectBy (discover : Bytes → Program (List Bytes)) (cfg : Config) :
    Program Unit := do
  openAndSubscribe cfg
  discoverMonitoredBy discover cfg.monitoredQueues
  Effect.when (cfg.usePublications = true) (setupMonitor cfg)

theorem setupAfterConnect_eq (cfg : Config) :
    setupAfterConnect cfg =
      setupAfterConnectBy (fun pattern => client (discoverQueues pattern)) cfg := by
  unfold setupAfterConnect setupAfterConnectBy openAndSubscribe
  rw [bind_assoc]
  apply bind_congr
  intro
  rw [bind_assoc]
  rfl

/-- A discovery whose answers are fixed. -/
def fixedAnswers {σ : Type} (answer : Bytes → List Bytes) (pattern : Bytes) :
    Effect σ StdException (List Bytes) := return answer pattern

/-! ## What the two select -/

/-- The names that the patterns find. -/
def namedQueues (answer : Bytes → List Bytes) (patterns : List Bytes) : List Bytes :=
  (patterns.filter fun pattern => !isExcluding pattern).flatMap answer

section Discovered

variable {answer : Bytes → List Bytes} {cfg : Config} {o o' : Objects}

/-- The methods in front of the discovery leave the discovered queues alone. -/
theorem preserves_discovered_client {α : Type} (c : Method α) :
    Effect.Preserves Objects.discoveredQueues (client c) := fun _ => rfl

theorem preserves_discovered_openAndSubscribe (cfg : Config) :
    Effect.Preserves Objects.discoveredQueues (openAndSubscribe cfg) := by
  unfold openAndSubscribe
  refine ((preserves_discovered_client _).tryCatch fun _ => Effect.preserves_pure ()).bind ?_
  intro
  refine ((preserves_discovered_client _).tryCatch fun _ => Effect.preserves_pure ()).bind ?_
  intro
  refine Effect.preserves_forEach fun topic _ => ?_
  exact (preserves_discovered_client _).bind fun _ => Effect.preserves_pure ()

theorem preserves_discovered_monitor {α : Type} (absent : α) (c : Monitor.Program α) :
    Effect.Preserves Objects.discoveredQueues (monitor absent c) := by
  intro o
  unfold monitor
  split
  · rfl
  · rfl

theorem monitorAside_discoveredQueues : MonitorAside Objects.discoveredQueues where
  close := preserves_discovered_monitor () _
  discover := preserves_discovered_monitor false _
  createSubscriptions _ := preserves_discovered_monitor false _
  assign _ _ := rfl

/-- The discovery with fixed answers appends the names that the patterns find. -/
theorem discoverMonitoredBy_fixed (answer : Bytes → List Bytes) (patterns : List Bytes)
    (o : Objects) :
    discoverMonitoredBy (fixedAnswers answer) patterns o =
      (.ok (), { o with
        discoveredQueues := o.discoveredQueues ++ namedQueues answer patterns }) := by
  unfold discoverMonitoredBy
  induction patterns generalizing o with
  | nil =>
      unfold namedQueues
      rw [List.filter_nil, List.flatMap_nil, List.append_nil]
      rfl
  | cons pattern patterns ih =>
      rw [Effect.forEach_cons]
      cases hex : isExcluding pattern with
      | true =>
          rw [Effect.when_neg (by decide), pure_bind, ih]
          unfold namedQueues
          rw [List.filter_cons_of_neg (by simp [hex])]
      | false =>
          rw [Effect.when_pos rfl]
          refine (Effect.bind_of_ok rfl).trans ((ih _).trans ?_)
          unfold namedQueues
          rw [List.filter_cons_of_pos (by simp [hex]), List.flatMap_cons, List.append_assoc]

/-- `setup_after_connect` on a fresh collector discovers the names that the patterns
find. -/
theorem setupAfterConnectBy_fixed (hfresh : o.discoveredQueues = [])
    (hsetup : setupAfterConnectBy (fixedAnswers answer) cfg o = (.ok (), o')) :
    o'.discoveredQueues = namedQueues answer cfg.monitoredQueues := by
  have hopen := preserves_discovered_openAndSubscribe cfg o
  unfold setupAfterConnectBy at hsetup
  rw [Effect.bind_apply] at hsetup
  rcases hrun : openAndSubscribe cfg o with ⟨outcome, o₁⟩
  rw [hrun] at hsetup hopen
  cases outcome with
  | ok a =>
      dsimp only at hsetup hopen
      rw [Effect.bind_of_ok (discoverMonitoredBy_fixed answer cfg.monitoredQueues o₁), hopen,
        hfresh, List.nil_append] at hsetup
      have hmonitor := Effect.preserves_when (p := cfg.usePublications = true)
        (preserves_setupMonitor_of monitorAside_discoveredQueues cfg)
        { o₁ with discoveredQueues := namedQueues answer cfg.monitoredQueues }
      rw [hsetup] at hmonitor
      exact hmonitor
  | raised e => cases hsetup
  | undefined => cases hsetup
  | pending => cases hsetup

end Discovered

/-- `get_queues_to_monitor` with fixed answers. -/
theorem selectQueues_fixed {σ : Type} (answer : Bytes → List Bytes) (cfg : SelectionConfig)
    (s : σ) :
    (Metrics.selectQueues (fixedAnswers answer) cfg s).1 =
      .ok (cfg.select
        (if namedQueues answer cfg.monitoredQueues ≠ [] then
          namedQueues answer cfg.monitoredQueues
        else answer (ascii "*"))) := by
  have hloop (patterns found : List Bytes) :
      (Metrics.discoverPatterns (fixedAnswers answer) patterns found :
        Effect σ StdException (List Bytes)) = pure (found ++ namedQueues answer patterns) := by
    induction patterns generalizing found with
    | nil =>
        unfold namedQueues Metrics.discoverPatterns
        rw [List.filter_nil, List.flatMap_nil, List.append_nil]
    | cons pattern patterns ih =>
        unfold Metrics.discoverPatterns
        cases hex : Metrics.isNegated pattern with
        | true =>
            have hex' : isExcluding pattern = true := hex
            rw [if_pos rfl, ih]
            unfold namedQueues
            rw [List.filter_cons_of_neg (by simp [hex'])]
        | false =>
            have hex' : isExcluding pattern = false := hex
            rw [if_neg (by decide)]
            unfold fixedAnswers at ih ⊢
            rw [pure_bind, ih]
            unfold namedQueues
            rw [List.filter_cons_of_pos (by simp [hex']), List.flatMap_cons, List.append_assoc]
  rw [Metrics.selectQueues_eq]
  apply Effect.map_fst_eq_ok.mpr
  unfold Metrics.foundQueues
  split
  · next hoff =>
      refine ⟨[], rfl, ?_⟩
      unfold SelectionConfig.select
      rw [if_pos hoff, if_pos hoff]
  · rw [hloop, pure_bind, List.nil_append]
    split
    · exact ⟨_, rfl, rfl⟩
    · exact ⟨_, rfl, rfl⟩

/-! ## Agreement -/

/-- The queues that `get_queues_to_monitor` returns. -/
def selects (answer : Bytes → List Bytes) (cfg : QueueConfig) (o : Objects) (q : Bytes) : Prop :=
  ∃ queues, (Metrics.selectQueues (fixedAnswers answer) cfg.selection o.metrics).1 = .ok queues ∧
    q ∈ queues

/-- What is asked of the collector behind `setup_after_connect`: the discovered queues
are those that `get_queues_to_monitor` selects, and none of them is excluded. -/
structure SelectionsAgree (answer : Bytes → List Bytes) (cfg : QueueConfig) (o : Objects) :
    Prop where
  same : ∀ q, q ∈ o.discoveredQueues ↔ selects answer cfg o q
  exclusion : ∀ q ∈ o.discoveredQueues, queueMatchesExclusion q cfg.queueExclusionPatterns = false

/-- Nothing is asked for; or the patterns find something that is not excluded; or they
find nothing, and everything there is is excluded. -/
def SameSelection (answer : Bytes → List Bytes) (cfg : QueueConfig) : Prop :=
  (cfg.monitorAllQueues = false ∧ cfg.monitoredQueues = []) ∨
  (namedQueues answer cfg.monitoredQueues ≠ [] ∧
    ∀ q ∈ namedQueues answer cfg.monitoredQueues,
      queueMatchesExclusion q cfg.queueExclusionPatterns = false) ∨
  (namedQueues answer cfg.monitoredQueues = [] ∧ answer (ascii "*") ≠ [] ∧
    ∀ q ∈ answer (ascii "*"), queueMatchesExclusion q cfg.queueExclusionPatterns = true)

section Agreement

variable {answer : Bytes → List Bytes} {cfg : QueueConfig} {o o' : Objects}

theorem selects_iff {q : Bytes} :
    selects answer cfg o q ↔ q ∈ cfg.selection.select
      (if namedQueues answer cfg.monitoredQueues ≠ [] then
        namedQueues answer cfg.monitoredQueues
      else answer (ascii "*")) := by
  have hselect := selectQueues_fixed answer cfg.selection o.metrics
  constructor
  · rintro ⟨queues, hqueues, hq⟩
    obtain rfl := Outcome.ok.inj (hselect.symm.trans hqueues)
    exact hq
  · exact fun hq => ⟨_, hselect, hq⟩

theorem mem_withoutExcluded {cfg : SelectionConfig} {queues : List Bytes} {q : Bytes} :
    q ∈ cfg.withoutExcluded queues ↔
      q ∈ queues ∧ queueMatchesExclusion q cfg.queueExclusionPatterns = false := by
  unfold SelectionConfig.withoutExcluded
  rw [List.mem_filter, Bool.not_eq_true']

theorem select_off (h : cfg.monitorAllQueues = false ∧ cfg.monitoredQueues = [])
    (found : List Bytes) : cfg.selection.select found = [] := if_pos h

theorem select_on (h : ¬ (cfg.monitorAllQueues = false ∧ cfg.monitoredQueues = []))
    (found : List Bytes) : cfg.selection.select found =
      if found ≠ [] then cfg.selection.withoutExcluded found else Metrics.systemQueues :=
  if_neg h

/-- Where the patterns find something, it is selected unless it is excluded. -/
theorem selects_of_named (hnamed : namedQueues answer cfg.monitoredQueues ≠ []) {q : Bytes} :
    selects answer cfg o q ↔ q ∈ namedQueues answer cfg.monitoredQueues ∧
      queueMatchesExclusion q cfg.queueExclusionPatterns = false := by
  have hasked : ¬ (cfg.monitorAllQueues = false ∧ cfg.monitoredQueues = []) := by
    rintro ⟨-, hnone⟩
    rw [hnone] at hnamed
    exact hnamed rfl
  rw [selects_iff, if_pos hnamed, select_on hasked, if_pos hnamed, mem_withoutExcluded]
  rfl

/-- Where they find nothing, nothing is selected if and only if there is something and
all of it is excluded. -/
theorem selects_none_iff (hnamed : namedQueues answer cfg.monitoredQueues = [])
    (hasked : ¬ (cfg.monitorAllQueues = false ∧ cfg.monitoredQueues = [])) :
    (∀ q, ¬ selects answer cfg o q) ↔ answer (ascii "*") ≠ [] ∧
      ∀ q ∈ answer (ascii "*"), queueMatchesExclusion q cfg.queueExclusionPatterns = true := by
  have hselects (q : Bytes) :
      selects answer cfg o q ↔ q ∈ cfg.selection.select (answer (ascii "*")) := by
    rw [selects_iff, if_neg (not_not.mpr hnamed)]
  simp only [hselects, select_on hasked]
  constructor
  · intro hnone
    have hall : answer (ascii "*") ≠ [] := by
      intro hall
      refine hnone (ascii "SYSTEM.ADMIN.STATISTICS.QUEUE") ?_
      rw [hall]
      exact List.mem_cons_self
    refine ⟨hall, fun q hq => Bool.eq_true_of_not_eq_false fun hkept => hnone q ?_⟩
    rw [if_pos hall]
    exact mem_withoutExcluded.mpr ⟨hq, hkept⟩
  · rintro ⟨hall, hexcluded⟩ q hq
    rw [if_pos hall] at hq
    obtain ⟨hq, hkept⟩ := mem_withoutExcluded.mp hq
    exact absurd ((hexcluded q hq).symm.trans hkept) Bool.noConfusion

/-- The two selections agree if and only if what is found makes no difference. -/
theorem selectionsAgree_iff (hfresh : o.discoveredQueues = [])
    (hsetup : setupAfterConnectBy (fixedAnswers answer) cfg.base o = (.ok (), o')) :
    SelectionsAgree answer cfg o' ↔ SameSelection answer cfg := by
  have hqueues := setupAfterConnectBy_fixed hfresh hsetup
  by_cases hasked : cfg.monitorAllQueues = false ∧ cfg.monitoredQueues = []
  · refine iff_of_true ⟨fun q => ?_, fun q hq => ?_⟩ (Or.inl hasked)
    · rw [hqueues, hasked.2, selects_iff, select_off hasked]
      rfl
    · rw [hqueues, hasked.2] at hq
      exact absurd hq List.not_mem_nil
  by_cases hnamed : namedQueues answer cfg.monitoredQueues = []
  · -- nothing has been discovered, so nothing may be selected
    have hnone := selects_none_iff (o := o') hnamed hasked
    constructor
    · rintro ⟨hsame, -⟩
      refine Or.inr (Or.inr ⟨hnamed, hnone.mp fun q hq => ?_⟩)
      have hmem := (hsame q).mpr hq
      rw [hqueues, hnamed] at hmem
      exact absurd hmem List.not_mem_nil
    · rintro (hoff | ⟨hsome, -⟩ | ⟨-, hexcluded⟩)
      · exact absurd hoff hasked
      · exact absurd hnamed hsome
      · refine ⟨fun q => ?_, fun q hq => ?_⟩
        · rw [hqueues, hnamed]
          exact iff_of_false List.not_mem_nil (hnone.mpr hexcluded q)
        · rw [hqueues, hnamed] at hq
          exact absurd hq List.not_mem_nil
  · constructor
    · rintro ⟨-, hexclusion⟩
      rw [hqueues] at hexclusion
      exact Or.inr (Or.inl ⟨hnamed, hexclusion⟩)
    · rintro (hoff | ⟨-, hkept⟩ | ⟨hnone, -⟩)
      · exact absurd hoff hasked
      · refine ⟨fun q => ?_, ?_⟩
        · rw [hqueues, selects_of_named hnamed]
          exact (and_iff_left_of_imp (hkept q)).symm
        · rw [hqueues]
          exact hkept
      · exact absurd hnone hnamed

end Agreement

/-- A configuration that asks for all queues and excludes those of the system. -/
def excludingSystem : QueueConfig :=
  { queueManager := ascii "QM1", monitoredQueues := [ascii "*"]
    queueExclusionPatterns := [ascii "SYSTEM.*"] }

/-- The objects of a collector that has connected to a queue manager, which opens both
queues and refuses the subscription to the metadata. -/
def connectedObjects : Objects :=
  { metrics := { session :=
      { mqi := { supply := [{ cc := .ok }, { cc := .ok }, { cc := .failed }] }
        client := { config := excludingSystem.base.mq, connected := true } } } }

/-- What `setup_after_connect` leaves of these objects. -/
def setUpObjects (answer : Bytes → List Bytes) : Objects :=
  (setupAfterConnectBy (fixedAnswers answer) excludingSystem.base connectedObjects).2

theorem setUpObjects_ok (answer : Bytes → List Bytes) :
    setupAfterConnectBy (fixedAnswers answer) excludingSystem.base connectedObjects =
      (.ok (), setUpObjects answer) := by
  rfl

theorem selectionsAgree_iff_application :
    SelectionsAgree (fun _ => [ascii "APP.ORDERS"]) excludingSystem
        (setUpObjects fun _ => [ascii "APP.ORDERS"]) ↔
      SameSelection (fun _ => [ascii "APP.ORDERS"]) excludingSystem :=
  selectionsAgree_iff rfl (setUpObjects_ok _)

/-- Where the queue manager has a queue `SYSTEM.TEST`, it is discovered in spite of its
exclusion. -/
theorem not_selectionsAgree_systemQueue :
    ¬ ∀ (answer : Bytes → List Bytes) (cfg : QueueConfig) (o o' : Objects),
      o.discoveredQueues = [] →
        setupAfterConnectBy (fixedAnswers answer) cfg.base o = (.ok (), o') →
          SelectionsAgree answer cfg o' := by
  intro h
  have hagree := h (fun _ => [ascii "SYSTEM.TEST"]) excludingSystem connectedObjects _ rfl
    (setUpObjects_ok _)
  have hmem : ascii "SYSTEM.TEST" ∈
      (setUpObjects fun _ => [ascii "SYSTEM.TEST"]).discoveredQueues := by
    rw [setupAfterConnectBy_fixed rfl (setUpObjects_ok _)]
    exact List.mem_singleton_self _
  exact absurd (hagree.exclusion _ hmem) (by decide)

end IbmmqExporter.Collector
