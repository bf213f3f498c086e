/-
  Collector/Queues.lean --- the list of the discovered queues in a run.

  `discover_queues` does not return a name twice, but `setup_after_connect` and the
  rediscovery append what it returns for one pattern to what it has returned for the
  others.  From the list `create_subscriptions` makes the subscriptions of a type.

  WHAT THE FILE PROVES.  A run sets up at most once.  So the list has no name twice,
  and no subscription is asked for twice, if and only if in each discovery of the run
  the patterns find different queues.
-/
import IbmmqExporter.Collector.Selection
import IbmmqExporter.Collector.Stop
import IbmmqExporter.Mq.Exceptions

set_option autoImplicit false

namespace IbmmqExporter.Collector

open Foundation Mq
open Monitor (typeTopics)

/-! ## The answers of a discovery -/

/-- What `discover_queues` returns for the patterns, one after the other. -/
def answersFrom : List Bytes → Session → List (List Bytes)
  | [], _ => []
  | pattern :: patterns, s =>
      if isExcluding pattern then answersFrom patterns s
      else
        match discoverQueues pattern s with
        | (.ok qs, s') => qs :: answersFrom patterns s'
        | _ => []

/-- A rediscovery that is due. -/
def Step.rediscovers (cfg : Config) (t : Step) : Bool :=
  match t.action with
  | .collector input =>
      decide (t.before.pc = .rediscovery ∧ 0 < cfg.rediscoverInterval ∧ input.due = true)
  | .main _ => false

/-- What `discover_queues` returns in a step of a run. -/
def Step.answers (cfg : Config) (t : Step) : List (List Bytes) :=
  match t.action, t.before.pc with
  | .collector _, .setup =>
      answersFrom cfg.monitoredQueues (openAndSubscribe cfg t.before.objects).2.session
  | .collector input, .rediscovery =>
      if 0 < cfg.rediscoverInterval ∧ input.due = true then
        answersFrom cfg.monitoredQueues t.before.objects.session
      else []
  | _, _ => []

/-- An answer has no name twice. -/
theorem nodup_of_mem_answersFrom {patterns : List Bytes} {s : Session} {qs : List Bytes}
    (h : qs ∈ answersFrom patterns s) : qs.Nodup := by
  induction patterns generalizing s with
  | nil => cases h
  | cons pattern patterns ih =>
      unfold answersFrom at h
      split at h
      · exact ih h
      · split at h
        · next qs' s' hrun =>
            rcases List.mem_cons.mp h with rfl | h
            · exact nodup_discoverQueues hrun
            · exact ih h
        · cases h

theorem nodup_of_mem_answers {cfg : Config} {t : Step} {qs : List Bytes}
    (h : qs ∈ t.answers cfg) : qs.Nodup := by
  unfold Step.answers at h
  split at h
  · exact nodup_of_mem_answersFrom h
  · split at h
    · exact nodup_of_mem_answersFrom h
    · cases h
  · cases h

section Discovery

variable {cfg : Config} {o : Objects}

/-- The loop over the patterns appends the answers. -/
theorem wp_discoverMonitored (patterns : List Bytes) (o : Objects) :
    Effect.wp (discoverMonitored patterns)
      (fun _ o' => o'.discoveredQueues =
        o.discoveredQueues ++ (answersFrom patterns o.session).flatten)
      (fun _ _ => False) o := by
  unfold discoverMonitored
  induction patterns generalizing o with
  | nil => exact (List.append_nil _).symm
  | cons pattern patterns ih =>
      rw [Effect.forEach_cons, Effect.wp_bind]
      unfold answersFrom
      cases hex : isExcluding pattern with
      | true =>
          rw [Effect.when_neg (by decide), Effect.wp_pure]
          exact ih o
      | false =>
          rw [Effect.when_pos rfl, if_neg (by decide), Effect.wp_bind]
          have hraise := neverRaises_discoverQueues pattern o.session
          unfold client Effect.wp
          rw [Effect.zoom_apply]
          rcases hrun : discoverQueues pattern o.session with ⟨outcome, s'⟩
          rw [hrun] at hraise
          cases outcome with
          | ok qs =>
              have hrest := ih { o.withSession s' with
                discoveredQueues := o.discoveredQueues ++ qs }
              refine Effect.wp_mono hrest (fun _ o' ho' => ?_) fun _ _ h => h
              rw [ho', List.flatten_cons, ← List.append_assoc]
              rfl
          | raised e => exact absurd rfl (hraise e)
          | undefined => trivial
          | pending => trivial

theorem neverRaises_openAndSubscribe (cfg : Config) :
    Effect.NeverRaises (openAndSubscribe cfg) := by
  unfold openAndSubscribe
  refine (Effect.neverRaises_tryCatch _ fun _ => Effect.neverRaises_pure ()).bind fun _ => ?_
  refine (Effect.neverRaises_tryCatch _ fun _ => Effect.neverRaises_pure ()).bind fun _ => ?_
  refine Effect.neverRaises_forEach fun topic _ => ?_
  exact (neverRaises_subscribeToTopic topic).zoom.bind fun _ => Effect.neverRaises_pure ()

/-- `setup_after_connect` appends the answers of its discovery. -/
theorem wp_setupAfterConnect (cfg : Config) (o : Objects) :
    Effect.wp (setupAfterConnect cfg)
      (fun _ o' => o'.discoveredQueues = o.discoveredQueues ++
        (answersFrom cfg.monitoredQueues (openAndSubscribe cfg o).2.session).flatten)
      (fun _ o' => o'.discoveredQueues = o.discoveredQueues ++
        (answersFrom cfg.monitoredQueues (openAndSubscribe cfg o).2.session).flatten) o := by
  rw [setupAfterConnect_eq]
  unfold setupAfterConnectBy
  have hopen : Effect.wp (openAndSubscribe cfg)
      (fun _ o₁ => o₁ = (openAndSubscribe cfg o).2) (fun _ _ => False) o :=
    (neverRaises_openAndSubscribe cfg).wp_state rfl
  refine Effect.wp_seq (Effect.wp_mono hopen (fun _ _ h => h) fun _ _ h => h.elim) ?_
  rintro _ o₁ rfl
  have hkept := preserves_discovered_openAndSubscribe cfg o
  have hloop := wp_discoverMonitored cfg.monitoredQueues (openAndSubscribe cfg o).2
  refine Effect.wp_seq (Effect.wp_mono hloop (fun _ _ h => h) fun _ _ h => h.elim) ?_
  intro _ o₂ ho₂
  have hmonitor := Effect.preserves_when (p := cfg.usePublications = true)
    (preserves_setupMonitor_of monitorAside_discoveredQueues cfg) o₂
  exact Effect.wp_of_state (hmonitor.trans (ho₂.trans (congrArg (· ++ _) hkept)))

theorem wp_rediscover (cfg : Config) (o : Objects) :
    Effect.wp (rediscover cfg)
      (fun _ o' => o'.discoveredQueues = (answersFrom cfg.monitoredQueues o.session).flatten)
      (fun _ o' => o'.discoveredQueues = (answersFrom cfg.monitoredQueues o.session).flatten)
      o := by
  unfold rediscover
  rw [Effect.wp_bind, Effect.wp_modify]
  refine Effect.wp_mono (wp_discoverMonitored cfg.monitoredQueues _) ?_ fun _ _ h => h.elim
  intro _ o' ho'
  exact ho'

end Discovery

/-! ## The invariant -/

/-- The places up to the first connection. -/
def Pc.early : Pc → Bool
  | .start | .serving | .loop | .loopEnd | .qmgr | .connect | .retry _ | .giveUp | .setup
  | .finished => true
  | _ => false

/-- The places from the collection on that do not lead back by a test of a flag. -/
def Pc.late : Pc → Bool
  | .collect | .first | .test | .sleep _ | .wake | .rediscovery | .cycle | .count | .once
  | .onceEnd | .finished | .failed => true
  | _ => false

/-- The places at which the flags decide whether `start` goes on. -/
def Pc.deciding : Pc → Bool
  | .left | .leftEnd | .loop | .loopEnd => true
  | _ => false

/-- Behind the first connection: the thread collects, or the flags keep it from
connecting again. -/
def Collecting (m : Machine) : Prop :=
  m.pc.late = true ∨ (m.running = false ∧ (m.pc = .left ∨ m.pc = .loop)) ∨
    (m.collectorEnd = true ∧ m.pc.deciding = true)

/-- The invariant of a run: nothing has been discovered before the first
connection. -/
def SetsUpOnce (m : Machine) : Prop :=
  (m.pc.early = true ∧ m.objects.discoveredQueues = []) ∨ Collecting m

section Steps

variable {cfg : Config} {m m' : Machine} {input : Input} {signal : Bool}

/-- The thread goes on where `running_` says so. -/
theorem collecting_unless {pc : Pc} (h : pc.late = true) :
    Collecting (m.goto (if m.running then pc else leave cfg)) := by
  cases hrunning : m.running with
  | true => exact Or.inl h
  | false =>
      show Collecting (m.goto (leave cfg))
      unfold leave
      split
      · exact Or.inr (Or.inl ⟨hrunning, Or.inl rfl⟩)
      · exact Or.inl rfl

/-- A thread that collects does not come back to the connection. -/
theorem Collecting.leads (h : Collecting m) : m.Leads cfg Collecting := by
  unfold Machine.Leads
  rcases h with hlate | ⟨hrunning, hpc | hpc⟩ | ⟨hend, hdeciding⟩
  · cases hat : m.pc with
    | collect | once => exact Or.inl (ite_place rfl rfl)
    | first | cycle => exact Or.inl rfl
    | test | wake => exact collecting_unless rfl
    | sleep n =>
        cases n with
        | zero => exact Or.inl rfl
        | succ n => exact collecting_unless rfl
    | rediscovery => exact ⟨Or.inl rfl, Or.inl rfl⟩
    | count =>
        refine ⟨?_, Or.inl rfl⟩
        unfold leave
        split
        · exact Or.inr (Or.inl ⟨rfl, Or.inl rfl⟩)
        · exact Or.inl rfl
    | onceEnd => exact Or.inr (Or.inr ⟨rfl, rfl⟩)
    | finished | failed => trivial
    | _ =>
        rw [hat] at hlate
        cases hlate
  · rw [hpc, hrunning]
    exact Or.inr (Or.inl ⟨hrunning, Or.inr rfl⟩)
  · rw [hpc, hrunning]
    exact Or.inl rfl
  · cases hat : m.pc with
    | left => exact Or.inr (Or.inr ⟨hend, ite_place rfl rfl⟩)
    | leftEnd =>
        rw [hend]
        exact Or.inr (Or.inr ⟨hend, rfl⟩)
    | loop =>
        cases hrunning : m.running with
        | true => exact Or.inr (Or.inr ⟨hend, rfl⟩)
        | false => exact Or.inl rfl
    | loopEnd =>
        rw [hend]
        exact Or.inl rfl
    | _ =>
        rw [hat] at hdeciding
        cases hdeciding

/-- Up to the first connection a thread sets up, and then it collects, or it does not
set up. -/
theorem early_leads (hpc : m.pc.early = true) :
    m.Leads cfg fun n => (n.pc.early = true ∧ m.pc ≠ .setup) ∨ Collecting n := by
  unfold Machine.Leads
  cases hat : m.pc with
  | start | loop | loopEnd => exact Or.inl ⟨ite_place rfl rfl, nofun⟩
  | serving => exact ⟨Or.inr (Or.inl rfl), Or.inl ⟨ite_place rfl rfl, nofun⟩⟩
  | qmgr =>
      cases hqmgr : m.connectedQmgr with
      | true => exact Or.inr (Or.inl rfl)
      | false => exact Or.inl ⟨rfl, nofun⟩
  | connect => exact ⟨Or.inl ⟨rfl, nofun⟩, Or.inl ⟨ite_place rfl rfl, nofun⟩⟩
  | retry n =>
      cases n with
      | zero => exact Or.inl ⟨rfl, nofun⟩
      | succ n => exact Or.inl ⟨ite_place rfl rfl, nofun⟩
  | giveUp => exact Or.inl ⟨rfl, nofun⟩
  | setup => exact ⟨Or.inr (Or.inl rfl), Or.inr (Or.inl rfl)⟩
  | finished => trivial
  | _ =>
      rw [hat] at hpc
      cases hpc

/-- A step of the main thread. -/
theorem SetsUpOnce.mainStep (h : SetsUpOnce m) (hstep : m.mainStep signal = some m') :
    SetsUpOnce m' ∧ m'.objects.discoveredQueues = m.objects.discoveredQueues := by
  have hqueues : m'.objects.discoveredQueues = m.objects.discoveredQueues := by
    refine mainStep_within (R := Effect.Same Objects.discoveredQueues)
      (MainPc.program_within ?_ fun _ => ?_) hstep
    · exact (monitorAside_discoveredQueues.close.bind fun _ =>
        preserves_resetMonitor_of monitorAside_discoveredQueues).within
    · exact ((preserves_discovered_client disconnect).tryCatch
        fun _ => Effect.preserves_pure ()).within
  obtain ⟨hsame, hend⟩ := mainStep_place hstep
  refine ⟨?_, hqueues⟩
  unfold SetsUpOnce Collecting
  rw [hsame.pc, hqueues]
  rcases h with hearly | hlate | ⟨hlow, hat⟩ | ⟨hended, hat⟩
  · exact Or.inl hearly
  · exact Or.inr (Or.inl hlate)
  · exact Or.inr (Or.inr (Or.inl ⟨hsame.running hlow, hat⟩))
  · exact Or.inr (Or.inr (Or.inr ⟨hend hended, hat⟩))

theorem preserves_discovered_metrics {α : Type} (c : Metrics.Collect α) :
    Effect.Preserves Objects.discoveredQueues (metrics c) := fun _ => rfl

theorem preserves_discovered_collectMetrics (cfg : Config) (requests : List Request) :
    Effect.Preserves Objects.discoveredQueues (collectMetrics cfg requests) := by
  refine (preserves_discovered_metrics _).bind fun _ => Effect.preserves_forEach fun r _ => ?_
  refine Effect.Preserves.tryCatch ?_ fun _ => Effect.preserves_pure ()
  cases r with
  | getQueueInfo queueName =>
      exact (preserves_discovered_client _).bind fun _ => Effect.preserves_pure ()
  | sendPcfCommand cmd =>
      exact (preserves_discovered_client _).bind fun _ => Effect.preserves_pure ()
  | processPublications =>
      exact (preserves_discovered_monitor [] _).bind fun _ => Effect.preserves_pure ()
  | record f => exact preserves_discovered_metrics _

theorem preserves_discovered_renewClient (cfg : Config) :
    Effect.Preserves Objects.discoveredQueues (renewClient cfg) := by
  refine ((preserves_discovered_client disconnect).tryCatch
    fun _ => Effect.preserves_pure ()).bind fun _ => ?_
  refine (preserves_resetMonitor_of monitorAside_discoveredQueues).bind fun _ => ?_
  exact Effect.preserves_modify fun _ => rfl

/-- Away from the setup and the rediscovery a step of the collector's thread leaves the
list alone. -/
theorem collectorStep_discovered (hsetup : m.pc ≠ .setup)
    (hnot : Step.rediscovers cfg ⟨.collector input, m, m'⟩ = false)
    (hstep : m.collectorStep cfg input = some m') :
    m'.objects.discoveredQueues = m.objects.discoveredQueues := by
  refine collectorStep_within (R := Effect.Same Objects.discoveredQueues)
    (Pc.program_within ?_ ?_ ?_ ?_ ?_) hstep
  · exact fun _ => (preserves_discovered_client _).within
  · exact fun hat => absurd hat hsetup
  · exact fun _ => (preserves_discovered_collectMetrics cfg _).within
  · exact fun hat hdue => absurd ⟨hat, hdue⟩ (of_decide_eq_false hnot)
  · exact fun _ => (preserves_discovered_renewClient cfg).within

/-- A rediscovery leaves what it finds in the list. -/
theorem rediscovery_discovered {t : Step} (hre : t.rediscovers cfg = true)
    (hstep : t.before.step cfg t.action = some t.after) :
    t.after.objects.discoveredQueues = (t.answers cfg).flatten := by
  rcases t with ⟨action, m, m'⟩
  unfold Step.rediscovers at hre
  cases action with
  | main signal => cases hre
  | collector input =>
      obtain ⟨hpc, hdue⟩ := of_decide_eq_true hre
      have hcall : m.collectorStep cfg input = some m' := hstep
      dsimp only at hpc
      unfold Machine.collectorStep at hcall
      rw [hpc] at hcall
      dsimp only at hcall
      rw [if_pos hdue] at hcall
      unfold Step.answers
      dsimp only
      rw [hpc]
      dsimp only
      rw [if_pos hdue]
      rcases call_cases (wp_rediscover cfg m.objects) hcall with ⟨o, ho, rfl⟩ | ⟨o, ho, rfl⟩
      · exact ho
      · exact ho

/-- Away from the setup and the rediscovery nothing is discovered. -/
theorem answers_of_not (hsetup : m.pc ≠ .setup)
    (hnot : Step.rediscovers cfg ⟨.collector input, m, m'⟩ = false) :
    Step.answers cfg ⟨.collector input, m, m'⟩ = [] := by
  unfold Step.answers
  cases hat : m.pc with
  | setup => exact absurd hat hsetup
  | rediscovery => exact if_neg fun hdue => of_decide_eq_false hnot ⟨hat, hdue⟩
  | _ => rfl

/-- The thread sets up only where nothing has been discovered. -/
theorem SetsUpOnce.discovered_of_setup (h : SetsUpOnce m) (hat : m.pc = .setup) :
    m.objects.discoveredQueues = [] := by
  rcases h with ⟨-, hnone⟩ | hlate | ⟨-, hpc | hpc⟩ | ⟨-, hdeciding⟩
  · exact hnone
  · rw [hat] at hlate
    cases hlate
  · cases hat.symm.trans hpc
  · cases hat.symm.trans hpc
  · rw [hat] at hdeciding
    cases hdeciding

/-- A step of the collector's thread keeps the invariant. -/
theorem SetsUpOnce.of_collectorStep (h : SetsUpOnce m)
    (hstep : m.collectorStep cfg input = some m') : SetsUpOnce m' := by
  rcases h with ⟨hpc, hnone⟩ | hcollecting
  · rcases collectorStep_leads (early_leads hpc) hstep with ⟨hearly, hsetup⟩ | hcollecting
    · have hnot : Step.rediscovers cfg ⟨.collector input, m, m'⟩ = false := by
        refine decide_eq_false fun hdue => ?_
        rw [hdue.1] at hpc
        cases hpc
      exact Or.inl ⟨hearly, (collectorStep_discovered hsetup hnot hstep).trans hnone⟩
    · exact Or.inr hcollecting
  · have hsteered := collectorStep_leads hcollecting.leads hstep
    exact Or.inr hsteered

/-- A step of the collector's thread: a discovery leaves its answers in the list, and
the other steps leave the list alone. -/
theorem SetsUpOnce.collectorStep (h : SetsUpOnce m)
    (hstep : m.collectorStep cfg input = some m') :
    SetsUpOnce m' ∧
      (m'.objects.discoveredQueues = (Step.answers cfg ⟨.collector input, m, m'⟩).flatten ∨
        Step.answers cfg ⟨.collector input, m, m'⟩ = [] ∧
          m'.objects.discoveredQueues = m.objects.discoveredQueues) := by
  refine ⟨h.of_collectorStep hstep, ?_⟩
  by_cases hsetup : m.pc = .setup
  · refine Or.inl ?_
    have hnone := h.discovered_of_setup hsetup
    unfold Machine.collectorStep at hstep
    unfold Step.answers
    rw [hsetup] at hstep ⊢
    rcases call_cases (wp_setupAfterConnect cfg m.objects) hstep with ⟨o, ho, rfl⟩ | ⟨o, ho, rfl⟩
    · rw [hnone] at ho
      exact ho
    · rw [hnone] at ho
      exact ho
  · cases hre : Step.rediscovers cfg ⟨.collector input, m, m'⟩ with
    | true => exact Or.inl (rediscovery_discovered hre hstep)
    | false =>
        exact Or.inr ⟨answers_of_not hsetup hre, collectorStep_discovered hsetup hre hstep⟩

/-- What a step does to the list. -/
theorem SetsUpOnce.step {action : Action} (h : SetsUpOnce m)
    (hstep : m.step cfg action = some m') :
    SetsUpOnce m' ∧
      (m'.objects.discoveredQueues = (Step.answers cfg ⟨action, m, m'⟩).flatten ∨
        Step.answers cfg ⟨action, m, m'⟩ = [] ∧
          m'.objects.discoveredQueues = m.objects.discoveredQueues) := by
  cases action with
  | collector input => exact h.collectorStep hstep
  | main signal =>
      obtain ⟨hinv, hqueues⟩ := h.mainStep hstep
      exact ⟨hinv, Or.inr ⟨rfl, hqueues⟩⟩

end Steps

/-! ## Runs -/

/-- What is asked of a run: the list has no name twice in any state, and behind
`setup_after_connect` the subscriptions that `create_subscriptions` makes of it for a
type have different topics. -/
structure OncePerQueue (trace : List Step) : Prop where
  distinct : ∀ t ∈ trace, t.after.objects.discoveredQueues.Nodup
  subscriptions : ∀ t ∈ trace, t.isAt (fun pc => decide (pc = .setup)) = true →
    ∀ monitor, t.after.objects.monitor = some monitor → ∀ cls ∈ monitor.classes,
      ∀ mtype ∈ cls.types, (typeTopics t.after.objects.discoveredQueues mtype.objectTopic).Nodup

/-- In each discovery of a run the patterns find different queues. -/
def DisjointAnswers (cfg : Config) (trace : List Step) : Prop :=
  ∀ t ∈ trace, (t.answers cfg).Pairwise List.Disjoint

/-- A list without a name twice makes no topic twice. -/
theorem nodup_typeTopics {queues : List Bytes} (h : queues.Nodup) (objectTopic : Bytes) :
    (typeTopics queues objectTopic).Nodup := by
  unfold typeTopics
  split
  · exact List.nodup_nil
  · split
    · exact List.nodup_singleton objectTopic
    · next before behind _ =>
        refine h.map fun q q' hq => ?_
        exact List.append_cancel_left (List.append_cancel_right hq)

/-- No queue is subscribed to twice if and only if the patterns do not overlap. -/
theorem oncePerQueue_iff {cfg : Config} {supply : List Reply} {actions : List Action}
    {trace : List Step}
    (hrun : history (Machine.step cfg) (Machine.initial cfg supply) actions = some trace) :
    OncePerQueue trace ↔ DisjointAnswers cfg trace := by
  have hinitial : SetsUpOnce (Machine.initial cfg supply) := Or.inl ⟨rfl, rfl⟩
  constructor
  · intro h t ht
    have hkept : KeptWhen (Machine.step cfg) (fun _ => True) SetsUpOnce :=
      fun m action m' hinv hstep _ => (hinv.step hstep).1
    obtain ⟨hstep, hinv, -⟩ := hkept.of_mem hinitial hrun (fun _ _ => trivial) ht
    rcases (hinv.step hstep).2 with hflat | ⟨hnone, -⟩
    · have hnodup := h.distinct t ht
      rw [hflat, List.nodup_flatten] at hnodup
      exact hnodup.2
    · rw [show t.answers cfg = [] from hnone]
      exact List.Pairwise.nil
  · intro h
    have hkept : KeptWhen (Machine.step cfg)
        (fun t : Step => (t.answers cfg).Pairwise List.Disjoint)
        (fun m => SetsUpOnce m ∧ m.objects.discoveredQueues.Nodup) := by
      rintro m action m' ⟨hinv, hnodup⟩ hstep hdisjoint
      obtain ⟨hinv', hqueues⟩ := hinv.step hstep
      refine ⟨hinv', ?_⟩
      rcases hqueues with hflat | ⟨-, hsame⟩
      · rw [hflat, List.nodup_flatten]
        exact ⟨fun _ => nodup_of_mem_answers, hdisjoint⟩
      · rw [hsame]
        exact hnodup
    have hnodup (t : Step) (ht : t ∈ trace) : t.after.objects.discoveredQueues.Nodup :=
      (hkept.of_mem ⟨hinitial, List.nodup_nil⟩ hrun h ht).2.2.2
    refine ⟨hnodup, fun t ht _ monitor _ cls _ mtype _ => ?_⟩
    exact nodup_typeTopics (hnodup t ht) mtype.objectTopic

/-- A configuration with two patterns of which the one covers the other. -/
def overlapping : Config :=
  { queueManager := ascii "QM1", continuous := true, monitoredQueues := [ascii "*", ascii "APP.*"] }

/-- A queue manager with one queue, which refuses the subscription to the metadata. -/
def oneQueueSupply : List Reply :=
  List.replicate 6 { cc := .ok } ++ discoveryReplies (ascii "APP.ORDERS") ++
    discoveryReplies (ascii "APP.ORDERS") ++ [{ cc := .failed }]

/-- The run up to the end of `setup_after_connect`. -/
def overlappingRun : Option (List Step) :=
  history (Machine.step overlapping) (Machine.initial overlapping oneQueueSupply)
    (List.replicate 7 (.collector {}))

theorem overlappingRun_repeats :
    (overlappingRun.any fun trace =>
      trace.any fun t => !decide t.after.objects.discoveredQueues.Nodup) = true := by
  decide +kernel

theorem oncePerQueue_iff_overlappingRun :
    ∃ trace, overlappingRun = some trace ∧
      (OncePerQueue trace ↔ DisjointAnswers overlapping trace) := by
  obtain ⟨trace, htrace, -⟩ := (Option.any_eq_true _ _).mp overlappingRun_repeats
  exact ⟨trace, htrace, oncePerQueue_iff htrace⟩

/-- In `overlappingRun` the queue is in the list twice. -/
theorem not_oncePerQueue_overlappingRun :
    ¬ ∀ (cfg : Config) (supply : List Reply) (actions : List Action) (trace : List Step),
      history (Machine.step cfg) (Machine.initial cfg supply) actions = some trace →
        OncePerQueue trace := by
  intro h
  obtain ⟨trace, htrace, hany⟩ := (Option.any_eq_true _ _).mp overlappingRun_repeats
  obtain ⟨t, ht, hrepeats⟩ := List.any_eq_true.mp hany
  rw [Bool.not_eq_true', decide_eq_false_iff_not] at hrepeats
  exact hrepeats ((h overlapping oneQueueSupply _ trace htrace).distinct t ht)

end IbmmqExporter.Collector
