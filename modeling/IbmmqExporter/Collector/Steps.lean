/-
  Collector/Steps.lean --- what a step of one of the two threads can do.

  At a place a thread makes at most one call, and the call decides about the objects.
  The collector's thread goes on at one of at most two places; the main thread leaves
  the place of the collector's thread alone and does nothing about its flags but to
  lower `running_` and to set `collector_end_`.

  WHAT THE FILE PROVIDES.  The ways in which a call ends, and for either thread a rule
  for the objects and one for place and flags, so that a proof about one of the two
  does not take the step apart; and what the programs of the set-up leave alone, from
  what their parts do.
-/
import IbmmqExporter.Collector.Machine
import IbmmqExporter.Foundation.Course

set_option autoImplicit false

namespace IbmmqExporter.Collector

open Foundation Effect Mq

variable {cfg : Config} {m m' : Machine} {input : Input} {signal : Bool}
  {R : Objects → Objects → Prop}

/-! ## Calls -/

section Calls

variable {c : Program Unit} {returned raised : Machine → Machine}

/-- A call that leads on has returned, or has raised an exception. -/
theorem call_eq_some (h : m.call c returned raised = some m') :
    (∃ o, c m.objects = (.ok (), o) ∧ m' = returned { m with objects := o }) ∨
      ∃ e o, c m.objects = (.raised e, o) ∧ m' = raised { m with objects := o } := by
  unfold Machine.call at h
  rcases hrun : c m.objects with ⟨outcome, o⟩
  rw [hrun] at h
  cases outcome with
  | ok a => exact Or.inl ⟨o, rfl, (Option.some.inj h).symm⟩
  | raised e => exact Or.inr ⟨e, o, rfl, (Option.some.inj h).symm⟩
  | undefined => cases h
  | pending => cases h

/-- Where a call leads depends on what it makes of the objects. -/
theorem call_congr {c' : Program Unit} (h : c m.objects = c' m.objects) :
    m.call c returned raised = m.call c' returned raised := by
  unfold Machine.call
  rw [h]

/-- A call whose end is described by a postcondition on the objects. -/
theorem call_cases {Q E : Objects → Prop} (hc : wp c (fun _ => Q) (fun _ => E) m.objects)
    (h : m.call c returned raised = some m') :
    (∃ o, Q o ∧ m' = returned { m with objects := o }) ∨
      ∃ o, E o ∧ m' = raised { m with objects := o } := by
  unfold wp at hc
  rcases call_eq_some h with ⟨o, hrun, hm'⟩ | ⟨e, o, hrun, hm'⟩
  · rw [hrun] at hc
    exact Or.inl ⟨o, hc, hm'⟩
  · rw [hrun] at hc
    exact Or.inr ⟨o, hc, hm'⟩

/-- A call leads on with other objects, in one of two ways. -/
theorem call_ends (h : m.call c returned raised = some m') :
    ∃ o, m' = returned { m with objects := o } ∨ m' = raised { m with objects := o } := by
  have hwp : wp c (fun _ _ => True) (fun _ _ => True) m.objects := wp_of_state trivial
  rcases call_cases hwp h with ⟨o, -, hm'⟩ | ⟨o, -, hm'⟩
  · exact ⟨o, Or.inl hm'⟩
  · exact ⟨o, Or.inr hm'⟩

end Calls

/-! ## The collector's thread -/

/-- The call that the collector's thread makes at a place. -/
def Pc.program (cfg : Config) (input : Input) : Pc → Option (Program Unit)
  | .connect => some (client Mq.connect)
  | .setup => some (setupAfterConnect cfg)
  | .first | .cycle | .once => some (collectMetrics cfg input.requests)
  | .rediscovery =>
      if 0 < cfg.rediscoverInterval ∧ input.due = true then some (rediscover cfg) else none
  | .lost => some (renewClient cfg)
  | _ => none

/-- The calls of `collect_cycle`. -/
def Pc.isCycle : Pc → Bool
  | .first | .cycle | .once => true
  | _ => false

/-- The calls of the places keep to a relation. -/
theorem Pc.program_within {pc : Pc} (hconnect : pc = .connect → Within R (client Mq.connect))
    (hsetup : pc = .setup → Within R (setupAfterConnect cfg))
    (hcycle : pc.isCycle = true → Within R (collectMetrics cfg input.requests))
    (hrediscovery : pc = .rediscovery → 0 < cfg.rediscoverInterval ∧ input.due = true →
      Within R (rediscover cfg))
    (hlost : pc = .lost → Within R (renewClient cfg)) :
    ∀ c, pc.program cfg input = some c → Within R c := by
  intro c hc
  cases pc with
  | connect =>
      obtain rfl := Option.some.inj hc
      exact hconnect rfl
  | setup =>
      obtain rfl := Option.some.inj hc
      exact hsetup rfl
  | first | cycle | once =>
      obtain rfl := Option.some.inj hc
      exact hcycle rfl
  | rediscovery =>
      unfold Pc.program at hc
      dsimp only at hc
      split at hc
      · next hdue =>
          obtain rfl := Option.some.inj hc
          exact hrediscovery rfl hdue
      · cases hc
  | lost =>
      obtain rfl := Option.some.inj hc
      exact hlost rfl
  | _ => cases hc

/-- The places and the flags to which a step of the collector's thread may lead have a
property. -/
def Machine.Leads (cfg : Config) (m : Machine) (P : Machine → Prop) : Prop :=
  match m.pc with
  | .start => P (m.goto (if m.running then .finished else .serving))
  | .serving =>
      P (m.goto .failed) ∧
        P { m with running := true, pc := if cfg.keepRunning then .loop else .connect }
  | .loop => P (m.goto (if m.running then .loopEnd else .finished))
  | .loopEnd => P (m.goto (if m.collectorEnd then .finished else .qmgr))
  | .qmgr => P (m.goto (if m.connectedQmgr then .collect else .connect))
  | .connect =>
      P (m.goto .setup) ∧
        P (m.goto (if cfg.keepRunning then .retry (turns cfg.reconnectInterval) else .giveUp))
  | .retry 0 => P (m.goto .loop)
  | .retry (n + 1) => P (m.goto (if m.running then .retry n else .loop))
  | .giveUp => P { m with running := false, pc := .finished }
  | .setup => P (m.goto .collect) ∧ P (m.goto .failed)
  | .collect => P (m.goto (if cfg.continuous then .first else .once))
  | .first => P (m.goto .test)
  | .test => P (m.goto (if m.running then .sleep (turns cfg.interval) else leave cfg))
  | .sleep 0 => P (m.goto .wake)
  | .sleep (n + 1) => P (m.goto (if m.running then .sleep n else leave cfg))
  | .wake => P (m.goto (if m.running then .rediscovery else leave cfg))
  | .rediscovery => P (m.goto .cycle) ∧ P (m.goto .failed)
  | .cycle => P (m.goto .count)
  | .count => P { m with running := false, pc := leave cfg } ∧ P (m.goto .test)
  | .once => P (m.goto (if cfg.keepRunning then .onceEnd else .finished))
  | .onceEnd => P { m with collectorEnd := true, pc := .left }
  | .left => P (m.goto (if m.running then .leftEnd else .loop))
  | .leftEnd => P (m.goto (if m.collectorEnd then .loop else .lost))
  | .lost => P (m.goto .loop) ∧ P (m.goto .failed)
  | .finished | .failed => True

/-- The machine with the place and the flags of another. -/
def Machine.steer (m m' : Machine) : Machine :=
  { m with pc := m'.pc, running := m'.running, collectorEnd := m'.collectorEnd }

/-- A step of the collector's thread keeps to what its call keeps to, has led to where it
may lead, leaves the main thread where it is, and counts at the end of the loop body. -/
theorem collectorStep_does [Std.Refl R] {P : Machine → Prop}
    (hprogram : ∀ c, m.pc.program cfg input = some c → Within R c) (hleads : m.Leads cfg P)
    (hstep : m.collectorStep cfg input = some m') :
    R m.objects m'.objects ∧ P (m.steer m') ∧ m'.main = m.main ∧
      m'.cycleCount = m.cycleCount + if m.pc = .count then 1 else 0 := by
  unfold Machine.collectorStep at hstep
  unfold Machine.Leads at hleads
  cases hat : m.pc with
  | serving =>
      rw [hat] at hstep hleads
      obtain rfl := Option.some.inj hstep
      refine ⟨?_, ?_, ?_, ?_⟩ <;> split
      · exact refl_of R m.objects
      · exact refl_of R m.objects
      · exact hleads.1
      · exact hleads.2
      · rfl
      · rfl
      · exact (Int.add_zero _).symm
      · exact (Int.add_zero _).symm
  | test =>
      rw [hat] at hstep hleads
      dsimp only at hstep
      split at hstep
      · cases hstep
      · obtain rfl := Option.some.inj hstep
        exact ⟨refl_of R m.objects, hleads, rfl, (Int.add_zero _).symm⟩
  | connect =>
      rw [hat] at hstep hprogram hleads
      have hcall := Option.eq_some_of_filter_eq_some hstep
      rcases call_cases (hprogram _ rfl m.objects) hcall with ⟨o, ho, rfl⟩ | ⟨o, ho, rfl⟩
      · exact ⟨ho, hleads.1, rfl, (Int.add_zero _).symm⟩
      · exact ⟨ho, hleads.2, rfl, (Int.add_zero _).symm⟩
  | setup =>
      rw [hat] at hstep hprogram hleads
      rcases call_cases (hprogram _ rfl m.objects) hstep with ⟨o, ho, rfl⟩ | ⟨o, ho, rfl⟩
      · exact ⟨ho, hleads.1, rfl, (Int.add_zero _).symm⟩
      · exact ⟨ho, hleads.2, rfl, (Int.add_zero _).symm⟩
  | first | cycle | once =>
      rw [hat] at hstep hprogram hleads
      rcases call_cases (hprogram _ rfl m.objects) hstep with ⟨o, ho, rfl⟩ | ⟨o, ho, rfl⟩
      · exact ⟨ho, hleads, rfl, (Int.add_zero _).symm⟩
      · exact ⟨ho, hleads, rfl, (Int.add_zero _).symm⟩
  | rediscovery =>
      rw [hat] at hstep hprogram hleads
      dsimp only at hstep
      split at hstep
      · next hdue =>
          have hcall := hprogram _ (if_pos hdue) m.objects
          rcases call_cases hcall hstep with ⟨o, ho, rfl⟩ | ⟨o, ho, rfl⟩
          · exact ⟨ho, hleads.1, rfl, (Int.add_zero _).symm⟩
          · exact ⟨ho, hleads.2, rfl, (Int.add_zero _).symm⟩
      · obtain rfl := Option.some.inj hstep
        exact ⟨refl_of R m.objects, hleads.1, rfl, (Int.add_zero _).symm⟩
  | lost =>
      rw [hat] at hstep hprogram hleads
      have hcall := hprogram _ rfl m.objects
      rcases call_cases (m := { m with connectedQmgr := false, pc := .lost }) hcall hstep with
        ⟨o, ho, rfl⟩ | ⟨o, ho, rfl⟩
      · exact ⟨ho, hleads.1, rfl, (Int.add_zero _).symm⟩
      · exact ⟨ho, hleads.2, rfl, (Int.add_zero _).symm⟩
  | count =>
      rw [hat] at hstep hleads
      obtain rfl := Option.some.inj hstep
      unfold Machine.countCycle
      split
      · exact ⟨refl_of R m.objects, hleads.1, rfl, rfl⟩
      · exact ⟨refl_of R m.objects, hleads.2, rfl, rfl⟩
  | retry n | sleep n =>
      rw [hat] at hstep hleads
      cases n with
      | zero =>
          obtain rfl := Option.some.inj hstep
          exact ⟨refl_of R m.objects, hleads, rfl, (Int.add_zero _).symm⟩
      | succ n =>
          obtain rfl := Option.some.inj hstep
          exact ⟨refl_of R m.objects, hleads, rfl, (Int.add_zero _).symm⟩
  | finished | failed =>
      rw [hat] at hstep
      cases hstep
  | _ =>
      rw [hat] at hstep hleads
      obtain rfl := Option.some.inj hstep
      exact ⟨refl_of R m.objects, hleads, rfl, (Int.add_zero _).symm⟩

theorem leads_of_forall {P : Machine → Prop} (h : ∀ n, P n) : m.Leads cfg P := by
  unfold Machine.Leads
  split <;> simp [h]

theorem Machine.Leads.mono {P Q : Machine → Prop} (h : m.Leads cfg P) (hPQ : ∀ n, P n → Q n) :
    m.Leads cfg Q := by
  unfold Machine.Leads at h ⊢
  cases hat : m.pc with
  | serving | connect | setup | rediscovery | count | lost =>
      rw [hat] at h
      exact ⟨hPQ _ h.1, hPQ _ h.2⟩
  | retry n | sleep n =>
      rw [hat] at h
      cases n with
      | zero => exact hPQ _ h
      | succ n => exact hPQ _ h
  | finished | failed => trivial
  | _ =>
      rw [hat] at h
      exact hPQ _ h

/-- Every call keeps to the relation that asks for nothing. -/
theorem within_any {α : Type} (c : Program α) : Within (Same fun _ : Objects => ()) c :=
  within_of_all fun _ => rfl

/-- What the call keeps to, the step keeps to. -/
theorem collectorStep_within [Std.Refl R]
    (hprogram : ∀ c, m.pc.program cfg input = some c → Within R c)
    (hstep : m.collectorStep cfg input = some m') : R m.objects m'.objects :=
  (collectorStep_does hprogram (leads_of_forall fun _ => trivial) hstep).1

/-- What is true of the places and the flags to which a step may lead is true of those to
which it leads. -/
theorem collectorStep_leads {P : Machine → Prop} (h : m.Leads cfg P)
    (hstep : m.collectorStep cfg input = some m') : P (m.steer m') :=
  (collectorStep_does (fun c _ => within_any c) h hstep).2.1

theorem collectorStep_main (hstep : m.collectorStep cfg input = some m') : m'.main = m.main :=
  (collectorStep_does (fun c _ => within_any c) (leads_of_forall fun _ => trivial) hstep).2.2.1

/-- Only the end of the loop body counts. -/
theorem collectorStep_cycleCount (hstep : m.collectorStep cfg input = some m') :
    m'.cycleCount = m.cycleCount + if m.pc = .count then 1 else 0 :=
  (collectorStep_does (fun c _ => within_any c) (leads_of_forall fun _ => trivial) hstep).2.2.2

theorem ite_place {f : Pc → Bool} {b : Bool} {p : Prop} [Decidable p] {pc pc' : Pc}
    (h : f pc = b) (h' : f pc' = b) : f (if p then pc else pc') = b := by
  split
  · exact h
  · exact h'

theorem leave_place {f : Pc → Bool} {b : Bool} (h : f .left = b) (h' : f .finished = b) :
    f (leave cfg) = b := ite_place h h'

/-! ## The main thread -/

/-- The call that the main thread makes at a place. -/
def MainPc.program : MainPc → Option (Program Unit)
  | .closing => some do
      monitor () Monitor.close
      resetMonitor
  | .disconnecting => some (tryCatch (client disconnect) fun _ => return)
  | _ => none

theorem MainPc.program_within {main : MainPc}
    (hclosing : Within R do
      monitor () Monitor.close
      resetMonitor)
    (hdisconnecting : main = .disconnecting →
      Within R (tryCatch (client disconnect) fun _ => (return : Program Unit))) :
    ∀ c, main.program = some c → Within R c := by
  intro c hc
  cases main with
  | closing =>
      obtain rfl := Option.some.inj hc
      exact hclosing
  | disconnecting =>
      obtain rfl := Option.some.inj hc
      exact hdisconnecting rfl
  | _ => cases hc

/-- A step of the main thread leaves the collector's thread where it is. -/
structure SamePlace (m m' : Machine) : Prop where
  pc : m'.pc = m.pc
  connectedQmgr : m'.connectedQmgr = m.connectedQmgr
  running : m.running = false → m'.running = false

/-- A step of the main thread keeps to what its call keeps to, and does no more to the
collector's thread than to stop it, at one of its places. -/
theorem mainStep_does [Std.Refl R] (hprogram : ∀ c, m.main.program = some c → Within R c)
    (hstep : m.mainStep signal = some m') :
    R m.objects m'.objects ∧ SamePlace m m' ∧
      (m.collectorEnd = true → m'.collectorEnd = true) ∧
        m'.cycleCount = m.cycleCount ∧ (m.main ≠ .lower → m'.running = m.running) := by
  unfold Machine.mainStep at hstep
  cases hat : m.main with
  | closing | disconnecting =>
      rw [hat] at hstep hprogram
      rcases call_cases (hprogram _ rfl m.objects) hstep with ⟨o, ho, rfl⟩ | ⟨o, ho, rfl⟩
      · exact ⟨ho, ⟨rfl, rfl, id⟩, id, rfl, fun _ => rfl⟩
      · exact ⟨ho, ⟨rfl, rfl, id⟩, id, rfl, fun _ => rfl⟩
  | lower =>
      rw [hat] at hstep
      obtain rfl := Option.some.inj hstep
      exact ⟨refl_of R m.objects, ⟨rfl, rfl, fun _ => rfl⟩, id, rfl, absurd rfl⟩
  | ending =>
      rw [hat] at hstep
      obtain rfl := Option.some.inj hstep
      exact ⟨refl_of R m.objects, ⟨rfl, rfl, id⟩, fun _ => rfl, rfl, fun _ => rfl⟩
  | joining =>
      rw [hat] at hstep
      dsimp only at hstep
      split at hstep
      · obtain rfl := Option.some.inj hstep
        exact ⟨refl_of R m.objects, ⟨rfl, rfl, id⟩, id, rfl, fun _ => rfl⟩
      · cases hstep
  | joined =>
      rw [hat] at hstep
      cases hstep
  | _ =>
      rw [hat] at hstep
      obtain rfl := Option.some.inj hstep
      exact ⟨refl_of R m.objects, ⟨rfl, rfl, id⟩, id, rfl, fun _ => rfl⟩

theorem mainStep_within [Std.Refl R] (hprogram : ∀ c, m.main.program = some c → Within R c)
    (hstep : m.mainStep signal = some m') : R m.objects m'.objects :=
  (mainStep_does hprogram hstep).1

theorem mainStep_place (hstep : m.mainStep signal = some m') :
    SamePlace m m' ∧ (m.collectorEnd = true → m'.collectorEnd = true) := by
  obtain ⟨-, hsame, hend, -⟩ := mainStep_does (fun c _ => within_any c) hstep
  exact ⟨hsame, hend⟩

/-- The main thread does not count, and lowers `running_` at one place only. -/
theorem mainStep_counts (hstep : m.mainStep signal = some m') :
    m'.cycleCount = m.cycleCount ∧ (m.main ≠ .lower → m'.running = m.running) :=
  (mainStep_does (fun c _ => within_any c) hstep).2.2.2

/-! ## What the programs leave alone -/

section Aside

variable {γ : Type} {f : Objects → γ}

/-- Nothing that is done with the monitor changes what is seen of the objects. -/
structure MonitorAside (f : Objects → γ) : Prop where
  close : Preserves f (monitor () Monitor.close)
  discover : Preserves f (monitor false Monitor.discover)
  createSubscriptions (queues : List Bytes) :
    Preserves f (monitor false (Monitor.createSubscriptions queues))
  assign (m : Option Monitor.ResourceMonitor) (o : Objects) : f { o with monitor := m } = f o

/-- Nor does anything else that is done behind a connection. -/
structure SetupAside (f : Objects → γ) : Prop extends MonitorAside f where
  openStatsQueue (queueName : Bytes) : Preserves f (client (Mq.openStatsQueue queueName))
  openAccountingQueue (queueName : Bytes) :
    Preserves f (client (Mq.openAccountingQueue queueName))
  subscribeToTopic (topic : Bytes) : Preserves f (client (Mq.subscribeToTopic topic))
  discoverQueues (pattern : Bytes) : Preserves f (client (Mq.discoverQueues pattern))
  assignQueues (queues : List Bytes) (o : Objects) : f { o with discoveredQueues := queues } = f o

theorem preserves_resetMonitor_of (h : MonitorAside f) : Preserves f resetMonitor :=
  h.close.bind fun _ => preserves_modify (h.assign none)

theorem preserves_setupMonitor_of (h : MonitorAside f) (cfg : Config) :
    Preserves f (setupMonitor cfg) := by
  refine Preserves.tryCatch ?_ fun _ => preserves_resetMonitor_of h
  refine Preserves.bind (preserves_modify (h.assign _)) fun _ => ?_
  refine h.discover.bind fun found => preserves_ite ?_ (preserves_resetMonitor_of h)
  refine (preserves_gets _).bind fun queues => ?_
  exact (h.createSubscriptions queues).bind fun _ => preserves_pure ()

theorem preserves_discoverMonitored_of (h : SetupAside f) (patterns : List Bytes) :
    Preserves f (discoverMonitored patterns) := by
  refine preserves_forEach fun pattern _ => preserves_when ?_
  exact (h.discoverQueues pattern).bind fun qs => preserves_modify fun o => h.assignQueues _ o

theorem preserves_setupAfterConnect_of (h : SetupAside f) (cfg : Config) :
    Preserves f (setupAfterConnect cfg) := by
  refine ((h.openStatsQueue _).tryCatch fun _ => preserves_pure ()).bind fun _ => ?_
  refine ((h.openAccountingQueue _).tryCatch fun _ => preserves_pure ()).bind fun _ => ?_
  refine (preserves_forEach fun topic _ => ?_).bind fun _ => ?_
  · exact (h.subscribeToTopic topic).bind fun _ => preserves_pure ()
  · refine (preserves_discoverMonitored_of h _).bind fun _ => ?_
    exact preserves_when (preserves_setupMonitor_of h.toMonitorAside cfg)

theorem preserves_rediscover_of (h : SetupAside f) (cfg : Config) :
    Preserves f (rediscover cfg) :=
  (preserves_modify (h.assignQueues [])).bind fun _ => preserves_discoverMonitored_of h _

end Aside

end IbmmqExporter.Collector
