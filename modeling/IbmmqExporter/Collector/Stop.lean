/-
  Collector/Stop.lean --- `Collector::stop` and the thread of `Collector::start`.

  `stop` returns at once where `running_` is not set, and `start` sets `running_` after
  its only test of it.  So a `stop` that comes before `running_ = true` is not noticed.
  Nor is one that comes between the tests at the head of the loop of `start` and the
  collection behind them.

  WHAT THE FILE PROVES.  Where neither is the case, a `stop` that has returned is
  final: `running_` stays low, and `start` does not begin another collection.
-/
import IbmmqExporter.Collector.Reconnect

set_option autoImplicit false

namespace IbmmqExporter.Collector

open Foundation Mq

/-! ## What is asked of a run -/

/-- The main thread is behind `stop()`. -/
def MainPc.stopped : MainPc → Bool
  | .joining | .joined => true
  | _ => false

/-- The places in front of `running_ = true`. -/
def Pc.unstarted : Pc → Bool
  | .start | .serving => true
  | _ => false

/-- The places from the tests at the head of the loop of `start` to the first
collection behind them. -/
def Pc.approaching : Pc → Bool
  | .qmgr | .connect | .setup | .collect | .first | .once => true
  | _ => false

/-- An attempt to connect leads on: there is a connection, or the next answer of the queue
manager is no failure. -/
def Machine.connects (m : Machine) : Bool :=
  m.isConnected || m.objects.session.mqi.supply.head?.any fun r => decide (r.cc ≠ .failed)

/-- The collector's thread is between the tests at the head of the loop of `start` and a
collection that it is going to begin. -/
def Machine.committed (m : Machine) : Bool :=
  match m.pc with
  | .qmgr => m.connectedQmgr || m.connects
  | .connect => m.connects
  | .setup | .collect | .first | .once => true
  | _ => false

/-- `stop()` returns. -/
def Step.stops (t : Step) : Bool := !t.before.main.stopped && t.after.main.stopped

/-- A `collect_cycle()` that is not one of the loop of `run_continuous`. -/
def Step.beginsCollection (t : Step) : Bool :=
  t.isAt fun pc => decide (pc = .first) || decide (pc = .once)

/-- What is asked of a run: when `stop()` has returned, `running_` is not set, in this
state or a later one, and `start` does not begin another collection. -/
structure StopsForGood (trace : List Step) : Prop where
  lowered : ∀ t ∈ trace, t.stops = true → t.after.running = false
  final : trace.Pairwise fun t u =>
    t.stops = true → u.after.running = false ∧ u.beginsCollection = false

/-- `stop()` does not return in front of `running_ = true`, nor between the tests of
the flags and a collection that is going to begin. -/
def Step.stopsInTime (t : Step) : Prop :=
  t.stops = true → t.before.pc.unstarted = false ∧ t.after.committed = false

/-! ## The invariant -/

/-- The main thread is in `stop()`, behind its test of `running_`. -/
def MainPc.stopping : MainPc → Bool
  | .lower | .ending | .closing | .disconnecting => true
  | _ => false

/-- The main thread is in `stop()`, behind `running_ = false`. -/
def MainPc.lowering : MainPc → Bool
  | .ending | .closing | .disconnecting => true
  | _ => false

/-- What the flags say about the two places. -/
structure Agreeing (m : Machine) : Prop where
  unstarted : m.pc.unstarted = true → m.running = false ∧ m.main.stopping = false
  lowered : m.main.lowering = true → m.running = false
  ended : m.pc = .loopEnd → m.running = true ∨ m.main = .ending ∨ m.collectorEnd = true

/-- The thread of `start` is stopped or will be at its next test of the flags. -/
structure Settled (m : Machine) : Prop where
  running : m.running = false
  unstarted : m.pc.unstarted = false
  committed : m.committed = false

/-- The invariant of a run in which `stop()` returns in time. -/
structure StopInv (m : Machine) : Prop where
  agreeing : Agreeing m
  settled : m.main.stopped = true → Settled m

/-- The places at which the flags are not as the thread has found them. -/
def Pc.plain : Pc → Bool
  | .start | .serving | .loopEnd => false
  | _ => true

section Steps

variable {cfg : Config} {m m' : Machine} {input : Input} {signal : Bool}

/-- A step of the collector's thread to a place that the flags say nothing about. -/
theorem Agreeing.plain (h : Agreeing m) (hpc : m'.pc.plain = true) (hmain : m'.main = m.main)
    (hrunning : m.running = false → m'.running = false) : Agreeing m' := by
  refine ⟨fun hat => ?_, fun hat => ?_, fun hat => ?_⟩
  · cases hm : m'.pc with
    | start => rw [hm] at hpc; cases hpc
    | serving => rw [hm] at hpc; cases hpc
    | _ => rw [hm] at hat; cases hat
  · rw [hmain] at hat
    exact hrunning (h.lowered hat)
  · rw [hat] at hpc
    cases hpc

theorem Agreeing.goto {pc : Pc} (h : Agreeing m) (hpc : pc.plain = true) :
    Agreeing (m.goto pc) := h.plain hpc rfl id

/-- A step of the collector's thread leads to places with which the flags agree. -/
theorem Agreeing.leads (h : Agreeing m) : m.Leads cfg Agreeing := by
  unfold Machine.Leads
  cases hat : m.pc with
  | start =>
      obtain ⟨hrunning, hmain⟩ := h.unstarted (by rw [hat]; rfl)
      refine ⟨fun _ => ⟨hrunning, hmain⟩, h.lowered, fun hend => ?_⟩
      rw [hrunning] at hend
      cases hend
  | serving =>
      obtain ⟨-, hmain⟩ := h.unstarted (by rw [hat]; rfl)
      refine ⟨h.goto rfl, fun hpc => ?_, fun hlow => ?_, fun _ => Or.inl rfl⟩
      · exact absurd hpc (Bool.eq_false_iff.mp (ite_place rfl rfl))
      · -- the main thread would have found `running_` low
        have hmain' : m.main.lowering = true := hlow
        cases hm : m.main with
        | ending => rw [hm] at hmain; cases hmain
        | closing => rw [hm] at hmain; cases hmain
        | disconnecting => rw [hm] at hmain; cases hmain
        | _ => rw [hm] at hmain'; cases hmain'
  | loop =>
      cases hrunning : m.running with
      | false => exact h.goto rfl
      | true =>
          refine ⟨fun hpc => ?_, h.lowered, fun _ => Or.inl hrunning⟩
          cases hpc
  | loopEnd | qmgr | collect | once | left | leftEnd => exact h.goto (ite_place rfl rfl)
  | connect => exact ⟨h.goto rfl, h.goto (ite_place rfl rfl)⟩
  | setup | rediscovery | lost => exact ⟨h.goto rfl, h.goto rfl⟩
  | retry n =>
      cases n with
      | zero => exact h.goto rfl
      | succ n => exact h.goto (ite_place rfl rfl)
  | sleep n =>
      cases n with
      | zero => exact h.goto rfl
      | succ n => exact h.goto (ite_place rfl (leave_place rfl rfl))
  | test | wake => exact h.goto (ite_place rfl (leave_place rfl rfl))
  | first | cycle => exact h.goto rfl
  | giveUp => exact h.plain rfl rfl fun _ => rfl
  | count => exact ⟨h.plain (leave_place rfl rfl) rfl fun _ => rfl, h.goto rfl⟩
  | onceEnd => exact h.plain rfl rfl id
  | finished | failed => trivial

/-- A step of the collector's thread keeps the agreement of the flags. -/
theorem Agreeing.collectorStep (h : Agreeing m) (hstep : m.collectorStep cfg input = some m') :
    Agreeing m' := by
  have hsteered := collectorStep_leads h.leads hstep
  have hmain := collectorStep_main hstep
  refine ⟨?_, ?_, ?_⟩
  · rw [hmain]
    exact hsteered.unstarted
  · rw [hmain]
    exact hsteered.lowered
  · rw [hmain]
    exact hsteered.ended

/-- A step of the main thread between the places of `stop()` that lower the flags. -/
theorem Agreeing.aside (h : Agreeing m) {main : MainPc} (o : Objects)
    (hstopping : main.stopping = true → m.main.stopping = true)
    (hlowering : main.lowering = true → m.main.lowering = true)
    (hending : m.main ≠ .ending) : Agreeing { m with objects := o, main := main } := by
  refine ⟨fun hat => ?_, fun hat => h.lowered (hlowering hat), fun hat => ?_⟩
  · obtain ⟨hrunning, hmain⟩ := h.unstarted hat
    refine ⟨hrunning, Bool.eq_false_of_not_eq_true fun hstop => ?_⟩
    exact Bool.false_ne_true (hmain.symm.trans (hstopping hstop))
  · rcases h.ended hat with hrunning | hmain | hend
    · exact Or.inl hrunning
    · exact absurd hmain hending
    · exact Or.inr (Or.inr hend)

/-- A step of the main thread keeps the agreement of the flags, and `stop()` returns
with `running_` low. -/
theorem Agreeing.mainStep (h : Agreeing m) (hstep : m.mainStep signal = some m') :
    Agreeing m' ∧ (m'.main.stopped = true → m.main.stopped = false → m'.running = false) := by
  unfold Machine.mainStep at hstep
  cases hat : m.main with
  | waiting =>
      rw [hat] at hstep
      obtain rfl := Option.some.inj hstep
      dsimp only
      split
      · exact ⟨h.aside _ nofun nofun (hat ▸ nofun), nofun⟩
      · exact ⟨h.aside _ nofun nofun (hat ▸ nofun), nofun⟩
  | stop =>
      rw [hat] at hstep
      obtain rfl := Option.some.inj hstep
      dsimp only
      split
      · next hrunning =>
          refine ⟨⟨fun hpc => ?_, nofun, fun _ => Or.inl hrunning⟩, nofun⟩
          exact absurd ((h.unstarted hpc).1.symm.trans hrunning) Bool.false_ne_true
      · next hrunning =>
          have hlow := Bool.eq_false_of_not_eq_true hrunning
          exact ⟨h.aside _ nofun nofun (hat ▸ nofun), fun _ _ => hlow⟩
  | lower =>
      rw [hat] at hstep
      obtain rfl := Option.some.inj hstep
      refine ⟨⟨fun hpc => ?_, fun _ => rfl, fun _ => Or.inr (Or.inl rfl)⟩, nofun⟩
      have hmain := (h.unstarted hpc).2
      rw [hat] at hmain
      cases hmain
  | ending =>
      rw [hat] at hstep
      obtain rfl := Option.some.inj hstep
      have hrunning := h.lowered (by rw [hat]; rfl)
      refine ⟨⟨fun hpc => ?_, fun _ => hrunning, fun _ => Or.inr (Or.inr rfl)⟩, nofun⟩
      have hmain := (h.unstarted hpc).2
      rw [hat] at hmain
      cases hmain
  | closing =>
      rw [hat] at hstep
      have hrunning := h.lowered (by rw [hat]; rfl)
      have hstopping : m.main.stopping = true := by rw [hat]; rfl
      have hlowering : m.main.lowering = true := by rw [hat]; rfl
      obtain ⟨o, rfl | rfl⟩ := call_ends hstep
      · exact ⟨h.aside o (fun _ => hstopping) (fun _ => hlowering) (hat ▸ nofun),
          fun _ _ => hrunning⟩
      · exact ⟨h.aside o nofun nofun (hat ▸ nofun), fun _ _ => hrunning⟩
  | disconnecting =>
      rw [hat] at hstep
      have hrunning := h.lowered (by rw [hat]; rfl)
      obtain ⟨o, rfl | rfl⟩ := call_ends hstep
      · exact ⟨h.aside o nofun nofun (hat ▸ nofun), fun _ _ => hrunning⟩
      · exact ⟨h.aside o nofun nofun (hat ▸ nofun), fun _ _ => hrunning⟩
  | joining =>
      rw [hat] at hstep
      dsimp only at hstep
      split at hstep
      · obtain rfl := Option.some.inj hstep
        exact ⟨h.aside _ nofun nofun (hat ▸ nofun), fun _ => nofun⟩
      · cases hstep
  | joined =>
      rw [hat] at hstep
      cases hstep

theorem committed_eq_false (h : m.pc.approaching = false) : m.committed = false := by
  unfold Machine.committed
  cases hat : m.pc with
  | qmgr | connect | setup | collect | first | once =>
      rw [hat] at h
      cases h
  | _ => rfl

/-- An attempt leads on only where it is said to. -/
theorem wp_connect_connects (m : Machine) :
    Effect.wp (client Mq.connect) (fun _ _ => m.connects = true) (fun _ _ => True) m.objects := by
  have hadmitted := wp_connect_admitted (s := m.objects.session)
  refine Effect.wp_zoom.mpr (Effect.wp_mono hadmitted (fun _ _ h => ?_) fun _ _ h => h)
  unfold Machine.connects
  rcases h with hconnected | ⟨r, hhead, hcc⟩
  · rw [show m.isConnected = true from hconnected, Bool.true_or]
  · rw [hhead, Option.any_some, decide_eq_true hcc, Bool.or_true]

/-- The thread that has been stopped goes on to the end of `start`, if it is not on its
way to a collection. -/
theorem Settled.leads (h : Settled m) (hagreeing : Agreeing m) (hmain : m.main.stopped = true)
    (hqmgr : m.pc ≠ .qmgr) (hconnect : m.pc ≠ .connect) :
    m.Leads cfg fun n =>
      n.running = false ∧ n.pc.unstarted = false ∧ n.pc.approaching = false := by
  obtain ⟨hrunning, hunstarted, hcommitted⟩ := h
  unfold Machine.Leads
  unfold Machine.committed at hcommitted
  cases hat : m.pc with
  | loop =>
      rw [hrunning]
      exact ⟨hrunning, rfl, rfl⟩
  | loopEnd =>
      have hend : m.collectorEnd = true := by
        rcases hagreeing.ended hat with hup | hending | hend
        · exact absurd (hrunning.symm.trans hup) Bool.false_ne_true
        · rw [hending] at hmain
          cases hmain
        · exact hend
      rw [hend]
      exact ⟨hrunning, rfl, rfl⟩
  | retry n =>
      cases n with
      | zero => exact ⟨hrunning, rfl, rfl⟩
      | succ n => exact ⟨hrunning, ite_place rfl rfl, ite_place rfl rfl⟩
  | sleep n =>
      cases n with
      | zero => exact ⟨hrunning, rfl, rfl⟩
      | succ n =>
          exact ⟨hrunning, ite_place rfl (leave_place rfl rfl),
            ite_place rfl (leave_place rfl rfl)⟩
  | test | wake =>
      exact ⟨hrunning, ite_place rfl (leave_place rfl rfl),
        ite_place rfl (leave_place rfl rfl)⟩
  | giveUp => exact ⟨rfl, rfl, rfl⟩
  | cycle | onceEnd => exact ⟨hrunning, rfl, rfl⟩
  | rediscovery | lost => exact ⟨⟨hrunning, rfl, rfl⟩, ⟨hrunning, rfl, rfl⟩⟩
  | count => exact ⟨⟨rfl, leave_place rfl rfl, leave_place rfl rfl⟩, ⟨hrunning, rfl, rfl⟩⟩
  | left | leftEnd => exact ⟨hrunning, ite_place rfl rfl, ite_place rfl rfl⟩
  | finished | failed => trivial
  | qmgr => exact absurd hat hqmgr
  | connect => exact absurd hat hconnect
  | start | serving =>
      rw [hat] at hunstarted
      cases hunstarted
  | _ =>
      rw [hat] at hcommitted
      cases hcommitted

/-- It does not begin a collection where the attempt to connect fails. -/
theorem Settled.collectorStep (h : Settled m) (hagreeing : Agreeing m)
    (hmain : m.main.stopped = true) (hstep : m.collectorStep cfg input = some m') :
    Settled m' := by
  have hcommitted := h.committed
  unfold Machine.committed at hcommitted
  by_cases hqmgr : m.pc = .qmgr
  · rw [hqmgr] at hcommitted
    obtain ⟨hdown, hconnects⟩ := Bool.or_eq_false_iff.mp hcommitted
    unfold Machine.collectorStep at hstep
    rw [hqmgr, hdown] at hstep
    obtain rfl := Option.some.inj hstep
    exact ⟨h.running, rfl, hconnects⟩
  by_cases hconnect : m.pc = .connect
  · rw [hconnect] at hcommitted
    unfold Machine.collectorStep at hstep
    rw [hconnect] at hstep
    have hcall := Option.eq_some_of_filter_eq_some hstep
    have hwp : Effect.wp (client Mq.connect) (fun _ _ => m.connects = true) (fun _ _ => True)
      m.objects := wp_connect_connects m
    rcases call_cases (Q := fun _ => m.connects = true) (E := fun _ => True) hwp hcall with
      ⟨o, hconnects, -⟩ | ⟨o, -, rfl⟩
    · exact absurd (hcommitted.symm.trans hconnects) Bool.false_ne_true
    · exact ⟨h.running, ite_place rfl rfl, committed_eq_false (ite_place rfl rfl)⟩
  obtain ⟨hrunning, hunstarted, happroaching⟩ :=
    collectorStep_leads (h.leads hagreeing hmain hqmgr hconnect) hstep
  exact ⟨hrunning, hunstarted, committed_eq_false happroaching⟩

/-- What follows `stop()` is only the end of the collector's thread. -/
theorem mainStep_stopped (hmain : m.main.stopped = true) (hstep : m.mainStep signal = some m') :
    m'.main.stopped = true ∧ m'.running = m.running ∧ m'.committed = m.committed := by
  unfold Machine.mainStep at hstep
  cases hat : m.main with
  | joining =>
      rw [hat] at hstep
      dsimp only at hstep
      split at hstep
      · obtain rfl := Option.some.inj hstep
        exact ⟨rfl, rfl, rfl⟩
      · cases hstep
  | joined =>
      rw [hat] at hstep
      cases hstep
  | _ =>
      rw [hat] at hmain
      cases hmain

theorem step_stopped {action : Action} (hmain : m.main.stopped = true)
    (hstep : m.step cfg action = some m') : m'.main.stopped = true := by
  cases action with
  | collector input =>
      rw [collectorStep_main hstep]
      exact hmain
  | main signal => exact (mainStep_stopped hmain hstep).1

end Steps

/-- Every step of a run in which `stop()` returns in time keeps the invariant. -/
theorem keptWhen_stopInv (cfg : Config) :
    KeptWhen (Machine.step cfg) Step.stopsInTime StopInv := by
  intro m action m' hinv hstep htime
  cases action with
  | collector input =>
      have hstep' : m.collectorStep cfg input = some m' := hstep
      refine ⟨hinv.agreeing.collectorStep hstep', fun hmain => ?_⟩
      rw [collectorStep_main hstep'] at hmain
      exact (hinv.settled hmain).collectorStep hinv.agreeing hmain hstep'
  | main signal =>
      have hstep' : m.mainStep signal = some m' := hstep
      obtain ⟨hagreeing, hlow⟩ := hinv.agreeing.mainStep hstep'
      refine ⟨hagreeing, fun hmain => ?_⟩
      have hpc := (mainStep_place hstep').1.pc
      cases hbefore : m.main.stopped with
      | true =>
          obtain ⟨hrunning, hunstarted, hcommitted⟩ := hinv.settled hbefore
          obtain ⟨-, hsame, hkept⟩ := mainStep_stopped hbefore hstep'
          exact ⟨hsame.trans hrunning, by rw [hpc, hunstarted], hkept.trans hcommitted⟩
      | false =>
          have hstops : Step.stops ⟨.main signal, m, m'⟩ = true := by
            unfold Step.stops
            rw [hbefore, hmain]
            rfl
          obtain ⟨hunstarted, hcommitted⟩ := htime hstops
          exact ⟨hlow hmain hbefore, by rw [hpc, hunstarted], hcommitted⟩

theorem stopInv_initial (cfg : Config) (supply : List Reply) :
    StopInv (Machine.initial cfg supply) := by
  refine ⟨⟨fun _ => ⟨rfl, rfl⟩, nofun, fun hat => ?_⟩, nofun⟩
  cases hat

/-! ## Runs -/

theorem beginsCollection_eq_false {t : Step} (h : t.before.committed = false) :
    t.beginsCollection = false := by
  unfold Machine.committed at h
  unfold Step.beginsCollection Step.isAt
  cases t.action with
  | main signal => rfl
  | collector input =>
      cases hat : t.before.pc with
      | first =>
          rw [hat] at h
          cases h
      | once =>
          rw [hat] at h
          cases h
      | _ => rfl

/-- A run in which `stop()` returns in time stops for good. -/
theorem stopsForGood_of_inTime {cfg : Config} {supply : List Reply} {actions : List Action}
    {trace : List Step}
    (hrun : history (Machine.step cfg) (Machine.initial cfg supply) actions = some trace)
    (htime : ∀ t ∈ trace, t.stopsInTime) : StopsForGood trace := by
  have hinv := fun t (ht : t ∈ trace) =>
    ((keptWhen_stopInv cfg).of_mem (stopInv_initial cfg supply) hrun htime ht).2
  have hstopped : ∀ t : Step, t.stops = true → t.after.main.stopped = true :=
    fun t ht => (Bool.and_eq_true_iff.mp ht).2
  refine ⟨fun t ht hstops => ?_, ?_⟩
  · exact ((hinv t ht).2.settled (hstopped t hstops)).running
  · -- behind `stop()` the invariant holds with its second part
    have hpairs := (history_pairwise (P := fun m : Machine => m.main.stopped = true)
      (fun m a m' => step_stopped) hrun).2
    refine hpairs.imp_of_mem fun {t u} _ hu hlater hstops => ?_
    have hbefore := hlater (hstopped t hstops)
    obtain ⟨hu₁, hu₂⟩ := hinv u hu
    have hstep := ((keptWhen_stopInv cfg).of_mem (stopInv_initial cfg supply) hrun htime hu).1
    refine ⟨(hu₂.settled (step_stopped hbefore hstep)).running, ?_⟩
    exact beginsCollection_eq_false (hu₁.settled hbefore).committed

/-- The queue manager answers, and both queues are empty. -/
def emptySupply : List Reply :=
  List.replicate 6 { cc := .ok } ++
    List.replicate 2 { cc := .failed, rc := mqrcNoMsgAvailable } ++ List.replicate 6 { cc := .ok }

/-- The run in which the signal comes behind the first collection. -/
def stoppedRun : Option (List Step) :=
  history (Machine.step everySecond) (Machine.initial everySecond emptySupply)
    (List.replicate 9 (.collector {}) ++ List.replicate 6 (.main true) ++
      List.replicate 3 (.collector {}) ++ [.main true])

instance (t : Step) : Decidable t.stopsInTime := inferInstanceAs (Decidable (_ → _))

theorem stoppedRun_inTime :
    (stoppedRun.any fun trace => trace.all fun t => decide t.stopsInTime) = true := by
  decide +kernel

theorem stopsForGood_stoppedRun : ∃ trace, stoppedRun = some trace ∧ StopsForGood trace := by
  obtain ⟨trace, htrace, hall⟩ := (Option.any_eq_true _ _).mp stoppedRun_inTime
  refine ⟨trace, htrace, stopsForGood_of_inTime htrace fun t ht => ?_⟩
  exact of_decide_eq_true (List.all_eq_true.mp hall t ht)

/-- The run in which the main thread looks at `running_` before the collector's thread
has set it. -/
def unheardRun : Option (List Step) :=
  history (Machine.step everySecond) (Machine.initial everySecond emptySupply)
    (List.replicate 2 (.main false) ++ List.replicate 9 (.collector {}))

/-- Behind the `stop()` of `unheardRun` there is a step that begins a collection, with
`running_` set. -/
theorem unheardRun_collects :
    (unheardRun.any fun steps =>
      steps[1]?.any Step.stops &&
        steps[10]?.any fun u => u.after.running && u.beginsCollection) = true := by
  decide +kernel

/-- The collector of `unheardRun` is not stopped. -/
theorem not_stopsForGood_unheardRun :
    ¬ ∀ (cfg : Config) (supply : List Reply) (actions : List Action) (trace : List Step),
      history (Machine.step cfg) (Machine.initial cfg supply) actions = some trace →
        StopsForGood trace := by
  intro h
  obtain ⟨trace, htrace, hboth⟩ := (Option.any_eq_true _ _).mp unheardRun_collects
  obtain ⟨hstops, hcollects⟩ := Bool.and_eq_true_iff.mp hboth
  obtain ⟨t, ht, hstops⟩ := (Option.any_eq_true _ _).mp hstops
  obtain ⟨u, hu, hcollects⟩ := (Option.any_eq_true _ _).mp hcollects
  obtain ⟨ht', rfl⟩ := List.getElem?_eq_some_iff.mp ht
  obtain ⟨hu', rfl⟩ := List.getElem?_eq_some_iff.mp hu
  have hfinal := (h everySecond emptySupply _ trace htrace).final
  have hlow := (List.pairwise_iff_getElem.mp hfinal 1 10 ht' hu' (by decide) hstops).1
  exact Bool.false_ne_true (hlow.symm.trans (Bool.and_eq_true_iff.mp hcollects).1)

end IbmmqExporter.Collector
