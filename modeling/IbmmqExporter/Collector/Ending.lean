/-
  Collector/Ending.lean --- how the process comes to an end.

  Once `running_` is not set and the collector's thread is behind `running_ = true`,
  every step takes one of the two threads nearer to its end.

  WHAT THE FILE PROVES.  There are at most nine more steps of the collector's thread and
  five of the main thread, one cycle among them and no turn of a sleep, and the threads
  do not wait for each other (`endsSoon`).  The main thread leaves its loop for a signal,
  or for one of four reasons that a run can give (`leavesFor`): it has looked before
  the collector's thread has set `running_`, the HTTP server has not started, `start` has
  given up behind its only attempt to connect, or `max_cycles` is reached.
-/
import IbmmqExporter.Collector.Cycles
import IbmmqExporter.Collector.Ownership
import IbmmqExporter.Collector.Pacing

set_option autoImplicit false

namespace IbmmqExporter.Collector

open Foundation Mq

/-! ## What is asked of the end of a run -/

/-- A step of the collector's thread. -/
def Step.byCollector (t : Step) : Bool := t.isAt fun _ => true

/-- One of the threads is in a call that ends in this way. -/
def Machine.InCall (cfg : Config) (m : Machine) (outcome : Outcome StdException Unit) : Prop :=
  (∃ input c, m.pc.program cfg input = some c ∧ (c m.objects).1 = outcome) ∨
    ∃ c, m.main.program = some c ∧ (c m.objects).1 = outcome

/-- One of the threads waits for an answer of the queue manager. -/
def Machine.Awaits (cfg : Config) (m : Machine) : Prop := m.InCall cfg .pending

/-- The turns behind a failed attempt to connect or in front of a cycle cannot be
computed. -/
def Machine.Miscounts (cfg : Config) (m : Machine) : Prop :=
  (m.pc = .connect ∧ cfg.keepRunning = true ∧ ¬ Countable cfg.reconnectInterval) ∨
    (m.pc = .test ∧ m.running = true ∧ ¬ Countable cfg.interval)

/-- What one of the threads does next is undefined. -/
def Machine.Strays (cfg : Config) (m : Machine) : Prop :=
  m.InCall cfg .undefined ∨ m.Miscounts cfg

/-- What is asked of the steps behind a step: there are few of them, they do not sleep,
and if there is no other step to take in one of the states, then both threads are done,
or one waits for an answer, or what one does next is undefined. -/
structure EndsSoon (cfg : Config) (t : Step) (behind : List Step) : Prop where
  steps : behind.length ≤ 14
  collector : behind.countP Step.byCollector ≤ 9
  cycles : cycles behind ≤ 1
  awake : ∀ u ∈ behind, u.naps = false ∧ u.waits = false
  done : ∀ m ∈ t.after :: behind.map Transition.after,
    (∀ action, m.step cfg action = none) → m.main = .joined ∨ m.Awaits cfg ∨ m.Strays cfg

/-! ## The end of the threads -/

/-- The steps that the collector's thread has to go once `running_` is not set. -/
def Pc.remaining : Pc → Nat
  | .loopEnd => 9
  | .qmgr => 8
  | .connect => 7
  | .setup | .rediscovery => 6
  | .collect | .cycle => 5
  | .first | .once | .count | .sleep 0 => 4
  | .test | .sleep (_ + 1) | .wake | .onceEnd | .leftEnd => 3
  | .left | .lost | .retry _ => 2
  | .loop | .giveUp => 1
  | .start | .serving | .finished | .failed => 0

/-- The cycles that it may still begin. -/
def Pc.cyclesLeft : Pc → Nat
  | .loopEnd | .qmgr | .connect | .setup | .collect | .first | .once | .rediscovery | .cycle => 1
  | _ => 0

/-- The steps that the main thread has to go. -/
def MainPc.remaining : MainPc → Nat
  | .lower => 5
  | .ending => 4
  | .closing | .waiting => 3
  | .disconnecting | .stop => 2
  | .joining => 1
  | .joined => 0

/-- `running_` is not set, and will not be. -/
structure Halting (m : Machine) : Prop where
  low : m.running = false
  started : m.pc.unstarted = false

section Steps

variable {cfg : Config} {m m' : Machine} {input : Input} {signal : Bool}

theorem Pc.remaining_le (pc : Pc) : pc.remaining ≤ 9 := by
  cases pc with
  | sleep n => cases n <;> simp [Pc.remaining]
  | _ => simp [Pc.remaining]

theorem Pc.cyclesLeft_le (pc : Pc) : pc.cyclesLeft ≤ 1 := by cases pc <;> simp [Pc.cyclesLeft]

theorem MainPc.remaining_le (main : MainPc) : main.remaining ≤ 5 := by
  cases main <;> simp [MainPc.remaining]

theorem remaining_leave : (leave cfg).remaining ≤ 2 := by
  unfold leave
  split
  · exact Nat.le_refl _
  · exact Nat.zero_le _

theorem cyclesLeft_leave : (leave cfg).cyclesLeft = 0 := by
  unfold leave
  split
  · rfl
  · rfl

/-- One of two places, both of them nearer to the end. -/
theorem remaining_ite {p : Prop} [Decidable p] {pc pc' : Pc} {n : Nat} (h : pc.remaining < n)
    (h' : pc'.remaining < n) : (if p then pc else pc').remaining + 1 ≤ n := by
  split
  · exact h
  · exact h'

/-- A step takes the collector's thread nearer to its end. -/
theorem remaining_leads (h : Halting m) :
    m.Leads cfg fun n => n.pc.remaining + (if true then 1 else 0) ≤ m.pc.remaining := by
  have hleave : (leave cfg).remaining < 3 := Nat.lt_succ_of_le remaining_leave
  have hstarted := h.started
  unfold Machine.Leads
  cases hat : m.pc with
  | start | serving =>
      rw [hat] at hstarted
      cases hstarted
  | loop | left =>
      rw [h.low]
      exact Nat.le_refl _
  | loopEnd | qmgr | collect | leftEnd => exact remaining_ite (by decide) (by decide)
  | connect => exact ⟨Nat.le_refl _, remaining_ite (by simp [Pc.remaining]) (by decide)⟩
  | retry n =>
      cases n with
      | zero => exact Nat.le_refl _
      | succ n =>
          rw [h.low]
          exact Nat.le_refl _
  | sleep n =>
      cases n with
      | zero => exact Nat.le_refl _
      | succ n =>
          rw [h.low]
          exact hleave
  | test | wake =>
      rw [h.low]
      exact hleave
  | once => exact remaining_ite (by decide) (by decide)
  | count => exact ⟨Nat.lt_succ_of_lt hleave, Nat.le_refl _⟩
  | setup | rediscovery | lost => simp [Pc.remaining, Machine.goto]
  | first | cycle | giveUp | onceEnd => simp [Pc.remaining, Machine.goto]
  | finished | failed => trivial

/-- A step that begins a cycle leads behind the last one. -/
theorem cyclesLeft_leads (h : Halting m) :
    m.Leads cfg fun n => n.pc.cyclesLeft + (if m.pc.isCycle then 1 else 0) ≤ m.pc.cyclesLeft := by
  have hleave : (leave cfg).cyclesLeft ≤ 0 := Nat.le_of_eq cyclesLeft_leave
  have hstarted := h.started
  unfold Machine.Leads
  cases hat : m.pc with
  | start | serving =>
      rw [hat] at hstarted
      cases hstarted
  | sleep n =>
      cases n with
      | zero => exact Nat.le_refl _
      | succ n =>
          rw [h.low]
          exact hleave
  | retry n =>
      cases n with
      | zero => exact Nat.le_refl _
      | succ n =>
          rw [h.low]
          exact Nat.le_refl _
  | loop | left =>
      rw [h.low]
      exact Nat.le_refl _
  | test | wake =>
      rw [h.low]
      exact hleave
  | loopEnd | qmgr | collect | leftEnd =>
      dsimp only [Machine.goto]
      split
      · simp [Pc.cyclesLeft, Pc.isCycle]
      · simp [Pc.cyclesLeft, Pc.isCycle]
  | connect =>
      refine ⟨Nat.le_refl _, ?_⟩
      cases cfg.keepRunning <;> simp [Machine.goto, Pc.cyclesLeft, Pc.isCycle]
  | once => cases cfg.keepRunning <;> simp [Machine.goto, Pc.cyclesLeft, Pc.isCycle]
  | count => exact ⟨hleave, Nat.le_refl _⟩
  | finished | failed => trivial
  | _ => simp [Machine.goto, Pc.cyclesLeft, Pc.isCycle]

/-- A step takes the main thread nearer to its end, and leaves the collector's thread
where it is. -/
theorem Halting.mainStep (h : Halting m) (hstep : m.mainStep signal = some m') :
    m'.main.remaining + 1 ≤ m.main.remaining := by
  unfold Machine.mainStep at hstep
  cases hat : m.main with
  | waiting | stop =>
      rw [hat] at hstep
      obtain rfl := Option.some.inj hstep
      simp [h.low, MainPc.remaining]
  | lower | ending =>
      rw [hat] at hstep
      obtain rfl := Option.some.inj hstep
      exact Nat.le_refl _
  | closing | disconnecting =>
      rw [hat] at hstep
      obtain ⟨o, rfl | rfl⟩ := call_ends hstep
      · simp [MainPc.remaining]
      · simp [MainPc.remaining]
  | joining =>
      rw [hat] at hstep
      dsimp only at hstep
      split at hstep
      · obtain rfl := Option.some.inj hstep
        exact Nat.le_refl _
      · cases hstep
  | joined =>
      rw [hat] at hstep
      cases hstep

/-- No step sets `running_` again. -/
theorem Halting.step {action : Action} (h : Halting m) (hstep : m.step cfg action = some m') :
    Halting m' := by
  cases action with
  | collector input =>
      obtain ⟨hlow, hbarred⟩ := low_step h.low h.started hstep
      exact ⟨hlow, Pc.unstarted_of_barred hbarred⟩
  | main signal =>
      obtain ⟨hplace, -⟩ := mainStep_place hstep
      exact ⟨hplace.running h.low, hplace.pc ▸ h.started⟩

/-- What a step of the collector's thread takes from a measure of places. -/
theorem funds_places {f : Pc → Nat} {p : Pc → Bool}
    (hleads : ∀ m, Halting m → m.Leads cfg fun n => f n.pc + (if p m.pc then 1 else 0) ≤ f m.pc) :
    Funds (Machine.step cfg) Halting (fun m => f m.pc) (fun _ => 0)
      fun t : Step => if t.isAt p then 1 else 0 where
  keeps _ _ _ h hstep := h.step hstep
  pays m action m' h hstep := by
    cases action with
    | collector input =>
        have hpaid := collectorStep_leads (hleads m h) hstep
        exact hpaid
    | main signal =>
        obtain ⟨hplace, -⟩ := mainStep_place hstep
        show f m'.pc ≤ f m.pc
        rw [hplace.pc]

/-- Every step takes from what the two threads have to go. -/
theorem funds_remaining :
    Funds (Machine.step cfg) Halting (fun m => m.pc.remaining + m.main.remaining) (fun _ => 0)
      fun _ => if true then 1 else 0 where
  keeps _ _ _ h hstep := h.step hstep
  pays m action m' h hstep := by
    cases action with
    | collector input =>
        have hpaid := collectorStep_leads (remaining_leads h) hstep
        show m'.pc.remaining + m'.main.remaining + 1 ≤ m.pc.remaining + m.main.remaining
        rw [collectorStep_main hstep, Nat.add_right_comm]
        exact Nat.add_le_add_right hpaid _
    | main signal =>
        obtain ⟨hplace, -⟩ := mainStep_place hstep
        show m'.pc.remaining + m'.main.remaining + 1 ≤ m.pc.remaining + m.main.remaining
        rw [hplace.pc, Nat.add_assoc]
        exact Nat.add_le_add_left (h.mainStep hstep) _

end Steps

/-! ## No deadlock -/

section Stuck

variable {cfg : Config} {m : Machine} {c : Program Unit} {returned raised : Machine → Machine}

/-- A call that does not lead on. -/
theorem unanswered_of_call (h : m.call c returned raised = none) :
    (c m.objects).1 = .pending ∨ (c m.objects).1 = .undefined := by
  unfold Machine.call at h
  rcases hrun : c m.objects with ⟨outcome, o⟩
  rw [hrun] at h
  cases outcome with
  | ok a => cases h
  | raised e => cases h
  | undefined => exact Or.inr rfl
  | pending => exact Or.inl rfl

/-- An attempt to connect that fails, where the turns of the sleep cannot be computed. -/
theorem not_countable_of_tryConnect (h : (m.tryConnect cfg).filter (Machine.countsRetry cfg) = none)
    (hcall : m.tryConnect cfg ≠ none) :
    cfg.keepRunning = true ∧ ¬ Countable cfg.reconnectInterval := by
  obtain ⟨n, hn⟩ := Option.ne_none_iff_exists'.mp hcall
  have hcounts := Option.filter_eq_none_iff.mp h n hn
  unfold Machine.tryConnect at hn
  obtain ⟨o, rfl | rfl⟩ := call_ends hn
  · exact absurd rfl hcounts
  · unfold Machine.countsRetry at hcounts
    cases hkeep : cfg.keepRunning with
    | false =>
        rw [hkeep] at hcounts
        exact absurd rfl hcounts
    | true =>
        rw [hkeep] at hcounts
        exact ⟨rfl, fun hc => hcounts (decide_eq_true hc)⟩

/-- The collector's thread goes on until its end, but for a call or a computation. -/
theorem ended_of_collectorStep {input : Input} (h : m.collectorStep cfg input = none) :
    (m.pc = .finished ∨ m.pc = .failed) ∨
      (∃ c, m.pc.program cfg input = some c ∧
        ((c m.objects).1 = .pending ∨ (c m.objects).1 = .undefined)) ∨ m.Miscounts cfg := by
  unfold Machine.collectorStep at h
  cases hat : m.pc with
  | setup | first | cycle | once =>
      rw [hat] at h
      exact Or.inr (Or.inl ⟨_, rfl, unanswered_of_call h⟩)
  | connect =>
      rw [hat] at h
      by_cases hcall : m.tryConnect cfg = none
      · exact Or.inr (Or.inl ⟨_, rfl, unanswered_of_call hcall⟩)
      · obtain ⟨hkeep, hcount⟩ := not_countable_of_tryConnect h hcall
        exact Or.inr (Or.inr (Or.inl ⟨hat, hkeep, hcount⟩))
  | test =>
      rw [hat] at h
      dsimp only at h
      split at h
      · next hstray => exact Or.inr (Or.inr (Or.inr ⟨hat, hstray⟩))
      · cases h
  | lost =>
      rw [hat] at h
      have hcall := unanswered_of_call (m := { m with connectedQmgr := false, pc := .lost }) h
      exact Or.inr (Or.inl ⟨_, rfl, hcall⟩)
  | rediscovery =>
      rw [hat] at h
      dsimp only at h
      split at h
      · next hdue => exact Or.inr (Or.inl ⟨_, if_pos hdue, unanswered_of_call h⟩)
      · cases h
  | retry n | sleep n =>
      rw [hat] at h
      cases n with
      | zero => cases h
      | succ n => cases h
  | finished => exact Or.inl (Or.inl rfl)
  | failed => exact Or.inl (Or.inr rfl)
  | _ =>
      rw [hat] at h
      cases h

/-- The main thread waits for nothing but its calls and the end of the other thread. -/
theorem ended_of_mainStep {signal : Bool} (h : m.mainStep signal = none) :
    (m.main = .joined ∨ m.main = .joining ∧ ¬ (m.pc = .finished ∨ m.pc = .failed)) ∨
      ∃ c, m.main.program = some c ∧
        ((c m.objects).1 = .pending ∨ (c m.objects).1 = .undefined) := by
  unfold Machine.mainStep at h
  cases hat : m.main with
  | closing | disconnecting =>
      rw [hat] at h
      exact Or.inr ⟨_, rfl, unanswered_of_call h⟩
  | joining =>
      rw [hat] at h
      dsimp only at h
      split at h
      · cases h
      · next hends => exact Or.inl (Or.inr ⟨rfl, hends⟩)
  | joined => exact Or.inl (Or.inl rfl)
  | _ =>
      rw [hat] at h
      cases h

/-- The threads do not wait for each other. -/
theorem joined_of_stuck (h : ∀ action, m.step cfg action = none) :
    m.main = .joined ∨ m.Awaits cfg ∨ m.Strays cfg := by
  rcases ended_of_mainStep (h (.main false)) with (hjoined | ⟨-, hends⟩) | ⟨c, hc, hcall⟩
  · exact Or.inl hjoined
  · rcases ended_of_collectorStep (h (.collector {})) with hended | ⟨c, hc, hcall⟩ | hmiscounts
    · exact absurd hended hends
    · exact Or.inr (hcall.imp (fun hp => Or.inl ⟨{}, c, hc, hp⟩)
        fun hu => Or.inl (Or.inl ⟨{}, c, hc, hu⟩))
    · exact Or.inr (Or.inr (Or.inr hmiscounts))
  · exact Or.inr (hcall.imp (fun hp => Or.inr ⟨c, hc, hp⟩)
      fun hu => Or.inl (Or.inr ⟨c, hc, hu⟩))

end Stuck

/-! ## The loop of the main thread -/

/-- The main thread leaves its loop. -/
def Step.endsWaiting (t : Step) : Bool :=
  decide (t.before.main = .waiting) && !decide (t.after.main = .waiting)

/-- The main thread has seen `g_shutdown_requested`. -/
def Step.signalled (t : Step) : Bool :=
  match t.action with
  | .collector _ => false
  | .main signal => signal

/-- The only call of the process has been an `MQCONNX` that has failed. -/
structure Refused (m : Machine) : Prop where
  calls : ∃ cd, m.objects.session.log = [.connx cd false]
  never : m.connectedOnce = false

/-- Nothing has been asked of the queue manager. -/
structure Untouched (m : Machine) : Prop where
  calls : m.objects.session.log = []
  never : m.connectedOnce = false

/-- Why `running_` is not set while the main thread is in its loop: the collector's
thread has not set it yet, the HTTP server has not started, `start` has given up because
its attempt to connect has failed, or the loop of `run_continuous` has reached
`max_cycles`. -/
inductive GoneOut (cfg : Config) (m : Machine) : Prop where
  | unstarted (hpc : m.pc.unstarted = true)
  | unserved (hpc : m.pc = .failed) (h : Untouched m)
  | gaveUp (hkeep : cfg.keepRunning = false) (hpc : m.pc = .finished) (h : Refused m)
  | reached (hcont : cfg.continuous = true) (hmax : 0 < cfg.maxCycles)
      (hcount : cfg.maxCycles ≤ m.cycleCount)

/-- The places of the loop of `start`, which there is with `keep_running`. -/
def Pc.looping : Pc → Bool
  | .loop | .loopEnd | .qmgr | .retry _ | .onceEnd | .left | .leftEnd | .lost => true
  | _ => false

/-- What there is up to the only attempt to connect without `keep_running`. -/
structure Beginning (cfg : Config) (m : Machine) : Prop where
  unstarted : m.pc.unstarted = true → Untouched m
  unserved : m.pc = .failed → Untouched m
  connecting : m.pc = .connect → cfg.keepRunning = false → Untouched m
  givesUp : m.pc = .giveUp → cfg.keepRunning = false ∧ Refused m

/-- The invariant of a run. -/
structure Lasting (cfg : Config) (m : Machine) : Prop where
  looping : m.pc.looping = true → cfg.keepRunning = true
  continuous : m.pc.inContinuous = true → cfg.continuous = true
  beginning : m.main = .waiting → Beginning cfg m
  low : m.main = .waiting → m.running = false → GoneOut cfg m

section Waiting

variable {cfg : Config} {m m' : Machine} {input : Input} {signal : Bool}

/-- `run_continuous` is called where the configuration says so. -/
theorem continuous_leads (h : m.pc.inContinuous = true → cfg.continuous = true) :
    m.Leads cfg fun n => n.pc.inContinuous = true → cfg.continuous = true := by
  cases hcont : cfg.continuous with
  | true => exact leads_of_forall fun _ _ => rfl
  | false =>
      -- the thread is not in `run_continuous`, and does not come there
      have hout : m.pc.inContinuous = false :=
        Bool.eq_false_of_not_eq_true fun hin => absurd (hcont.symm.trans (h hin)) nofun
      suffices hleads : m.Leads cfg fun n => n.pc.inContinuous = false from
        hleads.mono fun n hn hin => absurd (hn.symm.trans hin) nofun
      unfold Machine.Leads
      cases hat : m.pc with
      | collect =>
          rw [hcont]
          rfl
      | serving => exact ⟨rfl, ite_place rfl rfl⟩
      | connect => exact ⟨rfl, ite_place rfl rfl⟩
      | retry n =>
          cases n with
          | zero => rfl
          | succ n => exact ite_place rfl rfl
      | setup | lost => exact ⟨rfl, rfl⟩
      | giveUp | onceEnd => rfl
      | finished | failed => trivial
      | start | loop | loopEnd | qmgr | once | left | leftEnd => exact ite_place rfl rfl
      | _ =>
          rw [hat] at hout
          cases hout

/-- The loop of `start` is entered with `keep_running`, and left for good. -/
theorem looping_leads (h : m.pc.looping = true → cfg.keepRunning = true) :
    m.Leads cfg fun n => n.pc.looping = true → cfg.keepRunning = true := by
  cases hkeep : cfg.keepRunning with
  | true => exact leads_of_forall fun _ _ => rfl
  | false =>
      have hout : m.pc.looping = false :=
        Bool.eq_false_of_not_eq_true fun hin => absurd (hkeep.symm.trans (h hin)) nofun
      have hleave : leave cfg = .finished := if_neg (Bool.eq_false_iff.mp hkeep)
      suffices hleads : m.Leads cfg fun n => n.pc.looping = false from
        hleads.mono fun n hn hin => absurd (hn.symm.trans hin) nofun
      unfold Machine.Leads
      rw [hleave, hkeep]
      cases hat : m.pc with
      | start | collect => exact ite_place rfl rfl
      | serving | connect | setup | rediscovery | count => exact ⟨rfl, rfl⟩
      | sleep n =>
          cases n with
          | zero => rfl
          | succ n => exact ite_place rfl rfl
      | test | wake => exact ite_place rfl rfl
      | first | cycle | giveUp | once => rfl
      | finished | failed => trivial
      | _ =>
          rw [hat] at hout
          cases hout

/-- Only giving up and the end of the loop body lower `running_`. -/
theorem lowers_leads :
    m.Leads cfg fun n => n.running = false →
      m.running = false ∨ m.pc = .giveUp ∧ n.pc = .finished ∨ m.pc = .count := by
  unfold Machine.Leads
  cases hat : m.pc with
  | serving => exact ⟨Or.inl, nofun⟩
  | giveUp => exact fun _ => Or.inr (Or.inl ⟨rfl, rfl⟩)
  | count => exact ⟨fun _ => Or.inr (Or.inr rfl), fun _ => Or.inr (Or.inr rfl)⟩
  | connect | setup | rediscovery | lost => exact ⟨Or.inl, Or.inl⟩
  | retry n | sleep n => cases n <;> exact Or.inl
  | finished | failed => trivial
  | _ => exact Or.inl

/-- Where the thread has not set `running_`, it is about to, or cannot. -/
theorem unstarted_leads (hlow : m.running = false) (hat : m.pc.unstarted = true) :
    m.Leads cfg fun n => n.running = false → n.pc.unstarted = true ∨ n.pc = .failed := by
  unfold Machine.Leads
  cases hpc : m.pc with
  | start =>
      rw [hlow]
      exact fun _ => Or.inl rfl
  | serving => exact ⟨fun _ => Or.inr rfl, nofun⟩
  | _ =>
      rw [hpc] at hat
      cases hat

/-- Where a thread comes to that has connected, or is about to with `keep_running`. -/
theorem further_leads (hstarted : m.pc.unstarted = false) (hconnect : m.pc ≠ .connect)
    (hlooping : m.pc.looping = true → cfg.keepRunning = true) :
    m.Leads cfg fun n => n.pc.unstarted = false ∧ n.pc ≠ .giveUp ∧
      (n.pc = .connect → cfg.keepRunning = true) := by
  have hleave : (leave cfg).unstarted = false ∧ leave cfg ≠ .giveUp ∧
      (leave cfg = .connect → cfg.keepRunning = true) := by
    unfold leave
    split
    · exact ⟨rfl, nofun, nofun⟩
    · exact ⟨rfl, nofun, nofun⟩
  unfold Machine.Leads
  cases hat : m.pc with
  | start | serving =>
      rw [hat] at hstarted
      cases hstarted
  | connect => exact absurd hat hconnect
  | qmgr =>
      dsimp only [Machine.goto]
      split
      · exact ⟨rfl, nofun, nofun⟩
      · exact ⟨rfl, nofun, fun _ => hlooping (hat ▸ rfl)⟩
  | test | wake =>
      dsimp only [Machine.goto]
      split
      · exact ⟨rfl, nofun, nofun⟩
      · exact hleave
  | sleep n =>
      cases n with
      | zero => exact ⟨rfl, nofun, nofun⟩
      | succ n =>
          dsimp only [Machine.goto]
          split
          · exact ⟨rfl, nofun, nofun⟩
          · exact hleave
  | retry n =>
      cases n with
      | zero => exact ⟨rfl, nofun, nofun⟩
      | succ n => cases m.running <;> exact ⟨rfl, nofun, nofun⟩
  | count => exact ⟨hleave, rfl, nofun, nofun⟩
  | setup | rediscovery | lost => exact ⟨⟨rfl, nofun, nofun⟩, rfl, nofun, nofun⟩
  | first | cycle | giveUp | onceEnd => exact ⟨rfl, nofun, nofun⟩
  | finished | failed => trivial
  | _ =>
      dsimp only [Machine.goto]
      split
      · exact ⟨rfl, nofun, nofun⟩
      · exact ⟨rfl, nofun, nofun⟩

/-- The end of the loop body lowers `running_` when `max_cycles` is reached. -/
theorem reached_of_countCycle (hrunning : m.running = true)
    (hlow : (m.countCycle cfg).running = false) :
    0 < cfg.maxCycles ∧ cfg.maxCycles ≤ (m.countCycle cfg).cycleCount := by
  unfold Machine.countCycle at hlow ⊢
  split at hlow
  · next hmax =>
      rw [if_pos hmax]
      exact hmax
  · exact absurd (hrunning.symm.trans hlow) nofun

/-- The only call of `connect`, if it throws. -/
theorem wp_connect_refused {o : Objects} (h : o.session.log = []) :
    Effect.wp (client Mq.connect) (fun _ _ => True)
      (fun _ o' => ∃ cd, o'.session.log = [.connx cd false]) o := by
  have hrefused := wp_connect_log (s := o.session)
  refine Effect.wp_zoom.mpr (Effect.wp_mono hrefused (fun _ _ _ => trivial) fun _ s' hs' => ?_)
  obtain ⟨cd, hlog⟩ := hs'
  refine ⟨cd, ?_⟩
  show s'.log = _
  rw [hlog, h]
  rfl

/-- The attempt to connect, where there is only one. -/
theorem Beginning.connect (h : Beginning cfg m) (hat : m.pc = .connect)
    (hstep : m.collectorStep cfg input = some m') : Beginning cfg m' := by
  unfold Machine.collectorStep at hstep
  rw [hat] at hstep
  have hcall := Option.eq_some_of_filter_eq_some hstep
  cases hkeep : cfg.keepRunning with
  | true =>
      obtain ⟨o, rfl | rfl⟩ := call_ends hcall
      · exact ⟨nofun, nofun, nofun, nofun⟩
      · rw [hkeep]
        exact ⟨nofun, nofun, nofun, nofun⟩
  | false =>
      obtain ⟨hlog, hnever⟩ := h.connecting hat hkeep
      have hwp : Effect.wp (client Mq.connect) (fun _ _ => True)
        (fun _ o' => ∃ cd, o'.session.log = [.connx cd false]) m.objects :=
          wp_connect_refused hlog
      rcases call_cases (Q := fun _ => True)
          (E := fun o' => ∃ cd, o'.session.log = [.connx cd false]) hwp hcall with
        ⟨o, -, rfl⟩ | ⟨o, hcalls, rfl⟩
      · exact ⟨nofun, nofun, nofun, nofun⟩
      · rw [hkeep]
        exact ⟨nofun, nofun, nofun, fun _ => ⟨hkeep, hcalls, hnever⟩⟩

/-- A step of the collector's thread keeps what there is at the beginning. -/
theorem Beginning.collectorStep (h : Beginning cfg m) (howning : Owning m)
    (hlooping : m.pc.looping = true → cfg.keepRunning = true)
    (hstep : m.collectorStep cfg input = some m') : Beginning cfg m' := by
  by_cases hconnect : m.pc = .connect
  · exact h.connect hconnect hstep
  cases hunstarted : m.pc.unstarted with
  | false =>
      have hfurther := collectorStep_leads (further_leads hunstarted hconnect hlooping) hstep
      obtain ⟨hstarted, hgiveUp, hkeep⟩ := hfurther
      refine ⟨fun hpc => absurd (hstarted.symm.trans hpc) nofun, fun hpc => ?_,
        fun hpc hno => absurd ((hkeep hpc).symm.trans hno) nofun, fun hpc => absurd hpc hgiveUp⟩
      rw [(howning.failsToServe hstep hpc).1] at hunstarted
      cases hunstarted
  | true =>
      obtain ⟨hlog, hnever⟩ := h.unstarted hunstarted
      unfold Machine.collectorStep at hstep
      cases hat : m.pc with
      | start =>
          rw [hat] at hstep
          obtain rfl := Option.some.inj hstep
          refine ⟨fun _ => ⟨hlog, hnever⟩, fun _ => ⟨hlog, hnever⟩, fun _ _ => ⟨hlog, hnever⟩, ?_⟩
          dsimp only [Machine.goto]
          split
          · exact nofun
          · exact nofun
      | serving =>
          rw [hat] at hstep
          obtain rfl := Option.some.inj hstep
          split
          · exact ⟨nofun, fun _ => ⟨hlog, hnever⟩, nofun, nofun⟩
          · refine ⟨?_, ?_, fun _ _ => ⟨hlog, hnever⟩, ?_⟩ <;> dsimp only <;> split <;> exact nofun
      | _ =>
          rw [hat] at hunstarted
          cases hunstarted

/-- A step of the collector's thread gives a reason where it lowers `running_`, and keeps
the one there was. -/
theorem GoneOut.collectorStep (hbeginning : Beginning cfg m) (hbeginning' : Beginning cfg m')
    (hcontinuous : m.pc.inContinuous = true → cfg.continuous = true)
    (hbefore : m.running = false → GoneOut cfg m) (hlow : m'.running = false)
    (hstep : m.collectorStep cfg input = some m') : GoneOut cfg m' := by
  cases hrunning : m.running with
  | false =>
      cases hbefore hrunning with
      | unstarted hat =>
          have hpc := collectorStep_leads (unstarted_leads hrunning hat) hstep
          rcases hpc hlow with hunstarted | hfailed
          · exact GoneOut.unstarted hunstarted
          · exact GoneOut.unserved hfailed (hbeginning'.unserved hfailed)
      | unserved hat | gaveUp _ hat =>
          unfold Machine.collectorStep at hstep
          rw [hat] at hstep
          cases hstep
      | reached hcont hmax hcount =>
          refine GoneOut.reached hcont hmax ?_
          rw [collectorStep_cycleCount hstep]
          split
          · omega
          · omega
  | true =>
      have hways := collectorStep_leads lowers_leads hstep
      rcases hways hlow with hfalse | ⟨hat, hpc⟩ | hat
      · exact absurd (hrunning.symm.trans hfalse) nofun
      · obtain ⟨hkeep, hrefused⟩ := hbeginning.givesUp hat
        unfold Machine.collectorStep at hstep
        rw [hat] at hstep
        obtain rfl := Option.some.inj hstep
        exact GoneOut.gaveUp hkeep rfl ⟨hrefused.calls, hrefused.never⟩
      · unfold Machine.collectorStep at hstep
        rw [hat] at hstep
        obtain rfl := Option.some.inj hstep
        obtain ⟨hmax, hcount⟩ := reached_of_countCycle hrunning hlow
        exact GoneOut.reached (hcontinuous (hat ▸ rfl)) hmax hcount

/-- The main thread comes to its loop only from there, and goes on for `running_` or a
signal. -/
theorem mainStep_waiting (hstep : m.mainStep signal = some m') :
    (m'.main = .waiting → m.main = .waiting) ∧
      (m.main = .waiting → m'.main ≠ .waiting → signal = true ∨ m.running = false) := by
  unfold Machine.mainStep at hstep
  cases hat : m.main with
  | waiting =>
      rw [hat] at hstep
      obtain rfl := Option.some.inj hstep
      refine ⟨fun _ => rfl, fun _ hleft => ?_⟩
      dsimp only at hleft
      split at hleft
      · next hreason => exact hreason
      · exact absurd rfl hleft
  | stop =>
      rw [hat] at hstep
      obtain rfl := Option.some.inj hstep
      refine ⟨fun hmain => ?_, nofun⟩
      dsimp only at hmain
      split at hmain
      · cases hmain
      · cases hmain
  | lower | ending =>
      rw [hat] at hstep
      obtain rfl := Option.some.inj hstep
      exact ⟨nofun, nofun⟩
  | closing | disconnecting =>
      rw [hat] at hstep
      obtain ⟨o, rfl | rfl⟩ := call_ends hstep
      · exact ⟨nofun, nofun⟩
      · exact ⟨nofun, nofun⟩
  | joining =>
      rw [hat] at hstep
      dsimp only at hstep
      split at hstep
      · obtain rfl := Option.some.inj hstep
        exact ⟨nofun, nofun⟩
      · cases hstep
  | joined =>
      rw [hat] at hstep
      cases hstep

/-- In its loop the main thread does nothing but look. -/
theorem mainStep_looks (hat : m'.main = .waiting) (hstep : m.mainStep signal = some m') :
    m'.objects = m.objects ∧ m'.connectedOnce = m.connectedOnce := by
  have hwaiting := (mainStep_waiting hstep).1 hat
  unfold Machine.mainStep at hstep
  rw [hwaiting] at hstep
  obtain rfl := Option.some.inj hstep
  exact ⟨rfl, rfl⟩

theorem Untouched.congr (h : Untouched m) (hobjects : m'.objects = m.objects)
    (honce : m'.connectedOnce = m.connectedOnce) : Untouched m' :=
  ⟨hobjects ▸ h.calls, honce.trans h.never⟩

theorem Refused.congr (h : Refused m) (hobjects : m'.objects = m.objects)
    (honce : m'.connectedOnce = m.connectedOnce) : Refused m' :=
  ⟨hobjects ▸ h.calls, honce.trans h.never⟩

/-- A look of the main thread keeps what there is at the beginning. -/
theorem Beginning.congr (h : Beginning cfg m) (hpc : m'.pc = m.pc)
    (hobjects : m'.objects = m.objects) (honce : m'.connectedOnce = m.connectedOnce) :
    Beginning cfg m' where
  unstarted hat := (h.unstarted (hpc ▸ hat)).congr hobjects honce
  unserved hat := (h.unserved (hpc ▸ hat)).congr hobjects honce
  connecting hat hkeep := (h.connecting (hpc ▸ hat) hkeep).congr hobjects honce
  givesUp hat := (h.givesUp (hpc ▸ hat)).imp_right fun hr => hr.congr hobjects honce

/-- Every step keeps the invariant. -/
theorem Lasting.step {action : Action} (h : Lasting cfg m) (howning : Owning m)
    (hstep : m.step cfg action = some m') : Lasting cfg m' := by
  cases action with
  | collector input =>
      have hlooping := collectorStep_leads (looping_leads h.looping) hstep
      have hcontinuous := collectorStep_leads (continuous_leads h.continuous) hstep
      have hsame := collectorStep_main hstep
      have hbeginning (hmain : m.main = .waiting) : Beginning cfg m' :=
        (h.beginning hmain).collectorStep howning h.looping hstep
      refine ⟨hlooping, hcontinuous, fun hmain => ?_, fun hmain hlow => ?_⟩
      · exact hbeginning (hsame ▸ hmain)
      · rw [hsame] at hmain
        exact GoneOut.collectorStep (h.beginning hmain) (hbeginning hmain) h.continuous
          (h.low hmain) hlow hstep
  | main signal =>
      obtain ⟨hplace, -⟩ := mainStep_place hstep
      refine ⟨hplace.pc ▸ h.looping, hplace.pc ▸ h.continuous, fun hmain => ?_,
        fun hmain hlow => ?_⟩
      · obtain ⟨hobjects, honce⟩ := mainStep_looks hmain hstep
        exact (h.beginning ((mainStep_waiting hstep).1 hmain)).congr hplace.pc hobjects honce
      have hwaiting := (mainStep_waiting hstep).1 hmain
      obtain ⟨hobjects, honce⟩ := mainStep_looks hmain hstep
      obtain ⟨hcount, hrunning⟩ := mainStep_counts hstep
      have hsame := hrunning (by rw [hwaiting]; nofun)
      cases h.low hwaiting (hsame ▸ hlow) with
      | unstarted hat => exact GoneOut.unstarted (hplace.pc ▸ hat)
      | unserved hat hu => exact GoneOut.unserved (hplace.pc ▸ hat) (hu.congr hobjects honce)
      | gaveUp hkeep hat hr =>
          exact GoneOut.gaveUp hkeep (hplace.pc ▸ hat) (hr.congr hobjects honce)
      | reached hcont hmax hreached => exact GoneOut.reached hcont hmax (hcount ▸ hreached)

theorem lasting_initial (cfg : Config) (supply : List Reply) :
    Lasting cfg (Machine.initial cfg supply) where
  looping := nofun
  continuous := nofun
  beginning _ := ⟨fun _ => ⟨rfl, rfl⟩, nofun, nofun, nofun⟩
  low _ _ := GoneOut.unstarted rfl

end Waiting

/-! ## Runs -/

section Runs

variable {cfg : Config} {supply : List Reply} {actions : List Action} {t : Step}
  {trace before behind : List Step}

/-- Once `running_` is low behind the start of the collector's thread, both threads come
to their end. -/
theorem endsSoon
    (hrun : history (Machine.step cfg) (Machine.initial cfg supply) actions =
      some (before ++ t :: behind))
    (hlow : t.after.running = false) (hstarted : t.after.pc.unstarted = false) :
    EndsSoon cfg t behind := by
  obtain ⟨actions', hbehind⟩ := history_behind hrun
  have h : Halting t.after := ⟨hlow, hstarted⟩
  have hsteps := funds_remaining.countP_le h hbehind
  have hcollector := (funds_places (f := Pc.remaining) (p := fun _ => true) fun _ h =>
    remaining_leads h).countP_le h hbehind
  have hcycles := (funds_places fun _ h => cyclesLeft_leads h).countP_le h hbehind
  have hkept : KeptWhen (Machine.step cfg) (fun _ => True) Halting :=
    fun _ _ _ h hstep _ => h.step hstep
  refine ⟨?_, ?_, ?_, fun u hu => ?_, fun _ _ hstuck => joined_of_stuck hstuck⟩
  · rw [List.countP_true] at hsteps
    exact Nat.le_trans hsteps
      (Nat.add_le_add (Pc.remaining_le t.after.pc) (MainPc.remaining_le t.after.main))
  · exact Nat.le_trans hcollector (Pc.remaining_le t.after.pc)
  · exact Nat.le_trans hcycles (Pc.cyclesLeft_le t.after.pc)
  · obtain ⟨-, hfront, -⟩ := hkept.of_mem h hbehind (fun _ _ => trivial) hu
    unfold Step.naps Step.waits
    rw [hfront.low, Bool.and_false]
    exact ⟨rfl, Bool.and_false _⟩

/-- The twelfth step of `stoppedRun` lowers `running_`. -/
theorem stoppedRun_low :
    (stoppedRun.any fun steps => steps[11]?.any fun t =>
      !t.after.running && !t.after.pc.unstarted) = true := by decide +kernel

theorem endsSoon_stoppedRun :
    ∃ before t behind, stoppedRun = some (before ++ t :: behind) ∧
      EndsSoon everySecond t behind := by
  obtain ⟨steps, htrace, hany⟩ := (Option.any_eq_true _ _).mp stoppedRun_low
  obtain ⟨t, ht, hflags⟩ := (Option.any_eq_true _ _).mp hany
  obtain ⟨hlt, rfl⟩ := List.getElem?_eq_some_iff.mp ht
  rw [Bool.and_eq_true, Bool.not_eq_true', Bool.not_eq_true'] at hflags
  have hsplit : steps = steps.take 11 ++ steps[11] :: steps.drop 12 := by
    rw [← List.drop_eq_getElem_cons hlt, List.take_append_drop]
  have hrun : stoppedRun = some (steps.take 11 ++ steps[11] :: steps.drop 12) :=
    htrace.trans (congrArg some hsplit)
  exact ⟨_, _, _, hrun, endsSoon hrun hflags.1 hflags.2⟩

/-- The main thread leaves its loop for a signal, or because `running_` is not set, for one
of the reasons. -/
theorem leavesFor
    (hrun : history (Machine.step cfg) (Machine.initial cfg supply) actions = some trace)
    (ht : t ∈ trace) (hends : t.endsWaiting = true) :
    t.signalled = true ∨ t.before.running = false ∧ GoneOut cfg t.before := by
  have hkept : KeptWhen (Machine.step cfg) (fun _ => True) fun m => Owning m ∧ Lasting cfg m :=
    fun _ _ _ h hstep _ => ⟨h.1.step hstep, h.2.step h.1 hstep⟩
  obtain ⟨hstep, ⟨-, hinv⟩, -⟩ := hkept.of_mem
    ⟨owning_initial cfg supply, lasting_initial cfg supply⟩ hrun (fun _ _ => trivial) ht
  rcases t with ⟨action, m, m'⟩
  unfold Step.endsWaiting at hends
  rw [Bool.and_eq_true, decide_eq_true_iff, Bool.not_eq_true', decide_eq_false_iff_not] at hends
  obtain ⟨hwaiting, hleft⟩ := hends
  cases action with
  | collector input => exact absurd ((collectorStep_main hstep).trans hwaiting) hleft
  | main signal =>
      rcases (mainStep_waiting hstep).2 hwaiting hleft with hsignal | hlow
      · exact Or.inl hsignal
      · exact Or.inr ⟨hlow, hinv.low hwaiting hlow⟩

/-- The run to the end of `run_continuous`, and the test of the main thread behind it. -/
def unpromptedRun : Option (List Step) :=
  history (Machine.step oneCycle) (Machine.initial oneCycle quietSupply)
    (List.replicate 26 (.collector {}) ++ [.main false])

theorem unpromptedRun_ends :
    (unpromptedRun.any fun trace => trace.any fun t => t.endsWaiting && !t.signalled) =
      true := by decide +kernel

theorem leavesFor_unpromptedRun :
    ∃ trace, unpromptedRun = some trace ∧
      ∃ t ∈ trace, t.signalled = false ∧
        (t.signalled = true ∨ t.before.running = false ∧ GoneOut oneCycle t.before) := by
  obtain ⟨trace, htrace, hany⟩ := (Option.any_eq_true _ _).mp unpromptedRun_ends
  obtain ⟨t, ht, hends⟩ := List.any_eq_true.mp hany
  rw [Bool.and_eq_true, Bool.not_eq_true'] at hends
  exact ⟨trace, htrace, t, ht, hends.2, leavesFor htrace ht hends.1⟩

end Runs

end IbmmqExporter.Collector
