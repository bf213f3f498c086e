/-
  Collector/Pacing.lean --- how often the collector collects and connects.

  Between two cycles of `run_continuous`, and between two attempts to connect, `start`
  sleeps in turns of 100 ms.

  WHAT THE FILE PROVES.  In every run the turns slept pay for all cycles but the first,
  at as many turns a cycle as the interval has, and those slept behind failures for all
  attempts to connect but the first.  The potential of a state is the number of turns
  that have been slept for the next cycle, or for the next attempt.  Where the products
  fit into an `int`, these are ten turns for a second (`run_paced`).
-/
import IbmmqExporter.Collector.Rediscovery
import IbmmqExporter.Foundation.Potential

set_option autoImplicit false

namespace IbmmqExporter.Collector

open Foundation Mq

/-! ## Sleeping -/

/-- The places of a turn of the sleep between two cycles. -/
def Pc.napping : Pc → Bool
  | .sleep (_ + 1) => true
  | _ => false

/-- The places of a turn of the sleep between two attempts to connect. -/
def Pc.retrying : Pc → Bool
  | .retry (_ + 1) => true
  | _ => false

/-- `sleep_for` of 100 ms between two cycles. -/
def Step.naps (t : Step) : Bool := t.isAt Pc.napping && t.before.running

/-- `sleep_for` of 100 ms between two attempts to connect. -/
def Step.waits (t : Step) : Bool := t.isAt Pc.retrying && t.before.running

/-- The times for which `start` computes the turns that are meant: none is negative, and
the products fit into an `int`. -/
structure Config.Timely (cfg : Config) : Prop where
  interval : 0 ≤ cfg.interval ∧ cfg.interval ≤ 214748364
  reconnectInterval : 0 ≤ cfg.reconnectInterval ∧ cfg.reconnectInterval ≤ 214748364

/-- What is asked of a run: no more cycles and attempts than have been slept for, at ten
turns a second. -/
structure Paced (cfg : Config) (trace : List Step) : Prop where
  cycles : 10 * cfg.interval * trace.countP Step.isCycle ≤
    10 * cfg.interval + trace.countP Step.naps
  attempts : 10 * cfg.reconnectInterval * trace.countP Step.isTryConnect ≤
    10 * cfg.reconnectInterval + trace.countP Step.waits

theorem turns_eq {seconds : Int} (h : 0 ≤ seconds ∧ seconds ≤ 214748364) :
    (turns seconds : Int) = 10 * seconds := by
  unfold turns tenths
  rw [Int32.toInt_ofInt_of_le (by omega) (by omega)]
  omega

/-! ## The potentials -/

/-- The turns that have been slept for the next cycle, of as many as `n`; the first cycle
is free. -/
def Pc.slept (n : Nat) (running collectorEnd : Bool) : Pc → Nat
  | .start | .serving | .qmgr | .connect | .retry _ | .setup | .collect | .first | .once => n
  | .loop => if running && !collectorEnd then n else 0
  | .loopEnd => if !collectorEnd then n else 0
  | .sleep k => n - k
  | .wake | .rediscovery | .cycle => n
  | _ => 0

/-- The turns that have been slept for the next attempt to connect; the first attempt is
free. -/
def Pc.waited (n : Nat) (running collectorEnd : Bool) : Pc → Nat
  | .start | .serving | .qmgr | .connect => n
  | .loop => if running && !collectorEnd then n else 0
  | .loopEnd => if !collectorEnd then n else 0
  | .retry k => n - k
  | _ => 0

/-- The potential of a machine, from that of places and flags. -/
def Machine.saved (f : Bool → Bool → Pc → Nat) (m : Machine) : Nat :=
  f m.running m.collectorEnd m.pc

section Funds

variable {cfg : Config} {f : Bool → Bool → Pc → Nat} {earns spends : Pc → Bool} {cost : Nat}

/-- A potential of places and flags pays in a run if it pays for what the collector's
thread does at each place, and is not higher when the flags stop the thread. -/
theorem funds_of_leads
    (hleads : ∀ m, SetsUpOnce m → m.Leads cfg fun n =>
      n.saved f + (if spends m.pc then cost else 0) ≤
        m.saved f + if earns m.pc && m.running then 1 else 0)
    (hflags : ∀ running running' ended ended' pc, (running = false → running' = false) →
      (ended = true → ended' = true) → f running' ended' pc ≤ f running ended pc) :
    Funds (Machine.step cfg) SetsUpOnce (Machine.saved f)
      (fun t : Step => if t.isAt earns && t.before.running then 1 else 0)
      fun t : Step => if t.isAt spends then cost else 0 where
  keeps m action m' hm hstep := by
    cases action with
    | collector input => exact hm.of_collectorStep hstep
    | main signal => exact (hm.mainStep hstep).1
  pays m action m' hm hstep := by
    cases action with
    | collector input =>
        have hpaid := collectorStep_leads (hleads m hm) hstep
        exact hpaid
    | main signal =>
        obtain ⟨hplace, hend⟩ := mainStep_place hstep
        have hle := hflags m.running m'.running m.collectorEnd m'.collectorEnd m.pc
          hplace.running hend
        show m'.saved f ≤ m.saved f
        unfold Machine.saved
        rwa [hplace.pc]

theorem ite_le_ite {p p' : Bool} (n : Nat) (h : p' = true → p = true) :
    (if p' then n else 0) ≤ if p then n else 0 := by
  cases hp' : p' with
  | true => rw [h hp']
  | false => exact Nat.zero_le _

/-- The flags can only keep the thread from connecting. -/
theorem allowed_of_flags {running running' ended ended' : Bool}
    (hrunning : running = false → running' = false) (hended : ended = true → ended' = true) :
    ((running' && !ended') = true → (running && !ended) = true) ∧
      ((!ended') = true → (!ended) = true) := by
  cases running <;> cases ended <;> simp_all

theorem slept_flags (n : Nat) (running running' ended ended' : Bool) (pc : Pc)
    (hrunning : running = false → running' = false) (hended : ended = true → ended' = true) :
    pc.slept n running' ended' ≤ pc.slept n running ended := by
  have hallowed := allowed_of_flags hrunning hended
  cases pc with
  | loop => exact ite_le_ite n hallowed.1
  | loopEnd => exact ite_le_ite n hallowed.2
  | _ => exact Nat.le_refl _

theorem waited_flags (n : Nat) (running running' ended ended' : Bool) (pc : Pc)
    (hrunning : running = false → running' = false) (hended : ended = true → ended' = true) :
    pc.waited n running' ended' ≤ pc.waited n running ended := by
  have hallowed := allowed_of_flags hrunning hended
  cases pc with
  | loop => exact ite_le_ite n hallowed.1
  | loopEnd => exact ite_le_ite n hallowed.2
  | _ => exact Nat.le_refl _

end Funds

/-! ## Places -/

section Places

variable {cfg : Config} {m : Machine}

theorem slept_leave (n : Nat) (running ended : Bool) : (leave cfg).slept n running ended = 0 := by
  unfold leave
  split
  · rfl
  · rfl

theorem waited_leave (n : Nat) (running ended : Bool) :
    (leave cfg).waited n running ended = 0 := by
  unfold leave
  split
  · rfl
  · rfl

theorem slept_le (n : Nat) (running ended : Bool) (pc : Pc) : pc.slept n running ended ≤ n := by
  cases pc <;> simp only [Pc.slept] <;> first | omega | split <;> omega

theorem waited_le (n : Nat) (running ended : Bool) (pc : Pc) :
    pc.waited n running ended ≤ n := by
  cases pc <;> simp only [Pc.waited] <;> first | omega | split <;> omega

/-- The places in front of a cycle at which all turns have been slept for. -/
def Pc.rested : Pc → Bool
  | .start | .serving | .qmgr | .connect | .retry _ | .setup | .collect | .wake | .rediscovery =>
    true
  | _ => false

theorem slept_of_rested {pc : Pc} (h : pc.rested = true) (n : Nat) (running ended : Bool) :
    pc.slept n running ended = n ∧ pc.isCycle = false := by
  cases pc <;> first | exact ⟨rfl, rfl⟩ | cases h

/-- A turn at a time, until the loop is left. -/
theorem slept_leads (hm : SetsUpOnce m) : m.Leads cfg fun m' =>
    m'.saved (Pc.slept (turns cfg.interval)) + (if m.pc.isCycle then turns cfg.interval else 0) ≤
      m.saved (Pc.slept (turns cfg.interval)) +
        if m.pc.napping && m.running then 1 else 0 := by
  have hlost := hm.pc_ne_lost
  unfold Machine.saved
  by_cases hrested : m.pc.rested = true
  · obtain ⟨hfull, hcycle⟩ :=
      slept_of_rested hrested (turns cfg.interval) m.running m.collectorEnd
    refine leads_of_forall fun m' => ?_
    rw [hfull, hcycle]
    exact Nat.le_trans (slept_le ..) (Nat.le_add_right _ _)
  unfold Machine.Leads
  cases hat : m.pc with
  | lost => exact absurd hat hlost
  | sleep n =>
      cases n with
      | zero => simp [Pc.slept, Machine.goto, Pc.isCycle]
      | succ n =>
          cases m.running with
          | true =>
              have hturn : turns cfg.interval - n ≤ turns cfg.interval - (n + 1) + 1 := by omega
              simpa [Pc.slept, Machine.goto, Pc.napping, Pc.isCycle] using hturn
          | false => simp [Machine.goto, slept_leave, Pc.isCycle]
  | loop | loopEnd | left | leftEnd =>
      cases hrunning : m.running <;> cases hend : m.collectorEnd <;>
        simp [Pc.slept, Machine.goto, hrunning, hend, Pc.isCycle]
  | test | count | once =>
      simp only [Machine.goto, apply_ite (Pc.slept _ _ _), slept_leave]
      simp [Pc.slept, Pc.isCycle]
  | first | cycle | giveUp | onceEnd => simp [Pc.slept, Machine.goto, Pc.isCycle]
  | finished | failed => trivial
  | _ =>
      rw [hat] at hrested
      exact absurd rfl hrested

/-- A turn at a time behind a failure, and no other way leads back to an attempt. -/
theorem waited_leads (hm : SetsUpOnce m) : m.Leads cfg fun m' =>
    m'.saved (Pc.waited (turns cfg.reconnectInterval)) +
        (if decide (m.pc = .connect) then turns cfg.reconnectInterval else 0) ≤
      m.saved (Pc.waited (turns cfg.reconnectInterval)) +
        if m.pc.retrying && m.running then 1 else 0 := by
  have hlost := hm.pc_ne_lost
  have hfull (m' : Machine) := waited_le (turns cfg.reconnectInterval) m'.running m'.collectorEnd
    m'.pc
  unfold Machine.Leads Machine.saved
  cases hat : m.pc with
  | lost => exact absurd hat hlost
  | start | qmgr => exact Nat.le_trans (hfull _) (Nat.le_add_right _ _)
  | serving =>
      exact ⟨Nat.zero_le _, Nat.le_trans (hfull _) (Nat.le_add_right _ _)⟩
  | connect => cases cfg.keepRunning <;> simp [Pc.waited, Machine.goto]
  | retry n =>
      cases n with
      | zero =>
          have hloop := hfull (m.goto .loop)
          simp only [Pc.waited, Nat.sub_zero]
          exact Nat.le_trans hloop (Nat.le_add_right _ _)
      | succ n =>
          cases hrunning : m.running with
          | true =>
              have hturn : turns cfg.reconnectInterval - n ≤
                  turns cfg.reconnectInterval - (n + 1) + 1 := by omega
              simpa [Pc.waited, Machine.goto, Pc.retrying] using hturn
          | false => simp [Pc.waited, Machine.goto, hrunning]
  | loop | loopEnd | left | leftEnd =>
      cases hrunning : m.running <;> cases hend : m.collectorEnd <;>
        simp [Pc.waited, Machine.goto, hrunning, hend]
  | sleep n =>
      cases n with
      | zero => simp [Pc.waited, Machine.goto]
      | succ n =>
          simp only [Machine.goto, apply_ite (Pc.waited _ _ _), waited_leave]
          simp [Pc.waited]
  | collect | test | wake | count | once =>
      simp only [Machine.goto, apply_ite (Pc.waited _ _ _), waited_leave]
      simp [Pc.waited]
  | finished | failed => trivial
  | _ => simp [Pc.waited, Machine.goto]

end Places

/-! ## Runs -/

section Runs

variable {cfg : Config} {supply : List Reply} {actions : List Action} {trace : List Step}

theorem setsUpOnce_initial (cfg : Config) (supply : List Reply) :
    SetsUpOnce (Machine.initial cfg supply) := (watching_initial cfg supply).setsUp

/-- All cycles but the first have been slept for. -/
theorem turns_mul_cycles_le
    (hrun : history (Machine.step cfg) (Machine.initial cfg supply) actions = some trace) :
    turns cfg.interval * trace.countP Step.isCycle ≤
      turns cfg.interval + trace.countP Step.naps :=
  (funds_of_leads (fun _ hm => slept_leads hm) (slept_flags _)).mul_countP_le
    (setsUpOnce_initial cfg supply) hrun

/-- All attempts to connect but the first have been slept for. -/
theorem turns_mul_attempts_le
    (hrun : history (Machine.step cfg) (Machine.initial cfg supply) actions = some trace) :
    turns cfg.reconnectInterval * trace.countP Step.isTryConnect ≤
      turns cfg.reconnectInterval + trace.countP Step.waits :=
  (funds_of_leads (fun _ hm => waited_leads hm) (waited_flags _)).mul_countP_le
    (setsUpOnce_initial cfg supply) hrun

/-- Every run is paced. -/
theorem run_paced (hcfg : cfg.Timely)
    (hrun : history (Machine.step cfg) (Machine.initial cfg supply) actions = some trace) :
    Paced cfg trace where
  cycles := by
    rw [← turns_eq hcfg.interval]
    exact_mod_cast turns_mul_cycles_le hrun
  attempts := by
    rw [← turns_eq hcfg.reconnectInterval]
    exact_mod_cast turns_mul_attempts_le hrun

/-- The queue manager has no message for the collector. -/
def idleSupply : List Reply :=
  List.replicate 6 { cc := .ok } ++
    List.replicate 12 { cc := .failed, rc := mqrcNoMsgAvailable }

/-- The run to the third cycle. -/
def pacedRun : Option (List Step) :=
  history (Machine.step everySecond) (Machine.initial everySecond idleSupply)
    (List.replicate 42 (.collector {}))

/-- The third cycle has had to wait for all of the turns. -/
theorem pacedRun_cycles :
    (pacedRun.any fun trace => trace.countP Step.isCycle == 3 && trace.countP Step.naps == 20) =
      true := by decide +kernel

theorem timely_everySecond : everySecond.Timely :=
  ⟨⟨by decide, by decide⟩, ⟨by decide, by decide⟩⟩

theorem run_paced_pacedRun : ∃ trace, pacedRun = some trace ∧ Paced everySecond trace := by
  obtain ⟨trace, htrace, -⟩ := (Option.any_eq_true _ _).mp pacedRun_cycles
  exact ⟨trace, htrace, run_paced timely_everySecond htrace⟩

end Runs

end IbmmqExporter.Collector
