/-
  Collector/Timed.lean --- when the queues are rediscovered.

  `setup_after_connect` and a rediscovery keep the time of the steady clock in
  `last_rediscovery_`, and `run_continuous` compares what has passed since, in whole
  seconds, with `rediscover_interval`.  The machine of `Machine.lean` leaves it to the
  environment whether the time is up; here the readings of the clock decide.

  WHAT THE FILE PROVES.  A run under the clock is a run of the machine
  (`timed_refines`).  In it a rediscovery comes at least `rediscover_interval` seconds
  after every earlier discovery (`rediscoveries_apart`).
-/
import IbmmqExporter.Collector.Machine
import IbmmqExporter.Foundation.History

set_option autoImplicit false

namespace IbmmqExporter.Collector

open Foundation Mq

/-! ## The clock -/

/-- A second on the steady clock, which counts nanoseconds. -/
def second : Nat := 1000000000

/-- The machine, the last reading of the clock, and `last_rediscovery_`. -/
structure Timed where
  machine : Machine
  clock : Nat
  lastRediscovery : Nat
  last_le : lastRediscovery ≤ clock

/-- The collector as `run_collector` makes it, when the clock reads `clock`. -/
def Timed.initial (cfg : Config) (supply : List Reply) (clock : Nat) : Timed :=
  { machine := Machine.initial cfg supply, clock, lastRediscovery := 0,
    last_le := Nat.zero_le clock }

/-- An action of the environment, and what the clock reads at it. -/
structure Tick where
  action : Action
  now : Nat

/-- `elapsed >= config_.collector.rediscover_interval`. -/
def Timed.due (cfg : Config) (t : Timed) (now : Nat) : Bool :=
  decide (cfg.rediscoverInterval ≤ ((now - t.lastRediscovery) / second : Nat))

/-- The action, with the answer of the clock. -/
def Action.withDue (due : Bool) : Action → Action
  | .collector input => .collector { input with due }
  | .main signal => .main signal

/-- It is a step of the thread of `Collector::start`. -/
def Action.isCollector : Action → Bool
  | .collector _ => true
  | .main _ => false

/-- The step rediscovers the queues. -/
def Timed.rediscovers (cfg : Config) (t : Timed) (tick : Tick) (m : Machine) : Bool :=
  tick.action.isCollector && t.machine.pc = .rediscovery && 0 < cfg.rediscoverInterval &&
    t.due cfg tick.now && m.pc = .cycle

/-- The step sets `last_rediscovery_`: the setup behind a connection, or a rediscovery. -/
def Timed.discovers (cfg : Config) (t : Timed) (tick : Tick) (m : Machine) : Bool :=
  tick.action.isCollector && t.machine.pc = .setup && m.pc = .collect ||
    t.rediscovers cfg tick m

/-- A step under the clock, which does not go back. -/
def Timed.step (cfg : Config) (t : Timed) (tick : Tick) : Option Timed :=
  if h : t.clock ≤ tick.now then
    (t.machine.step cfg (tick.action.withDue (t.due cfg tick.now))).map fun m =>
      { machine := m
        clock := tick.now
        lastRediscovery := if t.discovers cfg tick m then tick.now else t.lastRediscovery
        last_le := by
          split
          · exact Nat.le_refl _
          · exact Nat.le_trans t.last_le h }
  else none

/-- A rediscovery in a run. -/
def Rediscovers (cfg : Config) (t : Transition Timed Tick) : Prop :=
  t.before.rediscovers cfg t.action t.after.machine = true

/-- A discovery in a run: a rediscovery, or that of a setup. -/
def Discovers (cfg : Config) (t : Transition Timed Tick) : Prop :=
  t.before.discovers cfg t.action t.after.machine = true

/-! ## Runs -/

variable {cfg : Config}

/-- What a step under the clock is. -/
theorem Timed.step_eq_some {t t' : Timed} {tick : Tick} (h : t.step cfg tick = some t') :
    t.clock ≤ tick.now ∧
      t.machine.step cfg (tick.action.withDue (t.due cfg tick.now)) = some t'.machine ∧
      t'.clock = tick.now ∧
      t'.lastRediscovery =
        if t.discovers cfg tick t'.machine then tick.now else t.lastRediscovery := by
  unfold Timed.step at h
  split at h
  · next hclock =>
      obtain ⟨m, hm, rfl⟩ := Option.map_eq_some_iff.mp h
      exact ⟨hclock, hm, rfl, rfl⟩
  · cases h

/-- A step under the clock is a step of the machine. -/
theorem timed_refines (cfg : Config) :
    Refines (Timed.step cfg) (Machine.step cfg) Timed.machine
      fun tick action => ∃ due, action = tick.action.withDue due := by
  intro t tick t' hstep
  obtain ⟨-, hmachine, -⟩ := Timed.step_eq_some hstep
  exact ⟨_, ⟨_, rfl⟩, hmachine⟩

theorem lastRediscovery_mono (t : Timed) (tick : Tick) (t' : Timed)
    (hstep : t.step cfg tick = some t') : t.lastRediscovery ≤ t'.lastRediscovery := by
  obtain ⟨hclock, -, -, hlast⟩ := Timed.step_eq_some hstep
  rw [hlast]
  split
  · exact Nat.le_trans t.last_le hclock
  · exact Nat.le_refl _

/-- A rediscovery comes when the interval has passed. -/
theorem passed_of_rediscovers {t : Transition Timed Tick} (h : Rediscovers cfg t) :
    t.before.lastRediscovery + cfg.rediscoverInterval.toNat * second ≤ t.action.now := by
  unfold Rediscovers Timed.rediscovers Timed.due at h
  simp only [Bool.and_eq_true, decide_eq_true_eq] at h
  obtain ⟨⟨⟨-, hpos⟩, hdue⟩, -⟩ := h
  have hseconds : cfg.rediscoverInterval.toNat ≤
      (t.action.now - t.before.lastRediscovery) / second := by omega
  have hpassed := Nat.mul_le_of_le_div _ _ _ hseconds
  have hsecond : 0 < second := by decide
  have hmul : 0 < cfg.rediscoverInterval.toNat * second := Nat.mul_pos (by omega) hsecond
  omega

/-- A rediscovery comes at least the interval after every earlier discovery. -/
theorem rediscoveries_apart {start : Timed} {ticks : List Tick}
    {trace : List (Transition Timed Tick)}
    (hrun : history (Timed.step cfg) start ticks = some trace) :
    trace.Pairwise fun t u => Discovers cfg t → Rediscovers cfg u →
      t.action.now + cfg.rediscoverInterval.toNat * second ≤ u.action.now := by
  have hpairs := (history_monotone lastRediscovery_mono hrun).2
  refine hpairs.imp_of_mem ?_
  intro t u ht _ hle hdiscovers hrediscovers
  obtain ⟨-, -, -, hlast⟩ := Timed.step_eq_some (step_of_mem hrun ht)
  unfold Discovers at hdiscovers
  rw [if_pos hdiscovers] at hlast
  have hpassed := passed_of_rediscovers hrediscovers
  omega

end IbmmqExporter.Collector
