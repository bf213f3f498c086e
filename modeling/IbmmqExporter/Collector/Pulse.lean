/-
  Collector/Pulse.lean --- that the collector goes on collecting and connecting.

  As long as `running_` is set, `start` does one of two things again and again: it
  collects, or it tries to connect.

  WHAT THE FILE PROVES.  In every part of a run in which `running_` is set, a cycle or an
  attempt to connect follows upon the last one within as many steps of the collector's
  thread as its longer sleep has turns, and nine.  The potential of a state is the number
  of steps to the next of them.  Where the products fit into an `int`, the longer sleep
  has ten turns for a second (`run_beats`).
-/
import IbmmqExporter.Collector.Ending

set_option autoImplicit false

namespace IbmmqExporter.Collector

open Foundation Mq

/-! ## Beats -/

/-- The places of the cycles and of the attempts to connect. -/
def Pc.beating : Pc → Bool
  | .connect | .first | .cycle | .once => true
  | _ => false

/-- A cycle or an attempt to connect. -/
def Step.beats (t : Step) : Bool := t.isAt Pc.beating

/-- The steps from one of them to the next. -/
def gap (cfg : Config) : Nat := max (turns cfg.interval) (turns cfg.reconnectInterval) + 9

/-- What is asked of a run: where `running_` is set, the steps of the collector's thread
from one of them to the next are no more than ten for each second of the longer sleep,
and nine. -/
def Beats (cfg : Config) (trace : List Step) : Prop :=
  ∀ front part behind, trace = front ++ (part ++ behind) →
    (∀ t ∈ part, t.before.running = true) →
      (part.countP Step.byCollector : Int) ≤
        (10 * max cfg.interval cfg.reconnectInterval + 9) * (part.countP Step.beats + 1)

/-! ## The potential -/

/-- The steps to the next cycle or attempt to connect, or to the end of the thread. -/
def Pc.ahead (cfg : Config) : Pc → Nat
  | .connect | .first | .cycle | .once | .finished | .failed => 0
  | .collect | .rediscovery | .giveUp => 1
  | .setup | .qmgr | .wake => 2
  | .loopEnd => 3
  | .loop => 4
  | .serving | .lost => 5
  | .start | .leftEnd => 6
  | .left => 7
  | .onceEnd => 8
  | .retry n => n + 5
  | .sleep n => n + 3
  | .test => turns cfg.interval + 4
  | .count => turns cfg.interval + 8

section Ahead

variable {cfg : Config} {m : Machine}

/-- The steps that are left, if the turns of a sleep are no more than it has. -/
def Machine.Sleeps (cfg : Config) (m : Machine) : Prop :=
  (∀ n, m.pc = .retry n → n ≤ turns cfg.reconnectInterval) ∧
    ∀ n, m.pc = .sleep n → n ≤ turns cfg.interval

theorem ahead_le (h : m.Sleeps cfg) : m.pc.ahead cfg + 1 ≤ gap cfg := by
  have hinterval := Nat.le_max_left (turns cfg.interval) (turns cfg.reconnectInterval)
  have hreconnect := Nat.le_max_right (turns cfg.interval) (turns cfg.reconnectInterval)
  unfold gap
  cases hat : m.pc with
  | retry n =>
      have hn := h.1 n hat
      show n + 5 + 1 ≤ _
      omega
  | sleep n =>
      have hn := h.2 n hat
      show n + 3 + 1 ≤ _
      omega
  | _ =>
      simp only [Pc.ahead]
      omega

/-- One of two places, both of them nearer to a beat. -/
theorem ahead_ite {p : Prop} [Decidable p] {pc pc' : Pc} {n : Nat} (h : pc.ahead cfg < n)
    (h' : pc'.ahead cfg < n) : (if p then pc else pc').ahead cfg + 1 ≤ n := by
  split
  · exact h
  · exact h'

theorem ahead_leave : (leave cfg).ahead cfg < turns cfg.interval + 8 := by
  have hle : (leave cfg).ahead cfg ≤ 7 := by
    unfold leave
    split
    · exact Nat.le_refl _
    · exact Nat.zero_le _
  omega

theorem sleeps_leave {running : Bool} : ({ m with running, pc := leave cfg }).Sleeps cfg := by
  unfold leave Machine.Sleeps
  dsimp only
  split
  · exact ⟨nofun, nofun⟩
  · exact ⟨nofun, nofun⟩

/-- There is no step behind the end of the thread. -/
theorem ne_ends {m' : Machine} {input : Input} (hstep : m.collectorStep cfg input = some m') :
    m.pc ≠ .finished ∧ m.pc ≠ .failed := by
  unfold Machine.collectorStep at hstep
  refine ⟨fun hat => ?_, fun hat => ?_⟩
  · rw [hat] at hstep
    cases hstep
  · rw [hat] at hstep
    cases hstep

/-- A step between two beats takes the thread nearer to the second. -/
theorem ahead_leads (hrunning : m.running = true) (hbeat : m.pc.beating = false)
    (hends : m.pc ≠ .finished ∧ m.pc ≠ .failed) :
    m.Leads cfg fun n => n.pc.ahead cfg + 1 ≤ m.pc.ahead cfg := by
  unfold Machine.Leads
  cases hat : m.pc with
  | start | loopEnd | qmgr | collect | leftEnd =>
      exact ahead_ite (by simp [Pc.ahead]) (by simp [Pc.ahead])
  | serving =>
      exact ⟨Nat.le_of_ble_eq_true rfl, ahead_ite (by simp [Pc.ahead]) (by simp [Pc.ahead])⟩
  | loop | left | wake =>
      rw [hrunning]
      exact Nat.le_refl _
  | retry n | sleep n =>
      cases n with
      | zero => exact Nat.le_refl _
      | succ n =>
          rw [hrunning]
          exact Nat.le_refl _
  | test =>
      rw [hrunning]
      exact Nat.le_refl _
  | count => exact ⟨ahead_leave, by simp [Pc.ahead, Machine.goto]⟩
  | giveUp | onceEnd => exact Nat.le_refl _
  | setup | rediscovery | lost => exact ⟨Nat.le_refl _, by simp [Pc.ahead, Machine.goto]⟩
  | finished => exact absurd hat hends.1
  | failed => exact absurd hat hends.2
  | connect | first | cycle | once =>
      rw [hat] at hbeat
      cases hbeat

/-- A sleep begins with its turns, and loses them. -/
theorem Machine.Sleeps.leads (h : m.Sleeps cfg) : m.Leads cfg fun n => n.Sleeps cfg := by
  unfold Machine.Leads
  cases hat : m.pc with
  | connect =>
      refine ⟨⟨nofun, nofun⟩, ?_⟩
      cases cfg.keepRunning with
      | false => exact ⟨nofun, nofun⟩
      | true =>
          refine ⟨fun n hn => ?_, nofun⟩
          obtain rfl := Pc.retry.inj hn
          exact Nat.le_refl _
  | retry n =>
      cases n with
      | zero => exact ⟨nofun, nofun⟩
      | succ n =>
          have hturns := h.1 (n + 1) hat
          cases m.running with
          | false => exact ⟨nofun, nofun⟩
          | true =>
              refine ⟨fun k hk => ?_, nofun⟩
              obtain rfl := Pc.retry.inj hk
              exact Nat.le_of_succ_le hturns
  | test =>
      cases m.running with
      | false => exact sleeps_leave
      | true =>
          refine ⟨nofun, fun n hn => ?_⟩
          obtain rfl := Pc.sleep.inj hn
          exact Nat.le_refl _
  | sleep n =>
      cases n with
      | zero => exact ⟨nofun, nofun⟩
      | succ n =>
          have hturns := h.2 (n + 1) hat
          cases m.running with
          | false => exact sleeps_leave
          | true =>
              refine ⟨nofun, fun k hk => ?_⟩
              obtain rfl := Pc.sleep.inj hk
              exact Nat.le_of_succ_le hturns
  | wake =>
      cases m.running with
      | false => exact sleeps_leave
      | true => exact ⟨nofun, nofun⟩
  | count => exact ⟨sleeps_leave, nofun, nofun⟩
  | setup | rediscovery | lost => exact ⟨⟨nofun, nofun⟩, nofun, nofun⟩
  | serving =>
      refine ⟨⟨nofun, nofun⟩, ?_⟩
      cases cfg.keepRunning <;> exact ⟨nofun, nofun⟩
  | first | cycle | giveUp | onceEnd => exact ⟨nofun, nofun⟩
  | finished | failed => trivial
  | _ =>
      dsimp only [Machine.goto]
      split
      · exact ⟨nofun, nofun⟩
      · exact ⟨nofun, nofun⟩

/-- The steps that are not beats take from the potential, and a beat pays for all to the
next one. -/
theorem funds_ahead :
    Funds (Machine.step cfg) (Machine.Sleeps cfg) (fun m => m.pc.ahead cfg)
      (fun t : Step => if t.beats || !t.before.running then gap cfg else 0)
      fun t : Step => if t.byCollector then 1 else 0 where
  keeps m action m' h hstep := by
    cases action with
    | collector input =>
        have hsleeps := collectorStep_leads h.leads hstep
        exact hsleeps
    | main signal =>
        obtain ⟨hplace, -⟩ := mainStep_place hstep
        exact ⟨hplace.pc ▸ h.1, hplace.pc ▸ h.2⟩
  pays m action m' h hstep := by
    cases action with
    | main signal =>
        obtain ⟨hplace, -⟩ := mainStep_place hstep
        show m'.pc.ahead cfg ≤ _
        rw [hplace.pc]
        exact Nat.le_add_right _ _
    | collector input =>
        have hsleeps := collectorStep_leads h.leads hstep
        have hall : m'.pc.ahead cfg + 1 ≤ gap cfg := ahead_le hsleeps
        show m'.pc.ahead cfg + 1 ≤
          m.pc.ahead cfg + if m.pc.beating || !m.running then gap cfg else 0
        split
        · exact Nat.le_trans hall (Nat.le_add_left _ _)
        · next hpays =>
            rw [Bool.or_eq_true, not_or, Bool.not_eq_true, Bool.not_eq_true,
              Bool.not_eq_false'] at hpays
            exact collectorStep_leads (ahead_leads hpays.2 hpays.1 (ne_ends hstep)) hstep

end Ahead

/-! ## Runs -/

section Runs

variable {cfg : Config} {supply : List Reply} {actions : List Action} {trace : List Step}

theorem sleeps_initial (cfg : Config) (supply : List Reply) :
    (Machine.initial cfg supply).Sleeps cfg := ⟨nofun, nofun⟩

/-- Steps that are taken while `running_` is set have beats among them. -/
theorem byCollector_le_of_part {front part behind : List Step}
    (hrun : history (Machine.step cfg) (Machine.initial cfg supply) actions =
      some (front ++ (part ++ behind)))
    (hrunning : ∀ t ∈ part, t.before.running = true) :
    part.countP Step.byCollector ≤ gap cfg * (part.countP Step.beats + 1) := by
  obtain ⟨m, hm, hspent⟩ := funds_ahead.spent_le_part (sleeps_initial cfg supply) hrun
  rw [sum_map_ite, sum_map_ite, Nat.one_mul] at hspent
  have hbeats : part.countP (fun t => t.beats || !t.before.running) = part.countP Step.beats := by
    refine List.countP_congr fun t ht => ?_
    rw [hrunning t ht, Bool.not_true, Bool.or_false]
  rw [hbeats] at hspent
  have hall := ahead_le hm
  rw [Nat.mul_add, Nat.mul_one]
  omega

theorem gap_eq (h : cfg.Timely) :
    (gap cfg : Int) = 10 * max cfg.interval cfg.reconnectInterval + 9 := by
  unfold gap
  push_cast
  rw [turns_eq h.interval, turns_eq h.reconnectInterval]
  omega

/-- The collector goes on. -/
theorem run_beats (hcfg : cfg.Timely)
    (hrun : history (Machine.step cfg) (Machine.initial cfg supply) actions = some trace) :
    Beats cfg trace := by
  rintro front part behind rfl hrunning
  rw [← gap_eq hcfg]
  exact_mod_cast byCollector_le_of_part hrun hrunning

theorem run_beats_pacedRun : ∃ trace, pacedRun = some trace ∧ Beats everySecond trace := by
  obtain ⟨trace, htrace, -⟩ := (Option.any_eq_true _ _).mp pacedRun_cycles
  exact ⟨trace, htrace, run_beats timely_everySecond htrace⟩

end Runs

end IbmmqExporter.Collector
