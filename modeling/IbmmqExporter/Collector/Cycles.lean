/-
  Collector/Cycles.lean --- `max_cycles` and the cycles of a run.

  `run_continuous` collects once in front of its loop, and counts the cycles of the
  loop only.  It leaves the loop when the count has reached `max_cycles`: when there
  has been one cycle more.

  WHAT THE FILE PROVES.  A run makes more than `max_cycles` cycles as soon as the loop
  begins a cycle with one to go in its count, and otherwise it keeps to `max_cycles`
  (`boundedByMax_iff`).  Where `run_continuous` returns and has not been stopped, it has
  made `max_cycles + 1` cycles (`cycles_of_returns`).
-/
import IbmmqExporter.Collector.Reconnect

set_option autoImplicit false

namespace IbmmqExporter.Collector

open Foundation Mq

/-! ## What is asked of a run -/

/-- The number of calls of `collect_cycle`. -/
def cycles (trace : List Step) : Nat := trace.countP Step.isCycle

/-- The places in `run_continuous`. -/
def Pc.inContinuous : Pc → Bool
  | .first | .test | .sleep _ | .wake | .rediscovery | .cycle | .count => true
  | _ => false

/-- The places behind the collection. -/
def Pc.behind : Pc → Bool
  | .left | .finished => true
  | _ => false

/-- `run_continuous` returns. -/
def Step.returns (t : Step) : Bool := t.before.pc.inContinuous && t.after.pc.behind

/-- `running_ = false;` in `stop()`. -/
def Step.lowers (t : Step) : Bool :=
  match t.action with
  | .collector _ => false
  | .main _ => decide (t.before.main = .lower)

/-- What is asked of a run: `collect_cycle` is called no more than `max_cycles` times,
and just as often when `run_continuous` returns and has not been stopped. -/
structure BoundedByMax (cfg : Config) (trace : List Step) : Prop where
  atMost : (cycles trace : Int) ≤ cfg.maxCycles
  exactly : ∀ before t behind, trace = before ++ t :: behind → t.returns = true →
    (∀ u ∈ before, u.lowers = false) → (cycles before : Int) = cfg.maxCycles

/-- The loop of `run_continuous` begins a cycle with which its count will reach
`max_cycles`. -/
def Step.isLastCycle (cfg : Config) (t : Step) : Bool :=
  (t.isAt fun pc => decide (pc = .cycle)) &&
    decide (cfg.maxCycles ≤ t.before.cycleCount + 1)

/-! ## The invariant -/

/-- What the count of the loop and the number of cycles are at a place.  The loop of
`start` comes to its first test again only when the collector is stopped. -/
def Tally (cfg : Config) (n : Nat) (count : Int) (running : Bool) : Pc → Prop
  | .start | .serving | .loopEnd | .qmgr | .connect | .retry _ | .giveUp | .setup | .collect
  | .first => n = 0 ∧ count = 0
  | .loop => n = 0 ∧ count = 0 ∨ running = false
  | .test | .sleep _ | .wake | .rediscovery | .cycle => n = count + 1 ∧ count < cfg.maxCycles
  | .count => n = count + 2 ∧ count < cfg.maxCycles
  | .left => running = false
  | .once | .onceEnd | .leftEnd | .lost => False
  | .finished | .failed => True

/-- The places at which `running_` is set unless the collector is stopped. -/
def Pc.live : Pc → Bool
  | .loopEnd | .qmgr | .connect | .setup | .collect => true
  | pc => pc.inContinuous

/-- The invariant, with the steps up to a state. -/
structure Counted (cfg : Config) (past : List Step) (m : Machine) : Prop where
  tally : Tally cfg (cycles past) m.cycleCount m.running m.pc
  atMost : (cycles past : Int) ≤ cfg.maxCycles ↔ ∀ t ∈ past, t.isLastCycle cfg = false
  running : (∀ t ∈ past, t.lowers = false) → m.pc.live = true → m.running = true

section Steps

variable {cfg : Config} {m m' : Machine} {input : Input} {signal : Bool} {past : List Step}

theorem cycles_concat (past : List Step) (t : Step) :
    cycles (past ++ [t]) = cycles past + if t.isCycle then 1 else 0 := by
  unfold cycles
  rw [List.countP_append, List.countP_singleton]

/-- Where `running_` is not set any more, the tally allows what it has allowed. -/
theorem Tally.lower {n : Nat} {count : Int} {running running' : Bool} {pc : Pc}
    (h : Tally cfg n count running pc) (hrunning : running = false → running' = false) :
    Tally cfg n count running' pc := by
  cases pc with
  | loop => exact h.imp_right hrunning
  | left => exact hrunning h
  | _ => exact h

/-- Both ways of a test keep the tally. -/
theorem Tally.ite {n : Nat} {count : Int} {running : Bool} {p : Prop} [Decidable p] {pc pc' : Pc}
    (h : Tally cfg n count running pc) (h' : Tally cfg n count running pc') :
    Tally cfg n count running (if p then pc else pc') := by
  split
  · exact h
  · exact h'

/-- Behind the collection there is nothing to keep but that the collector is stopped. -/
theorem tally_leave {n : Nat} {count : Int} : Tally cfg n count false (leave cfg) := by
  unfold leave
  split
  · rfl
  · trivial

/-- A place of the loop of `run_continuous`, or the end of the run that has been
stopped. -/
theorem Tally.orLeave {n : Nat} {count : Int} {running : Bool} {pc : Pc}
    (h : Tally cfg n count running pc) :
    Tally cfg n count running (if running then pc else leave cfg) := by
  cases running with
  | true => exact h
  | false => exact tally_leave

/-- At the end of the loop body the count reaches `max_cycles`, or the loop goes on. -/
theorem Tally.countCycle {n : Nat} (h : Tally cfg n m.cycleCount m.running .count)
    (hmax : 1 ≤ cfg.maxCycles) :
    Tally cfg n (m.countCycle cfg).cycleCount (m.countCycle cfg).running
      (m.countCycle cfg).pc := by
  obtain ⟨hn, -⟩ := h
  unfold Machine.countCycle
  split
  · exact tally_leave
  · next hmore => exact ⟨by dsimp only; omega, by dsimp only; omega⟩

/-- A step of the collector's thread keeps the tally. -/
theorem Tally.leads {n : Nat} (hcont : cfg.continuous = true)
    (h : Tally cfg n m.cycleCount m.running m.pc) (hcount : m.pc ≠ .count)
    (hmax : 1 ≤ cfg.maxCycles) :
    m.Leads cfg fun m' =>
      Tally cfg (n + if m.pc.isCycle then 1 else 0) m.cycleCount m'.running m'.pc := by
  unfold Machine.Leads
  cases hat : m.pc with
  | count => exact absurd hat hcount
  | start | loopEnd =>
      rw [hat] at h
      exact Tally.ite trivial h
  | serving =>
      rw [hat] at h
      exact ⟨trivial, Tally.ite (Or.inl h) h⟩
  | loop =>
      rw [hat] at h
      cases hrunning : m.running with
      | false => trivial
      | true => exact h.resolve_right (hrunning ▸ nofun)
  | qmgr =>
      rw [hat] at h
      exact Tally.ite h h
  | connect =>
      rw [hat] at h
      exact ⟨h, Tally.ite h h⟩
  | retry k =>
      rw [hat] at h
      cases k with
      | zero => exact Or.inl h
      | succ k => exact Tally.ite h (Or.inl h)
  | setup =>
      rw [hat] at h
      exact ⟨h, trivial⟩
  | collect =>
      rw [hat] at h
      rw [hcont]
      exact h
  | first =>
      rw [hat] at h
      obtain ⟨rfl, hzero⟩ := h
      rw [hzero]
      exact ⟨rfl, hmax⟩
  | test =>
      rw [hat] at h
      have hsleep : Tally cfg n m.cycleCount m.running (.sleep (turns cfg.interval)) := h
      exact hsleep.orLeave
  | wake =>
      rw [hat] at h
      have hawake : Tally cfg n m.cycleCount m.running .rediscovery := h
      exact hawake.orLeave
  | sleep k =>
      rw [hat] at h
      cases k with
      | zero => exact h
      | succ k =>
          have hsleep : Tally cfg n m.cycleCount m.running (.sleep k) := h
          exact hsleep.orLeave
  | rediscovery =>
      rw [hat] at h
      exact ⟨h, trivial⟩
  | cycle =>
      rw [hat] at h
      obtain ⟨hn, hlt⟩ := h
      refine ⟨?_, hlt⟩
      show ((n + 1 : Nat) : Int) = m.cycleCount + 2
      omega
  | left =>
      rw [hat] at h
      have hrunning : m.running = false := h
      rw [hrunning]
      exact Or.inr hrunning
  | once | onceEnd | leftEnd | lost =>
      rw [hat] at h
      exact h.elim
  | giveUp | finished | failed => trivial

/-- A step of the collector's thread keeps `running_` set where it goes on. -/
theorem live_leads (h : m.pc.live = true → m.running = true) :
    m.Leads cfg fun m' => m'.pc.live = true → m'.running = true := by
  unfold Machine.Leads
  cases hat : m.pc with
  | start | once | left | leftEnd =>
      exact fun hlive => absurd hlive (Bool.eq_false_iff.mp (ite_place rfl rfl))
  | serving => exact ⟨nofun, fun _ => rfl⟩
  | loop =>
      cases hrunning : m.running with
      | true => exact fun _ => hrunning
      | false => nofun
  | loopEnd | qmgr | collect | first | cycle | test | wake => 
      exact fun _ => h (by rw [hat]; rfl)
  | connect | setup | rediscovery =>
      exact ⟨fun _ => h (by rw [hat]; rfl), fun _ => h (by rw [hat]; rfl)⟩
  | retry k =>
      cases k with
      | zero => nofun
      | succ k => exact fun hlive => absurd hlive (Bool.eq_false_iff.mp (ite_place rfl rfl))
  | sleep k =>
      cases k with
      | zero => exact fun _ => h (by rw [hat]; rfl)
      | succ k => exact fun _ => h (by rw [hat]; rfl)
  | count =>
      refine ⟨fun hlive => ?_, fun _ => h (by rw [hat]; rfl)⟩
      exact absurd hlive (Bool.eq_false_iff.mp (leave_place rfl rfl))
  | giveUp | onceEnd => nofun
  | lost => exact ⟨nofun, nofun⟩
  | finished | failed => trivial

/-- The number of cycles passes `max_cycles` with the last cycle of the loop. -/
theorem Counted.atMost_iff (hmax : 1 ≤ cfg.maxCycles) (h : Counted cfg past m) :
    (cycles past + if m.pc.isCycle then 1 else 0 : Int) ≤ cfg.maxCycles ↔
      (∀ t ∈ past, t.isLastCycle cfg = false) ∧
        Step.isLastCycle cfg ⟨.collector input, m, m'⟩ = false := by
  have htally := h.tally
  rw [← h.atMost]
  unfold Step.isLastCycle Step.isAt
  cases hat : m.pc with
  | first =>
      rw [hat] at htally
      obtain ⟨hn, -⟩ := htally
      rw [hn]
      exact ⟨fun _ => ⟨by omega, rfl⟩, fun _ => hmax⟩
  | cycle =>
      rw [hat] at htally
      obtain ⟨hn, hlt⟩ := htally
      simp only [Pc.isCycle, if_true, decide_true, Bool.true_and, decide_eq_false_iff_not]
      omega
  | once =>
      rw [hat] at htally
      exact htally.elim
  | _ => exact (and_iff_left rfl).symm

/-- A step of the collector's thread keeps the invariant. -/
theorem Counted.collectorStep (hcont : cfg.continuous = true) (hmax : 1 ≤ cfg.maxCycles)
    (h : Counted cfg past m) (hstep : m.collectorStep cfg input = some m') :
    Counted cfg (past ++ [⟨.collector input, m, m'⟩]) m' := by
  have hcycles := cycles_concat past ⟨.collector input, m, m'⟩
  refine ⟨?_, ?_, fun hlow => ?_⟩
  · rw [hcycles]
    by_cases hat : m.pc = .count
    · have htally := h.tally
      unfold Machine.collectorStep at hstep
      unfold Step.isCycle Step.isAt
      rw [hat] at hstep htally
      obtain rfl := Option.some.inj hstep
      dsimp only
      rw [hat]
      exact htally.countCycle hmax
    · rw [collectorStep_cycleCount hstep, if_neg hat, Int.add_zero]
      exact collectorStep_leads (h.tally.leads hcont hat hmax) hstep
  · rw [hcycles, List.forall_mem_append, List.forall_mem_singleton, ← h.atMost_iff hmax]
    push_cast
    rfl
  · have hpast : ∀ t ∈ past, t.lowers = false := fun t ht =>
      hlow t (List.mem_append_left _ ht)
    exact collectorStep_leads (live_leads (h.running hpast)) hstep

/-- A step of the main thread keeps the invariant. -/
theorem Counted.mainStep (h : Counted cfg past m) (hstep : m.mainStep signal = some m') :
    Counted cfg (past ++ [⟨.main signal, m, m'⟩]) m' := by
  obtain ⟨hsame, -⟩ := mainStep_place hstep
  obtain ⟨hcount, hkept⟩ := mainStep_counts hstep
  refine ⟨?_, ?_, fun hlow hlive => ?_⟩
  · rw [cycles_concat, hcount, hsame.pc]
    exact h.tally.lower hsame.running
  · rw [cycles_concat, List.forall_mem_append, List.forall_mem_singleton]
    exact h.atMost.trans (and_iff_left rfl).symm
  · rw [List.forall_mem_append, List.forall_mem_singleton] at hlow
    rw [hkept (decide_eq_false_iff_not.mp hlow.2)]
    exact h.running hlow.1 (hsame.pc ▸ hlive)

/-- The places of `run_continuous` behind which the thread goes on in it while `running_`
is set. -/
theorem stays_leads (hrunning : m.running = true) (hcontinuous : m.pc.inContinuous = true)
    (hcount : m.pc ≠ .count) : m.Leads cfg fun m' => m'.pc.behind = false := by
  unfold Machine.Leads
  cases hat : m.pc with
  | count => exact absurd hat hcount
  | first | cycle => rfl
  | test | wake =>
      rw [hrunning]
      rfl
  | sleep k =>
      cases k with
      | zero => rfl
      | succ k =>
          rw [hrunning]
          rfl
  | rediscovery => exact ⟨rfl, rfl⟩
  | _ =>
      rw [hat] at hcontinuous
      cases hcontinuous

/-- While `running_` is set, only the end of the loop body leaves `run_continuous`, with
the count at `max_cycles`. -/
theorem count_of_returns (hrunning : m.running = true) (hcontinuous : m.pc.inContinuous = true)
    (hbehind : m'.pc.behind = true) (hstep : m.collectorStep cfg input = some m') :
    m.pc = .count ∧ cfg.maxCycles ≤ m.cycleCount + 1 := by
  by_cases hat : m.pc = .count
  · refine ⟨hat, ?_⟩
    unfold Machine.collectorStep at hstep
    rw [hat] at hstep
    obtain rfl := Option.some.inj hstep
    unfold Machine.countCycle at hbehind
    split at hbehind
    · next hreached => exact hreached.2
    · cases hbehind
  · have hstays := collectorStep_leads (stays_leads hrunning hcontinuous hat) hstep
    exact absurd hbehind (Bool.eq_false_iff.mp hstays)

end Steps

/-! ## Runs -/

section Runs

variable {cfg : Config} {supply : List Reply} {actions : List Action} {trace : List Step}

theorem counted_initial (hmax : 1 ≤ cfg.maxCycles) (supply : List Reply) :
    Counted cfg [] (Machine.initial cfg supply) :=
  { tally := ⟨rfl, rfl⟩
    atMost := iff_of_true (Int.le_trans Int.one_nonneg hmax) fun _ ht =>
      absurd ht List.not_mem_nil
    running := fun _ hlive => absurd hlive Bool.false_ne_true }

theorem counted_gathers (hcont : cfg.continuous = true) (hmax : 1 ≤ cfg.maxCycles) :
    Gathers (Machine.step cfg) (fun t => [t]) (Counted cfg) := by
  intro past m action m' h hstep
  cases action with
  | collector input => exact h.collectorStep hcont hmax hstep
  | main signal => exact h.mainStep hstep

/-- `run_continuous` makes a cycle more than `max_cycles` if it is not stopped. -/
theorem cycles_of_returns (hcont : cfg.continuous = true) (hmax : 1 ≤ cfg.maxCycles)
    {before behind : List Step} {t : Step}
    (hrun : history (Machine.step cfg) (Machine.initial cfg supply) actions =
      some (before ++ t :: behind))
    (hreturns : t.returns = true) (hlow : ∀ u ∈ before, u.lowers = false) :
    (cycles before : Int) = cfg.maxCycles + 1 := by
  obtain ⟨hstep, hcounted⟩ :=
    (counted_gathers hcont hmax).in_front (counted_initial hmax supply) hrun
  rw [List.nil_append, List.flatMap_singleton'] at hcounted
  obtain ⟨action, m, m'⟩ := t
  obtain ⟨hin, hbehind⟩ := Bool.and_eq_true_iff.mp hreturns
  cases action with
  | main signal =>
      -- the collector's thread stays where it is
      have hpc : m'.pc = m.pc := (mainStep_place hstep).1.pc
      have hbehind' : m.pc.behind = true := hpc ▸ hbehind
      have hin' : m.pc.inContinuous = true := hin
      cases hat : m.pc with
      | left | finished => rw [hat] at hin'; cases hin'
      | _ => rw [hat] at hbehind'; cases hbehind'
  | collector input =>
      have hlive : m.pc.live = true := by
        have hin' : m.pc.inContinuous = true := hin
        cases hat : m.pc with
        | first | test | wake | rediscovery | cycle | count | sleep k => rfl
        | _ => rw [hat] at hin'; cases hin'
      have hrunning : m.running = true := hcounted.running hlow hlive
      obtain ⟨hat, hreached⟩ := count_of_returns hrunning hin hbehind hstep
      have htally : Tally cfg (cycles before) m.cycleCount m.running m.pc := hcounted.tally
      rw [hat] at htally
      obtain ⟨hn, hlt⟩ := htally
      omega

/-- A run keeps to `max_cycles` if and only if the loop does not begin the cycle with
which its count will reach it. -/
theorem boundedByMax_iff (hcont : cfg.continuous = true) (hmax : 1 ≤ cfg.maxCycles)
    (hrun : history (Machine.step cfg) (Machine.initial cfg supply) actions = some trace) :
    BoundedByMax cfg trace ↔ ∀ t ∈ trace, t.isLastCycle cfg = false := by
  have hatMost : (cycles trace : Int) ≤ cfg.maxCycles ↔
      ∀ t ∈ trace, t.isLastCycle cfg = false := by
    rcases List.eq_nil_or_concat' trace with rfl | ⟨before, t, rfl⟩
    · exact (counted_initial hmax supply).atMost
    · have hcounted :=
        (counted_gathers hcont hmax).of_append (counted_initial hmax supply) hrun
      rw [List.nil_append, List.flatMap_singleton'] at hcounted
      exact hcounted.atMost
  rw [← hatMost]
  refine ⟨BoundedByMax.atMost, fun h => ⟨h, ?_⟩⟩
  intro before t behind hsplit hreturns hlow
  subst hsplit
  have hover := cycles_of_returns hcont hmax hrun hreturns hlow
  have hbefore : cycles before ≤ cycles (before ++ t :: behind) := by
    unfold cycles
    rw [List.countP_append]
    exact Nat.le_add_right _ _
  omega

end Runs

/-- One cycle is asked for. -/
def oneCycle : Config := { everySecond with maxCycles := 1 }

/-- The queue manager answers until both queues are open, and then there is no
message. -/
def quietSupply : List Reply :=
  List.replicate 6 { cc := .ok } ++
    List.replicate 4 { cc := .failed, rc := mqrcNoMsgAvailable }

/-- The run to the end of `run_continuous`. -/
def oneCycleRun : Option (List Step) :=
  history (Machine.step oneCycle) (Machine.initial oneCycle quietSupply)
    (List.replicate 26 (.collector {}))

theorem oneCycleRun_cycles :
    (oneCycleRun.any fun trace => decide (cycles trace = 2)) = true := by decide +kernel

theorem boundedByMax_iff_oneCycleRun :
    ∃ trace, oneCycleRun = some trace ∧
      (BoundedByMax oneCycle trace ↔ ∀ t ∈ trace, t.isLastCycle oneCycle = false) := by
  obtain ⟨trace, htrace, -⟩ := (Option.any_eq_true _ _).mp oneCycleRun_cycles
  exact ⟨trace, htrace, boundedByMax_iff rfl (by decide) htrace⟩

/-- With `max_cycles` at one there are two cycles. -/
theorem not_boundedByMax_oneCycleRun :
    ¬ ∀ (cfg : Config) (supply : List Reply) (actions : List Action) (trace : List Step),
      cfg.continuous = true → 1 ≤ cfg.maxCycles →
        history (Machine.step cfg) (Machine.initial cfg supply) actions = some trace →
          BoundedByMax cfg trace := by
  intro h
  obtain ⟨trace, htrace, hcycles⟩ := (Option.any_eq_true _ _).mp oneCycleRun_cycles
  have hbounded := (h oneCycle quietSupply _ trace rfl (by decide) htrace).atMost
  rw [of_decide_eq_true hcycles] at hbounded
  exact absurd hbounded (by decide)

end IbmmqExporter.Collector
