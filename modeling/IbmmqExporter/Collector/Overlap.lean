/-
  Collector/Overlap.lean --- the two threads while their calls take time.

  In the machine a call is one step.  Here it begins and ends, and the other thread may go
  on in between.  Client and monitor are not guarded by a mutex, so the behaviour is
  undefined from where both threads are in their calls.

  WHAT THE FILE PROVES.  Up to there the runs are those of the machine, no more and no
  fewer: without the beginnings of the calls a run here is a run there, and each of these
  is obtained so.  The calls of the two threads meet only where the main thread is in
  `stop()` and has lowered `running_` (`runs_threads`).
-/
import IbmmqExporter.Collector.Stop

set_option autoImplicit false

namespace IbmmqExporter.Collector

open Foundation Mq

/-! ## The machine with calls that take time -/

/-- The machine, with the calls that the threads are in.  What the environment decides
about a call of the collector's thread it has decided where it begins. -/
structure Threads where
  machine : Machine := {}
  collecting : Option Input := none
  stopping : Bool := false

/-- The threads at their starts. -/
def Threads.initial (cfg : Config) (supply : List Reply) : Threads :=
  { machine := .initial cfg supply }

/-- The collector's thread has a call to make at its place. -/
def Machine.isCalling (cfg : Config) (m : Machine) (input : Input) : Bool :=
  (m.pc.program cfg input).isSome

/-- A step of the collector's thread: out of its call, into one, or between two. -/
def Threads.collectorStep (cfg : Config) (e : Threads) (input : Input) : Option Threads :=
  match e.collecting with
  | some decided =>
      (e.machine.collectorStep cfg decided).map fun m =>
        { e with machine := m, collecting := none }
  | none =>
      if e.machine.isCalling cfg input then
        -- both threads would be in their calls
        if e.stopping then none else some { e with collecting := some input }
      else (e.machine.collectorStep cfg input).map fun m => { e with machine := m }

/-- A step of the main thread. -/
def Threads.mainStep (e : Threads) (signal : Bool) : Option Threads :=
  if e.stopping then
    (e.machine.mainStep signal).map fun m => { e with machine := m, stopping := false }
  else if e.machine.main.program.isSome then
    if e.collecting.isSome then none else some { e with stopping := true }
  else (e.machine.mainStep signal).map fun m => { e with machine := m }

/-- A step of one of the threads. -/
def Threads.step (cfg : Config) (e : Threads) : Action → Option Threads
  | .collector input => e.collectorStep cfg input
  | .main signal => e.mainStep signal

/-- The step of the machine that a step is; none if a call begins. -/
def Threads.made (cfg : Config) (e : Threads) : Action → Option Action
  | .collector input =>
      match e.collecting with
      | some decided => some (.collector decided)
      | none => if e.machine.isCalling cfg input then none else some (.collector input)
  | .main signal =>
      if e.stopping = false ∧ e.machine.main.program.isSome = true then none
      else some (.main signal)

/-- One thread is in its call, and the other one's call is next. -/
def Threads.Overlaps (cfg : Config) (e : Threads) : Prop :=
  (e.collecting.isSome = true ∧ e.machine.main.program.isSome = true) ∨
    (e.stopping = true ∧ ∃ input, e.machine.isCalling cfg input = true)

section Steps

variable {cfg : Config} {e e' : Threads} {action : Action}

/-- What a step of the collector's thread is: the beginning of a call, or a step of the
machine. -/
theorem Threads.collectorStep_cases {input : Input} (hstep : e.collectorStep cfg input = some e') :
    e'.stopping = e.stopping ∧
      ((e.made cfg (.collector input) = none ∧ e'.machine = e.machine) ∨
        ∃ decided, e.made cfg (.collector input) = some (.collector decided) ∧
          e.machine.collectorStep cfg decided = some e'.machine) := by
  unfold Threads.collectorStep at hstep
  unfold Threads.made
  dsimp only
  cases hin : e.collecting with
  | some decided =>
      rw [hin] at hstep
      obtain ⟨m, hm, rfl⟩ := Option.map_eq_some_iff.mp hstep
      exact ⟨rfl, Or.inr ⟨decided, rfl, hm⟩⟩
  | none =>
      rw [hin] at hstep
      dsimp only at hstep ⊢
      by_cases hcalling : e.machine.isCalling cfg input = true
      · rw [if_pos hcalling] at hstep ⊢
        split at hstep
        · cases hstep
        · obtain rfl := Option.some.inj hstep
          exact ⟨rfl, Or.inl ⟨rfl, rfl⟩⟩
      · rw [if_neg hcalling] at hstep ⊢
        obtain ⟨m, hm, rfl⟩ := Option.map_eq_some_iff.mp hstep
        exact ⟨rfl, Or.inr ⟨input, rfl, hm⟩⟩

/-- What a step of the main thread is. -/
theorem Threads.mainStep_cases {signal : Bool} (hstep : e.mainStep signal = some e') :
    (e.made cfg (.main signal) = none ∧ e'.machine = e.machine ∧
        e.machine.main.program.isSome = true) ∨
      (e.made cfg (.main signal) = some (.main signal) ∧ e'.stopping = false ∧
        e.machine.mainStep signal = some e'.machine) := by
  unfold Threads.mainStep at hstep
  unfold Threads.made
  cases hin : e.stopping with
  | true =>
      rw [hin] at hstep
      obtain ⟨m, hm, rfl⟩ := Option.map_eq_some_iff.mp hstep
      exact Or.inr ⟨if_neg (fun h => absurd h.1.symm Bool.false_ne_true), rfl, hm⟩
  | false =>
      rw [hin, if_neg Bool.false_ne_true] at hstep
      by_cases hcalling : e.machine.main.program.isSome = true
      · rw [if_pos hcalling] at hstep
        split at hstep
        · cases hstep
        · obtain rfl := Option.some.inj hstep
          exact Or.inl ⟨if_pos ⟨rfl, hcalling⟩, rfl, hcalling⟩
      · rw [if_neg hcalling] at hstep
        obtain ⟨m, hm, rfl⟩ := Option.map_eq_some_iff.mp hstep
        exact Or.inr ⟨if_neg fun h => hcalling h.2, rfl, hm⟩

/-- A step is one of the machine, or the beginning of a call. -/
theorem stutters_threads (cfg : Config) :
    Stutters (Threads.step cfg) (Machine.step cfg) Threads.machine (Threads.made cfg) := by
  intro e action e' hstep
  cases action with
  | collector input =>
      obtain ⟨-, ⟨hmade, hsame⟩ | ⟨decided, hmade, hm⟩⟩ := Threads.collectorStep_cases hstep
      · rw [hmade]
        exact hsame
      · rw [hmade]
        exact hm
  | main signal =>
      obtain ⟨hmade, hsame, -⟩ | ⟨hmade, -, hm⟩ := @Threads.mainStep_cases cfg _ _ _ hstep
      · rw [hmade]
        exact hsame
      · rw [hmade]
        exact hm

/-- The main thread is in a call only where it has one to make. -/
def Threads.Placed (e : Threads) : Prop :=
  e.stopping = true → e.machine.main.program.isSome = true

theorem Threads.Placed.step (h : e.Placed) (hstep : e.step cfg action = some e') : e'.Placed := by
  intro hstopping
  cases action with
  | collector input =>
      obtain ⟨hsame, hcases⟩ := Threads.collectorStep_cases hstep
      have hmain : e'.machine.main = e.machine.main := by
        rcases hcases with ⟨-, hmachine⟩ | ⟨decided, -, hm⟩
        · rw [hmachine]
        · exact collectorStep_main hm
      rw [hmain]
      exact h (hsame.symm.trans hstopping)
  | main signal =>
      obtain ⟨-, hmachine, hcalling⟩ | ⟨-, hout, -⟩ := @Threads.mainStep_cases cfg _ _ _ hstep
      · rw [hmachine]
        exact hcalling
      · rw [hout] at hstopping
        cases hstopping

/-- The calls of the main thread are those of `stop()` behind `running_ = false`. -/
theorem lowering_of_calling {main : MainPc} (h : main.program.isSome = true) :
    main.lowering = true := by
  cases main with
  | closing | disconnecting => rfl
  | _ => cases h

theorem Threads.Overlaps.calling (h : e.Overlaps cfg) (hplaced : e.Placed) :
    e.machine.main.program.isSome = true := by
  rcases h with ⟨-, hcalling⟩ | ⟨hin, -⟩
  · exact hcalling
  · exact hplaced hin

end Steps

/-! ## Runs -/

section Runs

variable {cfg : Config}

/-- The steps of the machine that are made in a run. -/
def seen (cfg : Config) (trace : List (Transition Threads Action)) : List Step :=
  trace.filterMap (Transition.seen Threads.machine (Threads.made cfg))

theorem seen_cons_none {t : Transition Threads Action} {trace : List (Transition Threads Action)}
    (h : t.before.made cfg t.action = none) : seen cfg (t :: trace) = seen cfg trace := by
  refine List.filterMap_cons_none ?_
  unfold Transition.seen
  rw [h]
  rfl

theorem seen_cons_some {t : Transition Threads Action} {trace : List (Transition Threads Action)}
    {action : Action} (h : t.before.made cfg t.action = some action) :
    seen cfg (t :: trace) = ⟨action, t.before.machine, t.after.machine⟩ :: seen cfg trace := by
  refine List.filterMap_cons_some ?_
  unfold Transition.seen
  rw [h]
  rfl

/-- A step of the machine is one here, or two: into a call and out of it. -/
theorem exists_threads {m m' : Machine} {action : Action} (hstep : m.step cfg action = some m')
    {actions : List Action} {trace : List (Transition Threads Action)}
    (hrun : history (Threads.step cfg) { machine := m' } actions = some trace) :
    ∃ actions' trace', history (Threads.step cfg) { machine := m } actions' = some trace' ∧
      seen cfg trace' = ⟨action, m, m'⟩ :: seen cfg trace := by
  cases action with
  | collector input =>
      have hleave : Threads.step cfg { machine := m, collecting := some input }
          (.collector input) = some { machine := m' } := Option.map_eq_some_iff.mpr ⟨m', hstep, rfl⟩
      cases hcalling : m.isCalling cfg input with
      | true =>
          have henter : Threads.step cfg { machine := m } (.collector input) =
              some { machine := m, collecting := some input } := if_pos hcalling
          refine ⟨_, _, history_of_step henter (history_of_step hleave hrun), ?_⟩
          refine Eq.trans (seen_cons_none ?_) (seen_cons_some rfl)
          exact if_pos hcalling
      | false =>
          have hplain : Threads.step cfg { machine := m } (.collector input) =
              some { machine := m' } :=
            (if_neg (Bool.eq_false_iff.mp hcalling)).trans
              (Option.map_eq_some_iff.mpr ⟨m', hstep, rfl⟩)
          refine ⟨_, _, history_of_step hplain hrun, ?_⟩
          exact seen_cons_some (if_neg (Bool.eq_false_iff.mp hcalling))
  | main signal =>
      have hleave : Threads.step cfg { machine := m, stopping := true } (.main signal) =
          some { machine := m' } := Option.map_eq_some_iff.mpr ⟨m', hstep, rfl⟩
      cases hcalling : m.main.program.isSome with
      | true =>
          have henter : Threads.step cfg { machine := m } (.main signal) =
              some { machine := m, stopping := true } := if_pos hcalling
          refine ⟨_, _, history_of_step henter (history_of_step hleave hrun), ?_⟩
          refine Eq.trans (seen_cons_none ?_) (seen_cons_some rfl)
          exact if_pos ⟨rfl, hcalling⟩
      | false =>
          have hno : ¬ m.main.program.isSome = true := Bool.eq_false_iff.mp hcalling
          have hplain : Threads.step cfg { machine := m } (.main signal) =
              some { machine := m' } :=
            (if_neg hno).trans (Option.map_eq_some_iff.mpr ⟨m', hstep, rfl⟩)
          refine ⟨_, _, history_of_step hplain hrun, ?_⟩
          exact seen_cons_some (if_neg fun h => hno h.2)

/-- A run of the machine, with calls that end as soon as they have begun. -/
theorem exists_threads_run {m : Machine} {actions : List Action} {trace : List Step}
    (hrun : history (Machine.step cfg) m actions = some trace) :
    ∃ actions' trace', history (Threads.step cfg) { machine := m } actions' = some trace' ∧
      seen cfg trace' = trace := by
  induction actions generalizing m trace with
  | nil =>
      cases hrun
      exact ⟨[], [], rfl, rfl⟩
  | cons action actions ih =>
      obtain ⟨m', rest, hstep, hrest, rfl⟩ := history_cons hrun
      obtain ⟨actions', trace', hrun', hseen⟩ := ih hrest
      obtain ⟨actions'', trace'', hrun'', hseen'⟩ := exists_threads hstep hrun'
      exact ⟨actions'', trace'', hrun'', hseen ▸ hseen'⟩

/-- In every state the flags agree with the places, and the main thread is where its call
is. -/
theorem kept_threads (cfg : Config) : KeptWhen (Threads.step cfg) (fun _ => True) fun e =>
    Agreeing e.machine ∧ e.Placed := by
  have hmachine : KeptWhen (Machine.step cfg) (fun _ => True) Agreeing := by
    intro m action m' h hstep _
    cases action with
    | collector input => exact h.collectorStep hstep
    | main signal => exact (h.mainStep hstep).1
  intro e action e' h hstep _
  exact ⟨hmachine.stutters (stutters_threads cfg) e action e' h.1 hstep trivial, h.2.step hstep⟩

/-- If calls take time, the runs up to where both threads are in their calls are those of
the machine, and the main thread is then in `stop()`, and `running_` is low. -/
theorem runs_threads (cfg : Config) (supply : List Reply) :
    (∀ trace : List Step,
      (∃ actions, history (Machine.step cfg) (Machine.initial cfg supply) actions = some trace) ↔
        ∃ actions trace', history (Threads.step cfg) (Threads.initial cfg supply) actions =
          some trace' ∧ seen cfg trace' = trace) ∧
      ∀ actions trace, history (Threads.step cfg) (Threads.initial cfg supply) actions =
        some trace → ∀ t ∈ trace, t.after.Overlaps cfg →
          (t.after.machine.main = .closing ∨ t.after.machine.main = .disconnecting) ∧
            t.after.machine.running = false := by
  refine ⟨fun trace => ⟨fun ⟨actions, hrun⟩ => exists_threads_run hrun, ?_⟩, ?_⟩
  · rintro ⟨actions, trace', hrun, rfl⟩
    exact ⟨_, history_stutters (stutters_threads cfg) hrun⟩
  · intro actions trace hrun t ht hoverlaps
    obtain ⟨hagreeing, hplaced⟩ := ((kept_threads cfg).of_mem
      ⟨(stopInv_initial cfg supply).agreeing, fun h => by cases h⟩ hrun (fun _ _ => trivial) ht).2.2
    have hcalling := hoverlaps.calling hplaced
    refine ⟨?_, hagreeing.lowered (lowering_of_calling hcalling)⟩
    cases hmain : t.after.machine.main with
    | closing => exact Or.inl rfl
    | disconnecting => exact Or.inr rfl
    | _ =>
        rw [hmain] at hcalling
        cases hcalling

/-- The calls do meet: here the signal comes while `connect` waits for an answer. -/
example : ((history (Threads.step everySecond) (Threads.initial everySecond [])
    (List.replicate 6 (.collector {}) ++ List.replicate 4 (.main true))).any fun trace =>
      trace.any fun t => t.after.collecting.isSome && t.after.machine.main.program.isSome) =
        true := by
  decide +kernel

end Runs

end IbmmqExporter.Collector
