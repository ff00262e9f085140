import IrisMind.Lib.Dict
import IrisMind.Lib.Machine

/-! # The scheduler of background runs

For each account and room one background task is to run at a time; another call is counted and
dropped. A task that ends looks itself up to take itself out, and what it looks for is a task
that has ended, which it has not while it looks. -/
namespace IrisMind.Memory
open IrisMind.Lib

/-- The account and the room. -/
abbrev ScopeKey := String × String

/-- A task on the loop. -/
structure BackgroundTask where
  key : ScopeKey
  done : Bool := false
deriving DecidableEq

structure ScheduledTask where
  task : Nat
  enqueuedCount : Nat := 1
deriving DecidableEq

structure SchedulerStats where
  activeTasks : Nat := 0
  totalScheduled : Nat := 0
  totalDeduplicated : Nat := 0
  totalFailed : Nat := 0
  lastError : String := ""
  lastErrorAccount : String := ""
  lastErrorRoom : String := ""

/-- How a task ends. One that is cancelled before it starts does not run at all. -/
inductive TaskEnd where
  | returned
  | raised (error : String)
  | cancelled (started : Bool)

inductive SchedulerInput where
  | schedule (key : ScopeKey)
  | finish (task : Nat) (how : TaskEnd)
  | shutdown
  | readStats

/-- The tasks that were ever made, numbered as they were; the ones that are registered. -/
structure MemoryPipelineScheduler where
  made : List BackgroundTask := []
  tasks : Dict ScopeKey ScheduledTask := .empty
  stats : SchedulerStats := {}

namespace MemoryPipelineScheduler

variable (s : MemoryPipelineScheduler)

/-- `task.done()` -/
def isDone (task : Nat) : Bool := (s.made[task]?.map (·.done)).getD true

def isAlreadyRunning (key : ScopeKey) : Bool :=
  match s.tasks.get? key with
  | some st => !s.isDone st.task
  | none => false

def createTask (key : ScopeKey) : MemoryPipelineScheduler :=
  { made := s.made ++ [{ key }]
    tasks := s.tasks.set key { task := s.made.length }
    stats := { s.stats with totalScheduled := s.stats.totalScheduled + 1 } }

/-- `_schedule`, with a running loop: the task that was made, if one was. -/
def schedule (key : ScopeKey) : Option Nat × MemoryPipelineScheduler :=
  match s.tasks.get? key with
  | some existing =>
    if s.isDone existing.task then (some s.made.length, s.createTask key)
    else
      let existing := { existing with enqueuedCount := existing.enqueuedCount + 1 }
      let totalDeduplicated := s.stats.totalDeduplicated + 1
      (none, { s with tasks := s.tasks.set key existing
                      stats := { s.stats with totalDeduplicated } })
  | none => (some s.made.length, s.createTask key)

def recordFailure (key : ScopeKey) (error : String) : MemoryPipelineScheduler :=
  let totalFailed := s.stats.totalFailed + 1
  { s with stats := { s.stats with totalFailed, lastError := error
                                   lastErrorAccount := key.1, lastErrorRoom := key.2 } }

/-- The `finally` of `_run`. The task that runs it has not ended yet. -/
def release (key : ScopeKey) : MemoryPipelineScheduler :=
  match s.tasks.get? key with
  | some st => if s.isDone st.task then { s with tasks := s.tasks.erase key } else s
  | none => s

/-- What `_run` does as its task ends. -/
def leave (key : ScopeKey) : TaskEnd → MemoryPipelineScheduler
  | .returned => s.release key
  | .raised error => (s.recordFailure key error).release key
  | .cancelled true => s.release key
  | .cancelled false => s

/-- A task that has not ended ends. -/
def finish (task : Nat) (how : TaskEnd) : MemoryPipelineScheduler :=
  match s.made[task]? with
  | some t =>
    if t.done then s
    else
      let s := s.leave t.key how
      { s with made := s.made.set task { t with done := true } }
  | none => s

/-- The tasks are taken out before they are waited for. -/
def shutdown : MemoryPipelineScheduler := { s with tasks := .empty }

/-- The count of active tasks is kept as it is read. -/
def readStats : MemoryPipelineScheduler :=
  let activeTasks := (s.tasks.values.filter fun st => !s.isDone st.task).length
  { s with stats := { s.stats with activeTasks } }

def step : SchedulerInput → MemoryPipelineScheduler
  | .schedule key => (s.schedule key).2
  | .finish task how => s.finish task how
  | .shutdown => s.shutdown
  | .readStats => s.readStats

/-! ## What is promised -/

/-- The task has not ended, and is of the scope. -/
def Unfinished (key : ScopeKey) (task : Nat) : Prop := s.made[task]? = some { key, done := false }

/-- No scope has two unfinished tasks, and what is registered has not ended. -/
structure Tidy : Prop where
  exclusive : ∀ {key i j}, s.Unfinished key i → s.Unfinished key j → i = j
  registered : ∀ {key st}, s.tasks.get? key = some st → s.isDone st.task = false

/-- A call for the scope makes a task, if the scope has no unfinished one. -/
def Schedules (key : ScopeKey) : Prop :=
  (∀ i, ¬ s.Unfinished key i) → ∃ i, (s.schedule key).1 = some i ∧
    (s.schedule key).2.Unfinished key i

def isCall : SchedulerInput → Bool
  | .schedule _ => true
  | _ => false

/-- A task that ends is not registered, and where a call comes the unfinished task of the scope
is. -/
def Keeps : SchedulerInput → Prop
  | .schedule key => ∀ i, s.Unfinished key i → ∃ st, s.tasks.get? key = some st ∧ st.task = i
  | .finish task _ => ∀ key st, s.tasks.get? key = some st → st.task ≠ task
  | _ => True

/-- What is registered for a scope is a task of it, and the tasks are counted. -/
structure Consistent : Prop where
  own : ∀ {key st}, s.tasks.get? key = some st → ∃ t, s.made[st.task]? = some t ∧ t.key = key
  counted : s.stats.totalScheduled = s.made.length

variable {s} {key : ScopeKey} {i : Nat}

theorem isDone_of_unfinished (h : s.Unfinished key i) : s.isDone i = false := by
  rw [isDone, h]
  rfl

theorem Consistent.unfinished (hc : s.Consistent) {st : ScheduledTask}
    (hst : s.tasks.get? key = some st) (hdone : s.isDone st.task = false) :
    s.Unfinished key st.task := by
  obtain ⟨t, ht, rfl⟩ := hc.own hst
  rw [isDone, ht] at hdone
  rw [Unfinished, ht]
  exact congrArg some (congrArg (BackgroundTask.mk t.key) hdone)

theorem unfinished_createTask {key' : ScopeKey} : (s.createTask key).Unfinished key' i ↔
    s.Unfinished key' i ∨ i = s.made.length ∧ key' = key := by
  unfold Unfinished createTask
  rw [List.getElem?_append]
  split
  · next hi => simp [Nat.ne_of_lt hi]
  · next hi =>
    rw [List.getElem?_eq_none (Nat.not_lt.mp hi), List.getElem?_singleton]
    split
    · next hzero =>
      have hlength : i = s.made.length := by omega
      simp [hlength, eq_comm]
    · next hpos =>
      have hlength : i ≠ s.made.length := by omega
      simp [hlength]

/-! ## Calls -/

/-- Only a registered task that has not ended stands in the way of a new one. -/
theorem schedule_cases (s : MemoryPipelineScheduler) (key : ScopeKey) :
    (∃ st, s.tasks.get? key = some st ∧ s.isDone st.task = false ∧ s.schedule key = (none,
        { s with tasks := s.tasks.set key { st with enqueuedCount := st.enqueuedCount + 1 }
                 stats := { s.stats with totalDeduplicated := s.stats.totalDeduplicated + 1 } })) ∨
      (∀ st, s.tasks.get? key = some st → s.isDone st.task = true) ∧
        s.schedule key = (some s.made.length, s.createTask key) := by
  unfold schedule
  cases hget : s.tasks.get? key with
  | none => exact .inr ⟨fun _ hst => (nomatch hst), rfl⟩
  | some st =>
    dsimp only
    cases hdone : s.isDone st.task with
    | false => exact .inl ⟨st, rfl, hdone, rfl⟩
    | true =>
      refine .inr ⟨fun st' hst => ?_, rfl⟩
      cases hst
      exact hdone

theorem schedules (hc : s.Consistent) (key : ScopeKey) : s.Schedules key := by
  intro hnone
  rcases schedule_cases s key with ⟨st, hst, hdone, _⟩ | ⟨_, hmade⟩
  · exact absurd (hc.unfinished hst hdone) (hnone st.task)
  · rw [hmade]
    exact ⟨_, rfl, unfinished_createTask.mpr (.inr ⟨rfl, rfl⟩)⟩

/-! ## Tasks that end -/

/-- What runs as a task ends changes no task, and takes out only a registered one that has
ended. -/
theorem leave_spec (s : MemoryPipelineScheduler) (key : ScopeKey) (how : TaskEnd) :
    (s.leave key how).made = s.made ∧
      (s.leave key how).stats.totalScheduled = s.stats.totalScheduled ∧
      (s.leave key how).stats.totalDeduplicated = s.stats.totalDeduplicated ∧
      ((s.leave key how).tasks = s.tasks ∨ (s.leave key how).tasks = s.tasks.erase key ∧
        ∃ st, s.tasks.get? key = some st ∧ s.isDone st.task = true) := by
  have hrelease (s : MemoryPipelineScheduler) : (s.release key).made = s.made ∧
      (s.release key).stats = s.stats ∧
      ((s.release key).tasks = s.tasks ∨ (s.release key).tasks = s.tasks.erase key ∧
        ∃ st, s.tasks.get? key = some st ∧ s.isDone st.task = true) := by
    unfold release
    cases hget : s.tasks.get? key with
    | none => exact ⟨rfl, rfl, .inl rfl⟩
    | some st =>
      dsimp only
      split
      · next hdone => exact ⟨rfl, rfl, .inr ⟨rfl, st, rfl, hdone⟩⟩
      · exact ⟨rfl, rfl, .inl rfl⟩
  cases how with
  | returned =>
    obtain ⟨hmade, hstats, htasks⟩ := hrelease s
    exact ⟨hmade, congrArg _ hstats, congrArg _ hstats, htasks⟩
  | raised error =>
    obtain ⟨hmade, hstats, htasks⟩ := hrelease (s.recordFailure key error)
    exact ⟨hmade, (congrArg SchedulerStats.totalScheduled hstats :),
      (congrArg SchedulerStats.totalDeduplicated hstats :), htasks⟩
  | cancelled started =>
    cases started with
    | true =>
      obtain ⟨hmade, hstats, htasks⟩ := hrelease s
      exact ⟨hmade, congrArg _ hstats, congrArg _ hstats, htasks⟩
    | false => exact ⟨rfl, rfl, rfl, .inl rfl⟩

/-- A task ends, or there was none to end. -/
theorem finish_cases (s : MemoryPipelineScheduler) (task : Nat) (how : TaskEnd) :
    (∀ key, ¬ s.Unfinished key task) ∧ s.finish task how = s ∨
      ∃ key, s.Unfinished key task ∧ s.finish task how =
        { s.leave key how with made := s.made.set task { key, done := true } } := by
  unfold finish Unfinished
  cases hget : s.made[task]? with
  | none => exact .inl ⟨by simp, rfl⟩
  | some t =>
    obtain ⟨key, done⟩ := t
    cases done with
    | true => exact .inl ⟨by simp, rfl⟩
    | false =>
      refine .inr ⟨key, rfl, ?_⟩
      have hmade := (leave_spec s key how).1
      simp [hmade]

/-! ## Every run -/

theorem Consistent.createTask (hc : s.Consistent) (key : ScopeKey) :
    (s.createTask key).Consistent := by
  constructor
  · intro key' st hst
    rw [MemoryPipelineScheduler.createTask, Dict.get?_set] at hst
    split at hst
    · next hkey =>
      cases hst
      exact ⟨{ key }, by simp [MemoryPipelineScheduler.createTask], hkey⟩
    · obtain ⟨t, ht, hown⟩ := hc.own hst
      refine ⟨t, ?_, hown⟩
      exact (List.getElem?_append_left (List.getElem?_eq_some_iff.mp ht).1).trans ht
  · simp [MemoryPipelineScheduler.createTask, hc.counted]

theorem Consistent.schedule (hc : s.Consistent) (key : ScopeKey) :
    (s.schedule key).2.Consistent := by
  rcases schedule_cases s key with ⟨st, hst, _, hdropped⟩ | ⟨_, hmade⟩
  · rw [hdropped]
    refine ⟨fun {key' st'} hst' => ?_, hc.counted⟩
    dsimp only at hst' ⊢
    rw [Dict.get?_set] at hst'
    split at hst'
    · next hkey =>
      cases hst'
      obtain ⟨t, ht, hown⟩ := hc.own hst
      exact ⟨t, ht, hown.trans hkey⟩
    · exact hc.own hst'
  · rw [hmade]
    exact hc.createTask key

theorem Consistent.finish (hc : s.Consistent) (task : Nat) (how : TaskEnd) :
    (s.finish task how).Consistent := by
  rcases finish_cases s task how with ⟨_, hsame⟩ | ⟨key, hopen, hends⟩
  · rw [hsame]
    exact hc
  · obtain ⟨_, htotal, _, htasks⟩ := leave_spec s key how
    rw [hends]
    refine ⟨fun {key' st} hst => ?_, by simp [htotal, hc.counted]⟩
    dsimp only at hst ⊢
    have hbefore : s.tasks.get? key' = some st := by
      rcases htasks with htasks | ⟨htasks, _⟩
      · rwa [htasks] at hst
      · rw [htasks, Dict.get?_erase] at hst
        split at hst
        · cases hst
        · exact hst
    obtain ⟨t, ht, hown⟩ := hc.own hbefore
    rw [List.getElem?_set]
    split
    · next hsame =>
      subst hsame
      rw [hopen] at ht
      cases ht
      rw [if_pos (List.getElem?_eq_some_iff.mp hopen).1]
      exact ⟨_, rfl, hown⟩
    · exact ⟨t, ht, hown⟩

theorem Consistent.step (hc : s.Consistent) (input : SchedulerInput) :
    (s.step input).Consistent := by
  cases input with
  | schedule key => exact hc.schedule key
  | finish task how => exact hc.finish task how
  | shutdown => exact ⟨fun hst => (nomatch hst), hc.counted⟩
  | readStats => exact ⟨hc.own, hc.counted⟩

theorem consistent_initial : ({} : MemoryPipelineScheduler).Consistent :=
  ⟨fun hst => (nomatch hst), rfl⟩

/-- A call is counted as one that made a task or as one that was dropped. -/
theorem totals_step (s : MemoryPipelineScheduler) (input : SchedulerInput) :
    (s.step input).stats.totalScheduled + (s.step input).stats.totalDeduplicated =
      s.stats.totalScheduled + s.stats.totalDeduplicated + (if isCall input then 1 else 0) := by
  cases input with
  | schedule key =>
    rcases schedule_cases s key with ⟨st, _, _, hdropped⟩ | ⟨_, hmade⟩
    · simp only [step, hdropped, isCall, if_true]
      omega
    · simp only [step, hmade, createTask, isCall, if_true]
      omega
  | finish task how =>
    rcases finish_cases s task how with ⟨_, hsame⟩ | ⟨key, _, hends⟩
    · simp [step, hsame, isCall]
    · obtain ⟨_, hscheduled, hdropped, _⟩ := leave_spec s key how
      simp [step, hends, hscheduled, hdropped, isCall]
  | shutdown => rfl
  | readStats => rfl

theorem totals_run (inputs : List SchedulerInput) (s : MemoryPipelineScheduler) :
    (Machine.run step s inputs).stats.totalScheduled +
        (Machine.run step s inputs).stats.totalDeduplicated =
      s.stats.totalScheduled + s.stats.totalDeduplicated + inputs.countP isCall := by
  induction inputs generalizing s with
  | nil => rfl
  | cons input inputs ih =>
    rw [Machine.run_cons, ih, totals_step, List.countP_cons]
    omega

/-! ## Runs that stay tidy -/

/-- A new task leaves the state tidy where the scope has no unfinished one. -/
theorem tidy_createTask_iff (hc : s.Consistent) (ht : s.Tidy) (key : ScopeKey) :
    (s.createTask key).Tidy ↔ ∀ i, ¬ s.Unfinished key i := by
  constructor
  · intro hnew i hi
    have hsame := hnew.exclusive (unfinished_createTask.mpr (.inl hi))
      (unfinished_createTask.mpr (.inr ⟨rfl, rfl⟩))
    exact absurd (List.getElem?_eq_some_iff.mp hi).1 (by omega)
  · intro hnone
    constructor
    · intro key' i j hi hj
      rcases unfinished_createTask.mp hi with hi | ⟨rfl, hkey⟩
      · rcases unfinished_createTask.mp hj with hj | ⟨_, hkey⟩
        · exact ht.exclusive hi hj
        · exact absurd (hkey ▸ hi) (hnone i)
      · rcases unfinished_createTask.mp hj with hj | ⟨rfl, _⟩
        · exact absurd (hkey ▸ hj) (hnone j)
        · rfl
    · intro key' st hst
      rw [createTask, Dict.get?_set] at hst
      split at hst
      · cases hst
        exact isDone_of_unfinished (unfinished_createTask.mpr (.inr ⟨rfl, rfl⟩))
      · have hopen := hc.unfinished hst (ht.registered hst)
        exact isDone_of_unfinished (unfinished_createTask.mpr (.inl hopen))

theorem tidy_schedule_iff (hc : s.Consistent) (ht : s.Tidy) (key : ScopeKey) :
    (s.schedule key).2.Tidy ↔ s.Keeps (.schedule key) := by
  rcases schedule_cases s key with ⟨st, hst, hdone, hdropped⟩ | ⟨hfree, hmade⟩
  · rw [hdropped]
    refine iff_of_true ⟨ht.exclusive, fun {key' st'} hst' => ?_⟩ fun i hi =>
      ⟨st, hst, ht.exclusive (hc.unfinished hst hdone) hi⟩
    dsimp only at hst'
    rw [Dict.get?_set] at hst'
    split at hst'
    · cases hst'
      exact hdone
    · exact ht.registered hst'
  · -- nothing is registered, so no unfinished task may be there
    have hnone : s.tasks.get? key = none := by
      cases hget : s.tasks.get? key with
      | none => rfl
      | some st => exact absurd (hfree st hget) (by rw [ht.registered hget]; decide)
    rw [hmade, tidy_createTask_iff hc ht]
    simp [Keeps, hnone]

theorem tidy_finish_iff (hc : s.Consistent) (ht : s.Tidy) (task : Nat) (how : TaskEnd) :
    (s.finish task how).Tidy ↔ s.Keeps (.finish task how) := by
  rcases finish_cases s task how with ⟨hnone, hsame⟩ | ⟨key, hopen, hends⟩
  · rw [hsame]
    refine iff_of_true ht fun key st hst htask => ?_
    exact hnone key (htask ▸ hc.unfinished hst (ht.registered hst))
  · have htasks : (s.leave key how).tasks = s.tasks := by
      rcases (leave_spec s key how).2.2.2 with htasks | ⟨_, st, hst, hdone⟩
      · exact htasks
      · exact absurd hdone (by rw [ht.registered hst]; decide)
    have hother {key' : ScopeKey} {i : Nat} : (s.finish task how).Unfinished key' i ↔
        s.Unfinished key' i ∧ i ≠ task := by
      rw [hends, Unfinished, Unfinished, List.getElem?_set]
      split
      · next hsame =>
        subst hsame
        simp [(List.getElem?_eq_some_iff.mp hopen).1]
      · next hne => simp [Ne.symm hne]
    have hget (key' : ScopeKey) : (s.finish task how).tasks.get? key' = s.tasks.get? key' := by
      rw [hends, htasks]
    constructor
    · intro htidy key' st hst htask
      have hdone := htidy.registered ((hget key').trans hst)
      rw [htask, isDone, hends, List.getElem?_set, if_pos rfl,
        if_pos (List.getElem?_eq_some_iff.mp hopen).1] at hdone
      cases hdone
    · intro hkeeps
      refine ⟨fun hi hj => ht.exclusive (hother.mp hi).1 (hother.mp hj).1, fun {key' st} hst => ?_⟩
      rw [hget] at hst
      exact isDone_of_unfinished (hother.mpr
        ⟨hc.unfinished hst (ht.registered hst), hkeeps key' st hst⟩)

theorem tidy_step_iff (hc : s.Consistent) (ht : s.Tidy) (input : SchedulerInput) :
    (s.step input).Tidy ↔ s.Keeps input := by
  cases input with
  | schedule key => exact tidy_schedule_iff hc ht key
  | finish task how => exact tidy_finish_iff hc ht task how
  | shutdown => exact iff_of_true ⟨ht.exclusive, fun hst => (nomatch hst)⟩ trivial
  | readStats => exact iff_of_true ⟨ht.exclusive, ht.registered⟩ trivial

theorem tidy_initial : ({} : MemoryPipelineScheduler).Tidy :=
  ⟨fun hi => (nomatch hi), fun hst => (nomatch hst)⟩

/-- The scopes have one unfinished task at most, the calls are counted, a free scope gets its
task and what has ended is not registered, all along a run, exactly when no task of the run ends
while it is registered and no call comes while a task that is not registered is unfinished. -/
theorem run_exclusive_iff (inputs : List SchedulerInput) :
    (∀ before, before <+: inputs → let s := Machine.run step {} before
      s.Tidy ∧ s.stats.totalScheduled + s.stats.totalDeduplicated = before.countP isCall ∧
        ∀ key, s.Schedules key) ↔
      Machine.Guarded step Keeps {} inputs := by
  have hconsistent (before : List SchedulerInput) : (Machine.run step {} before).Consistent :=
    Machine.run_inv Consistent (fun _ input h => h.step input) consistent_initial before
  rw [← Machine.guarded_iff Consistent Tidy (fun _ input h => h.step input)
    (fun _ input hc ht => tidy_step_iff hc ht input) consistent_initial tidy_initial]
  refine forall₂_congr fun before _ => ?_
  have htotals := totals_run before {}
  have hschedules := schedules (hconsistent before)
  exact ⟨fun h => h.1, fun h => ⟨h, htotals.trans (Nat.zero_add _), hschedules⟩⟩

/-- The task of a scope has ended and is registered still. -/
theorem finished_task_stays_registered :
    ¬ ∀ inputs : List SchedulerInput, (Machine.run step {} inputs).Tidy := by
  intro h
  have htidy := h [.schedule ("a", "r"), .finish 0 .returned]
  have hst : (Machine.run step {} [.schedule ("a", "r"), .finish 0 .returned]).tasks.get?
      ("a", "r") = some { task := 0 } := by decide
  exact absurd (htidy.registered hst) (by decide)

end MemoryPipelineScheduler

end IrisMind.Memory
