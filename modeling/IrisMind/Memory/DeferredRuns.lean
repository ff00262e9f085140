import IrisMind.Memory.Scheduler

/-! # Runs that wait for an event loop

A flush asks for a run of the pipeline. Where no event loop runs the scope is put
aside, and the next call that asks for a run tries what is put aside first. What
was put aside is dropped when the scope runs by then; that run was made later, so
nothing that was put aside goes without one. -/
namespace IrisMind.Memory
open IrisMind.Lib

/-- The order in which a set is gone over: any, and every member once. -/
structure SetOrder where
  list : List ScopeKey → List ScopeKey
  perm : ∀ keys, (list keys).Perm keys

/-- The scheduler with the scopes it has put aside. -/
structure DeferringScheduler where
  scheduler : MemoryPipelineScheduler := {}
  deferred : List ScopeKey := []

/-- What a call of `run_if_needed` is given, and whether it runs on a loop. -/
structure RunRequest where
  loop : Bool
  order : SetOrder
  key : ScopeKey
  turnCount : Int
  minTurns : Int := 6
  enabled : Bool := true

namespace RunRequest

/-- The batch is long enough and the pipeline is on. -/
def Due (r : RunRequest) : Prop := r.enabled = true ∧ r.minTurns ≤ r.turnCount

instance (r : RunRequest) : Decidable r.Due := inferInstanceAs (Decidable (_ ∧ _))

end RunRequest

namespace DeferringScheduler

/-- `schedule_full_cycle`: without a loop no task is made. -/
def scheduleFullCycle (loop : Bool) (s : MemoryPipelineScheduler) (key : ScopeKey) :
    Option Nat × MemoryPipelineScheduler :=
  if loop then s.schedule key else (none, s)

/-- `discard` -/
def discard (q : DeferringScheduler) (key : ScopeKey) : DeferringScheduler :=
  { q with deferred := q.deferred.filter (· ≠ key) }

/-- One scope that was put aside is tried again. -/
def drainOne (loop : Bool) (q : DeferringScheduler) (key : ScopeKey) : DeferringScheduler :=
  if q.scheduler.isAlreadyRunning key then q.discard key
  else
    let (task, scheduler) := scheduleFullCycle loop q.scheduler key
    if task.isSome then { q with scheduler }.discard key else { q with scheduler }

def drain (loop : Bool) (order : SetOrder) (q : DeferringScheduler) : DeferringScheduler :=
  (order.list q.deferred).foldl (drainOne loop) q

/-- The call's own scope, after what was put aside has been tried. Scheduling raises nothing here;
were it to, `run_if_needed` would return without putting the scope aside. -/
def request (loop : Bool) (q : DeferringScheduler) (key : ScopeKey) : DeferringScheduler :=
  if q.scheduler.isAlreadyRunning key then q
  else
    let (task, scheduler) := scheduleFullCycle loop q.scheduler key
    if task.isSome then { q with scheduler }
    else { scheduler, deferred := q.deferred.insert key }

def runIfNeeded (q : DeferringScheduler) (r : RunRequest) : DeferringScheduler :=
  if r.Due then request r.loop (drain r.loop r.order q) r.key else q

/-- Calls that come in, and what happens to the scheduler besides. -/
inductive Input where
  | runIfNeeded (r : RunRequest)
  | other (input : SchedulerInput)

def step (q : DeferringScheduler) : Input → DeferringScheduler
  | .runIfNeeded r => q.runIfNeeded r
  | .other input => { q with scheduler := q.scheduler.step input }

end DeferringScheduler

/-! ## The scheduler only adds -/

namespace MemoryPipelineScheduler

/-- What was made stays, what has ended has ended, and what is newly registered is newly made. -/
structure Grows (s t : MemoryPipelineScheduler) : Prop where
  kept : ∀ {i : Nat} {task : BackgroundTask}, s.made[i]? = some task →
    ∃ task' : BackgroundTask, t.made[i]? = some task' ∧ task'.key = task.key ∧
      (task.done = true → task'.done = true)
  registered : ∀ {key : ScopeKey} {st' : ScheduledTask}, t.tasks.get? key = some st' →
    s.made.length ≤ st'.task ∨ ∃ st, s.tasks.get? key = some st ∧ st.task = st'.task

variable {s t u : MemoryPipelineScheduler} {key : ScopeKey} {n : Nat}

theorem Grows.refl (s : MemoryPipelineScheduler) : s.Grows s :=
  ⟨fun htask => ⟨_, htask, rfl, id⟩, fun hst => .inr ⟨_, hst, rfl⟩⟩

theorem Grows.length_le (h : s.Grows t) : s.made.length ≤ t.made.length := by
  by_contra hlt
  have hlast : t.made.length < s.made.length := Nat.not_le.mp hlt
  obtain ⟨task, htask, -⟩ := h.kept (List.getElem?_eq_getElem hlast)
  rw [List.getElem?_eq_none (Nat.le_refl _)] at htask
  cases htask

theorem Grows.trans (h : s.Grows t) (h' : t.Grows u) : s.Grows u := by
  constructor
  · intro i task htask
    obtain ⟨task', htask', hkey, hdone⟩ := h.kept htask
    obtain ⟨task'', htask'', hkey', hdone'⟩ := h'.kept htask'
    exact ⟨task'', htask'', hkey'.trans hkey, fun hd => hdone' (hdone hd)⟩
  · intro key st'' hst''
    rcases h'.registered hst'' with hnew | ⟨st', hst', hsame'⟩
    · exact .inl (Nat.le_trans h.length_le hnew)
    · rw [← hsame']
      exact h.registered hst'

theorem Grows.createTask (s : MemoryPipelineScheduler) (key : ScopeKey) :
    s.Grows (s.createTask key) := by
  constructor
  · intro i task htask
    refine ⟨task, ?_, rfl, id⟩
    have hlt := (List.getElem?_eq_some_iff.mp htask).1
    rw [MemoryPipelineScheduler.createTask, List.getElem?_append_left hlt, htask]
  · intro key' st' hst'
    rw [MemoryPipelineScheduler.createTask, Dict.get?_set] at hst'
    split at hst'
    · cases hst'
      exact .inl (Nat.le_refl _)
    · exact .inr ⟨st', hst', rfl⟩

theorem Grows.schedule (s : MemoryPipelineScheduler) (key : ScopeKey) :
    s.Grows (s.schedule key).2 := by
  rcases schedule_cases s key with ⟨st, hst, -, hdropped⟩ | ⟨-, hmade⟩
  · rw [hdropped]
    refine ⟨fun htask => ⟨_, htask, rfl, id⟩, fun {key' st'} hst' => ?_⟩
    rw [Dict.get?_set] at hst'
    split at hst'
    · next hkey =>
      cases hst'
      exact .inr ⟨st, hkey ▸ hst, rfl⟩
    · exact .inr ⟨st', hst', rfl⟩
  · rw [hmade]
    exact .createTask s key

theorem Grows.finish (s : MemoryPipelineScheduler) (task : Nat) (how : TaskEnd) :
    s.Grows (s.finish task how) := by
  rcases finish_cases s task how with ⟨-, hsame⟩ | ⟨key, hopen, hends⟩
  · rw [hsame]
    exact .refl s
  · obtain ⟨-, -, -, htasks⟩ := leave_spec s key how
    rw [hends]
    refine ⟨fun {i other} hother => ?_, fun {key' st'} hst' => ?_⟩
    · by_cases hi : i = task
      · subst hi
        cases hopen.symm.trans hother
        have hlt := (List.getElem?_eq_some_iff.mp hopen).1
        exact ⟨_, List.getElem?_set_self hlt, rfl, fun _ => rfl⟩
      · exact ⟨other, (List.getElem?_set_ne (Ne.symm hi)).trans hother, rfl, id⟩
    · rcases htasks with hsame | ⟨herased, -⟩
      · exact .inr ⟨st', hsame ▸ hst', rfl⟩
      · have hst := (congrArg (·.get? key') herased).symm.trans hst'
        rw [Dict.get?_erase] at hst
        split at hst
        · cases hst
        · exact .inr ⟨st', hst, rfl⟩

theorem Grows.step (s : MemoryPipelineScheduler) (input : SchedulerInput) :
    s.Grows (s.step input) := by
  cases input with
  | schedule key => exact .schedule s key
  | finish task how => exact .finish s task how
  | shutdown => exact ⟨fun htask => ⟨_, htask, rfl, id⟩, fun hst => (nomatch hst)⟩
  | readStats => exact ⟨fun htask => ⟨_, htask, rfl, id⟩, fun hst => .inr ⟨_, hst, rfl⟩⟩

/-- A task of the scope was made from number `n` on. -/
def MadeSince (n : Nat) (key : ScopeKey) (s : MemoryPipelineScheduler) : Prop :=
  ∃ i task, n ≤ i ∧ s.made[i]? = some task ∧ task.key = key

/-- What runs for the scope was made from number `n` on. -/
def RunsSince (n : Nat) (key : ScopeKey) (s : MemoryPipelineScheduler) : Prop :=
  n ≤ s.made.length ∧
    ∀ st, s.tasks.get? key = some st → s.isDone st.task = false → n ≤ st.task

theorem MadeSince.grows (h : s.MadeSince n key) (hg : s.Grows t) : t.MadeSince n key := by
  obtain ⟨i, task, hn, htask, hkey⟩ := h
  obtain ⟨task', htask', hkey', -⟩ := hg.kept htask
  exact ⟨i, task', hn, htask', hkey'.trans hkey⟩

theorem RunsSince.grows (h : s.RunsSince n key) (hg : s.Grows t) : t.RunsSince n key := by
  refine ⟨Nat.le_trans h.1 hg.length_le, fun st' hst' hrunning => ?_⟩
  rcases hg.registered hst' with hnew | ⟨st, hst, hsame⟩
  · exact Nat.le_trans h.1 hnew
  · rw [← hsame] at hrunning ⊢
    cases hdone : s.isDone st.task with
    | false => exact h.2 st hst hdone
    | true =>
      cases hmade : s.made[st.task]? with
      | none => exact Nat.le_trans h.1 (List.getElem?_eq_none_iff.mp hmade)
      | some task =>
        have hended : task.done = true := by simpa [isDone, hmade] using hdone
        obtain ⟨task', htask', -, hstill⟩ := hg.kept hmade
        simp [isDone, htask', hstill hended] at hrunning

theorem isAlreadyRunning_iff : s.isAlreadyRunning key = true ↔
    ∃ st, s.tasks.get? key = some st ∧ s.isDone st.task = false := by
  unfold isAlreadyRunning
  cases hget : s.tasks.get? key with
  | none => simp
  | some st => simp

theorem RunsSince.of_idle (h : s.isAlreadyRunning key = false) :
    s.RunsSince s.made.length key := by
  refine ⟨Nat.le_refl _, fun st hst hrunning => ?_⟩
  rw [isAlreadyRunning_iff.mpr ⟨st, hst, hrunning⟩] at h
  cases h

/-- What runs since then was made since then. -/
theorem RunsSince.made (h : s.RunsSince n key) (hc : s.Consistent)
    (hrunning : s.isAlreadyRunning key = true) : s.MadeSince n key := by
  obtain ⟨st, hst, hdone⟩ := isAlreadyRunning_iff.mp hrunning
  exact ⟨st.task, _, h.2 st hst hdone, hc.unfinished hst hdone, rfl⟩

/-- A scope that does not run is given a task, and runs. -/
theorem schedule_idle (h : s.isAlreadyRunning key = false) :
    s.schedule key = (some s.made.length, s.createTask key) := by
  rcases schedule_cases s key with ⟨st, hst, hdone, -⟩ | ⟨-, hmade⟩
  · rw [isAlreadyRunning_iff.mpr ⟨st, hst, hdone⟩] at h
    cases h
  · exact hmade

theorem isAlreadyRunning_createTask (s : MemoryPipelineScheduler) (key : ScopeKey) :
    (s.createTask key).isAlreadyRunning key = true := by
  refine isAlreadyRunning_iff.mpr ⟨{ task := s.made.length }, ?_, ?_⟩
  · rw [createTask, Dict.get?_set, if_pos rfl]
  · exact isDone_of_unfinished (unfinished_createTask.mpr (.inr ⟨rfl, rfl⟩))

theorem RunsSince.createTask (h : s.RunsSince n key) : (s.createTask key).MadeSince n key :=
  ⟨s.made.length, _, h.1, unfinished_createTask.mpr (.inr ⟨rfl, rfl⟩), rfl⟩

end MemoryPipelineScheduler

/-! ## What is put aside -/

namespace DeferringScheduler

variable {q : DeferringScheduler} {key : ScopeKey} {n : Nat}

theorem drainOne_cases (loop : Bool) (q : DeferringScheduler) (key : ScopeKey) :
    (q.scheduler.isAlreadyRunning key = true ∧ drainOne loop q key = q.discard key) ∨
      q.scheduler.isAlreadyRunning key = false ∧
        (loop = true ∧ drainOne loop q key =
            { q with scheduler := q.scheduler.createTask key }.discard key ∨
          loop = false ∧ drainOne loop q key = q) := by
  unfold drainOne scheduleFullCycle
  cases hrunning : q.scheduler.isAlreadyRunning key with
  | true => exact .inl ⟨rfl, rfl⟩
  | false =>
    cases loop with
    | true =>
      refine .inr ⟨rfl, .inl ⟨rfl, ?_⟩⟩
      simp [MemoryPipelineScheduler.schedule_idle hrunning]
    | false => exact .inr ⟨rfl, .inr ⟨rfl, rfl⟩⟩

theorem request_cases (loop : Bool) (q : DeferringScheduler) (key : ScopeKey) :
    (q.scheduler.isAlreadyRunning key = true ∧ request loop q key = q) ∨
      q.scheduler.isAlreadyRunning key = false ∧
        (loop = true ∧ request loop q key =
            { q with scheduler := q.scheduler.createTask key } ∨
          loop = false ∧ request loop q key = { q with deferred := q.deferred.insert key }) := by
  unfold request scheduleFullCycle
  cases hrunning : q.scheduler.isAlreadyRunning key with
  | true => exact .inl ⟨rfl, rfl⟩
  | false =>
    cases loop with
    | true =>
      refine .inr ⟨rfl, .inl ⟨rfl, ?_⟩⟩
      simp [MemoryPipelineScheduler.schedule_idle hrunning]
    | false => exact .inr ⟨rfl, .inr ⟨rfl, rfl⟩⟩

theorem mem_discard {k : ScopeKey} : key ∈ (q.discard k).deferred ↔ key ∈ q.deferred ∧ key ≠ k := by
  simp [discard]

/-- The scheduler is sound, and what runs for the scope was made from number `n` on. -/
structure Tracked (n : Nat) (key : ScopeKey) (q : DeferringScheduler) : Prop where
  consistent : q.scheduler.Consistent
  since : q.scheduler.RunsSince n key

/-- The scope is put aside, or has been given a task from number `n` on. -/
def Owed (n : Nat) (key : ScopeKey) (q : DeferringScheduler) : Prop :=
  key ∈ q.deferred ∨ q.scheduler.MadeSince n key

theorem Tracked.createTask (h : q.Tracked n key) (k : ScopeKey) (deferred : List ScopeKey) :
    Tracked n key ⟨q.scheduler.createTask k, deferred⟩ :=
  ⟨h.consistent.createTask k, h.since.grows (.createTask _ k)⟩

theorem Tracked.drainOne (h : q.Tracked n key) (loop : Bool) (k : ScopeKey) :
    (drainOne loop q k).Tracked n key := by
  rcases drainOne_cases loop q k with ⟨-, hsame⟩ | ⟨-, ⟨-, hmade⟩ | ⟨-, hsame⟩⟩
  · rw [hsame]
    exact ⟨h.consistent, h.since⟩
  · rw [hmade]
    exact h.createTask k _
  · rw [hsame]
    exact h

/-- What is tried again is dropped only when the scope has its task. -/
theorem Owed.drainOne (h : q.Owed n key) (ht : q.Tracked n key) (loop : Bool) (k : ScopeKey) :
    (drainOne loop q k).Owed n key := by
  rcases drainOne_cases loop q k with ⟨hrunning, hsame⟩ | ⟨-, ⟨-, hmade⟩ | ⟨-, hsame⟩⟩
  · rw [hsame]
    by_cases hk : key = k
    · subst hk
      exact .inr (ht.since.made ht.consistent hrunning)
    · exact h.imp_left fun hin => mem_discard.mpr ⟨hin, hk⟩
  · rw [hmade]
    by_cases hk : key = k
    · subst hk
      exact .inr ht.since.createTask
    · exact h.imp (fun hin => mem_discard.mpr ⟨hin, hk⟩) fun hmade => hmade.grows (.createTask _ k)
  · rw [hsame]
    exact h

theorem Tracked.drain (h : q.Tracked n key) (loop : Bool) (order : SetOrder) :
    (q.drain loop order).Tracked n key ∧ (q.Owed n key → (q.drain loop order).Owed n key) := by
  unfold DeferringScheduler.drain
  generalize order.list q.deferred = keys
  induction keys generalizing q with
  | nil => exact ⟨h, id⟩
  | cons k keys ih =>
    obtain ⟨htracked, howed⟩ := ih (h.drainOne loop k)
    exact ⟨htracked, fun ho => howed (ho.drainOne h loop k)⟩

theorem Tracked.request (h : q.Tracked n key) (loop : Bool) (k : ScopeKey) :
    (request loop q k).Tracked n key ∧
      (q.Owed n key ∨ k = key → (request loop q k).Owed n key) := by
  rcases request_cases loop q k with ⟨hrunning, hsame⟩ | ⟨-, ⟨-, hmade⟩ | ⟨-, haside⟩⟩
  · rw [hsame]
    refine ⟨h, fun ho => ho.elim id fun hk => ?_⟩
    exact .inr (h.since.made h.consistent (hk ▸ hrunning))
  · rw [hmade]
    refine ⟨h.createTask k _, fun ho => ho.elim (fun ho => ?_) fun hk => ?_⟩
    · exact ho.imp_right fun hmade => hmade.grows (.createTask _ k)
    · exact .inr (hk ▸ (hk.symm ▸ h.since : q.scheduler.RunsSince n k).createTask)
  · rw [haside]
    refine ⟨⟨h.consistent, h.since⟩, fun ho => ho.elim (fun ho => ?_) fun hk => ?_⟩
    · exact ho.imp_left fun hin => List.mem_insert_of_mem hin
    · exact .inl (hk ▸ List.mem_insert_self)

theorem Tracked.step (h : q.Tracked n key) (i : Input) :
    (q.step i).Tracked n key ∧ (q.Owed n key → (q.step i).Owed n key) := by
  cases i with
  | runIfNeeded r =>
    rw [DeferringScheduler.step, runIfNeeded]
    split
    · obtain ⟨hdrained, howed⟩ := h.drain r.loop r.order
      obtain ⟨hasked, hstill⟩ := hdrained.request r.loop r.key
      exact ⟨hasked, fun ho => hstill (.inl (howed ho))⟩
    · exact ⟨h, id⟩
  | other input =>
    have hgrows := MemoryPipelineScheduler.Grows.step q.scheduler input
    exact ⟨⟨h.consistent.step input, h.since.grows hgrows⟩,
      fun ho => ho.imp_right fun hmade => hmade.grows hgrows⟩

theorem Tracked.run (h : q.Tracked n key) (is : List Input) :
    q.Owed n key → (Machine.run DeferringScheduler.step q is).Owed n key := by
  induction is generalizing q with
  | nil => exact id
  | cons i is ih => exact fun ho => ih (h.step i).1 ((h.step i).2 ho)

theorem consistent_run (is : List Input) :
    (Machine.run step {} is).scheduler.Consistent := by
  have hstep : ∀ (q : DeferringScheduler) (i : Input),
      q.scheduler.Consistent → (q.step i).scheduler.Consistent := by
    intro q i hq
    cases hi : i with
    | other input => exact hq.step input
    | runIfNeeded r =>
      -- the scope and the number do not matter here
      have htracked : Tracked 0 r.key q :=
        ⟨hq, Nat.zero_le _, fun _ _ _ => Nat.zero_le _⟩
      exact (htracked.step (.runIfNeeded r)).1.consistent
  exact Machine.run_inv (fun q : DeferringScheduler => q.scheduler.Consistent) hstep
    MemoryPipelineScheduler.consistent_initial is

/-! ## With a loop -/

theorem mem_foldl_drainOne (keys : List ScopeKey) :
    key ∈ (keys.foldl (drainOne true) q).deferred ↔ key ∈ q.deferred ∧ key ∉ keys := by
  induction keys generalizing q with
  | nil => simp
  | cons k keys ih =>
    have hone : key ∈ (drainOne true q k).deferred ↔ key ∈ q.deferred ∧ key ≠ k := by
      rcases drainOne_cases true q k with ⟨-, hsame⟩ | ⟨-, ⟨-, hmade⟩ | ⟨hloop, -⟩⟩
      · rw [hsame, mem_discard]
      · rw [hmade, mem_discard]
      · cases hloop
    rw [List.foldl_cons, ih, hone, List.mem_cons, not_or, and_assoc]

theorem deferred_drain (order : SetOrder) : (q.drain true order).deferred = [] := by
  refine List.eq_nil_iff_forall_not_mem.mpr fun k hk => ?_
  obtain ⟨hin, hout⟩ := (mem_foldl_drainOne _).mp hk
  exact hout ((order.perm q.deferred).mem_iff.mpr hin)

theorem request_loop (q : DeferringScheduler) (key : ScopeKey) :
    (request true q key).deferred = q.deferred ∧
      (request true q key).scheduler.isAlreadyRunning key = true := by
  rcases request_cases true q key with ⟨hrunning, hsame⟩ | ⟨-, ⟨-, hmade⟩ | ⟨hloop, -⟩⟩
  · rw [hsame]
    exact ⟨rfl, hrunning⟩
  · rw [hmade]
    exact ⟨rfl, q.scheduler.isAlreadyRunning_createTask key⟩
  · cases hloop

/-- A call that is due, of a scope that does not run, is never forgotten: whatever comes after,
the scope is still put aside or has been given a task since the call. With a loop the call leaves
nothing put aside, and its own scope running. -/
theorem batches_served (before after : List Input) (r : RunRequest) (hdue : r.Due) :
    let q := Machine.run step {} before
    let called := q.runIfNeeded r
    (q.scheduler.isAlreadyRunning r.key = true ∨
      (Machine.run step called after).Owed q.scheduler.made.length r.key) ∧
    (r.loop = true → called.deferred = [] ∧ called.scheduler.isAlreadyRunning r.key = true) := by
  intro q called
  have hcalled : called = request r.loop (q.drain r.loop r.order) r.key := if_pos hdue
  constructor
  · cases hrunning : q.scheduler.isAlreadyRunning r.key with
    | true => exact .inl rfl
    | false =>
      have htracked : q.Tracked q.scheduler.made.length r.key :=
        ⟨consistent_run before, .of_idle hrunning⟩
      obtain ⟨hdrained, -⟩ := htracked.drain r.loop r.order
      obtain ⟨hasked, howed⟩ := hdrained.request r.loop r.key
      rw [← hcalled] at hasked howed
      exact .inr (hasked.run after (howed (.inr rfl)))
  · intro hloop
    rw [hcalled, hloop]
    obtain ⟨hdeferred, hrunning⟩ := request_loop (q.drain true r.order) r.key
    exact ⟨hdeferred.trans (deferred_drain r.order), hrunning⟩

/-- A batch without a loop, and the next one with one: the first has its task. -/
theorem batches_served_later :
    let order : SetOrder := ⟨id, fun keys => .refl keys⟩
    (Machine.run step {} [.runIfNeeded ⟨false, order, ("a", "r"), 6, 6, true⟩,
      .runIfNeeded ⟨true, order, ("b", "r"), 6, 6, true⟩]).Owed 0 ("a", "r") := by
  intro order
  exact (batches_served [] [.runIfNeeded ⟨true, order, ("b", "r"), 6, 6, true⟩]
    ⟨false, order, ("a", "r"), 6, 6, true⟩ ⟨rfl, Int.le_refl 6⟩).1.resolve_left Bool.false_ne_true

end DeferringScheduler

end IrisMind.Memory
