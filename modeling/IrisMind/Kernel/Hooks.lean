import IrisMind.Lib.Dict
import IrisMind.Lib.Machine
import IrisMind.Lib.Ranking

/-! # Hooks

A hook takes data through its handlers, the least priority first. A handler that
raises is left out, as if it had given back what it got. Handlers are registered
until the registry is frozen; the order of registration counts only among those
of one priority. -/
namespace IrisMind.Kernel
open IrisMind.Lib

/-- A handler; none is an exception. -/
abbrev HookHandler (α : Type) := α → Option α

structure HookRegistry (α : Type) where
  handlers : Dict String (List (Int × HookHandler α)) := .empty
  frozen : Bool := false

namespace HookRegistry

variable {α : Type}

def handlersOf (r : HookRegistry α) (hookName : String) : List (Int × HookHandler α) :=
  r.handlers.getD hookName []

/-- The handlers of a hook with one more, sorted again. -/
def add (r : HookRegistry α) (hookName : String) (entry : Int × HookHandler α) :
    HookRegistry α :=
  let sorted := Ranking.sortBy Prod.fst (r.handlersOf hookName ++ [entry])
  { r with handlers := r.handlers.set hookName sorted }

def register (r : HookRegistry α) (hookName : String) (priority : Int) (handler : HookHandler α) :
    Except String (HookRegistry α) :=
  if r.frozen then .error ("HookRegistry is frozen, cannot register '" ++ hookName ++ "'")
  else .ok (r.add hookName (priority, handler))

def freeze (r : HookRegistry α) : HookRegistry α := { r with frozen := true }

/-- What the handlers of a hook make of the data, one after the other. -/
def runHandlers (handlers : List (Int × HookHandler α)) (data : α) : α :=
  handlers.foldl (fun data h => (h.2 data).getD data) data

/-- `execute_sync`; `execute` does the same and awaits. -/
def execute (r : HookRegistry α) (hookName : String) (data : α) : α :=
  runHandlers (r.handlersOf hookName) data

/-! ## Runs -/

inductive Call (α : Type) where
  | register (hookName : String) (priority : Int) (handler : HookHandler α)
  | freeze

/-- A call that raises changes nothing. -/
def step (r : HookRegistry α) : Call α → HookRegistry α
  | .register hookName priority handler =>
    match r.register hookName priority handler with
    | .ok r => r
    | .error _ => r
  | .freeze => r.freeze

/-- What is registered for a hook before the first freeze, in order. -/
def registered (hookName : String) : List (Call α) → List (Int × HookHandler α)
  | [] => []
  | .freeze :: _ => []
  | .register name priority handler :: calls =>
    if name = hookName then (priority, handler) :: registered hookName calls
    else registered hookName calls

theorem run_frozen {r : HookRegistry α} (h : r.frozen = true) (calls : List (Call α)) :
    Machine.run step r calls = r := by
  refine Machine.run_of_fixed (fun call => ?_) calls
  cases call with
  | register hookName priority handler => simp [step, register, h]
  | freeze =>
    cases r
    simp_all [step, freeze]

theorem handlersOf_run (r : HookRegistry α) (hr : r.frozen = false) (hookName : String)
    (earlier : List (Int × HookHandler α))
    (h : r.handlersOf hookName = Ranking.sortBy Prod.fst earlier) (calls : List (Call α)) :
    (Machine.run step r calls).handlersOf hookName =
      Ranking.sortBy Prod.fst (earlier ++ registered hookName calls) := by
  induction calls generalizing r earlier with
  | nil => rw [registered, List.append_nil]; exact h
  | cons call calls ih =>
    cases call with
    | freeze =>
      rw [Machine.run_cons, step, run_frozen rfl, registered, List.append_nil]
      exact h
    | register name priority handler =>
      have hstep : step r (.register name priority handler) = r.add name (priority, handler) := by
        simp [step, register, hr]
      have hadd : (r.add name (priority, handler)).frozen = false := hr
      rw [Machine.run_cons, hstep, registered]
      by_cases hname : name = hookName
      · subst hname
        rw [if_pos rfl, ih _ hadd (earlier ++ [(priority, handler)]), List.append_assoc]
        · rfl
        · rw [← Ranking.sortBy_append_sortBy, ← h]
          simp [add, handlersOf, Dict.getD]
      · rw [if_neg hname, ih _ hadd earlier]
        rw [← h]
        simp [add, handlersOf, Dict.getD, Dict.get?_set, hname]

/-- After any calls, a hook takes data through what was registered for it before the first
freeze, the least priority first; and another run that registers the same for each priority comes
to the same, whatever the order between priorities. -/
theorem execute_run (calls : List (Call α)) (hookName : String) (data : α) :
    (Machine.run step {} calls).execute hookName data =
        runHandlers (Ranking.sortBy Prod.fst (registered hookName calls)) data ∧
      ∀ calls' : List (Call α), (∀ priority,
          (registered hookName calls).filter (fun h => h.1 = priority) =
            (registered hookName calls').filter fun h => h.1 = priority) →
        (Machine.run step {} calls').execute hookName data =
          (Machine.run step {} calls).execute hookName data := by
  have hrun : ∀ calls : List (Call α), (Machine.run step {} calls).handlersOf hookName =
      Ranking.sortBy Prod.fst (registered hookName calls) := fun calls =>
    handlersOf_run {} rfl hookName [] (by simp [handlersOf, Dict.getD, Dict.get?_empty,
      Ranking.sortBy]) calls
  refine ⟨by rw [execute, hrun], fun calls' hsame => ?_⟩
  have hsort : Ranking.sortBy Prod.fst (registered hookName calls') =
      Ranking.sortBy Prod.fst (registered hookName calls) :=
    Ranking.eq_of_filter_eq Ranking.sortBy_pairwise Ranking.sortBy_pairwise fun priority => by
      rw [Ranking.filter_sortBy, Ranking.filter_sortBy, hsame]
  rw [execute, execute, hrun, hrun, hsort]

end HookRegistry

end IrisMind.Kernel
