import Mathlib.Data.Bool.Basic
import Mathlib.Logic.Function.Basic
import IrisMind.Lib.Machine

/-! # Two threads

Two calls share a state and take their steps in any order: a run is a list that
says whose step comes next. A step reads and writes the shared state and leaves
the stage the call goes on from. -/
namespace IrisMind.Lib

/-- The shared state, and where the two calls are. -/
structure Threads (σ κ : Type) where
  shared : σ
  stage : Bool → κ

namespace Threads

variable {σ κ : Type} (act : Bool → σ → κ → σ × κ)

def advance (t : Threads σ κ) (j : Bool) : Threads σ κ where
  shared := (act j t.shared (t.stage j)).1
  stage := Function.update t.stage j (act j t.shared (t.stage j)).2

variable (t : Threads σ κ) (j : Bool)

@[simp] theorem advance_shared : (t.advance act j).shared = (act j t.shared (t.stage j)).1 := rfl

@[simp] theorem advance_self : (t.advance act j).stage j = (act j t.shared (t.stage j)).2 :=
  Function.update_self _ _ _

@[simp] theorem advance_other : (t.advance act j).stage (!j) = t.stage !j :=
  Function.update_of_ne (Bool.not_ne_self j) _ _

/-- `n` steps of one call. -/
def alone : Nat → σ × κ → σ × κ
  | 0, s => s
  | n + 1, s => alone n (act j s.1 s.2)

/-- A call nobody comes between goes on with what it left. -/
theorem run_replicate (n : Nat) :
    let u := Machine.run (advance act) t (List.replicate n j)
    (u.shared, u.stage j) = alone act j n (t.shared, t.stage j) := by
  induction n generalizing t with
  | zero => rfl
  | succ n ih =>
    rw [List.replicate_succ, Machine.run_cons]
    refine (ih (t.advance act j)).trans ?_
    rw [advance_self]
    rfl

end Threads

end IrisMind.Lib
