import IrisMind.Lib.Text
import Mathlib.Logic.Relation
import Mathlib.Order.Extension.Linear
import Mathlib.Data.List.Dedup
import Mathlib.Data.List.Induction
import Mathlib.Data.List.Sort

/-! # Topological orders

A graph gives each node the nodes it has to come after. A topological order
lists every node once, the mentioned ones included, each after those it has to
come after; there is one exactly when no node comes after itself. A sort goes
level by level: it lists all nodes that are ready, then those that are ready by
then. Two nodes of one level can be listed either way around. -/
namespace IrisMind.Lib.Graphs

variable {α : Type}

abbrev Graph (α : Type) := List (α × List α)

/-- `a` has to come after `b`. -/
def Edge (g : Graph α) (a b : α) : Prop := ∃ deps, (a, deps) ∈ g ∧ b ∈ deps

def Node (g : Graph α) (a : α) : Prop := ∃ e ∈ g, a = e.1 ∨ a ∈ e.2

def Cyclic (g : Graph α) : Prop := ∃ a, Relation.TransGen (Edge g) a a

/-- `a` stands after `b` in the list. -/
def After (l : List α) (a b : α) : Prop := ∃ pre post, l = pre ++ a :: post ∧ b ∈ pre

/-- The node is not done, and all that it has to come after is. -/
def Ready (g : Graph α) (done : List α) (a : α) : Prop :=
  Node g a ∧ a ∉ done ∧ ∀ b, Edge g a b → b ∈ done

/-- What is still to be listed once some nodes are done: all nodes that are ready, in any order, and
what comes when they are done as well. -/
inductive Levelled (g : Graph α) : List α → List α → Prop where
  | nil {done : List α} (h : ∀ a, Node g a → a ∈ done) : Levelled g done []
  | group {done ready rest : List α} (nodup : ready.Nodup)
      (all : ∀ a, a ∈ ready ↔ Ready g done a) (next : Levelled g (done ++ ready) rest) :
      Levelled g done (ready ++ rest)

/-- A sort that lists the nodes level by level or reports a cycle. -/
structure Sorter (α : Type) where
  staticOrder : Graph α → Option (List α)
  levelled : ∀ {g l}, staticOrder g = some l → Levelled g [] l
  cyclic : ∀ {g}, staticOrder g = none → Cyclic g

/-- No chain of edges that begins at the node has `n` edges. -/
def Within (g : Graph α) : Nat → α → Prop
  | 0, _ => False
  | n + 1, a => ∀ b, Edge g a b → Within g n b

theorem After.mem {l : List α} {a b : α} (h : After l a b) : a ∈ l ∧ b ∈ l := by
  obtain ⟨pre, post, rfl, hb⟩ := h
  exact ⟨List.mem_append_right pre List.mem_cons_self, List.mem_append_left _ hb⟩

theorem After.mem_pre {pre post : List α} {a b : α} (hn : (pre ++ a :: post).Nodup)
    (h : After (pre ++ a :: post) a b) : b ∈ pre := by
  obtain ⟨pre', post', he, hb⟩ := h
  have hnew : a ∉ pre := fun hm => (List.nodup_append.mp hn).2.2 a hm a List.mem_cons_self rfl
  have hnew' : a ∉ pre' := fun hm =>
    (List.nodup_append.mp (he ▸ hn)).2.2 a hm a List.mem_cons_self rfl
  obtain ⟨rfl, -⟩ := Text.first_split hnew hnew' he
  exact hb

theorem After.trans {l : List α} (hn : l.Nodup) {a b c : α} (hab : After l a b)
    (hbc : After l b c) : After l a c := by
  obtain ⟨pre, post, rfl, hb⟩ := hab
  obtain ⟨first, second, rfl⟩ := List.append_of_mem hb
  refine ⟨first ++ b :: second, post, rfl, List.mem_append_left _ ?_⟩
  rw [List.append_assoc, List.cons_append] at hbc hn
  exact hbc.mem_pre hn

theorem After.ne {l : List α} (hn : l.Nodup) {a b : α} (h : After l a b) : a ≠ b := by
  obtain ⟨pre, post, rfl, hb⟩ := h
  rintro rfl
  exact (List.nodup_append.mp hn).2.2 a hb a List.mem_cons_self rfl

namespace Topological

variable {g : Graph α} {l : List α}

end Topological

theorem Within.succ {g : Graph α} {n : Nat} {a : α} (h : Within g n a) : Within g (n + 1) a := by
  induction n generalizing a with
  | zero => cases h
  | succ n ih => exact fun b hb => ih (h b hb)

theorem Within.mono {g : Graph α} {m n : Nat} {a : α} (h : Within g m a) (hle : m ≤ n) :
    Within g n a := by
  induction hle with
  | refl => exact h
  | step _ ih => exact ih.succ

namespace Levelled

variable {g : Graph α} {done l : List α}

end Levelled

/-! ## Sorters -/

end IrisMind.Lib.Graphs
