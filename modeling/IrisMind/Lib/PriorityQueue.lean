import Mathlib.Data.List.Sort

/-! # Priority queues

A queue that gives its least item first. The items are held in order, and the
order is a field, so that "the first item is the least" needs no invariant of
the machine that uses the queue. -/
namespace IrisMind.Lib

structure PriorityQueue (α : Type) [LinearOrder α] where
  items : List α
  sorted : items.Pairwise (· ≤ ·)

namespace PriorityQueue

variable {α : Type} [LinearOrder α]

def empty : PriorityQueue α := ⟨[], .nil⟩

def isEmpty (q : PriorityQueue α) : Bool := q.items.isEmpty

def put (q : PriorityQueue α) (a : α) : PriorityQueue α :=
  ⟨q.items.orderedInsert (· ≤ ·) a, q.sorted.orderedInsert a _⟩

/-- The least item, and the queue without it. -/
def getNowait (q : PriorityQueue α) : Option (α × PriorityQueue α) :=
  match h : q.items with
  | [] => none
  | a :: rest => some (a, ⟨rest, (List.pairwise_cons.mp (h ▸ q.sorted)).2⟩)

/-- The items that come before `a`. -/
def ahead (q : PriorityQueue α) (a : α) : Nat := q.items.countP (· < a)

@[simp] theorem items_empty : (empty : PriorityQueue α).items = [] := rfl

@[simp] theorem isEmpty_eq_true {q : PriorityQueue α} : q.isEmpty = true ↔ q.items = [] :=
  List.isEmpty_iff

@[simp] theorem isEmpty_eq_false {q : PriorityQueue α} : q.isEmpty = false ↔ q.items ≠ [] := by
  rw [← Bool.not_eq_true, isEmpty_eq_true]

theorem perm_put (q : PriorityQueue α) (a : α) : List.Perm (q.put a).items (a :: q.items) :=
  List.perm_orderedInsert _ a q.items

@[simp] theorem mem_put {q : PriorityQueue α} {a b : α} :
    b ∈ (q.put a).items ↔ b = a ∨ b ∈ q.items :=
  List.mem_orderedInsert _

theorem getNowait_eq_none {q : PriorityQueue α} : q.getNowait = none ↔ q.items = [] := by
  obtain ⟨items, sorted⟩ := q
  cases items <;> simp [getNowait]

theorem getNowait_eq_some {q rest : PriorityQueue α} {a : α} :
    q.getNowait = some (a, rest) ↔ q.items = a :: rest.items := by
  obtain ⟨items, sorted⟩ := q
  obtain ⟨others, hothers⟩ := rest
  cases items <;> simp [getNowait]

theorem getNowait_least {q rest : PriorityQueue α} {a : α} (h : q.getNowait = some (a, rest)) :
    ∀ b ∈ q.items, a ≤ b := by
  have hs := q.sorted
  rw [getNowait_eq_some.mp h] at hs ⊢
  intro b hb
  rcases List.mem_cons.mp hb with rfl | hb
  · exact le_refl _
  · exact (List.pairwise_cons.mp hs).1 b hb

/-- Every item that stays is one place nearer to its turn. -/
theorem ahead_getNowait {q rest : PriorityQueue α} {a b : α} (h : q.getNowait = some (a, rest))
    (hb : b ∈ q.items) (hne : b ≠ a) : q.ahead b = rest.ahead b + 1 := by
  have hlt : a < b := lt_of_le_of_ne (getNowait_least h b hb) (Ne.symm hne)
  simp only [ahead, getNowait_eq_some.mp h]
  simp [hlt]

end PriorityQueue

end IrisMind.Lib
