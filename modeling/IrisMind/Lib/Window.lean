import Mathlib.Data.List.DropRight
import Mathlib.Data.List.Infix

/-! # The last entries of a log

A log of which only the last `n` entries are kept. What is kept after every
entry is what would be kept of all of them at once. -/
namespace IrisMind.Lib.Window

variable {α : Type} {n : Nat} {kept log : List α}

theorem rtake_append_rtake (n : Nat) (l m : List α) :
    (l.rtake n ++ m).rtake n = (l ++ m).rtake n := by
  simp only [List.rtake_eq_reverse_take_reverse, List.reverse_append, List.reverse_reverse,
    List.take_append, List.take_take, List.length_reverse]
  rw [Nat.min_eq_left (Nat.sub_le _ _)]

theorem length_rtake (n : Nat) (l : List α) : (l.rtake n).length = min n l.length := by
  simp only [List.rtake, List.length_drop]
  omega

theorem rtake_suffix (n : Nat) (l : List α) : l.rtake n <:+ l := List.drop_suffix _ _

/-- `entries[-n:]`, when there are more than `n`. -/
theorem drop_eq_rtake (n : Nat) (l : List α) :
    (if n < l.length then l.drop (l.length - n) else l) = l.rtake n := by
  split
  · rfl
  · next h =>
    rw [List.rtake, Nat.sub_eq_zero_of_le (not_lt.mp h)]
    rfl

/-- `entries.pop(0)`, when there is one more than `n`. -/
theorem tail_eq_rtake {n : Nat} {l : List α} (h : l.length ≤ n + 1) :
    (if n < l.length then l.tail else l) = l.rtake n := by
  rw [← drop_eq_rtake]
  split
  · next hlong =>
    have hone : l.length - n = 1 := by omega
    rw [hone, List.drop_one]
  · rfl

end IrisMind.Lib.Window
