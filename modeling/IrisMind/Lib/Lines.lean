import Mathlib.Data.List.TakeWhile
import IrisMind.Lib.Text

/-! # Lines

A text file is read as a list of code points. Reading it makes every line end a
newline; `splitlines` begins a new line after every line boundary there is, and
drops an empty last line. -/
namespace IrisMind.Lib.Text

/-- The line boundaries beyond ASCII. -/
def isBreak (c : Char) : Bool := c.toNat == 0x85 || c.toNat == 0x2028 || c.toNat == 0x2029

/-- The code points `splitlines` ends a line at. -/
def isBoundary (c : Char) : Bool :=
  (10 ≤ c.toNat && c.toNat ≤ 13) || (28 ≤ c.toNat && c.toNat ≤ 30) || isBreak c

def splitlines : List Char → List (List Char)
  | [] => []
  | '\r' :: '\n' :: rest => [] :: splitlines rest
  | c :: rest =>
    if isBoundary c then [] :: splitlines rest
    else match splitlines rest with
      | [] => [[c]]
      | line :: lines => (c :: line) :: lines

/-- The text of a file. -/
def readText : List Char → List Char
  | [] => []
  | '\r' :: '\n' :: rest => '\n' :: readText rest
  | c :: rest => (if c = '\r' then '\n' else c) :: readText rest

def trim (l : List Char) : List Char := (stripLeft (stripLeft l).reverse).reverse

/-- Nothing is left of the text when it is stripped. -/
def isBlank (l : List Char) : Bool := (trim l).isEmpty

theorem isBoundary_newline : isBoundary '\n' = true := by decide

theorem isBlank_of_head {c : Char} (h : isSpace c = false) (rest : List Char) :
    isBlank (c :: rest) = false := by
  have hleft : stripLeft (c :: rest) = c :: rest := List.dropWhile_cons_of_neg (by simp [h])
  have hne : stripLeft (c :: rest).reverse ≠ [] := by
    rw [stripLeft, Ne, List.dropWhile_eq_nil_iff]
    intro hall
    have hc := hall c (by simp)
    rw [h] at hc
    cases hc
  unfold isBlank trim
  rw [hleft, List.isEmpty_reverse]
  exact Bool.eq_false_iff.mpr fun hempty => hne (List.isEmpty_iff.mp hempty)

theorem readText_eq {l : List Char} (h : '\r' ∉ l) : readText l = l := by
  induction l with
  | nil => rfl
  | cons c rest ih =>
    have hc : c ≠ '\r' := fun hc => h (hc ▸ List.mem_cons_self)
    simp [readText, hc, ih fun hm => h (List.mem_cons_of_mem _ hm)]

theorem not_boundary_of_mem_splitOnP {piece : List Char} : ∀ {l : List Char},
    piece ∈ l.splitOnP isBoundary → ∀ c ∈ piece, isBoundary c = false
  | [], h => by
    rw [List.splitOnP_nil, List.mem_singleton] at h
    subst h
    exact fun c hc => by cases hc
  | c :: l, h => by
    rw [List.splitOnP_cons_eq_if_modifyHead] at h
    obtain ⟨first, rest, hsplit⟩ := List.exists_cons_of_ne_nil (List.splitOnP_ne_nil isBoundary l)
    have ih : ∀ p ∈ first :: rest, ∀ c ∈ p, isBoundary c = false := fun p hp =>
      not_boundary_of_mem_splitOnP (hsplit ▸ hp)
    rw [hsplit] at h
    cases hline : isBoundary c with
    | true =>
      rw [hline, if_pos rfl] at h
      rcases List.mem_cons.mp h with rfl | h
      · exact fun c hc => by cases hc
      · exact ih piece h
    | false =>
      rw [hline, if_neg Bool.false_ne_true] at h
      rcases List.mem_cons.mp h with rfl | h
      · intro x hx
        rcases List.mem_cons.mp hx with rfl | hx
        · exact hline
        · exact ih first List.mem_cons_self x hx
      · exact ih piece (List.mem_cons_of_mem _ h)

/-- Lines are what is between the boundaries, but for an empty last line. -/
theorem splitlines_or {l : List Char} (h : '\r' ∉ l) :
    l.splitOnP isBoundary = splitlines l ∨ l.splitOnP isBoundary = splitlines l ++ [[]] := by
  induction l with
  | nil => exact .inr rfl
  | cons c rest ih =>
    have hc : c ≠ '\r' := fun hc => h (hc ▸ List.mem_cons_self)
    have ih := ih fun hm => h (List.mem_cons_of_mem _ hm)
    rw [List.splitOnP_cons_eq_if_modifyHead]
    cases hb : isBoundary c with
    | true =>
      have hlines : splitlines (c :: rest) = [] :: splitlines rest := by simp [splitlines, hc, hb]
      rw [hlines, if_pos rfl]
      exact ih.imp (congrArg (List.cons [])) (congrArg (List.cons []))
    | false =>
      rw [if_neg Bool.false_ne_true]
      cases hrest : splitlines rest with
      | nil =>
        have hlines : splitlines (c :: rest) = [[c]] := by simp [splitlines, hc, hb, hrest]
        rw [hrest] at ih
        rcases ih with hnone | hempty
        · exact absurd hnone (List.splitOnP_ne_nil _ _)
        · rw [hlines, hempty]
          exact .inl rfl
      | cons line lines =>
        have hlines : splitlines (c :: rest) = (c :: line) :: lines := by
          simp [splitlines, hc, hb, hrest]
        rw [hrest] at ih
        rw [hlines]
        rcases ih with hsame | hmore
        · rw [hsame]
          exact .inl rfl
        · rw [hmore]
          exact .inr rfl

end IrisMind.Lib.Text
