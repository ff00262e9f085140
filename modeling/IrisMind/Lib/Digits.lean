import Mathlib.Algebra.Group.Nat.Defs
import Mathlib.Data.Char
import Mathlib.Data.List.Lex
import Mathlib.Data.Nat.Basic

/-! # Numbers in names

Text is ordered by its first character that differs. Numbers written with the
same number of digits are ordered as text as they are as numbers; a number that
outgrows its padding is not. -/
namespace IrisMind.Lib.Digits

/-- A number padded with zeros to `w` digits. -/
def padded (w n : Nat) : List Char := (Nat.toDigits 10 n).leftpad w '0'

theorem value_padded (w n : Nat) : Nat.ofDigitChars 10 (padded w n) 0 = n := by
  rw [padded, List.leftpad, Nat.ofDigitChars_append, Nat.ofDigitChars_replicate_zero, Nat.mul_zero,
    Nat.ofDigitChars_ten_toDigits]

theorem padded_injective (w : Nat) : Function.Injective (padded w) := fun n m h => by
  rw [← value_padded w n, h, value_padded]

theorem isDigit_of_mem_padded {w n : Nat} {c : Char} (h : c ∈ padded w n) : c.isDigit = true := by
  rcases List.mem_append.mp h with h | h
  · rw [(List.mem_replicate.mp h).2]
    rfl
  · exact Nat.isDigit_of_mem_toDigits (by decide) (by decide) h

theorem length_padded {w n : Nat} (hw : 0 < w) (h : n < 10 ^ w) : (padded w n).length = w := by
  have hdigits : (Nat.toDigits 10 n).length ≤ w :=
    (Nat.length_toDigits_le_iff (by decide) hw).mpr h
  rw [padded, List.leftpad, List.length_append, List.length_replicate]
  omega

/-! ## The order of text -/

/-- Texts with starts of one length are ordered by their starts first. -/
theorem append_lt_append {a b c d : List Char} (h : a.length = b.length) :
    a ++ c < b ++ d ↔ a < b ∨ a = b ∧ c < d := by
  induction a generalizing b with
  | nil =>
    rw [List.eq_nil_of_length_eq_zero h.symm]
    simp
  | cons x a ih =>
    cases b with
    | nil => cases h
    | cons y b =>
      rw [List.cons_append, List.cons_append, List.cons_lt_cons_iff, List.cons_lt_cons_iff,
        ih (Nat.succ.inj h), List.cons.injEq]
      tauto

theorem toNat_of_isDigit {c : Char} (h : c.isDigit = true) : 48 ≤ c.toNat ∧ c.toNat ≤ 57 := by
  simp only [Char.isDigit, Bool.and_eq_true, decide_eq_true_eq] at h
  exact ⟨h.1, h.2⟩

theorem value_cons (c : Char) (l : List Char) : Nat.ofDigitChars 10 (c :: l) 0 =
    10 ^ l.length * (c.toNat - 48) + Nat.ofDigitChars 10 l 0 := by
  rw [Nat.ofDigitChars_cons, Nat.ofDigitChars_eq_ofDigitChars_zero, Nat.mul_zero, Nat.zero_add]
  rfl

theorem value_lt {l : List Char} (h : ∀ c ∈ l, c.isDigit = true) :
    Nat.ofDigitChars 10 l 0 < 10 ^ l.length := by
  induction l with
  | nil => exact Nat.one_pos
  | cons c l ih =>
    obtain ⟨_, hc⟩ := toNat_of_isDigit (h c List.mem_cons_self)
    have hfirst : 10 ^ l.length * (c.toNat - 48) ≤ 10 ^ l.length * 9 :=
      Nat.mul_le_mul_left _ (by omega)
    have hrest := ih fun c hc => h c (List.mem_cons_of_mem _ hc)
    rw [value_cons, List.length_cons, Nat.pow_succ]
    omega

/-- Numbers of one length are ordered as text as they are as numbers. -/
theorem lt_of_value_lt {a b : List Char} (ha : ∀ c ∈ a, c.isDigit = true)
    (hb : ∀ c ∈ b, c.isDigit = true) (hlength : a.length = b.length)
    (h : Nat.ofDigitChars 10 a 0 < Nat.ofDigitChars 10 b 0) : a < b := by
  induction a generalizing b with
  | nil =>
    rw [List.eq_nil_of_length_eq_zero hlength.symm] at h
    exact absurd h (Nat.lt_irrefl _)
  | cons x a ih =>
    cases b with
    | nil => cases hlength
    | cons y b =>
      have hrest : a.length = b.length := Nat.succ.inj hlength
      obtain ⟨hx, _⟩ := toNat_of_isDigit (ha x List.mem_cons_self)
      obtain ⟨hy, _⟩ := toNat_of_isDigit (hb y List.mem_cons_self)
      rw [value_cons, value_cons, hrest] at h
      rw [List.cons_lt_cons_iff]
      rcases Nat.lt_trichotomy x.toNat y.toNat with hlt | heq | hgt
      · exact .inl hlt
      · rw [heq] at h
        exact .inr ⟨Char.toNat_inj.mp heq, ih (fun c hc => ha c (List.mem_cons_of_mem _ hc))
          (fun c hc => hb c (List.mem_cons_of_mem _ hc)) hrest (Nat.add_lt_add_iff_left.mp h)⟩
      · have hvalue := value_lt fun c hc => hb c (List.mem_cons_of_mem _ hc)
        have hfirst : 10 ^ b.length * (y.toNat - 48 + 1) ≤ 10 ^ b.length * (x.toNat - 48) :=
          Nat.mul_le_mul_left _ (by omega)
        rw [Nat.mul_succ] at hfirst
        omega

theorem padded_lt_padded {w n m : Nat} (hw : 0 < w) (hm : m < 10 ^ w) (h : n < m) :
    padded w n < padded w m := by
  refine lt_of_value_lt (fun _ => isDigit_of_mem_padded) (fun _ => isDigit_of_mem_padded) ?_ ?_
  · rw [length_padded hw hm, length_padded hw (Nat.lt_trans h hm)]
  · rw [value_padded, value_padded]
    exact h

end IrisMind.Lib.Digits
