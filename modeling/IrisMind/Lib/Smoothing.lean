import Mathlib.Algebra.Order.Field.Basic
import Mathlib.Tactic.Linarith
import Mathlib.Tactic.Ring

/-! # Exponential smoothing

A value fades with time, and what it has lost goes to a new sample. As long as
the share it keeps is between 0 and 1, an interval that holds the value and the
sample holds the outcome; one that holds 0 holds the faded value too. -/
namespace IrisMind.Lib.Smoothing

variable {K : Type} [Field K] [LinearOrder K] [IsStrictOrderedRing K] {decay lo hi : K}

/-- The old value keeps the share `decay`, and the sample gets the rest. -/
def blend (decay old sample : K) : K := old * decay + sample * (1 - decay)

/-- A share: a number between 0 and 1. -/
def Share (decay : K) : Prop := 0 ≤ decay ∧ decay ≤ 1

/-- A closed interval. -/
def Within (lo hi x : K) : Prop := lo ≤ x ∧ x ≤ hi

theorem blend_within (hd : Share decay) {old sample : K} (hold : Within lo hi old)
    (hsample : Within lo hi sample) : Within lo hi (blend decay old sample) := by
  obtain ⟨h0, h1⟩ := hd
  have hrest : 0 ≤ 1 - decay := by linarith
  have hlo : blend decay lo lo = lo := by unfold blend; ring
  have hhi : blend decay hi hi = hi := by unfold blend; ring
  constructor
  · rw [← hlo]
    exact add_le_add (mul_le_mul_of_nonneg_right hold.1 h0)
      (mul_le_mul_of_nonneg_right hsample.1 hrest)
  · rw [← hhi]
    exact add_le_add (mul_le_mul_of_nonneg_right hold.2 h0)
      (mul_le_mul_of_nonneg_right hsample.2 hrest)

/-- What has faded is blended with nothing. -/
theorem faded_within (hd : Share decay) (hzero : Within lo hi 0) {x : K} (hx : Within lo hi x) :
    Within lo hi (x * decay) := by
  have h := blend_within hd hx hzero
  simpa [blend] using h

/-- A number of an interval around 0 that is weakened by a factor. -/
theorem weakened_within {factor bound x low high : K} (hx : Within low high x)
    (hf : 0 ≤ factor) (hb : factor ≤ bound) (hzero : Within lo hi 0)
    (hlow : lo ≤ low * bound) (hhigh : high * bound ≤ hi) : Within lo hi (x * factor) := by
  rcases le_total 0 x with h0 | h0
  · refine ⟨hzero.1.trans (mul_nonneg h0 hf), le_trans ?_ hhigh⟩
    exact mul_le_mul hx.2 hb hf (h0.trans hx.2)
  · refine ⟨hlow.trans ?_, (mul_nonpos_of_nonpos_of_nonneg h0 hf).trans hzero.2⟩
    calc low * bound ≤ x * bound := mul_le_mul_of_nonneg_right hx.1 (hf.trans hb)
      _ ≤ x * factor := mul_le_mul_of_nonpos_left hb h0

end IrisMind.Lib.Smoothing
