import IrisMind.Lib.Text
import Mathlib.Data.List.Basic

/-! # Words in a text

A word is found in a text as an infix of it. Separators that are in no word keep
a word to one side of them, and to strip them off a text loses no word. -/
namespace IrisMind.Lib.Words

variable {α : Type} {word l l' : List α}

/-- What is left of a text without the separators at its ends. -/
def strip (isSep : α → Bool) (l : List α) : List α :=
  ((l.dropWhile isSep).reverse.dropWhile isSep).reverse

theorem prefix_of_append_cons {c : α} (hc : c ∉ word) (h : word <+: l ++ c :: l') : word <+: l := by
  rcases List.prefix_or_prefix_of_prefix h (List.prefix_append l (c :: l')) with h' | ⟨rest, rfl⟩
  · exact h'
  · rw [List.prefix_append_right_inj] at h
    cases rest with
    | nil => simp
    | cons d rest =>
      obtain ⟨rfl, _⟩ := List.cons_prefix_cons.mp h
      exact absurd (List.mem_append_right _ List.mem_cons_self) hc

/-- A word in a text is on one side of a separator. -/
theorem infix_append_cons {c : α} (hc : c ∉ word) (h : word <:+: l ++ c :: l') :
    word <:+: l ∨ word <:+: l' := by
  induction l with
  | nil =>
    rcases List.infix_cons_iff.mp h with h | h
    · have hnil := List.prefix_nil.mp (prefix_of_append_cons (l := []) hc h)
      exact .inl (hnil ▸ List.nil_infix)
    · exact .inr h
  | cons a l ih =>
    rw [List.cons_append] at h
    rcases List.infix_cons_iff.mp h with h | h
    · exact .inl (prefix_of_append_cons (l := a :: l) hc h).isInfix
    · exact (ih h).imp_left fun h => List.infix_cons_iff.mpr (.inr h)

theorem infix_of_seps_append {seps : List α} (hseps : ∀ d ∈ seps, d ∉ word)
    (h : word <:+: seps ++ l') : word <:+: l' := by
  induction seps with
  | nil => exact h
  | cons d seps ih =>
    rcases infix_append_cons (l := []) (hseps d List.mem_cons_self) h with h | h
    · exact List.infix_nil.mp h ▸ List.nil_infix
    · exact ih (fun e he => hseps e (List.mem_cons_of_mem _ he)) h

/-- A word in a text is on one side of several separators. -/
theorem infix_append_seps {c : α} {seps : List α} (hseps : ∀ d ∈ c :: seps, d ∉ word)
    (h : word <:+: l ++ (c :: seps ++ l')) : word <:+: l ∨ word <:+: l' :=
  (infix_append_cons (hseps c List.mem_cons_self) h).imp_right
    (infix_of_seps_append fun d hd => hseps d (List.mem_cons_of_mem _ hd))

theorem infix_dropWhile {isSep : α → Bool} (hsep : ∀ c ∈ word, isSep c = false)
    (h : word <:+: l) : word <:+: l.dropWhile isSep := by
  induction l with
  | nil => exact h
  | cons a l ih =>
    rw [List.dropWhile_cons]
    split
    · next ha =>
      rcases List.infix_cons_iff.mp h with h | h
      · cases word with
        | nil => exact List.nil_infix
        | cons c word =>
          obtain ⟨rfl, _⟩ := List.cons_prefix_cons.mp h
          exact absurd ha (Bool.eq_false_iff.mp (hsep c List.mem_cons_self))
      · exact ih h
    · exact h

theorem strip_part (isSep : α → Bool) (l : List α) : strip isSep l <:+: l := by
  have hright : ((l.dropWhile isSep).reverse.dropWhile isSep).reverse <:+: l.dropWhile isSep := by
    rw [← List.reverse_infix, List.reverse_reverse]
    exact (List.dropWhile_suffix isSep).isInfix
  exact hright.trans (List.dropWhile_suffix isSep).isInfix

/-- To strip a text loses no word, and makes none. -/
theorem infix_strip {isSep : α → Bool} (hsep : ∀ c ∈ word, isSep c = false) :
    word <:+: strip isSep l ↔ word <:+: l := by
  refine ⟨fun h => h.trans (strip_part isSep l), fun h => ?_⟩
  rw [strip, ← List.reverse_infix, List.reverse_reverse]
  refine infix_dropWhile (fun c hc => hsep c (List.mem_reverse.mp hc)) ?_
  exact List.reverse_infix.mpr (infix_dropWhile hsep h)

theorem infix_dropWhile_of_head {isSep : α → Bool} (hhead : ∀ c ∈ word.head?, isSep c = false)
    (h : word <:+: l) : word <:+: l.dropWhile isSep := by
  induction l with
  | nil => exact h
  | cons a l ih =>
    rw [List.dropWhile_cons]
    split
    · next ha =>
      rcases List.infix_cons_iff.mp h with h | h
      · cases word with
        | nil => exact List.nil_infix
        | cons c word =>
          obtain ⟨rfl, _⟩ := List.cons_prefix_cons.mp h
          exact absurd ha (Bool.eq_false_iff.mp (hhead c rfl))
      · exact ih h
    · exact h

theorem head_dropWhile {isSep : α → Bool} (l : List α) :
    ∀ c ∈ (l.dropWhile isSep).head?, isSep c = false := by
  intro c hc
  have hnot := List.head?_dropWhile_not isSep l
  rwa [Option.mem_def.mp hc] at hnot

/-- What begins and ends with no separator is in a text exactly when it is in the text stripped. -/
theorem strip_infix_strip {isSep : α → Bool} (h : strip isSep l <:+: l') :
    strip isSep l <:+: strip isSep l' := by
  have hlast : ∀ c ∈ (strip isSep l).reverse.head?, isSep c = false := by
    rw [strip, List.reverse_reverse]
    exact head_dropWhile _
  have hpre : strip isSep l <+: l.dropWhile isSep := by
    rw [strip, ← List.reverse_suffix, List.reverse_reverse]
    exact List.dropWhile_suffix isSep
  have hhead : ∀ c ∈ (strip isSep l).head?, isSep c = false := by
    intro c hc
    obtain ⟨rest, hrest⟩ := List.head?_eq_some_iff.mp hc
    obtain ⟨more, hmore⟩ := hpre
    refine head_dropWhile l c ?_
    rw [← hmore, hrest]
    rfl
  have hright : (strip isSep l).reverse <:+: (l'.dropWhile isSep).reverse :=
    List.reverse_infix.mpr (infix_dropWhile_of_head hhead h)
  rw [← List.reverse_infix]
  rw [strip.eq_def isSep l', List.reverse_reverse]
  exact infix_dropWhile_of_head hlast hright

end IrisMind.Lib.Words

namespace IrisMind.Lib

/-! ## Texts in texts -/

/-- The text has the other one in it, as it stands. -/
def Tells (text part : String) : Prop := part.toList <:+: text.toList

theorem Tells.refl (text : String) : Tells text text := List.infix_rfl

theorem Tells.append_right {text part : String} (h : Tells text part) (more : String) :
    Tells (text ++ more) part := by
  unfold Tells
  rw [String.toList_append]
  exact h.trans (List.prefix_append _ _).isInfix

theorem Tells.append_left {text part : String} (h : Tells text part) (before : String) :
    Tells (before ++ text) part := by
  unfold Tells
  rw [String.toList_append]
  exact h.trans (List.suffix_append _ _).isInfix

theorem tells_intercalate {sep part text : String} {l : List String} (hmem : text ∈ l)
    (h : Tells text part) : Tells (sep.intercalate l) part := by
  induction l with
  | nil => cases hmem
  | cons t l ih =>
    cases l with
    | nil =>
      rw [String.intercalate_singleton, ← List.mem_singleton.mp hmem]
      exact h
    | cons u l =>
      rw [String.intercalate_cons_cons]
      rcases List.mem_cons.mp hmem with rfl | hmem
      · exact (h.append_right _).append_right _
      · exact (ih hmem).append_left _

/-- What is stripped itself stays where a text is stripped. -/
theorem Tells.strip {text content : String} (h : Tells text (Text.strip content)) :
    Tells (Text.strip text) (Text.strip content) := by
  unfold Tells at h ⊢
  simp only [Text.strip, String.toList_ofList] at h ⊢
  exact Words.strip_infix_strip h

end IrisMind.Lib
