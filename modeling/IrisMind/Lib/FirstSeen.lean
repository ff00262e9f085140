import Mathlib.Data.List.Induction

/-! # What is seen first

`List.eraseDups` keeps the first of each element. It grows at the end, and only by what is new. -/
namespace IrisMind.Lib.FirstSeen

variable {α : Type} [BEq α] [LawfulBEq α]

theorem eraseDups_concat_of_mem {l : List α} {x : α} (h : x ∈ l) :
    (l ++ [x]).eraseDups = l.eraseDups := by
  rw [List.eraseDups_append]
  simp [List.removeAll, h]

theorem eraseDups_concat_of_not_mem {l : List α} {x : α} (h : x ∉ l) :
    (l ++ [x]).eraseDups = l.eraseDups ++ [x] := by
  rw [List.eraseDups_append]
  simp [List.removeAll, h, List.eraseDups_cons]

theorem nodup_eraseDups (l : List α) : l.eraseDups.Nodup := by
  induction l using List.reverseRecOn with
  | nil => exact List.nodup_nil
  | append_singleton l x ih =>
    by_cases hx : x ∈ l
    · rwa [eraseDups_concat_of_mem hx]
    · rw [eraseDups_concat_of_not_mem hx]
      refine List.nodup_append.mpr ⟨ih, List.pairwise_singleton _ x, fun y hy z hz heq => hx ?_⟩
      rw [← List.mem_singleton.mp hz, ← heq]
      exact List.mem_eraseDups.mp hy

theorem eraseDups_of_nodup {l : List α} (h : l.Nodup) : l.eraseDups = l := by
  induction l using List.reverseRecOn with
  | nil => rfl
  | append_singleton l x ih =>
    obtain ⟨hl, _, hx⟩ := List.nodup_append.mp h
    rw [eraseDups_concat_of_not_mem fun hmem => hx x hmem x List.mem_cons_self rfl, ih hl]

/-- What has been cleared of repetitions may be cleared again with more behind it. -/
theorem eraseDups_eraseDups_append (l l' : List α) :
    (l.eraseDups ++ l').eraseDups = (l ++ l').eraseDups := by
  rw [List.eraseDups_append, List.eraseDups_append, eraseDups_of_nodup (nodup_eraseDups l)]
  have hremove : l'.removeAll l.eraseDups = l'.removeAll l :=
    List.filter_congr fun x _ => by
      rw [Bool.not_inj_iff, Bool.eq_iff_iff, List.elem_iff, List.elem_iff, List.mem_eraseDups]
  rw [hremove]

/-- The first element of a kind is seen first. -/
theorem find?_eraseDups (p : α → Bool) (l : List α) : l.eraseDups.find? p = l.find? p := by
  induction l using List.reverseRecOn with
  | nil => rfl
  | append_singleton l x ih =>
    by_cases hx : x ∈ l
    · rw [eraseDups_concat_of_mem hx, ih, List.find?_append]
      cases hfound : l.find? p with
      | some y => rfl
      | none =>
        have hp : ¬ p x = true := List.find?_eq_none.mp hfound x hx
        rw [List.find?_cons_of_neg hp]
        rfl
    · rw [eraseDups_concat_of_not_mem hx, List.find?_append, List.find?_append, ih]

end IrisMind.Lib.FirstSeen
