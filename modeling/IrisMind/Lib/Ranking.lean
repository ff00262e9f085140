import Mathlib.Data.List.Sort
import Mathlib.Order.OrderDual

/-! # Stable sorting by a key

A list is sorted by a key of its entries, and entries of one key keep their
order. A sorted list is determined by what it holds of each key, so that a list
that is sorted again after every entry it is given comes to the list of all
entries sorted once. A list is ranked when its greatest keys come first. -/
namespace IrisMind.Lib.Ranking

variable {α β : Type} [LinearOrder β]

/-- `entries.sort(key=key)` -/
def sortBy (key : α → β) (l : List α) : List α := l.mergeSort fun a b => key a ≤ key b

/-- `entries.sort(key=key, reverse=True)` -/
def rankBy (key : α → β) : List α → List α := sortBy fun a => OrderDual.toDual (key a)

variable {key : α → β} {l m : List α}

theorem sortBy_perm : (sortBy key l).Perm l := List.mergeSort_perm _ _

@[simp] theorem mem_sortBy {x : α} : x ∈ sortBy key l ↔ x ∈ l := sortBy_perm.mem_iff

@[simp] theorem mem_rankBy {x : α} : x ∈ rankBy key l ↔ x ∈ l := mem_sortBy

theorem le_trans_bool (a b c : α) (hab : decide (key a ≤ key b) = true)
    (hbc : decide (key b ≤ key c) = true) : decide (key a ≤ key c) = true := by
  simp only [decide_eq_true_eq] at hab hbc ⊢
  exact le_trans hab hbc

theorem le_total_bool (a b : α) : (decide (key a ≤ key b) || decide (key b ≤ key a)) = true := by
  simpa using le_total (key a) (key b)

theorem sortBy_pairwise : (sortBy key l).Pairwise fun a b => key a ≤ key b := by
  have h := List.pairwise_mergeSort (@le_trans_bool _ _ _ key) le_total_bool l
  simpa [sortBy] using h

/-- Entries of one key keep their order. -/
theorem filter_sortBy (v : β) :
    (sortBy key l).filter (fun a => key a = v) = l.filter fun a => key a = v := by
  have hsub : (l.filter fun a => key a = v).Sublist (sortBy key l) := by
    refine List.sublist_mergeSort le_trans_bool le_total_bool ?_ List.filter_sublist
    refine List.pairwise_of_forall_mem_list fun a ha b hb => ?_
    simp only [List.mem_filter, decide_eq_true_eq] at ha hb ⊢
    exact (ha.2.trans hb.2.symm).le
  have hfilter := hsub.filter fun a => decide (key a = v)
  rw [List.filter_filter] at hfilter
  simp only [Bool.and_self] at hfilter
  exact (hfilter.eq_of_length (sortBy_perm.filter _).length_eq.symm).symm

/-- A sorted list is determined by what it holds of each key. -/
theorem eq_of_filter_eq {l m : List α} (hl : l.Pairwise fun a b => key a ≤ key b)
    (hm : m.Pairwise fun a b => key a ≤ key b)
    (h : ∀ v, l.filter (fun a => key a = v) = m.filter fun a => key a = v) : l = m := by
  have hmem : ∀ x, x ∈ l ↔ x ∈ m := by
    intro x
    have hx := congrArg (x ∈ ·) (h (key x))
    simpa using hx
  induction l generalizing m with
  | nil =>
    have hm : m = [] := List.eq_nil_iff_forall_not_mem.mpr fun x hx => by
      simpa using (hmem x).mpr hx
    exact hm.symm
  | cons x l ih =>
    cases m with
    | nil => exact absurd ((hmem x).mp List.mem_cons_self) (List.not_mem_nil)
    | cons y m =>
      obtain ⟨hx, hl⟩ := List.pairwise_cons.mp hl
      obtain ⟨hy, hm'⟩ := List.pairwise_cons.mp hm
      have hkey : key x = key y := by
        refine le_antisymm ?_ ?_
        · rcases List.mem_cons.mp ((hmem y).mpr List.mem_cons_self) with he | hmem
          · exact he ▸ le_refl _
          · exact hx y hmem
        · rcases List.mem_cons.mp ((hmem x).mp List.mem_cons_self) with he | hmem
          · exact he ▸ le_refl _
          · exact hy x hmem
      have hhead := h (key x)
      simp only [List.filter_cons, hkey, decide_true, ite_true, List.cons.injEq] at hhead
      obtain ⟨rfl, -⟩ := hhead
      have hrest : ∀ v, l.filter (fun a => key a = v) = m.filter fun a => key a = v := by
        intro v
        have hv := h v
        by_cases hxv : key x = v <;> simpa [List.filter_cons, hxv] using hv
      refine congrArg (x :: ·) (ih hl hm' hrest fun z => ?_)
      have hz := congrArg (z ∈ ·) (hrest (key z))
      simpa using hz

/-- A list that is sorted already may get more entries and be sorted again. -/
theorem sortBy_append_sortBy : sortBy key (sortBy key l ++ m) = sortBy key (l ++ m) :=
  eq_of_filter_eq sortBy_pairwise sortBy_pairwise fun v => by
    simp only [filter_sortBy, List.filter_append]

/-- What comes first among the entries with a property: no other one has a smaller key, and none
of the same key comes before it in the list. -/
theorem find?_sortBy {p : α → Bool} {x : α} (h : (sortBy key l).find? p = some x) :
    p x = true ∧ (∀ y ∈ l, p y = true → key x ≤ key y) ∧
      (l.filter fun a => key a = key x).find? p = some x := by
  obtain ⟨hp, before, after, hl, hbefore⟩ := List.find?_eq_some_iff_append.mp h
  have hsorted : (before ++ x :: after).Pairwise fun a b => key a ≤ key b := hl ▸ sortBy_pairwise
  refine ⟨hp, fun y hy hpy => ?_, ?_⟩
  · have hmem : y ∈ before ++ x :: after := hl ▸ mem_sortBy.mpr hy
    rcases List.mem_append.mp hmem with hmem | hmem
    · exact absurd hpy (by simpa using hbefore y hmem)
    · rcases List.mem_cons.mp hmem with rfl | hmem
      · exact le_refl _
      · exact (List.pairwise_cons.mp (List.pairwise_append.mp hsorted).2.1).1 y hmem
  · rw [← filter_sortBy, hl, List.filter_append, List.find?_append]
    have hnone : (before.filter fun a => key a = key x).find? p = none :=
      List.find?_eq_none.mpr fun y hy => by simpa using hbefore y (List.mem_filter.mp hy).1
    simp [hnone, hp]

/-- The first of a ranked list is the first of its greatest entries. -/
theorem head_rankBy {x : α} {rest : List α} (h : rankBy key l = x :: rest) :
    (∀ y ∈ l, key y ≤ key x) ∧ (l.filter fun a => key a = key x).head? = some x := by
  have hfind : (sortBy (fun a => OrderDual.toDual (key a)) l).find? (fun _ => true) = some x := by
    rw [show sortBy _ l = x :: rest from h]
    rfl
  obtain ⟨-, hle, hfirst⟩ := find?_sortBy hfind
  refine ⟨fun y hy => hle y hy rfl, ?_⟩
  cases hfilter : l.filter fun a => key a = key x with
  | nil => simp [hfilter] at hfirst
  | cons y ys => simpa [hfilter] using hfirst

end IrisMind.Lib.Ranking
