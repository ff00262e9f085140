import Mathlib.Data.List.Basic

/-! # Rows

A store without an index is a list of rows; a lookup finds the first row that
fits, and an update replaces that row. -/
namespace IrisMind.Lib.Rows

variable {α : Type}

/-- Replace the first row that fits. -/
def replaceFirst (fits : α → Bool) (new : α) : List α → List α
  | [] => []
  | x :: rest => if fits x then new :: rest else x :: replaceFirst fits new rest

theorem mem_replaceFirst {fits : α → Bool} {new : α} {l : List α} (h : ∃ x ∈ l, fits x = true) :
    new ∈ replaceFirst fits new l := by
  induction l with
  | nil =>
    obtain ⟨x, hx, _⟩ := h
    cases hx
  | cons y rest ih =>
    unfold replaceFirst
    split
    · exact List.mem_cons_self
    · next hy =>
      obtain ⟨x, hx, hfits⟩ := h
      rcases List.mem_cons.mp hx with rfl | hx
      · exact absurd hfits hy
      · exact List.mem_cons_of_mem _ (ih ⟨x, hx, hfits⟩)

theorem mem_replaceFirst_of_not {fits : α → Bool} {new x : α} (hx : ¬ fits x = true) :
    ∀ {l : List α}, x ∈ l → x ∈ replaceFirst fits new l
  | y :: rest, h => by
    unfold replaceFirst
    rcases List.mem_cons.mp h with rfl | h
    · rw [if_neg hx]
      exact List.mem_cons_self
    · split
      · exact List.mem_cons_of_mem _ h
      · exact List.mem_cons_of_mem _ (mem_replaceFirst_of_not hx h)

theorem map_replaceFirst {κ : Type} {fits : α → Bool} {new : α} {key : α → κ}
    (h : ∀ x, fits x = true → key x = key new) :
    ∀ l : List α, (replaceFirst fits new l).map key = l.map key
  | [] => rfl
  | x :: rest => by
    unfold replaceFirst
    split
    · next hx => rw [List.map_cons, List.map_cons, h x hx]
    · rw [List.map_cons, List.map_cons, map_replaceFirst h rest]

/-- Where a key fits at most one row, that row is gone after the replacement. -/
theorem mem_of_mem_replaceFirst {κ : Type} {fits : α → Bool} {new : α} {key : α → κ} {k : κ}
    (h : ∀ x, fits x = true ↔ key x = k) {l : List α} (hn : (l.map key).Nodup) {x : α}
    (hx : x ∈ replaceFirst fits new l) : x = new ∨ x ∈ l ∧ key x ≠ k := by
  induction l with
  | nil => cases hx
  | cons y rest ih =>
    obtain ⟨hy, hrest⟩ := List.nodup_cons.mp hn
    unfold replaceFirst at hx
    split at hx
    · next hfits =>
      rcases List.mem_cons.mp hx with rfl | hx
      · exact .inl rfl
      · refine .inr ⟨List.mem_cons_of_mem _ hx, fun hk => hy ?_⟩
        rw [(h y).mp hfits, ← hk]
        exact List.mem_map_of_mem hx
    · next hfits =>
      rcases List.mem_cons.mp hx with rfl | hx
      · exact .inr ⟨List.mem_cons_self, fun hk => hfits ((h x).mpr hk)⟩
      · rcases ih hrest hx with hnew | ⟨hmem, hk⟩
        · exact .inl hnew
        · exact .inr ⟨List.mem_cons_of_mem _ hmem, hk⟩

/-- Where a key fits at most one row, replacing the first one is rewriting every one. -/
theorem replaceFirst_eq_map {κ : Type} [DecidableEq κ] {fits : α → Bool} {key : α → κ} {k : κ}
    (h : ∀ x, fits x = true ↔ key x = k) (new : α) {l : List α} (hn : (l.map key).Nodup) :
    replaceFirst fits new l = l.map fun x => if key x = k then new else x := by
  induction l with
  | nil => rfl
  | cons y rest ih =>
    obtain ⟨hy, hrest⟩ := List.nodup_cons.mp hn
    unfold replaceFirst
    rw [List.map_cons]
    by_cases hk : key y = k
    · rw [if_pos ((h y).mpr hk), if_pos hk]
      congr 1
      refine (List.map_id rest).symm.trans
        (List.map_congr_left fun x hx => (if_neg fun hx' => ?_).symm)
      exact hy (List.mem_map.mpr ⟨x, hx, hx'.trans hk.symm⟩)
    · rw [if_neg (fun hf => hk ((h y).mp hf)), if_neg hk, ih hrest]

/-- A lookup finds the row that replaces the one it found before. -/
theorem find?_replaceFirst (fits : α → Bool) {old new : α} (hnew : fits new = true) {l : List α}
    (h : l.find? fits = some old) : (replaceFirst fits new l).find? fits = some new := by
  induction l with
  | nil => cases h
  | cons y rest ih =>
    unfold replaceFirst
    cases hy : fits y with
    | true => simp [hnew]
    | false =>
      rw [List.find?_cons_of_neg (by simp [hy])] at h
      rw [if_neg Bool.false_ne_true, List.find?_cons_of_neg (by simp [hy])]
      exact ih h

/-- Replacing the row a lookup finds by another one changes the list. -/
theorem replaceFirst_ne (fits : α → Bool) {old new : α} (hnew : fits new = true) {l : List α}
    (h : l.find? fits = some old) (hne : new ≠ old) : replaceFirst fits new l ≠ l := by
  intro hsame
  have hfound := find?_replaceFirst fits hnew h
  rw [hsame, h] at hfound
  exact hne (Option.some.inj hfound).symm

/-- Replacing the row a lookup finds by itself changes nothing. -/
theorem replaceFirst_self (fits : α → Bool) {x : α} {l : List α} (h : l.find? fits = some x) :
    replaceFirst fits x l = l := by
  induction l with
  | nil => rfl
  | cons y rest ih =>
    unfold replaceFirst
    cases hy : fits y with
    | true =>
      rw [List.find?_cons_of_pos hy] at h
      rw [Option.some.inj h]
      exact if_pos rfl
    | false =>
      rw [List.find?_cons_of_neg (by simp [hy])] at h
      rw [if_neg Bool.false_ne_true, ih h]

/-- A value of a row that the row it takes the place of has too stays where it is. -/
theorem map_replaceFirst_of_find {κ : Type} {fits : α → Bool} {old new : α} {f : α → κ}
    (hf : f new = f old) : ∀ {l : List α}, l.find? fits = some old →
      (replaceFirst fits new l).map f = l.map f
  | y :: rest, h => by
    unfold replaceFirst
    cases hy : fits y with
    | true =>
      rw [List.find?_cons_of_pos hy] at h
      rw [if_pos rfl, List.map_cons, List.map_cons, hf, Option.some.inj h]
    | false =>
      rw [List.find?_cons_of_neg (by simp [hy])] at h
      rw [if_neg Bool.false_ne_true, List.map_cons, List.map_cons, map_replaceFirst_of_find hf h]

/-- The last of two replacements counts. -/
theorem replaceFirst_replaceFirst {fits : α → Bool} {new : α} (hnew : fits new = true)
    (new' : α) : ∀ l : List α,
      replaceFirst fits new' (replaceFirst fits new l) = replaceFirst fits new' l
  | [] => rfl
  | x :: rest => by
    cases hx : fits x with
    | true => simp [replaceFirst, hx, hnew]
    | false => simp [replaceFirst, hx, replaceFirst_replaceFirst hnew new' rest]

/-- Replacing the first row that fits replaces the first of those that do. -/
theorem filter_replaceFirst {fits : α → Bool} {new x : α} (hnew : fits new = true)
    {rest : List α} : ∀ {l : List α}, l.filter fits = x :: rest →
      (replaceFirst fits new l).filter fits = new :: rest
  | y :: l, h => by
    unfold replaceFirst
    cases hy : fits y with
    | true =>
      rw [List.filter_cons_of_pos hy] at h
      rw [if_pos rfl, List.filter_cons_of_pos hnew, (List.cons.inj h).2]
    | false =>
      rw [List.filter_cons_of_neg (by simp [hy])] at h
      rw [if_neg Bool.false_ne_true, List.filter_cons_of_neg (by simp [hy])]
      exact filter_replaceFirst hnew h

/-- Rows of which none is replaced stay as they are. -/
theorem filter_replaceFirst_of_not {fits p : α → Bool} {new : α} (hnew : ¬ p new = true) :
    ∀ {l : List α}, (∀ x ∈ l, fits x = true → ¬ p x = true) →
      (replaceFirst fits new l).filter p = l.filter p
  | [], _ => rfl
  | y :: l, h => by
    unfold replaceFirst
    split
    · next hy =>
      rw [List.filter_cons_of_neg hnew, List.filter_cons_of_neg (h y List.mem_cons_self hy)]
    · rw [List.filter_cons, List.filter_cons,
        filter_replaceFirst_of_not hnew fun x hx => h x (List.mem_cons_of_mem _ hx)]

theorem of_mem_replaceFirst {fits : α → Bool} {new x : α} :
    ∀ {l : List α}, x ∈ replaceFirst fits new l → x = new ∨ x ∈ l
  | y :: l, h => by
    unfold replaceFirst at h
    split at h
    · exact (List.mem_cons.mp h).imp_right (List.mem_cons_of_mem _)
    · rcases List.mem_cons.mp h with rfl | h
      · exact .inr List.mem_cons_self
      · exact (of_mem_replaceFirst h).imp_right (List.mem_cons_of_mem _)

/-- A key that no two rows share picks out its row. -/
theorem filter_key_eq {κ : Type} [DecidableEq κ] {key : α → κ} {x : α} :
    ∀ {l : List α}, (l.map key).Nodup → x ∈ l → l.filter (key · = key x) = [x]
  | y :: l, h, hx => by
    obtain ⟨hy, hl⟩ := List.nodup_cons.mp h
    rcases List.mem_cons.mp hx with rfl | hx
    · have hnone : l.filter (key · = key x) = [] := by
        rw [List.filter_eq_nil_iff]
        intro z hz he
        exact hy (of_decide_eq_true he ▸ List.mem_map_of_mem hz)
      rw [List.filter_cons_of_pos (by simp), hnone]
    · have hne : key y ≠ key x := fun he => hy (he ▸ List.mem_map_of_mem hx)
      rw [List.filter_cons_of_neg (by simpa using hne), filter_key_eq hl hx]

end IrisMind.Lib.Rows
