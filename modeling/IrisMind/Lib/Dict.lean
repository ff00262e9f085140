import Mathlib.Data.List.Nodup

/-! # Insertion-ordered dictionaries

A dictionary is the list of its entries, oldest key first, with the proof that
no key occurs twice. Writing a present key replaces the value where it stands;
writing an absent key appends, so iteration order is insertion order. -/
namespace IrisMind.Lib

structure Dict (κ ν : Type) where
  entries : List (κ × ν)
  nodup : (entries.map Prod.fst).Nodup

namespace Dict

variable {κ ν : Type} [DecidableEq κ]

/-- The value at the first entry with key `k`. -/
def lookup (k : κ) : List (κ × ν) → Option ν
  | [] => none
  | e :: rest => if e.1 = k then some e.2 else lookup k rest

/-- Replace the value at `k`, or append the entry. -/
def write (k : κ) (v : ν) : List (κ × ν) → List (κ × ν)
  | [] => [(k, v)]
  | e :: rest => if e.1 = k then (k, v) :: rest else e :: write k v rest

theorem mem_write_keys {k x : κ} {v : ν} : ∀ {l : List (κ × ν)},
    x ∈ (write k v l).map Prod.fst ↔ x = k ∨ x ∈ l.map Prod.fst
  | [] => by simp [write]
  | e :: rest => by
    simp only [write]
    split
    · next h => subst h; simp
    · simp only [List.map_cons, List.mem_cons, mem_write_keys (l := rest)]
      tauto

theorem write_nodup {k : κ} {v : ν} : ∀ {l : List (κ × ν)},
    (l.map Prod.fst).Nodup → ((write k v l).map Prod.fst).Nodup
  | [], _ => by simp [write]
  | e :: rest, h => by
    obtain ⟨hn, hr⟩ := List.nodup_cons.mp h
    simp only [write]
    split
    · next he => subst he; exact h
    · next he =>
      refine List.nodup_cons.mpr ⟨fun hm => ?_, write_nodup hr⟩
      rcases mem_write_keys.mp hm with hk | hm
      · exact he hk
      · exact hn hm

def empty : Dict κ ν := ⟨[], List.nodup_nil⟩

def get? (d : Dict κ ν) (k : κ) : Option ν := lookup k d.entries

def getD (d : Dict κ ν) (k : κ) (v : ν) : ν := (d.get? k).getD v

def contains (d : Dict κ ν) (k : κ) : Bool := (d.get? k).isSome

def set (d : Dict κ ν) (k : κ) (v : ν) : Dict κ ν := ⟨write k v d.entries, write_nodup d.nodup⟩

def erase (d : Dict κ ν) (k : κ) : Dict κ ν :=
  ⟨d.entries.filter (fun e => e.1 ≠ k),
    d.nodup.sublist (List.Sublist.map _ List.filter_sublist)⟩

/-- The dictionary without the keys `ks`. -/
def eraseAll (d : Dict κ ν) (ks : List κ) : Dict κ ν := ks.foldl erase d

/-- The value at `k`, which is stored as `v` first when the key is absent. -/
def setDefault (d : Dict κ ν) (k : κ) (v : ν) : ν × Dict κ ν :=
  match d.get? k with
  | some x => (x, d)
  | none => (v, d.set k v)

def values (d : Dict κ ν) : List ν := d.entries.map Prod.snd

def mapValues (f : ν → ν) (d : Dict κ ν) : Dict κ ν :=
  ⟨d.entries.map fun e => (e.1, f e.2), by rw [List.map_map]; exact d.nodup⟩

def ofList (l : List (κ × ν)) : Dict κ ν := l.foldl (fun d e => d.set e.1 e.2) empty

/-! ## Reading after a write -/

theorem lookup_write (k x : κ) (v : ν) : ∀ l : List (κ × ν),
    lookup x (write k v l) = if k = x then some v else lookup x l
  | [] => by simp [write, lookup]
  | e :: rest => by
    simp only [write]
    split
    · next h => subst h; simp only [lookup]; split <;> simp_all
    · next h =>
      simp only [lookup, lookup_write k x v rest]
      split
      · next hx => subst hx; simp [Ne.symm h]
      · rfl

@[simp] theorem get?_empty (k : κ) : (empty : Dict κ ν).get? k = none := rfl

theorem get?_set (d : Dict κ ν) (k x : κ) (v : ν) :
    (d.set k v).get? x = if k = x then some v else d.get? x := lookup_write k x v d.entries

@[simp] theorem get?_set_self (d : Dict κ ν) (k : κ) (v : ν) : (d.set k v).get? k = some v := by
  simp [get?_set]

theorem get?_erase (d : Dict κ ν) (k x : κ) :
    (d.erase k).get? x = if k = x then none else d.get? x := by
  obtain ⟨l, _⟩ := d
  change lookup x (l.filter _) = if k = x then none else lookup x l
  induction l with
  | nil => simp [lookup]
  | cons e rest ih =>
    have ih := ih (List.nodup_cons.mp (by assumption)).2
    by_cases he : e.1 = k
    · rw [List.filter_cons_of_neg (by simp [he]), ih]
      by_cases hx : k = x
      · simp [hx]
      · simp [hx, lookup, he]
    · rw [List.filter_cons_of_pos (by simp [he])]
      simp only [lookup, ih]
      by_cases hx : e.1 = x
      · subst hx; simp [Ne.symm he]
      · simp [hx]

theorem entries_eraseAll (d : Dict κ ν) (ks : List κ) :
    (d.eraseAll ks).entries = d.entries.filter (·.1 ∉ ks) := by
  induction ks generalizing d with
  | nil => simp [eraseAll]
  | cons k ks ih =>
    have hstep : (d.eraseAll (k :: ks)).entries = ((d.erase k).eraseAll ks).entries := rfl
    rw [hstep, ih, erase, List.filter_filter]
    exact List.filter_congr fun e _ => by simp [Bool.and_comm]

theorem get?_eraseAll (d : Dict κ ν) (ks : List κ) (x : κ) :
    (d.eraseAll ks).get? x = if x ∈ ks then none else d.get? x := by
  induction ks generalizing d with
  | nil => simp [eraseAll]
  | cons k ks ih =>
    have hstep : (d.eraseAll (k :: ks)).get? x = ((d.erase k).eraseAll ks).get? x := rfl
    rw [hstep, ih, get?_erase]
    by_cases hx : x ∈ ks
    · simp [hx]
    · by_cases hk : k = x
      · simp [hk]
      · simp [hx, hk, Ne.symm hk]

theorem get?_mapValues (f : ν → ν) (d : Dict κ ν) (k : κ) :
    (d.mapValues f).get? k = (d.get? k).map f := by
  obtain ⟨l, _⟩ := d
  show lookup k (l.map _) = (lookup k l).map f
  induction l with
  | nil => rfl
  | cons e rest ih =>
    rw [List.map_cons, lookup, lookup, ih (List.nodup_cons.mp (by assumption)).2]
    split <;> rfl

theorem setDefault_fst (d : Dict κ ν) (k : κ) (v : ν) : (d.setDefault k v).1 = d.getD k v := by
  unfold setDefault getD
  cases d.get? k <;> rfl

/-- Storing the default changes no read that falls back to the same default. -/
theorem getD_setDefault (d : Dict κ ν) (k x : κ) (v : ν) :
    (d.setDefault k v).2.getD x v = d.getD x v := by
  unfold setDefault
  cases h : d.get? k with
  | some y => rfl
  | none =>
    simp only [getD, get?_set]
    split
    · next hk => subst hk; simp [h]
    · rfl

/-! ## Entries and lookups -/

theorem write_of_absent {k : κ} {v : ν} : ∀ {l : List (κ × ν)}, k ∉ l.map Prod.fst →
    write k v l = l ++ [(k, v)]
  | [], _ => rfl
  | e :: rest, h => by
    have he : e.1 ≠ k := fun he => h (he ▸ List.mem_cons_self)
    rw [write, if_neg he, write_of_absent fun hm => h (List.mem_cons_of_mem _ hm)]
    rfl

theorem lookup_eq_none {k : κ} : ∀ {l : List (κ × ν)}, lookup k l = none ↔ k ∉ l.map Prod.fst
  | [] => by simp [lookup]
  | e :: rest => by
    rw [lookup, List.map_cons, List.mem_cons, not_or]
    split
    · next he => simp [he]
    · next he => rw [lookup_eq_none, and_iff_right (Ne.symm he)]

theorem write_self {k : κ} {v : ν} : ∀ {l : List (κ × ν)}, lookup k l = some v → write k v l = l
  | e :: rest, h => by
    rw [lookup] at h
    rw [write]
    split at h
    · next he =>
      rw [if_pos he, ← he, ← Option.some.inj h]
    · next he => rw [if_neg he, write_self h]

theorem get?_foldl_set : ∀ {l : List (κ × ν)}, (l.map Prod.fst).Nodup → ∀ (d : Dict κ ν) (k : κ),
    (l.foldl (fun d e => d.set e.1 e.2) d).get? k = (lookup k l).or (d.get? k)
  | [], _, _, _ => rfl
  | e :: rest, h, d, k => by
    obtain ⟨hnew, hrest⟩ := List.nodup_cons.mp h
    rw [List.foldl_cons, get?_foldl_set hrest, get?_set, lookup]
    split
    · next hk =>
      subst hk
      rw [lookup_eq_none.mpr hnew]
      rfl
    · rfl

/-- Entries with distinct keys are stored as they are. -/
theorem entries_ofList {l : List (κ × ν)} (h : (l.map Prod.fst).Nodup) :
    (ofList l).entries = l := by
  have hfold : ∀ (l : List (κ × ν)) (d : Dict κ ν), ((d.entries ++ l).map Prod.fst).Nodup →
      (l.foldl (fun d e => d.set e.1 e.2) d).entries = d.entries ++ l := by
    intro l
    induction l with
    | nil => exact fun d _ => (List.append_nil _).symm
    | cons e rest ih =>
      intro d hn
      have hfresh : e.1 ∉ d.entries.map Prod.fst := by
        rw [List.map_append, List.nodup_append] at hn
        intro hm
        exact hn.2.2 e.1 hm e.1 List.mem_cons_self rfl
      have hset : (d.set e.1 e.2).entries = d.entries ++ [e] := write_of_absent hfresh
      rw [List.foldl_cons, ih _ (by rw [hset, List.append_assoc]; exact hn), hset,
        List.append_assoc]
      rfl
  exact hfold l empty h

theorem mem_of_lookup {k : κ} {v : ν} : ∀ {l : List (κ × ν)}, lookup k l = some v → (k, v) ∈ l
  | [], h => by simp [lookup] at h
  | e :: rest, h => by
    simp only [lookup] at h
    split at h
    · next he => cases h; subst he; exact List.mem_cons_self
    · exact List.mem_cons_of_mem _ (mem_of_lookup h)

theorem lookup_of_mem {k : κ} {v : ν} : ∀ {l : List (κ × ν)}, (l.map Prod.fst).Nodup →
    (k, v) ∈ l → lookup k l = some v
  | [], _, h => by simp at h
  | e :: rest, hn, h => by
    obtain ⟨hne, hr⟩ := List.nodup_cons.mp hn
    rcases List.mem_cons.mp h with he | hm
    · subst he; simp [lookup]
    · have hk : e.1 ≠ k := fun he => hne (he ▸ List.mem_map_of_mem hm)
      simp only [lookup, if_neg hk]
      exact lookup_of_mem hr hm

omit [DecidableEq κ] in
theorem eq_of_entries {d d' : Dict κ ν} (h : d.entries = d'.entries) : d = d' := by
  cases d
  cases d'
  cases h
  rfl

theorem ofList_entries (d : Dict κ ν) : ofList d.entries = d :=
  eq_of_entries (entries_ofList d.nodup)

theorem mem_entries_iff {d : Dict κ ν} {k : κ} {v : ν} : (k, v) ∈ d.entries ↔ d.get? k = some v :=
  ⟨lookup_of_mem d.nodup, mem_of_lookup⟩

theorem mem_values_iff {d : Dict κ ν} {v : ν} : v ∈ d.values ↔ ∃ k, d.get? k = some v := by
  constructor
  · intro h
    obtain ⟨⟨k, w⟩, hm, rfl⟩ := List.mem_map.mp h
    exact ⟨k, mem_entries_iff.mp hm⟩
  · rintro ⟨k, h⟩
    exact List.mem_map_of_mem (mem_entries_iff.mpr h)

theorem mem_values_of_get? {d : Dict κ ν} {k : κ} {v : ν} (h : d.get? k = some v) : v ∈ d.values :=
  mem_values_iff.mpr ⟨k, h⟩

end Dict

end IrisMind.Lib
