import IrisMind.Lib.Dict
import IrisMind.Lib.Text
import Mathlib.Data.List.Sort
import Mathlib.Data.Option.Basic
import Mathlib.Data.String.Basic

/-! # The order of keys

Two dictionaries with the same entries need not list them in the same order.
Sorting by keys chooses one order of each, at every level of a value, and so
decides whether two values differ in more than the order of their keys. -/
namespace IrisMind.Lib

namespace Dict

section Sorting

variable {κ ν : Type} [LinearOrder κ]

/-- The entries in the order of their keys. -/
def sorted (l : List (κ × ν)) : List (κ × ν) := l.insertionSort fun a b => a.1 ≤ b.1

theorem mem_sorted {l : List (κ × ν)} {e : κ × ν} : e ∈ sorted l ↔ e ∈ l :=
  List.mem_insertionSort _

theorem sorted_pairwise {l : List (κ × ν)} (h : (l.map Prod.fst).Nodup) :
    (sorted l).Pairwise fun a b => a.1 < b.1 := by
  have hle : (sorted l).Pairwise fun a b => a.1 ≤ b.1 := by
    have : Std.Total fun a b : κ × ν => a.1 ≤ b.1 := ⟨fun a b => le_total a.1 b.1⟩
    have : IsTrans (κ × ν) fun a b => a.1 ≤ b.1 := ⟨fun a b c => le_trans⟩
    exact List.pairwise_insertionSort _ l
  have hne : (sorted l).Pairwise fun a b => a.1 ≠ b.1 := by
    rw [← List.pairwise_map]
    exact ((List.perm_insertionSort _ l).map Prod.fst).nodup_iff.mpr h
  exact (hle.and hne).imp fun h => lt_of_le_of_ne h.1 h.2

/-- Sorting leaves the same list exactly of dictionaries with the same values. -/
theorem sorted_eq_iff {l l' : List (κ × ν)} (h : (l.map Prod.fst).Nodup)
    (h' : (l'.map Prod.fst).Nodup) : sorted l = sorted l' ↔ ∀ k, lookup k l = lookup k l' := by
  have hmem : ∀ {l : List (κ × ν)}, (l.map Prod.fst).Nodup → ∀ {k v},
      (k, v) ∈ l ↔ lookup k l = some v := fun h => ⟨lookup_of_mem h, mem_of_lookup⟩
  constructor
  · intro heq k
    refine Option.ext fun v => ?_
    rw [← hmem h, ← hmem h', ← mem_sorted, heq, mem_sorted]
  · intro hsame
    have : Std.Irrefl fun a b : κ × ν => a.1 < b.1 := ⟨fun a => lt_irrefl a.1⟩
    have : Std.Antisymm fun a b : κ × ν => a.1 < b.1 := ⟨fun a b h h' => absurd h' h.asymm⟩
    refine List.Pairwise.eq_of_mem_iff (sorted_pairwise h) (sorted_pairwise h') fun e => ?_
    rw [mem_sorted, mem_sorted, hmem h, hmem h', hsame]

end Sorting

section Changes

variable {κ ν μ : Type} [DecidableEq κ]

theorem lookup_map (f : κ → ν → μ) (k : κ) (l : List (κ × ν)) :
    lookup k (l.map fun e => (e.1, f e.1 e.2)) = (lookup k l).map (f k) := by
  induction l with
  | nil => rfl
  | cons e l ih =>
    obtain ⟨k', v⟩ := e
    by_cases hk : k' = k
    · simp [lookup, hk]
    · simpa [lookup, hk] using ih

theorem lookup_filter (keeps : κ → Bool) (k : κ) (l : List (κ × ν)) :
    lookup k (l.filter fun e => keeps e.1) = if keeps k then lookup k l else none := by
  induction l with
  | nil => simp [lookup]
  | cons e l ih =>
    obtain ⟨k', v⟩ := e
    by_cases hk : k' = k
    · subst hk
      by_cases hkeeps : keeps k' = true <;> simp_all [lookup]
    · by_cases hkeeps : keeps k' = true
      · simpa [hkeeps, lookup, hk] using ih
      · simpa [hkeeps, lookup, hk] using ih

end Changes

end Dict

namespace Json

/-! ## Values key by key -/

/-- What holds of an array or an object once it holds of all that is in it holds of every value. -/
@[elab_as_elim]
theorem induct {motive : Json → Prop} (null : motive .null) (bool : ∀ b, motive (.bool b))
    (int : ∀ n, motive (.int n)) (num : ∀ q, motive (.num q)) (str : ∀ s, motive (.str s))
    (arr : ∀ items, (∀ j ∈ items, motive j) → motive (.arr items))
    (obj : ∀ fields, (∀ e ∈ fields, motive e.2) → motive (.obj fields)) (j : Json) : motive j :=
  @Json.rec motive (fun items => ∀ j ∈ items, motive j) (fun fields => ∀ e ∈ fields, motive e.2)
    (fun e => motive e.2) null bool int num str arr obj
    (fun _ h => absurd h List.not_mem_nil)
    (fun _ _ hj hrest => List.forall_mem_cons.mpr ⟨hj, hrest⟩)
    (fun _ h => absurd h List.not_mem_nil)
    (fun _ _ he hrest => List.forall_mem_cons.mpr ⟨he, hrest⟩)
    (fun _ _ => id) j

mutual

/-- The value with the keys of every object in order. -/
def sortKeys : Json → Json
  | .arr items => .arr (sortItems items)
  | .obj fields => .obj (Dict.sorted (sortFields fields))
  | j => j

def sortItems : List Json → List Json
  | [] => []
  | j :: rest => j.sortKeys :: sortItems rest

def sortFields : List (String × Json) → List (String × Json)
  | [] => []
  | (k, j) :: rest => (k, j.sortKeys) :: sortFields rest

end

mutual

/-- No object has a key twice, at any level. -/
def distinct : Json → Bool
  | .arr items => distinctItems items
  | .obj fields => decide (fields.map Prod.fst).Nodup && distinctFields fields
  | _ => true

def distinctItems : List Json → Bool
  | [] => true
  | j :: rest => j.distinct && distinctItems rest

def distinctFields : List (String × Json) → Bool
  | [] => true
  | (_, j) :: rest => j.distinct && distinctFields rest

end

mutual

/-- Equality up to the order of keys. A text is compared by `here`, and one that is the value of a
key further down by `same`. -/
def UpTo (same here : String → String → Prop) : Json → Json → Prop
  | .str s, other => ∃ t, other = .str t ∧ here s t
  | .arr items, other => ∃ others, other = .arr others ∧ ItemsUpTo same items others
  | .obj fields, other => ∃ others, other = .obj others ∧
      (∀ k ∈ others.map Prod.fst, k ∈ fields.map Prod.fst) ∧ FieldsUpTo same fields others
  | j, other => j = other

def ItemsUpTo (same : String → String → Prop) : List Json → List Json → Prop
  | [], others => others = []
  | j :: rest, others => ∃ other others', others = other :: others' ∧ UpTo same Eq j other ∧
      ItemsUpTo same rest others'

def FieldsUpTo (same : String → String → Prop) :
    List (String × Json) → List (String × Json) → Prop
  | [], _ => True
  | (k, j) :: rest, others =>
    (∃ other, Dict.lookup k others = some other ∧ UpTo same same j other) ∧
      FieldsUpTo same rest others

end

/-! ## What sorting decides -/

section Lists

variable {same : String → String → Prop}

theorem sortItems_eq_map (items : List Json) : sortItems items = items.map sortKeys := by
  induction items with
  | nil => rfl
  | cons j rest ih => rw [sortItems, ih, List.map_cons]

theorem sortFields_eq_map (fields : List (String × Json)) :
    sortFields fields = fields.map fun e => (e.1, e.2.sortKeys) := by
  induction fields with
  | nil => rfl
  | cons e rest ih => rw [sortFields, ih, List.map_cons]

theorem distinctItems_iff {items : List Json} :
    distinctItems items = true ↔ ∀ j ∈ items, j.distinct = true := by
  induction items with
  | nil => simp [distinctItems]
  | cons j rest ih => simp [distinctItems, ih]

theorem distinctFields_iff {fields : List (String × Json)} :
    distinctFields fields = true ↔ ∀ e ∈ fields, e.2.distinct = true := by
  induction fields with
  | nil => simp [distinctFields]
  | cons e rest ih => rw [distinctFields, Bool.and_eq_true, ih, List.forall_mem_cons]

theorem distinct_obj {fields : List (String × Json)} : (Json.obj fields).distinct = true ↔
    (fields.map Prod.fst).Nodup ∧ ∀ e ∈ fields, e.2.distinct = true := by
  rw [distinct, Bool.and_eq_true, decide_eq_true_iff, distinctFields_iff]

theorem itemsUpTo_iff {items others : List Json} :
    ItemsUpTo same items others ↔ List.Forall₂ (UpTo same Eq) items others := by
  induction items generalizing others with
  | nil => rw [ItemsUpTo, List.forall₂_nil_left_iff]
  | cons j rest ih => simp only [ItemsUpTo, ih, List.forall₂_cons_left_iff]; tauto

theorem fieldsUpTo_iff {fields others : List (String × Json)} : FieldsUpTo same fields others ↔
    ∀ e ∈ fields, ∃ other, Dict.lookup e.1 others = some other ∧ UpTo same same e.2 other := by
  induction fields with
  | nil => simp [FieldsUpTo]
  | cons e rest ih => rw [FieldsUpTo, ih, List.forall_mem_cons]

theorem upTo_str {here : String → String → Prop} {s t : String} :
    UpTo same here (.str s) (.str t) ↔ here s t := by
  simp [UpTo]

theorem upTo_obj {here : String → String → Prop} {fields others : List (String × Json)} :
    UpTo same here (.obj fields) (.obj others) ↔
      (∀ k ∈ others.map Prod.fst, k ∈ fields.map Prod.fst) ∧ FieldsUpTo same fields others := by
  simp [UpTo]

/-- Objects are equal if their values are, key by key. -/
theorem upTo_obj_iff {here : String → String → Prop} {fields others : List (String × Json)}
    (h : (fields.map Prod.fst).Nodup) : UpTo same here (.obj fields) (.obj others) ↔
      ∀ k, Option.Rel (UpTo same same) (Dict.lookup k fields) (Dict.lookup k others) := by
  rw [upTo_obj, fieldsUpTo_iff]
  constructor
  · rintro ⟨hkeys, hvalues⟩ k
    cases hlookup : Dict.lookup k fields with
    | none =>
      have habsent := mt (hkeys k) (Dict.lookup_eq_none.mp hlookup)
      rw [Dict.lookup_eq_none.mpr habsent]
      exact .none
    | some j =>
      obtain ⟨other, hother, hupTo⟩ := hvalues _ (Dict.mem_of_lookup hlookup)
      rw [hother]
      exact .some hupTo
  · intro hrel
    refine ⟨fun k hk => ?_, fun e he => ?_⟩
    · by_contra habsent
      have hrel := hrel k
      rw [Dict.lookup_eq_none.mpr habsent] at hrel
      cases hlookup : Dict.lookup k others with
      | none => exact Dict.lookup_eq_none.mp hlookup hk
      | some other => rw [hlookup] at hrel; cases hrel
    · have hrel := hrel e.1
      rw [Dict.lookup_of_mem h he] at hrel
      cases hlookup : Dict.lookup e.1 others with
      | none => rw [hlookup] at hrel; cases hrel
      | some other =>
        rw [hlookup] at hrel
        exact ⟨other, rfl, Option.rel_some_some.mp hrel⟩

end Lists

/-- What is related item by item is so by whatever relates the first items as well. -/
theorem forall₂_of_mem {α β : Type} {R S : α → β → Prop} {l : List α} {l' : List β}
    (h : List.Forall₂ R l l') (himp : ∀ a ∈ l, ∀ b ∈ l', R a b → S a b) : List.Forall₂ S l l' := by
  induction h with
  | nil => exact .nil
  | cons hab _ ih =>
    refine .cons (himp _ List.mem_cons_self _ List.mem_cons_self hab) (ih fun a ha b hb => ?_)
    exact himp a (List.mem_cons_of_mem _ ha) b (List.mem_cons_of_mem _ hb)

theorem UpTo.mono {same same' here here' : String → String → Prop}
    (hsame : ∀ s t, same s t → same' s t) (hhere : ∀ s t, here s t → here' s t) {j other : Json} :
    UpTo same here j other → UpTo same' here' j other := by
  induction j using Json.induct generalizing here here' other with
  | null | bool | int | num => simp [UpTo]
  | str s =>
    simp only [UpTo]
    rintro ⟨t, rfl, h⟩
    exact ⟨t, rfl, hhere s t h⟩
  | arr items ih =>
    simp only [UpTo, itemsUpTo_iff]
    rintro ⟨others, rfl, h⟩
    exact ⟨others, rfl, forall₂_of_mem h fun j hj _ _ => ih j hj fun _ _ => id⟩
  | obj fields ih =>
    simp only [UpTo, fieldsUpTo_iff]
    rintro ⟨others, rfl, hkeys, h⟩
    refine ⟨others, rfl, hkeys, fun e he => ?_⟩
    obtain ⟨other, hlookup, hupTo⟩ := h e he
    exact ⟨other, hlookup, ih e he hsame hupTo⟩

theorem sortKeys_arr_iff {items others : List Json}
    (ih : ∀ j ∈ items, ∀ other ∈ others, j.sortKeys = other.sortKeys ↔ UpTo Eq Eq j other) :
    sortItems items = sortItems others ↔ List.Forall₂ (UpTo Eq Eq) items others := by
  rw [sortItems_eq_map, sortItems_eq_map, ← List.forall₂_eq_eq_eq, List.forall₂_map_left_iff,
    List.forall₂_map_right_iff]
  exact ⟨fun h => forall₂_of_mem h fun j hj other hother => (ih j hj other hother).mp,
    fun h => forall₂_of_mem h fun j hj other hother => (ih j hj other hother).mpr⟩

theorem sortKeys_obj_iff {fields others : List (String × Json)}
    (h : (fields.map Prod.fst).Nodup) (h' : (others.map Prod.fst).Nodup)
    (ih : ∀ e ∈ fields, ∀ e' ∈ others, e.2.sortKeys = e'.2.sortKeys ↔ UpTo Eq Eq e.2 e'.2) :
    Dict.sorted (sortFields fields) = Dict.sorted (sortFields others) ↔
      ∀ k, Option.Rel (UpTo Eq Eq) (Dict.lookup k fields) (Dict.lookup k others) := by
  have hkeys : ∀ l : List (String × Json), (sortFields l).map Prod.fst = l.map Prod.fst := by
    intro l
    rw [sortFields_eq_map, List.map_map]
    rfl
  rw [Dict.sorted_eq_iff (hkeys fields ▸ h) (hkeys others ▸ h'), sortFields_eq_map,
    sortFields_eq_map]
  refine forall_congr' fun k => ?_
  rw [Dict.lookup_map (fun _ => sortKeys), Dict.lookup_map (fun _ => sortKeys)]
  cases hj : Dict.lookup k fields with
  | none => cases Dict.lookup k others <;> simp
  | some j =>
    cases hother : Dict.lookup k others with
    | none => simp
    | some other =>
      rw [Option.map_some, Option.map_some, Option.some.injEq, Option.rel_some_some]
      exact ih _ (Dict.mem_of_lookup hj) _ (Dict.mem_of_lookup hother)

/-- Values are the same once their keys are sorted exactly if they differ in the order of keys
alone. -/
theorem sortKeys_eq_iff {j other : Json} : j.distinct = true → other.distinct = true →
    (j.sortKeys = other.sortKeys ↔ UpTo Eq Eq j other) := by
  induction j using Json.induct generalizing other with
  | null | bool | int | num => cases other <;> simp [sortKeys, UpTo]
  | str s => cases other <;> simp [sortKeys, UpTo, eq_comm (a := s)]
  | arr items ih =>
    intro h h'
    cases other with
    | arr others =>
      rw [distinct, distinctItems_iff] at h h'
      have hitems := sortKeys_arr_iff fun j hj other hother => ih j hj (h j hj) (h' other hother)
      simpa [sortKeys, UpTo, itemsUpTo_iff] using hitems
    | _ => simp [sortKeys, UpTo]
  | obj fields ih =>
    intro h h'
    cases other with
    | obj others =>
      rw [distinct_obj] at h h'
      have hfields := sortKeys_obj_iff h.1 h'.1 fun e he e' he' =>
        ih e he (h.2 e he) (h'.2 e' he')
      rw [sortKeys, sortKeys, Json.obj.injEq, upTo_obj_iff h.1, hfields]
    | _ => simp [sortKeys, UpTo]

end Json
end IrisMind.Lib
