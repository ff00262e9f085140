import IrisMind.Lib.Dict
import IrisMind.Lib.Splitting

/-! # Trees of named values

A tree has named subtrees, and values at its leaves. A leaf is reached by the
names on the way to it, which a dotted path writes as one text: where no name is
empty or has a dot, the path gives the names back. -/
namespace IrisMind.Lib

inductive NameTree (α : Type) where
  | leaf (value : α)
  | dict (entries : List (String × NameTree α))

namespace NameTree

variable {α : Type}

def follow : NameTree α → List String → Option (NameTree α)
  | t, [] => some t
  | .leaf _, _ :: _ => none
  | .dict entries, k :: ks => (Dict.lookup k entries).bind fun t => t.follow ks
termination_by _ ks => ks

mutual

/-- The leaves with the names on the way to them, in their order. -/
def leaves : NameTree α → List (List String × α)
  | .leaf value => [([], value)]
  | .dict entries => entryLeaves entries

def entryLeaves : List (String × NameTree α) → List (List String × α)
  | [] => []
  | (k, t) :: rest => (leaves t).map (fun l => (k :: l.1, l.2)) ++ entryLeaves rest

end

/-- A name that a dotted path can spell. -/
def IsName (k : String) : Prop := k ≠ "" ∧ '.' ∉ k.toList

mutual

/-- Every name in the tree can be spelled, and no two subtrees of one tree have the same. -/
def Named : NameTree α → Prop
  | .leaf _ => True
  | .dict entries => (entries.map Prod.fst).Nodup ∧ EntriesNamed entries

def EntriesNamed : List (String × NameTree α) → Prop
  | [] => True
  | (k, t) :: rest => IsName k ∧ Named t ∧ EntriesNamed rest

end

theorem entriesNamed_iff : ∀ {entries : List (String × NameTree α)},
    EntriesNamed entries ↔ ∀ e ∈ entries, IsName e.1 ∧ e.2.Named
  | [] => by simp [EntriesNamed]
  | (k, t) :: rest => by simp [EntriesNamed, @entriesNamed_iff rest, and_assoc]

theorem named_dict {d : Dict String (NameTree α)}
    (h : ∀ k t, d.get? k = some t → IsName k ∧ t.Named) : (dict d.entries).Named :=
  ⟨d.nodup, entriesNamed_iff.mpr fun e he => h e.1 e.2 (Dict.mem_entries_iff.mp he)⟩

/-! ## Leaves -/

theorem ne_nil_of_mem_entryLeaves {ks : List String} {value : α} :
    ∀ {entries : List (String × NameTree α)}, (ks, value) ∈ entryLeaves entries → ks ≠ []
  | [], h => absurd h (by simp [entryLeaves])
  | (k, t) :: rest, h => by
    rw [entryLeaves, List.mem_append] at h
    rcases h with h | h
    · obtain ⟨l, -, hl⟩ := List.mem_map.mp h
      exact (Prod.mk.inj hl).1 ▸ List.cons_ne_nil _ _
    · exact ne_nil_of_mem_entryLeaves h

theorem names_entryLeaves {k : String} {ks : List String} {value : α} :
    ∀ {entries : List (String × NameTree α)}, (k :: ks, value) ∈ entryLeaves entries →
      k ∈ entries.map Prod.fst
  | [], h => absurd h (by simp [entryLeaves])
  | (k', t) :: rest, h => by
    rw [entryLeaves, List.mem_append] at h
    rcases h with h | h
    · obtain ⟨l, -, hl⟩ := List.mem_map.mp h
      have hk : k' = k := by injection hl with hks; exact (List.cons.inj hks).1
      simp [hk]
    · exact List.mem_cons_of_mem _ (names_entryLeaves h)

mutual

/-- A leaf is listed under the names that lead to it. -/
theorem mem_leaves : ∀ {t : NameTree α} {ks : List String} {value : α}, t.Named →
    ((ks, value) ∈ leaves t ↔ t.follow ks = some (.leaf value))
  | .leaf v, [], value, _ => by simp [leaves, follow, eq_comm]
  | .leaf v, k :: ks, value, _ => by simp [leaves, follow]
  | .dict entries, ks, value, h => by
    rw [leaves]
    exact mem_entryLeaves h.1 h.2

theorem mem_entryLeaves : ∀ {entries : List (String × NameTree α)} {ks : List String} {value : α},
    (entries.map Prod.fst).Nodup → EntriesNamed entries →
    ((ks, value) ∈ entryLeaves entries ↔ (dict entries).follow ks = some (.leaf value))
  | [], [], value, _, _ => by simp [entryLeaves, follow]
  | [], k :: ks, value, _, _ => by simp [entryLeaves, follow, Dict.lookup]
  | (k', t) :: rest, [], value, hn, h => by
    have hrest : ([], value) ∈ entryLeaves rest ↔ _ :=
      mem_entryLeaves (List.nodup_cons.mp hn).2 h.2.2
    rw [entryLeaves, List.mem_append, hrest]
    simp [follow]
  | (k', t) :: rest, k :: ks, value, hn, h => by
    obtain ⟨hnew, hnodup⟩ := List.nodup_cons.mp hn
    have ht : (ks, value) ∈ leaves t ↔ _ := mem_leaves h.2.1
    have hrest : (k :: ks, value) ∈ entryLeaves rest ↔ _ := mem_entryLeaves hnodup h.2.2
    by_cases hk : k' = k
    · subst hk
      have hnone : (k' :: ks, value) ∉ entryLeaves rest := fun hm => hnew (names_entryLeaves hm)
      simp [entryLeaves, follow, Dict.lookup, hnone, ht]
    · rw [entryLeaves, List.mem_append, hrest]
      simp [follow, Dict.lookup, hk]

end

mutual

theorem isName_of_mem_leaves : ∀ {t : NameTree α} {ks : List String} {value : α}, t.Named →
    (ks, value) ∈ leaves t → ∀ k ∈ ks, IsName k
  | .leaf v, ks, value, _, h => by
    obtain ⟨rfl, rfl⟩ : ks = [] ∧ value = v := by simpa [leaves] using h
    simp
  | .dict entries, ks, value, hn, h => isName_of_mem_entryLeaves hn.2 h

theorem isName_of_mem_entryLeaves : ∀ {entries : List (String × NameTree α)} {ks : List String}
    {value : α}, EntriesNamed entries → (ks, value) ∈ entryLeaves entries → ∀ k ∈ ks, IsName k
  | [], ks, value, _, h => absurd h (by simp [entryLeaves])
  | (k', t) :: rest, ks, value, hn, h => by
    rw [entryLeaves, List.mem_append] at h
    rcases h with h | h
    · obtain ⟨l, hl, heq⟩ := List.mem_map.mp h
      obtain ⟨rfl, -⟩ := Prod.mk.inj heq
      intro k hk
      rcases List.mem_cons.mp hk with rfl | hk
      · exact hn.1
      · exact isName_of_mem_leaves hn.2.1 hl k hk
    · exact isName_of_mem_entryLeaves hn.2.2 h

end

mutual

theorem nodup_leaves : ∀ {t : NameTree α}, t.Named → ((leaves t).map Prod.fst).Nodup
  | .leaf _, _ => by simp [leaves]
  | .dict _, h => nodup_entryLeaves h.1 h.2

theorem nodup_entryLeaves : ∀ {entries : List (String × NameTree α)},
    (entries.map Prod.fst).Nodup → EntriesNamed entries →
      ((entryLeaves entries).map Prod.fst).Nodup
  | [], _, _ => List.nodup_nil
  | (k, t) :: rest, hn, h => by
    obtain ⟨hnew, hnodup⟩ := List.nodup_cons.mp hn
    rw [entryLeaves, List.map_append, List.map_map]
    refine List.nodup_append.mpr ⟨?_, nodup_entryLeaves hnodup h.2.2, ?_⟩
    · have hcons : (leaves t).map (Prod.fst ∘ fun l => (k :: l.1, l.2)) =
          ((leaves t).map Prod.fst).map (k :: ·) := by rw [List.map_map]; rfl
      rw [hcons]
      exact (nodup_leaves h.2.1).map fun _ _ heq => (List.cons.inj heq).2
    · -- what is below `k` and what is below another name differ in the first name
      rintro ks hks ks' hks' rfl
      obtain ⟨l, -, rfl⟩ := List.mem_map.mp hks
      obtain ⟨l', hl', heq⟩ := List.mem_map.mp hks'
      rw [show l' = (k :: l.1, l'.2) from Prod.ext heq rfl] at hl'
      exact hnew (names_entryLeaves hl')

end

/-! ## Dotted paths -/

/-- The names of a path as one text. -/
def dotted (ks : List String) : String := ".".intercalate ks

@[simp] theorem dotted_singleton (k : String) : dotted [k] = k := String.intercalate_singleton

theorem dotted_cons (k : String) {ks : List String} (h : ks ≠ []) :
    dotted (k :: ks) = k ++ "." ++ dotted ks := String.intercalate_cons_of_ne_nil h

theorem splitOn_dotted : ∀ {ks : List String}, ks ≠ [] → (∀ k ∈ ks, IsName k) →
    (dotted ks).splitOn "." = ks
  | [], h, _ => absurd rfl h
  | [k], _, h => by
    rw [dotted_singleton]
    exact Text.splitOn_of_not_mem (h k (by simp)).2
  | k :: k' :: ks, _, h => by
    rw [dotted_cons k (by simp)]
    have hrest : (dotted (k' :: ks)).splitOn "." = k' :: ks :=
      splitOn_dotted (by simp) fun x hx => h x (by simp [hx])
    exact (Text.splitOn_append (h k (by simp)).2 _).trans (congrArg _ hrest)

theorem dotted_splitOn (path : String) : dotted (path.splitOn ".") = path := by
  have hsplit : path.splitOn "." = (path.toList.splitOn '.').map String.ofList :=
    Text.splitOn_char path '.'
  refine String.toList_inj.mp ?_
  rw [hsplit, dotted, String.toList_intercalate, List.map_map]
  simp [Function.comp_def]

theorem dotted_ne_empty : ∀ {ks : List String}, ks ≠ [] → (∀ k ∈ ks, IsName k) → dotted ks ≠ ""
  | [], h, _ => absurd rfl h
  | [k], _, h => by simpa using (h k (by simp)).1
  | k :: k' :: ks, _, h => by
    rw [dotted_cons k (by simp)]
    simp

theorem dotted_injective {ks ks' : List String} (hks : ks ≠ []) (hks' : ks' ≠ [])
    (h : ∀ k ∈ ks, IsName k) (h' : ∀ k ∈ ks', IsName k) (heq : dotted ks = dotted ks') :
    ks = ks' := by
  have hsplit := congrArg (String.splitOn · ".") heq
  simpa only [splitOn_dotted hks h, splitOn_dotted hks' h'] using hsplit

end NameTree

end IrisMind.Lib
