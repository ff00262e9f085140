import IrisMind.Inhibition.Evaluation

/-! # One entry for each scope

A suppression belongs to the pair of a room and a reason. A call is to touch the
entry of its own pair and no other. The table has one key for a pair, made by
joining the two texts, and different pairs may share a key: then a call for the
one replaces or removes the entry of the other. What the calls keep is that each
entry is filed under the key of its own pair, so that is the only way. -/
namespace IrisMind.Inhibition
open IrisMind.Lib

variable {T : Type} [Clock T]

abbrev Scope := Option String × String

def SuppressionEntry.scope (e : SuppressionEntry T) : Scope := (e.roomId, e.reason)

def SuppressionCall.scope : SuppressionCall T → Scope
  | .suppress _ reason _ roomId _ => (roomId, reason)
  | .unsuppress reason roomId => (roomId, reason)

/-- The pair that has an entry after the call. -/
def SuppressionCall.opens? : SuppressionCall T → Option Scope
  | .suppress _ reason _ roomId _ => some (roomId, reason)
  | .unsuppress _ _ => none

namespace Striatum

def keyOf (p : Scope) : String := makeKey p.1 p.2

/-- `e` is stored for the pair. -/
def Holds (s : Striatum T) (p : Scope) (e : SuppressionEntry T) : Prop :=
  e ∈ s.suppressions.values ∧ e.scope = p

/-- What a call is to leave for its own pair. -/
def written (s : Striatum T) : SuppressionCall T → Option (SuppressionEntry T)
  | .suppress now reason duration roomId profile =>
    some
      { reason, roomId
        profile := match profile with
          | some p => p
          | none => s.profiles.getD reason ⟨∅, 1⟩
        expiry := if 0 < duration then now + duration else 0 }
  | .unsuppress _ _ => none

/-- The call leaves for its own pair the entry it writes, if any, and every other pair keeps what
it had. -/
structure Scoped (s : Striatum T) (c : SuppressionCall T) : Prop where
  own : ∀ e, (s.apply c).Holds c.scope e ↔ s.written c = some e
  frame : ∀ p, p ≠ c.scope → ∀ e, (s.apply c).Holds p e ↔ s.Holds p e

/-! ## Entries and keys -/

omit [Clock T] in
theorem holds_iff {s : Striatum T} (hs : s.WellKeyed) (p : Scope) (e : SuppressionEntry T) :
    s.Holds p e ↔ s.suppressions.get? (keyOf p) = some e ∧ e.scope = p := by
  constructor
  · intro hholds
    obtain ⟨hm, hp⟩ := hholds
    obtain ⟨k, hk⟩ := Dict.mem_values_iff.mp hm
    have hkey : k = keyOf p := by rw [hs k e hk, ← hp]; rfl
    exact ⟨hkey ▸ hk, hp⟩
  · intro hholds
    obtain ⟨hk, hp⟩ := hholds
    exact ⟨Dict.mem_values_of_get? hk, hp⟩

theorem get?_apply (s : Striatum T) (c : SuppressionCall T) (k : String) :
    (s.apply c).suppressions.get? k =
      if keyOf c.scope = k then s.written c else s.suppressions.get? k := by
  cases c with
  | suppress now reason duration roomId profile => exact Dict.get?_set _ _ _ _
  | unsuppress reason roomId => exact Dict.get?_erase _ _ _

theorem scope_of_written {s : Striatum T} {c : SuppressionCall T} {e : SuppressionEntry T}
    (h : s.written c = some e) : e.scope = c.scope := by
  cases c with
  | suppress now reason duration roomId profile => cases h; rfl
  | unsuppress reason roomId => cases h

theorem holds_apply_own {s : Striatum T} (hs : s.WellKeyed) (c : SuppressionCall T)
    (e : SuppressionEntry T) : (s.apply c).Holds c.scope e ↔ s.written c = some e := by
  rw [holds_iff (apply_wellKeyed s c hs), get?_apply, if_pos rfl]
  exact ⟨fun h => h.1, fun h => ⟨h, scope_of_written h⟩⟩

/-- A pair with a key of its own is left alone. -/
theorem holds_apply_other {s : Striatum T} (hs : s.WellKeyed) {c : SuppressionCall T} {p : Scope}
    (hk : keyOf c.scope ≠ keyOf p) (e : SuppressionEntry T) :
    (s.apply c).Holds p e ↔ s.Holds p e := by
  rw [holds_iff (apply_wellKeyed s c hs), holds_iff hs, get?_apply, if_neg hk]

/-- A pair that shares the key of the call's pair has lost its entry after the call. -/
theorem not_holds_apply_of_shared {s : Striatum T} (hs : s.WellKeyed) {c : SuppressionCall T}
    {p : Scope} (hp : p ≠ c.scope) (hk : keyOf c.scope = keyOf p) (e : SuppressionEntry T) :
    ¬ (s.apply c).Holds p e := by
  rw [holds_iff (apply_wellKeyed s c hs), get?_apply, if_pos hk]
  intro hholds
  obtain ⟨hw, he⟩ := hholds
  exact hp (he.symm.trans (scope_of_written hw))

/-- A call is scoped exactly when what its key holds is of its own pair. -/
theorem scoped_iff {s : Striatum T} (hs : s.WellKeyed) (c : SuppressionCall T) :
    s.Scoped c ↔
      ∀ e, s.suppressions.get? (keyOf c.scope) = some e → e.scope = c.scope := by
  constructor
  · intro h e he
    by_contra hne
    have hk : keyOf c.scope = keyOf e.scope := hs _ e he
    have hold : s.Holds e.scope e := ⟨Dict.mem_values_of_get? he, rfl⟩
    exact not_holds_apply_of_shared hs hne hk e ((h.frame e.scope hne e).mpr hold)
  · intro h
    refine ⟨holds_apply_own hs c, fun p hp e => ?_⟩
    by_cases hk : keyOf c.scope = keyOf p
    · refine iff_of_false (not_holds_apply_of_shared hs hp hk e) fun hold => hp ?_
      obtain ⟨he, hscope⟩ := (holds_iff hs p e).mp hold
      rw [← hk] at he
      rw [← hscope, h e he]
    · exact holds_apply_other hs hk e

/-! ## Runs -/

/-- The pair of the suppression that stands under a key, read off the calls alone: the pair of
the last call with that key, unless it lifts its suppression. -/
def opened (k : String) : List (SuppressionCall T) → Option Scope :=
  List.foldl (fun o c => if keyOf c.scope = k then c.opens? else o) none

theorem run_get?_scope (profiles : Option (Dict String SuppressionProfile)) (k : String)
    (calls : List (SuppressionCall T)) :
    ((Machine.run Striatum.apply (fresh profiles) calls).suppressions.get? k).map
      SuppressionEntry.scope = opened k calls := by
  induction calls using List.reverseRecOn with
  | nil => rfl
  | append_singleton calls c ih =>
    have hstep : opened k (calls ++ [c]) =
        if keyOf c.scope = k then c.opens? else opened k calls := by
      simp [opened]
    rw [Machine.run_append, hstep]
    change ((Striatum.apply _ c).suppressions.get? k).map _ = _
    rw [get?_apply]
    split
    · cases c <;> rfl
    · exact ih

omit [Clock T] in
theorem mem_of_opened {k : String} {calls : List (SuppressionCall T)} {p : Scope}
    (h : opened k calls = some p) : ∃ c ∈ calls, c.scope = p ∧ keyOf p = k := by
  induction calls using List.reverseRecOn with
  | nil => cases h
  | append_singleton calls c ih =>
    rw [opened, List.foldl_append, List.foldl_cons, List.foldl_nil] at h
    by_cases hk : keyOf c.scope = k
    · rw [if_pos hk] at h
      cases c with
      | suppress now reason duration roomId profile =>
        cases h
        exact ⟨_, List.mem_append_right _ List.mem_cons_self, rfl, hk⟩
      | unsuppress reason roomId => cases h
    · rw [if_neg hk] at h
      obtain ⟨d, hd, hscope, hkey⟩ := ih h
      exact ⟨d, List.mem_append_left _ hd, hscope, hkey⟩

/-- Over every sequence of calls: each call touches the entry of its own pair and no other
exactly when the suppression that stands under its key, if any, is of its own pair. -/
theorem run_scoped_iff (profiles : Option (Dict String SuppressionProfile))
    (calls : List (SuppressionCall T)) :
    (∀ before c, before ++ [c] <+: calls →
        (Machine.run Striatum.apply (fresh profiles) before).Scoped c) ↔
      ∀ before c, before ++ [c] <+: calls →
        ∀ p, opened (keyOf c.scope) before = some p → p = c.scope := by
  refine forall₂_congr fun before c => imp_congr_right fun _ => ?_
  rw [scoped_iff (run_wellKeyed profiles before), ← run_get?_scope profiles]
  constructor
  · intro h p hp
    obtain ⟨e, he, rfl⟩ := Option.map_eq_some_iff.mp hp
    exact h e he
  · intro h e he
    exact h e.scope (by rw [he]; rfl)

/-! ## Pairs that share no key -/

/-- The reason holds no separator, and the room is not written like the global scope. -/
def Plain (p : Scope) : Prop :=
  ':' ∉ p.2.toList ∧ p.1 ≠ some "" ∧ p.1 ≠ some "_global_"

/-- Without a separator in the reasons, a key splits at its last one. -/
theorem key_split {x y a b : String} (ha : ':' ∉ a.toList) (hb : ':' ∉ b.toList)
    (h : x ++ ":" ++ a = y ++ ":" ++ b) : x = y ∧ a = b := by
  have hl := congrArg (fun s : String => s.toList.reverse) h
  have hcolon : ":".toList = [':'] := rfl
  simp only [String.toList_append, List.append_assoc, List.reverse_append, hcolon,
    List.singleton_append, List.reverse_cons, List.append_assoc] at hl
  obtain ⟨h1, h2⟩ := Text.first_split (by rwa [List.mem_reverse]) (by rwa [List.mem_reverse]) hl
  exact ⟨String.toList_injective (List.reverse_injective h2),
    String.toList_injective (List.reverse_injective h1)⟩

theorem keyOf_inj_of_plain {p q : Scope} (hp : Plain p) (hq : Plain q)
    (h : keyOf p = keyOf q) : p = q := by
  obtain ⟨r, a⟩ := p
  obtain ⟨r', a'⟩ := q
  obtain ⟨ha, he, hg⟩ := hp
  obtain ⟨ha', he', hg'⟩ := hq
  obtain ⟨hroom, hreason⟩ := key_split ha ha' h
  have hr : r = r' := by
    cases r with
    | none =>
      cases r' with
      | none => rfl
      | some y => grind
    | some x =>
      cases r' with
      | none => grind
      | some y => grind
  exact Prod.ext hr hreason

/-- Calls on plain pairs leave each other alone. -/
theorem run_scoped_of_plain (profiles : Option (Dict String SuppressionProfile))
    {calls : List (SuppressionCall T)} (h : ∀ c ∈ calls, Plain c.scope)
    {before : List (SuppressionCall T)} {c : SuppressionCall T} (hp : before ++ [c] <+: calls) :
    (Machine.run Striatum.apply (fresh profiles) before).Scoped c := by
  rw [scoped_iff (run_wellKeyed profiles before)]
  intro e he
  have hopened : opened (keyOf c.scope) before = some e.scope := by
    rw [← run_get?_scope profiles, he]
    rfl
  obtain ⟨d, hd, hscope, hkey⟩ := mem_of_opened hopened
  have hmem : ∀ x ∈ before ++ [c], Plain x.scope := fun x hx => h x (hp.subset hx)
  rw [← hscope] at hkey ⊢
  exact keyOf_inj_of_plain (hmem d (List.mem_append_left _ hd)) (hmem c (by simp)) hkey

end Striatum

/-- What the executor does after it has spoken in the room of no id replaces the global entry. -/
theorem speaking_replaces_global :
    ¬ ∀ (profiles : Option (Dict String SuppressionProfile))
      (calls before : List (SuppressionCall Int)) (c : SuppressionCall Int),
      before ++ [c] <+: calls →
        (Machine.run Striatum.apply (Striatum.fresh profiles) before).Scoped c := by
  intro h
  let before : List (SuppressionCall Int) := [.suppress 0 "speaking" 0 none none]
  let spoken : SuppressionCall Int := .suppress 1 "speaking" 5 (some "") none
  have hs := h none (before ++ [spoken]) before spoken (List.prefix_refl _)
  have hscope : ((none, "speaking") : Scope) = (some "", "speaking") :=
    (Striatum.scoped_iff (Striatum.run_wellKeyed none before) spoken).mp hs _ rfl
  cases hscope

end IrisMind.Inhibition
