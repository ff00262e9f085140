import IrisMind.Inhibition.Striatum

/-! # What an active suppression does to a plan

`shouldSuppress` looks at every entry; `evaluate` looks at the entry under the
global hyperdirect key, then at the gate, and only then at the entries, and at
those not named hyperdirect. The two answers are compared in every state the
suppression calls reach. What the calls keep is that each entry is filed under
its own room and reason, so the global hyperdirect key holds nothing else. -/
namespace IrisMind.Inhibition
open IrisMind.Lib IrisMind.Planning

variable {T : Type} [Clock T]

/-- Executing or cooling down: either way the room takes no new execution. -/
def Gate.isShut (g : Gate T) (roomId : String) (now : T) : Bool :=
  (g.room roomId).executing || (g.room roomId).isOnCooldown now

namespace SuppressionEntry

/-- The scopes that share the key of the global scope. -/
def IsGlobalHyperdirect (e : SuppressionEntry T) : Prop :=
  e.reason = "hyperdirect" ∧ (e.roomId = none ∨ e.roomId = some "" ∨ e.roomId = some "_global_")

def Suppresses (e : SuppressionEntry T) (now : T) (plan : Plan) : Prop :=
  e.isActive now = true ∧ e.covers (some plan.roomId) = true ∧
    e.blocks plan.reason.value = true

end SuppressionEntry

namespace Striatum

/-! ## Keys -/

theorem makeKey_eq_hyperdirect {roomId : Option String} {reason : String}
    (h : makeKey roomId reason = makeKey none "hyperdirect") :
    reason = "hyperdirect" ∧
      (roomId = none ∨ roomId = some "" ∨ roomId = some "_global_") := by
  -- Neither part of the global hyperdirect key contains the separator, so the key splits one way.
  have hsplit : ∀ {p q : String}, p ++ ":" ++ q = "_global_" ++ ":" ++ "hyperdirect" →
      p = "_global_" ∧ q = "hyperdirect" := by
    intro p q he
    have hl := congrArg String.toList he
    simp only [String.toList_append, List.append_assoc] at hl
    have hp : ':' ∉ "_global_".toList := by decide
    have hq : ':' ∉ "hyperdirect".toList := by decide
    obtain ⟨h1, _, h2⟩ := (List.append_cons_inj_of_notMem hp hq).mp hl.symm
    exact ⟨String.toList_injective h1.symm, String.toList_injective h2.symm⟩
  cases roomId with
  | none => exact ⟨(hsplit h).2, .inl rfl⟩
  | some r =>
    by_cases hr : r = ""
    · subst hr; exact ⟨(hsplit h).2, .inr (.inl rfl)⟩
    · have h' : r ++ ":" ++ reason = "_global_" ++ ":" ++ "hyperdirect" := by
        simpa [makeKey, hr] using h
      obtain ⟨h1, h2⟩ := hsplit h'
      exact ⟨h2, .inr (.inr (by rw [h1]))⟩

def WellKeyed (s : Striatum T) : Prop :=
  ∀ k e, s.suppressions.get? k = some e → k = makeKey e.roomId e.reason

theorem apply_wellKeyed (s : Striatum T) (c : SuppressionCall T) (h : s.WellKeyed) :
    (s.apply c).WellKeyed := by
  intro k e he
  cases c with
  | suppress now reason duration roomId profile =>
    simp only [apply, suppress, Dict.get?_set] at he
    split at he
    · next hk => cases he; exact hk.symm
    · exact h k e he
  | unsuppress reason roomId =>
    simp only [apply, unsuppress, Dict.get?_erase] at he
    split at he
    · cases he
    · exact h k e he

theorem run_wellKeyed (profiles : Option (Dict String SuppressionProfile))
    (calls : List (SuppressionCall T)) :
    (Machine.run Striatum.apply (Striatum.fresh profiles) calls).WellKeyed := by
  apply Machine.run_inv WellKeyed apply_wellKeyed
  intro k e he
  simp [fresh] at he

/-! ## The branches of `evaluate` -/

theorem shouldSuppress_iff (s : Striatum T) (now : T) (plan : Plan) :
    s.shouldSuppress now plan.reason.value (some plan.roomId) = true ↔
      ∃ e ∈ s.suppressions.values, e.Suppresses now plan := by
  simp only [shouldSuppress, List.any_eq_true, Bool.and_eq_true, SuppressionEntry.Suppresses,
    and_assoc]

theorem hyperdirectBlocks_iff {s : Striatum T} (hs : s.WellKeyed) (now : T) (plan : Plan) :
    s.hyperdirectBlocks now plan = true ↔ ∃ e ∈ s.suppressions.values,
      e.IsGlobalHyperdirect ∧ e.isActive now = true ∧ e.blocks plan.reason.value = true := by
  unfold hyperdirectBlocks
  constructor
  · intro h
    split at h
    · cases h
    · next e he =>
      refine ⟨e, Dict.mem_values_of_get? he, ?_, by simpa using h⟩
      exact makeKey_eq_hyperdirect (hs _ _ he).symm
  · rintro ⟨e, hm, ⟨hr, hroom⟩, ha, hb⟩
    obtain ⟨k, hk⟩ := Dict.mem_values_iff.mp hm
    have hkey : k = makeKey none "hyperdirect" := by
      rw [hs k e hk, hr]
      rcases hroom with h | h | h <;> rw [h] <;> rfl
    rw [hkey] at hk
    rw [hk]
    simp [ha, hb]

theorem profileBlock?_eq_none_iff (s : Striatum T) (now : T) (plan : Plan) :
    s.profileBlock? now plan = none ↔
      ∀ e ∈ s.suppressions.values, e.Suppresses now plan → e.reason = "hyperdirect" := by
  unfold profileBlock?
  rw [List.find?_eq_none]
  refine forall₂_congr fun e _ => ?_
  simp only [Bool.and_eq_true, decide_eq_true_eq, SuppressionEntry.Suppresses]
  tauto

theorem evaluate_allow_of_hyperdirect {s : Striatum T} {gate : Gate T} {now gateNow : T}
    {plan : Plan} (h : s.hyperdirectBlocks now plan = true) :
    (s.evaluate gate now gateNow plan).1.allow = false := by
  simp [evaluate, h]

/-- A shut gate decides on its own: user input passes, everything else waits. -/
theorem evaluate_allow_of_shut {s : Striatum T} {gate : Gate T} {now gateNow : T} {plan : Plan}
    (h : s.hyperdirectBlocks now plan = false) (hg : gate.isShut plan.roomId gateNow = true) :
    (s.evaluate gate now gateNow plan).1.allow = true ↔ plan.reason = .userInput := by
  simp only [evaluate, h, Gate.isRoomExecuting, Gate.isRoomOnCooldown, Gate.getGate_fst,
    Gate.room_getGate]
  rcases Bool.or_eq_true_iff.mp hg with hx | hx
  · by_cases hr : plan.reason = .userInput <;> simp [hx, hr]
  · by_cases he : (gate.room plan.roomId).executing = true <;>
      by_cases hr : plan.reason = .userInput <;> simp [he, hx, hr]

theorem evaluate_allow_of_open {s : Striatum T} {gate : Gate T} {now gateNow : T} {plan : Plan}
    (h : s.hyperdirectBlocks now plan = false) (hg : gate.isShut plan.roomId gateNow = false) :
    (s.evaluate gate now gateNow plan).1.allow = true ↔ s.profileBlock? now plan = none := by
  obtain ⟨he, hc⟩ := Bool.or_eq_false_iff.mp hg
  simp only [evaluate, h, Gate.isRoomExecuting, Gate.isRoomOnCooldown, Gate.getGate_fst,
    Gate.room_getGate, he, hc]
  cases s.profileBlock? now plan <;> simp

/-- Evaluating a plan moves no gate. -/
theorem room_evaluate (s : Striatum T) (gate : Gate T) (now gateNow : T) (plan : Plan)
    (x : String) : (s.evaluate gate now gateNow plan).2.room x = gate.room x := by
  simp only [evaluate, Gate.isRoomExecuting, Gate.isRoomOnCooldown, Gate.getGate_fst,
    Gate.room_getGate]
  split_ifs
  · rfl
  · exact Gate.room_getGate _ _ _
  · exact Gate.room_getGate _ _ _
  · rw [Gate.room_getGate, Gate.room_getGate]
  · rw [Gate.room_getGate, Gate.room_getGate]
  · cases s.profileBlock? now plan <;> rw [Gate.room_getGate, Gate.room_getGate]

/-! ## Suppressed plans -/

/-- Two ways past the suppressions, once no global hyperdirect entry stops the
plan: a shut gate answers user input before the entries are looked at, and an
open gate leads to a loop that skips every entry named hyperdirect. -/
def Bypasses (s : Striatum T) (gate : Gate T) (now gateNow : T) (plan : Plan) : Prop :=
  (¬ ∃ e ∈ s.suppressions.values,
    e.IsGlobalHyperdirect ∧ e.isActive now = true ∧ e.blocks plan.reason.value = true) ∧
  (gate.isShut plan.roomId gateNow = true ∧ plan.reason = .userInput ∨
    gate.isShut plan.roomId gateNow = false ∧
      ∀ e ∈ s.suppressions.values, e.Suppresses now plan → e.reason = "hyperdirect")

theorem evaluate_allow_iff {s : Striatum T} (hs : s.WellKeyed) (gate : Gate T) (now gateNow : T)
    (plan : Plan) :
    (s.evaluate gate now gateNow plan).1.allow = true ↔ s.Bypasses gate now gateNow plan := by
  have hh := hyperdirectBlocks_iff hs now plan
  unfold Bypasses
  rw [← hh]
  cases h : s.hyperdirectBlocks now plan with
  | true => simp [evaluate_allow_of_hyperdirect h]
  | false =>
    cases hg : gate.isShut plan.roomId gateNow with
    | true => simpa using evaluate_allow_of_shut h hg
    | false =>
      rw [evaluate_allow_of_open h hg, profileBlock?_eq_none_iff]
      simp

/-- In every state the suppression calls reach, whatever the gate and the clocks
show: a plan that some active suppression blocks is denied exactly when it does
not get past the suppressions on one of the two ways. -/
theorem evaluate_denies_suppressed_iff (profiles : Option (Dict String SuppressionProfile))
    (calls : List (SuppressionCall T)) (gate : Gate T) (now gateNow : T) (plan : Plan) :
    let s := Machine.run Striatum.apply (Striatum.fresh profiles) calls
    (s.shouldSuppress now plan.reason.value (some plan.roomId) = true →
        (s.evaluate gate now gateNow plan).1.allow = false) ↔
      (s.shouldSuppress now plan.reason.value (some plan.roomId) = true →
        ¬ s.Bypasses gate now gateNow plan) := by
  intro s
  have h := evaluate_allow_iff (run_wellKeyed profiles calls) gate now gateNow plan
  rw [← h, Bool.not_eq_true]

/-! ## Suppressions over time -/

/-- The entry a suppression writes. -/
def entry (s : Striatum T) (now : T) (reason : String) (duration : T) (roomId : Option String)
    (profile : Option SuppressionProfile) : SuppressionEntry T where
  reason := reason
  profile := match profile with
    | some p => p
    | none => s.profiles.getD reason ⟨∅, 1⟩
  roomId := roomId
  expiry := if 0 < duration then now + duration else 0

/-- The call puts a suppression in force that blocks the plan. -/
def Blocks (s : Striatum T) (now : T) (plan : Plan) : SuppressionCall T → Prop
  | .suppress callNow reason duration roomId profile =>
    (s.entry callNow reason duration roomId profile).Suppresses now plan
  | .unsuppress _ _ => False

theorem suppresses_mono {e : SuppressionEntry T} {plan : Plan} {s t : T} (hst : s ≤ t)
    (h : e.Suppresses t plan) : e.Suppresses s plan := by
  obtain ⟨hactive, hrest⟩ := h
  refine ⟨?_, hrest⟩
  simp only [SuppressionEntry.isActive, Bool.or_eq_true, decide_eq_true_eq] at hactive ⊢
  exact hactive.imp id fun hlt => lt_of_le_of_lt hst hlt

/-- A plan that is not suppressed now was not going to be: time only ends suppressions. -/
theorem shouldSuppress_mono {s : Striatum T} {plan : Plan} {a b : T} (hab : a ≤ b)
    (h : s.shouldSuppress b plan.reason.value (some plan.roomId) = true) :
    s.shouldSuppress a plan.reason.value (some plan.roomId) = true := by
  obtain ⟨e, he, hs⟩ := (s.shouldSuppress_iff b plan).mp h
  exact (s.shouldSuppress_iff a plan).mpr ⟨e, he, suppresses_mono hab hs⟩

/-- What suppresses a plan after a call did so before it, or is what the call puts in force. -/
theorem shouldSuppress_apply {s : Striatum T} {now : T} {plan : Plan} {call : SuppressionCall T}
    (h : (s.apply call).shouldSuppress now plan.reason.value (some plan.roomId) = true) :
    s.Blocks now plan call ∨
      s.shouldSuppress now plan.reason.value (some plan.roomId) = true := by
  obtain ⟨e, he, hs⟩ := ((s.apply call).shouldSuppress_iff now plan).mp h
  obtain ⟨k, hk⟩ := Dict.mem_values_iff.mp he
  cases call with
  | suppress callNow reason duration roomId profile =>
    have hget : (s.apply (.suppress callNow reason duration roomId profile)).suppressions.get? k =
        if makeKey roomId reason = k then some (s.entry callNow reason duration roomId profile)
        else s.suppressions.get? k := Dict.get?_set _ _ _ _
    rw [hget] at hk
    split at hk
    · cases hk
      exact .inl hs
    · exact .inr ((s.shouldSuppress_iff now plan).mpr ⟨e, Dict.mem_values_of_get? hk, hs⟩)
  | unsuppress reason roomId =>
    have hget : (s.apply (.unsuppress reason roomId)).suppressions.get? k =
        if makeKey roomId reason = k then none else s.suppressions.get? k := Dict.get?_erase _ _ _
    rw [hget] at hk
    split at hk
    · cases hk
    · exact .inr ((s.shouldSuppress_iff now plan).mpr ⟨e, Dict.mem_values_of_get? hk, hs⟩)

end Striatum

/-- An emergency stop that a client requests for one room does not stop that room. -/
theorem room_hyperdirect_allows :
    ¬ ∀ (profiles : Option (Dict String SuppressionProfile)) (calls : List (SuppressionCall Int))
      (gate : Gate Int) (now gateNow : Int) (plan : Plan),
      let s := Machine.run Striatum.apply (Striatum.fresh profiles) calls
      s.shouldSuppress now plan.reason.value (some plan.roomId) = true →
        (s.evaluate gate now gateNow plan).1.allow = false := by
  intro h
  let request : InhibitionRequestEvent Int := ⟨"hyperdirect", "", 0, "r", ""⟩
  have hs := h none (onRequestEvent 1 request).toList .fresh 1 1 { content := "hi", roomId := "r" }
  exact absurd (hs (by decide)) (by decide)

end IrisMind.Inhibition
