import IrisMind.Limbic.Relationship
import IrisMind.Memory.Schemas
import Mathlib.Tactic.Linarith

/-! # Signals of relationships

A relationship candidate has a signal, a delta and a confidence. The handler
clamps the delta, further down than up, scales it with the confidence and moves
the dimension that the payload names; the model of the candidates has no such
field, so it is trust that moves, by the sign of the delta. The signal is not
read at all. -/
namespace IrisMind.Memory
open IrisMind.Lib

inductive RelationshipSignal where
  | trustIncrease | trustDecrease | familiarityIncrease | boundarySet | preferenceDisclosed
  | repairNeeded
deriving DecidableEq

namespace RelationshipSignal

def text : RelationshipSignal → String
  | trustIncrease => "trust_increase"
  | trustDecrease => "trust_decrease"
  | familiarityIncrease => "familiarity_increase"
  | boundarySet => "boundary_set"
  | preferenceDisclosed => "preference_disclosed"
  | repairNeeded => "repair_needed"

def all : List RelationshipSignal :=
  [trustIncrease, trustDecrease, familiarityIncrease, boundarySet, preferenceDisclosed,
    repairNeeded]

end RelationshipSignal

structure RelationshipMemoryCandidate where
  signal : RelationshipSignal
  evidence : String
  suggestedDelta : ℚ := 0
  confidence : ℚ
  confidence_mem : 0 ≤ confidence ∧ confidence ≤ 1

namespace RelationshipMemoryCandidate

/-- `model_dump` -/
def dump (r : RelationshipMemoryCandidate) : List (String × Json) :=
  [("signal", .str r.signal.text), ("evidence", .str r.evidence),
    ("suggested_delta", .num r.suggestedDelta), ("confidence", .num r.confidence)]

/-- What a candidate has of the model it is built from. -/
structure Builds (r : RelationshipMemoryCandidate) (c : MemoryCandidate) : Prop where
  payload : c.payload = r.dump
  confidence : c.confidence = r.confidence

variable {v : Conversion} {r : RelationshipMemoryCandidate} {c : MemoryCandidate}

/-- The signed delta that a handler applies. -/
def delta (r : RelationshipMemoryCandidate) : ℚ :=
  scaleByConfidence (clampDelta r.suggestedDelta
    (if r.suggestedDelta < 0 then 5 / 100 * (5 / 10) else 5 / 100)) r.confidence

/-- What the handler plans: to move trust, unless the candidate says too little. -/
theorem plan_eq (h : r.Builds c) (roomId accountId : String) :
    RelationshipPromotionHandler.apply v c roomId accountId =
      if r.confidence < 6 / 10 ∨ r.suggestedDelta = 0 then .ok (none, .none)
      else .ok (some (.relationship .trust r.delta accountId roomId c.sourceRecordIds),
        .created ("rel_" ++ Text.takeChars c.id 12)) := by
  have hsuggested : v.floatAt "suggested_delta" c.payload = .ok r.suggestedDelta :=
    v.floatAt_of_number (j := .num r.suggestedDelta) (by rw [h.payload]; rfl) rfl
  have hfield : Dict.lookup "field" c.payload = none := by rw [h.payload]; rfl
  unfold RelationshipPromotionHandler.apply
  rw [hsuggested, hfield, h.confidence]
  by_cases hlow : r.confidence < 6 / 10
  · simp [hlow, pure, Except.pure]
  · by_cases hzero : r.suggestedDelta = 0
    · simp [hlow, hzero, bind, Except.bind, pure, Except.pure]
    · simp [hlow, hzero, bind, Except.bind, pure, Except.pure, delta]

/-- An increase is positive, and at most a twentieth of the confidence. -/
theorem delta_of_pos (hconfidence : 6 / 10 ≤ r.confidence) (h : 0 < r.suggestedDelta) :
    0 < r.delta ∧ r.delta ≤ 5 / 100 * r.confidence := by
  have hclamp : 0 < clampDelta r.suggestedDelta (5 / 100) ∧
      clampDelta r.suggestedDelta (5 / 100) ≤ 5 / 100 := by
    unfold clampDelta
    split
    · norm_num
    · split
      · linarith
      · exact ⟨h, by linarith⟩
  obtain ⟨_, hone⟩ := r.confidence_mem
  have hpos : 0 < r.confidence := by linarith
  have hdelta : r.delta = clampDelta r.suggestedDelta (5 / 100) * r.confidence := by
    rw [delta, if_neg (not_lt.mpr h.le), scaleByConfidence, min_eq_right hone,
      max_eq_right hpos.le]
  rw [hdelta]
  exact ⟨mul_pos hclamp.1 hpos, mul_le_mul_of_nonneg_right hclamp.2 hpos.le⟩

/-- A decrease is negative, and at most half of that. -/
theorem delta_of_neg (hconfidence : 6 / 10 ≤ r.confidence) (h : r.suggestedDelta < 0) :
    r.delta < 0 ∧ -(25 / 1000 * r.confidence) ≤ r.delta := by
  have hclamp : clampDelta r.suggestedDelta (5 / 100 * (5 / 10)) < 0 ∧
      -(25 / 1000) ≤ clampDelta r.suggestedDelta (5 / 100 * (5 / 10)) := by
    unfold clampDelta
    split
    · linarith
    · split
      · norm_num
      · exact ⟨h, by linarith⟩
  obtain ⟨_, hone⟩ := r.confidence_mem
  have hpos : 0 < r.confidence := by linarith
  have hdelta : r.delta = clampDelta r.suggestedDelta (5 / 100 * (5 / 10)) * r.confidence := by
    rw [delta, if_pos h, scaleByConfidence, min_eq_right hone, max_eq_right hpos.le]
  rw [hdelta, ← neg_mul]
  exact ⟨mul_neg_of_neg_of_pos hclamp.1 hpos, mul_le_mul_of_nonneg_right hclamp.2 hpos.le⟩

end RelationshipMemoryCandidate

end IrisMind.Memory

namespace IrisMind.Limbic
open IrisMind.Lib
open IrisMind.Memory (MemoryCandidate RelationshipMemoryCandidate RelationshipSignal
  RelationshipSnapshot Writing)

/-! ## Moves of a dimension -/

inductive Dimension where
  | trust | familiarity | disclosureDepth
deriving DecidableEq

def RelationshipState.get (state : RelationshipState) : Dimension → ℚ
  | .trust => state.trust
  | .familiarity => state.familiarity
  | .disclosureDepth => state.disclosureDepth

section Clamp

variable {x d : ℚ}

/-- A value in range that goes up by some amount, up to the end of the range. -/
theorem clamp_add_of_pos (hx : 0 ≤ x ∧ x ≤ 1) (hd : 0 < d) :
    x ≤ clamp (x + d) ∧ clamp (x + d) - x ≤ d ∧ (clamp (x + d) = x ↔ x = 1) := by
  have hclamp : clamp (x + d) = min 1 (x + d) := max_eq_right (le_min zero_le_one (by linarith))
  rw [hclamp]
  rcases le_total 1 (x + d) with h | h
  · rw [min_eq_left h]
    exact ⟨hx.2, by linarith, eq_comm⟩
  · rw [min_eq_right h]
    exact ⟨by linarith, by linarith, by constructor <;> intro <;> linarith⟩

theorem clamp_add_of_neg (hx : 0 ≤ x ∧ x ≤ 1) (hd : d < 0) :
    clamp (x + d) ≤ x ∧ x - clamp (x + d) ≤ -d ∧ (clamp (x + d) = x ↔ x = 0) := by
  have hclamp : clamp (x + d) = max 0 (x + d) := by
    rw [clamp, min_eq_right (by linarith)]
  rw [hclamp]
  rcases le_total 0 (x + d) with h | h
  · rw [max_eq_right h]
    exact ⟨by linarith, by linarith, by constructor <;> intro <;> linarith⟩
  · rw [max_eq_left h]
    exact ⟨hx.1, by linarith, eq_comm⟩

end Clamp

theorem RelationshipState.get_shift_trust (state : RelationshipState) (delta : ℚ)
    (dimension : Dimension) : (state.shift "trust" delta).get dimension =
      if dimension = .trust then clamp (state.trust + delta) else state.get dimension := by
  obtain ⟨level, hlevel, _⟩ :=
    RelationshipState.updateLevel_spec { state with trust := clamp (state.trust + delta) }
  rw [shift, if_pos rfl, hlevel]
  cases dimension <;> rfl

/-! ## Snapshots -/

/-- `_compose_id` -/
def composeId (accountId : AccountId) (roomId : String) : String :=
  accountId.1 ++ "::" ++ if roomId = "" then "__global__" else roomId

/-- The snapshots, each under the id of its account and room. -/
structure SnapshotStore where
  rows : List RelationshipSnapshot
  owned : ∀ row ∈ rows, ∃ (accountId : AccountId) (roomId : String),
    row.accountId = accountId.1 ∧ row.id = composeId accountId roomId

/-- No id that is given out has a colon, so an id of a snapshot is one of a single account. -/
theorem composeId_account {a b : AccountId} {roomId room : String}
    (h : composeId a roomId = composeId b room) : a = b := by
  have hcolon : ∀ c : AccountId, ∀ x ∈ c.1.toList, decide (x ≠ ':') = true := by
    intro c x hx
    have hdigit := c.2 x hx
    rw [decide_eq_true_eq]
    rintro rfl
    exact absurd hdigit (by decide)
  have htake : ∀ (c : AccountId) (r : String),
      (composeId c r).toList.takeWhile (· ≠ ':') = c.1.toList := by
    intro c r
    rw [composeId, String.toList_append, String.toList_append, List.append_assoc,
      List.takeWhile_append_of_pos (hcolon c)]
    simp
  have hlist : a.1.toList = b.1.toList := by rw [← htake a roomId, h, htake b room]
  exact Subtype.ext (String.toList_inj.mp hlist)

namespace SnapshotStore

def empty : SnapshotStore := ⟨[], fun _ h => absurd h List.not_mem_nil⟩

/-- The snapshots of an account. -/
def ofAccount (s : SnapshotStore) (accountId : AccountId) : List RelationshipSnapshot :=
  s.rows.filter (·.accountId = accountId.1)

theorem saved_rows (s : SnapshotStore) (accountId : AccountId)
    (state : Memory.RelationshipState) (roomId : String) (sourceRecordIds : List String) :
    ∃ row : RelationshipSnapshot, row.accountId = accountId.1 ∧
      row.id = composeId accountId roomId ∧
      (Memory.RelationshipStateStore.saveSnapshot s.rows accountId.1 state roomId
          sourceRecordIds = s.rows ++ [row] ∨
        Memory.RelationshipStateStore.saveSnapshot s.rows accountId.1 state roomId
          sourceRecordIds = Rows.replaceFirst (·.id = composeId accountId roomId) row s.rows) := by
  unfold Memory.RelationshipStateStore.saveSnapshot
  dsimp only
  split
  · exact ⟨_, rfl, rfl, .inr rfl⟩
  · exact ⟨_, rfl, rfl, .inl rfl⟩

/-- `save_snapshot`, where the file takes it. -/
def save (s : SnapshotStore) (accountId : AccountId) (state : Memory.RelationshipState)
    (roomId : String) (sourceRecordIds : List String) : SnapshotStore where
  rows := Memory.RelationshipStateStore.saveSnapshot s.rows accountId.1 state roomId
    sourceRecordIds
  owned := by
    obtain ⟨row, haccount, hid, hrows⟩ := s.saved_rows accountId state roomId sourceRecordIds
    have hnew : ∃ (a : AccountId) (r : String), row.accountId = a.1 ∧ row.id = composeId a r :=
      ⟨accountId, roomId, haccount, hid⟩
    intro x hx
    rcases hrows with hrows | hrows
    · rw [hrows] at hx
      rcases List.mem_append.mp hx with hx | hx
      · exact s.owned x hx
      · rw [List.mem_singleton.mp hx]
        exact hnew
    · rw [hrows] at hx
      rcases Rows.of_mem_replaceFirst hx with rfl | hx
      · exact hnew
      · exact s.owned x hx

/-- Saving a snapshot of an account changes none of another one. -/
theorem ofAccount_save (s : SnapshotStore) {a b : AccountId} (hb : b ≠ a)
    (state : Memory.RelationshipState) (roomId : String) (sourceRecordIds : List String) :
    (s.save a state roomId sourceRecordIds).ofAccount b = s.ofAccount b := by
  obtain ⟨row, haccount, hid, hrows⟩ := s.saved_rows a state roomId sourceRecordIds
  have hother : ¬ row.accountId = b.1 := fun h => hb (Subtype.ext (h.symm.trans haccount))
  have hsave : (s.save a state roomId sourceRecordIds).rows =
      Memory.RelationshipStateStore.saveSnapshot s.rows a.1 state roomId sourceRecordIds := rfl
  rw [ofAccount, ofAccount, hsave]
  rcases hrows with hrows | hrows
  · rw [hrows, List.filter_append, List.filter_cons_of_neg (by simpa using hother),
      List.filter_nil, List.append_nil]
  · rw [hrows]
    refine Rows.filter_replaceFirst_of_not (by simpa using hother) fun x hx hfits => ?_
    obtain ⟨c, r, hc, hr⟩ := s.owned x hx
    have hsame : c = a := composeId_account (hr.symm.trans (of_decide_eq_true hfits))
    subst hsame
    simpa [hc] using fun h => hb (Subtype.ext h.symm)

end SnapshotStore

/-! ## What a candidate does -/

/-- What the handler of relationships changes. -/
structure RelationshipMemory where
  manager : RelationshipManager := {}
  snapshots : SnapshotStore := .empty

namespace RelationshipMemory

def get (s : RelationshipMemory) (accountId : AccountId) (d : Dimension) : ℚ :=
  (s.manager.value accountId).get d

/-- `RelationshipPromotionHandler.apply`, with the snapshots where they are kept. -/
def applyCandidate (v : Conversion) (s : RelationshipMemory)
    (keepsSnapshots : Bool) (writing : Writing) (c : MemoryCandidate) (roomId : String)
    (accountId : AccountId) : RelationshipMemory :=
  match Memory.RelationshipPromotionHandler.apply v c roomId accountId.1 with
  | .ok (some (.relationship field delta _ _ sourceRecordIds), _) =>
    let (_, manager) := s.manager.getState accountId
    match manager.applyCandidateDelta (RelationshipManager.fieldText field) delta accountId with
    | (.ok state, manager) =>
      let saved := s.snapshots.save accountId (RelationshipManager.seen state) roomId
        sourceRecordIds
      { manager, snapshots := if keepsSnapshots then writing.leaves s.snapshots saved
          else s.snapshots }
    | (.error _, manager) => { s with manager }
  | _ => s

end RelationshipMemory

/-- The dimension that a signal names, and whether it goes up. -/
def names : RelationshipSignal → Option (Dimension × Bool)
  | .trustIncrease => some (.trust, true)
  | .trustDecrease => some (.trust, false)
  | .familiarityIncrease => some (.familiarity, true)
  | .boundarySet | .preferenceDisclosed | .repairNeeded => none

/-- What a candidate is to do: only its account is changed, of the dimensions only the one that
the signal names, in the direction of the signal, and none by more than the confidence allows. -/
structure ActsAsSignalled (r : RelationshipMemoryCandidate) (accountId : AccountId)
    (before after : RelationshipMemory) : Prop where
  others : ∀ b, b ≠ accountId → after.manager.value b = before.manager.value b ∧
    after.snapshots.ofAccount b = before.snapshots.ofAccount b
  named : ∀ dimension up, names r.signal = some (dimension, up) →
    (∀ d, d ≠ dimension → after.get accountId d = before.get accountId d) ∧
    if up then before.get accountId dimension ≤ after.get accountId dimension
    else after.get accountId dimension ≤ before.get accountId dimension
  bounded : ∀ d,
    after.get accountId d - before.get accountId d ≤ 5 / 100 * r.confidence ∧
      before.get accountId d - after.get accountId d ≤ 25 / 1000 * r.confidence

/-- What a delta has to be for a signal, or what keeps trust where it is. -/
def Fits (trust delta : ℚ) : RelationshipSignal → Prop
  | .trustIncrease => 0 < delta ∨ trust = 0
  | .trustDecrease => delta < 0 ∨ trust = 1
  | .familiarityIncrease => 0 < delta ∧ trust = 1 ∨ delta < 0 ∧ trust = 0
  | .boundarySet | .preferenceDisclosed | .repairNeeded => True

section Signalled

variable {v : Conversion} {r : RelationshipMemoryCandidate} {c : MemoryCandidate}
  {roomId : String} {a : AccountId} {keepsSnapshots : Bool} {writing : Writing}
  {s : RelationshipMemory}

/-- A candidate that says too little changes nothing. -/
theorem applyCandidate_quiet (hc : r.Builds c)
    (hquiet : r.confidence < 6 / 10 ∨ r.suggestedDelta = 0) :
    s.applyCandidate v keepsSnapshots writing c roomId a = s := by
  rw [RelationshipMemory.applyCandidate, r.plan_eq hc, if_pos hquiet]

/-- Any other one moves the trust of its account by its delta. -/
theorem applyCandidate_moves (v : Conversion) (roomId : String) (a : AccountId)
    (keepsSnapshots : Bool) (writing : Writing) (s : RelationshipMemory) (hc : r.Builds c)
    (hloud : ¬ (r.confidence < 6 / 10 ∨ r.suggestedDelta = 0)) :
    let after := s.applyCandidate v keepsSnapshots writing c roomId a
    (∀ b, after.manager.value b = if b = a then (s.manager.value a).shift "trust" r.delta
      else s.manager.value b) ∧
    ∀ b, b ≠ a → after.snapshots.ofAccount b = s.snapshots.ofAccount b := by
  have haccepted : ¬ (RelationshipManager.Call.applyCandidateDelta "trust" r.delta a).Refused := by
    simp [RelationshipManager.Call.Refused, RelationshipManager.Supported]
  obtain ⟨hstate, hvalue⟩ := (s.manager.getState a).2.call_accepted haccepted
  simp only [RelationshipManager.Call.act, RelationshipManager.Call.accountId,
    RelationshipManager.getState, RelationshipManager.value_ownState] at hstate hvalue
  intro after
  have hafter : after = (match (s.manager.ownState a).2.applyCandidateDelta "trust" r.delta a with
      | (.ok state, manager) =>
        { manager, snapshots := if keepsSnapshots then writing.leaves s.snapshots
            (s.snapshots.save a (RelationshipManager.seen state) roomId c.sourceRecordIds)
          else s.snapshots }
      | (.error _, manager) => { s with manager }) := by
    show s.applyCandidate v keepsSnapshots writing c roomId a = _
    rw [RelationshipMemory.applyCandidate, r.plan_eq hc, if_neg hloud]
    rfl
  have hcall : (s.manager.ownState a).2.applyCandidateDelta "trust" r.delta a =
      (.ok ((s.manager.value a).shift "trust" r.delta),
        (s.manager.ownState a).2.step (.applyCandidateDelta "trust" r.delta a)) :=
    Prod.ext hstate rfl
  rw [hcall] at hafter
  rw [hafter]
  refine ⟨hvalue, fun b hb => ?_⟩
  cases keepsSnapshots with
  | false => rfl
  | true =>
    cases writing with
    | refused e => rfl
    | done => exact s.snapshots.ofAccount_save hb _ _ _
    | spoilt e => exact s.snapshots.ofAccount_save hb _ _ _

/-- Where the trust of a state in range comes to lie. -/
theorem clamp_add_delta {trust : ℚ} (hrange : 0 ≤ trust ∧ trust ≤ 1)
    (hloud : ¬ (r.confidence < 6 / 10 ∨ r.suggestedDelta = 0)) :
    (0 < r.suggestedDelta ∧ trust ≤ clamp (trust + r.delta) ∧
        clamp (trust + r.delta) - trust ≤ 5 / 100 * r.confidence ∧
        (clamp (trust + r.delta) = trust ↔ trust = 1)) ∨
      (r.suggestedDelta < 0 ∧ clamp (trust + r.delta) ≤ trust ∧
        trust - clamp (trust + r.delta) ≤ 25 / 1000 * r.confidence ∧
        (clamp (trust + r.delta) = trust ↔ trust = 0)) := by
  obtain ⟨hconfidence, hzero⟩ := not_or.mp hloud
  have hconfidence := not_lt.mp hconfidence
  rcases lt_or_gt_of_ne hzero with hneg | hpos
  · obtain ⟨hdelta, hbound⟩ := r.delta_of_neg hconfidence hneg
    obtain ⟨hle, hmove, hsame⟩ := clamp_add_of_neg hrange hdelta
    exact .inr ⟨hneg, hle, by linarith, hsame⟩
  · obtain ⟨hdelta, hbound⟩ := r.delta_of_pos hconfidence hpos
    obtain ⟨hle, hmove, hsame⟩ := clamp_add_of_pos hrange hdelta
    exact .inl ⟨hpos, hle, hmove.trans hbound, hsame⟩

theorem actsAsSignalled_self : ActsAsSignalled r a s s := by
  have hpos := r.confidence_mem.1
  refine ⟨fun b _ => ⟨rfl, rfl⟩, fun d up _ => ⟨fun _ _ => rfl, ?_⟩, fun d => ⟨?_, ?_⟩⟩
  · split <;> exact le_refl _
  · rw [sub_self]
    positivity
  · rw [sub_self]
    positivity

section Moved

variable {old new delta : ℚ}
  (hmove : 0 < delta ∧ old ≤ new ∧ (new = old ↔ old = 1) ∨
    delta < 0 ∧ new ≤ old ∧ (new = old ↔ old = 0))

include hmove

/-- What moves down stays where it is at the lower end alone. -/
theorem le_moved_iff : old ≤ new ↔ 0 < delta ∨ old = 0 := by
  rcases hmove with ⟨hpos, hle, _⟩ | ⟨hneg, hle, hsame⟩
  · exact iff_of_true hle (.inl hpos)
  · rw [or_iff_right (not_lt.mpr hneg.le), ← hsame]
    exact ⟨le_antisymm hle, Eq.ge⟩

theorem moved_le_iff : new ≤ old ↔ delta < 0 ∨ old = 1 := by
  rcases hmove with ⟨hpos, hle, hsame⟩ | ⟨hneg, hle, _⟩
  · rw [or_iff_right (not_lt.mpr hpos.le), ← hsame]
    exact ⟨fun h => le_antisymm h hle, Eq.le⟩
  · exact iff_of_true hle (.inl hneg)

theorem moved_eq_iff : new = old ↔ 0 < delta ∧ old = 1 ∨ delta < 0 ∧ old = 0 := by
  rcases hmove with ⟨hpos, _, hsame⟩ | ⟨hneg, _, hsame⟩
  · rw [hsame, or_iff_left fun h => lt_asymm hpos h.1, and_iff_right hpos]
  · rw [hsame, or_iff_right fun h => lt_asymm hneg h.1, and_iff_right hneg]

end Moved

/-- What a signal asks of a move of trust alone. -/
theorem named_iff {after : RelationshipMemory} {trust : ℚ}
    (hget : ∀ d, after.get a d = if d = .trust then trust else s.get a d)
    (hmove : 0 < r.suggestedDelta ∧ s.get a .trust ≤ trust ∧
          (trust = s.get a .trust ↔ s.get a .trust = 1) ∨
        r.suggestedDelta < 0 ∧ trust ≤ s.get a .trust ∧
          (trust = s.get a .trust ↔ s.get a .trust = 0)) :
    (∀ dimension up, names r.signal = some (dimension, up) →
      (∀ d, d ≠ dimension → after.get a d = s.get a d) ∧
      if up then s.get a dimension ≤ after.get a dimension
      else after.get a dimension ≤ s.get a dimension) ↔
        Fits (s.get a .trust) r.suggestedDelta r.signal := by
  have htrust : after.get a .trust = trust := hget .trust
  have hother : ∀ d, d ≠ .trust → after.get a d = s.get a d := fun d hd =>
    (hget d).trans (if_neg hd)
  cases r.signal with
  | trustIncrease =>
    rw [Fits, ← le_moved_iff hmove, ← htrust]
    constructor
    · exact fun h => (h .trust true rfl).2
    · rintro h _ _ ⟨⟩
      exact ⟨hother, h⟩
  | trustDecrease =>
    rw [Fits, ← moved_le_iff hmove, ← htrust]
    constructor
    · exact fun h => (h .trust false rfl).2
    · rintro h _ _ ⟨⟩
      exact ⟨hother, h⟩
  | familiarityIncrease =>
    rw [Fits, ← moved_eq_iff hmove, ← htrust]
    constructor
    · exact fun h => (h .familiarity true rfl).1 .trust (by simp)
    · rintro h _ _ ⟨⟩
      refine ⟨fun d _ => ?_, (hother .familiarity (by simp)).ge⟩
      by_cases hd : d = .trust
      · rw [hd, h]
      · exact hother d hd
  | boundarySet => exact iff_of_true (fun _ _ h => by cases h) trivial
  | preferenceDisclosed => exact iff_of_true (fun _ _ h => by cases h) trivial
  | repairNeeded => exact iff_of_true (fun _ _ h => by cases h) trivial

/-- In range, a candidate acts as its signal says exactly if it says too little, or its delta has
the sign of a signal of trust, or trust is at the end of the range. -/
theorem applyCandidate_acts_iff (v : Conversion) (r : RelationshipMemoryCandidate)
    (c : MemoryCandidate) (roomId : String) (a : AccountId) (keepsSnapshots : Bool)
    (writing : Writing) (s : RelationshipMemory) (hc : r.Builds c)
    (hrange : 0 ≤ (s.manager.value a).trust ∧ (s.manager.value a).trust ≤ 1) :
    ActsAsSignalled r a s (s.applyCandidate v keepsSnapshots writing c roomId a) ↔
      r.confidence < 6 / 10 ∨ r.suggestedDelta = 0 ∨
        Fits (s.manager.value a).trust r.suggestedDelta r.signal := by
  rw [← or_assoc]
  by_cases hquiet : r.confidence < 6 / 10 ∨ r.suggestedDelta = 0
  · rw [applyCandidate_quiet hc hquiet]
    exact iff_of_true actsAsSignalled_self (.inl hquiet)
  rw [or_iff_right hquiet]
  obtain ⟨hvalue, hsnapshots⟩ :=
    applyCandidate_moves v roomId a keepsSnapshots writing s hc hquiet
  generalize s.applyCandidate v keepsSnapshots writing c roomId a = after at hvalue hsnapshots ⊢
  have hget : ∀ d, after.get a d =
      if d = .trust then clamp ((s.manager.value a).trust + r.delta) else s.get a d := by
    intro d
    rw [RelationshipMemory.get, hvalue, if_pos rfl, RelationshipState.get_shift_trust]
    rfl
  have hmove := clamp_add_delta hrange hquiet
  have hnamed := named_iff (r := r) hget (hmove.imp (fun h => ⟨h.1, h.2.1, h.2.2.2⟩)
    fun h => ⟨h.1, h.2.1, h.2.2.2⟩)
  refine ⟨fun h => hnamed.mp h.named, fun h => ⟨fun b hb => ⟨?_, hsnapshots b hb⟩,
    hnamed.mpr h, fun d => ?_⟩⟩
  · rw [hvalue, if_neg hb]
  · rw [hget d]
    have hpos := r.confidence_mem.1
    by_cases hd : d = .trust
    · subst hd
      rw [if_pos rfl]
      rcases hmove with ⟨_, hle, hbound, _⟩ | ⟨_, hle, hbound, _⟩
      · exact ⟨hbound, (sub_nonpos.mpr hle).trans (by positivity)⟩
      · exact ⟨(sub_nonpos.mpr hle).trans (by positivity), hbound⟩
    · rw [if_neg hd, sub_self]
      exact ⟨by positivity, by positivity⟩

end Signalled

/-! ## Two candidates -/

def trusting : RelationshipMemoryCandidate where
  signal := .trustIncrease
  evidence := "told a secret"
  suggestedDelta := 2 / 100
  confidence := 9 / 10
  confidence_mem := by norm_num

def friendly : RelationshipMemoryCandidate where
  signal := .familiarityIncrease
  evidence := "told a joke"
  suggestedDelta := 2 / 100
  confidence := 9 / 10
  confidence_mem := by norm_num

/-- A candidate that is built of a model. -/
def candidateFrom (r : RelationshipMemoryCandidate) : MemoryCandidate where
  id := "c1"
  sourceRecordIds := ["r1"]
  targetStore := .relationship
  payload := r.dump
  confidence := r.confidence
  payloadHash := "h1"

def ann : AccountId := ⟨"a", by simp⟩

theorem trusting_acts : ActsAsSignalled trusting ann {}
    (RelationshipMemory.applyCandidate .plain {} true .done (candidateFrom trusting) "" ann) :=
  (applyCandidate_acts_iff .plain trusting (candidateFrom trusting) "" ann true .done {} ⟨rfl, rfl⟩
    (RelationshipManager.run_wellFormed [] ann).trust).mpr
    (.inr (.inr (.inl (by norm_num [trusting]))))

/-- What is to make an account more familiar makes it more trusted. -/
theorem friendly_trusted :
    ¬ ∀ (v : Conversion) (r : RelationshipMemoryCandidate) (c : MemoryCandidate)
      (roomId : String) (a : AccountId) (keepsSnapshots : Bool) (writing : Writing)
      (s : RelationshipMemory), r.Builds c →
      0 ≤ (s.manager.value a).trust ∧ (s.manager.value a).trust ≤ 1 →
      ActsAsSignalled r a s (s.applyCandidate v keepsSnapshots writing c roomId a) := by
  intro h
  have hbuilds : friendly.Builds (candidateFrom friendly) := ⟨rfl, rfl⟩
  have hacts := h .plain friendly (candidateFrom friendly) "" ann true .done {} hbuilds
    (RelationshipManager.run_wellFormed [] ann).trust
  have hloud : ¬ (friendly.confidence < 6 / 10 ∨ friendly.suggestedDelta = 0) := by
    norm_num [friendly]
  have hvalue := (applyCandidate_moves .plain "" ann true .done {} hbuilds hloud).1 ann
  have hsame := (hacts.named .familiarity true rfl).1 .trust (by decide)
  rw [RelationshipMemory.get, hvalue, if_pos rfl, RelationshipState.get_shift_trust, if_pos rfl]
    at hsame
  have htrust : (({} : RelationshipMemory).manager.value ann).trust = 1 / 10 := rfl
  have hdelta : friendly.delta = 18 / 1000 := by
    norm_num [RelationshipMemoryCandidate.delta, friendly, Memory.clampDelta,
      Memory.scaleByConfidence]
  rw [RelationshipMemory.get, RelationshipState.get, htrust, hdelta] at hsame
  norm_num [clamp] at hsame

end IrisMind.Limbic
