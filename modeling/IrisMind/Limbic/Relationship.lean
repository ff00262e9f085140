import IrisMind.Lib.Machine
import IrisMind.Memory.Handlers

/-! # Relationships

The state of a relationship is kept for each account and moved on two paths:
an emotion moves trust and familiarity, and the context how much is disclosed;
a candidate moves one field. The level follows trust upwards and never back. -/
namespace IrisMind.Limbic
open IrisMind.Lib
open IrisMind.Memory (RelationshipLevel)

inductive PlutchikEmotion where
  | joy | sadness | anticipation | surprise | anger | fear | disgust | trust
deriving DecidableEq

/-- Of an emotion a relationship reads the primary one. -/
structure CompanionEmotion where
  primary : PlutchikEmotion := .joy

inductive AttachmentStyle where
  | secure | anxious | avoidant | disorganized
deriving DecidableEq

def AttachmentStyle.ofText? : String → Option AttachmentStyle
  | "secure" => some secure
  | "anxious" => some anxious
  | "avoidant" => some avoidant
  | "disorganized" => some disorganized
  | _ => none

/-- A value of a profile; a style may stand in it as itself. -/
inductive ProfileValue where
  | json (j : Json)
  | style (s : AttachmentStyle)

/-- `AttachmentStyle(value)`; no style is the `ValueError`. -/
def AttachmentStyle.ofValue? : ProfileValue → Option AttachmentStyle
  | .json (.str s) => ofText? s
  | .json _ => none
  | .style s => some s

structure RelationshipState where
  level : RelationshipLevel := .acquaintance
  trust : ℚ := 1 / 10
  familiarity : ℚ := 0
  attachmentStyle : AttachmentStyle := .secure
  interactionCount : Nat := 0
  disclosureDepth : ℚ := 0
deriving DecidableEq

/-- The trust at which a level is left; without one it is the last. -/
def trustThreshold : RelationshipLevel → Option ℚ
  | .acquaintance => some (3 / 10)
  | .familiar => some (7 / 10)
  | .bonded => none

structure Impact where
  trust : ℚ
  familiarity : ℚ

def emotionRelationshipImpact : PlutchikEmotion → Impact
  | .joy => ⟨2 / 100, 3 / 100⟩
  | .trust => ⟨4 / 100, 2 / 100⟩
  | .sadness => ⟨-1 / 100, 1 / 100⟩
  | .anger => ⟨-3 / 100, -1 / 100⟩
  | .fear => ⟨-2 / 100, 0⟩
  | .disgust => ⟨-4 / 100, -2 / 100⟩
  | .anticipation => ⟨1 / 100, 2 / 100⟩
  | .surprise => ⟨0, 1 / 100⟩

def disclosurePatterns : String → Option ℚ
  | "self_disclosure" => some (15 / 100)
  | "support_seeking" => some (10 / 100)
  | "positive_feedback" => some (5 / 100)
  | "negative_feedback" => some (3 / 100)
  | _ => none

/-- `max(0.0, min(1.0, x))` -/
def clamp (x : ℚ) : ℚ := max 0 (min 1 x)

/-- The accounts a relationship is kept for: none is the global scope, and the ids that are given
out are hexadecimal. -/
abbrev AccountId := { s : String // ∀ c ∈ s.toList, c ∈ "0123456789abcdef".toList }

namespace RelationshipState

/-- `_update_level` -/
def updateLevel (state : RelationshipState) : RelationshipState :=
  if (trustThreshold .familiar).any (· ≤ state.trust) then
    if state.level.rank < RelationshipLevel.bonded.rank then { state with level := .bonded }
    else state
  else if (trustThreshold .acquaintance).any (· ≤ state.trust) ∧
      state.level.rank < RelationshipLevel.familiar.rank then { state with level := .familiar }
  else state

/-- `_update_attachment_style` -/
def updateAttachmentStyle (state : RelationshipState)
    (userProfile : Option (Dict String ProfileValue)) : RelationshipState :=
  match userProfile.bind (·.get? "attachment_style") with
  | none => state
  | some value =>
    match AttachmentStyle.ofValue? value with
    | none => state
    | some attachmentStyle => { state with attachmentStyle }

/-- What `update` does to the state of its account. -/
def feel (state : RelationshipState) (emotion : CompanionEmotion) (contextType : Option String)
    (userProfile : Option (Dict String ProfileValue)) : RelationshipState :=
  let impact := emotionRelationshipImpact emotion.primary
  let state := { state with trust := clamp (state.trust + impact.trust)
                            familiarity := clamp (state.familiarity + impact.familiarity) }
  let state := match contextType.bind disclosurePatterns with
    | none => state
    | some disclosure =>
      { state with disclosureDepth := clamp (state.disclosureDepth + disclosure) }
  let state := { state with interactionCount := state.interactionCount + 1 }
  state.updateLevel.updateAttachmentStyle userProfile

/-- What `apply_candidate_delta` does to it, for one of its fields. -/
def shift (state : RelationshipState) (field : String) (delta : ℚ) : RelationshipState :=
  let state :=
    if field = "trust" then { state with trust := clamp (state.trust + delta) }
    else if field = "familiarity" then
      { state with familiarity := clamp (state.familiarity + delta) }
    else { state with disclosureDepth := clamp (state.disclosureDepth + delta) }
  state.updateLevel

/-! ## What holds of a state -/

/-- The first level whose threshold the trust is below. -/
def demandedLevel (trust : ℚ) : RelationshipLevel :=
  if (trustThreshold .acquaintance).all (trust < ·) then .acquaintance
  else if (trustThreshold .familiar).all (trust < ·) then .familiar
  else .bonded

structure WellFormed (state : RelationshipState) : Prop where
  trust : 0 ≤ state.trust ∧ state.trust ≤ 1
  familiarity : 0 ≤ state.familiarity ∧ state.familiarity ≤ 1
  disclosureDepth : 0 ≤ state.disclosureDepth ∧ state.disclosureDepth ≤ 1
  level : (demandedLevel state.trust).rank ≤ state.level.rank

/-- A level is never taken back. -/
def Raised (old new : RelationshipState) : Prop := old.level.rank ≤ new.level.rank

theorem clamp_mem (x : ℚ) : 0 ≤ clamp x ∧ clamp x ≤ 1 :=
  ⟨le_max_left _ _, max_le (by norm_num) (min_le_left _ _)⟩

theorem wellFormed_default : WellFormed {} := by
  refine ⟨?_, ?_, ?_, ?_⟩ <;> norm_num [demandedLevel, trustThreshold]

theorem rank_demandedLevel_le (trust : ℚ) : (demandedLevel trust).rank ≤ 2 := by
  cases demandedLevel trust <;> simp [RelationshipLevel.rank]

theorem demandedLevel_low {trust : ℚ} (h : ¬ 3 / 10 ≤ trust) :
    demandedLevel trust = .acquaintance := if_pos (by simpa [trustThreshold] using h)

theorem demandedLevel_middle {trust : ℚ} (h : ¬ 7 / 10 ≤ trust) :
    (demandedLevel trust).rank ≤ 1 := by
  unfold demandedLevel
  split
  · exact Nat.zero_le 1
  · rw [if_pos (by simpa [trustThreshold] using h)]
    exact Nat.le_refl 1

/-- The level is raised to what the trust demands, and nothing else changes. -/
theorem updateLevel_spec (state : RelationshipState) : ∃ level : RelationshipLevel,
    state.updateLevel = { state with level } ∧ state.level.rank ≤ level.rank ∧
      (demandedLevel state.trust).rank ≤ level.rank := by
  have hrank : state.level.rank ≤ 2 := by cases state.level <;> simp [RelationshipLevel.rank]
  unfold updateLevel
  by_cases hhigh : 7 / 10 ≤ state.trust
  · rw [if_pos (by simpa [trustThreshold] using hhigh)]
    split
    · exact ⟨.bonded, rfl, hrank, rank_demandedLevel_le _⟩
    · next hlevel =>
      refine ⟨state.level, rfl, Nat.le_refl _, (rank_demandedLevel_le _).trans ?_⟩
      exact Nat.not_lt.mp hlevel
  · rw [if_neg (by simpa [trustThreshold] using hhigh)]
    split
    · next hc => exact ⟨.familiar, rfl, Nat.le_of_lt hc.2, demandedLevel_middle hhigh⟩
    · next hc =>
      refine ⟨state.level, rfl, Nat.le_refl _, ?_⟩
      by_cases hlow : 3 / 10 ≤ state.trust
      · have hlevel : ¬ state.level.rank < RelationshipLevel.familiar.rank := fun hlt =>
          hc ⟨by simpa [trustThreshold] using hlow, hlt⟩
        exact (demandedLevel_middle hhigh).trans (Nat.not_lt.mp hlevel)
      · rw [demandedLevel_low hlow]
        exact Nat.zero_le _

theorem updateLevel_wellFormed {old state : RelationshipState} (hl : old.level = state.level)
    (ht : 0 ≤ state.trust ∧ state.trust ≤ 1)
    (hf : 0 ≤ state.familiarity ∧ state.familiarity ≤ 1)
    (hd : 0 ≤ state.disclosureDepth ∧ state.disclosureDepth ≤ 1) :
    state.updateLevel.WellFormed ∧ Raised old state.updateLevel := by
  obtain ⟨level, he, hup, hdemand⟩ := state.updateLevel_spec
  rw [he, Raised, hl]
  exact ⟨⟨ht, hf, hd, hdemand⟩, hup⟩

theorem updateAttachmentStyle_wellFormed {old state : RelationshipState}
    (h : state.WellFormed ∧ Raised old state)
    (userProfile : Option (Dict String ProfileValue)) :
    (state.updateAttachmentStyle userProfile).WellFormed ∧
      Raised old (state.updateAttachmentStyle userProfile) := by
  obtain ⟨⟨ht, hf, hd, hl⟩, hup⟩ := h
  unfold updateAttachmentStyle
  split
  · exact ⟨⟨ht, hf, hd, hl⟩, hup⟩
  · split <;> exact ⟨⟨ht, hf, hd, hl⟩, hup⟩

theorem feel_wellFormed {state : RelationshipState} (h : state.WellFormed)
    (emotion : CompanionEmotion) (contextType : Option String)
    (userProfile : Option (Dict String ProfileValue)) :
    (state.feel emotion contextType userProfile).WellFormed ∧
      Raised state (state.feel emotion contextType userProfile) := by
  unfold feel
  refine updateAttachmentStyle_wellFormed ?_ userProfile
  cases contextType.bind disclosurePatterns with
  | none => exact updateLevel_wellFormed rfl (clamp_mem _) (clamp_mem _) h.disclosureDepth
  | some disclosure => exact updateLevel_wellFormed rfl (clamp_mem _) (clamp_mem _) (clamp_mem _)

theorem shift_wellFormed {state : RelationshipState} (h : state.WellFormed) (field : String)
    (delta : ℚ) :
    (state.shift field delta).WellFormed ∧ Raised state (state.shift field delta) := by
  unfold shift
  by_cases ht : field = "trust"
  · rw [if_pos ht]
    exact updateLevel_wellFormed rfl (clamp_mem _) h.familiarity h.disclosureDepth
  by_cases hf : field = "familiarity"
  · rw [if_neg ht, if_pos hf]
    exact updateLevel_wellFormed rfl h.trust (clamp_mem _) h.disclosureDepth
  · rw [if_neg ht, if_neg hf]
    exact updateLevel_wellFormed rfl h.trust h.familiarity (clamp_mem _)

end RelationshipState

structure RelationshipManager where
  states : Dict String RelationshipState := .empty

namespace RelationshipManager

def key (accountId : AccountId) : String :=
  if accountId.1 = "" then "__global__" else accountId.1

/-- `_get_state`: a state is made when it is first asked for. -/
def ownState (m : RelationshipManager) (accountId : AccountId) :
    RelationshipState × RelationshipManager :=
  let (state, states) := m.states.setDefault (key accountId) {}
  (state, { states })

def update (m : RelationshipManager) (emotion : CompanionEmotion) (accountId : AccountId)
    (contextType : Option String) (userProfile : Option (Dict String ProfileValue)) :
    RelationshipState × RelationshipManager :=
  let (state, m) := m.ownState accountId
  let state := state.feel emotion contextType userProfile
  (state, { states := m.states.set (key accountId) state })

def getState (m : RelationshipManager) (accountId : AccountId) :
    RelationshipState × RelationshipManager := m.ownState accountId

def applyCandidateDelta (m : RelationshipManager) (field : String) (delta : ℚ)
    (accountId : AccountId) : Except String RelationshipState × RelationshipManager :=
  if field ∉ ["trust", "familiarity", "disclosure_depth"] then
    (.error ("unsupported relationship field: " ++ field), m)
  else
    let (state, m) := m.ownState accountId
    let state := state.shift field delta
    (.ok state, { states := m.states.set (key accountId) state })

/-! ## Calls -/

inductive Call where
  | update (emotion : CompanionEmotion) (accountId : AccountId) (contextType : Option String)
      (userProfile : Option (Dict String ProfileValue))
  | applyCandidateDelta (field : String) (delta : ℚ) (accountId : AccountId)
  | getState (accountId : AccountId)

def Call.accountId : Call → AccountId
  | .update _ accountId _ _ | .applyCandidateDelta _ _ accountId | .getState accountId => accountId

def call (m : RelationshipManager) : Call → Except String RelationshipState × RelationshipManager
  | .update emotion accountId contextType userProfile =>
    let (state, m) := m.update emotion accountId contextType userProfile
    (.ok state, m)
  | .applyCandidateDelta field delta accountId => m.applyCandidateDelta field delta accountId
  | .getState accountId =>
    let (state, m) := m.getState accountId
    (.ok state, m)

def step (m : RelationshipManager) (c : Call) : RelationshipManager := (m.call c).2

/-- What `get_state` returns. -/
def value (m : RelationshipManager) (accountId : AccountId) : RelationshipState :=
  (m.getState accountId).1

/-! ## What a call does -/

theorem key_injective {a b : AccountId} (h : key a = key b) : a = b := by
  have hglobal : ∀ c : AccountId, c.1 ≠ "__global__" := fun c hc => by
    have hunderscore := c.2 '_' (by rw [hc]; decide)
    exact absurd hunderscore (by decide)
  unfold key at h
  split at h <;> split at h
  · next ha hb => exact Subtype.ext (ha.trans hb.symm)
  · exact absurd h.symm (hglobal b)
  · exact absurd h (hglobal a)
  · exact Subtype.ext h

theorem value_eq (m : RelationshipManager) (a : AccountId) :
    m.value a = m.states.getD (key a) {} := Dict.setDefault_fst _ _ _

@[simp] theorem value_ownState (m : RelationshipManager) (a b : AccountId) :
    (m.ownState a).2.value b = m.value b := by
  rw [value_eq, value_eq]
  exact Dict.getD_setDefault _ _ _ _

/-- The manager once the state of `a` is `state`. -/
def put (m : RelationshipManager) (a : AccountId) (state : RelationshipState) :
    RelationshipManager := { states := (m.ownState a).2.states.set (key a) state }

theorem value_put (m : RelationshipManager) (a b : AccountId) (state : RelationshipState) :
    (m.put a state).value b = if b = a then state else m.value b := by
  rw [← value_ownState m a b, value_eq, value_eq, Dict.getD, put, Dict.get?_set]
  by_cases hb : b = a
  · rw [if_pos (by rw [hb]), if_pos hb, Option.getD_some]
  · rw [if_neg (fun hk => hb (key_injective hk).symm), if_neg hb, Dict.getD]

/-- The fields a candidate may move. -/
def Supported (field : String) : Prop := field ∈ ["trust", "familiarity", "disclosure_depth"]

/-- The `ValueError` of `apply_candidate_delta`. -/
def Call.Refused : Call → Prop
  | .applyCandidateDelta field _ _ => ¬ Supported field
  | _ => False

/-- What a call does to the state of its account, when it is not refused. -/
def Call.act : Call → RelationshipState → RelationshipState
  | .update emotion _ contextType userProfile, state => state.feel emotion contextType userProfile
  | .applyCandidateDelta field delta _, state => state.shift field delta
  | .getState _, state => state

theorem call_refused {m : RelationshipManager} {c : Call} (h : c.Refused) :
    ∃ error, m.call c = (.error error, m) := by
  cases c with
  | update => exact h.elim
  | applyCandidateDelta field delta a => exact ⟨_, if_pos h⟩
  | getState => exact h.elim

/-- A call returns the new state of its account and changes no other. -/
theorem call_accepted (m : RelationshipManager) {c : Call} (h : ¬ c.Refused) :
    (m.call c).1 = .ok (c.act (m.value c.accountId)) ∧ ∀ b, (m.step c).value b =
      if b = c.accountId then c.act (m.value c.accountId) else m.value b := by
  cases c with
  | update emotion a contextType userProfile => exact ⟨rfl, fun b => m.value_put a b _⟩
  | applyCandidateDelta field delta a =>
    have hcall : m.call (.applyCandidateDelta field delta a) =
        (.ok ((m.value a).shift field delta), m.put a ((m.value a).shift field delta)) := if_neg h
    rw [step, hcall]
    exact ⟨rfl, fun b => m.value_put a b _⟩
  | getState a =>
    refine ⟨rfl, fun b => (m.value_ownState a b).trans ?_⟩
    by_cases hb : b = a
    · rw [hb]
      exact (if_pos rfl).symm
    · exact (if_neg hb).symm

theorem value_step_other (m : RelationshipManager) {c : Call} {b : AccountId}
    (hb : b ≠ c.accountId) : (m.step c).value b = m.value b := by
  by_cases hc : c.Refused
  · obtain ⟨error, he⟩ := call_refused (m := m) hc
    rw [step, he]
  · rw [(m.call_accepted hc).2 b, if_neg hb]

/-- What every call keeps: each state is well formed, and no level is taken back. -/
theorem step_wellFormed {m : RelationshipManager} (h : ∀ a, (m.value a).WellFormed) (c : Call)
    (a : AccountId) : ((m.step c).value a).WellFormed ∧
      RelationshipState.Raised (m.value a) ((m.step c).value a) := by
  by_cases hc : c.Refused
  · obtain ⟨error, he⟩ := call_refused (m := m) hc
    rw [step, he]
    exact ⟨h a, Nat.le_refl _⟩
  · rw [(m.call_accepted hc).2 a]
    split
    · next ha =>
      subst ha
      cases c with
      | update => exact RelationshipState.feel_wellFormed (h _) _ _ _
      | applyCandidateDelta => exact RelationshipState.shift_wellFormed (h _) _ _
      | getState => exact ⟨h _, Nat.le_refl _⟩
    · exact ⟨h a, Nat.le_refl _⟩

theorem run_wellFormed (cs : List Call) (a : AccountId) :
    ((Machine.run step ({} : RelationshipManager) cs).value a).WellFormed :=
  Machine.run_inv (fun m : RelationshipManager => ∀ a, (m.value a).WellFormed)
    (fun _ c h a => (step_wellFormed h c a).1)
    (fun a => (value_eq {} a).symm ▸ RelationshipState.wellFormed_default) cs a

theorem run_raised {m : RelationshipManager} (h : ∀ a, (m.value a).WellFormed) (cs : List Call)
    (a : AccountId) : RelationshipState.Raised (m.value a) ((Machine.run step m cs).value a) := by
  induction cs generalizing m with
  | nil => exact Nat.le_refl _
  | cons c cs ih =>
    exact (step_wellFormed h c a).2.trans (ih fun b => (step_wellFormed h c b).1)

/-- A call that leaves the state of its account as it is. -/
def Call.Quiet (c : Call) : Prop := c.Refused ∨ ∃ a, c = .getState a

theorem value_step_quiet (m : RelationshipManager) {c : Call} (hc : c.Quiet) (b : AccountId) :
    (m.step c).value b = m.value b := by
  rcases hc with hc | ⟨a, rfl⟩
  · obtain ⟨error, he⟩ := call_refused (m := m) hc
    rw [step, he]
  · exact m.value_ownState a b

theorem run_value_quiet {a : AccountId} {cs : List Call}
    (h : ∀ c ∈ cs, c.accountId = a → c.Quiet) (m : RelationshipManager) :
    (Machine.run step m cs).value a = m.value a := by
  induction cs generalizing m with
  | nil => rfl
  | cons c cs ih =>
    rw [Machine.run_cons, ih (fun d hd => h d (List.mem_cons_of_mem c hd))]
    by_cases ha : c.accountId = a
    · exact m.value_step_quiet (h c List.mem_cons_self ha) a
    · exact m.value_step_other (Ne.symm ha)

/-- Whatever is called: every state is in range and its level is what its trust demands at least,
no level is ever taken back, a call changes no other account, a refused one nothing, and a state
is the one the last call that changed it returned. -/
theorem relationships_hold (cs : List Call) :
    let m := Machine.run step ({} : RelationshipManager) cs
    (∀ a, (m.value a).WellFormed) ∧
    (∀ js a, js <+: cs →
      RelationshipState.Raised ((Machine.run step {} js).value a) (m.value a)) ∧
    (∀ c a, a ≠ c.accountId → (m.step c).value a = m.value a) ∧
    (∀ c, c.Refused → ∃ error, m.call c = (.error error, m)) ∧
    (∀ a, (∀ c ∈ cs, c.accountId = a → c.Quiet) → m.value a = {}) ∧
    ∀ js c ks, cs = js ++ c :: ks → ¬ c.Refused →
      (∀ d ∈ ks, d.accountId = c.accountId → d.Quiet) →
      ((Machine.run step {} js).call c).1 = .ok (m.value c.accountId) := by
  refine ⟨run_wellFormed cs, fun js a hp => ?_, fun c a => value_step_other _,
    fun c => call_refused, fun a h => run_value_quiet h {}, fun js c ks he hc hq => ?_⟩
  · obtain ⟨ks, rfl⟩ := hp
    rw [Machine.run_append]
    exact run_raised (run_wellFormed js) ks a
  · have haccepted := call_accepted (Machine.run step {} js) hc
    rw [he, Machine.run_append, Machine.run_cons, run_value_quiet hq, haccepted.1, haccepted.2,
      if_pos rfl]

/-! ## The part a candidate sees -/

/-- The state as the handler of candidates knows it. -/
def seen (state : RelationshipState) : Memory.RelationshipState :=
  { level := state.level, trust := state.trust, familiarity := state.familiarity }

def fieldText : Memory.RelationshipField → String
  | .trust => "trust"
  | .familiarity => "familiarity"

end RelationshipManager

end IrisMind.Limbic
