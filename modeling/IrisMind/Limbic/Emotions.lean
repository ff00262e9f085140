import IrisMind.Limbic.Pipeline

/-! # Which emotions are ever felt

Of the context an appraisal would read the handler says nothing, so that novelty
and coping are always the same. What is left to vary, the text and the profile,
is not enough for five of the eight emotions: some other one always has more.
Sadness, anticipation and trust are left, each with a greatest intensity, and
these keep the mood in a narrow box. -/
namespace IrisMind.Limbic
open IrisMind.Lib IrisMind.Accounts
open IrisMind.Lib.Smoothing (Share Within)

/-! ## Sound profiles -/

/-- Where a profile says a number for what an appraisal reads of it, it is between 0 and 1. -/
structure Profile.Sound (profile : Profile) : Prop where
  trustLevel : ∀ x, (profile.getD "trust_level" (.json (.num (5 / 10)))).number? = some x →
    0 ≤ x ∧ x ≤ 1
  familiarity : ∀ x, (profile.getD "familiarity" (.json (.num 0))).number? = some x →
    0 ≤ x ∧ x ≤ 1

/-- The profiles of all accounts are sound. -/
def Moment.Sound (now : Moment) : Prop := ∀ accountId account,
  now.account accountId = some account → (Profile.ofAccount account.profile).Sound

theorem RelationshipState.WellFormed.sound {state : RelationshipState} (h : state.WellFormed) :
    state.profile.Sound := by
  have hread : ∀ key default, state.profile.getD key default =
      if key = "trust_level" then .json (.num state.trust)
      else if key = "familiarity" then .json (.num state.familiarity)
      else state.profile.getD key default := by
    intro key default
    by_cases ht : key = "trust_level"
    · subst ht
      simp [RelationshipState.profile, Dict.getD, Dict.get?_set]
    · by_cases hf : key = "familiarity"
      · subst hf
        simp [RelationshipState.profile, Dict.getD, Dict.get?_set]
      · rw [if_neg ht, if_neg hf]
  constructor
  · intro x hx
    rw [hread, if_pos rfl] at hx
    cases hx
    exact h.trust
  · intro x hx
    rw [hread, if_neg (by decide), if_pos rfl] at hx
    cases hx
    exact h.familiarity

theorem profileOf_sound {o : LimbicOrchestrator} {userProfile : Option Profile}
    {accountId : AccountId} (ho : (o.relationship.value accountId).WellFormed)
    (hu : ∀ profile, userProfile = some profile → profile.Sound) :
    (o.profileOf userProfile accountId).1.Sound := by
  unfold LimbicOrchestrator.profileOf
  split
  · next profile hprofile => exact hu profile (Option.filter_eq_some_iff.mp hprofile).1
  · exact ho.sound

/-- What is appraised with a plain context and a sound profile is typical. -/
theorem typical_of_appraise {a : Appraiser} {text : String} {ctx : Context} {profile : Profile}
    {d : AppraisalDimensions} (hctx : ctx.Plain) (hprofile : profile.Sound)
    (h : appraise a text ctx profile = some d) :
    ∃ trust familiarity, (0 ≤ trust ∧ trust ≤ 1) ∧ (0 ≤ familiarity ∧ familiarity ≤ 1) ∧
      d.Typical trust familiarity := by
  obtain ⟨primary, hprimary, h⟩ := Option.bind_eq_some_iff.mp h
  obtain ⟨secondary, hsecondary, h⟩ := Option.bind_eq_some_iff.mp h
  cases h
  obtain ⟨trust, htrust, hrest⟩ := Option.bind_eq_some_iff.mp hsecondary
  obtain ⟨familiarity, hfamiliarity, -⟩ := Option.bind_eq_some_iff.mp hrest
  have ht := hprofile.trustLevel trust htrust
  have hf := hprofile.familiarity familiarity hfamiliarity
  exact ⟨trust, familiarity, ht, hf,
    typical_of_appraised hctx ⟨htrust, ht⟩ ⟨hfamiliarity, hf⟩ hprimary hsecondary⟩

/-! ## The emotions that are left -/

/-- The greatest intensity of the emotions that are left. -/
def peak : PlutchikEmotion → Option ℚ
  | .sadness => some (810 / 1000)
  | .anticipation => some (640 / 1000)
  | .trust => some (754 / 1000)
  | _ => none

namespace AppraisalDimensions.Typical

variable {d : AppraisalDimensions} {trust familiarity : ℚ} {primary : PlutchikEmotion}

/-- Only sadness, anticipation and trust are ever the greatest. -/
theorem peak_of_greatest (h : d.Typical trust familiarity) (ht : 0 ≤ trust ∧ trust ≤ 1)
    (hf : 0 ≤ familiarity ∧ familiarity ≤ 1)
    (hmax : ∀ emotion, EmotionGenerator.computeEmotionScores d emotion ≤
      EmotionGenerator.computeEmotionScores d primary) :
    ∃ top, peak primary = some top ∧ EmotionGenerator.computeEmotionScores d primary ≤ top := by
  obtain ⟨⟨hu0, hu1⟩, hcontrol, hresponsibility, hcertainty, heffort, ha0, ha1⟩ := h
  obtain ⟨ht0, ht1⟩ := ht
  obtain ⟨hf0, hf1⟩ := hf
  have hanticipation := hmax .anticipation
  have htrust := hmax .trust
  have hsadness := hmax .sadness
  rw [EmotionGenerator.computeEmotionScores_eq] at hanticipation htrust hsadness ⊢
  rw [hcontrol, hresponsibility, hcertainty, heffort] at *
  cases primary with
  | sadness | anticipation | trust => exact ⟨_, rfl, by dsimp only; linarith⟩
  | joy | surprise | anger | fear | disgust => dsimp only at *; exfalso; linarith

theorem anticipation_score (h : d.Typical trust familiarity) :
    44 / 100 ≤ EmotionGenerator.computeEmotionScores d .anticipation := by
  rw [EmotionGenerator.computeEmotionScores_eq]
  dsimp only
  linarith [h.effort, h.attention.1]

/-- Of a typical appraisal an emotion comes that is left, and never the mood alone. -/
theorem generate (h : d.Typical trust familiarity) (ht : 0 ≤ trust ∧ trust ≤ 1)
    (hf : 0 ≤ familiarity ∧ familiarity ≤ 1) (mood : Mood) :
    ∃ primary top, peak primary = some top ∧
      (EmotionGenerator.generate d (some mood)).primary = primary ∧
      Within (44 / 100) top (EmotionGenerator.generate d (some mood)).intensity ∧
      (EmotionGenerator.generate d (some mood)).toVad =
        ⟨EmotionGenerator.tinted (plutchikVad primary).valence mood.valence,
         EmotionGenerator.tinted (plutchikVad primary).arousal mood.arousal,
         EmotionGenerator.tinted (plutchikVad primary).dominance mood.dominance⟩ := by
  have hleast := h.anticipation_score
  rcases EmotionGenerator.generate_cases d (some mood) with ⟨hnone, -⟩ | hsome
  · linarith [hnone .anticipation]
  · obtain ⟨primary, hprimary, -, hmax, hintensity, hvad⟩ := hsome
    obtain ⟨top, htop, hscore⟩ := h.peak_of_greatest ht hf hmax
    refine ⟨primary, top, htop, hprimary, ?_, hvad⟩
    rw [hintensity]
    exact ⟨le_min (by norm_num) (hleast.trans (hmax _)), (min_le_right _ _).trans hscore⟩

end AppraisalDimensions.Typical

/-- What a result says as long as all profiles are sound. -/
structure EmotionResult.Narrow (r : EmotionResult) : Prop where
  emotion : ∃ top, peak r.emotion.primary = some top ∧
    Within (44 / 100) top r.emotion.intensity
  needed : r.reappraisalNeeded = true ↔
    7 / 10 < r.appraisal.unpleasantness ∧ r.appraisal.control < 3 / 10
  suggestion : r.reappraisalSuggestion =
    if r.reappraisalNeeded then "状況を客観的に再評価してみる" else ""

/-- The emotions that are left do the relationship no lasting harm. -/
theorem peak_impact {emotion : PlutchikEmotion} {top : ℚ} (h : peak emotion = some top) :
    0 < (emotionRelationshipImpact emotion).familiarity ∧
      -1 / 100 ≤ (emotionRelationshipImpact emotion).trust := by
  cases emotion <;> cases h <;> norm_num [emotionRelationshipImpact]

theorem narrow_of_peak {r : EmotionResult} {top : ℚ} (hpeak : peak r.emotion.primary = some top)
    (hintensity : Within (44 / 100) top r.emotion.intensity)
    (hneeded : r.reappraisalNeeded = checkReappraisalNeeded r.appraisal r.emotion)
    (hsuggestion : r.reappraisalSuggestion =
      if r.reappraisalNeeded then suggestReappraisal r.emotion else "") : r.Narrow := by
  refine ⟨⟨top, hpeak, hintensity⟩, ?_, ?_⟩
  · rw [hneeded, checkReappraisalNeeded]
    cases hprimary : r.emotion.primary <;> rw [hprimary] at hpeak <;> cases hpeak <;> simp
  · rw [hsuggestion, suggestReappraisal]
    cases hprimary : r.emotion.primary <;> rw [hprimary] at hpeak <;> cases hpeak

/-! ## One step -/

variable {out : Outside} {h : LimbicHandler} {i : Moment × LimbicEvent}

/-- What every event keeps, as long as the profiles are sound. -/
structure LimbicHandler.Kept (h : LimbicHandler) : Prop where
  relationships : ∀ a, (h.orchestrator.relationship.value a).WellFormed
  latest : ∀ r, h.orchestrator.state.latest = some r → r.Narrow

theorem request_sound {q : Request} (hsound : i.1.Sound) (hq : i.2.request? i.1 = some q) :
    ∀ profile, q.userProfile = some profile → profile.Sound := by
  obtain ⟨now, event⟩ := i
  intro profile hprofile
  cases event with
  | message event =>
    simp only [LimbicEvent.request?] at hq
    split at hq
    · cases hq
    · cases hq
      obtain ⟨account, haccount, rfl⟩ := Option.map_eq_some_iff.mp hprofile
      exact hsound _ account haccount
  | roomJoinedBatch => cases hq
  | roomJoined event | roomLeft event =>
    cases hq
    cases hprofile

/-- What was processed for the handler came of a typical appraisal. -/
theorem Processed.typical {o o' : LimbicOrchestrator} {q : Request} {r : EmotionResult}
    (ho : ∀ a, (o.relationship.value a).WellFormed) (hsound : i.1.Sound)
    (hq : i.2.request? i.1 = some q)
    (hp : Processed out o i.1 q.text q.context q.userProfile q.accountId r o') :
    ∃ trust familiarity, (0 ≤ trust ∧ trust ≤ 1) ∧ (0 ≤ familiarity ∧ familiarity ≤ 1) ∧
      r.appraisal.Typical trust familiarity :=
  typical_of_appraise (enrichContext_plain (request_plain hq) _ _)
    (profileOf_sound (ho _) (request_sound hsound hq)) hp.appraised

theorem Processed.narrow {o o' : LimbicOrchestrator} {q : Request} {r : EmotionResult}
    (ho : ∀ a, (o.relationship.value a).WellFormed) (hsound : i.1.Sound)
    (hq : i.2.request? i.1 = some q)
    (hp : Processed out o i.1 q.text q.context q.userProfile q.accountId r o') : r.Narrow := by
  obtain ⟨trust, familiarity, ht, hf, htypical⟩ := hp.typical ho hsound hq
  obtain ⟨mood, -, hemotion⟩ := hp.emotion
  obtain ⟨primary, top, hpeak, hprimary, hintensity, -⟩ := htypical.generate ht hf mood
  rw [← hemotion] at hprimary hintensity
  exact narrow_of_peak (hprimary ▸ hpeak) hintensity hp.needed hp.suggestion

theorem Processed.wellFormed {o o' : LimbicOrchestrator} {now : Moment} {text : String}
    {context : Context} {userProfile : Option Profile} {accountId : AccountId}
    {r : EmotionResult} (ho : ∀ a, (o.relationship.value a).WellFormed)
    (hp : Processed out o now text context userProfile accountId r o') (a : AccountId) :
    (o'.relationship.value a).WellFormed := by
  rw [hp.relationship a]
  split
  · rw [hp.felt]
    exact (RelationshipState.feel_wellFormed (ho _) _ _ _).1
  · exact ho a

theorem LimbicHandler.Kept.step (out : Outside) (hk : h.Kept) (hsound : i.1.Sound) :
    (h.step out i).Kept := by
  have hstep := LimbicHandler.orchestrator_step out h i
  cases hq : i.2.request? i.1 with
  | none =>
    simp only [hq] at hstep
    refine ⟨fun a => ?_, fun r hr => hk.latest r ?_⟩
    · rw [hstep]
      exact hk.relationships a
    · rwa [hstep] at hr
  | some q =>
    simp only [hq] at hstep
    rcases h.orchestrator.process_cases out i.1 q.text q.context q.userProfile q.accountId with
      ⟨-, hun⟩ | ⟨r, -, hp⟩
    · refine ⟨fun a => ?_, fun r hr => hk.latest r ?_⟩
      · rw [hstep, hun.relationship]
        exact hk.relationships a
      · rwa [hstep, hun.state] at hr
    · refine ⟨fun a => ?_, fun r' hr => ?_⟩
      · rw [hstep]
        exact hp.wellFormed hk.relationships a
      · rw [hstep, hp.state] at hr
        cases hr
        exact hp.narrow hk.relationships hsound hq

end IrisMind.Limbic
