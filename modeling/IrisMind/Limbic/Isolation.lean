import IrisMind.Limbic.MoodRange

/-! # What a relationship depends on

The mood is shared by all accounts and colours every emotion, but which emotion
is the primary one does not depend on it. So the relationship with an account
depends on what came from this account alone: it is the fold of that, as if
there were no others. -/
namespace IrisMind.Limbic
open IrisMind.Lib IrisMind.Accounts

namespace EmotionGenerator

/-- The mood has no say in which emotion is the primary one. -/
theorem generate_primary (d : AppraisalDimensions) (mood mood' : Option Mood) :
    (generate d mood).primary = (generate d mood').primary := by
  unfold generate
  cases sortedEmotions d with
  | nil => rfl
  | cons primary rest =>
    dsimp only
    split <;> rfl

end EmotionGenerator

/-- An appraisal reads nothing of a plain context. -/
theorem appraise_plain {a : Appraiser} {text : String} {ctx ctx' : Context} {profile : Profile}
    (h : ctx.Plain) (h' : ctx'.Plain) :
    appraise a text ctx profile = appraise a text ctx' profile := by
  have hflag : ∀ key ∈ readKeys, ctx.flag key = ctx'.flag key := fun key hkey => by
    rw [h.flag key hkey, h'.flag key hkey]
  have hprimary : a.appraisePrimary text ctx = a.appraisePrimary text ctx' := by
    simp only [Appraiser.appraisePrimary, h.scoreCopingPotential, h'.scoreCopingPotential,
      scoreNovelty, scoreGoalRelevance, scoreAgency,
      hflag "is_new_topic" (by simp [readKeys]), hflag "topic_changed" (by simp [readKeys]),
      hflag "is_direct_question" (by simp [readKeys]),
      hflag "user_is_agent" (by simp [readKeys])]
  rw [appraise, hprimary]
  rfl

/-- What came from an account: a text, with the profile of the account when it has one. -/
structure Said where
  text : String
  userProfile : Option Profile

def LimbicEvent.said? (accountId : AccountId) (i : Moment × LimbicEvent) : Option Said :=
  (i.2.request? i.1).bind fun q =>
    if q.accountId = accountId then some { text := q.text, userProfile := q.userProfile } else none

/-- What becomes of a relationship by what came from its account, and by nothing else. -/
def RelationshipState.hear (a : Appraiser) (state : RelationshipState) (said : Said) :
    RelationshipState :=
  let profile := (said.userProfile.filter (!·.entries.isEmpty)).getD state.profile
  match appraise a said.text .empty profile with
  | none => state
  | some d =>
    state.feel (EmotionGenerator.generate d none).toCompanionEmotion (detectContextType said.text)
      (some profile)

variable {out : Outside} {h : LimbicHandler} {i : Moment × LimbicEvent}

theorem profileOf_eq (o : LimbicOrchestrator) (userProfile : Option Profile)
    (accountId : AccountId) : (o.profileOf userProfile accountId).1 =
      (userProfile.filter (!·.entries.isEmpty)).getD (o.relationship.value accountId).profile := by
  unfold LimbicOrchestrator.profileOf
  cases userProfile.filter (!·.entries.isEmpty) with
  | none => rfl
  | some profile => rfl

/-- As long as the exponential does not overflow, nothing but the appraisal can raise. -/
theorem process_eq_none {o : LimbicOrchestrator} {now : Moment} {q : Request}
    (hexp : out.exp.Decays) (hread : o.mood.lastUpdate ≤ now.readAt)
    (hupdated : now.readAt ≤ now.updatedAt)
    (h : (o.process out now q.text q.context q.userProfile q.accountId).1 = none) :
    appraise out.appraiser q.text (enrichContext now q.context q.accountId)
      (o.profileOf q.userProfile q.accountId).1 = none := by
  have hmood : (o.profileOf q.userProfile q.accountId).2.mood = o.mood :=
    LimbicOrchestrator.profileOf_mood
  obtain ⟨decay, hdecay, -⟩ := hexp.computeDecay (sub_nonneg.mpr hread)
  obtain ⟨decay', hdecay', -⟩ := hexp.computeDecay (sub_nonneg.mpr (hread.trans hupdated))
  unfold LimbicOrchestrator.process at h
  rcases hprofile : o.profileOf q.userProfile q.accountId with ⟨profile, own⟩
  rw [hprofile] at h hmood
  dsimp only at h hmood ⊢
  rw [hmood] at h
  cases happraised : appraise out.appraiser q.text (enrichContext now q.context q.accountId)
      profile with
  | none => rfl
  | some d =>
    simp only [happraised, MoodDynamics.getMood, hdecay, Option.map_some, MoodDynamics.update,
      hdecay'] at h
    cases h

/-- One step: the account that is heard, and no other. -/
theorem value_step (hexp : out.exp.Decays) (hread : h.orchestrator.mood.lastUpdate ≤ i.1.readAt)
    (hupdated : i.1.readAt ≤ i.1.updatedAt) (a : AccountId) :
    (h.step out i).orchestrator.relationship.value a =
      (LimbicEvent.said? a i).toList.foldl (RelationshipState.hear out.appraiser)
        (h.orchestrator.relationship.value a) := by
  have hstep := LimbicHandler.orchestrator_step out h i
  cases hq : i.2.request? i.1 with
  | none =>
    simp only [hq] at hstep
    simp [hstep, LimbicEvent.said?, hq]
  | some q =>
    simp only [hq] at hstep
    have hsaid : LimbicEvent.said? a i =
        if q.accountId = a then some ⟨q.text, q.userProfile⟩ else none := by
      simp [LimbicEvent.said?, hq]
    have hplain : (enrichContext i.1 q.context q.accountId).Plain :=
      enrichContext_plain (request_plain hq) _ _
    have hprofile := profileOf_eq h.orchestrator q.userProfile q.accountId
    rcases h.orchestrator.process_cases out i.1 q.text q.context q.userProfile q.accountId with
      ⟨hnone, hun⟩ | ⟨r, -, hp⟩
    · have happraised := process_eq_none hexp hread hupdated hnone
      rw [appraise_plain hplain Context.plain_empty, hprofile] at happraised
      rw [hstep, hun.relationship, hsaid]
      by_cases ha : q.accountId = a
      · subst ha
        simp [RelationshipState.hear, happraised]
      · simp [ha]
    · have happraised := hp.appraised
      rw [appraise_plain hplain Context.plain_empty, hprofile] at happraised
      obtain ⟨current, -, hemotion⟩ := hp.emotion
      rw [hstep, hp.relationship a, hsaid]
      by_cases ha : q.accountId = a
      · subst ha
        have hprimary : r.emotion.toCompanionEmotion =
            (EmotionGenerator.generate r.appraisal none).toCompanionEmotion := by
          rw [hemotion]
          exact congrArg CompanionEmotion.mk (EmotionGenerator.generate_primary _ _ _)
        simp only [RelationshipState.hear, if_pos, Option.toList_some, List.foldl_cons,
          List.foldl_nil, happraised]
        rw [hp.felt, hprimary, hprofile]
      · simp [ha, Ne.symm ha]

theorem lastUpdate_step {t : ℚ} (hclock : h.orchestrator.mood.lastUpdate ≤ t)
    (hread : t ≤ i.1.readAt) (hupdated : i.1.readAt ≤ i.1.updatedAt) :
    (h.step out i).orchestrator.mood.lastUpdate ≤ i.1.updatedAt := by
  have hstep := LimbicHandler.orchestrator_step out h i
  cases hq : i.2.request? i.1 with
  | none =>
    simp only [hq] at hstep
    rw [hstep]
    exact hclock.trans (hread.trans hupdated)
  | some q =>
    simp only [hq] at hstep
    rcases h.orchestrator.process_cases out i.1 q.text q.context q.userProfile q.accountId with
      ⟨-, hun⟩ | ⟨r, -, hp⟩
    · rw [← hstep] at hun
      rcases hun.clock with he | he
      · exact he ▸ hclock.trans (hread.trans hupdated)
      · exact he.le
    · rw [← hstep] at hp
      rw [(MoodDynamics.update_some hp.mood)]

/-- Whatever all the others say and do in between, whatever the mood and the rooms are: the
relationship with an account is what came from this account has made of it. -/
theorem relationship_isolated (out : Outside) (hexp : out.exp.Decays) (startedAt : ℚ)
    (is : List (Moment × LimbicEvent)) (hclock : Ticking startedAt is) (a : AccountId) :
    (Machine.run (LimbicHandler.step out) (LimbicHandler.fresh startedAt)
        is).orchestrator.relationship.value a =
      (is.filterMap (LimbicEvent.said? a)).foldl (RelationshipState.hear out.appraiser) {} := by
  have hrun : ∀ (t : ℚ) (h : LimbicHandler), h.orchestrator.mood.lastUpdate ≤ t → Ticking t is →
      (Machine.run (LimbicHandler.step out) h is).orchestrator.relationship.value a =
        (is.filterMap (LimbicEvent.said? a)).foldl (RelationshipState.hear out.appraiser)
          (h.orchestrator.relationship.value a) := by
    clear hclock
    induction is with
    | nil => intro t h _ _; rfl
    | cons i is ih =>
      intro t h hlast ⟨hread, hupdated, hrest⟩
      rw [Machine.run_cons, ih _ _ (lastUpdate_step hlast hread hupdated) hrest,
        value_step hexp (hlast.trans hread) hupdated]
      cases hsaid : LimbicEvent.said? a i <;> simp [hsaid]
  exact hrun startedAt (LimbicHandler.fresh startedAt) (le_refl _) hclock

theorem relationship_isolated_thanked :
    (Machine.run (LimbicHandler.step still) (LimbicHandler.fresh 0)
        [thanked]).orchestrator.relationship.value ⟨"a1", by simp⟩ =
      ([thanked].filterMap (LimbicEvent.said? ⟨"a1", by simp⟩)).foldl
        (RelationshipState.hear still.appraiser) {} :=
  relationship_isolated still still_decays 0 [thanked] thanked_ticking _

end IrisMind.Limbic
