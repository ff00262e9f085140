import IrisMind.Limbic.Orchestrator

/-! # What an event does to the limbic state

An event that is processed leaves one result: the mood and the relationship with
its account are moved, and the result is the latest and the last of the history.
One that is not leaves everything but the time of the last update. -/
namespace IrisMind.Limbic
open IrisMind.Lib IrisMind.Accounts

/-! ## One call of the pipeline -/

/-- What a call of `process` that returns `r` has done. -/
structure Processed (out : Outside) (o : LimbicOrchestrator) (now : Moment) (text : String)
    (context : Context) (userProfile : Option Profile) (accountId : AccountId)
    (r : EmotionResult) (o' : LimbicOrchestrator) : Prop where
  appraised : appraise out.appraiser text (enrichContext now context accountId)
    (o.profileOf userProfile accountId).1 = some r.appraisal
  emotion : ∃ currentMood, o.mood.getMood out.exp now.readAt = some currentMood ∧
    r.emotion = EmotionGenerator.generate r.appraisal (some currentMood)
  mood : o.mood.update out.exp now.updatedAt r.emotion = (some r.mood, o'.mood)
  felt : r.relationship = (o.relationship.value accountId).feel r.emotion.toCompanionEmotion
    (detectContextType text) (some (o.profileOf userProfile accountId).1)
  relationship : ∀ b, o'.relationship.value b =
    if b = accountId then r.relationship else o.relationship.value b
  needed : r.reappraisalNeeded = checkReappraisalNeeded r.appraisal r.emotion
  suggestion : r.reappraisalSuggestion =
    if r.reappraisalNeeded then suggestReappraisal r.emotion else ""
  state : o'.state = o.state.update r

/-- What is left when nothing was processed. -/
structure Unprocessed (now : Moment) (o o' : LimbicOrchestrator) : Prop where
  state : o'.state = o.state
  relationship : ∀ b, o'.relationship.value b = o.relationship.value b
  mood : o'.mood.mood = o.mood.mood
  clock : o'.mood.lastUpdate = o.mood.lastUpdate ∨ o'.mood.lastUpdate = now.updatedAt

theorem Unprocessed.refl (now : Moment) (o : LimbicOrchestrator) : Unprocessed now o o :=
  ⟨rfl, fun _ => rfl, rfl, .inl rfl⟩

namespace LimbicOrchestrator

variable {out : Outside} {o : LimbicOrchestrator} {now : Moment} {text : String}
  {context : Context} {userProfile : Option Profile} {accountId : AccountId}

theorem profileOf_unprocessed : Unprocessed now o (o.profileOf userProfile accountId).2 := by
  unfold profileOf
  split
  · exact .refl now o
  · exact ⟨rfl, fun b => o.relationship.value_ownState accountId b, rfl, .inl rfl⟩

/-- To ask for a profile moves neither the mood nor its time. -/
theorem profileOf_mood : (o.profileOf userProfile accountId).2.mood = o.mood := by
  unfold profileOf
  split <;> rfl

theorem update_relationship (m : RelationshipManager) (accountId : AccountId)
    (emotion : CompanionEmotion) (contextType : Option String) (profile : Option Profile) :
    (m.update emotion accountId contextType profile).1 =
        (m.value accountId).feel emotion contextType profile ∧
      ∀ b, (m.update emotion accountId contextType profile).2.value b =
        if b = accountId then (m.value accountId).feel emotion contextType profile
        else m.value b := by
  have h := m.call_accepted (c := .update emotion accountId contextType profile) id
  exact ⟨Except.ok.inj h.1, h.2⟩

theorem process_cases (out : Outside) (o : LimbicOrchestrator) (now : Moment) (text : String)
    (context : Context) (userProfile : Option Profile) (accountId : AccountId) :
    (o.process out now text context userProfile accountId).1 = none ∧
        Unprocessed now o (o.process out now text context userProfile accountId).2 ∨
      ∃ r, (o.process out now text context userProfile accountId).1 = some r ∧
        Processed out o now text context userProfile accountId r
          (o.process out now text context userProfile accountId).2 := by
  have hown : Unprocessed now o (o.profileOf userProfile accountId).2 := profileOf_unprocessed
  have hmood : (o.profileOf userProfile accountId).2.mood = o.mood := profileOf_mood
  unfold process
  rcases hprofile : o.profileOf userProfile accountId with ⟨profile, own⟩
  rw [hprofile] at hown hmood
  dsimp only at hown hmood ⊢
  rw [hmood]
  split
  · next appraisal currentMood happraised hcurrent =>
    split
    · next mood hupdate =>
      simp only [MoodDynamics.update] at hupdate
      split at hupdate
      · cases hupdate
        exact .inl ⟨rfl, hown.state, hown.relationship, rfl, .inr rfl⟩
      · cases hupdate
    · next updatedMood mood hupdate =>
      have hfelt := update_relationship own.relationship accountId
        (EmotionGenerator.generate appraisal (some currentMood)).toCompanionEmotion
        (detectContextType text) (some profile)
      rw [hown.relationship accountId] at hfelt
      refine .inr ⟨_, rfl, ?_, ⟨currentMood, hcurrent, rfl⟩, ?_, ?_, ?_, rfl, rfl, ?_⟩
      · rw [hprofile]
        exact happraised
      · exact hupdate
      · rw [hprofile]
        exact hfelt.1
      · intro b
        rw [← hown.relationship b]
        exact (hfelt.2 b).trans (by rw [← hfelt.1])
      · exact congrArg (EmotionStateManager.update · _) hown.state
  · exact .inl ⟨rfl, hown⟩

end LimbicOrchestrator

/-! ## What the handler asks for -/

/-- The arguments of `process`, with what triggers the snapshot after it. -/
structure Request where
  text : String
  context : Context
  userProfile : Option Profile
  accountId : AccountId
  trigger : String

/-- What the handler makes of an event. -/
def LimbicEvent.request? (now : Moment) : LimbicEvent → Option Request
  | .message event =>
    if event.direction ≠ "request" ∨ event.content = "" then none
    else some
      { text := event.content
        context := LimbicHandler.messageContext now event
        userProfile := (now.account event.accountId).map fun account =>
          Profile.ofAccount account.profile
        accountId := event.accountId
        trigger := "message_processed" }
  | .roomJoined event => some
      { text := "[system] " ++ event.displayName ++ " が入室しました"
        context := LimbicHandler.changeContext "room_joined" event
        userProfile := none
        accountId := event.accountId
        trigger := "room_joined" }
  | .roomLeft event => some
      { text := "[system] " ++ event.displayName ++ " が退室しました"
        context := LimbicHandler.changeContext "room_left" event
        userProfile := none
        accountId := event.accountId
        trigger := "room_left" }
  | .roomJoinedBatch => none

namespace LimbicHandler

theorem orchestrator_run (out : Outside) (h : LimbicHandler) (now : Moment) (text : String)
    (context : Context) (userProfile : Option Profile) (accountId : AccountId)
    (trigger : String) :
    (h.run out now text context userProfile accountId trigger).orchestrator =
      (h.orchestrator.process out now text context userProfile accountId).2 := by
  unfold run
  dsimp only
  split <;> rfl

/-- A step runs the pipeline once for an event that asks for it, and not at all for others. -/
theorem orchestrator_step (out : Outside) (h : LimbicHandler) (i : Moment × LimbicEvent) :
    (h.step out i).orchestrator =
      match i.2.request? i.1 with
      | none => h.orchestrator
      | some q =>
        (h.orchestrator.process out i.1 q.text q.context q.userProfile q.accountId).2 := by
  obtain ⟨now, event⟩ := i
  cases event with
  | message event =>
    simp only [step, onMessage, LimbicEvent.request?]
    split
    · rfl
    · exact orchestrator_run ..
  | roomJoined event => simp only [step, onRoomJoined, LimbicEvent.request?, orchestrator_run]
  | roomLeft event => simp only [step, onRoomLeft, LimbicEvent.request?, orchestrator_run]
  | roomJoinedBatch => rfl

end LimbicHandler

/-! ## The contexts of the handler -/

namespace Context

theorem plain_empty : Context.Plain .empty := fun _ _ => rfl

variable {ctx : Context} {key : String}

theorem Plain.set (h : ctx.Plain) (hkey : key ∉ readKeys) (value : Json) :
    Context.Plain (Dict.set ctx key value) := by
  intro k hk
  have hne : key ≠ k := fun he => hkey (he ▸ hk)
  rw [Dict.get?_set, if_neg hne]
  exact h k hk

theorem Plain.withDefault (h : ctx.Plain) (hkey : key ∉ readKeys) (value : Json) :
    (ctx.withDefault key value).Plain := by
  unfold Context.withDefault Dict.setDefault
  split
  · exact h
  · exact h.set hkey value

end Context

theorem enrichContext_plain {ctx : Context} (h : ctx.Plain) (now : Moment)
    (accountId : AccountId) : (enrichContext now ctx accountId).Plain := by
  have hroom : ∀ ctx : Context, ctx.Plain → ∀ name topic members, (((ctx.withDefault "room_name"
      name).withDefault "room_topic" topic).withDefault "member_count" members).Plain :=
    fun ctx h name topic members => ((h.withDefault (by simp [readKeys]) name).withDefault
      (by simp [readKeys]) topic).withDefault (by simp [readKeys]) members
  unfold enrichContext
  dsimp only
  cases now.account accountId with
  | none =>
    dsimp only
    split
    · split
      · exact h
      · exact hroom _ h _ _ _
    · exact h
  | some account =>
    have hnamed : ((ctx.withDefault "display_name" (.str account.displayName)).withDefault
        "account_created" (.str account.createdAt)).Plain :=
      (h.withDefault (by simp [readKeys]) _).withDefault (by simp [readKeys]) _
    dsimp only
    split
    · split
      · exact hnamed
      · exact hroom _ hnamed _ _ _
    · exact hnamed

/-- None of what an appraisal reads of a context is ever in one the handler makes. -/
theorem request_plain {now : Moment} {event : LimbicEvent} {q : Request}
    (hq : event.request? now = some q) : q.context.Plain := by
  cases event with
  | message event =>
    simp only [LimbicEvent.request?] at hq
    split at hq
    · cases hq
    · cases hq
      have hids : Context.Plain ((Dict.empty.set "account_id" (.str event.accountId.1)).set
          "room_id" (.str event.roomId)) :=
        (Context.plain_empty.set (by simp [readKeys]) _).set (by simp [readKeys]) _
      have hroom : ∀ ctx : Context, ctx.Plain → ∀ name topic,
          Context.Plain ((ctx.set "room_name" name).set "room_topic" topic) :=
        fun ctx h name topic => (h.set (by simp [readKeys]) name).set (by simp [readKeys]) topic
      unfold LimbicHandler.messageContext
      cases now.account event.accountId with
      | none =>
        dsimp only
        split
        · exact hids
        · exact hroom _ hids _ _
      | some account =>
        have hnamed : Context.Plain (((Dict.empty.set "account_id" (.str event.accountId.1)).set
            "room_id" (.str event.roomId)).set "display_name" (.str account.displayName)) :=
          hids.set (by simp [readKeys]) _
        dsimp only
        split
        · exact hnamed
        · exact hroom _ hnamed _ _
  | roomJoinedBatch => cases hq
  | roomJoined event | roomLeft event =>
    cases hq
    exact ((Context.plain_empty.set (by simp [readKeys]) _).set (by simp [readKeys]) _).set
      (by simp [readKeys]) _

end IrisMind.Limbic
