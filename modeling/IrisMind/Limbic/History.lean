import IrisMind.Lib.Window
import IrisMind.Limbic.MoodRange

/-! # What is left of a run

A run of the handler leaves its results and nothing else: the last one is the
latest and the mood, the last fifty are the history, and each has been published
once, with the count of the history at that time. No hypothesis is needed, not
even of the clock or of the exponential. -/
namespace IrisMind.Limbic
open IrisMind.Lib IrisMind.Accounts

namespace LimbicHandler

/-- The result of an event, when it has one. -/
def result? (out : Outside) (h : LimbicHandler) (i : Moment × LimbicEvent) :
    Option EmotionResult :=
  (i.2.request? i.1).bind fun q =>
    (h.orchestrator.process out i.1 q.text q.context q.userProfile q.accountId).1

/-- The results of a run, in order. -/
def results (out : Outside) : LimbicHandler → List (Moment × LimbicEvent) → List EmotionResult
  | _, [] => []
  | h, i :: is => (h.result? out i).toList ++ results out (h.step out i) is

end LimbicHandler

/-- What is asked of the state after some results. -/
def stateAfter (results : List EmotionResult) : EmotionFullState :=
  match results.getLast? with
  | none => { current := none }
  | some latest =>
    { current := some latest.snapshot
      historyCount := some (min EmotionStateManager.maxHistory results.length) }

/-- A handler all of whose state comes from the results it has had. -/
structure Recorded (h : LimbicHandler) (results : List EmotionResult) : Prop where
  latest : h.orchestrator.state.latest = results.getLast?
  history : h.orchestrator.state.history =
    (results.map EmotionResult.snapshot).rtake EmotionStateManager.maxHistory
  mood : h.orchestrator.mood.mood = (results.getLast?.map EmotionResult.mood).getD {}

theorem Recorded.getState {h : LimbicHandler} {results : List EmotionResult}
    (hr : Recorded h results) : h.orchestrator.state.getState = stateAfter results := by
  rw [EmotionStateManager.getState, stateAfter, hr.latest]
  cases results.getLast? with
  | none => rfl
  | some latest => simp [hr.history, Window.length_rtake]

theorem Recorded.add {h h' : LimbicHandler} {results : List EmotionResult} {r : EmotionResult}
    (hr : Recorded h results)
    (hstate : h'.orchestrator.state = h.orchestrator.state.update r)
    (hmood : h'.orchestrator.mood.mood = r.mood) : Recorded h' (results ++ [r]) where
  latest := by simp [hstate, EmotionStateManager.update]
  history := by
    rw [hstate, EmotionStateManager.update, Window.drop_eq_rtake, hr.history,
      Window.rtake_append_rtake, List.map_append]
    rfl
  mood := by simp [hmood]

/-- Nothing but a result changes what is recorded. -/
theorem Recorded.keep {h h' : LimbicHandler} {results : List EmotionResult}
    (hr : Recorded h results) (hstate : h'.orchestrator.state = h.orchestrator.state)
    (hmood : h'.orchestrator.mood.mood = h.orchestrator.mood.mood) : Recorded h' results where
  latest := hstate ▸ hr.latest
  history := hstate ▸ hr.history
  mood := hmood ▸ hr.mood

variable {out : Outside} {h : LimbicHandler} {i : Moment × LimbicEvent}

theorem Recorded.step {results : List EmotionResult} (out : Outside) (i : Moment × LimbicEvent)
    (hr : Recorded h results) :
    Recorded (h.step out i) (results ++ (h.result? out i).toList) := by
  have hstep := LimbicHandler.orchestrator_step out h i
  unfold LimbicHandler.result?
  cases hq : i.2.request? i.1 with
  | none =>
    simp only [hq] at hstep
    simpa using hr.keep (by rw [hstep]) (by rw [hstep])
  | some q =>
    simp only [hq] at hstep
    rcases h.orchestrator.process_cases out i.1 q.text q.context q.userProfile q.accountId with
      ⟨hnone, hun⟩ | ⟨r, hsome, hp⟩
    · simpa [hnone] using hr.keep (by rw [hstep, hun.state]) (by rw [hstep, hun.mood])
    · have hmood := (MoodDynamics.update_some hp.mood)
      simpa [hsome] using hr.add (by rw [hstep, hp.state]) (by rw [hstep, hmood])

/-! ## What is published -/

/-- What a snapshot after an event says triggered it. -/
def LimbicEvent.trigger : LimbicEvent → String
  | .message _ => "message_processed"
  | .roomJoined _ => "room_joined"
  | .roomJoinedBatch => "room_joined_batch"
  | .roomLeft _ => "room_left"

/-- The snapshot of an event: of one that has a result, and of a batch in any case. -/
def LimbicHandler.snapshot? (out : Outside) (h : LimbicHandler) (i : Moment × LimbicEvent) :
    Option DebugSnapshot :=
  let said : DebugSnapshot :=
    { data := (h.step out i).orchestrator.state.getState, trigger := i.2.trigger }
  match i.2 with
  | .roomJoinedBatch => some said
  | _ => (h.result? out i).map fun _ => said

theorem published_run (now : Moment) (text : String) (context : Context)
    (userProfile : Option Profile) (accountId : AccountId) (trigger : String) :
    (h.run out now text context userProfile accountId trigger).published =
      h.published ++ ((h.orchestrator.process out now text context userProfile
        accountId).1.map fun _ =>
          { data := (h.run out now text context userProfile accountId
              trigger).orchestrator.state.getState
            trigger : DebugSnapshot }).toList := by
  unfold LimbicHandler.run
  rcases h.orchestrator.process out now text context userProfile accountId with
    ⟨_ | result, orchestrator⟩ <;> simp [LimbicHandler.publishSnapshot]

theorem published_step : (h.step out i).published = h.published ++ (h.snapshot? out i).toList := by
  obtain ⟨now, event⟩ := i
  cases event with
  | message event =>
    simp only [LimbicHandler.snapshot?, LimbicHandler.step, LimbicHandler.onMessage,
      LimbicHandler.result?, LimbicEvent.request?]
    split
    · simp
    · exact published_run ..
  | roomJoined event =>
    simp only [LimbicHandler.snapshot?, LimbicHandler.step, LimbicHandler.onRoomJoined,
      LimbicHandler.result?, LimbicEvent.request?, Option.bind_some]
    exact published_run ..
  | roomLeft event =>
    simp only [LimbicHandler.snapshot?, LimbicHandler.step, LimbicHandler.onRoomLeft,
      LimbicHandler.result?, LimbicEvent.request?, Option.bind_some]
    exact published_run ..
  | roomJoinedBatch => rfl

/-- A handler that has published each of its results, and besides only what batches ask for. -/
structure Told (h : LimbicHandler) (results : List EmotionResult) : Prop
    extends Recorded h results where
  direct : (h.published.filter (·.trigger ≠ LimbicEvent.roomJoinedBatch.trigger)).map
    DebugSnapshot.data = results.inits.tail.map stateAfter
  batch : ∀ s ∈ h.published, ∃ earlier, earlier <+: results ∧ s.data = stateAfter earlier

theorem inits_tail_concat {α : Type} (l : List α) (x : α) :
    (l ++ [x]).inits.tail = l.inits.tail ++ [l ++ [x]] := by
  rw [List.inits_append, List.tail_append_of_ne_nil (by cases l <;> simp)]
  rfl

theorem LimbicEvent.trigger_eq_batch {event : LimbicEvent}
    (h : event.trigger = LimbicEvent.roomJoinedBatch.trigger) : event = .roomJoinedBatch := by
  cases event <;> simp_all [LimbicEvent.trigger]

theorem Told.step {results : List EmotionResult} (out : Outside) (i : Moment × LimbicEvent)
    (ht : Told h results) : Told (h.step out i) (results ++ (h.result? out i).toList) := by
  have hr := ht.toRecorded.step out i
  have hearlier : ∀ s ∈ h.published, ∃ earlier,
      earlier <+: results ++ (h.result? out i).toList ∧ s.data = stateAfter earlier := by
    intro s hs
    obtain ⟨earlier, hp, hdata⟩ := ht.batch s hs
    exact ⟨earlier, hp.trans (List.prefix_append _ _), hdata⟩
  have hbatch : ∀ s ∈ (h.step out i).published, ∃ earlier,
      earlier <+: results ++ (h.result? out i).toList ∧ s.data = stateAfter earlier := by
    intro s hs
    rw [published_step, List.mem_append, Option.mem_toList] at hs
    rcases hs with hs | hs
    · exact hearlier s hs
    · refine ⟨_, List.prefix_refl _, ?_⟩
      rw [← hr.getState]
      unfold LimbicHandler.snapshot? at hs
      split at hs
      · cases hs
        rfl
      · obtain ⟨_, -, rfl⟩ := Option.map_eq_some_iff.mp hs
        rfl
  refine ⟨hr, ?_, hbatch⟩
  rw [published_step, List.filter_append, List.map_append, ht.direct]
  by_cases hevent : i.2 = .roomJoinedBatch
  · have hnone : h.result? out i = none := by
      rw [LimbicHandler.result?, hevent]
      rfl
    simp [LimbicHandler.snapshot?, hevent, hnone]
  · have hother : ¬ i.2.trigger = LimbicEvent.roomJoinedBatch.trigger :=
      fun he => hevent (LimbicEvent.trigger_eq_batch he)
    have hsnapshot : h.snapshot? out i = (h.result? out i).map fun _ =>
        { data := (h.step out i).orchestrator.state.getState
          trigger := i.2.trigger } := by
      unfold LimbicHandler.snapshot?
      split
      · next he => exact absurd he hevent
      · rfl
    rw [hsnapshot, hr.getState]
    cases h.result? out i with
    | none => simp
    | some r =>
      simp only [Option.toList_some, inits_tail_concat, List.map_append]
      simp [hother]

/-- Whatever has happened: the mood, the latest result and the history come from the results
alone, the history is the last fifty of them, and every result was published once and in order,
with the state as it was after it; what batches publish besides is such a state again. -/
theorem history_told (out : Outside) (startedAt : ℚ) (is : List (Moment × LimbicEvent)) :
    Told (Machine.run (LimbicHandler.step out) (LimbicHandler.fresh startedAt) is)
      ((LimbicHandler.fresh startedAt).results out is) := by
  have hrun : ∀ (h : LimbicHandler) (earlier : List EmotionResult), Told h earlier →
      Told (Machine.run (LimbicHandler.step out) h is) (earlier ++ h.results out is) := by
    induction is with
    | nil =>
      intro h earlier ht
      simpa [LimbicHandler.results] using ht
    | cons i is ih =>
      intro h earlier ht
      have hnext := ih (h.step out i) _ (ht.step out i)
      simpa [LimbicHandler.results] using hnext
  refine hrun (LimbicHandler.fresh startedAt) [] ⟨⟨rfl, rfl, rfl⟩, rfl, ?_⟩
  intro s hs
  cases hs

end IrisMind.Limbic
