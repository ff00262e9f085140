import IrisMind.Limbic.Modulation
import IrisMind.Planning.Strategies
import Mathlib.Data.List.Forall2

/-! # Planning next to the emotions

What is felt and what is ready to be planned come in any order, and each plan
gets the modulation of the moment. As long as the profiles are sound, the
emotions hold no plan back: every input gets its one plan, unless inhibition or
the judge is against it. -/
namespace IrisMind.Planning
open IrisMind.Lib IrisMind.Events IrisMind.Limbic

/-- The limbic handler, with the plans on the internal bus. -/
structure Agency where
  limbic : LimbicHandler
  published : List ModulatedPlan := []

inductive AgencyEvent where
  | felt (now : Moment) (event : LimbicEvent)
  | ready (w : PlanningWorld) (event : InputReady)

namespace AgencyEvent

def felt? : AgencyEvent → Option (Moment × LimbicEvent)
  | .felt now event => some (now, event)
  | .ready _ _ => none

def ready? : AgencyEvent → Option (PlanningWorld × InputReady)
  | .felt _ _ => none
  | .ready w event => some (w, event)

end AgencyEvent

namespace Agency

def step (out : Outside) (config : ProactiveConfig) (s : Agency) : AgencyEvent → Agency
  | .felt now event => { s with limbic := s.limbic.step out (now, event) }
  | .ready w event =>
    let plan := onInputReady config (some s.limbic.orchestrator.getModulationState) w event
    { s with published := s.published ++ plan.toList }

def fresh (startedAt : ℚ) : Agency where
  limbic := .fresh startedAt

end Agency

/-- Whether an input is to have a plan, with no word from the emotions. -/
def isWanted (config : ProactiveConfig) (input : PlanningWorld × InputReady) : Bool :=
  let context := Dict.ofList input.2.context
  if isProactiveEvent context then
    !input.1.inhibited && (ProactiveJudge.verdict config input.1 input.2 context).isSome
  else (chaosLevelOf context).isSome

/-- What the plan of an input is like. -/
structure Sent (input : PlanningWorld × InputReady) (p : ModulatedPlan) : Prop where
  modulation : Subdued p.modulation
  addressed : Addressed input.2 p
  kind : if isProactiveEvent (Dict.ofList input.2.context) then
    Unasked (Dict.ofList input.2.context) p else Answers input.2 p

/-- With a modulation that asks for little, an input that is wanted has its plan, and no other. -/
theorem onInputReady_cases (config : ProactiveConfig) (w : PlanningWorld) (event : InputReady)
    {modulation : ModulationState} (hsubdued : Subdued modulation) :
    isWanted config (w, event) = false ∧ onInputReady config (some modulation) w event = none ∨
      isWanted config (w, event) = true ∧
        ∃ p, onInputReady config (some modulation) w event = some p ∧ Sent (w, event) p := by
  have hkept : ∀ (plan : ModulatedPlan) (s a r : String), (publishModulated
      (applyLimbicModulation (some modulation) plan) s a r).modulation = modulation :=
    fun plan s a r => (publishModulated_kept _ s a r).2.2.2.2
  unfold isWanted onInputReady
  dsimp only
  split
  · next hproactive =>
    cases hinhibited : w.inhibited with
    | true => exact .inl ⟨rfl, by simp [onProactiveEvent, hinhibited]⟩
    | false =>
      cases hverdict : ProactiveJudge.verdict config w event (Dict.ofList event.context) with
      | none => exact .inl ⟨rfl, by simp [onProactiveEvent, hinhibited, hverdict]⟩
      | some c =>
        have hplan : onProactiveEvent config (some modulation) w event
            (Dict.ofList event.context) = some (publishModulated
              (applyLimbicModulation (some modulation) (buildProactive w.hints c))
              event.sessionId (proactiveAccount event (Dict.ofList event.context))
              event.roomId) := by
          simp [onProactiveEvent, hinhibited, hverdict, applyLimbicModulation,
            hsubdued.unsuppressed]
        obtain ⟨hunasked, haddressed⟩ := unasked_of_proactive hplan
        refine .inr ⟨rfl, _, hplan, ?_, haddressed, ?_⟩
        · rw [hkept]
          exact hsubdued
        · rwa [if_pos hproactive]
  · next huser =>
    cases hchaos : chaosLevelOf (Dict.ofList event.context) with
    | none => exact .inl ⟨rfl, by simp [onUserInput, hchaos]⟩
    | some chaosLevel =>
      have hplan : onUserInput (some modulation) w event (Dict.ofList event.context) =
          some (publishModulated (applyLimbicModulation (some modulation)
            (buildResponse w event.content chaosLevel event.roomId event.accountId))
            event.sessionId event.accountId event.roomId) := by
        simp [onUserInput, hchaos]
      obtain ⟨hanswers, haddressed⟩ := answers_of_input hplan
      refine .inr ⟨rfl, _, hplan, ?_, haddressed, ?_⟩
      · rw [hkept]
        exact hsubdued
      · rwa [if_neg huser]

/-- Whatever is felt in between: the plans on the internal bus are those of the inputs that were
wanted, one for each and in their order, each with a modulation that asks for little. -/
theorem plans_sent (out : Outside) (hexp : out.exp.Decays) (config : ProactiveConfig)
    (startedAt : ℚ) (is : List AgencyEvent)
    (hsound : ∀ i ∈ is.filterMap AgencyEvent.felt?, i.1.Sound)
    (hclock : Ticking startedAt (is.filterMap AgencyEvent.felt?)) :
    List.Forall₂ Sent ((is.filterMap AgencyEvent.ready?).filter (isWanted config))
      (Machine.run (Agency.step out config) (Agency.fresh startedAt) is).published := by
  have hrun : ∀ (t : ℚ) (s : Agency) (asked : List (PlanningWorld × InputReady)),
      s.limbic.Bounded t → Ticking t (is.filterMap AgencyEvent.felt?) →
      List.Forall₂ Sent asked s.published →
      List.Forall₂ Sent (asked ++ (is.filterMap AgencyEvent.ready?).filter (isWanted config))
        (Machine.run (Agency.step out config) s is).published := by
    clear hclock
    induction is with
    | nil =>
      intro t s asked _ _ hsent
      simpa using hsent
    | cons i is ih =>
      intro t s asked hbounded hclock hsent
      cases i with
      | felt now event =>
        obtain ⟨hread, hupdated, hrest⟩ := hclock
        refine ih (fun j hj => hsound j ?_) now.updatedAt _ asked
          (hbounded.step hexp (hsound _ List.mem_cons_self) hread hupdated) hrest hsent
        exact List.mem_cons_of_mem _ hj
      | ready w event =>
        have hnext := ih hsound t (s.step out config (.ready w event))
        rcases onInputReady_cases config w event hbounded.subdued with
          ⟨hno, hnone⟩ | ⟨hyes, p, hsome, hp⟩
        · have hkeep : (s.step out config (.ready w event)).published = s.published := by
            simp [Agency.step, hnone]
          simpa [AgencyEvent.ready?, hno] using
            hnext asked hbounded hclock (hkeep.symm ▸ hsent)
        · have hadd : (s.step out config (.ready w event)).published = s.published ++ [p] := by
            simp [Agency.step, hsome]
          have hmore : List.Forall₂ Sent (asked ++ [(w, event)]) (s.published ++ [p]) :=
            List.rel_append hsent (.cons hp .nil)
          simpa [AgencyEvent.ready?, hyes] using
            hnext (asked ++ [(w, event)]) hbounded hclock (hadd.symm ▸ hmore)
  simpa using hrun startedAt (Agency.fresh startedAt) [] (LimbicHandler.bounded_fresh startedAt)
    hclock .nil

/-- A memory with nothing in it, at a time when nothing is drawn. -/
def quiet : PlanningWorld where
  inhibited := false
  memory :=
    { recent := fun _ _ => some [], searchSemantic := fun _ _ _ => some []
      raw := fun _ => some false, recentTurns := fun _ => some 0
      renderContext := fun _ _ => some "", usersByRoom := fun _ => some [] }
  hints := { age := fun _ => some none, hour := 9, str := fun _ => "", draw := 1, choice := 0 }

/-- Someone says thanks and asks something, which is asked again with a chaos level that is no
number, and then the timer fires. -/
def thankedAndAsked : List AgencyEvent :=
  [.felt thanked.1 thanked.2, .ready quiet { content := "なぜ？", accountId := "a1" },
   .ready quiet { content := "なぜ？", context := [("chaos_level", .str "high")] },
   .ready quiet { context := [("from_timer", .bool true)] }]

theorem plans_sent_asked :
    List.Forall₂ Sent ((thankedAndAsked.filterMap AgencyEvent.ready?).filter (isWanted {}))
      (Machine.run (Agency.step still {}) (Agency.fresh 0) thankedAndAsked).published :=
  plans_sent still still_decays {} 0 thankedAndAsked thanked_sound thanked_ticking

end IrisMind.Planning
