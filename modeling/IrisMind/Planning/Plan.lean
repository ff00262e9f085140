import IrisMind.Lib.Dict
import IrisMind.Lib.Text

/-! # Plans

A plan as planning builds it and publishes it to execution. The context hint and
the modulation of a plan only reach the system prompt and the sampling
temperature, which nothing here reads. -/
namespace IrisMind.Planning
open IrisMind.Lib

inductive PlanReason where
  | userInput
  | proactiveCuriosity
  | proactiveEscalation
  | timerEvent
deriving DecidableEq, Repr

namespace PlanReason

def value : PlanReason → String
  | userInput => "user_input"
  | proactiveCuriosity => "proactive_curiosity"
  | proactiveEscalation => "proactive_escalation"
  | timerEvent => "timer"

def all : List PlanReason := [userInput, proactiveCuriosity, proactiveEscalation, timerEvent]

end PlanReason

structure Plan where
  content : String
  taskLevel : String := "normal"
  silent : Bool := false
  reason : PlanReason := .userInput
  sessionId : String := ""
  accountId : String := ""
  roomId : String := ""
  overrides : Dict String Json := .empty

/-- `_PlanningEventHandler._publish`: the plan as it goes onto the internal bus. -/
def publish (plan : Plan) (sessionId accountId roomId : String) : Plan :=
  let plan := { plan with sessionId, accountId, roomId }
  if plan.silent then
    { plan with
      overrides := ((plan.overrides.set "allow_side_effects" (.bool false)).set
        "max_tool_iterations" (.int 3)).set "priority" (.int 1) }
  else plan

/-- `plan.overrides.get("allow_side_effects", True)`, as the condition it is used as. -/
def Plan.allowSideEffects (plan : Plan) : Bool :=
  (plan.overrides.getD "allow_side_effects" (.bool true)).truthy

/-- The tool iteration override, when it is set to a number. -/
def Plan.maxToolIterations? (plan : Plan) : Option Rat :=
  (plan.overrides.get? "max_tool_iterations").bind Json.number?

/-- What publishing writes for a silent plan, whatever the strategy had put there. -/
theorem publish_silent {plan : Plan} (h : plan.silent = true) (s a r : String) :
    (publish plan s a r).allowSideEffects = false ∧
      (publish plan s a r).maxToolIterations? = some 3 := by
  simp [publish, h, Plan.allowSideEffects, Plan.maxToolIterations?, Dict.getD, Dict.get?_set,
    Json.truthy, Json.number?]

end IrisMind.Planning
