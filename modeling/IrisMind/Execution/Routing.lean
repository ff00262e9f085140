import IrisMind.Execution.Messages
import IrisMind.Execution.NodeType
import IrisMind.Planning.Plan

/-! # Routing between the nodes of the execution graph

`decideNextRoute` and `decideAfterTools` read the state and say where to go and
what to write; `applyRouteTransition` writes it. -/
namespace IrisMind.Execution
open IrisMind.Planning

structure ExecutionState where
  plan : Plan
  messages : List Msg
  responseText : String := ""
  toolIterations : Nat := 0
  interrupted : Bool := false
  error : Option String := none
  completed : Bool := false
  currentNodeType : NodeTypeName := .generalChat
  currentLevelIdx : Nat := 0
  chainDepth : Nat := 0

def buildExecutionState (plan : Plan) (messages : List Msg) : ExecutionState := { plan, messages }

/-- The nodes a conditional edge leads to. -/
inductive Target where
  | node (n : NodeTypeName)
  | executeTools
  | finalize
deriving DecidableEq, Repr

structure RouteDecision where
  nextNode : Target
  setNodeType : Option NodeTypeName := none
  setChainDepth : Option Nat := none
  setLevelIdx : Option Nat := none
deriving DecidableEq, Repr

/-- The decision a call of a routing tool stands for. -/
def routeOf (s : ExecutionState) : RoutingTool → RouteDecision
  | .generalChat =>
    { nextNode := .node .generalChat
      setNodeType := some .generalChat
      setChainDepth := some (s.chainDepth + 1) }
  | .generalTask =>
    let nt := NodeTypeName.generalTask.nodeType
    { nextNode := .node .generalTask
      setNodeType := some .generalTask
      setChainDepth := some 0
      setLevelIdx := some (nt.availableLevels.idxOf nt.entryLevel) }
  | .deepTask =>
    let nt := s.currentNodeType.nodeType
    let nextIdx := s.currentLevelIdx + 1
    { nextNode := .node s.currentNodeType
      setChainDepth := some 0
      setLevelIdx := if nextIdx < nt.availableLevels.length then some nextIdx else none }
  | .finish => { nextNode := .finalize }

/-- The first call of a list that names a routing tool. -/
def routingCall? : List ToolCall → Option RoutingTool
  | [] => none
  | tc :: rest => match RoutingTool.ofName? tc.name with
    | some t => some t
    | none => routingCall? rest

def decideNextRoute (s : ExecutionState) : RouteDecision :=
  if s.interrupted || s.error.any (· ≠ "") then { nextNode := .finalize }
  else match s.messages.getLast? with
    | none => { nextNode := .finalize }
    | some last => match routingCall? last.toolCalls with
      | some t => routeOf s t
      | none =>
        if last.toolCalls.isEmpty then { nextNode := .finalize } else { nextNode := .executeTools }

/-- `none` is the `KeyError` of an unknown task level. -/
def decideAfterTools (s : ExecutionState) : Option RouteDecision :=
  (taskLevel? s.plan.taskLevel).map fun level =>
    if level.maxToolIterations ≤ s.toolIterations then { nextNode := .finalize }
    else { nextNode := .node s.currentNodeType }

def applyRouteTransition (s : ExecutionState) (d : RouteDecision) : ExecutionState :=
  { s with
    currentNodeType := d.setNodeType.getD s.currentNodeType
    chainDepth := d.setChainDepth.getD s.chainDepth
    currentLevelIdx := d.setLevelIdx.getD s.currentLevelIdx }

/-- Whether the graph library keeps what a router writes into the state it is given. -/
inductive RouterWrites where
  | persisted
  | discarded
deriving DecidableEq, Repr

def RouterWrites.commit (w : RouterWrites) (s : ExecutionState) (d : RouteDecision) :
    ExecutionState :=
  match w with
  | .persisted => applyRouteTransition s d
  | .discarded => s

/-! ## Facts about one decision -/

theorem routingCall?_eq_none_iff {calls : List ToolCall} :
    routingCall? calls = none ↔ ∀ tc ∈ calls, RoutingTool.ofName? tc.name = none := by
  induction calls with
  | nil => simp [routingCall?]
  | cons tc rest ih =>
    simp only [routingCall?, List.mem_cons, forall_eq_or_imp]
    cases h : RoutingTool.ofName? tc.name with
    | some t => simp
    | none => simpa using ih

theorem routingCall?_mem {calls : List ToolCall} {t : RoutingTool}
    (h : routingCall? calls = some t) : ∃ tc ∈ calls, tc.name = t.value := by
  induction calls with
  | nil => simp [routingCall?] at h
  | cons tc rest ih =>
    simp only [routingCall?] at h
    split at h
    · next t' ht =>
      cases h
      exact ⟨tc, List.mem_cons_self, RoutingTool.ofName?_eq_some_iff.mp ht⟩
    · obtain ⟨tc', hm, hn⟩ := ih h
      exact ⟨tc', List.mem_cons_of_mem _ hm, hn⟩

/-- The route of an answer: its first routing call, else the tools if it calls any. -/
def answerRoute (s : ExecutionState) (m : AIMessage) : RouteDecision :=
  match routingCall? m.toolCalls with
  | some t => routeOf s t
  | none =>
    if m.toolCalls.isEmpty then { nextNode := .finalize } else { nextNode := .executeTools }

/-- What the router goes by: the tool calls of the message an LLM node has just appended. -/
theorem decideNextRoute_of_last {s : ExecutionState} {m : AIMessage}
    (hi : s.interrupted = false) (he : s.error = none)
    (hl : s.messages.getLast? = some (.ai m)) : decideNextRoute s = answerRoute s m := by
  simp only [decideNextRoute, hi, he, hl, Option.any_none, Bool.or_false, Msg.toolCalls,
    Bool.false_eq_true, if_false, answerRoute]
  rfl

@[simp] theorem commit_plan (w : RouterWrites) (s : ExecutionState) (d : RouteDecision) :
    (w.commit s d).plan = s.plan := by cases w <;> rfl

@[simp] theorem commit_messages (w : RouterWrites) (s : ExecutionState) (d : RouteDecision) :
    (w.commit s d).messages = s.messages := by cases w <;> rfl

@[simp] theorem commit_toolIterations (w : RouterWrites) (s : ExecutionState) (d : RouteDecision) :
    (w.commit s d).toolIterations = s.toolIterations := by cases w <;> rfl

@[simp] theorem commit_interrupted (w : RouterWrites) (s : ExecutionState) (d : RouteDecision) :
    (w.commit s d).interrupted = s.interrupted := by cases w <;> rfl

@[simp] theorem commit_error (w : RouterWrites) (s : ExecutionState) (d : RouteDecision) :
    (w.commit s d).error = s.error := by cases w <;> rfl

end IrisMind.Execution
