import IrisMind.Execution.Engine
import IrisMind.Llm.Bridge

/-! # The nodes of the execution graph

Each node takes the state, and where it makes calls, what the outside does, and
gives the state after it with the effects it had. Messages are shared objects:
a node appends to the one list of the executor, also when it raises later. -/
namespace IrisMind.Execution
open IrisMind.Lib IrisMind.Tools IrisMind.Planning IrisMind.Events IrisMind.Llm

/-- What the graph is built with. `merge` is the chat library's sum of chunks,
`displayName` the resolver of account names, `thinkingPrompt` the personality's
rewording of a prompt. -/
structure Env where
  executor : Option ToolRegistry
  eventBus : Bool
  memory : Bool
  routerWrites : RouterWrites
  displayName : String → String
  thinkingPrompt : String → String
  merge : List Chunk → AIMessage

structure NodeRun where
  state : ExecutionState
  cancelled : Bool
  effects : List Effect := []

/-! ## Setup -/

def isSystemText (content : String) : Bool := Text.startsWith content "[system]"

/-- The prompt as it enters the conversation: a user's text carries the display name. -/
def setupContent (env : Env) (plan : Plan) : String :=
  if !isSystemText plan.content && plan.accountId ≠ "" then
    let displayName := env.displayName plan.accountId
    if displayName = "" then plan.content else displayName ++ ": " ++ plan.content
  else plan.content

def setupMessages (env : Env) (plan : Plan) (messages : List Msg) : List Msg :=
  if plan.content = "" then messages else messages ++ [.human (setupContent env plan)]

def setupEffects (env : Env) (plan : Plan) (level : TaskLevel) : List Effect :=
  (if plan.content ≠ "" && env.memory then
    [.addTurn (if isSystemText plan.content then "system" else "user") (setupContent env plan)
      plan.accountId plan.roomId]
  else []) ++
  if level.showThinking && env.eventBus then [.publish (streamEvent plan .thinking "")] else []

/-- `SetupNode.__call__`; an unknown task level raises before anything is written. -/
def setupNode (env : Env) (s : ExecutionState) : Option (ExecutionState × List Effect) :=
  (taskLevel? s.plan.taskLevel).map fun level =>
    ({ s with messages := setupMessages env s.plan s.messages }, setupEffects env s.plan level)

/-! ## LLM nodes -/

/-- `_current_level_name`, with the fallback for an index out of range. -/
def currentLevelName (n : NodeTypeName) (s : ExecutionState) : LevelName :=
  n.nodeType.availableLevels.getD s.currentLevelIdx n.nodeType.entryLevel

def getTools (env : Env) (n : NodeTypeName) (levelName : LevelName) (plan : Plan) :
    List ToolSchema :=
  match env.executor with
  | none => []
  | some r => match n.nodeType.toolListByLevel levelName with
    | some names => r.listToolsByName names plan.allowSideEffects
    | none => r.listTools plan.allowSideEffects

def routingTargets (n : NodeTypeName) (s : ExecutionState) : List RoutingTool :=
  if n.nodeType.maxChainDepth ≤ s.chainDepth then
    n.nodeType.routingTargets.filter (· ≠ n.routingTool)
  else n.nodeType.routingTargets

def buildRoutingTools (n : NodeTypeName) (s : ExecutionState) : List ToolSchema :=
  (routingTargets n s).map RoutingTool.schema

/-- Everything an LLM node offers the model in one call. -/
def allTools (env : Env) (n : NodeTypeName) (s : ExecutionState) : List ToolSchema :=
  getTools env n (currentLevelName n s) s.plan ++ buildRoutingTools n s

def buildChatParams (n : NodeTypeName) (level : TaskLevel) : ChatParams :=
  match n with
  | .generalChat => ⟨"low", some 256, .int level.priority, false⟩
  | .generalTask => ⟨level.modelRole, if level.maxTokens = 0 then none else some level.maxTokens,
      .int level.priority, level.showThinking⟩

def resolveChatParams (n : NodeTypeName) (level : TaskLevel) (plan : Plan) : ChatParams :=
  let params := buildChatParams n level
  let params := match plan.overrides.get? "priority" with
    | some v => { params with priority := v }
    | none => params
  if 0 < level.maxTokens then
    { params with maxTokens := params.maxTokens.map fun m => min m level.maxTokens }
  else params

/-- `LLMGateway.chat` rewords the last message in place when it is a human one. -/
def gatewayMessages (env : Env) (showThinking : Bool) (messages : List Msg) : List Msg :=
  match showThinking, messages.getLast? with
  | true, some (.human content) => messages.dropLast ++ [.human (env.thinkingPrompt content)]
  | _, _ => messages

def ExecutionState.failed (s : ExecutionState) : ExecutionState :=
  { s with error := some "LLM call failed", responseText := "" }

def ExecutionState.interrupt (s : ExecutionState) : ExecutionState :=
  { s with interrupted := true, responseText := "" }

def ExecutionState.answered (s : ExecutionState) (m : AIMessage) : ExecutionState :=
  { s with messages := s.messages ++ [.ai m], responseText := Text.strip m.content.plain }

def answerEffects (env : Env) (plan : Plan) (m : AIMessage) : List Effect :=
  let text := Text.strip m.content.plain
  if text ≠ "" && env.memory then [.addTurn "assistant" text plan.accountId plan.roomId] else []

/-- The request of an LLM node. -/
def requestEffect (env : Env) (n : NodeTypeName) (s : ExecutionState) : Effect :=
  .request s.messages (allTools env n s) (resolveChatParams n (currentLevelName n s).level s.plan)

def speaking (plan : Plan) (tokens : List String) : List Effect :=
  tokens.map fun t => .publish (streamEvent plan .speaking t)

/-- `BaseLLMNode.__call__`. -/
def llmNode (env : Env) (n : NodeTypeName) (s : ExecutionState) (cancelled : Bool)
    (reply : Reply) : NodeRun :=
  if s.interrupted then { state := s, cancelled }
  else if reply.promptRaises then { state := s.failed, cancelled }
  else
    let params := resolveChatParams n (currentLevelName n s).level s.plan
    let sent := { s with messages := gatewayMessages env params.showThinking s.messages }
    let r := chat env.merge env.eventBus cancelled reply
    let effects := requestEffect env n s :: speaking s.plan r.tokens
    match r.message with
    | none => { state := sent.failed, cancelled := r.cancelled, effects }
    | some m =>
      if r.cancelled then { state := sent.interrupt, cancelled := r.cancelled, effects }
      else
        { state := sent.answered m
          cancelled := r.cancelled
          effects := effects ++ answerEffects env s.plan m }

/-! ## Tools and the end -/

structure ToolRun where
  state : ExecutionState
  effects : List Effect
  raised : Bool

/-- `ToolRunNode.__call__`; without an executor it does nothing at all. -/
def toolRunNode (env : Env) (s : ExecutionState) (outcome : Nat → ToolOutcome) : ToolRun :=
  match env.executor with
  | none => ⟨s, [], false⟩
  | some r =>
    let run := runToolCalls r outcome s.messages
    if run.raised then ⟨{ s with messages := run.messages }, run.effects, true⟩
    else ⟨{ s with
        messages := truncateToolOutputs run.messages
        toolIterations := checkIterations run.results s.toolIterations }, run.effects, false⟩

/-- `FinalizeNode.__call__`: an interrupted run publishes nothing. -/
def finalizeNode (env : Env) (s : ExecutionState) : ExecutionState × List Effect :=
  ({ s with completed := true },
    if s.interrupted || !env.eventBus then [] else [.publish (streamEvent s.plan .done "")])

end IrisMind.Execution
