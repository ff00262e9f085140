import IrisMind.Execution.Graph
import IrisMind.Execution.SystemPrompt
import IrisMind.Llm.Invocation

/-! # What is asked of the model

A node builds the system prompt of its plan and drops it. The gateway, handed
none, builds another, of no room, no account and no hint. So what a plan was
given to go with its content never gets to the model, and what the profile
tells is the same in every room. -/
namespace IrisMind.Execution
open IrisMind.Lib IrisMind.Planning IrisMind.Llm IrisMind.Tools

/-- What the bridge is called with. -/
structure LlmRequest where
  systemMessages : List String
  messages : List Msg
  model : String
  temperature : ℚ
  maxTokens : Int
  tools : List ToolSchema
  priority : Json
  reasoning : Bool

structure LLMGateway where
  modelConfig : InvocationConfig
  personality : Personality
  capabilityChecker : Option InvocationConfig := none
  accountProvider : Option (String → String) := none

namespace LLMGateway

variable (g : LLMGateway)

def resolveDisplayName (accountId : String) : String :=
  if accountId = "" then accountId else (g.accountProvider.map (· accountId)).getD accountId

def buildSystemMessages (w : PromptWorld) (nodeType contextHint roomId accountId : String)
    (modulation : ModulationState) : Option (List String) :=
  SystemPromptBuilder.build g.personality w nodeType contextHint "" (g.resolveDisplayName accountId)
    roomId accountId modulation

/-- `chat` rewords the last message in place when it is a human one. -/
def rewordLast (showThinking : Bool) (messages : List Msg) : List Msg :=
  match showThinking, messages.getLast? with
  | true, some (.human content) =>
    messages.dropLast ++ [.human (Personality.buildThinkingPrompt content)]
  | _, _ => messages

/-- `_call_llm` up to the call; the messages of the system go in front. -/
def callLlm (systemMsgs : List String) (messages : List Msg) (params : ChatParams)
    (temperature : Option ℚ) (tools : List ToolSchema) : LlmRequest where
  systemMessages := systemMsgs
  messages := messages
  model := g.modelConfig.getModel params.modelRole
  temperature := ModelInvocationPolicy.resolveTemperature temperature none none
    (g.modelConfig.getEffectiveTemperature params.modelRole)
  maxTokens := (params.maxTokens.map Int.ofNat).getD
    (g.modelConfig.getEffectiveMaxTokens params.modelRole)
  tools := ModelInvocationPolicy.resolveTools g.capabilityChecker tools params.modelRole
  priority := params.priority
  reasoning := ModelInvocationPolicy.resolveThinking g.capabilityChecker params.showThinking
    params.modelRole

/-- `chat` without system messages of the caller; the room and the account are not handed over
either. -/
def chat (w : PromptWorld) (messages : List Msg) (tools : List ToolSchema) (params : ChatParams)
    (temperature : Option ℚ) (modulation : ModulationState) : Option LlmRequest := do
  let systemMsgs ← g.buildSystemMessages w "general_task" "" "" "" modulation
  let effectiveTemp := ModelInvocationPolicy.resolveTemperature temperature none
    (some modulation.samplingTemperature) (g.modelConfig.getEffectiveTemperature params.modelRole)
  some (g.callLlm systemMsgs (rewordLast params.showThinking messages) params (some effectiveTemp)
    tools)

end LLMGateway

def NodeTypeName.value : NodeTypeName → String
  | .generalChat => "general_chat"
  | .generalTask => "general_task"

/-- The temperature among the parameters of a call; no task level has one of its own. -/
def NodeTypeName.temperature : NodeTypeName → Option ℚ
  | .generalChat => some (85 / 100)
  | .generalTask => none

/-- The call a node makes for a plan, if it makes one: first the prompt that is dropped, in the
world `before`, then the gateway's, in the world `now`. -/
def nodeRequest (g : LLMGateway) (env : Env) (n : NodeTypeName) (s : ExecutionState)
    (plan : ModulatedPlan) (before now : PromptWorld) : Option LlmRequest := do
  let s := { s with plan := plan.toPlan }
  let level := (currentLevelName n s).level
  let _ ← g.buildSystemMessages before n.value plan.contextHint plan.roomId plan.accountId
    plan.modulation
  g.chat now s.messages (allTools env n s) (resolveChatParams n level plan.toPlan) n.temperature
    plan.modulation

section Node

variable {g : LLMGateway} {env : Env} {n : NodeTypeName} {s : ExecutionState}
  {plan : ModulatedPlan} {before now : PromptWorld} {r : LlmRequest}

theorem rewordLast_eq (h : env.thinkingPrompt = Personality.buildThinkingPrompt)
    (showThinking : Bool) (messages : List Msg) :
    LLMGateway.rewordLast showThinking messages = gatewayMessages env showThinking messages := by
  unfold LLMGateway.rewordLast gatewayMessages
  cases showThinking with
  | false => cases messages.getLast? <;> rfl
  | true =>
    cases messages.getLast? with
    | none => rfl
    | some last =>
      cases last with
      | human content =>
        exact congrArg (fun prompt => messages.dropLast ++ [.human (prompt content)]) h.symm
      | ai message => rfl
      | tool name content id => rfl
      | system content => rfl

/-- The call is the one the graph logs, completed by the gateway. -/
theorem requestEffect_of_nodeRequest (h : nodeRequest g env n s plan before now = some r) :
    ∃ messages tools params,
      requestEffect env n { s with plan := plan.toPlan } = .request messages tools params ∧
        g.chat now messages tools params n.temperature plan.modulation = some r := by
  obtain ⟨-, -, hchat⟩ := Option.bind_eq_some_iff.mp h
  exact ⟨_, _, _, rfl, hchat⟩

/-- What the gateway builds, whatever the node has built before. -/
theorem nodeRequest_eq (h : nodeRequest g env n s plan before now = some r) :
    ∃ systemMsgs, g.buildSystemMessages now "general_task" "" "" "" plan.modulation =
        some systemMsgs ∧
      r = g.callLlm systemMsgs
        (LLMGateway.rewordLast (resolveChatParams n (currentLevelName n s).level
          plan.toPlan).showThinking s.messages)
        (resolveChatParams n (currentLevelName n s).level plan.toPlan)
        (some (n.temperature.getD plan.modulation.samplingTemperature))
        (allTools env n { s with plan := plan.toPlan }) := by
  obtain ⟨-, -, hchat⟩ := Option.bind_eq_some_iff.mp h
  obtain ⟨systemMsgs, hbuilt, hr⟩ := Option.bind_eq_some_iff.mp hchat
  refine ⟨systemMsgs, hbuilt, (Option.some.inj hr).symm.trans ?_⟩
  cases n <;> rfl

theorem tools_of_overrides {plan' : ModulatedPlan} (h : plan'.overrides = plan.overrides) :
    allTools env n { s with plan := plan'.toPlan } =
      allTools env n { s with plan := plan.toPlan } := by
  simp only [allTools, getTools, buildRoutingTools, routingTargets, currentLevelName,
    Plan.allowSideEffects, h]

theorem params_of_overrides {plan' : ModulatedPlan} (h : plan'.overrides = plan.overrides)
    (level : TaskLevel) :
    resolveChatParams n level plan'.toPlan = resolveChatParams n level plan.toPlan := by
  simp only [resolveChatParams, h]

end Node

/-- In one world two calls with one modulation have the same system messages, whatever the node, the
plan's hint, its room and its account; at one node, with the same overrides, they are the same. The
temperature is never that of the model. And what a search for preferences finds among all rooms and
accounts is told in every room. -/
theorem requests_forget_rooms (g : LLMGateway) (env : Env) (n : NodeTypeName) (s : ExecutionState)
    (plan : ModulatedPlan) (before now : PromptWorld) (r : LlmRequest)
    (h : nodeRequest g env n s plan before now = some r) :
    (∀ n' s' plan' before' r', nodeRequest g env n' s' plan' before' now = some r' →
      plan'.modulation = plan.modulation → r'.systemMessages = r.systemMessages ∧
        (n' = n → s' = s → plan'.overrides = plan.overrides → r' = r)) ∧
    r.temperature = n.temperature.getD plan.modulation.samplingTemperature ∧
    ∀ m rows row content, now.memory = some m → m.getUserPreferences "" "" = some rows →
      row ∈ rows → valueOf row "content" = some (.str content) → Text.strip content ≠ "" →
        ∃ profile ∈ r.systemMessages, Tells profile (Text.strip content) := by
  obtain ⟨systemMsgs, hbuilt, rfl⟩ := nodeRequest_eq h
  refine ⟨fun n' s' plan' before' r' h' hmod => ?_, rfl, ?_⟩
  · obtain ⟨systemMsgs', hbuilt', rfl⟩ := nodeRequest_eq h'
    rw [hmod, hbuilt] at hbuilt'
    obtain rfl := Option.some.inj hbuilt'
    refine ⟨rfl, ?_⟩
    rintro rfl rfl hoverrides
    rw [params_of_overrides hoverrides, tools_of_overrides hoverrides, hmod]
  · intro m rows row content hmemory hrows hrow hcontent hne
    obtain ⟨profile, hprofile, hrest⟩ := Option.bind_eq_some_iff.mp hbuilt
    obtain ⟨node, -, hmsgs⟩ := Option.bind_eq_some_iff.mp hrest
    obtain rfl := Option.some.inj hmsgs
    exact ⟨profile, List.mem_cons_self,
      tells_profile hprofile hmemory hrows hrow hcontent hne⟩

/-- The memory knows of one person, who was in another room, that she likes to fish. -/
def fishing : PromptWorld where
  memory := some
    { searchSemantic := fun _ _ _ _ => some [.obj [("content", .str "likes to fish")]]
      usersByRoom := fun _ => some [] }

/-- A plan for one room, with a hint for it. -/
def hinted : ModulatedPlan :=
  { content := "hi", roomId := "garden", accountId := "ann", contextHint := "the roses"
    modulation := .of 0 0 0 0 "neutral" "" }

def plainGateway : LLMGateway where
  modelConfig := { models := [{ name := "m" }] }
  personality := { name := "Iris", format := fun name _ => some name }

theorem requests_forget_rooms_fishing : ∃ r, nodeRequest plainGateway .bare .generalChat
      (buildExecutionState hinted.toPlan [.human "hi"]) hinted fishing fishing = some r ∧
    r.temperature = 85 / 100 ∧ ∃ profile ∈ r.systemMessages, Tells profile "likes to fish" := by
  refine ⟨_, rfl, ?_⟩
  obtain ⟨-, htemperature, htold⟩ := requests_forget_rooms plainGateway .bare .generalChat
    (buildExecutionState hinted.toPlan [.human "hi"]) hinted fishing fishing _ rfl
  exact ⟨htemperature, htold _ _ _ "likes to fish" rfl rfl List.mem_cons_self rfl (by decide)⟩

end IrisMind.Execution
