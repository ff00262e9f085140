import IrisMind.Execution.Nodes
import IrisMind.Lib.Machine

/-! # The execution graph as a machine

`Config` is the state of one run of the graph: the execution state, the node that
runs next, the interrupt token and the log of effects. One step runs one node
and the routing behind it. An input is what the outside does in that step: an
interrupt before it, an exception of the graph library, the model's reply, and
what each tool does. -/
namespace IrisMind.Execution
open IrisMind.Lib IrisMind.Tools IrisMind.Planning IrisMind.Llm

inductive Pc where
  | prepareContext
  | llm (n : NodeTypeName)
  | executeTools
  | finalize
  | done
  | raised
deriving DecidableEq, Repr

def Target.pc : Target → Pc
  | .node n => .llm n
  | .executeTools => .executeTools
  | .finalize => .finalize

structure Config where
  state : ExecutionState
  pc : Pc
  cancelled : Bool
  log : List Effect

structure Input where
  cancelled : Bool := false
  aborts : Bool := false
  reply : Reply := {}
  outcome : Nat → ToolOutcome := fun _ => .raises

/-- The graph at its entry point, with a fresh interrupt token. -/
def Config.start (plan : Plan) (messages : List Msg) : Config :=
  ⟨buildExecutionState plan messages, .prepareContext, false, []⟩

/-- Follow a routing decision. -/
def Config.route (env : Env) (c : Config) (d : RouteDecision) : Config :=
  { c with state := env.routerWrites.commit c.state d, pc := d.nextNode.pc }

def stepPrepare (env : Env) (c : Config) : Config :=
  match setupNode env c.state with
  | none => { c with pc := .raised }
  | some (state, effects) => { c with state, pc := .llm .generalChat, log := c.log ++ effects }

def stepLlm (env : Env) (n : NodeTypeName) (c : Config) (reply : Reply) : Config :=
  let run := llmNode env n c.state c.cancelled reply
  let c := { c with state := run.state, cancelled := run.cancelled, log := c.log ++ run.effects }
  c.route env (decideNextRoute c.state)

def stepTools (env : Env) (c : Config) (outcome : Nat → ToolOutcome) : Config :=
  let run := toolRunNode env c.state outcome
  let c := { c with state := run.state, log := c.log ++ run.effects }
  if run.raised then { c with pc := .raised }
  else match decideAfterTools c.state with
    | none => { c with pc := .raised }
    | some d => c.route env d

def stepFinalize (env : Env) (c : Config) : Config :=
  let (state, effects) := finalizeNode env c.state
  { c with state, pc := .done, log := c.log ++ effects }

def Pc.isEnd : Pc → Bool
  | .done | .raised => true
  | _ => false

def stepNode (env : Env) (c : Config) (i : Input) : Config :=
  match c.pc with
  | .prepareContext => stepPrepare env c
  | .llm n => stepLlm env n c i.reply
  | .executeTools => stepTools env c i.outcome
  | .finalize => stepFinalize env c
  | .done | .raised => c

def step (env : Env) (c : Config) (i : Input) : Config :=
  if c.pc.isEnd then c
  else
    let c := { c with cancelled := c.cancelled || i.cancelled }
    if i.aborts then { c with pc := .raised } else stepNode env c i

/-- The configuration a run reaches. -/
def reach (env : Env) (plan : Plan) (messages : List Msg) (is : List Input) : Config :=
  Machine.run (step env) (.start plan messages) is

/-- A graph with nothing attached: no tools, no event bus, no memory. -/
def Env.bare : Env where
  executor := none
  eventBus := false
  memory := false
  routerWrites := .persisted
  displayName := id
  thinkingPrompt := id
  merge := fun _ => { content := .text "" }

/-- An undisturbed step whose reply calls the named tools, without any text. -/
def Input.calls (names : List String) : Input where
  reply := { message := { content := .text "", toolCalls := names.map fun name => { name } } }
  outcome := fun _ => .returns ""

/-! ## What one step does -/

theorem step_of_isEnd {env : Env} {c : Config} (h : c.pc.isEnd = true) (i : Input) :
    step env c i = c := by simp [step, h]

theorem step_of_aborts {env : Env} {c : Config} {i : Input} (h : c.pc.isEnd = false)
    (ha : i.aborts = true) :
    step env c i = { c with cancelled := c.cancelled || i.cancelled, pc := .raised } := by
  simp [step, h, ha]

theorem step_of_node {env : Env} {c : Config} {i : Input} (h : c.pc.isEnd = false)
    (ha : i.aborts = false) :
    step env c i = stepNode env { c with cancelled := c.cancelled || i.cancelled } i := by
  simp [step, h, ha]

theorem stepNode_prepare {env : Env} {c : Config} (h : c.pc = .prepareContext) (i : Input) :
    stepNode env c i = stepPrepare env c := by simp only [stepNode, h]

theorem stepNode_llm {env : Env} {c : Config} {n : NodeTypeName} (h : c.pc = .llm n) (i : Input) :
    stepNode env c i = stepLlm env n c i.reply := by simp only [stepNode, h]

theorem stepNode_tools {env : Env} {c : Config} (h : c.pc = .executeTools) (i : Input) :
    stepNode env c i = stepTools env c i.outcome := by simp only [stepNode, h]

theorem stepNode_finalize {env : Env} {c : Config} (h : c.pc = .finalize) (i : Input) :
    stepNode env c i = stepFinalize env c := by simp only [stepNode, h]

/-! ## What an LLM step does -/

/-- What the call of an LLM node comes to. -/
inductive LlmOutcome where
  | skipped
  | failed
  | interrupted
  | answered (m : AIMessage)

def llmOutcome (env : Env) (s : ExecutionState) (cancelled : Bool) (reply : Reply) : LlmOutcome :=
  if s.interrupted then .skipped
  else if reply.promptRaises then .failed
  else
    let r := chat env.merge env.eventBus cancelled reply
    match r.message with
    | none => .failed
    | some m => if r.cancelled then .interrupted else .answered m

/-- The conversation once the request is out. -/
def sentMessages (env : Env) (n : NodeTypeName) (s : ExecutionState) (reply : Reply) : List Msg :=
  if reply.promptRaises then s.messages
  else gatewayMessages env
    (resolveChatParams n (currentLevelName n s).level s.plan).showThinking s.messages

theorem sentMessages_length (env : Env) (n : NodeTypeName) (s : ExecutionState) (reply : Reply) :
    (sentMessages env n s reply).length = s.messages.length := by
  unfold sentMessages
  split
  · rfl
  · unfold gatewayMessages
    split
    · next h =>
      obtain ⟨init, hinit⟩ := List.getLast?_eq_some_iff.mp h
      rw [hinit]
      simp
    · rfl

theorem llmNode_state (env : Env) (n : NodeTypeName) (s : ExecutionState) (cancelled : Bool)
    (reply : Reply) :
    (llmNode env n s cancelled reply).state =
      match llmOutcome env s cancelled reply with
      | .skipped => s
      | .failed => { s with messages := sentMessages env n s reply }.failed
      | .interrupted => { s with messages := sentMessages env n s reply }.interrupt
      | .answered m => { s with messages := sentMessages env n s reply }.answered m := by
  unfold llmNode llmOutcome sentMessages
  by_cases hi : s.interrupted = true
  · rw [if_pos hi, if_pos hi]
  · rw [if_neg hi, if_neg hi]
    by_cases hp : reply.promptRaises = true
    · rw [if_pos hp, if_pos hp, if_pos hp]
    · rw [if_neg hp, if_neg hp, if_neg hp]
      cases hm : (chat env.merge env.eventBus cancelled reply).message with
      | none => simp only [hm]
      | some m =>
        by_cases hc : (chat env.merge env.eventBus cancelled reply).cancelled = true
        · simp only [hm, if_pos hc]
        · simp only [hm, if_neg hc]

/-- Where a failed or interrupted node leads: no field is written, whatever the graph keeps. -/
theorem route_finalize (env : Env) (c : Config) :
    c.route env { nextNode := .finalize } = { c with pc := .finalize } := by
  simp only [Config.route, Target.pc]
  cases env.routerWrites <;> rfl

theorem stepLlm_eq (env : Env) (n : NodeTypeName) (c : Config) (reply : Reply) :
    stepLlm env n c reply =
      Config.route env
        ⟨(llmNode env n c.state c.cancelled reply).state, c.pc,
          (llmNode env n c.state c.cancelled reply).cancelled,
          c.log ++ (llmNode env n c.state c.cancelled reply).effects⟩
        (decideNextRoute (llmNode env n c.state c.cancelled reply).state) := rfl

theorem stepLlm_failed {env : Env} {n : NodeTypeName} {c : Config} {reply : Reply}
    (h : llmOutcome env c.state c.cancelled reply = .failed) :
    stepLlm env n c reply =
      { state := { c.state with messages := sentMessages env n c.state reply }.failed
        pc := .finalize
        cancelled := (llmNode env n c.state c.cancelled reply).cancelled
        log := c.log ++ (llmNode env n c.state c.cancelled reply).effects } := by
  have hs := llmNode_state env n c.state c.cancelled reply
  simp only [h] at hs
  rw [stepLlm_eq, hs]
  have hd : decideNextRoute { c.state with messages := sentMessages env n c.state reply }.failed =
      { nextNode := .finalize } := by
    simp [decideNextRoute, ExecutionState.failed]
  simp only [hd, route_finalize]

theorem stepLlm_interrupted {env : Env} {n : NodeTypeName} {c : Config} {reply : Reply}
    (h : llmOutcome env c.state c.cancelled reply = .interrupted) :
    stepLlm env n c reply =
      { state := { c.state with messages := sentMessages env n c.state reply }.interrupt
        pc := .finalize
        cancelled := (llmNode env n c.state c.cancelled reply).cancelled
        log := c.log ++ (llmNode env n c.state c.cancelled reply).effects } := by
  have hs := llmNode_state env n c.state c.cancelled reply
  simp only [h] at hs
  rw [stepLlm_eq, hs]
  have hd : decideNextRoute
      { c.state with messages := sentMessages env n c.state reply }.interrupt =
      { nextNode := .finalize } := by
    simp [decideNextRoute, ExecutionState.interrupt]
  simp only [hd, route_finalize]

theorem stepLlm_answered {env : Env} {n : NodeTypeName} {c : Config} {reply : Reply}
    {m : AIMessage} (h : llmOutcome env c.state c.cancelled reply = .answered m)
    (hi : c.state.interrupted = false) (he : c.state.error = none) :
    stepLlm env n c reply =
      { state := env.routerWrites.commit
          ({ c.state with messages := sentMessages env n c.state reply }.answered m)
          (answerRoute c.state m)
        pc := (answerRoute c.state m).nextNode.pc
        cancelled := (llmNode env n c.state c.cancelled reply).cancelled
        log := c.log ++ (llmNode env n c.state c.cancelled reply).effects } := by
  have hs := llmNode_state env n c.state c.cancelled reply
  simp only [h] at hs
  rw [stepLlm_eq, hs]
  have hd := decideNextRoute_of_last
    (s := { c.state with messages := sentMessages env n c.state reply }.answered m) hi he
    List.getLast?_concat
  rw [hd]
  rfl

/-! ## What a tool step does -/

/-- Back to the current node, or to the end once the iterations are used up. -/
def toolRoute (level : TaskLevel) (s : ExecutionState) : Pc :=
  if level.maxToolIterations ≤ s.toolIterations then .finalize else .llm s.currentNodeType

theorem route_afterTools (env : Env) (c : Config) (level : TaskLevel) :
    c.route env (if level.maxToolIterations ≤ c.state.toolIterations then
        { nextNode := .finalize } else { nextNode := .node c.state.currentNodeType }) =
      { c with pc := toolRoute level c.state } := by
  unfold toolRoute
  by_cases h : level.maxToolIterations ≤ c.state.toolIterations
  · rw [if_pos h, if_pos h, route_finalize]
  · rw [if_neg h, if_neg h]
    simp only [Config.route, Target.pc]
    cases env.routerWrites <;> rfl

theorem stepTools_of_none {env : Env} {c : Config} {outcome : Nat → ToolOutcome}
    {level : TaskLevel} (he : env.executor = none)
    (hl : taskLevel? c.state.plan.taskLevel = some level) :
    stepTools env c outcome = { c with pc := toolRoute level c.state } := by
  simp only [stepTools, toolRunNode, he, decideAfterTools, hl, Option.map_some, List.append_nil,
    Bool.false_eq_true, if_false]
  exact route_afterTools env c level

theorem stepTools_of_stops {env : Env} {c : Config} {outcome : Nat → ToolOutcome}
    {r : ToolRegistry} {m : AIMessage} (he : env.executor = some r)
    (hm : c.state.messages.getLast? = some (.ai m))
    (hc : allComplete r outcome 0 m.toolCalls = false) :
    stepTools env c outcome =
      { c with
        state := { c.state with
          messages := c.state.messages ++ reached r outcome (callAnswer r) 0 m.toolCalls }
        pc := .raised
        log := c.log ++ reached r outcome (callLog r) 0 m.toolCalls } := by
  obtain ⟨hmsgs, heffs, hraised, _⟩ :=
    runCalls_eq r outcome 0 m.toolCalls { messages := c.state.messages } rfl
  rw [hc] at hraised
  simp only [List.nil_append] at heffs
  simp only [stepTools, toolRunNode, he, runToolCalls, hm, hraised, Bool.not_false, if_true,
    hmsgs, heffs]

theorem stepTools_of_completes {env : Env} {c : Config} {outcome : Nat → ToolOutcome}
    {r : ToolRegistry} {m : AIMessage} {level : TaskLevel} (he : env.executor = some r)
    (hl : taskLevel? c.state.plan.taskLevel = some level)
    (hm : c.state.messages.getLast? = some (.ai m))
    (hc : allComplete r outcome 0 m.toolCalls = true) :
    stepTools env c outcome =
      let s := { c.state with
        messages := truncateToolOutputs
          (c.state.messages ++ reached r outcome (callAnswer r) 0 m.toolCalls)
        toolIterations := checkIterations (reached r outcome (callResult r) 0 m.toolCalls)
          c.state.toolIterations }
      { c with
        state := s
        pc := toolRoute level s
        log := c.log ++ reached r outcome (callLog r) 0 m.toolCalls } := by
  obtain ⟨hmsgs, heffs, hraised, hres⟩ :=
    runCalls_eq r outcome 0 m.toolCalls { messages := c.state.messages } rfl
  rw [hc] at hraised
  have hres := hres hc
  simp only [List.nil_append] at heffs hres
  simp only [stepTools, toolRunNode, he, runToolCalls, hm, hraised, Bool.not_true,
    Bool.false_eq_true, if_false, hmsgs, heffs, hres, decideAfterTools, hl, Option.map_some]
  exact route_afterTools env _ level

end IrisMind.Execution
