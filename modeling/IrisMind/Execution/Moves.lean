import IrisMind.Execution.Graph

/-! # Everything a step of the graph can do

`WellFormed` is what every reachable configuration satisfies; under it `Moves`
lists the cases of a step, with the exact configuration each leads to. Facts
about runs are proved by going through these cases once. -/
namespace IrisMind.Execution
open IrisMind.Lib IrisMind.Tools IrisMind.Planning IrisMind.Llm

/-- The nodes from which the graph can still reach an LLM node or the tools. -/
def Pc.isLive : Pc → Bool
  | .prepareContext | .llm _ | .executeTools => true
  | _ => false

theorem Pc.ne_raised {pc : Pc} (h : pc.isEnd = false) : pc ≠ .raised := by
  rintro rfl
  cases h

structure Config.WellFormed (plan : Plan) (c : Config) : Prop where
  plan_eq : c.state.plan = plan
  running : c.pc.isLive = true → c.state.interrupted = false ∧ c.state.error = none
  known : c.pc ≠ .prepareContext → c.pc ≠ .raised → ∃ level, taskLevel? plan.taskLevel = some level
  called : c.pc = .executeTools → ∃ m, c.state.messages.getLast? = some (.ai m) ∧
    m.toolCalls ≠ [] ∧ routingCall? m.toolCalls = none

/-- The interrupt token as the node of this step finds it. -/
def Config.token (c : Config) (i : Input) : Bool := c.cancelled || i.cancelled

/-- The configuration behind an LLM node that leaves `s` and leads to `pc`. -/
def Config.afterLlm (env : Env) (n : NodeTypeName) (c : Config) (i : Input) (s : ExecutionState)
    (pc : Pc) : Config where
  state := s
  pc := pc
  cancelled := (llmNode env n c.state (c.token i) i.reply).cancelled
  log := c.log ++ (llmNode env n c.state (c.token i) i.reply).effects

/-- The state of an LLM node once its request is out. -/
def Config.sent (env : Env) (n : NodeTypeName) (c : Config) (i : Input) : ExecutionState :=
  { c.state with messages := sentMessages env n c.state i.reply }

/-- The state behind a list of tool calls that all complete. -/
def Config.ran (r : ToolRegistry) (c : Config) (i : Input) (calls : List ToolCall) :
    ExecutionState :=
  { c.state with
    messages := truncateToolOutputs
      (c.state.messages ++ reached r i.outcome (callAnswer r) 0 calls)
    toolIterations :=
      checkIterations (reached r i.outcome (callResult r) 0 calls) c.state.toolIterations }

inductive Moves (env : Env) (plan : Plan) (c : Config) (i : Input) : Config → Prop where
  | ended (hpc : c.pc.isEnd = true) : Moves env plan c i c
  | aborted (hpc : c.pc.isEnd = false) (ha : i.aborts = true) :
    Moves env plan c i { c with cancelled := c.token i, pc := .raised }
  | unknownLevel (hpc : c.pc = .prepareContext) (ha : i.aborts = false)
      (hl : taskLevel? plan.taskLevel = none) :
    Moves env plan c i { c with cancelled := c.token i, pc := .raised }
  | prepared (level : TaskLevel) (hpc : c.pc = .prepareContext) (ha : i.aborts = false)
      (hl : taskLevel? plan.taskLevel = some level) :
    Moves env plan c i
      { state := { c.state with messages := setupMessages env plan c.state.messages }
        pc := .llm .generalChat
        cancelled := c.token i
        log := c.log ++ setupEffects env plan level }
  | failed (n : NodeTypeName) (hpc : c.pc = .llm n) (ha : i.aborts = false)
      (ho : llmOutcome env c.state (c.token i) i.reply = .failed) :
    Moves env plan c i (c.afterLlm env n i (c.sent env n i).failed .finalize)
  | interrupted (n : NodeTypeName) (hpc : c.pc = .llm n) (ha : i.aborts = false)
      (ho : llmOutcome env c.state (c.token i) i.reply = .interrupted) :
    Moves env plan c i (c.afterLlm env n i (c.sent env n i).interrupt .finalize)
  | answered (n : NodeTypeName) (m : AIMessage) (hpc : c.pc = .llm n) (ha : i.aborts = false)
      (ho : llmOutcome env c.state (c.token i) i.reply = .answered m) :
    Moves env plan c i (c.afterLlm env n i
      (env.routerWrites.commit ((c.sent env n i).answered m) (answerRoute c.state m))
      (answerRoute c.state m).nextNode.pc)
  | idle (level : TaskLevel) (hpc : c.pc = .executeTools) (ha : i.aborts = false)
      (hl : taskLevel? plan.taskLevel = some level) (he : env.executor = none) :
    Moves env plan c i { c with cancelled := c.token i, pc := toolRoute level c.state }
  | stopped (r : ToolRegistry) (m : AIMessage) (hpc : c.pc = .executeTools)
      (ha : i.aborts = false) (he : env.executor = some r)
      (hm : c.state.messages.getLast? = some (.ai m))
      (hc : allComplete r i.outcome 0 m.toolCalls = false) :
    Moves env plan c i
      { state := { c.state with
          messages := c.state.messages ++ reached r i.outcome (callAnswer r) 0 m.toolCalls }
        pc := .raised
        cancelled := c.token i
        log := c.log ++ reached r i.outcome (callLog r) 0 m.toolCalls }
  | ran (r : ToolRegistry) (m : AIMessage) (level : TaskLevel) (hpc : c.pc = .executeTools)
      (ha : i.aborts = false) (hl : taskLevel? plan.taskLevel = some level)
      (he : env.executor = some r) (hm : c.state.messages.getLast? = some (.ai m))
      (hc : allComplete r i.outcome 0 m.toolCalls = true) :
    Moves env plan c i
      { state := c.ran r i m.toolCalls
        pc := toolRoute level (c.ran r i m.toolCalls)
        cancelled := c.token i
        log := c.log ++ reached r i.outcome (callLog r) 0 m.toolCalls }
  | finalized (hpc : c.pc = .finalize) (ha : i.aborts = false) :
    Moves env plan c i
      { state := (finalizeNode env c.state).1
        pc := .done
        cancelled := c.token i
        log := c.log ++ (finalizeNode env c.state).2 }

theorem llmOutcome_ne_skipped {env : Env} {s : ExecutionState} {cancelled : Bool} {reply : Reply}
    (hi : s.interrupted = false) : llmOutcome env s cancelled reply ≠ .skipped := by
  unfold llmOutcome
  rw [hi]
  intro h
  simp only [Bool.false_eq_true, if_false] at h
  split at h
  · cases h
  · split at h
    · cases h
    · split at h <;> cases h

theorem step_moves {env : Env} {plan : Plan} {c : Config} (hw : c.WellFormed plan) (i : Input) :
    Moves env plan c i (step env c i) := by
  cases hend : c.pc.isEnd with
  | true => rw [step_of_isEnd hend]; exact .ended hend
  | false =>
    cases ha : i.aborts with
    | true => rw [step_of_aborts hend ha]; exact .aborted hend ha
    | false =>
      rw [step_of_node hend ha]
      obtain ⟨hplan, hrun, hknown, hcalled⟩ := hw
      subst hplan
      let d : Config := { c with cancelled := c.token i }
      change Moves env c.state.plan c i (stepNode env d i)
      cases hpc : c.pc with
      | done => rw [hpc] at hend; cases hend
      | raised => rw [hpc] at hend; cases hend
      | prepareContext =>
        rw [stepNode_prepare (c := d) hpc]
        cases hl : taskLevel? c.state.plan.taskLevel with
        | none =>
          simp only [stepPrepare, setupNode, d, hl, Option.map_none]
          exact .unknownLevel hpc ha hl
        | some level =>
          simp only [stepPrepare, setupNode, d, hl, Option.map_some]
          exact .prepared level hpc ha hl
      | finalize =>
        rw [stepNode_finalize (c := d) hpc]
        exact .finalized hpc ha
      | llm n =>
        obtain ⟨hi, he⟩ := hrun (by rw [hpc]; rfl)
        rw [stepNode_llm (c := d) hpc]
        cases ho : llmOutcome env c.state (c.token i) i.reply with
        | skipped => exact absurd ho (llmOutcome_ne_skipped hi)
        | failed =>
          rw [stepLlm_failed (c := d) ho]
          exact .failed n hpc ha ho
        | interrupted =>
          rw [stepLlm_interrupted (c := d) ho]
          exact .interrupted n hpc ha ho
        | answered m =>
          rw [stepLlm_answered (c := d) ho hi he]
          exact .answered n m hpc ha ho
      | executeTools =>
        obtain ⟨m, hm, _, _⟩ := hcalled hpc
        obtain ⟨level, hl⟩ := hknown (by rw [hpc]; simp) (by rw [hpc]; simp)
        rw [stepNode_tools (c := d) hpc]
        cases he : env.executor with
        | none =>
          rw [stepTools_of_none (c := d) he hl]
          exact .idle level hpc ha hl he
        | some r =>
          cases hc : allComplete r i.outcome 0 m.toolCalls with
          | false =>
            rw [stepTools_of_stops (c := d) he hm hc]
            exact .stopped r m hpc ha he hm hc
          | true =>
            rw [stepTools_of_completes (c := d) he hl hm hc]
            exact .ran r m level hpc ha hl he hm hc

/-! ## The answer of a step -/

/-- The message an LLM node appends in this step. -/
def Config.answer? (env : Env) (c : Config) (i : Input) : Option AIMessage :=
  match c.pc with
  | .llm _ =>
    if i.aborts then none
    else match llmOutcome env c.state (c.token i) i.reply with
      | .answered m => some m
      | _ => none
  | _ => none

theorem answer?_eq_some_iff {env : Env} {c : Config} {i : Input} {m : AIMessage} :
    c.answer? env i = some m ↔ ∃ n, c.pc = .llm n ∧ i.aborts = false ∧
      llmOutcome env c.state (c.token i) i.reply = .answered m := by
  unfold Config.answer?
  cases hpc : c.pc with
  | llm n =>
    cases ha : i.aborts with
    | true => simp
    | false =>
      cases ho : llmOutcome env c.state (c.token i) i.reply <;> simp
  | _ => simp

/-- The step behind an answer. -/
theorem step_of_answer {env : Env} {plan : Plan} {c : Config} {i : Input} {m : AIMessage}
    (hw : c.WellFormed plan) (h : c.answer? env i = some m) :
    ∃ n, c.pc = .llm n ∧ step env c i = c.afterLlm env n i
      (env.routerWrites.commit ((c.sent env n i).answered m) (answerRoute c.state m))
      (answerRoute c.state m).nextNode.pc := by
  obtain ⟨n, hpc, ha, ho⟩ := answer?_eq_some_iff.mp h
  refine ⟨n, hpc, ?_⟩
  obtain ⟨hi, he⟩ := hw.running (by rw [hpc]; rfl)
  let d : Config := { c with cancelled := c.token i }
  rw [step_of_node (by rw [hpc]; rfl) ha]
  change stepNode env d i = _
  rw [stepNode_llm (c := d) hpc, stepLlm_answered (c := d) ho hi he]
  rfl

/-- Every call of the reply names a tool that the node offers. -/
def Config.offered (env : Env) (c : Config) (i : Input) : Bool :=
  match c.pc with
  | .llm n => (c.answer? env i).all fun m =>
    m.toolCalls.all fun tc => (allTools env n c.state).any (·.name == tc.name)
  | _ => true

/-! ## Well-formed configurations -/

theorem start_wellFormed (plan : Plan) (messages : List Msg) :
    (Config.start plan messages).WellFormed plan where
  plan_eq := rfl
  running := fun _ => ⟨rfl, rfl⟩
  known := fun h => absurd rfl h
  called := fun h => by cases h

theorem toolRoute_cases (level : TaskLevel) (s : ExecutionState) :
    toolRoute level s = .finalize ∧ level.maxToolIterations ≤ s.toolIterations ∨
      toolRoute level s = .llm s.currentNodeType ∧ s.toolIterations < level.maxToolIterations := by
  unfold toolRoute
  by_cases h : level.maxToolIterations ≤ s.toolIterations
  · rw [if_pos h]; exact .inl ⟨rfl, h⟩
  · rw [if_neg h]; exact .inr ⟨rfl, by omega⟩

theorem toolRoute_isEnd (level : TaskLevel) (s : ExecutionState) :
    (toolRoute level s).isEnd = false := by
  rcases toolRoute_cases level s with ⟨h, _⟩ | ⟨h, _⟩ <;> rw [h] <;> rfl

/-- Tools are not followed by tools. -/
theorem toolRoute_ne_tools (level : TaskLevel) (s : ExecutionState) :
    toolRoute level s ≠ .executeTools := by
  rcases toolRoute_cases level s with ⟨h, _⟩ | ⟨h, _⟩ <;> rw [h] <;> nofun

/-- Where an answer leads: to the tools only when it calls some and none of them routes. -/
theorem answerRoute_pc (s : ExecutionState) (m : AIMessage) :
    (∃ n, (answerRoute s m).nextNode.pc = .llm n) ∨ (answerRoute s m).nextNode.pc = .finalize ∨
      (answerRoute s m).nextNode.pc = .executeTools ∧ m.toolCalls ≠ [] ∧
        routingCall? m.toolCalls = none := by
  unfold answerRoute
  cases hr : routingCall? m.toolCalls with
  | some t => cases t <;> simp [routeOf, Target.pc]
  | none =>
    cases hc : m.toolCalls with
    | nil => simp [Target.pc]
    | cons tc rest => simp [Target.pc]

theorem answerRoute_isEnd (s : ExecutionState) (m : AIMessage) :
    (answerRoute s m).nextNode.pc.isEnd = false := by
  rcases answerRoute_pc s m with ⟨n, h⟩ | h | ⟨h, _⟩ <;> rw [h] <;> rfl

theorem calls_of_answerRoute {s : ExecutionState} {m : AIMessage}
    (h : (answerRoute s m).nextNode.pc = .executeTools) :
    m.toolCalls ≠ [] ∧ routingCall? m.toolCalls = none := by
  rcases answerRoute_pc s m with ⟨n, hpc⟩ | hpc | ⟨_, hcalls⟩
  · rw [hpc] at h; cases h
  · rw [hpc] at h; cases h
  · exact hcalls

theorem Moves.wellFormed {env : Env} {plan : Plan} {c c' : Config} {i : Input}
    (h : Moves env plan c i c') (hw : c.WellFormed plan) : c'.WellFormed plan := by
  obtain ⟨hplan, hrun, hknown, hcalled⟩ := hw
  cases h with
  | ended hpc => exact ⟨hplan, hrun, hknown, hcalled⟩
  | aborted hpc ha => exact ⟨hplan, nofun, fun _ h => absurd rfl h, nofun⟩
  | unknownLevel hpc ha hl => exact ⟨hplan, nofun, fun _ h => absurd rfl h, nofun⟩
  | prepared level hpc ha hl =>
    have hr := hrun (by rw [hpc]; rfl)
    exact ⟨hplan, fun _ => hr, fun _ _ => ⟨level, hl⟩, nofun⟩
  | failed n hpc ha ho =>
    have hk := hknown (by rw [hpc]; nofun) (by rw [hpc]; nofun)
    exact ⟨hplan, nofun, fun _ _ => hk, nofun⟩
  | interrupted n hpc ha ho =>
    have hk := hknown (by rw [hpc]; nofun) (by rw [hpc]; nofun)
    exact ⟨hplan, nofun, fun _ _ => hk, nofun⟩
  | answered n m hpc ha ho =>
    have hr := hrun (by rw [hpc]; rfl)
    have hk := hknown (by rw [hpc]; nofun) (by rw [hpc]; nofun)
    refine ⟨?_, fun _ => ?_, fun _ _ => hk, fun ht => ⟨m, ?_, ?_⟩⟩
    · simpa [Config.afterLlm, Config.sent, ExecutionState.answered] using hplan
    · simpa [Config.afterLlm, Config.sent, ExecutionState.answered] using hr
    · simp [Config.afterLlm, Config.sent, ExecutionState.answered]
    · exact calls_of_answerRoute ht
  | idle level hpc ha hl he =>
    have hr := hrun (by rw [hpc]; rfl)
    exact ⟨hplan, fun _ => hr, fun _ _ => ⟨level, hl⟩,
      fun ht => absurd ht (toolRoute_ne_tools level _)⟩
  | stopped r m hpc ha he hm hc => exact ⟨hplan, nofun, fun _ h => absurd rfl h, nofun⟩
  | ran r m level hpc ha hl he hm hc =>
    have hr := hrun (by rw [hpc]; rfl)
    exact ⟨hplan, fun _ => hr, fun _ _ => ⟨level, hl⟩,
      fun ht => absurd ht (toolRoute_ne_tools level _)⟩
  | finalized hpc ha =>
    have hk := hknown (by rw [hpc]; nofun) (by rw [hpc]; nofun)
    exact ⟨hplan, nofun, fun _ _ => hk, nofun⟩

theorem step_wellFormed (env : Env) (plan : Plan) (c : Config) (i : Input)
    (hw : c.WellFormed plan) : (step env c i).WellFormed plan := (step_moves hw i).wellFormed hw

theorem reach_wellFormed (env : Env) (plan : Plan) (messages : List Msg) (is : List Input) :
    (reach env plan messages is).WellFormed plan :=
  Machine.run_inv (Config.WellFormed plan) (step_wellFormed env plan)
    (start_wellFormed plan messages) is

/-- What each move that meets the condition keeps, a guarded run keeps. -/
theorem Config.WellFormed.guarded_inv {env : Env} {plan : Plan} {c : Config}
    {ok : Config → Input → Prop} (hw : c.WellFormed plan) (I : Config → Prop)
    (hI : ∀ {c c' : Config} {i : Input}, Moves env plan c i c' → c.WellFormed plan → ok c i →
      I c → I c') (h : I c) {is : List Input} (hg : Machine.Guarded (step env) ok c is) :
    I (Machine.run (step env) c is) := by
  have hinv := hg.inv (fun d => d.WellFormed plan ∧ I d)
    (fun d i hd hok => by
      have hmove : Moves env plan d i (step env d i) := step_moves hd.1 i
      exact ⟨hmove.wellFormed hd.1, hI hmove hd.1 hok hd.2⟩)
    ⟨hw, h⟩
  exact hinv.2

/-- What each move keeps, a run keeps. -/
theorem Config.WellFormed.run_inv {env : Env} {plan : Plan} {c : Config} (hw : c.WellFormed plan)
    (I : Config → Prop)
    (hI : ∀ {c c' : Config} {i : Input}, Moves env plan c i c' → c.WellFormed plan → I c → I c')
    (h : I c) (is : List Input) : I (Machine.run (step env) c is) :=
  hw.guarded_inv I (fun hmove hd _ hi => hI hmove hd hi) h (Machine.guarded_true c is)

/-! ## The first step -/

/-- The configuration in which the first model call of a run is due. -/
def Config.prepared (env : Env) (plan : Plan) (messages : List Msg) (level : TaskLevel)
    (first : Input) : Config where
  state := { buildExecutionState plan messages with messages := setupMessages env plan messages }
  pc := .llm .generalChat
  cancelled := first.cancelled
  log := setupEffects env plan level

theorem step_start_known (env : Env) {plan : Plan} (messages : List Msg) {level : TaskLevel}
    {first : Input} (hl : taskLevel? plan.taskLevel = some level) (ha : first.aborts = false) :
    step env (.start plan messages) first = .prepared env plan messages level first := by
  rw [step_of_node rfl ha]
  simp [stepNode, Config.start, stepPrepare, setupNode, buildExecutionState, hl, Config.prepared]

/-! ## What a node logs -/

theorem mem_ite_singleton {b : Bool} {x e : Effect} (h : x ∈ if b then [e] else []) :
    b = true ∧ x = e := by
  cases b with
  | true => exact ⟨rfl, List.mem_singleton.mp h⟩
  | false => cases h

theorem mem_setupEffects {env : Env} {plan : Plan} {level : TaskLevel} {x : Effect}
    (h : x ∈ setupEffects env plan level) :
    (∃ role text, x = .addTurn role text plan.accountId plan.roomId) ∨
      env.eventBus = true ∧ x = .publish (streamEvent plan .thinking "") := by
  rcases List.mem_append.mp h with h | h
  · obtain ⟨_, hx⟩ := mem_ite_singleton h
    exact .inl ⟨_, _, hx⟩
  · obtain ⟨hb, hx⟩ := mem_ite_singleton h
    exact .inr ⟨(Bool.and_eq_true _ _ ▸ hb).2, hx⟩

theorem mem_llmNode_effects {env : Env} {n : NodeTypeName} {s : ExecutionState}
    {cancelled : Bool} {reply : Reply} {x : Effect}
    (h : x ∈ (llmNode env n s cancelled reply).effects) :
    x = requestEffect env n s ∨
      (env.eventBus = true ∧ ∃ token, x = .publish (streamEvent s.plan .speaking token)) ∨
      ∃ role text, x = .addTurn role text s.plan.accountId s.plan.roomId := by
  have hsent : ∀ {r : ChatResult}, (env.eventBus = false → r.tokens = []) →
      x ∈ requestEffect env n s :: speaking s.plan r.tokens →
      x = requestEffect env n s ∨
        (env.eventBus = true ∧ ∃ token, x = .publish (streamEvent s.plan .speaking token)) ∨
        ∃ role text, x = .addTurn role text s.plan.accountId s.plan.roomId := by
    intro r hr hx
    rcases List.mem_cons.mp hx with hx | hx
    · exact .inl hx
    · obtain ⟨token, ht, hx⟩ := List.mem_map.mp hx
      cases hb : env.eventBus with
      | true => exact .inr (.inl ⟨rfl, token, hx.symm⟩)
      | false => rw [hr hb] at ht; cases ht
  have htokens : env.eventBus = false →
      (chat env.merge env.eventBus cancelled reply).tokens = [] := by
    intro hb
    rw [hb]
    exact chat_tokens_of_not_streaming
  unfold llmNode at h
  split at h
  · cases h
  · split at h
    · cases h
    · dsimp only at h
      split at h
      · exact hsent htokens h
      · split at h
        · exact hsent htokens h
        · rcases List.mem_append.mp h with h | h
          · exact hsent htokens h
          · obtain ⟨_, hx⟩ := mem_ite_singleton h
            exact .inr (.inr ⟨_, _, hx⟩)

theorem mem_reached_log {r : ToolRegistry} {outcome : Nat → ToolOutcome} {i : Nat}
    {calls : List ToolCall} {x : Effect} (h : x ∈ reached r outcome (callLog r) i calls) :
    ∃ tc ∈ calls, ∃ result, x = .execute tc result := by
  induction calls generalizing i with
  | nil => cases h
  | cons tc rest ih =>
    rcases List.mem_append.mp h with h | h
    · unfold callLog at h
      split at h
      · cases h
      · exact ⟨tc, List.mem_cons_self, _, List.mem_singleton.mp h⟩
      · exact ⟨tc, List.mem_cons_self, _, List.mem_singleton.mp h⟩
    · split at h
      · obtain ⟨tc', hm, hx⟩ := ih h
        exact ⟨tc', List.mem_cons_of_mem _ hm, hx⟩
      · cases h

theorem mem_finalizeNode {env : Env} {s : ExecutionState} {x : Effect}
    (h : x ∈ (finalizeNode env s).2) :
    env.eventBus = true ∧ x = .publish (streamEvent s.plan .done "") := by
  unfold finalizeNode at h
  dsimp only at h
  split at h
  · cases h
  · next hb =>
    have hb : s.interrupted = false ∧ env.eventBus = true := by simpa using hb
    exact ⟨hb.2, List.mem_singleton.mp h⟩

/-! ## Where tools run -/

/-- An LLM node runs no tool. -/
theorem llmNode_executions (env : Env) (n : NodeTypeName) (s : ExecutionState) (cancelled : Bool)
    (reply : Reply) :
    (llmNode env n s cancelled reply).effects.filterMap Effect.execution? = [] := by
  refine List.filterMap_eq_nil_iff.mpr fun x hx => ?_
  rcases mem_llmNode_effects hx with h | ⟨_, _, h⟩ | ⟨_, _, h⟩ <;> rw [h] <;> rfl

theorem setupEffects_executions (env : Env) (plan : Plan) (level : TaskLevel) :
    (setupEffects env plan level).filterMap Effect.execution? = [] := by
  refine List.filterMap_eq_nil_iff.mpr fun x hx => ?_
  rcases mem_setupEffects hx with ⟨_, _, h⟩ | ⟨_, h⟩ <;> rw [h] <;> rfl

theorem finalizeNode_executions (env : Env) (s : ExecutionState) :
    (finalizeNode env s).2.filterMap Effect.execution? = [] := by
  refine List.filterMap_eq_nil_iff.mpr fun x hx => ?_
  rw [(mem_finalizeNode hx).2]
  rfl

/-- A step adds to the log, and tools are executed by the tool node alone. -/
theorem Moves.log_cases {env : Env} {plan : Plan} {c c' : Config} {i : Input}
    (h : Moves env plan c i c') :
    (∃ effects, c'.log = c.log ++ effects ∧ effects.filterMap Effect.execution? = [] ∧
      (c.pc = .executeTools → i.aborts = false → env.executor = none)) ∨
    ∃ r m, c.pc = .executeTools ∧ i.aborts = false ∧ env.executor = some r ∧
      c.state.messages.getLast? = some (.ai m) ∧
      c'.log = c.log ++ reached r i.outcome (callLog r) 0 m.toolCalls := by
  have hno : ∀ {p : Pc}, c.pc = p → p ≠ .executeTools →
      c.pc = .executeTools → i.aborts = false → env.executor = none := by
    intro p hp hne hpc
    rw [hp] at hpc
    exact absurd hpc hne
  cases h with
  | ended hpc =>
    refine .inl ⟨[], (List.append_nil _).symm, rfl, fun ht => ?_⟩
    rw [ht] at hpc
    cases hpc
  | aborted hpc ha =>
    refine .inl ⟨[], (List.append_nil _).symm, rfl, fun _ h => ?_⟩
    rw [ha] at h
    cases h
  | unknownLevel hpc ha hl => exact .inl ⟨[], (List.append_nil _).symm, rfl, hno hpc nofun⟩
  | prepared level hpc ha hl =>
    exact .inl ⟨_, rfl, setupEffects_executions env plan level, hno hpc nofun⟩
  | failed n hpc ha ho => exact .inl ⟨_, rfl, llmNode_executions _ _ _ _ _, hno hpc nofun⟩
  | interrupted n hpc ha ho => exact .inl ⟨_, rfl, llmNode_executions _ _ _ _ _, hno hpc nofun⟩
  | answered n m hpc ha ho => exact .inl ⟨_, rfl, llmNode_executions _ _ _ _ _, hno hpc nofun⟩
  | idle level hpc ha hl he => exact .inl ⟨[], (List.append_nil _).symm, rfl, fun _ _ => he⟩
  | stopped r m hpc ha he hm hc => exact .inr ⟨r, m, hpc, ha, he, hm, rfl⟩
  | ran r m level hpc ha hl he hm hc => exact .inr ⟨r, m, hpc, ha, he, hm, rfl⟩
  | finalized hpc ha => exact .inl ⟨_, rfl, finalizeNode_executions env _, hno hpc nofun⟩

/-! ## Tool iterations -/

/-- The tool iterations a plan may have; none for a level that does not exist. -/
def maxToolIterations (plan : Plan) : Nat :=
  (taskLevel? plan.taskLevel).elim 0 (·.maxToolIterations)

theorem maxToolIterations_of {plan : Plan} {level : TaskLevel}
    (h : taskLevel? plan.taskLevel = some level) :
    maxToolIterations plan = level.maxToolIterations := by
  rw [maxToolIterations, h]
  rfl

/-- Tools that leave iterations to go have used up at least one. -/
theorem toolIterations_lt_ran {plan : Plan} {level : TaskLevel} {c : Config} {r : ToolRegistry}
    {i : Input} {calls : List ToolCall} (hl : taskLevel? plan.taskLevel = some level)
    (hit : (c.ran r i calls).toolIterations < level.maxToolIterations) :
    c.state.toolIterations < (c.ran r i calls).toolIterations := by
  have hbound := taskLevel?_maxToolIterations hl
  simp only [Config.ran, checkIterations] at hit ⊢
  split at hit
  · omega
  · split <;> omega

/-! ## Undisturbed answers -/

/-- An LLM node that is due, without an interrupt so far. -/
structure Config.Ready (plan : Plan) (c : Config) : Prop where
  wellFormed : c.WellFormed plan
  atNode : ∃ n, c.pc = .llm n
  fresh : c.cancelled = false

/-- Without streaming, an undisturbed reply that calls tools is appended as it is. -/
theorem Config.Ready.answer {env : Env} {plan : Plan} {c : Config} (h : c.Ready plan)
    (hb : env.eventBus = false) (names : List String) :
    c.answer? env (.calls names) = some (Input.calls names).reply.message ∧
      (step env c (.calls names)).cancelled = false := by
  obtain ⟨n, hpc⟩ := h.atNode
  obtain ⟨hi, _⟩ := h.wellFormed.running (by rw [hpc]; rfl)
  have htok : c.token (.calls names) = false := by rw [Config.token, h.fresh]; rfl
  have hans : c.answer? env (.calls names) = some (Input.calls names).reply.message := by
    refine answer?_eq_some_iff.mpr ⟨n, hpc, rfl, ?_⟩
    rw [htok, llmOutcome, hi, hb]
    rfl
  refine ⟨hans, ?_⟩
  obtain ⟨x, _, hstep⟩ := step_of_answer h.wellFormed hans
  rw [hstep]
  show (llmNode env x c.state (c.token (.calls names)) (Input.calls names).reply).cancelled = false
  rw [htok, llmNode, hi, hb]
  rfl

end IrisMind.Execution
