import IrisMind.Execution.LevelRange

/-! # How often a run invokes the model

An LLM node is paid for out of a potential: the chat chain that is left, the tool
iterations that are left, and one for a node that is due. A switch to the task
node, like a deeper level, sets the chain depth back to zero and so refills the
potential; no other step does. The depth of the task node itself is always zero,
so its own limit on the chain never takes effect. -/
namespace IrisMind.Execution
open IrisMind.Lib IrisMind.Tools IrisMind.Planning IrisMind.Llm

/-- A run of the graph in which every reply calls offered tools only. -/
structure OfferedRun where
  env : Env
  plan : Plan
  messages : List Msg
  inputs : List Input
  offered : Machine.Guarded (step env.persisting)
    (fun c i => c.offered env.persisting i = true) (.start plan messages) inputs

/-- The step invokes an LLM node. -/
def Config.invokesLlm (c : Config) (i : Input) : Bool :=
  match c.pc with
  | .llm _ => !i.aborts
  | _ => false

/-- The reply routes by `general_task` or `deep_task`. -/
def Config.refills (env : Env) (c : Config) (i : Input) : Bool :=
  (c.answer? env i).any fun m =>
    routingCall? m.toolCalls = some .generalTask || routingCall? m.toolCalls = some .deepTask

def OfferedRun.llmCalls (r : OfferedRun) : Nat :=
  Machine.count (step r.env.persisting) Config.invokesLlm (.start r.plan r.messages) r.inputs

def OfferedRun.refills (r : OfferedRun) : Nat :=
  Machine.count (step r.env.persisting) (Config.refills r.env.persisting)
    (.start r.plan r.messages) r.inputs

/-! ## What offered calls exclude -/

theorem mem_allTools {env : Env} {n : NodeTypeName} {s : ExecutionState} {schema : ToolSchema}
    (h : schema ∈ allTools env n s) :
    (∃ r, env.executor = some r ∧ ∀ names,
      n.nodeType.toolListByLevel (currentLevelName n s) = some names → schema.name ∈ names) ∨
      ∃ t ∈ routingTargets n s, schema.name = t.value := by
  rcases List.mem_append.mp h with ht | hr
  · left
    unfold getTools at ht
    cases he : env.executor with
    | none => rw [he] at ht; cases ht
    | some r =>
      refine ⟨r, rfl, fun names hn => ?_⟩
      rw [he] at ht
      simp only [hn] at ht
      exact (ToolRegistry.mem_listToolsByName ht).1
  · obtain ⟨t, ht, he⟩ := List.mem_map.mp hr
    exact .inr ⟨t, ht, by rw [← he]; rfl⟩

/-- The tool lists of the chat node hold no routing name. -/
theorem chat_toolList (s : ExecutionState) :
    ∃ names, NodeTypeName.generalChat.nodeType.toolListByLevel
      (currentLevelName .generalChat s) = some names ∧ RoutingTool.generalChat.value ∉ names := by
  have hl : currentLevelName .generalChat s = .chat ∨ currentLevelName .generalChat s = .light := by
    unfold currentLevelName NodeTypeName.nodeType
    match s.currentLevelIdx with
    | 0 => exact .inl rfl
    | 1 => exact .inr rfl
    | k + 2 => exact .inl rfl
  rcases hl with h | h
  · exact ⟨[], by rw [h]; rfl, by decide⟩
  · exact ⟨["web_search", "read_file"], by rw [h]; rfl, by decide⟩

theorem Config.offered_call {env : Env} {c : Config} {i : Input} {n : NodeTypeName}
    {m : AIMessage} {tc : ToolCall} (h : c.offered env i = true) (hpc : c.pc = .llm n)
    (ha : c.answer? env i = some m) (ht : tc ∈ m.toolCalls) :
    ∃ schema ∈ allTools env n c.state, schema.name = tc.name := by
  simp only [Config.offered, hpc, ha, Option.all_some, List.all_eq_true] at h
  obtain ⟨schema, hs, hn⟩ := List.any_eq_true.mp (h tc ht)
  exact ⟨schema, hs, beq_iff_eq.mp hn⟩

/-- `general_chat` is offered only where the chain has room for it. -/
theorem chain_room {env : Env} {c : Config} {i : Input} {n : NodeTypeName} {m : AIMessage}
    (hc : c.Tracked) (h : c.offered env i = true) (hpc : c.pc = .llm n)
    (ha : c.answer? env i = some m) (hr : routingCall? m.toolCalls = some .generalChat) :
    c.state.chainDepth < NodeTypeName.generalChat.nodeType.maxChainDepth := by
  cases n with
  | generalTask =>
    rw [hc.depth (hc.atNode _ hpc)]
    exact Nat.zero_lt_succ _
  | generalChat =>
    obtain ⟨tc, htc, hname⟩ := routingCall?_mem hr
    obtain ⟨schema, hs, hsn⟩ := Config.offered_call h hpc ha htc
    rw [hname] at hsn
    rcases mem_allTools hs with ⟨_, _, hnames⟩ | ⟨t, ht, htv⟩
    · obtain ⟨names, hl, hnot⟩ := chat_toolList c.state
      exact absurd (hsn ▸ hnames names hl) hnot
    · by_contra hlt
      have hge : NodeTypeName.generalChat.nodeType.maxChainDepth ≤ c.state.chainDepth :=
        Nat.le_of_not_lt hlt
      rw [routingTargets, if_pos hge] at ht
      have hne := (List.mem_filter.mp ht).2
      rw [hsn] at htv
      cases t <;> simp_all [RoutingTool.value, NodeTypeName.routingTool]

/-- Tools are entered only with an executor to run them. -/
theorem executor_of_offered {env : Env} {c : Config} {i : Input} {n : NodeTypeName}
    {m : AIMessage} (h : c.offered env i = true) (hpc : c.pc = .llm n)
    (ha : c.answer? env i = some m) (hm : m.toolCalls ≠ [])
    (hr : routingCall? m.toolCalls = none) : env.executor ≠ none := by
  obtain ⟨tc, rest, hcons⟩ := List.exists_cons_of_ne_nil hm
  have htc : tc ∈ m.toolCalls := by rw [hcons]; exact List.mem_cons_self
  obtain ⟨schema, hs, hsn⟩ := Config.offered_call h hpc ha htc
  rcases mem_allTools hs with ⟨r, he, _⟩ | ⟨t, _, htv⟩
  · rw [he]; nofun
  · have hof := RoutingTool.ofName?_eq_some_iff.mpr (hsn.symm.trans htv)
    rw [routingCall?_eq_none_iff.mp hr tc htc] at hof
    cases hof

/-! ## The potential -/

def Pc.weight : Pc → Nat
  | .prepareContext | .llm _ => 1
  | _ => 0

def Config.potential (plan : Plan) (c : Config) : Nat :=
  c.pc.weight + (NodeTypeName.generalChat.nodeType.maxChainDepth - c.state.chainDepth) +
    (maxToolIterations plan - c.state.toolIterations)

/-- One refill: the chain and the node it leads to. -/
def refillSize : Nat := NodeTypeName.generalChat.nodeType.maxChainDepth + 1

structure Config.Payable (env : Env) (plan : Plan) (c : Config) : Prop where
  wellFormed : c.WellFormed plan
  tracked : c.Tracked
  executor : c.pc = .executeTools → env.executor ≠ none

theorem Moves.payable {env : Env} {plan : Plan} {c c' : Config} {i : Input}
    (h : Moves env.persisting plan c i c') (hc : c.Payable env plan)
    (ho : c.offered env.persisting i = true) : c'.Payable env plan := by
  refine ⟨h.wellFormed hc.wellFormed, h.tracked hc.tracked, fun hpc' => ?_⟩
  cases h with
  | ended hpc => exact hc.executor hpc'
  | answered n m hpc ha hout =>
    have hans : c.answer? env.persisting i = some m :=
      answer?_eq_some_iff.mpr ⟨n, hpc, ha, hout⟩
    obtain ⟨hm, hr⟩ := calls_of_answerRoute hpc'
    have hexec : env.persisting.executor ≠ none := executor_of_offered ho hpc hans hm hr
    exact hexec
  | idle level hpc ha hl he => exact hc.executor hpc
  | ran r m level hpc ha hl he hm hx => exact hc.executor hpc
  | aborted _ _ | unknownLevel _ _ _ | prepared _ _ _ _ | failed _ _ _ _ | interrupted _ _ _ _
  | stopped _ _ _ _ _ _ _ | finalized _ _ => cases hpc'

/-- The LLM nodes of a step are paid for by the potential, or by a refill. -/
theorem Moves.pays {env : Env} {plan : Plan} {c c' : Config} {i : Input}
    (h : Moves env.persisting plan c i c') (hc : c.Payable env plan)
    (ho : c.offered env.persisting i = true) :
    (c.invokesLlm i).toNat + c'.potential plan ≤
      c.potential plan + refillSize * (c.refills env.persisting i).toNat := by
  cases h with
  | ended hpc =>
    have hz : c.invokesLlm i = false := by
      cases hp : c.pc <;> simp_all [Config.invokesLlm, Pc.isEnd]
    rw [hz]
    simp
  | aborted hpc ha =>
    have hz : c.invokesLlm i = false := by
      cases hp : c.pc <;> simp [Config.invokesLlm, hp, ha]
    rw [hz]
    simp only [Config.potential, Pc.weight, Bool.toNat_false]
    omega
  | unknownLevel hpc ha hl | prepared level hpc ha hl | stopped r m hpc ha he hm hx =>
    simp only [Config.invokesLlm, Config.potential, hpc, Pc.weight, Bool.toNat_false]
    omega
  | failed n hpc ha hout | interrupted n hpc ha hout =>
    simp only [Config.invokesLlm, Config.potential, Config.afterLlm, Config.sent,
      ExecutionState.failed, ExecutionState.interrupt, hpc, ha, Pc.weight, Bool.not_false,
      Bool.toNat_true]
    omega
  | answered n m hpc ha hout =>
    have hans : c.answer? env.persisting i = some m :=
      answer?_eq_some_iff.mpr ⟨n, hpc, ha, hout⟩
    have hcost : (c.invokesLlm i).toNat = 1 := by simp [Config.invokesLlm, hpc, ha]
    have hpot : c.potential plan =
        1 + (NodeTypeName.generalChat.nodeType.maxChainDepth - c.state.chainDepth) +
          (maxToolIterations plan - c.state.toolIterations) := by
      simp only [Config.potential, hpc, Pc.weight]
    rw [hcost, hpot]
    cases hr : routingCall? m.toolCalls with
    | none =>
      cases hm : m.toolCalls.isEmpty with
      | true =>
        simp only [Config.afterLlm, answerRoute, hr, hm, if_true, Config.potential, Target.pc,
          Pc.weight]
        change 1 + (0 + (_ - c.state.chainDepth) + (_ - c.state.toolIterations)) ≤ _
        omega
      | false =>
        simp only [Config.afterLlm, answerRoute, hr, hm, Bool.false_eq_true, if_false,
          Config.potential, Target.pc, Pc.weight]
        change 1 + (0 + (_ - c.state.chainDepth) + (_ - c.state.toolIterations)) ≤ _
        omega
    | some t =>
      simp only [Config.afterLlm, answerRoute, hr, Config.potential]
      cases t with
      | generalChat =>
        have hroom := chain_room hc.tracked ho hpc hans hr
        change 1 + (1 + (_ - (c.state.chainDepth + 1)) + (_ - c.state.toolIterations)) ≤ _
        omega
      | generalTask | deepTask =>
        have href : (c.refills env.persisting i).toNat = 1 := by simp [Config.refills, hans, hr]
        rw [href, refillSize]
        change 1 + (1 + (_ - 0) + (_ - c.state.toolIterations)) ≤ _
        omega
      | finish =>
        change 1 + (0 + (_ - c.state.chainDepth) + (_ - c.state.toolIterations)) ≤ _
        omega
  | idle level hpc ha hl he => exact absurd he (hc.executor hpc)
  | ran r m level hpc ha hl he hm hx =>
    have hmax := maxToolIterations_of hl
    simp only [Config.invokesLlm, Config.potential, hpc, Bool.toNat_false, hmax]
    change 0 + ((toolRoute level (c.ran r i m.toolCalls)).weight + (_ - c.state.chainDepth) +
      (_ - (c.ran r i m.toolCalls).toolIterations)) ≤ _
    rcases toolRoute_cases level (c.ran r i m.toolCalls) with ⟨hroute, hit⟩ | ⟨hroute, hit⟩
    · rw [hroute]
      simp only [Pc.weight]
      omega
    · rw [hroute]
      simp only [Pc.weight]
      have hgt := toolIterations_lt_ran hl hit
      omega
  | finalized hpc ha =>
    simp only [Config.invokesLlm, Config.potential, finalizeNode, hpc, Pc.weight,
      Bool.toNat_false]
    omega

/-! ## Bounds on runs -/

/-- What the node types and the task levels bound the model calls of a run without refills by. -/
def callBound : Nat := 1 + NodeTypeName.generalChat.nodeType.maxChainDepth + 20

theorem OfferedRun.llmCalls_le (r : OfferedRun) :
    r.llmCalls ≤ callBound + refillSize * r.refills := by
  have h : r.llmCalls + _ ≤ _ + refillSize * r.refills :=
    Machine.amortized (Config.Payable r.env r.plan)
      (fun c i hc ho => (step_moves hc.wellFormed i).payable hc ho)
      Config.invokesLlm (Config.refills r.env.persisting) (Config.potential r.plan) refillSize
      (fun c i hc ho => (step_moves hc.wellFormed i).pays hc ho)
      ⟨start_wellFormed r.plan r.messages, start_tracked r.plan r.messages, nofun⟩ r.offered
  have hstart : (Config.start r.plan r.messages).potential r.plan ≤ callBound := by
    have hmax : maxToolIterations r.plan ≤ 20 := by
      unfold maxToolIterations
      cases hl : taskLevel? r.plan.taskLevel with
      | none => exact Nat.zero_le _
      | some level => exact taskLevel?_maxToolIterations hl
    change 1 + (10 - 0) + (maxToolIterations r.plan - 0) ≤ 1 + 10 + 20
    omega
  omega

theorem OfferedRun.refills_le (r : OfferedRun) : r.refills ≤ r.llmCalls := by
  refine Machine.count_mono (fun c i h => ?_) _ _
  cases hans : c.answer? r.env.persisting i with
  | none => simp [Config.refills, hans] at h
  | some m =>
    obtain ⟨n, hpc, ha, _⟩ := answer?_eq_some_iff.mp hans
    simp [Config.invokesLlm, hpc, ha]

/-- The model calls of any family of runs are bounded exactly when its refills are: `k` refills
allow no more than `callBound + refillSize * k` calls. -/
theorem llmCalls_bounded_iff (R : OfferedRun → Prop) :
    (∃ N, ∀ r, R r → r.llmCalls ≤ N) ↔ ∃ k, ∀ r, R r → r.refills ≤ k := by
  constructor
  · rintro ⟨N, h⟩
    exact ⟨N, fun r hr => Nat.le_trans r.refills_le (h r hr)⟩
  · rintro ⟨k, h⟩
    refine ⟨callBound + refillSize * k, fun r hr => ?_⟩
    have hcalls := r.llmCalls_le
    have hk := Nat.mul_le_mul_left refillSize (h r hr)
    omega

/-! ## A chain without end -/

/-- An LLM node in which the model may switch to the task node. -/
structure Config.CanSwitch (plan : Plan) (c : Config) : Prop extends c.Ready plan where
  depth : c.state.chainDepth < NodeTypeName.generalTask.nodeType.maxChainDepth

/-- The reply that switches to the task node. -/
def switchInput : Input := .calls ["general_task"]

theorem generalTask_offered {n : NodeTypeName} {s : ExecutionState}
    (h : s.chainDepth < NodeTypeName.generalTask.nodeType.maxChainDepth) :
    RoutingTool.generalTask ∈ routingTargets n s := by
  unfold routingTargets
  cases n with
  | generalChat => split <;> decide
  | generalTask => rw [if_neg (by omega)]; decide

theorem Config.CanSwitch.step {plan : Plan} {c : Config} (h : c.CanSwitch plan) :
    (step Env.bare.persisting c switchInput).CanSwitch plan ∧
      c.offered Env.bare.persisting switchInput = true ∧
      c.invokesLlm switchInput = true := by
  obtain ⟨n, hpc⟩ := h.atNode
  obtain ⟨hans, hfresh⟩ := h.toReady.answer (show Env.bare.persisting.eventBus = false from rfl)
    ["general_task"]
  obtain ⟨_, _, hstep⟩ := step_of_answer h.wellFormed hans
  refine ⟨⟨⟨step_wellFormed _ plan c _ h.wellFormed, ?_, hfresh⟩, ?_⟩, ?_, ?_⟩
  · exact ⟨.generalTask, by rw [switchInput, hstep]; rfl⟩
  · rw [switchInput, hstep]
    exact Nat.zero_lt_succ _
  · have hmem : RoutingTool.generalTask.schema ∈ allTools Env.bare.persisting n c.state :=
      List.mem_append_right _ (List.mem_map_of_mem (generalTask_offered h.depth))
    simp only [Config.offered, hpc, switchInput, hans, Option.all_some]
    refine List.all_eq_true.mpr fun tc htc => List.any_eq_true.mpr ⟨_, hmem, ?_⟩
    rw [List.mem_singleton.mp htc]
    rfl
  · simp only [Config.invokesLlm, hpc]
    rfl

theorem Config.CanSwitch.run {plan : Plan} {c : Config} (h : c.CanSwitch plan) (k : Nat) :
    Machine.Guarded (Execution.step Env.bare.persisting)
        (fun c i => c.offered Env.bare.persisting i = true) c (List.replicate k switchInput) ∧
      Machine.count (Execution.step Env.bare.persisting) Config.invokesLlm c
        (List.replicate k switchInput) = k := by
  induction k generalizing c with
  | zero => exact ⟨trivial, rfl⟩
  | succ k ih =>
    obtain ⟨hnext, hoff, hcalls⟩ := h.step
    obtain ⟨hg, hc⟩ := ih hnext
    refine ⟨⟨hoff, hg⟩, ?_⟩
    simp only [List.replicate_succ, Machine.count, hcalls, hc, Bool.toNat_true]
    omega

/-- No number bounds the model calls: a model may answer with `general_task` for ever. -/
theorem llmCalls_unbounded : ¬ ∃ N, ∀ r : OfferedRun, r.llmCalls ≤ N := by
  rintro ⟨N, h⟩
  let plan : Plan := { content := "hi" }
  let first := Execution.step Env.bare.persisting (.start plan []) (.calls [])
  have hfirst : first.CanSwitch plan :=
    ⟨⟨step_wellFormed _ plan _ _ (start_wellFormed plan []), ⟨.generalChat, rfl⟩, rfl⟩,
      Nat.zero_lt_succ _⟩
  obtain ⟨hg, hc⟩ := hfirst.run (N + 1)
  have hle := h ⟨.bare, plan, [], .calls [] :: List.replicate (N + 1) switchInput, rfl, hg⟩
  change _ + Machine.count _ _ first _ ≤ N at hle
  rw [hc] at hle
  omega

end IrisMind.Execution
