import IrisMind.Execution.Moves

/-! # The requests of a run

A run sends its first request, if it sends any, in its second step: with the
conversation it was given and the plan's prompt behind it. What a run adds to
the log and to the conversation stays there. -/
namespace IrisMind.Execution
open IrisMind.Lib IrisMind.Tools IrisMind.Planning IrisMind.Llm

/-- The message lists a run passes to the model, in order. -/
def requestsOf (log : List Effect) : List (List Msg) := log.filterMap Effect.request?

/-- The run gets as far as its first model call. -/
def callsModel (plan : Plan) : List Input → Bool
  | first :: second :: _ => !first.aborts && (taskLevel? plan.taskLevel).isSome &&
    !second.aborts && !second.reply.promptRaises
  | _ => false

theorem setupEffects_requests (env : Env) (plan : Plan) (level : TaskLevel) :
    requestsOf (setupEffects env plan level) = [] := by
  refine List.filterMap_eq_nil_iff.mpr fun x hx => ?_
  rcases mem_setupEffects hx with ⟨_, _, h⟩ | ⟨_, h⟩ <;> rw [h] <;> rfl

theorem finalizeNode_requests (env : Env) (s : ExecutionState) :
    requestsOf (finalizeNode env s).2 = [] := by
  refine List.filterMap_eq_nil_iff.mpr fun x hx => ?_
  rw [(mem_finalizeNode hx).2]
  rfl

/-! ## What a run adds -/

theorem Moves.log_prefix {env : Env} {plan : Plan} {c c' : Config} {i : Input}
    (h : Moves env plan c i c') : c.log <+: c'.log := by
  rcases h.log_cases with ⟨effects, hl, _⟩ | ⟨r, m, _, _, _, _, hl⟩ <;> rw [hl]
  · exact List.prefix_append _ _
  · exact List.prefix_append _ _

theorem run_log_prefix (env : Env) {plan : Plan} {c : Config} (hw : c.WellFormed plan)
    (is : List Input) : c.log <+: (Machine.run (step env) c is).log := by
  exact hw.run_inv (fun d => c.log <+: d.log)
    (fun hmove _ hd => hd.trans hmove.log_prefix) (List.prefix_refl _) is

theorem Moves.messages_length {env : Env} {plan : Plan} {c c' : Config} {i : Input}
    (h : Moves env plan c i c') : c.state.messages.length ≤ c'.state.messages.length := by
  have hsent : ∀ n, (c.sent env n i).messages.length = c.state.messages.length :=
    fun n => sentMessages_length env n c.state i.reply
  cases h with
  | ended _ => exact Nat.le_refl _
  | aborted _ _ => exact Nat.le_refl _
  | unknownLevel _ _ _ => exact Nat.le_refl _
  | prepared level _ _ _ =>
    show _ ≤ (setupMessages env plan c.state.messages).length
    unfold setupMessages
    split
    · exact Nat.le_refl _
    · simp
  | failed n _ _ _ => exact Nat.le_of_eq (hsent n).symm
  | interrupted n _ _ _ => exact Nat.le_of_eq (hsent n).symm
  | answered n m _ _ _ =>
    simp only [Config.afterLlm, commit_messages, ExecutionState.answered, List.length_append,
      hsent n]
    omega
  | idle _ _ _ _ _ => exact Nat.le_refl _
  | stopped r m _ _ _ _ _ => simp
  | ran r m level _ _ _ _ _ _ => simp [Config.ran, truncateToolOutputs]
  | finalized _ _ => exact Nat.le_refl _

theorem reach_messages_length (env : Env) (plan : Plan) (messages : List Msg) (is : List Input) :
    messages.length ≤ (reach env plan messages is).state.messages.length := by
  exact (start_wellFormed plan messages).run_inv
    (fun c => messages.length ≤ c.state.messages.length)
    (fun hmove _ hc => hc.trans hmove.messages_length) (Nat.le_refl _) is

/-! ## Runs that send no more requests -/

/-- Nothing of the graph is left that calls the model, and nothing has called it so far. -/
structure Config.Mute (c : Config) : Prop where
  spent : c.pc.isLive = false
  silent : requestsOf c.log = []

theorem Moves.mute {env : Env} {plan : Plan} {c c' : Config} {i : Input}
    (h : Moves env plan c i c') (hc : c.Mute) : c'.Mute := by
  have hlive : ∀ {p : Pc}, c.pc = p → p.isLive = true → False := by
    intro p hp ht
    have hs := hc.spent
    rw [hp, ht] at hs
    cases hs
  cases h with
  | ended _ => exact hc
  | aborted _ _ => exact ⟨rfl, hc.silent⟩
  | finalized hpc _ =>
    refine ⟨rfl, ?_⟩
    show requestsOf (c.log ++ (finalizeNode env c.state).2) = []
    rw [requestsOf, List.filterMap_append]
    exact List.append_eq_nil_iff.mpr ⟨hc.silent, finalizeNode_requests env c.state⟩
  | unknownLevel hpc _ _ => exact (hlive hpc rfl).elim
  | prepared _ hpc _ _ => exact (hlive hpc rfl).elim
  | failed _ hpc _ _ => exact (hlive hpc rfl).elim
  | interrupted _ hpc _ _ => exact (hlive hpc rfl).elim
  | answered _ _ hpc _ _ => exact (hlive hpc rfl).elim
  | idle _ hpc _ _ _ => exact (hlive hpc rfl).elim
  | stopped _ _ hpc _ _ _ _ => exact (hlive hpc rfl).elim
  | ran _ _ _ hpc _ _ _ _ _ => exact (hlive hpc rfl).elim

theorem Config.Mute.run {env : Env} {plan : Plan} {c : Config} (hw : c.WellFormed plan)
    (hc : c.Mute) (is : List Input) : requestsOf (Machine.run (step env) c is).log = [] := by
  have hmute : (Machine.run (step env) c is).Mute :=
    hw.run_inv Config.Mute (fun hmove _ hd => hmove.mute hd) hc is
  exact hmute.silent

/-! ## The first request -/

theorem step_start (env : Env) (plan : Plan) (messages : List Msg) (first : Input) :
    (step env (.start plan messages) first).Mute ∧
        (first.aborts = true ∨ taskLevel? plan.taskLevel = none) ∨
      ∃ level, taskLevel? plan.taskLevel = some level ∧ first.aborts = false ∧
        step env (.start plan messages) first = .prepared env plan messages level first := by
  cases ha : first.aborts with
  | true =>
    refine .inl ⟨?_, .inl rfl⟩
    rw [step_of_aborts rfl ha]
    exact ⟨rfl, rfl⟩
  | false =>
    cases hl : taskLevel? plan.taskLevel with
    | none =>
      refine .inl ⟨?_, .inr rfl⟩
      have hsetup : setupNode env (buildExecutionState plan messages) = none := by
        simp [setupNode, buildExecutionState, hl]
      rw [step_of_node rfl ha]
      simp only [stepNode, Config.start, stepPrepare, hsetup]
      exact ⟨rfl, rfl⟩
    | some level => exact .inr ⟨level, rfl, rfl, step_start_known env messages hl ha⟩

theorem llmNode_effects_cons {env : Env} {n : NodeTypeName} {s : ExecutionState}
    {cancelled : Bool} {reply : Reply} (hi : s.interrupted = false)
    (hp : reply.promptRaises = false) :
    ∃ rest, (llmNode env n s cancelled reply).effects = requestEffect env n s :: rest := by
  simp only [llmNode, hi, hp, Bool.false_eq_true, if_false]
  split
  · exact ⟨_, rfl⟩
  · split
    · exact ⟨_, rfl⟩
    · exact ⟨_, rfl⟩

theorem step_prepared (env : Env) (plan : Plan) (messages : List Msg) (level : TaskLevel)
    (first second : Input) :
    (step env (.prepared env plan messages level first) second).Mute ∧
        (second.aborts = true ∨ second.reply.promptRaises = true) ∨
      second.aborts = false ∧ second.reply.promptRaises = false ∧
        ∃ rest, requestsOf (step env (.prepared env plan messages level first) second).log =
          setupMessages env plan messages :: rest := by
  let c : Config := .prepared env plan messages level first
  have hsilent : requestsOf c.log = [] := setupEffects_requests env plan level
  cases ha : second.aborts with
  | true =>
    refine .inl ⟨?_, .inl rfl⟩
    rw [step_of_aborts rfl ha]
    exact ⟨rfl, hsilent⟩
  | false =>
    rw [step_of_node rfl ha, stepNode_llm (n := .generalChat) rfl]
    cases hp : second.reply.promptRaises with
    | true =>
      refine .inl ⟨?_, .inr rfl⟩
      have hout : ∀ cancelled, llmOutcome env c.state cancelled second.reply = .failed := by
        intro cancelled
        simp [llmOutcome, hp, c, Config.prepared, buildExecutionState]
      have hnone : ∀ cancelled,
          (llmNode env .generalChat c.state cancelled second.reply).effects = [] := by
        intro cancelled
        simp [llmNode, hp, c, Config.prepared, buildExecutionState]
      let d : Config := { c with cancelled := first.cancelled || second.cancelled }
      show (stepLlm env .generalChat d second.reply).Mute
      rw [stepLlm_failed (c := d) (hout _)]
      refine ⟨rfl, ?_⟩
      show requestsOf (c.log ++ (llmNode env .generalChat c.state _ second.reply).effects) = []
      rw [hnone, List.append_nil]
      exact hsilent
    | false =>
      have hcons : ∃ rest, (llmNode env .generalChat c.state
          (first.cancelled || second.cancelled) second.reply).effects = _ :: rest :=
        llmNode_effects_cons rfl hp
      obtain ⟨rest, hrest⟩ := hcons
      refine .inr ⟨rfl, rfl, requestsOf rest, ?_⟩
      show requestsOf (c.log ++ (llmNode env .generalChat c.state
        (first.cancelled || second.cancelled) second.reply).effects) = _
      rw [hrest, requestsOf, List.filterMap_append]
      show requestsOf c.log ++ _ = _
      rw [hsilent]
      rfl

/-- A run that gets to its first model call passes it the conversation and the prompt. -/
theorem requests_of_callsModel (env : Env) {plan : Plan} (messages : List Msg) {is : List Input}
    (h : callsModel plan is = true) :
    ∃ rest, requestsOf (reach env plan messages is).log =
      setupMessages env plan messages :: rest := by
  match is, h with
  | first :: second :: is, h =>
    simp only [callsModel, Bool.and_eq_true, Bool.not_eq_true'] at h
    obtain ⟨⟨⟨hfirst, hlevel⟩, hsecond⟩, hprompt⟩ := h
    rcases step_start env plan messages first with ⟨_, ha | hl⟩ | ⟨level, _, _, hstep⟩
    · rw [hfirst] at ha; cases ha
    · rw [hl] at hlevel; cases hlevel
    rcases step_prepared env plan messages level first second with
      ⟨_, ha | hp⟩ | ⟨_, _, rest, hrest⟩
    · rw [hsecond] at ha; cases ha
    · rw [hprompt] at hp; cases hp
    have hw : (step env (.prepared env plan messages level first) second).WellFormed plan := by
      rw [← hstep]
      exact step_wellFormed _ _ _ _ (step_wellFormed _ _ _ _ (start_wellFormed plan messages))
    obtain ⟨log, hlog⟩ := run_log_prefix env hw is
    refine ⟨rest ++ requestsOf log, ?_⟩
    rw [reach, Machine.run_cons, Machine.run_cons, hstep, ← hlog, requestsOf,
      List.filterMap_append, ← requestsOf, hrest]
    rfl

theorem requests_of_not_callsModel (env : Env) {plan : Plan} (messages : List Msg)
    {is : List Input} (h : callsModel plan is = false) :
    requestsOf (reach env plan messages is).log = [] := by
  have hw := start_wellFormed plan messages
  match is, h with
  | [], _ => rfl
  | [first], _ =>
    rcases step_start env plan messages first with ⟨hmute, _⟩ | ⟨level, _, _, hstep⟩
    · exact hmute.silent
    · rw [reach, Machine.run_cons, Machine.run_nil, hstep]
      exact setupEffects_requests env plan level
  | first :: second :: is, h =>
    rcases step_start env plan messages first with ⟨hmute, _⟩ | ⟨level, hl, ha, hstep⟩
    · exact hmute.run (step_wellFormed _ _ _ _ hw) (second :: is)
    · rcases step_prepared env plan messages level first second with
        ⟨hmute, _⟩ | ⟨hsecond, hprompt, _⟩
      · rw [reach, Machine.run_cons, Machine.run_cons, hstep]
        have hw₂ : (step env (.prepared env plan messages level first) second).WellFormed plan := by
          rw [← hstep]
          exact step_wellFormed _ _ _ _ (step_wellFormed _ _ _ _ hw)
        exact hmute.run hw₂ is
      · simp [callsModel, ha, hl, hsecond, hprompt] at h

end IrisMind.Execution
