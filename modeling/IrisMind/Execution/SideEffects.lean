import IrisMind.Execution.Moves

/-! # Tools with a side effect

A plan without side effects is not offered the tools that have one, but the tool
engine runs whatever registered tool an answer names. `Quiet` says that a run
has executed no tool with a side effect so far; it survives a step exactly when
the engine does not reach a call of such a tool in it. -/
namespace IrisMind.Execution
open IrisMind.Lib IrisMind.Tools IrisMind.Planning IrisMind.Llm

def quietLog (r : ToolRegistry) (log : List Effect) : Bool :=
  (log.filterMap Effect.execution?).all fun e => !r.isSideEffect e.1.name

/-- No registered tool with a side effect has been executed. -/
def Config.quiet (env : Env) (c : Config) : Bool := env.executor.all fun r => quietLog r c.log

/-- The arguments can be spread over the registry's own parameters. -/
def ToolCall.callable (tc : ToolCall) : Bool :=
  !tc.args.any fun a => a.1 == "name" || a.1 == "self"

/-- A list of calls gets to a callable tool with a side effect: the calls before it complete. -/
def getsToSideEffect (r : ToolRegistry) (outcome : Nat → ToolOutcome) : Nat → List ToolCall → Bool
  | _, [] => false
  | i, tc :: rest => (r.isSideEffect tc.name && tc.callable) ||
      (completes r tc (outcome i) && getsToSideEffect r outcome (i + 1) rest)

/-- The tools of this step are called on an answer that gets to one with a side effect. -/
def Config.getsToSideEffect (env : Env) (c : Config) (i : Input) : Bool :=
  match c.pc, env.executor, c.state.messages.getLast? with
  | .executeTools, some r, some (.ai m) =>
    !i.aborts && Execution.getsToSideEffect r i.outcome 0 m.toolCalls
  | _, _, _ => false

theorem quietLog_append (r : ToolRegistry) (a b : List Effect) :
    quietLog r (a ++ b) = (quietLog r a && quietLog r b) := by
  rw [quietLog, List.filterMap_append, List.all_append]
  rfl

theorem quietLog_of_none {r : ToolRegistry} {log : List Effect}
    (h : log.filterMap Effect.execution? = []) : quietLog r log = true := by
  rw [quietLog, h]
  rfl

/-- A tool with a side effect is registered, so a callable call of it runs. -/
theorem execute_of_sideEffect {r : ToolRegistry} {tc : ToolCall} (o : ToolOutcome)
    (hs : r.isSideEffect tc.name = true) (hc : tc.callable = true) :
    r.execute tc.name tc.args o ≠ .rejected := by
  have hargs : (tc.args.any fun a => a.1 == "name" || a.1 == "self") = false := by
    simpa [ToolCall.callable] using hc
  unfold ToolRegistry.execute
  rw [hargs]
  unfold ToolRegistry.isSideEffect at hs
  cases hg : r.get tc.name with
  | none => rw [hg] at hs; cases hs
  | some td => cases o <;> nofun

theorem quietLog_reached (r : ToolRegistry) (outcome : Nat → ToolOutcome) (i : Nat)
    (calls : List ToolCall) :
    quietLog r (reached r outcome (callLog r) i calls) =
      !Execution.getsToSideEffect r outcome i calls := by
  induction calls generalizing i with
  | nil => rfl
  | cons tc rest ih =>
    have hlog : quietLog r (callLog r tc (outcome i)) =
        !(r.isSideEffect tc.name && tc.callable) := by
      cases hs : r.isSideEffect tc.name with
      | false =>
        unfold callLog quietLog
        split <;> simp [Effect.execution?, hs]
      | true =>
        cases hc : tc.callable with
        | true =>
          have hne := execute_of_sideEffect (outcome i) hs hc
          unfold callLog quietLog
          cases he : r.execute tc.name tc.args (outcome i) with
          | rejected => exact absurd he hne
          | failed => simp [Effect.execution?, hs]
          | returned text => simp [Effect.execution?, hs]
        | false =>
          have hrej : r.execute tc.name tc.args (outcome i) = .rejected := by
            unfold ToolRegistry.execute
            rw [if_pos (by simpa [ToolCall.callable] using hc)]
          unfold callLog quietLog
          rw [hrej]
          rfl
    rw [reached, quietLog_append, hlog, Execution.getsToSideEffect, Bool.not_or]
    cases completes r tc (outcome i) with
    | false => simp [quietLog]
    | true => simp only [if_true, Bool.true_and, ih]

/-- A step keeps a run quiet exactly when it does not get to a tool with a side effect. -/
theorem Moves.quiet {env : Env} {plan : Plan} {c c' : Config} {i : Input}
    (h : Moves env plan c i c') (hq : c.quiet env = true) :
    c'.quiet env = true ↔ c.getsToSideEffect env i = false := by
  rcases h.log_cases with ⟨effects, hl, he, hidle⟩ | ⟨r, m, hpc, ha, hx, hm, hl⟩
  · have hquiet : c'.quiet env = true := by
      unfold Config.quiet at hq ⊢
      cases hx : env.executor with
      | none => rfl
      | some r =>
        rw [hx] at hq
        rw [hl]
        simp only [Option.all_some] at hq ⊢
        rw [quietLog_append, hq, quietLog_of_none he]
        rfl
    have hgets : c.getsToSideEffect env i = false := by
      unfold Config.getsToSideEffect
      split
      · next hpc hx _ =>
        cases ha : i.aborts with
        | true => rfl
        | false => rw [hidle hpc ha] at hx; cases hx
      · rfl
    exact iff_of_true hquiet hgets
  · have hqr : quietLog r c.log = true := by simpa [Config.quiet, hx] using hq
    simp only [Config.quiet, Config.getsToSideEffect, hpc, hx, hm, ha, hl, Option.all_some,
      quietLog_append, hqr, quietLog_reached, Bool.true_and, Bool.not_false, Bool.not_eq_true']

theorem start_quiet (env : Env) (plan : Plan) (messages : List Msg) :
    (Config.start plan messages).quiet env = true := by
  show env.executor.all (fun r => quietLog r []) = true
  cases env.executor <;> rfl

/-- For every plan, silent ones included, and every run: no tool with a side effect is executed
exactly when the tool node never gets to a call of one in an answer. -/
theorem quiet_iff (env : Env) (plan : Plan) (messages : List Msg) (is : List Input) :
    (∀ js, js <+: is → (reach env plan messages js).quiet env = true) ↔
      Machine.Guarded (step env) (fun c i => c.getsToSideEffect env i = false)
        (.start plan messages) is := by
  exact Machine.guarded_iff (Config.WellFormed plan) (fun c => c.quiet env = true)
    (step_wellFormed env plan) (fun c i hw hq => (step_moves hw i).quiet hq)
    (start_wellFormed plan messages) (start_quiet env plan messages) is

/-! ## Answers that keep to the offer -/

/-- The tools of a plan without side effects: a tool that is offered has none. -/
theorem offered_no_sideEffect {env : Env} {n : NodeTypeName} {s : ExecutionState}
    {schema : ToolSchema} {r : ToolRegistry} (hp : s.plan.allowSideEffects = false)
    (hx : env.executor = some r) (h : schema ∈ allTools env n s) :
    r.isSideEffect schema.name = false ∨ ∃ t : RoutingTool, schema.name = t.value := by
  rcases List.mem_append.mp h with ht | hr
  · left
    simp only [getTools, hx] at ht
    split at ht
    · obtain ⟨_, td, hg, hs⟩ := ToolRegistry.mem_listToolsByName ht
      rw [ToolRegistry.isSideEffect_of_get hg]
      exact hs hp
    · obtain ⟨td, hg, hs⟩ := ToolRegistry.mem_listTools ht
      rw [ToolRegistry.isSideEffect_of_get hg]
      exact hs hp
  · obtain ⟨t, _, he⟩ := List.mem_map.mp hr
    exact .inr ⟨t, by rw [← he]; rfl⟩

/-- The calls that are due have no side effect. -/
def Config.HarmlessCalls (env : Env) (c : Config) : Prop :=
  c.pc = .executeTools → ∀ r m, env.executor = some r →
    c.state.messages.getLast? = some (.ai m) → ∀ tc ∈ m.toolCalls, r.isSideEffect tc.name = false

theorem getsToSideEffect_of_harmless {r : ToolRegistry} {outcome : Nat → ToolOutcome} {i : Nat}
    {calls : List ToolCall} (h : ∀ tc ∈ calls, r.isSideEffect tc.name = false) :
    Execution.getsToSideEffect r outcome i calls = false := by
  induction calls generalizing i with
  | nil => rfl
  | cons tc rest ih =>
    have hhead := h tc List.mem_cons_self
    have hrest := ih (i := i + 1) fun x hx => h x (List.mem_cons_of_mem _ hx)
    rw [Execution.getsToSideEffect, hhead, hrest]
    simp

theorem Moves.harmlessCalls {env : Env} {plan : Plan} {c c' : Config} {i : Input}
    (h : Moves env plan c i c') (hw : c.WellFormed plan) (hp : plan.allowSideEffects = false)
    (hc : c.HarmlessCalls env) (ho : c.offered env i = true) : c'.HarmlessCalls env := by
  intro hpc' r m' hx hm' tc htc
  cases h with
  | ended hpc => exact hc hpc' r m' hx hm' tc htc
  | answered n m hpc ha hout =>
    have hans : c.answer? env i = some m := answer?_eq_some_iff.mpr ⟨n, hpc, ha, hout⟩
    have hm : m' = m := by
      simp only [Config.afterLlm, commit_messages, Config.sent, ExecutionState.answered,
        List.getLast?_concat] at hm'
      cases hm'
      rfl
    subst hm
    obtain ⟨_, hnone⟩ := calls_of_answerRoute hpc'
    simp only [Config.offered, hpc, hans, Option.all_some, List.all_eq_true] at ho
    obtain ⟨schema, hs, hn⟩ := List.any_eq_true.mp (ho tc htc)
    have hn : schema.name = tc.name := beq_iff_eq.mp hn
    have hplan : c.state.plan.allowSideEffects = false := by rw [hw.plan_eq]; exact hp
    rcases offered_no_sideEffect hplan hx hs with hno | ⟨t, ht⟩
    · rw [← hn]; exact hno
    · have hof := RoutingTool.ofName?_eq_some_iff.mpr (hn.symm.trans ht)
      rw [routingCall?_eq_none_iff.mp hnone tc htc] at hof
      cases hof
  | idle level hpc ha hl he => exact absurd hpc' (toolRoute_ne_tools level _)
  | ran r m level hpc ha hl he hm hx => exact absurd hpc' (toolRoute_ne_tools level _)
  | aborted _ _ | unknownLevel _ _ _ | prepared _ _ _ _ | failed _ _ _ _ | interrupted _ _ _ _
  | stopped _ _ _ _ _ _ _ | finalized _ _ => cases hpc'

/-- What the offer does protect: as long as every answer keeps to the tools it was offered, a
plan without side effects executes no tool that has one. -/
theorem offered_quiet {env : Env} {plan : Plan} {messages : List Msg} {is : List Input}
    (hp : plan.allowSideEffects = false)
    (ho : Machine.Guarded (step env) (fun c i => c.offered env i = true)
      (.start plan messages) is) :
    (reach env plan messages is).quiet env = true := by
  have hgets : ∀ {c : Config} {i : Input}, c.HarmlessCalls env →
      c.getsToSideEffect env i = false := by
    intro c i hharmless
    unfold Config.getsToSideEffect
    split
    · next r m hpc hx hm =>
      rw [getsToSideEffect_of_harmless (hharmless hpc r m hx hm), Bool.and_false]
    · rfl
  obtain ⟨_, hquiet⟩ := (start_wellFormed plan messages).guarded_inv
    (fun c => c.HarmlessCalls env ∧ c.quiet env = true)
    (fun hmove hw hoff hc =>
      ⟨hmove.harmlessCalls hw hp hc.1 hoff, (hmove.quiet hc.2).mpr (hgets hc.1)⟩)
    ⟨nofun, start_quiet env plan messages⟩ ho
  exact hquiet

/-- A published silent plan, whose model names a tool it was not offered. -/
theorem silent_plan_acts :
    ¬ ∀ (env : Env) (plan : Plan) (s a r : String) (messages : List Msg) (is : List Input),
      plan.silent = true →
      (reach env (publish plan s a r) messages is).quiet env = true := by
  intro h
  let registry := ToolRegistry.empty.register ⟨"send_mail", "", true⟩
  have hq := h { Env.bare with executor := some registry } { content := "hi", silent := true }
    "s" "a" "r" [] [.calls [], .calls ["send_mail"], .calls []] rfl
  exact absurd hq (by decide)

end IrisMind.Execution
