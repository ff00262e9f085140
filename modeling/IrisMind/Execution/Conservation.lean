import IrisMind.Execution.Moves

/-! # Tool calls between an answer and the next request

An answer may mix routing calls and real calls. `settle` follows an answer until
the graph is about to call the model again, to finish, or has raised; `Served`
says that by then every real call of the answer ran once, in order, and every
one without side effect got its tool message. -/
namespace IrisMind.Execution
open IrisMind.Lib IrisMind.Tools IrisMind.Planning IrisMind.Llm

/-- The calls of an answer that name no routing tool. -/
def realCalls (m : AIMessage) : List ToolCall :=
  m.toolCalls.filter fun tc => RoutingTool.ofName? tc.name = none

def Msg.answer? : Msg → Option (String × Option String)
  | .tool name _ id => some (name, some id)
  | _ => none

/-- A call as its tool message names it. -/
def ToolCall.tag (tc : ToolCall) : String × Option String := (tc.name, tc.id)

/-- No registered side effect: the call's result goes back into the conversation. -/
def wantsAnswer (env : Env) (tc : ToolCall) : Bool :=
  !env.executor.any (·.isSideEffect tc.name)

def executedSince (c c' : Config) : List (ToolCall × Option String) :=
  (c'.log.drop c.log.length).filterMap Effect.execution?

/-- The tool messages behind the answer that was appended to the conversation of `c`. -/
def answeredSince (c c' : Config) : List (String × Option String) :=
  (c'.state.messages.drop (c.state.messages.length + 1)).filterMap Msg.answer?

/-- The first configuration behind an answer in which no tools are due. -/
def settle (env : Env) (c : Config) (i j : Input) : Config :=
  let next := step env c i
  if next.pc = .executeTools then step env next j else next

structure Served (env : Env) (c : Config) (m : AIMessage) (c' : Config) : Prop where
  executed : (executedSince c c').map Prod.fst = realCalls m
  returned : ∀ e ∈ executedSince c c', e.2 ≠ none
  answered : answeredSince c c' = ((realCalls m).filter (wantsAnswer env)).map ToolCall.tag

/-! ## Lists of calls -/

/-- What `Served` asks of the engine's own lists. -/
def Answered (r : ToolRegistry) (outcome : Nat → ToolOutcome) (i : Nat)
    (calls : List ToolCall) : Prop :=
  ((reached r outcome (callLog r) i calls).filterMap Effect.execution?).map Prod.fst = calls ∧
    (∀ e ∈ (reached r outcome (callLog r) i calls).filterMap Effect.execution?, e.2 ≠ none) ∧
    (reached r outcome (callAnswer r) i calls).filterMap Msg.answer? =
      (calls.filter fun tc => !r.isSideEffect tc.name).map ToolCall.tag

/-- The engine serves a list of calls exactly when all of them complete. -/
theorem answered_iff_allComplete (r : ToolRegistry) (outcome : Nat → ToolOutcome) (i : Nat)
    (calls : List ToolCall) :
    Answered r outcome i calls ↔ allComplete r outcome i calls = true := by
  induction calls generalizing i with
  | nil => simp [Answered, reached, allComplete]
  | cons tc rest ih =>
    have hrest := ih (i + 1)
    unfold Answered at hrest ⊢
    cases he : r.execute tc.name tc.args (outcome i) with
    | rejected =>
      simp [reached, allComplete, completes, callLog, he]
    | failed =>
      simp [reached, allComplete, completes, callLog, he, Effect.execution?]
    | returned text =>
      cases hs : r.isSideEffect tc.name with
      | true =>
        cases hid : tc.id <;>
          simpa [reached, allComplete, completes, callLog, callAnswer, he, hs, hid,
            Effect.execution?] using hrest
      | false =>
        cases hid : tc.id with
        | none =>
          simp [reached, allComplete, completes, callLog, callAnswer, he, hs, hid,
            Effect.execution?]
        | some id =>
          simpa [reached, allComplete, completes, callLog, callAnswer, he, hs, hid,
            Effect.execution?, Msg.answer?, ToolCall.tag] using hrest

/-! ## What the nodes leave alone -/

theorem truncate_answer? (m : Msg) : (truncateToolOutput m).answer? = m.answer? := by
  cases m with
  | tool name content id =>
    show (if _ then Msg.tool name _ id else Msg.tool name content id).answer? = some (name, some id)
    split <;> rfl
  | _ => rfl

theorem truncate_drop_answers (k : Nat) (messages : List Msg) :
    ((truncateToolOutputs messages).drop k).filterMap Msg.answer? =
      (messages.drop k).filterMap Msg.answer? := by
  unfold truncateToolOutputs
  rw [← List.map_drop, List.filterMap_map]
  congr 1
  funext m
  exact truncate_answer? m

theorem realCalls_of_none {m : AIMessage} (h : routingCall? m.toolCalls = none) :
    realCalls m = m.toolCalls :=
  List.filter_eq_self.mpr fun tc ht => by simpa using routingCall?_eq_none_iff.mp h tc ht

/-! ## Behind an answer -/

/-- The configuration behind an answer: nothing ran, and the conversation grew by the answer. -/
theorem answer_step {env : Env} {plan : Plan} {c : Config} {i : Input} {m : AIMessage}
    (hw : c.WellFormed plan) (h : c.answer? env i = some m) :
    (step env c i).pc = (answerRoute c.state m).nextNode.pc ∧
      (∃ sent, sent.length = c.state.messages.length ∧
        (step env c i).state.messages = sent ++ [.ai m]) ∧
      ∃ effects, effects.filterMap Effect.execution? = [] ∧
        (step env c i).log = c.log ++ effects := by
  obtain ⟨n, _, hstep⟩ := step_of_answer hw h
  rw [hstep]
  refine ⟨rfl, ⟨_, sentMessages_length env n c.state i.reply, ?_⟩, _,
    llmNode_executions env n c.state (c.token i) i.reply, rfl⟩
  rw [Config.afterLlm, commit_messages]
  rfl

/-- Nothing happened behind the answer: it is served when it has no real call. -/
theorem served_of_untouched (env : Env) {c : Config} (c' : Config) {m : AIMessage}
    {sent : List Msg} {effects : List Effect} (hs : sent.length = c.state.messages.length)
    (hm : c'.state.messages = sent ++ [.ai m])
    (he : effects.filterMap Effect.execution? = []) (hl : c'.log = c.log ++ effects) :
    Served env c m c' ↔ realCalls m = [] := by
  have hexec : executedSince c c' = [] := by
    rw [executedSince, hl, List.drop_left, he]
  have hans : answeredSince c c' = [] := by
    rw [answeredSince, hm, ← hs]
    simp
  constructor
  · intro h
    have hx := h.executed
    rw [hexec] at hx
    exact hx.symm
  · intro h
    refine ⟨by rw [hexec, h]; rfl, ?_, by rw [hans, h]; rfl⟩
    rw [hexec]
    nofun

/-- The engine ran on the answer: it is served when every call completes. -/
theorem served_of_run {env : Env} {c : Config} (c' : Config) {m : AIMessage} {sent : List Msg}
    {effects : List Effect} {r : ToolRegistry} {outcome : Nat → ToolOutcome}
    (hx : env.executor = some r) (hr : routingCall? m.toolCalls = none)
    (hs : sent.length = c.state.messages.length)
    (hm : (c'.state.messages.drop (c.state.messages.length + 1)).filterMap Msg.answer? =
      ((sent ++ [Msg.ai m] ++ reached r outcome (callAnswer r) 0 m.toolCalls).drop
        (c.state.messages.length + 1)).filterMap Msg.answer?)
    (he : effects.filterMap Effect.execution? = [])
    (hl : c'.log = c.log ++ effects ++ reached r outcome (callLog r) 0 m.toolCalls) :
    Served env c m c' ↔ allComplete r outcome 0 m.toolCalls = true := by
  rw [← answered_iff_allComplete]
  have hexec : executedSince c c' =
      (reached r outcome (callLog r) 0 m.toolCalls).filterMap Effect.execution? := by
    rw [executedSince, hl, List.append_assoc, List.drop_left, List.filterMap_append, he]
    rfl
  have hans : answeredSince c c' =
      (reached r outcome (callAnswer r) 0 m.toolCalls).filterMap Msg.answer? := by
    have hlen : (sent ++ [Msg.ai m]).length = c.state.messages.length + 1 := by simp [hs]
    rw [answeredSince, hm, ← hlen, List.drop_left]
  have hreal := realCalls_of_none hr
  have hwants : wantsAnswer env = fun tc => !r.isSideEffect tc.name := by
    funext tc
    simp [wantsAnswer, hx]
  constructor
  · intro h
    refine ⟨?_, ?_, ?_⟩
    · rw [← hexec, h.executed, hreal]
    · rw [← hexec]; exact h.returned
    · rw [← hans, h.answered, hreal, hwants]
  · intro h
    obtain ⟨h1, h2, h3⟩ := h
    refine ⟨?_, ?_, ?_⟩
    · rw [hexec, h1, hreal]
    · rw [hexec]; exact h2
    · rw [hans, h3, hreal, hwants]

/-- A tool step behind an answer whose calls are all real. -/
theorem served_of_tools {env : Env} {plan : Plan} {c d : Config} {j : Input} {m : AIMessage}
    {sent : List Msg} {effects : List Effect} (hw : d.WellFormed plan)
    (hpc : d.pc = .executeTools) (hr : routingCall? m.toolCalls = none) (hc : m.toolCalls ≠ [])
    (hs : sent.length = c.state.messages.length) (hm : d.state.messages = sent ++ [.ai m])
    (he : effects.filterMap Effect.execution? = []) (hl : d.log = c.log ++ effects) :
    (Served env c m (step env d j) ↔ ∃ r, env.executor = some r ∧ j.aborts = false ∧
        allComplete r j.outcome 0 m.toolCalls = true) ∧
      ((step env d j).pc ≠ .raised → ¬ Served env c m (step env d j) → env.executor = none) ∧
      (env.executor = none → j.aborts = false → (step env d j).pc ≠ .raised) ∧
      (j.aborts = true → (step env d j).pc = .raised) := by
  have hreal : realCalls m ≠ [] := by rw [realCalls_of_none hr]; exact hc
  have hlast : d.state.messages.getLast? = some (.ai m) := by rw [hm]; exact List.getLast?_concat
  have hmove : Moves env plan d j (step env d j) := step_moves hw j
  generalize step env d j = c' at hmove ⊢
  cases hmove with
  | ended h => rw [hpc] at h; cases h
  | unknownLevel h _ _ => rw [hpc] at h; cases h
  | prepared _ h _ _ => rw [hpc] at h; cases h
  | failed _ h _ _ => rw [hpc] at h; cases h
  | interrupted _ h _ _ => rw [hpc] at h; cases h
  | answered _ _ h _ _ => rw [hpc] at h; cases h
  | finalized h _ => rw [hpc] at h; cases h
  | aborted _ ha =>
    have hserved := served_of_untouched env { d with cancelled := d.token j, pc := .raised }
      hs hm he hl
    refine ⟨?_, fun h => absurd rfl h, fun _ h => ?_, fun _ => rfl⟩
    · rw [hserved]
      constructor
      · intro h; exact absurd h hreal
      · rintro ⟨_, _, h, _⟩; rw [ha] at h; cases h
    · rw [ha] at h; cases h
  | idle level _ ha _ hx =>
    have hserved := served_of_untouched env
      { d with cancelled := d.token j, pc := toolRoute level d.state } hs hm he hl
    refine ⟨?_, fun _ _ => hx, fun _ _ => Pc.ne_raised (toolRoute_isEnd level d.state),
      fun h => ?_⟩
    · rw [hserved]
      constructor
      · intro h; exact absurd h hreal
      · rintro ⟨_, h, _⟩; rw [hx] at h; cases h
    · rw [ha] at h; cases h
  | stopped r m' _ ha hx hm' hstop =>
    rw [hlast] at hm'
    cases hm'
    refine ⟨?_, fun h => absurd rfl h, fun h => ?_, fun _ => rfl⟩
    · rw [served_of_run _ hx hr hs (by rw [hm]) he (by rw [hl]), hstop]
      constructor
      · nofun
      · rintro ⟨r', h, _, h'⟩
        rw [hx] at h
        cases h
        rw [hstop] at h'
        cases h'
    · rw [hx] at h; cases h
  | ran r m' level _ ha _ hx hm' hrun =>
    rw [hlast] at hm'
    cases hm'
    have hserved := (served_of_run
      { state := d.ran r j m.toolCalls
        pc := toolRoute level (d.ran r j m.toolCalls)
        cancelled := d.token j
        log := d.log ++ reached r j.outcome (callLog r) 0 m.toolCalls }
      hx hr hs (by rw [← hm]; exact truncate_drop_answers _ _) he (by rw [hl])).mpr hrun
    refine ⟨⟨fun _ => ⟨r, hx, ha, hrun⟩, fun _ => hserved⟩, fun _ h => absurd hserved h,
      fun h => ?_, fun h => ?_⟩
    · rw [hx] at h; cases h
    · rw [ha] at h; cases h

/-- When the calls of an answer are served, for every run and every answer in it. Before the
graph goes on to a model call or to its end they are, exactly when the answer has no real call,
or has no routing call and an executor runs the tools; the graph may also not go on at all. In
the second reading, which counts that as a loss, every call must also complete. -/
theorem toolCalls_served_iff (env : Env) (plan : Plan) (messages : List Msg) (is : List Input)
    (i j : Input) (m : AIMessage) (h : (reach env plan messages is).answer? env i = some m) :
    let c := reach env plan messages is
    let c' := settle env c i j
    ((c'.pc ≠ .raised → Served env c m c') ↔ realCalls m = [] ∨
      routingCall? m.toolCalls = none ∧ (env.executor ≠ none ∨ j.aborts = true)) ∧
    (Served env c m c' ↔ realCalls m = [] ∨
      routingCall? m.toolCalls = none ∧ ∃ r, env.executor = some r ∧ j.aborts = false ∧
        allComplete r j.outcome 0 m.toolCalls = true) := by
  intro c c'
  have hw : c.WellFormed plan := reach_wellFormed env plan messages is
  obtain ⟨hpc, ⟨sent, hs, hm⟩, effects, he, hl⟩ := answer_step hw h
  by_cases htools : (step env c i).pc = .executeTools
  · have hc' : c' = step env (step env c i) j := if_pos htools
    obtain ⟨hne, hr⟩ := calls_of_answerRoute (hpc.symm.trans htools)
    have hreal : realCalls m ≠ [] := by rw [realCalls_of_none hr]; exact hne
    obtain ⟨hserved, hlost, hgoes, hends⟩ :=
      served_of_tools (j := j) (step_wellFormed env plan c i hw) htools hr hne hs hm he hl
    rw [hc']
    refine ⟨⟨fun hgo => .inr ⟨hr, ?_⟩, fun hcond hgo => ?_⟩, ?_⟩
    · by_contra hnot
      obtain ⟨hx, ha⟩ := not_or.mp hnot
      have hx : env.executor = none := by simpa using hx
      obtain ⟨r, hr', _⟩ := hserved.mp (hgo (hgoes hx (by simpa using ha)))
      rw [hx] at hr'
      cases hr'
    · by_contra hnot
      have hx := hlost hgo hnot
      rcases hcond with hcond | ⟨_, hcond | hcond⟩
      · exact hreal hcond
      · exact hcond hx
      · exact hgo (hends hcond)
    · rw [hserved]
      exact ⟨fun hx => .inr ⟨hr, hx⟩, fun hx => hx.elim (fun hx => absurd hx hreal) (·.2)⟩
  · have hc' : c' = step env c i := if_neg htools
    have hserved := served_of_untouched env (step env c i) hs hm he hl
    have hcall : routingCall? m.toolCalls = none → realCalls m = [] := by
      intro hr
      rw [realCalls_of_none hr]
      by_contra hne
      apply htools
      rw [hpc, answerRoute, hr]
      simp [hne, Target.pc]
    have hgo : (step env c i).pc ≠ .raised := by
      rw [hpc]
      exact Pc.ne_raised (answerRoute_isEnd c.state m)
    rw [hc', hserved]
    refine ⟨⟨fun hx => .inl (hx hgo), fun hx _ => ?_⟩, ⟨.inl, fun hx => ?_⟩⟩
    · exact hx.elim id fun hx => hcall hx.1
    · exact hx.elim id fun hx => hcall hx.1

/-- The bare graph with one tool, a web search. -/
def Env.withSearch : Env :=
  { Env.bare with executor := some (ToolRegistry.empty.register ⟨"web_search", "", false⟩) }

/-- A lone search from the task node is served. -/
theorem search_served :
    Served .withSearch
      (reach .withSearch { content := "hi" } [] [.calls [], .calls ["general_task"]])
      (Input.calls ["web_search"]).reply.message
      (settle .withSearch
        (reach .withSearch { content := "hi" } [] [.calls [], .calls ["general_task"]])
        (.calls ["web_search"]) (.calls [])) :=
  (toolCalls_served_iff .withSearch { content := "hi" } [] [.calls [], .calls ["general_task"]]
    (.calls ["web_search"]) (.calls []) _ rfl).2.mpr
    (.inr ⟨by decide, _, rfl, rfl, by decide⟩)

/-- A search next to a `finish` is lost: the run goes on to its end without it. -/
theorem mixed_answer_unserved :
    ¬ ∀ (env : Env) (plan : Plan) (messages : List Msg) (is : List Input) (i j : Input)
      (m : AIMessage), (reach env plan messages is).answer? env i = some m →
      (settle env (reach env plan messages is) i j).pc ≠ .raised →
      Served env (reach env plan messages is) m (settle env (reach env plan messages is) i j) := by
  intro h
  have hs := h .withSearch { content := "hi" } [] [.calls [], .calls ["general_task"]]
    (.calls ["web_search", "finish"]) (.calls []) _ rfl (by decide)
  exact absurd (congrArg List.length hs.executed) (by decide)

end IrisMind.Execution
