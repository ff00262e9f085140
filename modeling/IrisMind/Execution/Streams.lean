import IrisMind.Execution.Moves

/-! # The stream events of a run

A run opens its stream with a thinking event and speaking events and is to close
it with one terminating event. It closes it when every step is clean: nothing
raises out of the graph, and no model call returns with its interrupt token
cancelled. One unclean step loses the end of the stream, for good. -/
namespace IrisMind.Execution
open IrisMind.Lib IrisMind.Tools IrisMind.Planning IrisMind.Llm IrisMind.Events

/-- The events of a log for the plan's session and room, in order. -/
def streamEvents (plan : Plan) (log : List Effect) : List MessageEvent :=
  (log.filterMap Effect.event?).filter fun e =>
    e.sessionId = plan.sessionId && e.roomId = plan.roomId

/-- One terminating event, behind everything that opens the stream. -/
def EndsOnce (events : List MessageEvent) : Prop :=
  ∃ pre last post, events = pre ++ last :: post ∧ last.isTerminating = true ∧
    (∀ e ∈ pre, e.isTerminating = false) ∧
    ∀ e ∈ post, e.isTerminating = false ∧ e.isOpening = false

/-- A run of the graph that has come to its end, as every granted execution does. -/
structure FinishedRun where
  env : Env
  plan : Plan
  messages : List Msg
  inputs : List Input
  finished : (reach env plan messages inputs).pc.isEnd = true

def FinishedRun.events (r : FinishedRun) : List MessageEvent :=
  streamEvents r.plan (reach r.env r.plan r.messages r.inputs).log

/-- The run has published a thinking or a speaking event. -/
def FinishedRun.streamed (r : FinishedRun) : Bool := r.events.any (·.isOpening)

/-- Nothing raises in this step, and no model call returns with the token cancelled, be it by an
interrupt or by the repetition detector. -/
def Config.clean (env : Env) (c : Config) (i : Input) : Bool :=
  match c.pc with
  | .prepareContext => !i.aborts && (taskLevel? c.state.plan.taskLevel).isSome
  | .llm _ => !i.aborts && match llmOutcome env c.state (c.token i) i.reply with
    | .interrupted => false
    | _ => true
  | .executeTools => !i.aborts && match env.executor, c.state.messages.getLast? with
    | some r, some (.ai m) => allComplete r i.outcome 0 m.toolCalls
    | _, _ => true
  | .finalize => !i.aborts
  | .done | .raised => true

/-! ## The events of the nodes -/

/-- No event of the log ends a stream. -/
def NoEnd (log : List Effect) : Prop :=
  ∀ e ∈ log.filterMap Effect.event?, e.isTerminating = false

theorem NoEnd.append {a b : List Effect} (ha : NoEnd a) (hb : NoEnd b) : NoEnd (a ++ b) := by
  intro e he
  rw [List.filterMap_append] at he
  rcases List.mem_append.mp he with h | h
  · exact ha e h
  · exact hb e h

theorem noEnd_of_forall {log : List Effect}
    (h : ∀ x ∈ log, ∀ e, x.event? = some e → e.isTerminating = false) : NoEnd log := by
  intro e he
  obtain ⟨x, hx, hxe⟩ := List.mem_filterMap.mp he
  exact h x hx e hxe

theorem setupEffects_noEnd (env : Env) (plan : Plan) (level : TaskLevel) :
    NoEnd (setupEffects env plan level) := by
  refine noEnd_of_forall fun x hx e he => ?_
  rcases mem_setupEffects hx with ⟨_, _, h⟩ | ⟨_, h⟩
  · rw [h] at he; cases he
  · rw [h] at he; cases he; rfl

theorem llmNode_noEnd (env : Env) (n : NodeTypeName) (s : ExecutionState) (cancelled : Bool)
    (reply : Reply) : NoEnd (llmNode env n s cancelled reply).effects := by
  refine noEnd_of_forall fun x hx e he => ?_
  rcases mem_llmNode_effects hx with h | ⟨_, _, h⟩ | ⟨_, _, h⟩
  · rw [h] at he; cases he
  · rw [h] at he; cases he; rfl
  · rw [h] at he; cases he

theorem reached_noEnd (r : ToolRegistry) (outcome : Nat → ToolOutcome) (i : Nat)
    (calls : List ToolCall) : NoEnd (reached r outcome (callLog r) i calls) := by
  refine noEnd_of_forall fun x hx e he => ?_
  obtain ⟨_, _, _, h⟩ := mem_reached_log hx
  rw [h] at he
  cases he

/-! ## Open, closed and lost streams -/

/-- Under way: the end of the stream is still to come, and it will. -/
structure Config.Open (c : Config) : Prop where
  noEnd : NoEnd c.log
  running : c.pc.isEnd = false
  uninterrupted : c.pc = .finalize → c.state.interrupted = false

/-- Finished as it should: the event that ends the stream is the last one. -/
structure Config.Closed (env : Env) (plan : Plan) (c : Config) : Prop where
  done : c.pc = .done
  ended : env.eventBus = true → ∃ log, NoEnd log ∧
    c.log = log ++ [.publish (streamEvent plan .done "")]

/-- The stream has no end and will not get one. -/
structure Config.Lost (c : Config) : Prop where
  noEnd : NoEnd c.log
  stuck : c.pc.isEnd = true ∨ c.pc = .finalize ∧ c.state.interrupted = true

theorem Moves.lost {env : Env} {plan : Plan} {c c' : Config} {i : Input}
    (h : Moves env plan c i c') (hl : c.Lost) : c'.Lost := by
  obtain ⟨hno, hstuck⟩ := hl
  have hfin : ∀ {p : Pc}, c.pc = p → p.isEnd = false → p = .finalize ∧
      c.state.interrupted = true := by
    intro p hp hne
    rcases hstuck with hend | ⟨hf, hi⟩
    · rw [hp, hne] at hend; cases hend
    · exact ⟨hp.symm.trans hf, hi⟩
  cases h with
  | ended _ => exact ⟨hno, hstuck⟩
  | aborted _ _ => exact ⟨hno, .inl rfl⟩
  | finalized hpc _ =>
    obtain ⟨_, hi⟩ := hfin hpc rfl
    refine ⟨?_, .inl rfl⟩
    show NoEnd (c.log ++ (finalizeNode env c.state).2)
    have hnone : (finalizeNode env c.state).2 = [] := by
      rw [finalizeNode, hi]
      rfl
    rw [hnone, List.append_nil]
    exact hno
  | unknownLevel hpc _ _ => cases (hfin hpc rfl).1
  | prepared _ hpc _ _ => cases (hfin hpc rfl).1
  | failed _ hpc _ _ => cases (hfin hpc rfl).1
  | interrupted _ hpc _ _ => cases (hfin hpc rfl).1
  | answered _ _ hpc _ _ => cases (hfin hpc rfl).1
  | idle _ hpc _ _ _ => cases (hfin hpc rfl).1
  | stopped _ _ hpc _ _ _ _ => cases (hfin hpc rfl).1
  | ran _ _ _ hpc _ _ _ _ _ => cases (hfin hpc rfl).1

/-- An unclean step loses the stream. -/
theorem Moves.unclean {env : Env} {plan : Plan} {c c' : Config} {i : Input}
    (h : Moves env plan c i c') (hw : c.WellFormed plan) (ho : c.Open)
    (hc : c.clean env i = false) : c'.Lost := by
  cases h with
  | ended hpc => rw [ho.running] at hpc; cases hpc
  | aborted _ _ => exact ⟨ho.noEnd, .inl rfl⟩
  | unknownLevel _ _ _ => exact ⟨ho.noEnd, .inl rfl⟩
  | prepared level hpc ha hl =>
    simp [Config.clean, hpc, ha, hw.plan_eq, hl] at hc
  | failed n hpc ha hout => simp [Config.clean, hpc, ha, hout] at hc
  | interrupted n hpc ha hout =>
    exact ⟨ho.noEnd.append (llmNode_noEnd _ _ _ _ _), .inr ⟨rfl, rfl⟩⟩
  | answered n m hpc ha hout => simp [Config.clean, hpc, ha, hout] at hc
  | idle level hpc ha hl he => simp [Config.clean, hpc, ha, he] at hc
  | stopped r m hpc ha he hm hx =>
    exact ⟨ho.noEnd.append (reached_noEnd _ _ _ _), .inl rfl⟩
  | ran r m level hpc ha hl he hm hx => simp [Config.clean, hpc, ha, he, hm, hx] at hc
  | finalized hpc ha => simp [Config.clean, hpc, ha] at hc

/-- A clean step keeps the stream open, or closes it. -/
theorem Moves.clean {env : Env} {plan : Plan} {c c' : Config} {i : Input}
    (h : Moves env plan c i c') (hw : c.WellFormed plan) (ho : c.Open)
    (hc : c.clean env i = true) : c'.Open ∨ c'.Closed env plan := by
  cases h with
  | ended hpc => rw [ho.running] at hpc; cases hpc
  | aborted hpc ha =>
    cases hp : c.pc <;> simp [Config.clean, hp, ha] at hc <;> rw [hp] at hpc <;> cases hpc
  | unknownLevel hpc ha hl => simp [Config.clean, hpc, ha, hw.plan_eq, hl] at hc
  | prepared level hpc ha hl =>
    exact .inl ⟨ho.noEnd.append (setupEffects_noEnd _ _ _), rfl, nofun⟩
  | failed n hpc ha hout =>
    obtain ⟨hi, _⟩ := hw.running (by rw [hpc]; rfl)
    exact .inl ⟨ho.noEnd.append (llmNode_noEnd _ _ _ _ _), rfl, fun _ => hi⟩
  | interrupted n hpc ha hout => simp [Config.clean, hpc, ha, hout] at hc
  | answered n m hpc ha hout =>
    obtain ⟨hi, _⟩ := hw.running (by rw [hpc]; rfl)
    refine .inl ⟨ho.noEnd.append (llmNode_noEnd _ _ _ _ _), answerRoute_isEnd _ _, fun _ => ?_⟩
    rw [Config.afterLlm, commit_interrupted]
    exact hi
  | idle level hpc ha hl he =>
    obtain ⟨hi, _⟩ := hw.running (by rw [hpc]; rfl)
    exact .inl ⟨ho.noEnd, toolRoute_isEnd _ _, fun _ => hi⟩
  | stopped r m hpc ha he hm hx => simp [Config.clean, hpc, ha, he, hm, hx] at hc
  | ran r m level hpc ha hl he hm hx =>
    obtain ⟨hi, _⟩ := hw.running (by rw [hpc]; rfl)
    exact .inl ⟨ho.noEnd.append (reached_noEnd _ _ _ _), toolRoute_isEnd _ _, fun _ => hi⟩
  | finalized hpc ha =>
    refine .inr ⟨rfl, fun hb => ⟨c.log, ho.noEnd, ?_⟩⟩
    show c.log ++ (finalizeNode env c.state).2 = _
    simp only [finalizeNode, ho.uninterrupted hpc, hb, Bool.not_true, Bool.or_false,
      Bool.false_eq_true, if_false, hw.plan_eq]

/-- A finished run was clean and closed its stream, or was unclean and lost it. -/
theorem open_run {env : Env} {plan : Plan} {c : Config} (hw : c.WellFormed plan) (ho : c.Open)
    {is : List Input} (hend : (Machine.run (step env) c is).pc.isEnd = true) :
    Machine.Guarded (step env) (fun c i => c.clean env i = true) c is ∧
        (Machine.run (step env) c is).Closed env plan ∨
      ¬ Machine.Guarded (step env) (fun c i => c.clean env i = true) c is ∧
        (Machine.run (step env) c is).Lost := by
  induction is generalizing c with
  | nil =>
    rw [Machine.run_nil, ho.running] at hend
    cases hend
  | cons i is ih =>
    have hmove : Moves env plan c i (step env c i) := step_moves hw i
    have hnext := hmove.wellFormed hw
    rw [Machine.run_cons] at hend ⊢
    cases hc : c.clean env i with
    | false =>
      refine .inr ⟨fun hg => ?_, ?_⟩
      · rw [hg.1] at hc
        cases hc
      · exact hnext.run_inv Config.Lost (fun hm _ hd => hm.lost hd) (hmove.unclean hw ho hc) is
    | true =>
      rcases hmove.clean hw ho hc with hopen | hclosed
      · rcases ih hnext hopen hend with ⟨hg, hcl⟩ | ⟨hg, hlost⟩
        · exact .inl ⟨⟨hc, hg⟩, hcl⟩
        · exact .inr ⟨fun h => hg h.2, hlost⟩
      · have hfix : ∀ j, step env (step env c i) j = step env c i :=
          fun j => step_of_isEnd (by rw [hclosed.done]; rfl) j
        refine .inl ⟨⟨hc, ?_⟩, ?_⟩
        · refine Machine.guarded_iff_forall.mpr fun js j _ => ?_
          rw [Machine.run_of_fixed hfix, Config.clean, hclosed.done]
        · rw [Machine.run_of_fixed hfix]
          exact hclosed

/-! ## The end of a finished run -/

/-- What a step publishes are stream events of the plan, and needs an event bus. -/
theorem Moves.mem_events {env : Env} {plan : Plan} {c c' : Config} {i : Input}
    (h : Moves env plan c i c') (hw : c.WellFormed plan) {e : MessageEvent}
    (he : e ∈ c'.log.filterMap Effect.event?) : e ∈ c.log.filterMap Effect.event? ∨
      env.eventBus = true ∧ ∃ state content, e = streamEvent plan state content := by
  have happend : ∀ {effects : List Effect}, (∀ x ∈ effects, x.event? = some e →
      env.eventBus = true ∧ ∃ state content, e = streamEvent plan state content) →
      e ∈ (c.log ++ effects).filterMap Effect.event? → e ∈ c.log.filterMap Effect.event? ∨
        env.eventBus = true ∧ ∃ state content, e = streamEvent plan state content := by
    intro effects hnew hmem
    rw [List.filterMap_append] at hmem
    rcases List.mem_append.mp hmem with hold | hnew'
    · exact .inl hold
    · obtain ⟨x, hx, hxe⟩ := List.mem_filterMap.mp hnew'
      exact .inr (hnew x hx hxe)
  have hllm : ∀ n, ∀ x ∈ (llmNode env n c.state (c.token i) i.reply).effects,
      x.event? = some e → env.eventBus = true ∧
        ∃ state content, e = streamEvent plan state content := by
    intro n x hx hxe
    rcases mem_llmNode_effects hx with h | ⟨hb, token, h⟩ | ⟨_, _, h⟩ <;> rw [h] at hxe
    · cases hxe
    · cases hxe
      exact ⟨hb, _, token, by rw [hw.plan_eq]⟩
    · cases hxe
  have htool : ∀ (r : ToolRegistry) (calls : List ToolCall),
      ∀ x ∈ reached r i.outcome (callLog r) 0 calls, x.event? = some e → env.eventBus = true ∧
        ∃ state content, e = streamEvent plan state content := by
    intro r calls x hx hxe
    obtain ⟨_, _, _, h⟩ := mem_reached_log hx
    rw [h] at hxe
    cases hxe
  cases h with
  | ended _ => exact .inl he
  | aborted _ _ => exact .inl he
  | unknownLevel _ _ _ => exact .inl he
  | prepared level _ _ _ =>
    refine happend (fun x hx hxe => ?_) he
    rcases mem_setupEffects hx with ⟨_, _, h⟩ | ⟨hb, h⟩ <;> rw [h] at hxe
    · cases hxe
    · cases hxe
      exact ⟨hb, _, _, rfl⟩
  | failed n _ _ _ => exact happend (hllm n) he
  | interrupted n _ _ _ => exact happend (hllm n) he
  | answered n m _ _ _ => exact happend (hllm n) he
  | idle _ _ _ _ _ => exact .inl he
  | stopped r m _ _ _ _ _ => exact happend (htool r _) he
  | ran r m _ _ _ _ _ _ _ => exact happend (htool r _) he
  | finalized _ _ =>
    refine happend (fun x hx hxe => ?_) he
    obtain ⟨hb, h⟩ := mem_finalizeNode hx
    rw [h] at hxe
    cases hxe
    exact ⟨hb, _, _, by rw [hw.plan_eq]⟩

theorem mem_reach_events {env : Env} {plan : Plan} {messages : List Msg} {is : List Input}
    {e : MessageEvent} (he : e ∈ (reach env plan messages is).log.filterMap Effect.event?) :
    env.eventBus = true ∧ ∃ state content, e = streamEvent plan state content := by
  have h := (start_wellFormed plan messages).run_inv
    (fun c => ∀ e ∈ c.log.filterMap Effect.event?,
      env.eventBus = true ∧ ∃ state content, e = streamEvent plan state content)
    (fun hmove hw hc e he => (hmove.mem_events hw he).elim (hc e) id) nofun is
  exact h e he

/-- A graph without an event bus publishes nothing. -/
theorem reach_silent {env : Env} (hb : env.eventBus = false) (plan : Plan) (messages : List Msg)
    (is : List Input) : (reach env plan messages is).log.filterMap Effect.event? = [] := by
  refine List.eq_nil_iff_forall_not_mem.mpr fun e he => ?_
  obtain ⟨hbus, _⟩ := mem_reach_events he
  rw [hb] at hbus
  cases hbus

/-- Every event of a log without an end is one that ends no stream, the plan's among them. -/
theorem NoEnd.streamEvents {plan : Plan} {log : List Effect} (h : NoEnd log) :
    ∀ e ∈ streamEvents plan log, e.isTerminating = false :=
  fun e he => h e (List.mem_filter.mp he).1

theorem endsOnce_of_closed {plan : Plan} {log : List Effect} (h : NoEnd log) :
    EndsOnce (Execution.streamEvents plan (log ++ [.publish (streamEvent plan .done "")])) := by
  refine ⟨Execution.streamEvents plan log, streamEvent plan .done "", [], ?_, rfl,
    h.streamEvents, nofun⟩
  unfold Execution.streamEvents
  rw [List.filterMap_append, List.filter_append]
  congr 1
  exact List.filter_eq_self.mpr fun e he => by
    rw [List.mem_singleton.mp he]
    simp [streamEvent]

theorem not_endsOnce_of_noEnd {plan : Plan} {log : List Effect} (h : NoEnd log) :
    ¬ EndsOnce (Execution.streamEvents plan log) := by
  rintro ⟨pre, last, post, he, hlast, _⟩
  have hmem : last ∈ Execution.streamEvents plan log := by
    rw [he]
    exact List.mem_append_right _ List.mem_cons_self
  rw [h.streamEvents last hmem] at hlast
  cases hlast

/-- A finished run that opened its stream closes it exactly when each of its steps is clean:
nothing raises out of the graph, and no model call returns with the interrupt token cancelled. -/
theorem streams_end_iff (r : FinishedRun) :
    (r.streamed = true → EndsOnce r.events) ↔
      (r.streamed = true → Machine.Guarded (step r.env) (fun c i => c.clean r.env i = true)
        (.start r.plan r.messages) r.inputs) := by
  have hopen : (Config.start r.plan r.messages).Open := by
    refine ⟨?_, rfl, nofun⟩
    intro e he
    cases he
  rcases open_run (start_wellFormed r.plan r.messages) hopen r.finished with
    ⟨hg, hclosed⟩ | ⟨hg, hlost⟩
  · refine iff_of_true (fun hs => ?_) (fun _ => hg)
    cases hb : r.env.eventBus with
    | true =>
      obtain ⟨log, hno, hlog⟩ := hclosed.ended hb
      unfold FinishedRun.events reach
      rw [hlog]
      exact endsOnce_of_closed hno
    | false =>
      have hnone := reach_silent hb r.plan r.messages r.inputs
      simp [FinishedRun.streamed, FinishedRun.events, Execution.streamEvents, hnone] at hs
  · have hnot : ¬ EndsOnce r.events := not_endsOnce_of_noEnd hlost.noEnd
    exact ⟨fun h hs => absurd (h hs) hnot, fun h hs => absurd (h hs) hg⟩

/-- An interrupt during the first model call: the stream is open and stays so. -/
theorem interrupted_stream_open : ¬ ∀ r : FinishedRun, r.streamed = true → EndsOnce r.events := by
  intro h
  let first : Chunk := { content := .text "hel" }
  let second : Chunk := { content := .text "lo", cancelled := true }
  let run : FinishedRun :=
    ⟨{ Env.bare with eventBus := true }, { content := "hi", sessionId := "s", roomId := "r" }, [],
      [{}, { reply := { chunks := [first, second] } }, {}], by decide⟩
  obtain ⟨pre, last, post, he, hlast, _⟩ := h run (by decide)
  have hany : run.events.any (·.isTerminating) = true := by
    rw [he]
    simp [hlast]
  exact absurd hany (by decide)

end IrisMind.Execution
