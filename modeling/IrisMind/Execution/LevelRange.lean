import IrisMind.Execution.Moves

/-! # The level index over whole runs

With the router's writes persisted, the state tracks the node that runs: the
current node type is its name. The level index is reset by a switch to the task
node, and moved only within the levels of the current node by `deep_task`; a
switch to the chat node carries it over as it is. -/
namespace IrisMind.Execution
open IrisMind.Lib IrisMind.Tools IrisMind.Planning IrisMind.Llm

/-- The same graph with what a router writes kept in the state. -/
def Env.persisting (env : Env) : Env := { env with routerWrites := .persisted }

/-- What the router's writes keep, once they are persisted. -/
structure Config.Tracked (c : Config) : Prop where
  entry : c.pc = .prepareContext → c.state.currentNodeType = .generalChat ∧
    c.state.currentLevelIdx = 0 ∧ c.state.chainDepth = 0
  atNode : ∀ n, c.pc = .llm n → c.state.currentNodeType = n
  depth : c.state.currentNodeType = .generalTask → c.state.chainDepth = 0

theorem start_tracked (plan : Plan) (messages : List Msg) :
    (Config.start plan messages).Tracked where
  entry := fun _ => ⟨rfl, rfl, rfl⟩
  atNode := nofun
  depth := nofun

/-- The nodes `Tracked` speaks of. -/
def Pc.isTracked : Pc → Bool
  | .prepareContext | .llm _ => true
  | _ => false

/-- A step whose end is no LLM node and whose router fields are those before it. -/
theorem Config.Tracked.same {c c' : Config} (h : c.Tracked) (he : c'.pc ≠ .prepareContext)
    (hn : ∀ n, c'.pc = .llm n → c.state.currentNodeType = n)
    (ht : c'.state.currentNodeType = c.state.currentNodeType)
    (hd : c'.state.chainDepth = c.state.chainDepth) : c'.Tracked where
  entry := fun hpc => absurd hpc he
  atNode := fun n hpc => by rw [ht]; exact hn n hpc
  depth := fun hg => by rw [hd]; exact h.depth (by rw [← ht]; exact hg)

theorem toolRoute_node {level : TaskLevel} {s : ExecutionState} {n : NodeTypeName}
    (h : toolRoute level s = .llm n) :
    s.currentNodeType = n ∧ s.toolIterations < level.maxToolIterations := by
  rcases toolRoute_cases level s with ⟨hf, _⟩ | ⟨hl, hlt⟩
  · rw [hf] at h; cases h
  · rw [hl] at h; cases h; exact ⟨rfl, hlt⟩

theorem toolRoute_ne_prepare (level : TaskLevel) (s : ExecutionState) :
    toolRoute level s ≠ .prepareContext := by
  rcases toolRoute_cases level s with ⟨h, _⟩ | ⟨h, _⟩ <;> rw [h] <;> nofun

/-- A step that leaves the nodes the state is tracked at, and moves no router field. -/
theorem Config.Tracked.leaves {c c' : Config} (h : c.Tracked) (hp : c'.pc.isTracked = false)
    (ht : c'.state.currentNodeType = c.state.currentNodeType)
    (hd : c'.state.chainDepth = c.state.chainDepth) : c'.Tracked := by
  refine h.same (fun hpc => ?_) (fun n hpc => ?_) ht hd
  · rw [hpc] at hp; cases hp
  · rw [hpc] at hp; cases hp

theorem Moves.tracked {env : Env} {plan : Plan} {c c' : Config} {i : Input}
    (h : Moves env.persisting plan c i c') (hc : c.Tracked) : c'.Tracked := by
  cases h with
  | ended hpc => exact hc
  | aborted hpc ha => exact hc.leaves rfl rfl rfl
  | unknownLevel hpc ha hl => exact hc.leaves rfl rfl rfl
  | prepared level hpc ha hl =>
    obtain ⟨ht, _, _⟩ := hc.entry hpc
    refine hc.same (fun h => ?_) (fun n hn => ?_) rfl rfl
    · cases h
    · cases hn
      exact ht
  | failed n hpc ha ho => exact hc.leaves rfl rfl rfl
  | interrupted n hpc ha ho => exact hc.leaves rfl rfl rfl
  | answered n m hpc ha ho =>
    have hn := hc.atNode n hpc
    cases hr : routingCall? m.toolCalls with
    | none =>
      cases hm : m.toolCalls.isEmpty with
      | true =>
        simp only [Config.afterLlm, answerRoute, hr, hm, if_true]
        exact hc.leaves rfl rfl rfl
      | false =>
        simp only [Config.afterLlm, answerRoute, hr, hm, Bool.false_eq_true, if_false]
        exact hc.leaves rfl rfl rfl
    | some t =>
      simp only [Config.afterLlm, answerRoute, hr]
      cases t with
      | generalChat =>
        refine ⟨fun h => ?_, fun x hx => ?_, fun h => ?_⟩
        · cases h
        · cases hx
          rfl
        · cases h
      | generalTask =>
        refine ⟨fun h => ?_, fun x hx => ?_, fun _ => rfl⟩
        · cases h
        · cases hx
          rfl
      | deepTask =>
        refine ⟨fun h => ?_, fun x hx => ?_, fun _ => rfl⟩
        · cases h
        · cases hx
          rfl
      | finish => exact hc.leaves rfl rfl rfl
  | idle level hpc ha hl he =>
    exact hc.same (toolRoute_ne_prepare level _) (fun n hn => (toolRoute_node hn).1) rfl rfl
  | stopped r m hpc ha he hm hx => exact hc.leaves rfl rfl rfl
  | ran r m level hpc ha hl he hm hx =>
    exact hc.same (toolRoute_ne_prepare level _) (fun n hn => (toolRoute_node hn).1) rfl rfl
  | finalized hpc ha => exact hc.leaves rfl rfl rfl

/-! ## The level index -/

/-- Whenever an LLM node runs, the state is about that node and the fallback is not taken. -/
def Config.LevelInRange (c : Config) : Prop :=
  ∀ n, c.pc = .llm n → c.state.currentNodeType = n ∧
    c.state.currentLevelIdx < n.nodeType.availableLevels.length

/-- The switch that carries the index too far: a reply routes to the chat node while the
index is past the levels of that node. -/
def Config.overruns (env : Env) (c : Config) (i : Input) : Bool :=
  (c.answer? env i).any fun m => routingCall? m.toolCalls = some .generalChat &&
    NodeTypeName.generalChat.nodeType.availableLevels.length ≤ c.state.currentLevelIdx

/-- The index is in range of the current node's levels as long as the graph is under way. -/
def Config.IndexFits (c : Config) : Prop :=
  c.pc.isLive = true →
    c.state.currentLevelIdx < c.state.currentNodeType.nodeType.availableLevels.length

theorem Config.IndexFits.levelInRange {c : Config} (h : c.IndexFits) (hc : c.Tracked) :
    c.LevelInRange := by
  intro n hpc
  have hn := hc.atNode n hpc
  refine ⟨hn, ?_⟩
  rw [← hn]
  exact h (by rw [hpc]; rfl)

theorem indexFits_of_spent {c : Config} (h : c.pc.isLive = false) : c.IndexFits := by
  intro hlive
  rw [h] at hlive
  cases hlive

theorem Moves.indexFits {env : Env} {plan : Plan} {c c' : Config} {i : Input}
    (h : Moves env.persisting plan c i c') (hf : c.IndexFits)
    (ho : c.overruns env.persisting i = false) : c'.IndexFits := by
  cases h with
  | ended hpc => exact hf
  | aborted hpc ha => exact indexFits_of_spent rfl
  | unknownLevel hpc ha hl => exact indexFits_of_spent rfl
  | prepared level hpc ha hl => exact fun _ => hf (by rw [hpc]; rfl)
  | failed n hpc ha ho => exact indexFits_of_spent rfl
  | interrupted n hpc ha ho => exact indexFits_of_spent rfl
  | answered n m hpc ha hout =>
    have hlt := hf (by rw [hpc]; rfl)
    have hans : c.answer? env.persisting i = some m :=
      answer?_eq_some_iff.mpr ⟨n, hpc, ha, hout⟩
    intro _
    cases hr : routingCall? m.toolCalls with
    | none =>
      cases hm : m.toolCalls.isEmpty with
      | true => simp only [Config.afterLlm, answerRoute, hr, hm, if_true]; exact hlt
      | false =>
        simp only [Config.afterLlm, answerRoute, hr, hm, Bool.false_eq_true, if_false]
        exact hlt
    | some t =>
      simp only [Config.afterLlm, answerRoute, hr]
      cases t with
      | generalChat =>
        have hidx : c.state.currentLevelIdx <
            NodeTypeName.generalChat.nodeType.availableLevels.length := by
          simpa [Config.overruns, hans, hr] using ho
        exact hidx
      | generalTask => exact Nat.zero_lt_succ _
      | deepTask =>
        -- the index moves on only when the next level exists
        change (if c.state.currentLevelIdx + 1 <
            c.state.currentNodeType.nodeType.availableLevels.length
          then some (c.state.currentLevelIdx + 1) else none).getD c.state.currentLevelIdx <
            c.state.currentNodeType.nodeType.availableLevels.length
        split
        · assumption
        · exact hlt
      | finish => exact hlt
  | idle level hpc ha hl he => exact fun _ => hf (by rw [hpc]; rfl)
  | stopped r m hpc ha he hm hx => exact indexFits_of_spent rfl
  | ran r m level hpc ha hl he hm hx => exact fun _ => hf (by rw [hpc]; rfl)
  | finalized hpc ha => exact indexFits_of_spent rfl

/-- The step behind an overrun enters the chat node with an index out of range. -/
theorem not_levelInRange_of_overruns {env : Env} {plan : Plan} {c : Config} {i : Input}
    (hw : c.WellFormed plan) (ho : c.overruns env.persisting i = true) :
    ¬ (step env.persisting c i).LevelInRange := by
  cases hans : c.answer? env.persisting i with
  | none => simp [Config.overruns, hans] at ho
  | some m =>
    obtain ⟨hr, hidx⟩ : routingCall? m.toolCalls = some .generalChat ∧
        NodeTypeName.generalChat.nodeType.availableLevels.length ≤ c.state.currentLevelIdx := by
      simpa [Config.overruns, hans] using ho
    obtain ⟨n, hpc, hstep⟩ := step_of_answer hw hans
    intro h
    rw [hstep] at h
    simp only [Config.afterLlm, answerRoute, hr] at h
    have hlt : c.state.currentLevelIdx <
        NodeTypeName.generalChat.nodeType.availableLevels.length := (h .generalChat rfl).2
    omega

/-- With the router's writes persisted, every state of a run keeps the level index in range
exactly when no reply of the run routes to the chat node past that node's levels. -/
theorem levelInRange_iff (env : Env) (plan : Plan) (messages : List Msg) (is : List Input) :
    (∀ js, js <+: is → (reach env.persisting plan messages js).LevelInRange) ↔
      Machine.Guarded (step env.persisting) (fun c i => c.overruns env.persisting i = false)
        (.start plan messages) is := by
  constructor
  · intro h
    refine Machine.guarded_iff_forall.mpr fun js i hp => ?_
    have hnext := h (js ++ [i]) hp
    have hw := reach_wellFormed env.persisting plan messages js
    unfold reach at hnext hw
    rw [Machine.run_append] at hnext
    by_contra hov
    exact not_levelInRange_of_overruns hw (by simpa using hov) hnext
  · intro hg js hp
    obtain ⟨htracked, hfits⟩ := (start_wellFormed plan messages).guarded_inv
      (fun c => c.Tracked ∧ c.IndexFits)
      (fun hmove _ hok hc => ⟨hmove.tracked hc.1, hmove.indexFits hc.2 hok⟩)
      ⟨start_tracked plan messages, fun _ => Nat.zero_lt_succ _⟩ (hg.of_prefix hp)
    exact hfits.levelInRange htracked

/-- The index runs out of range with offered tools alone: into the task node, two levels up,
and back to the chat node. -/
theorem offered_replies_overrun :
    ¬ ∀ (env : Env) (plan : Plan) (messages : List Msg) (is : List Input),
      Machine.Guarded (step env.persisting) (fun c i => c.offered env.persisting i = true)
        (.start plan messages) is →
      (reach env.persisting plan messages is).LevelInRange := by
  intro h
  have hr := h .bare { content := "hi" } []
    [.calls [], .calls ["general_task"], .calls ["deep_task"], .calls ["deep_task"],
      .calls ["general_chat"]]
    ⟨by decide, by decide, by decide, by decide, by decide, trivial⟩ .generalChat (by decide)
  exact absurd hr.2 (by decide)

end IrisMind.Execution
