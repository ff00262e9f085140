import Mathlib.Algebra.Order.Ring.Rat
import Mathlib.Data.Nat.Cast.Order.Ring
import IrisMind.Execution.Moves

/-! # How often tools are run

The iteration limit is looked at behind the tools, and it is the limit of the
plan's level. So the first round is never held back, every later one is, and
the override that planning writes has no part in it. -/
namespace IrisMind.Execution
open IrisMind.Lib IrisMind.Tools IrisMind.Planning IrisMind.Llm

/-- The tool node executes tools in this step. -/
def Config.runsTools (env : Env) (c : Config) (i : Input) : Bool :=
  c.pc = .executeTools && !i.aborts && env.executor.isSome

/-- How often the tool node executes tools in a run. -/
def toolRounds (env : Env) (plan : Plan) (messages : List Msg) (is : List Input) : Nat :=
  Machine.count (step env) (Config.runsTools env) (.start plan messages) is

/-- The rounds that a run may still have. -/
def Config.toolBudget (plan : Plan) (c : Config) : Nat :=
  if c.pc.isLive then max 1 (maxToolIterations plan - c.state.toolIterations) else 0

theorem toolBudget_le {plan : Plan} {c c' : Config}
    (hlive : c.pc.isLive = true) (hit : c'.state.toolIterations = c.state.toolIterations) :
    c'.toolBudget plan ≤ c.toolBudget plan := by
  unfold Config.toolBudget
  rw [if_pos hlive, hit]
  split
  · exact Nat.le_refl _
  · exact Nat.zero_le _

theorem Moves.spendsBudget {env : Env} {plan : Plan} {c c' : Config} {i : Input}
    (h : Moves env plan c i c') :
    (c.runsTools env i).toNat + c'.toolBudget plan ≤ c.toolBudget plan := by
  have hno : c.pc ≠ .executeTools ∨ i.aborts = true ∨ env.executor = none →
      c.runsTools env i = false := by
    intro hcase
    unfold Config.runsTools
    rcases hcase with hpc | ha | hx
    · simp [hpc]
    · simp [ha]
    · simp [hx]
  cases h with
  | ended hpc =>
    rw [hno (.inl fun h => by rw [h] at hpc; cases hpc)]
    simp
  | aborted hpc ha =>
    rw [hno (.inr (.inl ha))]
    simp [Config.toolBudget, Pc.isLive]
  | unknownLevel hpc ha hl =>
    rw [hno (.inl (by simp [hpc]))]
    simp [Config.toolBudget, Pc.isLive]
  | prepared level hpc ha hl =>
    rw [hno (.inl (by simp [hpc])), Bool.toNat_false, Nat.zero_add]
    exact toolBudget_le (by rw [hpc]; rfl) rfl
  | failed n hpc ha ho =>
    rw [hno (.inl (by simp [hpc]))]
    simp [Config.toolBudget, Config.afterLlm, Pc.isLive]
  | interrupted n hpc ha ho =>
    rw [hno (.inl (by simp [hpc]))]
    simp [Config.toolBudget, Config.afterLlm, Pc.isLive]
  | answered n m hpc ha ho =>
    rw [hno (.inl (by simp [hpc])), Bool.toNat_false, Nat.zero_add]
    refine toolBudget_le (by rw [hpc]; rfl) ?_
    rw [Config.afterLlm, commit_toolIterations]
    rfl
  | idle level hpc ha hl he =>
    rw [hno (.inr (.inr he)), Bool.toNat_false, Nat.zero_add]
    exact toolBudget_le (by rw [hpc]; rfl) rfl
  | stopped r m hpc ha he hm hc =>
    have hrun : c.runsTools env i = true := by simp [Config.runsTools, hpc, ha, he]
    have hbudget : 1 ≤ c.toolBudget plan := by
      rw [Config.toolBudget, if_pos (by rw [hpc]; rfl)]
      exact Nat.le_max_left _ _
    rw [hrun]
    exact hbudget
  | ran r m level hpc ha hl he hm hc =>
    have hrun : c.runsTools env i = true := by simp [Config.runsTools, hpc, ha, he]
    have hmax := maxToolIterations_of hl
    rw [hrun]
    show 1 + (if (toolRoute level (c.ran r i m.toolCalls)).isLive then
      max 1 (maxToolIterations plan - (c.ran r i m.toolCalls).toolIterations) else 0) ≤
        if c.pc.isLive then max 1 (maxToolIterations plan - c.state.toolIterations) else 0
    rw [if_pos (show c.pc.isLive = true by rw [hpc]; rfl), hmax]
    rcases toolRoute_cases level (c.ran r i m.toolCalls) with ⟨hroute, hit⟩ | ⟨hroute, hit⟩
    · rw [hroute, if_neg (by simp [Pc.isLive])]
      exact Nat.le_max_left _ _
    · rw [hroute, if_pos (show (Pc.llm _).isLive = true from rfl)]
      have hgt := toolIterations_lt_ran hl hit
      omega
  | finalized hpc ha =>
    rw [hno (.inl (by simp [hpc]))]
    simp [Config.toolBudget, Pc.isLive]

/-- Whatever the model answers, a run has one round, or as many as the plan's level allows. -/
theorem toolRounds_le (env : Env) (plan : Plan) (messages : List Msg) (is : List Input) :
    toolRounds env plan messages is ≤ max 1 (maxToolIterations plan) := by
  have hg : Machine.Guarded (step env) (fun _ _ => True) (.start plan messages) is :=
    Machine.guarded_true _ is
  have h := Machine.amortized (Config.WellFormed plan)
    (fun c i hw _ => step_wellFormed env plan c i hw)
    (Config.runsTools env) (fun _ _ => false) (Config.toolBudget plan) 0
    (fun c i hw _ => by
      have hmove : Moves env plan c i (step env c i) := step_moves hw i
      simpa using hmove.spendsBudget)
    (start_wellFormed plan messages) hg
  have hstart : (Config.start plan messages).toolBudget plan = max 1 (maxToolIterations plan) :=
    rfl
  unfold toolRounds
  omega

/-! ## A run that uses every round -/

/-- The bare graph with an executor that knows no tool. -/
def Env.toolless : Env := { Env.bare with executor := some .empty }

/-- An answer that calls an unknown tool, and the step that answers it with an error. -/
def askUnknown : List Input := [.calls ["unknown"], .calls []]

/-- The tool step behind a call of an unknown tool uses up one iteration. -/
theorem unknown_step {plan : Plan} {level : TaskLevel} {d : Config} (hw : d.WellFormed plan)
    (hl : taskLevel? plan.taskLevel = some level) (hpc : d.pc = .executeTools)
    (hm : d.state.messages.getLast? = some (.ai (Input.calls ["unknown"]).reply.message)) :
    (step .toolless d (.calls [])).pc =
        toolRoute level (step .toolless d (.calls [])).state ∧
      (step .toolless d (.calls [])).state.toolIterations = d.state.toolIterations + 1 ∧
      (step .toolless d (.calls [])).cancelled = d.cancelled := by
  let e : Config := { d with cancelled := d.cancelled || false }
  have hlevel : taskLevel? e.state.plan.taskLevel = some level := by rw [hw.plan_eq]; exact hl
  have hstep : step .toolless d (.calls []) = stepTools .toolless e (Input.calls []).outcome := by
    rw [step_of_node (by rw [hpc]; rfl) rfl]
    exact stepNode_tools (c := e) hpc _
  rw [hstep, stepTools_of_completes rfl hlevel hm rfl]
  exact ⟨rfl, rfl, Bool.or_false _⟩

theorem Config.Ready.round {plan : Plan} {level : TaskLevel} {c : Config} (h : c.Ready plan)
    (hl : taskLevel? plan.taskLevel = some level) :
    Machine.count (step .toolless) (Config.runsTools .toolless) c askUnknown = 1 ∧
      (c.state.toolIterations + 1 < level.maxToolIterations →
        (Machine.run (step .toolless) c askUnknown).Ready plan ∧
          (Machine.run (step .toolless) c askUnknown).state.toolIterations =
            c.state.toolIterations + 1) := by
  obtain ⟨n, hpc⟩ := h.atNode
  obtain ⟨hans, hfresh⟩ := h.answer (show Env.toolless.eventBus = false from rfl) ["unknown"]
  obtain ⟨x, _, hstep⟩ := step_of_answer h.wellFormed hans
  have hw := step_wellFormed .toolless plan c (.calls ["unknown"]) h.wellFormed
  have hpc1 : (step .toolless c (.calls ["unknown"])).pc = .executeTools := by rw [hstep]; rfl
  have hit1 : (step .toolless c (.calls ["unknown"])).state.toolIterations =
      c.state.toolIterations := by rw [hstep]; rfl
  have hlast : (step .toolless c (.calls ["unknown"])).state.messages.getLast? =
      some (.ai (Input.calls ["unknown"]).reply.message) := by
    rw [hstep]
    exact List.getLast?_concat
  have hfirst : c.runsTools .toolless (.calls ["unknown"]) = false := by
    simp [Config.runsTools, hpc]
  show (c.runsTools .toolless (.calls ["unknown"])).toNat +
      (((step .toolless c (.calls ["unknown"])).runsTools .toolless (.calls [])).toNat + 0) = 1 ∧
    (_ → (step .toolless (step .toolless c (.calls ["unknown"])) (.calls [])).Ready plan ∧
      (step .toolless (step .toolless c (.calls ["unknown"])) (.calls [])).state.toolIterations = _)
  generalize step .toolless c (.calls ["unknown"]) = d at *
  obtain ⟨hroute, hit, hcan⟩ := unknown_step hw hl hpc1 hlast
  refine ⟨?_, fun hroom => ⟨⟨step_wellFormed .toolless plan d _ hw, ?_, hcan.trans hfresh⟩, ?_⟩⟩
  · rw [hfirst, Config.runsTools, hpc1]
    rfl
  · rcases toolRoute_cases level (step .toolless d (.calls [])).state with ⟨_, hge⟩ | ⟨hnode, _⟩
    · omega
    · exact ⟨_, hroute.trans hnode⟩
  · omega

/-- The rounds of a run that keeps asking: as many as it asks, while the level allows them. -/
theorem Config.Ready.rounds {plan : Plan} {level : TaskLevel} {c : Config} (h : c.Ready plan)
    (hl : taskLevel? plan.taskLevel = some level) (k : Nat)
    (hk : k ≤ 1 ∨ c.state.toolIterations + k ≤ level.maxToolIterations) :
    Machine.count (step .toolless) (Config.runsTools .toolless) c
      (List.replicate k askUnknown).flatten = k := by
  induction k generalizing c with
  | zero => rfl
  | succ k ih =>
    obtain ⟨hone, hnext⟩ := h.round hl
    rw [List.replicate_succ, List.flatten_cons, Machine.count_append, hone]
    cases k with
    | zero => rfl
    | succ k =>
      obtain ⟨hready, hit⟩ := hnext (by omega)
      rw [ih hready (.inr (by rw [hit]; omega))]
      omega

/-- Some run of every plan has all the rounds that no run exceeds. -/
theorem exists_toolRounds {plan : Plan} {level : TaskLevel}
    (hl : taskLevel? plan.taskLevel = some level) :
    ∃ env messages is, toolRounds env plan messages is = max 1 level.maxToolIterations := by
  let first := step .toolless (.start plan []) (.calls [])
  have hw : first.WellFormed plan := step_wellFormed .toolless plan _ _ (start_wellFormed plan [])
  have hfirst : first = .prepared .toolless plan [] level (.calls []) :=
    step_start_known .toolless [] hl rfl
  have hready : first.Ready plan :=
    ⟨hw, ⟨.generalChat, by rw [hfirst]; rfl⟩, by rw [hfirst]; rfl⟩
  have hit : first.state.toolIterations = 0 := by rw [hfirst]; rfl
  refine ⟨.toolless, [], .calls [] ::
    (List.replicate (max 1 level.maxToolIterations) askUnknown).flatten, ?_⟩
  show 0 + Machine.count (step .toolless) (Config.runsTools .toolless) first _ = _
  rw [hready.rounds hl _ (by omega), Nat.zero_add]

/-- The bounds hold for every run of a plan exactly when its level allows at least one round and
no override is below the level's limit: a chat plan still has one round, and an override, such
as that of a silent plan, is not looked at. -/
theorem toolRounds_le_iff (plan : Plan) :
    (∀ env messages is level, taskLevel? plan.taskLevel = some level →
      toolRounds env plan messages is ≤ level.maxToolIterations ∧
        ∀ q, plan.maxToolIterations? = some q → (toolRounds env plan messages is : Rat) ≤ q) ↔
    ∀ level, taskLevel? plan.taskLevel = some level →
      1 ≤ level.maxToolIterations ∧
        ∀ q, plan.maxToolIterations? = some q → (level.maxToolIterations : Rat) ≤ q := by
  constructor
  · intro h level hl
    obtain ⟨env, messages, is, hrounds⟩ := exists_toolRounds hl
    obtain ⟨hle, hover⟩ := h env messages is level hl
    rw [hrounds] at hle hover
    have hone : 1 ≤ level.maxToolIterations := by omega
    rw [Nat.max_eq_right hone] at hover
    exact ⟨hone, hover⟩
  · intro h env messages is level hl
    obtain ⟨hone, hover⟩ := h level hl
    have hle := toolRounds_le env plan messages is
    rw [maxToolIterations_of hl, Nat.max_eq_right hone] at hle
    refine ⟨hle, fun q hq => le_trans ?_ (hover q hq)⟩
    exact Nat.cast_le.mpr hle

/-- A published silent plan of the normal level runs tools five times, not three. -/
theorem silent_plan_overruns :
    ¬ ∀ (env : Env) (plan : Plan) (s a r : String) (messages : List Msg) (is : List Input)
      (level : TaskLevel), taskLevel? plan.taskLevel = some level →
      toolRounds env (publish plan s a r) messages is ≤ level.maxToolIterations ∧
        ∀ q, (publish plan s a r).maxToolIterations? = some q →
          (toolRounds env (publish plan s a r) messages is : Rat) ≤ q := by
  intro h
  obtain ⟨_, hover⟩ := h .toolless { content := "hi", silent := true } "s" "a" "r" []
    (.calls [] :: (List.replicate 5 askUnknown).flatten) LevelName.normal.level (by decide)
  exact absurd (hover 3 (by decide)) (by decide)

end IrisMind.Execution
