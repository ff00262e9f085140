import IrisMind.Events
import IrisMind.Planning.Hints
import IrisMind.Planning.Modulation
import IrisMind.Planning.Plan

/-! # From an input to a plan

An input that is ready is answered, unless it says that it is no one's: then
Iris may speak unasked, or tell what an investigation has come to. What comes
out is a plan on the internal bus, or nothing. What raises gives nothing. -/
namespace IrisMind.Planning
open IrisMind.Lib IrisMind.Events

/-- A plan with what only the prompt and the sampling read. -/
structure ModulatedPlan extends Plan where
  contextHint : String := ""
  modulation : ModulationState := {}

def taskKeywords : List String :=
  ["コード", "ファイル", "実装", "作成", "修正", "テスト", "実行", "ディレクトリ", "adr", "ルール", "ログ",
    "詳しく", "説明", "なぜ", "どうやって", "設計"]

def isTaskContent (content : String) : Bool :=
  100 < content.length || Text.startsWith content "/" ||
    taskKeywords.any (ProactiveScorer.occursIn (Text.lower content))

abbrev InputContext := Dict String Json

/-- `context.get("chaos_level", 0.0)`; what is no number raises where it is used. -/
def chaosLevelOf (context : InputContext) : Option ℚ :=
  (context.getD "chaos_level" (.num 0)).number?

/-- What the world is at one input: what inhibition says of the room, and what the memory and
the providers read. -/
structure PlanningWorld where
  inhibited : Bool
  memory : PlanningMemory
  hints : HintWorld

/-! ## The judge -/

/-- What the judge hands to the strategy. -/
structure ProactiveContext where
  contextHint : String
  topic : Json
  isSilentProactive : Bool := false
  escalation : Bool := false
  summary : Json := .str ""
  chaosLevel : ℚ := 0
  roomId : String := ""
  accountId : String := ""

namespace ProactiveJudge

def buildEscalationContext (w : HintWorld) (context : InputContext) : ProactiveContext :=
  let topic := context.getD "topic" (.str "general")
  let summary := context.getD "summary" (.str "")
  { contextHint := "自律調査によるエスカレーション / トピック: " ++ w.format topic ++
      " / 調査のまとめ: " ++ w.format summary
    topic, summary, escalation := true }

/-- `decide`; none when Iris is not to speak, and when something raises. -/
def verdict (config : ProactiveConfig) (w : PlanningWorld) (event : InputReady)
    (context : InputContext) : Option ProactiveContext :=
  if (context.getD "escalation" .null).truthy then some (buildEscalationContext w.hints context)
  else
    let (total, scores) := ProactiveScorer.compute config w.memory.toMemoryView event.content
      event.roomId context
    if total < config.speakThreshold then none
    else do
      let chaosLevel ← chaosLevelOf context
      some { contextHint := Hints.buildProactiveContextHint w.hints w.memory context scores
               chaosLevel event.roomId
             topic := .str "general"
             chaosLevel
             roomId := event.roomId
             accountId := event.accountId }

end ProactiveJudge

/-! ## The strategies -/

/-- A plan that is executed without a word. -/
def silentPlan (c : ProactiveContext) (taskLevel : String) (reason : PlanReason)
    (overrides : Dict String Json) : ModulatedPlan where
  content := ""
  taskLevel := taskLevel
  silent := true
  reason := reason
  contextHint := c.contextHint
  overrides := overrides
  modulation := .fromChaosLevel c.chaosLevel
  roomId := c.roomId
  accountId := c.accountId

/-- What there is to tell of an investigation. -/
def escalationContent (w : HintWorld) (topic summary : Json) : String :=
  if topic.truthy && summary.truthy then
    "あなたは『" ++ w.format topic ++ "』について調査し、次のことが分かりました：『" ++
      w.format summary ++ "』"
  else if topic.truthy then "あなたは『" ++ w.format topic ++ "』について調査しました。"
  else if summary.truthy then
    "あなたは調査により次のことを発見しました：『" ++ w.format summary ++ "』"
  else ""

/-- `ProactivePlanStrategy.build_proactive` -/
def buildProactive (w : HintWorld) (c : ProactiveContext) : ModulatedPlan :=
  if c.isSilentProactive then
    silentPlan c "normal" .proactiveCuriosity (Dict.empty.set "proactive_reason" c.topic)
  else if c.escalation then
    let content := escalationContent w c.topic c.summary
    if content = "" then silentPlan c "normal" .proactiveCuriosity .empty
    else { silentPlan c "deep" .proactiveEscalation .empty with content, silent := false }
  else silentPlan c "light" .timerEvent .empty

/-- `ResponsePlanStrategy.build_response` -/
def buildResponse (w : PlanningWorld) (content : String) (chaosLevel : ℚ)
    (roomId accountId : String) : ModulatedPlan where
  content := content
  taskLevel := if isTaskContent content then "normal" else "light"
  contextHint := Hints.buildUserContextHint w.hints w.memory content chaosLevel roomId
  accountId := accountId
  roomId := roomId
  modulation := .fromChaosLevel chaosLevel

/-! ## The handler -/

def publishModulated (plan : ModulatedPlan) (sessionId accountId roomId : String) :
    ModulatedPlan :=
  { plan with toPlan := publish plan.toPlan sessionId accountId roomId }

/-- `_apply_limbic_modulation` -/
def applyLimbicModulation (limbic : Option ModulationState) (plan : ModulatedPlan) :
    ModulatedPlan :=
  match limbic with
  | none => plan
  | some modulation => { plan with modulation }

/-- `event.account_id or context.get("identity", "")`, of an identity that is a text. -/
def proactiveAccount (event : InputReady) (context : InputContext) : String :=
  if event.accountId ≠ "" then event.accountId
  else
    match context.get? "identity" with
    | some (.str identity) => identity
    | _ => ""

def isProactiveEvent (context : InputContext) : Bool :=
  (context.getD "from_timer" .null).truthy || context.contains "system_event" ||
    (context.getD "escalation" .null).truthy

def onProactiveEvent (config : ProactiveConfig) (limbic : Option ModulationState)
    (w : PlanningWorld) (event : InputReady) (context : InputContext) : Option ModulatedPlan :=
  if w.inhibited then none
  else do
    let c ← ProactiveJudge.verdict config w event context
    let plan := applyLimbicModulation limbic (buildProactive w.hints c)
    if plan.modulation.shouldSuppressProactive then none
    else some (publishModulated plan event.sessionId (proactiveAccount event context) event.roomId)

def onUserInput (limbic : Option ModulationState) (w : PlanningWorld) (event : InputReady)
    (context : InputContext) : Option ModulatedPlan := do
  let chaosLevel ← chaosLevelOf context
  let plan := buildResponse w event.content chaosLevel event.roomId event.accountId
  some (publishModulated (applyLimbicModulation limbic plan) event.sessionId event.accountId
    event.roomId)

/-- `_on_input_ready`, with the plan it publishes. -/
def onInputReady (config : ProactiveConfig) (limbic : Option ModulationState) (w : PlanningWorld)
    (event : InputReady) : Option ModulatedPlan :=
  let context := Dict.ofList event.context
  if isProactiveEvent context then onProactiveEvent config limbic w event context
  else onUserInput limbic w event context

/-! ## What a plan can be -/

/-- The plan of an answer: it says what was said, to where it was said. -/
structure Answers (event : InputReady) (p : ModulatedPlan) : Prop where
  content : p.content = event.content
  level : p.taskLevel = if isTaskContent event.content then "normal" else "light"
  silent : p.silent = false
  reason : p.reason = .userInput
  overrides : p.overrides = .empty

/-- A plan that is allowed nothing. -/
structure Mute (p : ModulatedPlan) : Prop where
  content : p.content = ""
  silent : p.silent = true
  effects : p.allowSideEffects = false
  tools : p.maxToolIterations? = some 3

/-- A plan that nobody asked for: of an investigation, where the context says so, and of the timer
otherwise. -/
inductive Unasked (context : InputContext) (p : ModulatedPlan) : Prop
  | timer (escalation : (context.getD "escalation" .null).truthy = false)
      (reason : p.reason = .timerEvent) (level : p.taskLevel = "light") (mute : Mute p)
  | nothing (escalation : (context.getD "escalation" .null).truthy = true)
      (reason : p.reason = .proactiveCuriosity) (level : p.taskLevel = "normal")
      (mute : Mute p) (topic : (context.getD "topic" (.str "general")).truthy = false)
      (summary : (context.getD "summary" (.str "")).truthy = false)
  | told (escalation : (context.getD "escalation" .null).truthy = true)
      (reason : p.reason = .proactiveEscalation) (level : p.taskLevel = "deep")
      (content : p.content ≠ "") (silent : p.silent = false)
      (said : (context.getD "topic" (.str "general")).truthy = true ∨
        (context.getD "summary" (.str "")).truthy = true)

/-- Where the plan of an input goes. -/
def Addressed (event : InputReady) (p : ModulatedPlan) : Prop :=
  p.sessionId = event.sessionId ∧ p.roomId = event.roomId ∧
    (event.accountId ≠ "" → p.accountId = event.accountId)

variable {config : ProactiveConfig} {limbic : Option ModulationState} {w : PlanningWorld}
  {event : InputReady} {context : InputContext} {p : ModulatedPlan}

theorem publishModulated_silent {plan : ModulatedPlan} (h : plan.silent = true)
    (hcontent : plan.content = "") (s a r : String) : Mute (publishModulated plan s a r) := by
  have hp := publish_silent h s a r
  refine ⟨?_, ?_, hp.1, hp.2⟩
  · simp [publishModulated, publish, h, hcontent]
  · simp [publishModulated, publish, h]

theorem publishModulated_addressed (plan : ModulatedPlan) (s a r : String) :
    (publishModulated plan s a r).sessionId = s ∧ (publishModulated plan s a r).roomId = r ∧
      (publishModulated plan s a r).accountId = a := by
  unfold publishModulated publish
  dsimp only
  split <;> exact ⟨rfl, rfl, rfl⟩

theorem publishModulated_kept (plan : ModulatedPlan) (s a r : String) :
    (publishModulated plan s a r).reason = plan.reason ∧
      (publishModulated plan s a r).taskLevel = plan.taskLevel ∧
      (publishModulated plan s a r).content = plan.content ∧
      (publishModulated plan s a r).silent = plan.silent ∧
      (publishModulated plan s a r).modulation = plan.modulation := by
  unfold publishModulated publish
  dsimp only
  split <;> exact ⟨rfl, rfl, rfl, rfl, rfl⟩

theorem applyLimbicModulation_toPlan (plan : ModulatedPlan) :
    (applyLimbicModulation limbic plan).toPlan = plan.toPlan := by
  cases limbic <;> rfl

/-- There is something to tell exactly when there is a topic or a summary. -/
theorem escalationContent_eq_empty (w : HintWorld) (topic summary : Json) :
    escalationContent w topic summary = "" ↔ topic.truthy = false ∧ summary.truthy = false := by
  have hsome : ∀ a b : String, a ≠ "" → a ++ b ≠ "" := by
    intro a b ha hab
    exact ha (String.append_eq_empty_iff.mp hab).1
  unfold escalationContent
  cases topic.truthy <;> cases summary.truthy <;> simp [String.append_assoc, hsome]

/-- The judge never asks for a silent plan, and tells of an investigation where the context does. -/
theorem verdict_loud {c : ProactiveContext}
    (h : ProactiveJudge.verdict config w event context = some c) : c.isSilentProactive = false ∧
      c.escalation = (context.getD "escalation" .null).truthy ∧
      (c.escalation = true → c.topic = context.getD "topic" (.str "general") ∧
        c.summary = context.getD "summary" (.str "")) := by
  unfold ProactiveJudge.verdict at h
  split at h
  · next hescalation =>
    cases h
    exact ⟨rfl, hescalation.symm, fun _ => ⟨rfl, rfl⟩⟩
  · next hescalation =>
    dsimp only at h
    split at h
    · cases h
    · obtain ⟨chaosLevel, -, h⟩ := Option.bind_eq_some_iff.mp h
      cases h
      exact ⟨rfl, (Bool.not_eq_true _ ▸ hescalation).symm,
        fun hescalation => absurd hescalation Bool.false_ne_true⟩

/-- The plan of an investigation that came to something. -/
def toldPlan (w : HintWorld) (c : ProactiveContext) : ModulatedPlan :=
  { silentPlan c "deep" .proactiveEscalation .empty with
    content := escalationContent w c.topic c.summary
    silent := false }

theorem buildProactive_cases (w : HintWorld) {c : ProactiveContext}
    (hloud : c.isSilentProactive = false) :
    c.escalation = true ∧ escalationContent w c.topic c.summary = "" ∧
        buildProactive w c = silentPlan c "normal" .proactiveCuriosity .empty ∨
      c.escalation = true ∧ escalationContent w c.topic c.summary ≠ "" ∧
        buildProactive w c = toldPlan w c ∨
      c.escalation = false ∧ buildProactive w c = silentPlan c "light" .timerEvent .empty := by
  simp only [buildProactive, hloud, Bool.false_eq_true, if_false]
  cases c.escalation with
  | false => exact .inr (.inr ⟨rfl, rfl⟩)
  | true =>
    by_cases hcontent : escalationContent w c.topic c.summary = ""
    · exact .inl ⟨rfl, hcontent, by rw [if_pos rfl, if_pos hcontent]⟩
    · exact .inr (.inl ⟨rfl, hcontent, by rw [if_pos rfl, if_neg hcontent]; rfl⟩)

theorem mute_of_silentPlan {plan : ModulatedPlan} {c : ProactiveContext} {level : String}
    {reason : PlanReason} {overrides : Dict String Json}
    (h : plan.toPlan = (silentPlan c level reason overrides).toPlan) (s a r : String) :
    (publishModulated plan s a r).reason = reason ∧
      (publishModulated plan s a r).taskLevel = level ∧ Mute (publishModulated plan s a r) := by
  have hkept := publishModulated_kept plan s a r
  exact ⟨hkept.1.trans (congrArg Plan.reason h), hkept.2.1.trans (congrArg Plan.taskLevel h),
    publishModulated_silent (congrArg Plan.silent h) (congrArg Plan.content h) s a r⟩

theorem unasked_of_verdict {c : ProactiveContext} {plan : ModulatedPlan}
    (hverdict : ProactiveJudge.verdict config w event context = some c)
    (hplan : plan.toPlan = (buildProactive w.hints c).toPlan) (s a r : String) :
    Unasked context (publishModulated plan s a r) := by
  obtain ⟨hloud, hflag, hheard⟩ := verdict_loud hverdict
  rcases buildProactive_cases w.hints hloud with ⟨hescalation, hempty, hbuilt⟩ |
    ⟨hescalation, hempty, hbuilt⟩ | ⟨hescalation, hbuilt⟩
  · obtain ⟨htopic, hsummary⟩ := hheard hescalation
    rw [htopic, hsummary, escalationContent_eq_empty] at hempty
    obtain ⟨hreason, hlevel, hmute⟩ := mute_of_silentPlan (hbuilt ▸ hplan) s a r
    exact .nothing (hflag.symm.trans hescalation) hreason hlevel hmute hempty.1 hempty.2
  · obtain ⟨htopic, hsummary⟩ := hheard hescalation
    have htold : plan.toPlan = (toldPlan w.hints c).toPlan := hbuilt ▸ hplan
    obtain ⟨hreason, hlevel, hcontent, hsilent, -⟩ := publishModulated_kept plan s a r
    refine .told (hflag.symm.trans hescalation) (hreason.trans (congrArg Plan.reason htold))
      (hlevel.trans (congrArg Plan.taskLevel htold)) ?_
      (hsilent.trans (congrArg Plan.silent htold)) ?_
    · rw [hcontent, congrArg Plan.content htold]
      exact hempty
    · rw [htopic, hsummary, ne_eq, escalationContent_eq_empty] at hempty
      by_contra hno
      simp only [not_or, Bool.not_eq_true] at hno
      exact hempty hno
  · obtain ⟨hreason, hlevel, hmute⟩ := mute_of_silentPlan (hbuilt ▸ hplan) s a r
    exact .timer (hflag.symm.trans hescalation) hreason hlevel hmute

theorem unasked_of_proactive (h : onProactiveEvent config limbic w event context = some p) :
    Unasked context p ∧ Addressed event p := by
  unfold onProactiveEvent at h
  split at h
  · cases h
  · obtain ⟨c, hverdict, h⟩ := Option.bind_eq_some_iff.mp h
    dsimp only at h
    split at h
    · cases h
    · cases h
      refine ⟨unasked_of_verdict hverdict (applyLimbicModulation_toPlan _) .., ?_⟩
      obtain ⟨hsession, hroom, haccount⟩ := publishModulated_addressed
        (applyLimbicModulation limbic (buildProactive w.hints c)) event.sessionId
        (proactiveAccount event context) event.roomId
      refine ⟨hsession, hroom, fun hne => ?_⟩
      rw [haccount, proactiveAccount, if_pos hne]

theorem answers_of_input (h : onUserInput limbic w event context = some p) :
    Answers event p ∧ Addressed event p := by
  obtain ⟨chaosLevel, -, h⟩ := Option.bind_eq_some_iff.mp h
  cases h
  generalize hplan : applyLimbicModulation limbic
    (buildResponse w event.content chaosLevel event.roomId event.accountId) = plan
  have hto : plan.toPlan =
      (buildResponse w event.content chaosLevel event.roomId event.accountId).toPlan := by
    rw [← hplan, applyLimbicModulation_toPlan]
  obtain ⟨hsession, hroom, haccount⟩ := publishModulated_addressed plan event.sessionId
    event.accountId event.roomId
  have hsilent : plan.silent = false := congrArg Plan.silent hto
  refine ⟨⟨?_, ?_, ?_, ?_, ?_⟩, hsession, hroom, fun _ => haccount⟩ <;>
    simp [publishModulated, publish, hto, buildResponse]

end IrisMind.Planning
