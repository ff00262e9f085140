import IrisMind.Execution.Interrupts
import IrisMind.Inhibition.Evaluation

/-! # From a decided plan to its execution

A plan is evaluated on the thread that decides it, queued, and later taken by the
worker, which asks the gate and starts the graph. Everything else goes on in
between: the clock, other plans, requests to the inhibition layer, and the
suppression the worker itself puts in force for what was just said. -/
namespace IrisMind.Execution
open IrisMind.Lib IrisMind.Planning IrisMind.Inhibition

variable {T : Type} [Clock T]

/-- What the worker is at: it has a plan and not yet the gate, it has both, the graph is running,
the gate is to be released, and what was said is to be accounted for. -/
inductive Worker where
  | idle
  | taken (plan : Plan)
  | granted (plan : Plan)
  | running (plan : Plan)
  | closing (plan : Plan) (text : String)
  | speaking (plan : Plan) (text : String)

/-- The plan the worker has not started yet. -/
def Worker.pending : Worker → List Plan
  | .taken plan | .granted plan => [plan]
  | _ => []

/-- No speaking time means that the division by the speed raises. -/
structure Setting (T : Type) where
  graph : Env
  fmt : T → String
  speakingTime : Nat → Option T

/-- The execution layer. `decided` are the plans that passed the evaluation and are not queued
yet; each is in the hands of the thread that decided it. -/
structure FlowExecution (T : Type) where
  inhibition : InhibitionManager T
  now : T
  decided : List Plan := []
  queue : List Plan := []
  worker : Worker := .idle
  desk : Desk := {}

namespace FlowExecution

inductive Event (T : Type) where
  | tick (t : T)
  | planDecided (plan : Plan) (gateNow : T)
  | enqueue (i : Nat)
  | suppression (call : SuppressionCall T)
  | interrupt (e : InterruptEvent)
  | take
  | acquire (gateNow : T)
  | start
  | receive (content : Content) (toolCalls : List ToolCall)
  | node (i : Input)
  | finish (error : String)
  | release (gateNow : T)
  | speak

/-- `_FlowExecutionHandler._on_plan`, up to the call that queues the plan. -/
def onPlan (s : FlowExecution T) (plan : Plan) (gateNow : T) : FlowExecution T :=
  let (decision, gate) := s.inhibition.striatum.evaluate s.inhibition.gate s.now gateNow plan
  let s := { s with inhibition := { s.inhibition with gate } }
  if decision.allow then { s with decided := s.decided ++ [plan] } else s

/-- A user's plan breaks the hold of its room, then the gate is asked. -/
def acquire (fmt : T → String) (s : FlowExecution T) (plan : Plan) (gateNow : T) :
    FlowExecution T :=
  let m := if plan.reason = .userInput then s.inhibition.forceReleaseExecution plan.roomId
    else s.inhibition
  let (decision, m) := m.acquireExecution fmt plan.roomId gateNow
  { s with inhibition := m, worker := if decision.allow then .granted plan else .idle }

/-- The graph is at its end: the token is taken back, and what is new in the messages was said. -/
def finish (graph : Env) (s : FlowExecution T) (plan : Plan) (error : String) : FlowExecution T :=
  let desk := s.desk.move graph (.finish error)
  if desk.current.isSome then s
  else
    let text := newAiContent (desk.messages.drop s.desk.messages.length)
    { s with desk, worker := .closing plan text }

def step (set : Setting T) (s : FlowExecution T) : Event T → FlowExecution T
  | .tick t => { s with now := max s.now t }
  | .planDecided plan gateNow => s.onPlan plan gateNow
  | .enqueue i =>
    match s.decided[i]? with
    | none => s
    | some plan => { s with decided := s.decided.eraseIdx i, queue := s.queue ++ [plan] }
  | .suppression call =>
    { s with inhibition := { s.inhibition with striatum := s.inhibition.striatum.apply call } }
  | .interrupt e => { s with desk := s.desk.handle e }
  | .take =>
    match s.worker, s.queue with
    | .idle, plan :: queue => { s with queue, worker := .taken plan }
    | _, _ => s
  | .acquire gateNow =>
    match s.worker with
    | .taken plan => s.acquire set.fmt plan gateNow
    | _ => s
  | .start =>
    match s.worker with
    | .granted plan =>
      { s with desk := s.desk.move set.graph (.begin plan), worker := .running plan }
    | _ => s
  | .receive content toolCalls =>
    { s with desk := s.desk.move set.graph (.receive content toolCalls) }
  | .node i => { s with desk := s.desk.move set.graph (.node i) }
  | .finish error =>
    match s.worker with
    | .running plan => s.finish set.graph plan error
    | _ => s
  | .release gateNow =>
    match s.worker with
    | .closing plan text =>
      { s with
        inhibition := s.inhibition.releaseExecution plan.roomId gateNow
        worker := if text = "" then .idle else .speaking plan text }
    | _ => s
  | .speak =>
    match s.worker with
    | .speaking plan text =>
      match set.speakingTime text.length with
      | none => { s with worker := .idle }
      | some duration =>
        { s with
          inhibition := s.inhibition.suppress s.now "speaking" duration (some plan.roomId) none
          worker := .idle }
    | _ => s

def fresh (config : InhibitionConfig T) (profiles : Option (Dict String SuppressionProfile))
    (now : T) : FlowExecution T where
  inhibition := ⟨config, .fresh, .fresh profiles⟩
  now := now

/-! ## What is suppressed when -/

/-- The plans that passed the evaluation and have not been started. -/
def waiting (s : FlowExecution T) : List Plan := s.decided ++ s.queue ++ s.worker.pending

/-- `should_suppress` on a plan, now. -/
def suppresses (s : FlowExecution T) (plan : Plan) : Bool :=
  s.inhibition.striatum.shouldSuppress s.now plan.reason.value (some plan.roomId)

/-- The suppression an event asks for, the worker's own included. -/
def call? (set : Setting T) (s : FlowExecution T) : Event T → Option (SuppressionCall T)
  | .suppression call => some call
  | .speak =>
    match s.worker with
    | .speaking plan text => (set.speakingTime text.length).map fun duration =>
      .suppress s.now "speaking" duration (some plan.roomId) none
    | _ => none
  | _ => none

theorem step_striatum (set : Setting T) (s : FlowExecution T) (i : Event T) :
    (s.step set i).inhibition.striatum = match s.call? set i with
      | none => s.inhibition.striatum
      | some call => s.inhibition.striatum.apply call := by
  cases i with
  | tick t => rfl
  | planDecided plan gateNow => unfold step onPlan call?; dsimp only; split <;> rfl
  | enqueue i => unfold step call?; dsimp only; split <;> rfl
  | suppression call => rfl
  | interrupt e => rfl
  | take => unfold step call?; dsimp only; split <;> rfl
  | acquire gateNow =>
    unfold step call?
    dsimp only
    split
    · next plan _ =>
      unfold acquire
      by_cases hu : plan.reason = .userInput
      · rw [if_pos hu]; rfl
      · rw [if_neg hu]; rfl
    · rfl
  | start => unfold step call?; dsimp only; split <;> rfl
  | receive content toolCalls => rfl
  | node i => rfl
  | finish error =>
    unfold step call?
    dsimp only
    split
    · unfold finish; dsimp only; split <;> rfl
    · rfl
  | release gateNow => unfold step call?; dsimp only; split <;> rfl
  | speak =>
    unfold step call?
    dsimp only
    cases s.worker with
    | speaking plan text => dsimp only; cases set.speakingTime text.length <;> rfl
    | _ => rfl

theorem step_now (set : Setting T) (s : FlowExecution T) (i : Event T) :
    s.now ≤ (s.step set i).now := by
  cases i with
  | tick t => exact le_max_left _ _
  | planDecided plan gateNow => unfold step onPlan; dsimp only; split <;> exact le_refl _
  | finish error =>
    unfold step
    dsimp only
    split
    · unfold finish; dsimp only; split <;> exact le_refl _
    · exact le_refl _
  | speak =>
    unfold step
    dsimp only
    split
    · split <;> exact le_refl _
    · exact le_refl _
  | _ => unfold step; dsimp only; first | exact le_refl _ | (split <;> exact le_refl _)

omit [Clock T] in
theorem mem_waiting {s : FlowExecution T} {p : Plan} :
    p ∈ s.waiting ↔ p ∈ s.decided ∨ p ∈ s.queue ∨ p ∈ s.worker.pending := by
  simp only [waiting, List.mem_append, or_assoc]

omit [Clock T] in
/-- Nothing comes to wait where the queues stay and the worker has no new plan. -/
theorem waiting_of_worker {s t : FlowExecution T} {p : Plan} (hp : p ∈ t.waiting)
    (hd : t.decided = s.decided) (hq : t.queue = s.queue)
    (hw : ∀ p ∈ t.worker.pending, p ∈ s.worker.pending) : p ∈ s.waiting := by
  rw [mem_waiting, hd, hq] at hp
  exact mem_waiting.mpr (hp.imp id (Or.imp id (hw p)))

theorem onPlan_waiting (s : FlowExecution T) (plan : Plan) (gateNow : T) :
    ∀ p ∈ (s.onPlan plan gateNow).waiting, p ∈ s.waiting ∨ p = plan ∧
      (s.inhibition.striatum.evaluate s.inhibition.gate s.now gateNow plan).1.allow = true := by
  intro p hp
  unfold onPlan at hp
  dsimp only at hp
  split at hp
  · next hallow =>
    rcases mem_waiting.mp hp with hd | hrest
    · rcases List.mem_append.mp hd with hd | hnew
      · exact .inl (mem_waiting.mpr (.inl hd))
      · exact .inr ⟨List.mem_singleton.mp hnew, hallow⟩
    · exact .inl (mem_waiting.mpr (.inr hrest))
  · exact .inl hp

/-- The gate grants the plan the worker has taken, or the plan is dropped. -/
theorem acquire_waiting (fmt : T → String) {s : FlowExecution T} {plan : Plan}
    (hw : s.worker = .taken plan) (gateNow : T) :
    ∀ p ∈ (s.acquire fmt plan gateNow).waiting, p ∈ s.waiting := by
  intro p hp
  refine waiting_of_worker hp rfl rfl fun q hq => ?_
  rw [hw]
  cases hallow : ((if plan.reason = .userInput then
      s.inhibition.forceReleaseExecution plan.roomId else s.inhibition).acquireExecution fmt
        plan.roomId gateNow).1.allow with
  | true =>
    unfold acquire at hq
    dsimp only at hq
    rw [hallow] at hq
    exact hq
  | false =>
    unfold acquire at hq
    dsimp only at hq
    rw [hallow] at hq
    cases hq

omit [Clock T] in
theorem finish_waiting (graph : Env) (s : FlowExecution T) (plan : Plan) (error : String) :
    ∀ p ∈ (s.finish graph plan error).waiting, p ∈ s.waiting := by
  intro p hp
  unfold finish at hp
  dsimp only at hp
  split at hp
  · exact hp
  · exact waiting_of_worker hp rfl rfl fun q hq => by cases hq

/-- Only a plan that passes the evaluation comes to wait. -/
theorem step_waiting (set : Setting T) (s : FlowExecution T) (i : Event T) :
    ∀ p ∈ (s.step set i).waiting, p ∈ s.waiting ∨ ∃ gateNow, i = .planDecided p gateNow ∧
      (s.inhibition.striatum.evaluate s.inhibition.gate s.now gateNow p).1.allow = true := by
  intro p hp
  cases i with
  | planDecided plan gateNow =>
    refine (s.onPlan_waiting plan gateNow p hp).imp_right fun hnew => ?_
    obtain ⟨rfl, hallow⟩ := hnew
    exact ⟨gateNow, rfl, hallow⟩
  | enqueue i =>
    unfold step at hp
    dsimp only at hp
    split at hp
    · exact .inl hp
    · next plan hi =>
      rcases mem_waiting.mp hp with hd | hq | hw
      · exact .inl (mem_waiting.mpr (.inl (List.mem_of_mem_eraseIdx hd)))
      · rcases List.mem_append.mp hq with hq | hnew
        · exact .inl (mem_waiting.mpr (.inr (.inl hq)))
        · obtain rfl := List.mem_singleton.mp hnew
          exact .inl (mem_waiting.mpr (.inl (List.mem_of_getElem? hi)))
      · exact .inl (mem_waiting.mpr (.inr (.inr hw)))
  | take =>
    unfold step at hp
    dsimp only at hp
    split at hp
    · next plan queue hidle hq =>
      rcases mem_waiting.mp hp with hd | hrest
      · exact .inl (mem_waiting.mpr (.inl hd))
      · refine .inl (mem_waiting.mpr (.inr (.inl ?_)))
        rw [hq]
        rcases hrest with hrest | hnew
        · exact List.mem_cons_of_mem _ hrest
        · rw [List.mem_singleton.mp hnew]
          exact List.mem_cons_self
    · exact .inl hp
  | acquire gateNow =>
    unfold step at hp
    dsimp only at hp
    split at hp
    · next plan hw => exact .inl (acquire_waiting set.fmt hw gateNow p hp)
    · exact .inl hp
  | start =>
    unfold step at hp
    dsimp only at hp
    split at hp
    · exact .inl (waiting_of_worker hp rfl rfl fun q hq => by cases hq)
    · exact .inl hp
  | finish error =>
    unfold step at hp
    dsimp only at hp
    split at hp
    · next plan _ => exact .inl (s.finish_waiting set.graph plan error p hp)
    · exact .inl hp
  | release gateNow =>
    unfold step at hp
    dsimp only at hp
    split at hp
    · next plan text _ =>
      refine .inl (waiting_of_worker hp rfl rfl fun q hq => ?_)
      by_cases ht : text = ""
      · rw [if_pos ht] at hq
        cases hq
      · rw [if_neg ht] at hq
        cases hq
    · exact .inl hp
  | speak =>
    unfold step at hp
    dsimp only at hp
    split at hp
    · split at hp
      · exact .inl (waiting_of_worker hp rfl rfl fun q hq => by cases hq)
      · exact .inl (waiting_of_worker hp rfl rfl fun q hq => by cases hq)
    · exact .inl hp
  | tick t => exact .inl hp
  | suppression call => exact .inl hp
  | interrupt e => exact .inl hp
  | receive content toolCalls => exact .inl hp
  | node i => exact .inl hp

/-! ## No plan starts under suppression -/

/-- The graph is not started for a plan that is suppressed at that moment. -/
def StartsFree (s : FlowExecution T) : Event T → Prop
  | .start => ∀ plan, s.worker = .granted plan → s.suppresses plan = false
  | _ => True

/-- A plan that is suppressed does not get past the evaluation, and no suppression that comes
into force blocks a plan that waits. -/
structure Heeds (set : Setting T) (s : FlowExecution T) (i : Event T) : Prop where
  evaluation : ∀ plan gateNow, i = .planDecided plan gateNow → s.suppresses plan = true →
    ¬ s.inhibition.striatum.Bypasses s.inhibition.gate s.now gateNow plan
  waiting : ∀ call, s.call? set i = some call → ∀ p ∈ s.waiting,
    ¬ s.inhibition.striatum.Blocks s.now p call

/-- Nothing that waits is suppressed. -/
structure Clear (s : FlowExecution T) : Prop where
  wellKeyed : s.inhibition.striatum.WellKeyed
  waiting : ∀ p ∈ s.waiting, s.suppresses p = false

theorem step_wellKeyed (set : Setting T) {s : FlowExecution T} (i : Event T)
    (h : s.inhibition.striatum.WellKeyed) : (s.step set i).inhibition.striatum.WellKeyed := by
  rw [step_striatum]
  split
  · exact h
  · exact Striatum.apply_wellKeyed _ _ h

/-- A plan that was not suppressed is suppressed after a step only by what the step puts in
force. -/
theorem suppresses_step (set : Setting T) {s : FlowExecution T} {i : Event T} {p : Plan}
    (hfree : s.suppresses p = false)
    (hblocks : ∀ call, s.call? set i = some call →
      ¬ s.inhibition.striatum.Blocks s.now p call) : (s.step set i).suppresses p = false := by
  by_contra hsup
  have hsup : (s.step set i).suppresses p = true := Bool.eq_true_of_not_eq_false hsup
  have hnow := Striatum.shouldSuppress_mono (s.step_now set i) hsup
  rw [step_striatum] at hnow
  cases hcall : s.call? set i with
  | none =>
    rw [hcall] at hnow
    exact Bool.noConfusion (hfree.symm.trans hnow)
  | some call =>
    rw [hcall] at hnow
    rcases Striatum.shouldSuppress_apply hnow with hb | hold
    · exact hblocks call hcall hb
    · exact Bool.noConfusion (hfree.symm.trans hold)

theorem Clear.step {set : Setting T} {s : FlowExecution T} {i : Event T} (h : s.Clear)
    (hi : s.Heeds set i) : (s.step set i).Clear := by
  refine ⟨step_wellKeyed set i h.wellKeyed, fun p hp => ?_⟩
  rcases step_waiting set s i p hp with hold | ⟨gateNow, rfl, hallow⟩
  · exact suppresses_step set (h.waiting p hold) fun call hcall => hi.waiting call hcall p hold
  · have hbypass := (Striatum.evaluate_allow_iff h.wellKeyed _ _ _ _).mp hallow
    have hfree : s.suppresses p = false := by
      by_contra hsup
      exact hi.evaluation p gateNow rfl (Bool.eq_true_of_not_eq_false hsup) hbypass
    refine suppresses_step set hfree fun call hcall => ?_
    cases hcall

theorem fresh_clear (config : InhibitionConfig T)
    (profiles : Option (Dict String SuppressionProfile)) (now : T) :
    (fresh config profiles now).Clear :=
  ⟨Striatum.run_wellKeyed profiles [], fun _ hp => by cases hp⟩

theorem Clear.startsFree {s : FlowExecution T} (h : s.Clear) (i : Event T) : s.StartsFree i := by
  cases i with
  | start =>
    intro plan hw
    refine h.waiting plan (mem_waiting.mpr (.inr (.inr ?_)))
    rw [hw]
    exact List.mem_singleton_self plan
  | _ => trivial

/-- In every run in which a suppressed plan does not get past the evaluation and no suppression
comes into force for a plan that waits, no plan starts under suppression. -/
theorem startsFree_of_heeds (set : Setting T) (config : InhibitionConfig T)
    (profiles : Option (Dict String SuppressionProfile)) (now : T) (events : List (Event T))
    (h : Machine.Guarded (step set) (Heeds set) (fresh config profiles now) events) :
    Machine.Guarded (step set) StartsFree (fresh config profiles now) events := by
  refine Machine.guarded_iff_forall.mpr fun before i hp => ?_
  have hbefore : Machine.Guarded (step set) (Heeds set) (fresh config profiles now) before :=
    h.of_prefix ((List.prefix_append _ _).trans hp)
  exact (hbefore.inv Clear (fun _ _ hs hi => hs.step hi)
    (fresh_clear config profiles now)).startsFree i

theorem heeds_of_silent {set : Setting T} {s : FlowExecution T} {i : Event T}
    (hplan : ∀ plan gateNow, i ≠ .planDecided plan gateNow)
    (hcall : s.call? set i = none ∨ s.waiting = []) : s.Heeds set i := by
  refine ⟨fun plan gateNow hi => absurd hi (hplan plan gateNow), fun call hc p hp => ?_⟩
  rcases hcall with hnone | hnil
  · cases hnone.symm.trans hc
  · rw [hnil] at hp
    cases hp

/-- A room in which a plan waits, is taken and started, and then a suppression for it comes. -/
theorem startsFree_of_late_suppression :
    Machine.Guarded (step ⟨.bare, fun _ => "", some ∘ Int.ofNat⟩) StartsFree
      (fresh { postExecutionCooldownSec := 5 } none 1)
      [.planDecided { content := "", reason := .timerEvent, roomId := "r" } 1, .enqueue 0, .take,
        .acquire 1, .start, .suppression (.suppress 1 "voice_recording" 0 (some "r") none)] := by
  refine startsFree_of_heeds _ _ _ _ _ ⟨?_, ?_, ?_, ?_, ?_, ?_, trivial⟩
  · refine ⟨fun p gateNow hp hsup => ?_, fun call hcall => by cases hcall⟩
    exact absurd hsup (by cases hp; decide)
  · exact heeds_of_silent (fun p gateNow hp => by cases hp) (.inl rfl)
  · exact heeds_of_silent (fun p gateNow hp => by cases hp) (.inl rfl)
  · exact heeds_of_silent (fun p gateNow hp => by cases hp) (.inl rfl)
  · exact heeds_of_silent (fun p gateNow hp => by cases hp) (.inl rfl)
  · exact heeds_of_silent (fun p gateNow hp => by cases hp) (.inr rfl)

/-- The recording begins while the plan waits in the queue, and the plan is started all the same. -/
theorem queued_plan_starts_suppressed :
    ¬ ∀ (set : Setting Int) (config : InhibitionConfig Int)
      (profiles : Option (Dict String SuppressionProfile)) (now : Int) (events : List (Event Int)),
      Machine.Guarded (step set) StartsFree (fresh config profiles now) events := by
  intro h
  let plan : Plan := { content := "", reason := .timerEvent, roomId := "r" }
  have hrun := h ⟨.bare, fun _ => "", some ∘ Int.ofNat⟩ { postExecutionCooldownSec := 5 } none 1
    [.planDecided plan 1, .enqueue 0,
      .suppression (.suppress 1 "voice_recording" 0 (some "r") none),
      .take, .acquire 1, .start]
  obtain ⟨_, _, _, _, _, hstart, _⟩ := hrun
  exact absurd (hstart plan rfl) (by decide)

end FlowExecution

end IrisMind.Execution
