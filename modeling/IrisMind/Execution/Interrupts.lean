import IrisMind.Execution.Executor

/-! # Interrupts

An interrupt is handled on the thread that publishes it, while the worker runs the
graph. The executor keeps one token, that of the execution under way, and the
handler reads the field three times: whatever token it finds the last time is the
one it cancels. The execution learns of it where it looks at its token, after a
chunk of the stream or after the call. -/
namespace IrisMind.Execution
open IrisMind.Lib IrisMind.Planning IrisMind.Llm

structure InterruptEvent where
  traceId : String
  roomId : String := ""
deriving DecidableEq, Repr

/-- How far `cancel_execution` has got for an event: it asks for a token, asks it whether it is
cancelled, and cancels it. -/
inductive Stage where
  | looking
  | checking
  | cancelling
  | done
deriving DecidableEq, Repr

/-- A plan in execution, from the moment its token is made up to the `finally` block, with the
chunks that came in during the model call under way. -/
structure Running where
  plan : Plan
  config : Config
  chunks : List Chunk := []
  token : Bool := false

structure Desk where
  messages : List Msg := []
  current : Option Running := none
  stage : InterruptEvent → Stage := fun _ => .looking

namespace Running

def cancel (x : Running) : Running := { x with token := true }

/-- The stream of a model call is open: it has not broken off at a cancelled token. -/
def streams (env : Env) (x : Running) : Bool :=
  match x.config.pc with
  | .llm _ => env.eventBus && !x.config.state.interrupted &&
      (x.chunks.isEmpty || !(streamLoop { cancelled := x.config.cancelled } x.chunks).cancelled)
  | _ => false

/-- A chunk comes in; the repetition detector may cancel the token at it. -/
def receive (env : Env) (x : Running) (content : Content) (toolCalls : List ToolCall) :
    Running :=
  if x.streams env then
    let chunks := x.chunks ++ [{ content, toolCalls, cancelled := x.token }]
    { x with
      chunks
      token := x.token || (streamLoop { cancelled := x.config.cancelled } chunks).cancelled }
  else x

/-- What the node under way saw of the outside: the chunks as they came in, and the token before
the call and after it. -/
def input (x : Running) (i : Input) : Input :=
  { i with
    cancelled := x.token && x.chunks.isEmpty
    reply := { i.reply with
      promptRaises := i.reply.promptRaises && x.chunks.isEmpty
      chunks := x.chunks
      cancelledAfter := x.token } }

/-- The node under way comes to its end. -/
def node (env : Env) (x : Running) (i : Input) : Running :=
  let config := step env x.config (x.input i)
  { x with config, chunks := [], token := x.token || config.cancelled }

end Running

namespace Desk

inductive Move where
  | begin (plan : Plan)
  | receive (content : Content) (toolCalls : List ToolCall)
  | node (i : Input)
  | finish (error : String)
  | handle (e : InterruptEvent)

def setStage (d : Desk) (e : InterruptEvent) (stage : Stage) : Desk :=
  { d with stage := Function.update d.stage e stage }

/-- The next step of `cancel_execution`. Where the field has been cleared meanwhile the handler
raises, which the bus swallows. -/
def handle (d : Desk) (e : InterruptEvent) : Desk :=
  match d.stage e, d.current with
  | .looking, some _ => d.setStage e .checking
  | .checking, some x => d.setStage e (if x.token then .done else .cancelling)
  | .cancelling, some x => { d with current := some x.cancel }.setStage e .done
  | .done, _ => d
  | _, none => d.setStage e .done

/-- The list of messages once the graph has returned or raised. -/
def messagesAfter (x : Running) (error : String) : List Msg :=
  if x.config.pc = .raised then x.config.state.messages ++ [errorMessage error]
  else x.config.state.messages

def move (env : Env) (d : Desk) : Move → Desk
  | .begin plan =>
    match d.current with
    | none => { d with current := some { plan, config := .start plan d.messages } }
    | some _ => d
  | .receive content toolCalls =>
    { d with current := d.current.map (·.receive env content toolCalls) }
  | .node i => { d with current := d.current.map (·.node env i) }
  | .finish error =>
    match d.current with
    | none => d
    | some x =>
      if x.config.pc.isEnd then { d with messages := messagesAfter x error, current := none }
      else d
  | .handle e => d.handle e

def Move.isOf (e : InterruptEvent) : Move → Bool
  | .handle e' => e' == e
  | _ => false

def Move.begins : Move → Bool
  | .begin _ => true
  | _ => false

/-! ## Executions are runs of the graph -/

/-- The execution under way is somewhere in a run of the graph on the executor's messages. -/
def Reaches (env : Env) (d : Desk) : Prop :=
  ∀ x, d.current = some x → ∃ is, x.config = reach env x.plan d.messages is

theorem handle_current (d : Desk) (e : InterruptEvent) :
    (d.handle e).messages = d.messages ∧
      ((d.handle e).current = d.current ∨ d.stage e = .cancelling ∧
        ∃ x, d.current = some x ∧ (d.handle e).current = some x.cancel) := by
  unfold handle
  split
  · exact ⟨rfl, .inl rfl⟩
  · exact ⟨rfl, .inl rfl⟩
  · next x hs hc => exact ⟨rfl, .inr ⟨hs, x, hc, rfl⟩⟩
  · exact ⟨rfl, .inl rfl⟩
  · exact ⟨rfl, .inl rfl⟩

theorem Reaches.move {env : Env} {d : Desk} (h : d.Reaches env) (m : Move) :
    (d.move env m).Reaches env := by
  cases m with
  | begin plan =>
    unfold Desk.move
    cases hc : d.current with
    | none =>
      intro x hx
      cases hx
      exact ⟨[], rfl⟩
    | some x => exact h
  | receive content toolCalls =>
    intro y hy
    obtain ⟨x, hx, rfl⟩ := Option.map_eq_some_iff.mp hy
    obtain ⟨is, his⟩ := h x hx
    refine ⟨is, ?_⟩
    unfold Running.receive
    split
    · exact his
    · exact his
  | node i =>
    intro y hy
    obtain ⟨x, hx, rfl⟩ := Option.map_eq_some_iff.mp hy
    obtain ⟨is, his⟩ := h x hx
    refine ⟨is ++ [x.input i], ?_⟩
    show step env x.config (x.input i) = Machine.run _ _ _
    rw [Machine.run_append, his]
    rfl
  | finish error =>
    unfold Desk.move
    cases hc : d.current with
    | none => exact h
    | some x =>
      dsimp only
      split
      · intro y hy
        cases hy
      · exact h
  | handle e =>
    intro y hy
    obtain ⟨hm, hsame | ⟨_, x, hx, hcancel⟩⟩ := d.handle_current e
    · obtain ⟨is, his⟩ := h y (hsame.symm.trans hy)
      exact ⟨is, by rw [his]; exact congrArg (reach env y.plan · is) hm.symm⟩
    · obtain ⟨is, his⟩ := h x hx
      cases hcancel.symm.trans hy
      exact ⟨is, his.trans (congrArg (reach env x.plan · is) hm.symm)⟩

/-! ## Isolation -/

def run (env : Env) (messages : List Msg) (moves : List Move) : Desk :=
  Machine.run (move env) { messages } moves

/-- What there is of an execution: itself while it is under way, and what it leaves. -/
def view (d : Desk) : Option Running × List Msg := (d.current, d.messages)

/-- In every stretch of the run: an event cancels no execution of another room than its own, and
such an execution goes on and ends as it does without the steps of the event's handler. -/
structure Isolated (env : Env) (messages : List Msg) (moves : List Move) : Prop where
  cancels : ∀ before e, before ++ [.handle e] <+: moves → ∀ x y,
    (run env messages before).current = some x → x.token = false →
    (run env messages (before ++ [.handle e])).current = some y → y.token = true →
    x.plan.roomId = e.roomId
  asIf : ∀ before after e, before ++ after <+: moves → ∀ x,
    (run env messages before).current = some x → x.plan.roomId ≠ e.roomId →
    (∀ m ∈ after, m.begins = false) →
    (run env messages (before ++ after)).view =
      (run env messages (before ++ after.filter fun m => !m.isOf e)).view

/-- A handler about to cancel finds no live token but one of the event's own room. -/
def Addressed (d : Desk) : Move → Prop
  | .handle e => d.stage e = .cancelling → ∀ x, d.current = some x → x.token = false →
    x.plan.roomId = e.roomId
  | _ => True

theorem Running.cancel_of_token {x : Running} (h : x.token = true) : x.cancel = x := by
  cases x
  cases h
  rfl

theorem handle_of_addressed {d : Desk} {e : InterruptEvent} (h : d.Addressed (.handle e))
    (hother : ∀ x, d.current = some x → x.plan.roomId ≠ e.roomId) :
    (d.handle e).view = d.view := by
  obtain ⟨hm, hsame | ⟨hs, x, hx, hcancel⟩⟩ := d.handle_current e
  · exact Prod.ext hsame hm
  · have htoken : x.token = true := by
      by_contra hlive
      exact hother x hx (h hs x hx (Bool.eq_false_of_not_eq_true hlive))
    rw [Running.cancel_of_token htoken, ← hx] at hcancel
    exact Prod.ext hcancel hm

theorem handle_stage_ne (d : Desk) {e e' : InterruptEvent} (h : e' ≠ e) :
    (d.handle e).stage e' = d.stage e' := by
  unfold handle
  split
  · exact Function.update_of_ne h _ _
  · exact Function.update_of_ne h _ _
  · exact Function.update_of_ne h _ _
  · rfl
  · exact Function.update_of_ne h _ _

/-- The two desks show the same but for how far the handler of the event is; the execution under
way, if it is still there, is that of the plan. -/
structure AlikeBut (e : InterruptEvent) (plan : Plan) (s t : Desk) : Prop where
  view : s.view = t.view
  stage : ∀ e', e' ≠ e → s.stage e' = t.stage e'
  plan : ∀ x, s.current = some x → x.plan = plan

theorem move_plan {env : Env} {d : Desk} {plan : Plan} {m : Move}
    (h : ∀ x, d.current = some x → x.plan = plan) (hm : m.begins = false) :
    ∀ x, (d.move env m).current = some x → x.plan = plan := by
  intro y hy
  cases m with
  | begin _ => cases hm
  | receive content toolCalls =>
    obtain ⟨x, hx, rfl⟩ := Option.map_eq_some_iff.mp hy
    rw [← h x hx]
    unfold Running.receive
    split <;> rfl
  | node i =>
    obtain ⟨x, hx, rfl⟩ := Option.map_eq_some_iff.mp hy
    exact h x hx
  | finish error =>
    unfold Desk.move at hy
    cases hc : d.current with
    | none => rw [hc] at hy; exact h y (hc ▸ hy)
    | some x =>
      rw [hc] at hy
      dsimp only at hy
      split at hy
      · cases hy
      · exact h y (by rw [← hy])
  | handle e =>
    obtain ⟨_, hsame | ⟨_, x, hx, hcancel⟩⟩ := d.handle_current e
    · exact h y (hsame.symm.trans hy)
    · cases hcancel.symm.trans hy
      exact h x hx

theorem AlikeBut.move {env : Env} {e : InterruptEvent} {plan : Plan} {s t : Desk}
    (h : AlikeBut e plan s t) {m : Move} (hm : m.begins = false) (hother : m.isOf e = false) :
    AlikeBut e plan (s.move env m) (t.move env m) := by
  have hplan : ∀ x, (s.move env m).current = some x → x.plan = plan := move_plan h.plan hm
  obtain ⟨messages, current, stage⟩ := s
  obtain ⟨messages', current', stage'⟩ := t
  obtain ⟨rfl, rfl⟩ := Prod.mk.inj h.view
  cases m with
  | begin _ => cases hm
  | receive content toolCalls => exact ⟨rfl, h.stage, hplan⟩
  | node i => exact ⟨rfl, h.stage, hplan⟩
  | finish error =>
    refine ⟨?_, ?_, hplan⟩
    · cases current with
      | none => rfl
      | some x => unfold Desk.move; dsimp only; split <;> rfl
    · cases current with
      | none => exact h.stage
      | some x => unfold Desk.move; dsimp only; split <;> exact h.stage
  | handle e' =>
    have hne : e' ≠ e := by simpa [Move.isOf] using hother
    have hstage : stage e' = stage' e' := h.stage e' hne
    refine ⟨?_, fun e'' hne' => ?_, hplan⟩
    · unfold Desk.move handle
      dsimp only
      rw [hstage]
      cases stage' e' <;> cases current <;> rfl
    · unfold Desk.move handle
      dsimp only
      rw [hstage]
      have hupdate : ∀ v, Function.update stage e' v e'' = Function.update stage' e' v e'' := by
        intro v
        by_cases he : e'' = e'
        · rw [he, Function.update_self, Function.update_self]
        · rw [Function.update_of_ne he, Function.update_of_ne he]
          exact h.stage e'' hne'
      cases stage' e' <;> cases current <;> first | exact hupdate _ | exact h.stage e'' hne'

theorem AlikeBut.handle {e : InterruptEvent} {plan : Plan} {s t : Desk}
    (h : AlikeBut e plan s t) (hroom : plan.roomId ≠ e.roomId)
    (hok : s.Addressed (.handle e)) : AlikeBut e plan (s.handle e) t := by
  have hview : (s.handle e).view = s.view :=
    handle_of_addressed hok fun x hx => by rw [h.plan x hx]; exact hroom
  refine ⟨hview.trans h.view, fun e' hne => ?_, fun x hx => ?_⟩
  · rw [s.handle_stage_ne hne]
    exact h.stage e' hne
  · exact h.plan x ((congrArg Prod.fst hview).symm.trans hx)

theorem Move.eq_handle {m : Move} {e : InterruptEvent} (h : m.isOf e = true) : m = .handle e := by
  cases m with
  | handle e' => rw [show e' = e by simpa [Move.isOf] using h]
  | begin _ => cases h
  | receive _ _ => cases h
  | node _ => cases h
  | finish _ => cases h

/-- Interrupts are isolated in a run exactly when every handler that is about to cancel finds no
live token but one of its event's own room. -/
theorem interrupts_isolated_iff (env : Env) (messages : List Msg) (moves : List Move) :
    Isolated env messages moves ↔ Machine.Guarded (move env) Addressed { messages } moves := by
  constructor
  · intro h
    refine Machine.guarded_iff_forall.mpr fun before m hp => ?_
    cases m with
    | handle e =>
      intro hs x hx hlive
      refine h.cancels before e hp x x.cancel hx hlive ?_ rfl
      show (Machine.run (move env) { messages } (before ++ [.handle e])).current = some x.cancel
      rw [Machine.run_append, Machine.run_cons, Machine.run_nil]
      show (Desk.handle _ e).current = _
      unfold Desk.handle
      rw [hs, hx]
      rfl
    | begin _ => trivial
    | receive _ _ => trivial
    | node _ => trivial
    | finish _ => trivial
  · intro hg
    constructor
    · intro before e hp x y hx hlive hy hdead
      have hok := Machine.guarded_iff_forall.mp hg before (.handle e) hp
      by_contra hroom
      have hview : ((run env messages before).handle e).view = (run env messages before).view :=
        handle_of_addressed hok fun z hz => by cases hx.symm.trans hz; exact hroom
      have hy' : ((run env messages before).handle e).current = some y := by
        have hstep : run env messages (before ++ [.handle e]) =
            (run env messages before).handle e := Machine.run_append _ _ _
        rw [← hstep]
        exact hy
      have hxy : some y = some x := by
        rw [← hy', ← hx]
        exact congrArg Prod.fst hview
      cases hxy
      rw [hlive] at hdead
      cases hdead
    · intro before after e hp x hx hroom hbegins
      have hrest := (Machine.guarded_append.mp (hg.of_prefix hp)).2
      have hstart : AlikeBut e x.plan (run env messages before) (run env messages before) :=
        ⟨rfl, fun _ _ => rfl, fun y hy => by cases hx.symm.trans hy; rfl⟩
      have hboth : Machine.Guarded (move env) (fun d m => d.Addressed m ∧ m.begins = false)
          (run env messages before) after := by
        refine Machine.guarded_iff_forall.mpr fun js m hq => ⟨?_, hbegins m (hq.subset (by simp))⟩
        exact Machine.guarded_iff_forall.mp hrest js m hq
      unfold run
      rw [Machine.run_append, Machine.run_append]
      refine (hboth.run_filter (AlikeBut e x.plan) (fun m => !m.isOf e) ?_ ?_ hstart).view
      · intro s t m hst hok hkeep
        exact hst.move hok.2 (by simpa using hkeep)
      · intro s t m hst hok hdrop
        obtain rfl : m = .handle e := Move.eq_handle (by simpa using hdrop)
        exact hst.handle hroom hok.1

/-- New input in one room takes the answer from another. -/
theorem interrupt_crosses_rooms :
    ¬ ∀ (env : Env) (messages : List Msg) (moves : List Move), Isolated env messages moves := by
  intro h
  let e : InterruptEvent := { traceId := "1", roomId := "q" }
  let plan : Plan := { content := "hi", roomId := "r" }
  have hcancels := (h .bare [] [.begin plan, .handle e, .handle e, .handle e]).cancels
    [.begin plan, .handle e, .handle e] e (List.prefix_refl _) _ _ rfl rfl rfl rfl
  exact absurd hcancels (by decide)

end Desk

end IrisMind.Execution
