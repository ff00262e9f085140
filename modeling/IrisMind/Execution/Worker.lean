import IrisMind.Execution.Executor
import IrisMind.Inhibition.Evaluation

/-! # The executor worker

The worker takes one plan after the other, whatever the graph makes of it. A gate
is acquired before the graph runs and released on every way out, so between two
plans no gate executes; what other threads ask the inhibition layer meanwhile
moves no gate. -/
namespace IrisMind.Execution
open IrisMind.Lib IrisMind.Planning IrisMind.Inhibition

variable {T : Type} [Clock T]

/-- What comes out of the graph; `escaped` stands for an exception no `except Exception` catches. -/
inductive Ending where
  | returned
  | raised (error : String)
  | escaped

/-- A run of the graph: the list of messages as it leaves it, and what it did to the outside. -/
structure GraphRun where
  ending : Ending
  messages : List Msg
  effects : List Effect

/-- A plan from the queue, what the graph makes of a list of messages, and the readings of the
clock on the way. The monotonic clock never reads less than zero. -/
structure Turn (T : Type) [Clock T] where
  plan : Plan
  graph : List Msg → GraphRun
  acquiredAt : T
  releasedAt : T
  suppressedAt : T
  started : 0 ≤ acquiredAt

def GraphRun.messagesAfter (run : GraphRun) : List Msg :=
  match run.ending with
  | .raised error => run.messages ++ [errorMessage error]
  | .returned | .escaped => run.messages

/-- What `process` leaves, whether the graph ran, and what it did. -/
structure TurnRun (T : Type) where
  executor : FlowExecutor T
  ran : Bool
  effects : List Effect := []

namespace Turn

/-- The manager the gate is asked of: a user's plan has broken the hold of its room. -/
def prepare (t : Turn T) (m : InhibitionManager T) : InhibitionManager T :=
  if t.plan.reason = .userInput then m.forceReleaseExecution t.plan.roomId else m

/-- The `finally` block; no speaking time means that the division by the speed raises. -/
def cleanUp (t : Turn T) (speakingTime : Nat → Option T) (text : String)
    (m : InhibitionManager T) : InhibitionManager T :=
  let m := m.releaseExecution t.plan.roomId t.releasedAt
  if text = "" then m
  else match speakingTime text.length with
    | none => m
    | some duration =>
      m.suppress t.suppressedAt "speaking" duration (some t.plan.roomId) none

end Turn

namespace FlowExecutor

def acquireTurn (fmt : T → String) (x : FlowExecutor T) (t : Turn T) :
    Bool × Option (InhibitionManager T) :=
  match x.inhibition with
  | none => (true, none)
  | some m =>
    let (decision, m) := (t.prepare m).acquireExecution fmt t.plan.roomId t.acquiredAt
    (decision.allow, some m)

/-- `FlowExecutor.process`, for a graph that may end in any way. -/
def turn (fmt : T → String) (speakingTime : Nat → Option T) (x : FlowExecutor T) (t : Turn T) :
    TurnRun T :=
  let (granted, inhibition) := x.acquireTurn fmt t
  if !granted then { executor := { x with inhibition }, ran := false }
  else
    let run := t.graph x.messages
    let messages := run.messagesAfter
    let text := newAiContent (messages.drop x.messages.length)
    { executor := { inhibition := inhibition.map (t.cleanUp speakingTime text), messages }
      ran := true
      effects := run.effects }

end FlowExecutor

/-- A job as a turn: the graph is the execution graph, driven by what the job says of the
outside. -/
def Job.turn (env : ExecutorEnv T) (job : Job T) (h : 0 ≤ job.acquiredAt) : Turn T where
  plan := job.plan
  graph messages :=
    let c := reach env.graph job.plan messages job.ask.padded
    { ending := if c.pc = .raised then .raised job.ask.error else .returned
      messages := c.state.messages
      effects := c.log }
  acquiredAt := job.acquiredAt
  releasedAt := job.releasedAt
  suppressedAt := job.suppressedAt
  started := h

theorem process_eq_turn (env : ExecutorEnv T) (x : FlowExecutor T) (job : Job T)
    (h : 0 ≤ job.acquiredAt) :
    x.process env job =
      (x.turn env.fmt (fun n => some (env.speakingTime n)) (job.turn env h)).executor := by
  have hgate : x.acquireTurn env.fmt (job.turn env h) = x.acquireGate env job := rfl
  have hmessages : ((job.turn env h).graph x.messages).messagesAfter =
      x.messagesAfter env job.ask := by
    unfold FlowExecutor.messagesAfter FlowExecutor.graphRun
    by_cases hpc : (reach env.graph job.ask.plan x.messages job.ask.padded).pc = .raised
    · simp [Job.turn, Job.plan, GraphRun.messagesAfter, hpc]
    · simp [Job.turn, Job.plan, GraphRun.messagesAfter, hpc]
  unfold FlowExecutor.process FlowExecutor.turn
  rw [hgate]
  cases x.acquireGate env job with
  | mk granted inhibition =>
    cases granted with
    | false => rfl
    | true =>
      dsimp only [Bool.not_true, Bool.false_eq_true, if_false]
      rw [hmessages]
      rfl

/-! ## What a turn does to the gates -/

namespace Turn

theorem room_prepare (t : Turn T) (m : InhibitionManager T) (r : String) :
    (t.prepare m).gate.room r =
      if t.plan.reason = .userInput ∧ t.plan.roomId = r then RoomGate.fresh else m.gate.room r := by
  unfold prepare
  by_cases hu : t.plan.reason = .userInput
  · rw [if_pos hu]
    show (m.gate.forceRelease t.plan.roomId).room r = _
    rw [Gate.room_forceRelease]
    by_cases hr : t.plan.roomId = r
    · rw [if_pos hr, if_pos ⟨hu, hr⟩]
      rfl
    · rw [if_neg hr, if_neg fun h => hr h.2]
  · rw [if_neg hu, if_neg fun h => hu h.1]

theorem prepare_executing {m : InhibitionManager T} (t : Turn T)
    (h : ∀ room, (m.gate.room room).executing = false) (room : String) :
    ((t.prepare m).gate.room room).executing = false := by
  rw [t.room_prepare]
  split
  · rfl
  · exact h room

theorem room_cleanUp (t : Turn T) (speakingTime : Nat → Option T) (text : String)
    (m : InhibitionManager T) (r : String) :
    (t.cleanUp speakingTime text m).gate.room r =
      if t.plan.roomId = r then (m.gate.room r).release m.config t.releasedAt
      else m.gate.room r := by
  have hrelease : (t.cleanUp speakingTime text m).gate =
      m.gate.release m.config t.plan.roomId t.releasedAt := by
    unfold cleanUp
    dsimp only
    split
    · rfl
    · split <;> rfl
  rw [hrelease, Gate.room_release]
  split
  · next hr => rw [hr]
  · rfl

end Turn

namespace FlowExecutor

/-- A turn is refused by the gate it asks, and then no gate moves; or the gate is open, the graph
runs, and the gate is shut for the cooldown afterwards. -/
theorem turn_cases (fmt : T → String) (speakingTime : Nat → Option T) {x : FlowExecutor T}
    {m : InhibitionManager T} (hx : x.inhibition = some m) (t : Turn T) :
    let g := (t.prepare m).gate.room t.plan.roomId
    let r := x.turn fmt speakingTime t
    r.ran = false ∧ (g.executing = true ∨ g.isOnCooldown t.acquiredAt = true) ∧ r.effects = [] ∧
        r.executor.messages = x.messages ∧ (∃ m', r.executor.inhibition = some m' ∧
          ∀ room, m'.gate.room room = (t.prepare m).gate.room room) ∨
      r.ran = true ∧ g.executing = false ∧ g.isOnCooldown t.acquiredAt = false ∧
        ∃ m', r.executor.inhibition = some m' ∧ ∀ room, m'.gate.room room =
          if t.plan.roomId = room then ⟨false, t.releasedAt + m.config.postExecutionCooldownSec⟩
          else (t.prepare m).gate.room room := by
  intro g r
  have hfst := Gate.acquire_fst fmt (t.prepare m).gate t.plan.roomId t.acquiredAt
  have hroom := fun room =>
    Gate.room_acquire fmt (t.prepare m).gate t.plan.roomId room t.acquiredAt
  have hgate : x.acquireTurn fmt t = (((t.prepare m).gate.acquire fmt t.plan.roomId
      t.acquiredAt).1.allow, some { t.prepare m with
        gate := ((t.prepare m).gate.acquire fmt t.plan.roomId t.acquiredAt).2 }) := by
    rw [acquireTurn, hx]
    rfl
  have hr : r = x.turn fmt speakingTime t := rfl
  unfold turn at hr
  rw [hgate, hfst] at hr
  rcases RoomGate.acquire_cases fmt g t.acquiredAt with ⟨hallow, hshut, hsame⟩ | ⟨hallow, he, hc⟩
  · rw [hallow] at hr
    rw [hr]
    refine .inl ⟨rfl, hshut, rfl, rfl, _, rfl, fun room => ?_⟩
    rw [hroom]
    split
    · next h => rw [hsame, ← h]
    · rfl
  · rw [hallow] at hr
    rw [hr]
    refine .inr ⟨rfl, he, hc, _, rfl, fun room => ?_⟩
    have hconfig : (t.prepare m).config = m.config := by
      unfold Turn.prepare
      split <;> rfl
    rw [Turn.room_cleanUp]
    split
    · rw [← hconfig]
      rfl
    · next hne => rw [hroom, if_neg hne]

/-- The inhibition layer is there, and none of its gates is executing. -/
def Released (x : FlowExecutor T) : Prop :=
  ∃ m, x.inhibition = some m ∧ ∀ room, (m.gate.room room).executing = false

theorem Released.turn {fmt : T → String} {speakingTime : Nat → Option T} {x : FlowExecutor T}
    (h : x.Released) (t : Turn T) : (x.turn fmt speakingTime t).executor.Released := by
  obtain ⟨m, hx, hidle⟩ := h
  rcases turn_cases fmt speakingTime hx t with
    ⟨_, _, _, _, m', hm', hgates⟩ | ⟨_, _, _, m', hm', hgates⟩
  · refine ⟨m', hm', fun room => ?_⟩
    rw [hgates]
    exact t.prepare_executing hidle room
  · refine ⟨m', hm', fun room => ?_⟩
    rw [hgates]
    split
    · rfl
    · exact t.prepare_executing hidle room

/-- A user's plan finds its gate open, whatever the gate was before. -/
theorem turn_userInput {fmt : T → String} {speakingTime : Nat → Option T} {x : FlowExecutor T}
    (h : x.Released) (t : Turn T) (hu : t.plan.reason = .userInput) :
    (x.turn fmt speakingTime t).ran = true := by
  obtain ⟨m, hx, _⟩ := h
  rcases turn_cases fmt speakingTime hx t with ⟨_, hshut, _⟩ | ⟨hran, _⟩
  · rw [t.room_prepare, if_pos ⟨hu, rfl⟩] at hshut
    have hopen : (RoomGate.fresh : RoomGate T).isOnCooldown t.acquiredAt = false :=
      decide_eq_false (not_lt.mpr t.started)
    rw [hopen] at hshut
    rcases hshut with h | h <;> cases h
  · exact hran

/-! ## Everything that touches the inhibition layer -/

/-- The worker takes a plan; another thread evaluates one, or asks for a suppression. -/
inductive Act (T : Type) [Clock T] where
  | turn (t : Turn T)
  | evaluate (plan : Plan) (now gateNow : T)
  | suppression (call : SuppressionCall T)

def act (fmt : T → String) (speakingTime : Nat → Option T) (x : FlowExecutor T) :
    Act T → FlowExecutor T
  | .turn t => (x.turn fmt speakingTime t).executor
  | .evaluate plan now gateNow =>
    { x with inhibition := x.inhibition.map fun m =>
        { m with gate := (m.striatum.evaluate m.gate now gateNow plan).2 } }
  | .suppression call =>
    { x with inhibition := x.inhibition.map fun m => { m with striatum := m.striatum.apply call } }

theorem Released.act {fmt : T → String} {speakingTime : Nat → Option T} {x : FlowExecutor T}
    (h : x.Released) (a : Act T) : (x.act fmt speakingTime a).Released := by
  cases a with
  | turn t => exact h.turn t
  | evaluate plan now gateNow =>
    obtain ⟨m, hx, hidle⟩ := h
    refine ⟨_, by rw [FlowExecutor.act, hx]; rfl, fun room => ?_⟩
    show ((m.striatum.evaluate m.gate now gateNow plan).2.room room).executing = false
    rw [Striatum.room_evaluate]
    exact hidle room
  | suppression call =>
    obtain ⟨m, hx, hidle⟩ := h
    exact ⟨{ m with striatum := m.striatum.apply call }, by rw [FlowExecutor.act, hx]; rfl, hidle⟩

/-- An executor with an inhibition manager that nobody has used yet. -/
def fresh (config : InhibitionConfig T) (striatum : Striatum T) : FlowExecutor T where
  inhibition := some ⟨config, .fresh, striatum⟩

theorem fresh_released (config : InhibitionConfig T) (striatum : Striatum T) :
    (fresh config striatum).Released := by
  refine ⟨_, rfl, fun room => ?_⟩
  show (Gate.fresh.room room).executing = false
  unfold Gate.room
  split <;> rfl

/-- Whatever the executor has been through and however the graph ends: a plan runs only after its
room's gate was open and granted it; afterwards no gate executes; a refused plan runs nothing and
leaves every gate and the messages alone; and a user's plan is never refused. -/
theorem turn_gates (fmt : T → String) (speakingTime : Nat → Option T)
    (config : InhibitionConfig T) (striatum : Striatum T) (acts : List (Act T)) (t : Turn T) :
    let x := Machine.run (act fmt speakingTime) (fresh config striatum) acts
    let r := x.turn fmt speakingTime t
    ∃ m m', x.inhibition = some m ∧ r.executor.inhibition = some m' ∧
      (r.ran = true →
        ((t.prepare m).acquireExecution fmt t.plan.roomId t.acquiredAt).1.allow = true ∧
          ((t.prepare m).gate.room t.plan.roomId).executing = false ∧
          ((t.prepare m).gate.room t.plan.roomId).isOnCooldown t.acquiredAt = false) ∧
      (∀ room, (m'.gate.room room).executing = false) ∧
      (r.ran = false → r.effects = [] ∧ r.executor.messages = x.messages ∧
        ∀ room, m'.gate.room room = m.gate.room room) ∧
      (t.plan.reason = .userInput → r.ran = true) := by
  intro x r
  have hreleased : x.Released :=
    Machine.run_inv Released (fun _ a h => h.act a) (fresh_released config striatum) acts
  have huser : t.plan.reason = .userInput → r.ran = true := turn_userInput hreleased t
  obtain ⟨m', hm', hidle⟩ : r.executor.Released := hreleased.turn t
  obtain ⟨m, hx, _⟩ := hreleased
  refine ⟨m, m', hx, hm', ?_, hidle, ?_, huser⟩
  · intro hran
    rcases turn_cases fmt speakingTime hx t with ⟨hno, _⟩ | ⟨_, he, hc, _⟩
    · exact absurd (hran.symm.trans hno) Bool.noConfusion
    · refine ⟨?_, he, hc⟩
      show ((t.prepare m).gate.acquire fmt t.plan.roomId t.acquiredAt).1.allow = true
      rw [Gate.acquire_fst]
      rcases RoomGate.acquire_cases fmt ((t.prepare m).gate.room t.plan.roomId) t.acquiredAt with
        ⟨_, hshut, _⟩ | ⟨hallow, _⟩
      · rw [he, hc] at hshut
        rcases hshut with h | h <;> cases h
      · exact hallow
  · intro hno
    rcases turn_cases fmt speakingTime hx t with
      ⟨_, _, heffects, hmessages, m'', hm'', hgates⟩ | ⟨hran, _⟩
    · refine ⟨heffects, hmessages, fun room => ?_⟩
      have heq : m' = m'' := Option.some.inj (hm'.symm.trans hm'')
      rw [heq, hgates, t.room_prepare, if_neg]
      intro hu
      exact absurd (hno.symm.trans (huser hu.1)) Bool.noConfusion
    · exact absurd (hran.symm.trans hno) Bool.noConfusion

end FlowExecutor

end IrisMind.Execution
