import IrisMind.Execution.Requests
import IrisMind.Inhibition.Manager

/-! # The flow executor

One worker takes the plans of all rooms, one after the other, and runs the graph
on them. There is one list of messages: a run is given the list as the runs
before it left it, whatever rooms these were for, and leaves its own messages
behind. -/
namespace IrisMind.Execution
open IrisMind.Lib IrisMind.Planning IrisMind.Inhibition

variable {T : Type} [Clock T]

/-- What the executor is built with. `speakingTime` is how long a text of so many characters
takes to say. -/
structure ExecutorEnv (T : Type) where
  graph : Env
  fmt : T → String
  speakingTime : Nat → T

structure FlowExecutor (T : Type) where
  inhibition : Option (InhibitionManager T)
  messages : List Msg := []

/-- A plan, what the outside does while the graph runs on it, and the text of the exception
should one come out of the graph. -/
structure Ask where
  plan : Plan
  inputs : List Input
  error : String := ""

/-- An ask, and the readings of the clock while it is processed. -/
structure Job (T : Type) where
  ask : Ask
  acquiredAt : T
  releasedAt : T
  suppressedAt : T

def Job.plan (job : Job T) : Plan := job.ask.plan

/-- A run not at its end when its inputs are used up is ended by the graph library, which raises
at its recursion limit. -/
def Ask.padded (ask : Ask) : List Input := ask.inputs ++ [{ aborts := true }]

def errorMessage (error : String) : Msg := .system ("[Execution Error: " ++ error ++ "]")

/-- The text of the answers that are plain strings. -/
def newAiContent (messages : List Msg) : String :=
  String.join (messages.filterMap fun
    | .ai m => some m.content.plain
    | _ => none)

namespace FlowExecutor

/-- The gate's word on a job; a user's plan breaks the hold of its room first. -/
def acquireGate (env : ExecutorEnv T) (x : FlowExecutor T) (job : Job T) :
    Bool × Option (InhibitionManager T) :=
  match x.inhibition with
  | none => (true, none)
  | some inhibition =>
    let inhibition :=
      if job.plan.reason = .userInput then inhibition.forceReleaseExecution job.plan.roomId
      else inhibition
    let (decision, inhibition) :=
      inhibition.acquireExecution env.fmt job.plan.roomId job.acquiredAt
    (decision.allow, some inhibition)

def graphRun (env : ExecutorEnv T) (x : FlowExecutor T) (ask : Ask) : Config :=
  reach env.graph ask.plan x.messages ask.padded

/-- The list of messages once the graph has returned or raised. -/
def messagesAfter (env : ExecutorEnv T) (x : FlowExecutor T) (ask : Ask) : List Msg :=
  let c := x.graphRun env ask
  if c.pc = .raised then c.state.messages ++ [errorMessage ask.error] else c.state.messages

/-- `FlowExecutor.process`. -/
def process (env : ExecutorEnv T) (x : FlowExecutor T) (job : Job T) : FlowExecutor T :=
  let (granted, inhibition) := x.acquireGate env job
  if !granted then { x with inhibition }
  else
    let messages := x.messagesAfter env job.ask
    let text := newAiContent (messages.drop x.messages.length)
    { inhibition := inhibition.map fun m =>
        let m := m.releaseExecution job.plan.roomId job.releasedAt
        if text = "" then m
        else m.suppress job.suppressedAt "speaking" (env.speakingTime text.length)
          (some job.plan.roomId) none
      messages }

def granted (env : ExecutorEnv T) (x : FlowExecutor T) (job : Job T) : Bool :=
  (x.acquireGate env job).1

/-- The message lists passed to the model while a job is processed. -/
def requests (env : ExecutorEnv T) (x : FlowExecutor T) (job : Job T) : List (List Msg) :=
  if x.granted env job then requestsOf (x.graphRun env job.ask).log else []

/-! ## What a job does to the messages -/

theorem process_messages (env : ExecutorEnv T) (x : FlowExecutor T) (job : Job T) :
    (x.process env job).messages =
      if x.granted env job then x.messagesAfter env job.ask else x.messages := by
  unfold process granted
  cases x.acquireGate env job with
  | mk granted inhibition => cases granted <;> rfl

/-- The list only grows. -/
theorem process_length (env : ExecutorEnv T) (x : FlowExecutor T) (job : Job T) :
    x.messages.length ≤ (x.process env job).messages.length := by
  have hreach := reach_messages_length env.graph job.ask.plan x.messages job.ask.padded
  rw [process_messages]
  split
  · unfold messagesAfter graphRun
    dsimp only
    split
    · rw [List.length_append]
      omega
    · exact hreach
  · exact Nat.le_refl _

omit [Clock T] in
/-- A graph whose inputs are used up is at its end. -/
theorem graphRun_isEnd (env : ExecutorEnv T) (x : FlowExecutor T) (ask : Ask) :
    (x.graphRun env ask).pc.isEnd = true := by
  unfold graphRun reach Ask.padded
  rw [Machine.run_append, Machine.run_cons, Machine.run_nil]
  cases h : (Machine.run (step env.graph) (.start ask.plan x.messages) ask.inputs).pc.isEnd with
  | true => rw [step_of_isEnd h]; exact h
  | false => rw [step_of_aborts h rfl]; rfl

/-! ## What a job asks the model -/

/-- The messages the executor holds as a job begins that will get to the model. -/
def start? (env : ExecutorEnv T) (x : FlowExecutor T) (job : Job T) : Option (List Msg) :=
  if x.granted env job && callsModel job.ask.plan job.ask.padded then some x.messages else none

theorem start?_eq_some_iff {env : ExecutorEnv T} {x : FlowExecutor T} {job : Job T}
    {messages : List Msg} : x.start? env job = some messages ↔
      x.granted env job = true ∧ callsModel job.ask.plan job.ask.padded = true ∧
        x.messages = messages := by
  unfold start?
  by_cases h : (x.granted env job && callsModel job.ask.plan job.ask.padded) = true
  · rw [if_pos h, Option.some.injEq]
    obtain ⟨hgranted, hcalls⟩ := Bool.and_eq_true_iff.mp h
    exact ⟨fun hm => ⟨hgranted, hcalls, hm⟩, fun hm => hm.2.2⟩
  · rw [if_neg h]
    exact ⟨nofun, fun hm => absurd (Bool.and_eq_true_iff.mpr ⟨hm.1, hm.2.1⟩) h⟩

theorem setupMessages_inj {env : Env} {plan : Plan} {a b : List Msg}
    (h : setupMessages env plan a = setupMessages env plan b) : a = b := by
  unfold setupMessages at h
  split at h
  · exact h
  · exact List.append_cancel_right h

theorem requests_of_start {env : ExecutorEnv T} {x : FlowExecutor T} {job : Job T}
    {messages : List Msg} (h : x.start? env job = some messages) :
    ∃ rest, x.requests env job = setupMessages env.graph job.ask.plan messages :: rest := by
  obtain ⟨hgranted, hcalls, rfl⟩ := start?_eq_some_iff.mp h
  rw [requests, if_pos hgranted]
  exact requests_of_callsModel env.graph x.messages hcalls

theorem requests_of_no_start {env : ExecutorEnv T} {x : FlowExecutor T} {job : Job T}
    (h : x.start? env job = none) : x.requests env job = [] := by
  rw [requests]
  split
  · next hgranted =>
    have hcalls : callsModel job.ask.plan job.ask.padded = false := by
      by_contra hc
      have hsome := start?_eq_some_iff.mpr ⟨hgranted, Bool.eq_true_of_not_eq_false hc, rfl⟩
      rw [h] at hsome
      cases hsome
    exact requests_of_not_callsModel env.graph x.messages hcalls
  · rfl

theorem requests_eq_nil_iff {env : ExecutorEnv T} {x : FlowExecutor T} {job : Job T} :
    x.requests env job = [] ↔ x.start? env job = none := by
  cases h : x.start? env job with
  | none => exact iff_of_true (requests_of_no_start h) rfl
  | some messages =>
    obtain ⟨rest, hrest⟩ := requests_of_start h
    rw [hrest]
    exact iff_of_false (List.cons_ne_nil _ _) nofun

/-- Two executors put the same requests for one ask exactly when it begins alike in both. -/
theorem requests_eq_iff {env : ExecutorEnv T} {x y : FlowExecutor T} {j k : Job T}
    (h : j.ask = k.ask) :
    x.requests env j = y.requests env k ↔ x.start? env j = y.start? env k := by
  cases hx : x.start? env j with
  | none => rw [requests_of_no_start hx, eq_comm, requests_eq_nil_iff, eq_comm]
  | some a =>
    obtain ⟨rest, hrest⟩ := requests_of_start hx
    cases hy : y.start? env k with
    | none =>
      rw [requests_of_no_start hy, hrest]
      exact iff_of_false (List.cons_ne_nil _ _) nofun
    | some b =>
      obtain ⟨rest', hrest'⟩ := requests_of_start hy
      obtain ⟨hgx, _, hmx⟩ := start?_eq_some_iff.mp hx
      obtain ⟨hgy, _, hmy⟩ := start?_eq_some_iff.mp hy
      constructor
      · intro heq
        rw [hrest, hrest', h] at heq
        rw [setupMessages_inj (List.cons.inj heq).1]
      · intro heq
        have hmsgs : x.messages = y.messages := by rw [hmx, hmy, Option.some.inj heq]
        rw [requests, requests, if_pos hgx, if_pos hgy, graphRun, graphRun, hmsgs, h]

end FlowExecutor

end IrisMind.Execution
