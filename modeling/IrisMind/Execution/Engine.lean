import IrisMind.Execution.Effects

/-! # The tool engine and the tool node

`runToolCalls` runs the calls of the last message in order and appends one tool
message for each tool without side effect. A tool that raises ends the whole
run; what ran before it stays. -/
namespace IrisMind.Execution
open IrisMind.Lib IrisMind.Tools

structure ToolResult where
  name : String
  result : String
  isSide : Bool

structure EngineRun where
  messages : List Msg
  results : List ToolResult := []
  effects : List Effect := []
  raised : Bool := false

/-- The loop of `run_tool_calls`; `outcome` says what the tool of each position does. -/
def runCalls (r : ToolRegistry) (outcome : Nat → ToolOutcome) :
    Nat → List ToolCall → EngineRun → EngineRun
  | _, [], run => run
  | i, tc :: rest, run =>
    let isSide := r.isSideEffect tc.name
    match r.execute tc.name tc.args (outcome i) with
    | .rejected => { run with raised := true }
    | .failed => { run with effects := run.effects ++ [.execute tc none], raised := true }
    | .returned text =>
      let effects := run.effects ++ [.execute tc (some text)]
      let results := run.results ++ [⟨tc.name, text, isSide⟩]
      if isSide then runCalls r outcome (i + 1) rest { run with effects, results }
      else match tc.id with
        -- a tool message without a call id fails its validation
        | none => { run with effects, raised := true }
        | some id =>
          let messages := run.messages ++ [.tool tc.name text id]
          runCalls r outcome (i + 1) rest { run with messages, effects, results }

def runToolCalls (r : ToolRegistry) (outcome : Nat → ToolOutcome) (ctx : List Msg) : EngineRun :=
  match ctx.getLast? with
  | none => { messages := ctx, raised := true }
  | some (.ai m) => runCalls r outcome 0 m.toolCalls { messages := ctx }
  | some _ => { messages := ctx }

def maxToolOutputLength : Nat := 200

def truncateToolOutput : Msg → Msg
  | .tool name content id =>
    if maxToolOutputLength < content.toList.length then
      .tool name (Text.takeChars content maxToolOutputLength ++ "...") id
    else .tool name content id
  | m => m

def truncateToolOutputs (messages : List Msg) : List Msg := messages.map truncateToolOutput

/-- `ToolRunNode._check_iterations`. -/
def checkIterations (results : List ToolResult) (toolIterations : Nat) : Nat :=
  if !results.isEmpty && results.all (·.isSide) then 99 else toolIterations + 1

/-! ## One call, and a list of calls up to the first that stops the engine -/

/-- The engine gets past the call: nothing raises, and the answer can be appended. -/
def completes (r : ToolRegistry) (tc : ToolCall) (o : ToolOutcome) : Bool :=
  match r.execute tc.name tc.args o with
  | .returned _ => r.isSideEffect tc.name || tc.id.isSome
  | _ => false

def callLog (r : ToolRegistry) (tc : ToolCall) (o : ToolOutcome) : List Effect :=
  match r.execute tc.name tc.args o with
  | .rejected => []
  | .failed => [.execute tc none]
  | .returned text => [.execute tc (some text)]

def callAnswer (r : ToolRegistry) (tc : ToolCall) (o : ToolOutcome) : List Msg :=
  match r.execute tc.name tc.args o, tc.id with
  | .returned text, some id => if r.isSideEffect tc.name then [] else [.tool tc.name text id]
  | _, _ => []

def callResult (r : ToolRegistry) (tc : ToolCall) (o : ToolOutcome) : List ToolResult :=
  match r.execute tc.name tc.args o with
  | .returned text => [⟨tc.name, text, r.isSideEffect tc.name⟩]
  | _ => []

variable {α : Type} (r : ToolRegistry) (outcome : Nat → ToolOutcome)

def allComplete : Nat → List ToolCall → Bool
  | _, [] => true
  | i, tc :: rest => completes r tc (outcome i) && allComplete (i + 1) rest

/-- What `f` says about each call the engine reaches. -/
def reached (f : ToolCall → ToolOutcome → List α) : Nat → List ToolCall → List α
  | _, [] => []
  | i, tc :: rest => f tc (outcome i) ++
      if completes r tc (outcome i) then reached f (i + 1) rest else []

/-- The loop accumulates, call by call, what each reached call contributes, and
raises exactly when some call does not complete. -/
theorem runCalls_eq (i : Nat) (calls : List ToolCall) (run : EngineRun)
    (hr : run.raised = false) :
    (runCalls r outcome i calls run).messages =
        run.messages ++ reached r outcome (callAnswer r) i calls ∧
      (runCalls r outcome i calls run).effects =
        run.effects ++ reached r outcome (callLog r) i calls ∧
      (runCalls r outcome i calls run).raised = !allComplete r outcome i calls ∧
      (allComplete r outcome i calls = true → (runCalls r outcome i calls run).results =
        run.results ++ reached r outcome (callResult r) i calls) := by
  induction calls generalizing i run with
  | nil => simp [runCalls, reached, allComplete, hr]
  | cons tc rest ih =>
    cases he : r.execute tc.name tc.args (outcome i) with
    | rejected =>
      simp [runCalls, reached, allComplete, completes, callAnswer, callLog, he]
    | failed =>
      simp [runCalls, reached, allComplete, completes, callAnswer, callLog, he]
    | returned text =>
      by_cases hs : r.isSideEffect tc.name = true
      · have h := ih (i + 1)
          { run with
            effects := run.effects ++ [.execute tc (some text)]
            results := run.results ++ [⟨tc.name, text, r.isSideEffect tc.name⟩] } hr
        cases hid : tc.id <;>
          simpa [runCalls, reached, allComplete, completes, callAnswer, callLog, callResult, he,
            hs, hid] using h
      · have hs : r.isSideEffect tc.name = false := by simpa using hs
        cases hid : tc.id with
        | none =>
          simp [runCalls, reached, allComplete, completes, callAnswer, callLog, he, hs, hid]
        | some id =>
          have h := ih (i + 1)
            { run with
              messages := run.messages ++ [.tool tc.name text id]
              effects := run.effects ++ [.execute tc (some text)]
              results := run.results ++ [⟨tc.name, text, r.isSideEffect tc.name⟩] } hr
          simpa [runCalls, reached, allComplete, completes, callAnswer, callLog, callResult, he,
            hs, hid] using h

end IrisMind.Execution
