import IrisMind.Execution.Messages
import IrisMind.Llm.Repetition

/-! # The LLM bridge

One call of a model. With a token callback the answer is streamed chunk by chunk
and the interrupt token is looked at after each chunk; without one the model is
invoked as a whole. The repetition detector cancels the same interrupt token an
outside interrupt cancels. -/
namespace IrisMind.Llm
open IrisMind.Execution

/-- A chunk of a streamed answer; `cancelled` is set when an interrupt comes in
while the stream waits for it. -/
structure Chunk where
  content : Content
  toolCalls : List ToolCall := []
  cancelled : Bool := false

/-- What the model and the outside do during one call: `promptRaises` when the
system prompt cannot be built, `raises` when the provider raises once its chunks
are out, `cancelledAfter` when an interrupt comes in at the very end. `message`
is the answer to an invocation without streaming. -/
structure Reply where
  promptRaises : Bool := false
  chunks : List Chunk := []
  message : AIMessage := { content := .text "" }
  raises : Bool := false
  cancelledAfter : Bool := false

structure StreamRun where
  accumulated : String := ""
  tokens : List String := []
  received : List Chunk := []
  cancelled : Bool

def wrappedOnToken (run : StreamRun) (token : String) : StreamRun :=
  if run.cancelled then run
  else
    let accumulated := run.accumulated ++ token
    if Repetition.detect accumulated then { run with accumulated, cancelled := true }
    else { run with accumulated, tokens := run.tokens ++ [token] }

def receive (run : StreamRun) (c : Chunk) : StreamRun :=
  let run := { run with received := run.received ++ [c], cancelled := run.cancelled || c.cancelled }
  match c.content with
  | .text t => if t = "" then run else wrappedOnToken run t
  | .blocks _ => run

/-- The stream loop, which breaks off after the chunk that finds the token cancelled. -/
def streamLoop : StreamRun → List Chunk → StreamRun
  | run, [] => run
  | run, c :: rest =>
    let run := receive run c
    if run.cancelled then run else streamLoop run rest

/-- What a call comes to; no message when it raised. -/
structure ChatResult where
  message : Option AIMessage
  tokens : List String
  cancelled : Bool

/-- `_handle_response_content`. -/
def handleResponseContent (m : AIMessage) : Option AIMessage :=
  m.content.extract.map fun content =>
    if content ≠ "" && Repetition.detect content then
      { content := .text (Repetition.trim content), toolCalls := m.toolCalls }
    else m

/-- `LLMBridge.chat`. How chunks add up to a message is the chat library's matter: `merge`. -/
def chat (merge : List Chunk → AIMessage) (streaming cancelled : Bool) (reply : Reply) :
    ChatResult :=
  if streaming then
    let run := streamLoop { cancelled } reply.chunks
    let brokeOff := run.cancelled && !reply.chunks.isEmpty
    let merged := if run.received.isEmpty then { content := .text "" } else merge run.received
    { message := if reply.raises && !brokeOff then none else handleResponseContent merged
      tokens := run.tokens
      cancelled := run.cancelled || reply.cancelledAfter }
  else
    { message := if reply.raises then none else handleResponseContent reply.message
      tokens := []
      cancelled := cancelled || reply.cancelledAfter }

theorem chat_tokens_of_not_streaming {merge : List Chunk → AIMessage} {cancelled : Bool}
    {reply : Reply} : (chat merge false cancelled reply).tokens = [] := rfl

end IrisMind.Llm
