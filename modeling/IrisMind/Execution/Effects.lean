import IrisMind.Events
import IrisMind.Execution.Routing

/-! # What a run of the graph does to the outside

Effects are logged in the order they happen. An `execute` entry carries what the
tool returned, and nothing when the tool raised. -/
namespace IrisMind.Execution
open IrisMind.Lib IrisMind.Tools IrisMind.Planning IrisMind.Events

structure ChatParams where
  modelRole : String
  maxTokens : Option Nat
  priority : Json
  showThinking : Bool

inductive Effect where
  | request (messages : List Msg) (tools : List ToolSchema) (params : ChatParams)
  | publish (event : MessageEvent)
  | addTurn (role text accountId roomId : String)
  | execute (call : ToolCall) (result : Option String)

namespace Effect

def event? : Effect → Option MessageEvent
  | publish e => some e
  | _ => none

def execution? : Effect → Option (ToolCall × Option String)
  | execute call result => some (call, result)
  | _ => none

def request? : Effect → Option (List Msg)
  | request messages _ _ => some messages
  | _ => none

end Effect

/-- The stream event of a plan: it goes to the plan's session and room. -/
def streamEvent (plan : Plan) (state : StreamState) (content : String) : MessageEvent where
  sessionId := plan.sessionId
  direction := "stream"
  msgType := "chat"
  content := content
  state := some state
  roomId := plan.roomId

end IrisMind.Execution
