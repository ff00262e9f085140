import IrisMind.Lib.Text

/-! # Events on the event bus -/
namespace IrisMind.Events
open IrisMind.Lib

inductive StreamState where
  | thinking
  | speaking
  | done
  | interrupted
deriving DecidableEq, Repr

structure SpeakerIdentity where
  provider : String := ""
  subject : String := ""
  providerName : String := ""
  metadata : List (String × String) := []
deriving DecidableEq, Repr

structure MessageEvent where
  sessionId : String := ""
  sourceRole : String := ""
  targetRole : String := ""
  accountId : String := ""
  direction : String := ""
  msgType : String := ""
  content : String := ""
  state : Option StreamState := none
  correlationId : Option String := none
  roomId : String := ""
  speaker : Option SpeakerIdentity := none
deriving DecidableEq, Repr

structure InputReady where
  sessionId : String := ""
  content : String := ""
  accountId : String := ""
  roomId : String := ""
  context : List (String × Json) := []

structure RoomJoinedEvent where
  roomId : String
  accountId : String
  displayName : String
deriving DecidableEq, Repr

structure RoomLeftEvent where
  roomId : String
  accountId : String
  displayName : String
deriving DecidableEq, Repr

namespace StreamState

def value : StreamState → String
  | thinking => "thinking"
  | speaking => "speaking"
  | done => "done"
  | interrupted => "interrupted"

end StreamState

namespace MessageEvent

/-- The end of a stream, as a client sees it. -/
def isTerminating (e : MessageEvent) : Bool :=
  e.state = some .done || e.state = some .interrupted

/-- A stream that is under way. -/
def isOpening (e : MessageEvent) : Bool :=
  e.state = some .thinking || e.state = some .speaking

end MessageEvent

end IrisMind.Events
