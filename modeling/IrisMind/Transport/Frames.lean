import IrisMind.Lib.Wire
import IrisMind.Sessions.Control

/-! # Frames on the stream

A client sends frames and gets frames. A message frame is read into a `Message`;
what a session is sent is queued as JSON text, and the send loop makes a frame of
it again: which kind, it tells by the keys of the object. Numbers of enumerations
are open, a map has each key once. -/
namespace IrisMind.Transport
open IrisMind.Lib IrisMind.Accounts IrisMind.Sessions

structure IdentityFrame where
  provider : String := ""
  subject : String := ""
  providerName : String := ""
  metadata : Dict String String := .empty

structure MessageFrame where
  id : String := ""
  correlationId : String := ""
  sessionId : String := ""
  sourceRole : String := ""
  targetRole : String := ""
  direction : Int := 0
  msgType : String := ""
  content : String := ""
  contentType : String := ""
  state : Int := 0
  metadata : Dict String String := .empty
  speaker : Option IdentityFrame := none
  roomId : String := ""
  accountId : String := ""

structure CommandInputFrame where
  id : String := ""
  content : String := ""

structure CommandOutputFrame where
  id : String := ""
  correlationId : String := ""
  sessionId : String := ""
  msgType : String := ""
  content : String := ""
  state : String := ""

structure ControlFrame where
  action : String := ""
  displayName : String := ""
  text : String := ""
  accountId : String := ""
  identity : Option IdentityFrame := none
  profile : Dict String String := .empty
  roomId : String := ""
  metadata : Dict String String := .empty

/-- A frame may come with none of its kinds set. -/
inductive ClientFrame where
  | message (frame : MessageFrame)
  | command (frame : CommandInputFrame)
  | control (frame : ControlFrame)
  | unset

inductive ServerFrame where
  | message (frame : MessageFrame)
  | command (frame : CommandOutputFrame)
  | control (frame : ControlFrame)

/-! ## Reading -/

/-- `_DIRECTION_MAP`. -/
def directionMap : List (String × Int) :=
  [("request", 1), ("response", 2), ("stream", 3), ("event", 4)]

/-- `_STREAM_STATE_MAP`. -/
def streamStateMap : List (String × Int) :=
  [("thinking", 1), ("speaking", 2), ("done", 3), ("interrupted", 4)]

def numberOf (table : List (String × Int)) (name : String) : Int :=
  ((table.find? (·.1 = name)).map Prod.snd).getD 0

def nameOf? (table : List (String × Int)) (number : Int) : Option String :=
  (table.find? (·.2 = number)).map Prod.fst

def parseDirection (number : Int) : String := (nameOf? directionMap number).getD ""

def parseStreamState (number : Int) : Option String := nameOf? streamStateMap number

/-- `Direction(…)` raises for what is not a direction. -/
def directionOf? (name : String) : Option Direction :=
  if name = "request" then some .request
  else if name = "response" then some .response
  else if name = "stream" then some .stream
  else if name = "event" then some .event
  else none

def parseMetadataValue (v : String) : Json :=
  if Text.lower v = "true" then .bool true
  else if Text.lower v = "false" then .bool false
  else .str v

def parseMessageMetadata (metadata : Dict String String) : List (String × Json) :=
  metadata.entries.map fun e => (e.1, parseMetadataValue e.2)

/-- An identity with an unknown provider raises; one with neither provider nor subject is none. -/
def parseIdentity (i : IdentityFrame) : Option (Option TransportIdentity) :=
  if i.provider = "" && i.subject = "" then some none
  else if h : i.provider = "" ∨ (Provider.ofValue? i.provider).isSome = true then
    some (some ⟨i.provider, i.subject, i.providerName, i.metadata.entries, h⟩)
  else none

/-- The first half of `_dispatch_message`: the session and its role are the transport's own, and a
frame that cannot be read is dropped. An identity that is not set reads as an empty one. -/
def parseMessage (sessionId sessionRole : String) (p : MessageFrame) : Option Message := do
  let speaker ← parseIdentity (p.speaker.getD {})
  let direction ← directionOf? (parseDirection p.direction)
  return {
    id := p.id
    correlationId := if p.correlationId = "" then none else some p.correlationId
    sessionId
    sourceRole := sessionRole
    targetRole := if p.targetRole = "" then "*" else p.targetRole
    accountId := p.accountId
    direction
    msgType := p.msgType
    content := p.content
    contentType := if p.contentType = "" then "text/plain" else p.contentType
    state := parseStreamState p.state
    metadata := parseMessageMetadata p.metadata
    speaker
    roomId := p.roomId }

theorem parseMessage_eq_some {sessionId sessionRole : String} {p : MessageFrame} {msg : Message}
    (h : parseMessage sessionId sessionRole p = some msg) :
    ∃ speaker direction, parseIdentity (p.speaker.getD {}) = some speaker ∧
      directionOf? (parseDirection p.direction) = some direction ∧
      msg =
        { id := p.id
          correlationId := if p.correlationId = "" then none else some p.correlationId
          sessionId, sourceRole := sessionRole
          targetRole := if p.targetRole = "" then "*" else p.targetRole
          accountId := p.accountId, direction, msgType := p.msgType, content := p.content
          contentType := if p.contentType = "" then "text/plain" else p.contentType
          state := parseStreamState p.state, metadata := parseMessageMetadata p.metadata
          speaker, roomId := p.roomId } := by
  unfold parseMessage at h
  obtain ⟨speaker, hspeaker, h⟩ := Option.bind_eq_some_iff.mp h
  obtain ⟨direction, hdirection, h⟩ := Option.bind_eq_some_iff.mp h
  exact ⟨speaker, direction, hspeaker, hdirection, (Option.some.inj h).symm⟩

def parseControl (p : ControlFrame) : Option ControlMessage := do
  let identity ← parseIdentity (p.identity.getD {})
  return {
    action := p.action
    accountId := p.accountId
    roomId := p.roomId
    displayName := p.displayName
    text := p.text
    identity
    profile := p.profile
    metadata := p.metadata }

/-! ## What is queued for a session -/

def dumpIdentity (i : TransportIdentity) : Json :=
  .obj [("provider", .str i.provider), ("subject", .str i.subject),
    ("provider_name", .str i.providerName), ("metadata", .ofTexts i.metadata)]

def dumpIdentity? : Option TransportIdentity → Json
  | some i => dumpIdentity i
  | none => .null

def dumpMessage (m : Message) : Json :=
  .obj [("id", .str m.id), ("correlation_id", .ofText? m.correlationId),
    ("session_id", .str m.sessionId), ("source_role", .str m.sourceRole),
    ("target_role", .str m.targetRole), ("account_id", .str m.accountId),
    ("direction", .str m.direction.value), ("msg_type", .str m.msgType),
    ("content", .str m.content), ("content_type", .str m.contentType),
    ("state", .ofText? m.state), ("metadata", .obj m.metadata),
    ("speaker", dumpIdentity? m.speaker), ("room_id", .str m.roomId)]

def dumpControl (c : ControlMessage) : Json :=
  .obj [("action", .str c.action), ("account_id", .str c.accountId), ("room_id", .str c.roomId),
    ("display_name", .str c.displayName), ("text", .str c.text),
    ("identity", dumpIdentity? c.identity), ("profile", .ofTexts c.profile.entries),
    ("metadata", .ofTexts c.metadata.entries)]

def dumpCommandOutput (c : CommandOutput) : Json :=
  .obj [("id", .str c.id), ("correlation_id", .ofText? c.correlationId),
    ("session_id", .str c.sessionId), ("msg_type", .str c.msgType), ("content", .str c.content),
    ("state", .ofText? c.state)]

/-! ## Building frames -/

/-- How a value prints; `other` is for what is neither a text nor a truth value. -/
def pyStr (other : Json → String) : Json → String
  | .str s => s
  | .bool true => "True"
  | .bool false => "False"
  | j => other j

/-- The entries of an object as a map of texts. -/
def buildMap (other : Json → String) : Option Json → Dict String String
  | some (.obj fields) => .ofList (fields.map fun f => (f.1, pyStr other f.2))
  | _ => .empty

def buildIdentityFrame (other : Json → String) (data : Json) : IdentityFrame where
  provider := data.textAt "provider"
  subject := data.textAt "subject"
  providerName := data.textAt "provider_name"
  metadata := buildMap other (data.field? "metadata")

/-- Only an object makes an identity. -/
def buildIdentity? (other : Json → String) : Option Json → Option IdentityFrame
  | some (.obj fields) => some (buildIdentityFrame other (.obj fields))
  | _ => none

def buildCommandFrame (data : Json) : CommandOutputFrame where
  id := data.textAt "id"
  correlationId := data.textAt "correlation_id"
  sessionId := data.textAt "session_id"
  msgType := data.textAt "msg_type"
  content := data.textAt "content"
  state := data.textAt "state"

def buildMessageFrame (other : Json → String) (data : Json) : MessageFrame where
  id := data.textAt "id"
  correlationId := data.textAt "correlation_id"
  sessionId := data.textAt "session_id"
  sourceRole := data.textAt "source_role"
  targetRole := data.textAt "target_role"
  direction := numberOf directionMap (data.textAt "direction")
  msgType := data.textAt "msg_type"
  content := data.textAt "content"
  contentType := data.textAt "content_type"
  state := numberOf streamStateMap (data.textAt "state")
  metadata := buildMap other (data.field? "metadata")
  speaker := buildIdentity? other (data.field? "speaker")
  roomId := data.textAt "room_id"
  accountId := data.textAt "account_id"

/-- `_set_control_frame`. -/
def setControlFrame (other : Json → String) (data : Json) : ControlFrame where
  action := data.textAt "action"
  displayName := data.textAt "display_name"
  text := data.textAt "text"
  accountId := data.textAt "account_id"
  identity := buildIdentity? other (data.field? "identity")
  profile := buildMap other (data.field? "profile")
  roomId := data.textAt "room_id"
  metadata := buildMap other (data.field? "metadata")

/-- The body of `_stream_send_loop`: a message has no action, and a control message no type. -/
def frameOf (other : Json → String) (data : Json) : ServerFrame :=
  if data.textAt "msg_type" = "command" then .command (buildCommandFrame data)
  else if data.textAt "action" ≠ "" then .control (setControlFrame other data)
  else .message (buildMessageFrame other data)

/-- The frame a session gets for what was queued. -/
def emit (wire : Wire) (other : Json → String) (queued : Json) : Option ServerFrame :=
  (wire.load (wire.dump queued)).map (frameOf other)

end IrisMind.Transport
