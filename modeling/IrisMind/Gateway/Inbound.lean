import IrisMind.Inhibition.Striatum
import IrisMind.Sessions.Control

/-! # Messages from clients

The gateway checks a message, resolves the account of its speaker, and publishes
it as input. What it publishes is an `InputReady`; the handlers for message
events, the one that lets the speaker join the room among them, never see it. -/
namespace IrisMind.Gateway
open IrisMind.Lib IrisMind.Accounts IrisMind.Events IrisMind.Inhibition IrisMind.Rooms
  IrisMind.Sessions

/-- What a message of a client can reach. -/
structure Hub where
  accounts : AccountStore := {}
  rooms : RoomStore := {}
  sessions : SessionTable := .empty

inductive BusEvent (T : Type) where
  | inputReady (event : InputReady)
  | inhibitionRequest (event : InhibitionRequestEvent T)
  | account (event : AccountEvent)
  | control (event : ControlMessageEvent)

/-- What handling something leaves, what it publishes on the event bus, and what goes out. -/
structure HubRun (T : Type) where
  hub : Hub
  events : List (BusEvent T) := []
  sent : List (String × Message) := []

variable {T : Type} [Clock T]

/-- `_send_error`: a response to the session the message came from. -/
def sendError (hub : Hub) (orig : Message) (text : String) : HubRun T :=
  let targetRole := match hub.sessions.get? orig.sessionId with
    | some s => s.role
    | none => "*"
  let run := Router.routeMessage hub.sessions
    { msgType := "response", content := text, sessionId := orig.sessionId, sourceRole := "mind"
      targetRole, direction := .response, accountId := orig.accountId
      metadata := [("error", .str "true")] }
  { hub := { hub with sessions := run.sessions }, sent := run.sent }

/-- `_publish_inhibition_request`; `float?` reads a number. -/
def inhibitionRequest? (float? : String → Option T) (msg : Message) :
    Option (InhibitionRequestEvent T) :=
  match msg.content.splitOn ":" with
  | reason :: action :: rest =>
    match rest with
    | [] => some
      { action, reason, duration := 0, roomId := msg.roomId, sessionId := msg.sessionId }
    | duration :: _ => (float? duration).map fun duration =>
      { action, reason, duration, roomId := msg.roomId, sessionId := msg.sessionId }
  | _ => none

/-- The account the gateway takes a message to come from; an identity without a provider raises,
and leaves the message without an account. -/
def resolveSpeaker (hub : Hub) (drawn : Drawn) (msg : Message) : AccountRun String :=
  let unknown : AccountRun String := { value := msg.accountId, store := hub.accounts }
  if msg.accountId ≠ "" then unknown
  else match msg.speaker with
    | none => unknown
    | some speaker => match Provider.ofValue? speaker.provider with
      | none => unknown
      | some provider =>
        let run := AccountManager.resolveOrCreateIdentity hub.accounts drawn provider
          speaker.subject speaker.providerName
          (speaker.metadata.map fun e => (e.1, .str e.2))
        { value := run.value.accountId, store := run.store, events := run.events }

def speakerContext (speaker : TransportIdentity) : Json :=
  .obj [("provider", .str speaker.provider), ("subject", .str speaker.subject),
    ("provider_name", .str speaker.providerName),
    ("metadata", .obj (speaker.metadata.map fun e => (e.1, .str e.2)))]

def inputReady (msg : Message) (speaker : TransportIdentity) (accountId : String) :
    InputReady where
  sessionId := msg.sessionId
  content := msg.content
  accountId := accountId
  roomId := msg.roomId
  context := [("source_role", .str msg.sourceRole), ("target_role", .str msg.targetRole),
    ("msg_type", .str msg.msgType), ("speaker", speakerContext speaker),
    ("room_id", .str msg.roomId)]

/-- `_IOGateway.on_grpc_message`. -/
def onGrpcMessage (float? : String → Option T) (hub : Hub) (drawn : Drawn) (msg : Message) :
    HubRun T :=
  if msg.direction ≠ .request then
    sendError hub msg
      ("unexpected direction from client: " ++ msg.direction.name ++ ". use 'request'")
  else if msg.targetRole ≠ "mind" then
    let run := Router.routeMessage hub.sessions msg
    { hub := { hub with sessions := run.sessions }, sent := run.sent }
  else match msg.speaker with
    | none => sendError hub msg "speaker is required for inbound messages"
    | some speaker =>
      if msg.msgType = "inhibition" then
        { hub, events := (inhibitionRequest? float? msg).toList.map .inhibitionRequest }
      else if msg.msgType = "chat" && msg.content = "" then
        sendError hub msg "content is required for chat messages"
      else if msg.roomId = "" then sendError hub msg "room_id is required"
      else
        let resolved := resolveSpeaker hub drawn msg
        let hub := { hub with accounts := resolved.store }
        let accountEvents := resolved.events.map BusEvent.account
        match hub.rooms.findRoomById msg.roomId with
        | none =>
          let run : HubRun T := sendError hub msg ("room not found: " ++ msg.roomId)
          { run with events := accountEvents ++ run.events }
        | some _ =>
          { hub, events := accountEvents ++ [.inputReady (inputReady msg speaker resolved.value)] }

/-! ## Handlers for message events -/

/-- `_RoomEventHandler._resolve_account`. -/
def resolveAccount (accounts : AccountStore) (drawn : Drawn) (event : MessageEvent) :
    AccountRun String :=
  match event.speaker with
  | none => { value := "", store := accounts }
  | some speaker =>
    if speaker.provider = "" || speaker.subject = "" then { value := "", store := accounts }
    else match Provider.ofValue? speaker.provider with
      | none => { value := "", store := accounts }
      | some provider =>
        let run := AccountManager.resolveOrCreateIdentity accounts drawn provider speaker.subject
          speaker.providerName (speaker.metadata.map fun e => (e.1, .str e.2))
        { value := run.value.accountId, store := run.store, events := run.events }

/-- `_RoomEventHandler._on_message_event`: who speaks in a room joins it. -/
def roomOnMessageEvent (hub : Hub) (drawn : Drawn) (event : MessageEvent) : Hub :=
  if event.direction ∉ ["request", "event"] then hub
  else if event.msgType ∉ ["chat", "system"] then hub
  else if event.roomId = "" then hub
  else
    let resolved : AccountRun String :=
      if event.accountId ≠ "" then { value := event.accountId, store := hub.accounts }
      else resolveAccount hub.accounts drawn event
    let hub := { hub with accounts := resolved.store }
    if resolved.value = "" then hub
    else
      let run := RoomManager.joinRoom (AccountManager.resolveDisplayName hub.accounts) drawn.now
        hub.rooms event.roomId resolved.value event.sessionId
      { hub with rooms := run.store }

/-- `_IOEventHandler._on_message_event`: responses and streams go out. -/
def ioOnMessageEvent (hub : Hub) (event : MessageEvent) : RouteRun :=
  let route (direction : Direction) : RouteRun :=
    let targetRole := match hub.sessions.get? event.sessionId with
      | some s => s.role
      | none => if event.sourceRole = "" then "*" else event.sourceRole
    let msg : Message :=
      { msgType := event.msgType, content := event.content
        state := event.state.map StreamState.value, correlationId := event.correlationId
        sourceRole := "mind", targetRole, sessionId := event.sessionId
        accountId := event.accountId, direction, roomId := event.roomId
        metadata := if event.roomId = "" then [] else [("room_id", .str event.roomId)] }
    if event.roomId = "" then Router.routeMessage hub.sessions msg
    else Router.routeToRoom hub.sessions hub.rooms msg event.roomId
  if event.direction ∈ ["", "response"] then route .response
  else if event.direction = "stream" then route .stream
  else { sessions := hub.sessions }

/-- A message event reaches the room handler and the transport handler. -/
def onMessageEvent (drawn : Drawn) (hub : Hub) (event : MessageEvent) : Hub :=
  let hub := roomOnMessageEvent hub drawn event
  { hub with sessions := (ioOnMessageEvent hub event).sessions }

/-! ## Rooms stay as they are -/

/-- No message a client sends changes a membership in the gateway. -/
theorem onGrpcMessage_rooms (float? : String → Option T) (hub : Hub) (drawn : Drawn)
    (msg : Message) : (onGrpcMessage float? hub drawn msg).hub.rooms = hub.rooms := by
  unfold onGrpcMessage
  split
  · rfl
  split
  · rfl
  cases msg.speaker with
  | none => rfl
  | some speaker =>
    dsimp only
    split
    · rfl
    split
    · rfl
    split
    · rfl
    cases hub.rooms.findRoomById msg.roomId <;> rfl

theorem onMessageEvent_rooms_of_stream {hub : Hub} {drawn : Drawn} {event : MessageEvent}
    (h : event.direction = "stream") : (onMessageEvent drawn hub event).rooms = hub.rooms := by
  have hnot : event.direction ∉ ["request", "event"] := by rw [h]; decide
  simp only [onMessageEvent, roomOnMessageEvent, if_pos hnot]

end IrisMind.Gateway
