import IrisMind.Execution.Streams
import IrisMind.Gateway.Inbound

/-! # Replies to the sender

A client that speaks in a room is to receive the replies in that room. It does
when its account is a member of the room bound to its session, and nothing that
follows from a message makes it one. -/
namespace IrisMind.Gateway
open IrisMind.Lib IrisMind.Accounts IrisMind.Events IrisMind.Execution IrisMind.Inhibition
  IrisMind.Planning IrisMind.Rooms IrisMind.Sessions

variable {T : Type} [Clock T]

/-- What the agency makes of an input: a run of the execution graph on a plan. -/
structure Reaction where
  env : Env
  plan : Plan
  messages : List Msg
  inputs : List Input

def Reaction.events (r : Reaction) : List MessageEvent :=
  (reach r.env r.plan r.messages r.inputs).log.filterMap Effect.event?

/-- A message handled to its end: by the gateway, by the agency that reacts to the input, and by
the handlers of the events the agency publishes. -/
def handle (float? : String → Option T) (react : InputReady → List Reaction) (drawn : Drawn)
    (hub : Hub) (msg : Message) : Hub :=
  let run := onGrpcMessage float? hub drawn msg
  let inputs := run.events.filterMap fun
    | .inputReady event => some event
    | _ => none
  let events := (inputs.flatMap react).flatMap Reaction.events
  events.foldl (onMessageEvent drawn) run.hub

/-- A chat message from an active session to an active room, as the gateway accepts it. -/
structure AcceptedChat (hub : Hub) where
  msg : Message
  sender : SessionInfo
  speaker : TransportIdentity
  room : Room
  fromSession : hub.sessions.get? msg.sessionId = some sender ∧ sender.state = .active
  toMind : msg.direction = .request ∧ msg.targetRole = "mind"
  chat : msg.msgType = "chat" ∧ msg.content ≠ ""
  spoken : msg.speaker = some speaker ∧ (Provider.ofValue? speaker.provider).isSome = true ∧
    speaker.subject ≠ ""
  toRoom : msg.roomId ≠ "" ∧ hub.rooms.findRoomById msg.roomId = some room ∧
    room.state = .active

/-- Every later message for the room goes out on the session, if it is still active, connected
and permitted to receive it. -/
def DeliversTo (rooms : RoomStore) (roomId sessionId : String) : Prop :=
  ∀ (sessions : SessionTable) (s : SessionInfo) (reply : Message),
    sessions.get? sessionId = some s → s.sessionId = sessionId → s.state = .active →
    s.conn = some .live → Router.permitted s reply = true →
    (sessionId, reply) ∈ (Router.routeToRoom sessions rooms reply roomId).sent

/-- The speaker's account is an active member of the room bound to the sender, and the replies
in the room reach the sender. -/
def Joined (rooms : RoomStore) (accountId : String) (msg : Message) : Prop :=
  rooms.Bound msg.roomId accountId msg.sessionId ∧ DeliversTo rooms msg.roomId msg.sessionId

theorem deliversTo_of_bound {rooms : RoomStore} {roomId accountId sessionId : String}
    (h : rooms.Bound roomId accountId sessionId) : DeliversTo rooms roomId sessionId := by
  intro sessions s reply hs hid hactive hlive hpermitted
  subst hid
  exact Router.sent_of_bound h hs hactive hlive hpermitted

/-- The handler that is to join a speaker does so, for message events that ask or tell. Nothing
publishes such an event: the gateway publishes an input, and the agency streams. -/
theorem roomOnMessageEvent_bound {hub : Hub} {drawn : Drawn} {event : MessageEvent} {room : Room}
    (hdir : event.direction ∈ ["request", "event"]) (htype : event.msgType ∈ ["chat", "system"])
    (hroom : event.roomId ≠ "") (hfind : hub.rooms.findRoomById event.roomId = some room)
    (hactive : room.state = .active) (haccount : event.accountId ≠ "")
    (hsession : event.sessionId ≠ "") :
    (roomOnMessageEvent hub drawn event).rooms.Bound event.roomId event.accountId
      event.sessionId := by
  have hrun : (roomOnMessageEvent hub drawn event).rooms =
      (RoomManager.joinRoom (AccountManager.resolveDisplayName hub.accounts) drawn.now hub.rooms
        event.roomId event.accountId event.sessionId).store := by
    simp [roomOnMessageEvent, hdir, htype, hroom, haccount]
  rw [hrun]
  exact RoomManager.joinRoom_bound _ _ _ hfind hactive hsession

/-- What the gateway publishes for an accepted message carries the speaker's account. -/
theorem AcceptedChat.published {hub : Hub} (chat : AcceptedChat hub) (float? : String → Option T)
    (drawn : Drawn) : (onGrpcMessage float? hub drawn chat.msg).events =
      (resolveSpeaker hub drawn chat.msg).events.map BusEvent.account ++
        [.inputReady (inputReady chat.msg chat.speaker
          (resolveSpeaker hub drawn chat.msg).value)] := by
  obtain ⟨hdir, htarget⟩ := chat.toMind
  obtain ⟨htype, hcontent⟩ := chat.chat
  obtain ⟨hroom, hfind, _⟩ := chat.toRoom
  simp [onGrpcMessage, hdir, htarget, chat.spoken.1, htype, hcontent, hroom, hfind]

theorem handle_rooms (float? : String → Option T) (react : InputReady → List Reaction)
    (drawn : Drawn) (hub : Hub) (msg : Message) :
    (handle float? react drawn hub msg).rooms = hub.rooms := by
  have hfold : ∀ (events : List MessageEvent) (h : Hub),
      (∀ e ∈ events, e.direction = "stream") →
      (events.foldl (onMessageEvent drawn) h).rooms = h.rooms := by
    intro events
    induction events with
    | nil => exact fun _ _ => rfl
    | cons e rest ih =>
      intro h hstream
      rw [List.foldl_cons, ih _ fun e he => hstream e (List.mem_cons_of_mem _ he)]
      exact onMessageEvent_rooms_of_stream (hstream e List.mem_cons_self)
  unfold handle
  rw [hfold _ _ fun e he => ?_]
  · exact onGrpcMessage_rooms float? hub drawn msg
  · obtain ⟨r, _, hr⟩ := List.mem_flatMap.mp he
    obtain ⟨_, _, _, h⟩ := mem_reach_events hr
    rw [h]
    rfl

/-- The sender of an accepted message is joined to the room, and gets the replies, exactly when
its account was an active member bound to its session before. -/
theorem joined_iff (float? : String → Option T) (react : InputReady → List Reaction)
    (drawn : Drawn) (hub : Hub) (chat : AcceptedChat hub) :
    Joined (handle float? react drawn hub chat.msg).rooms
        (resolveSpeaker hub drawn chat.msg).value chat.msg ↔
      hub.rooms.Bound chat.msg.roomId (resolveSpeaker hub drawn chat.msg).value
        chat.msg.sessionId := by
  rw [handle_rooms]
  exact ⟨fun h => h.1, fun h => ⟨h, deliversTo_of_bound h⟩⟩

/-- The first message of a speaker: accepted, and the room is left without a member. -/
theorem first_message_unjoined :
    ¬ ∀ (float? : String → Option Int) (react : InputReady → List Reaction) (drawn : Drawn)
      (hub : Hub) (chat : AcceptedChat hub),
      Joined (handle float? react drawn hub chat.msg).rooms
        (resolveSpeaker hub drawn chat.msg).value chat.msg := by
  intro h
  let session : SessionInfo := { sessionId := "s1", permissions := [.sendChat, .receiveChat] }
  let room : Room := { roomId := "r1", name := "general" }
  let hub : Hub := { rooms := { rooms := [room] }, sessions := .ofList [("s1", session)] }
  let speaker : TransportIdentity :=
    { provider := "discord", subject := "1234567890", valid := .inr (by decide) }
  let msg : Message :=
    { sessionId := "s1", targetRole := "mind", direction := .request, msgType := "chat"
      content := "hello", speaker := some speaker, roomId := "r1" }
  let chat : AcceptedChat hub :=
    { msg, sender := session, speaker, room
      fromSession := ⟨rfl, rfl⟩
      toMind := ⟨rfl, rfl⟩
      chat := ⟨rfl, by decide⟩
      spoken := ⟨rfl, by decide, by decide⟩
      toRoom := ⟨by decide, rfl, rfl⟩ }
  obtain ⟨⟨m, hm, _⟩, _⟩ := h (fun _ => none) (fun _ => []) ⟨"a1", ""⟩ hub chat
  rw [handle_rooms] at hm
  cases hm

end IrisMind.Gateway
