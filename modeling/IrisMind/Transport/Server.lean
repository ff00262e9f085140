import IrisMind.Gateway.Inbound
import IrisMind.Sessions.Entitlement
import IrisMind.Transport.Frames

/-! # Message frames on the server

A message frame is read, its session is checked, and the message goes to the
gateway; whoever asked for it gets an acknowledgement afterwards. -/
namespace IrisMind.Transport
open IrisMind.Lib IrisMind.Accounts IrisMind.Gateway IrisMind.Inhibition IrisMind.Rooms
  IrisMind.Sessions

/-- `_validate_session`. -/
def validateSession (sessions : SessionTable) (sessionId msgType : String) : Bool :=
  SessionManager.isSessionActive sessions sessionId &&
    SessionManager.checkSendPermission sessions sessionId msgType

/-- `_send_ack`. -/
def sendAck (sessions : SessionTable) (correlationId sessionRole sessionId : String) : RouteRun :=
  Router.routeMessage sessions
    { msgType := "ack", content := "ack:" ++ correlationId, correlationId := some correlationId
      sourceRole := "mind", targetRole := sessionRole, sessionId, direction := .response }

/-- Any metadata value that counts as true asks for an acknowledgement. -/
def ackRequired (msg : Message) : Bool :=
  match Dict.lookup "ack_required" msg.metadata with
  | some v => v.truthy
  | none => false

variable {T : Type} [Clock T]

/-- `_dispatch_message`. -/
def dispatchMessage (float? : String → Option T) (hub : Hub) (drawn : Drawn)
    (sessionId sessionRole : String) (p : MessageFrame) : HubRun T :=
  match parseMessage sessionId sessionRole p with
  | none => { hub }
  | some msg =>
    if !validateSession hub.sessions sessionId msg.msgType then { hub }
    else
      let run := onGrpcMessage float? hub drawn msg
      if !ackRequired msg then run
      else
        let ack := sendAck run.hub.sessions msg.id sessionRole sessionId
        { run with
          hub := { run.hub with sessions := ack.sessions }
          sent := run.sent ++ ack.sent }

/-! ## Routing by role -/

/-- A message a client has sent to a role other than the mind, as the server accepts it. -/
structure AcceptedRequest (t : KeyedTable) where
  sessionId : String
  sessionRole : String
  frame : MessageFrame
  msg : Message
  parsed : parseMessage sessionId sessionRole frame = some msg
  validated : validateSession t.table sessionId msg.msgType = true
  request : msg.direction = .request
  toOthers : msg.targetRole ≠ "mind"
  named : sessionId ≠ ""

/-- The session is one the message is addressed to. -/
def addressed (msg : Message) (s : SessionInfo) : Prop :=
  msg.targetRole = "*" ∨ s.role = msg.targetRole

/-- The message has gone once to every active session it is addressed to that may receive it, and
to no session it is not addressed to. -/
structure RoleRouted (sessions : SessionTable) (msg : Message) (sent : List (String × Message)) :
    Prop where
  once : ∀ sid s, sessions.get? sid = some s → s.state = .active → addressed msg s →
    Router.permitted s msg = true → (sent.map Prod.fst).count sid = 1
  only : ∀ x ∈ sent, x.2 = msg ∧ ∃ s, sessions.get? x.1 = some s ∧ addressed msg s

/-- The sender alone is addressed, and it is connected. -/
structure AddressedToSender (sessions : SessionTable) (msg : Message) : Prop where
  others : ∀ sid s, sessions.get? sid = some s → s.state = .active → addressed msg s →
    Router.permitted s msg = true → sid = msg.sessionId ∧ s.conn = some .live
  sender : ∀ s, sessions.get? msg.sessionId = some s → s.state = .active →
    s.conn = some .live → addressed msg s

theorem AcceptedRequest.sessionId_eq {t : KeyedTable} (r : AcceptedRequest t) :
    r.msg.sessionId = r.sessionId := by
  obtain ⟨_, _, _, _, hmsg⟩ := parseMessage_eq_some r.parsed
  rw [hmsg]

/-- The gateway hands the message to the router, and the router to the session it came from. -/
theorem AcceptedRequest.sent_eq {t : KeyedTable} (r : AcceptedRequest t)
    (float? : String → Option T) (accounts : AccountStore) (rooms : RoomStore) (drawn : Drawn) :
    (onGrpcMessage float? { accounts, rooms, sessions := t.table } drawn r.msg).sent =
      (Router.routeMessage t.table r.msg).sent := by
  simp [onGrpcMessage, r.request, r.toOthers]

/-- For every table and every accepted request: it is routed by its role exactly when it is
addressed to the one who sent it. -/
theorem roleRouted_iff (float? : String → Option T) (accounts : AccountStore) (rooms : RoomStore)
    (drawn : Drawn) (t : KeyedTable) (r : AcceptedRequest t) :
    RoleRouted t.table r.msg
        (onGrpcMessage float? { accounts, rooms, sessions := t.table } drawn r.msg).sent ↔
      AddressedToSender t.table r.msg := by
  have hsid : r.msg.sessionId ≠ "" := by
    rw [r.sessionId_eq]
    exact r.named
  rw [r.sent_eq float? accounts rooms drawn]
  constructor
  · intro h
    refine ⟨fun sid s hs hactive haddr hp => ?_, fun s hs hactive hc => ?_⟩
    · have hcount := h.once sid s hs hactive haddr hp
      have hmem : sid ∈ (Router.routeMessage t.table r.msg).sent.map Prod.fst :=
        List.count_pos_iff.mp (by omega)
      obtain ⟨x, hx, rfl⟩ := List.mem_map.mp hmem
      obtain ⟨rfl, s', hs', _, hlive⟩ := (Router.mem_sent_of_session hsid).mp hx
      rw [hs] at hs'
      cases hs'
      exact ⟨rfl, hlive⟩
    · have hx := (Router.mem_sent_of_session hsid).mpr ⟨rfl, s, hs, hactive, hc⟩
      obtain ⟨_, s', hs', haddr⟩ := h.only _ hx
      rw [hs] at hs'
      cases hs'
      exact haddr
  · intro h
    refine ⟨fun sid s hs hactive haddr hp => ?_, fun x hx => ?_⟩
    · obtain ⟨rfl, hlive⟩ := h.others sid s hs hactive haddr hp
      rw [Router.sent_of_session hsid, hs]
      simp [hactive, hlive]
    · obtain ⟨rfl, s, hs, hactive, hlive⟩ := (Router.mem_sent_of_session hsid).mp hx
      exact ⟨rfl, s, hs, h.sender s hs hactive hlive⟩

/-- A bot writes to the clients with the role "ui": the message comes back to the bot, and the
user interface gets nothing. -/
theorem role_message_echoed :
    ¬ ∀ (float? : String → Option Int) (accounts : AccountStore) (rooms : RoomStore)
      (drawn : Drawn) (t : KeyedTable) (r : AcceptedRequest t),
      RoleRouted t.table r.msg
        (onGrpcMessage float? { accounts, rooms, sessions := t.table } drawn r.msg).sent := by
  intro h
  let bot := KeyedTable.empty.authenticate "" "s1" (some .live)
    { role := "bot", permissions := [.sendChat] }
  let t : KeyedTable := (bot.2.authenticate "" "s2" (some .live)
    { role := "ui", permissions := [.receiveChat] }).2
  let r : AcceptedRequest t :=
    { sessionId := "s1", sessionRole := "bot"
      frame := { targetRole := "ui", direction := 1, msgType := "chat", content := "hi" }
      msg := { sessionId := "s1", sourceRole := "bot", targetRole := "ui", direction := .request
               msgType := "chat", content := "hi" }
      parsed := rfl
      validated := by decide
      request := rfl
      toOthers := by decide
      named := by decide }
  have honce := (h (fun _ => none) {} {} ⟨"", ""⟩ t r).once "s2" _ rfl rfl (.inr rfl) (by decide)
  exact absurd honce (by decide)

end IrisMind.Transport
