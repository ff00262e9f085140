import IrisMind.Accounts.Account
import IrisMind.Lib.Dict
import IrisMind.Rooms.Room

/-! # Sessions and the session router

A message goes to the one session it names, to all sessions of a role, or to the
sessions the members of a room are bound to. Every path but the first looks at
the permission of the receiver. Sending on a broken connection drops it. -/
namespace IrisMind.Sessions
open IrisMind.Lib IrisMind.Accounts IrisMind.Rooms

inductive Permission where
  | sendChat
  | receiveChat
  | sendCommand
  | receiveCommand
  | receiveLog
  | interrupt
  | executeAction
  | sendInhibition
deriving DecidableEq, Repr

/-- `_MSG_PERMISSION_MAP`. -/
def msgPermission? (msgType : String) : Option Permission :=
  if msgType ∈ ["chat", "ack", "system", "error"] then some .receiveChat
  else if msgType ∈ ["execute", "execute_result"] then some .executeAction
  else if msgType = "interrupt" then some .interrupt
  else if msgType = "command" then some .receiveCommand
  else none

inductive Direction where
  | request
  | response
  | stream
  | event
deriving DecidableEq, Repr

namespace Direction

def value : Direction → String
  | request => "request"
  | response => "response"
  | stream => "stream"
  | event => "event"

/-- How the member prints in a text. -/
def name : Direction → String
  | request => "Direction.REQUEST"
  | response => "Direction.RESPONSE"
  | stream => "Direction.STREAM"
  | event => "Direction.EVENT"

end Direction

/-- A provider, when one is given, is a known one. -/
structure TransportIdentity where
  provider : String
  subject : String := ""
  providerName : String := ""
  metadata : List (String × String) := []
  valid : provider = "" ∨ (Provider.ofValue? provider).isSome = true

/-- A message the server makes itself draws its id at random; such an id is left empty. -/
structure Message where
  id : String := ""
  correlationId : Option String := none
  sessionId : String := ""
  sourceRole : String := ""
  targetRole : String := "*"
  accountId : String := ""
  direction : Direction
  msgType : String
  content : String
  contentType : String := "text/plain"
  state : Option String := none
  metadata : List (String × Json) := []
  speaker : Option TransportIdentity := none
  roomId : String := ""

inductive SessionState where
  | active
  | closed
deriving DecidableEq, Repr

/-- A connection takes what is sent, or raises that it is lost. -/
inductive Connection where
  | live
  | lost
deriving DecidableEq, Repr

structure SessionInfo where
  sessionId : String
  state : SessionState := .active
  role : String := "external"
  permissions : List Permission := []
  sessionTag : String := ""
  conn : Option Connection := some .live
deriving DecidableEq, Repr

abbrev SessionTable := Dict String SessionInfo

/-- What routing leaves of the sessions, and what went out on which session. -/
structure RouteRun where
  sessions : SessionTable
  sent : List (String × Message) := []

def SessionInfo.reachable (s : SessionInfo) : Bool := s.state = .active && s.conn.isSome

namespace Router

/-- `send_bytes_to_session`. -/
def sendBytesToSession (run : RouteRun) (s : SessionInfo) (msg : Message) : RouteRun :=
  match s.conn with
  | none => run
  | some .live => { run with sent := run.sent ++ [(s.sessionId, msg)] }
  | some .lost => { run with sessions := run.sessions.set s.sessionId { s with conn := none } }

def permitted (s : SessionInfo) (msg : Message) : Bool :=
  match msgPermission? msg.msgType with
  | some p => s.permissions.contains p
  | none => true

def sendToTarget (msg : Message) (run : RouteRun) (s : SessionInfo) : RouteRun :=
  if permitted s msg then sendBytesToSession run s msg else run

/-- `_send_to_targets`. -/
def sendToTargets (run : RouteRun) (msg : Message) (targets : List SessionInfo) : RouteRun :=
  targets.foldl (sendToTarget msg) run

def routeMessage (sessions : SessionTable) (msg : Message) : RouteRun :=
  if msg.sessionId ≠ "" then
    match sessions.get? msg.sessionId with
    | some s =>
      if s.reachable then sendBytesToSession { sessions } s msg else { sessions }
    | none => { sessions }
  else
    let targets := sessions.values.filter fun s =>
      s.reachable && (msg.targetRole = "*" || s.role = msg.targetRole)
    sendToTargets { sessions } msg targets

def routeToRoom (sessions : SessionTable) (rooms : RoomStore) (msg : Message) (roomId : String) :
    RouteRun :=
  let targets := (rooms.findAllSessionIdsForRoom roomId).filterMap fun sid =>
    (sessions.get? sid).filter SessionInfo.reachable
  sendToTargets { sessions } msg targets

/-! ## What goes out -/

theorem sent_sendToTarget {msg : Message} {run : RouteRun} {s : SessionInfo}
    {x : String × Message} (h : x ∈ run.sent) : x ∈ (sendToTarget msg run s).sent := by
  unfold sendToTarget sendBytesToSession
  split
  · split
    · exact h
    · exact List.mem_append_left _ h
    · exact h
  · exact h

theorem sent_sendToTargets {msg : Message} {run : RouteRun} {targets : List SessionInfo}
    {x : String × Message} (h : x ∈ run.sent) : x ∈ (sendToTargets run msg targets).sent := by
  induction targets generalizing run with
  | nil => exact h
  | cons s rest ih => exact ih (sent_sendToTarget h)

theorem sent_of_target {msg : Message} {run : RouteRun} {targets : List SessionInfo}
    {s : SessionInfo} (hs : s ∈ targets) (hp : permitted s msg = true)
    (hc : s.conn = some .live) : (s.sessionId, msg) ∈ (sendToTargets run msg targets).sent := by
  induction targets generalizing run with
  | nil => cases hs
  | cons t rest ih =>
    rcases List.mem_cons.mp hs with rfl | hs
    · have hsent : (s.sessionId, msg) ∈ (sendToTarget msg run s).sent := by
        rw [sendToTarget, if_pos hp, sendBytesToSession, hc]
        exact List.mem_append_right _ List.mem_cons_self
      have hrest : (s.sessionId, msg) ∈
          (sendToTargets (sendToTarget msg run s) msg rest).sent := sent_sendToTargets hsent
      exact hrest
    · exact ih hs

/-- A message for a room goes out on each live and permitted session a member is bound to. -/
theorem sent_of_bound {sessions : SessionTable} {rooms : RoomStore} {s : SessionInfo}
    {msg : Message} {roomId accountId : String} (hb : rooms.Bound roomId accountId s.sessionId)
    (hs : sessions.get? s.sessionId = some s) (ha : s.state = .active)
    (hc : s.conn = some .live) (hp : permitted s msg = true) :
    (s.sessionId, msg) ∈ (routeToRoom sessions rooms msg roomId).sent := by
  refine sent_of_target ?_ hp hc
  refine List.mem_filterMap.mpr ⟨s.sessionId, hb.mem_sessionIds, ?_⟩
  simp [hs, SessionInfo.reachable, ha, hc]

end Router

end IrisMind.Sessions
