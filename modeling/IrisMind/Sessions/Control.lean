import IrisMind.Sessions.RoomDelivery

/-! # Control messages and command output

Presence goes out to every session that may receive chat; the answer to a control
message goes back to the session that asked, and so does the output of a command. -/
namespace IrisMind.Sessions
open IrisMind.Lib

structure ControlMessage where
  action : String := ""
  accountId : String := ""
  roomId : String := ""
  displayName : String := ""
  text : String := ""
  identity : Option TransportIdentity := none
  profile : Dict String String := .empty
  metadata : Dict String String := .empty

/-- A control message on the event bus, with the session it came from. -/
structure ControlMessageEvent extends ControlMessage where
  sessionId : String := ""

/-- What a dispatcher makes of a control message: an answer, nothing, or an exception. -/
inductive Outcome where
  | answered (response : ControlMessage)
  | unhandled
  | raised

/-- The answer to a request that cannot be served. -/
def Outcome.error (action message : String) : Outcome :=
  .answered { action, text := "Error: " ++ message }

/-- The outcome is an exception under the condition, and an answer otherwise. -/
def Outcome.RaisesIff (o : Outcome) (breaks : Prop) : Prop :=
  breaks ∧ o = .raised ∨ ¬ breaks ∧ ∃ response, o = .answered response

theorem Outcome.RaisesIff.congr {o : Outcome} {p q : Prop} (h : o.RaisesIff p) (hpq : p ↔ q) :
    o.RaisesIff q := by
  rcases h with ⟨hp, ho⟩ | ⟨hp, ho⟩
  · exact .inl ⟨hpq.mp hp, ho⟩
  · exact .inr ⟨fun hq => hp (hpq.mpr hq), ho⟩

theorem Outcome.raisesIff_of_answered {o : Outcome} (h : ∃ response, o = .answered response) :
    o.RaisesIff False := .inr ⟨id, h⟩

/-- Ids are drawn at random where none is given; such an id is left empty. -/
structure CommandOutput where
  id : String := ""
  correlationId : Option String := none
  sessionId : String := ""
  msgType : String := "command"
  content : String
  state : Option String := none

/-- What a route that hands out `α` leaves of the sessions, and what went out on which. -/
structure OutRun (α : Type) where
  sessions : SessionTable
  sent : List (String × α) := []

namespace Router

variable {α : Type}

/-- `send_bytes_to_session`, for what is not a `Message`. -/
def sendOut (run : OutRun α) (s : SessionInfo) (x : α) : OutRun α :=
  match s.conn with
  | none => run
  | some .live => { run with sent := run.sent ++ [(s.sessionId, x)] }
  | some .lost => { run with sessions := run.sessions.set s.sessionId { s with conn := none } }

def broadcastControlMessage (sessions : SessionTable) (c : ControlMessage) :
    OutRun ControlMessage :=
  let targets := sessions.values.filter fun s =>
    s.reachable && s.permissions.contains .receiveChat
  targets.foldl (fun run s => sendOut run s c) { sessions }

/-- `route_control_message`. This send raises what it meets; a live connection takes it. -/
def routeControlMessage (sessions : SessionTable) (c : ControlMessage) (sessionId : String) :
    OutRun ControlMessage :=
  match sessions.get? sessionId with
  | none => { sessions }
  | some s =>
    if s.state = .active && s.conn = some .live then { sessions, sent := [(s.sessionId, c)] }
    else { sessions }

theorem mem_sent_foldl_sendOut {run : OutRun α} {targets : List SessionInfo} {x : α}
    {y : String × α} (hy : y ∈ (targets.foldl (fun run s => sendOut run s x) run).sent) :
    y ∈ run.sent ∨ ∃ s ∈ targets, s.conn = some .live ∧ y = (s.sessionId, x) := by
  induction targets generalizing run with
  | nil => exact .inl hy
  | cons s rest ih =>
    have hone : y ∈ (sendOut run s x).sent →
        y ∈ run.sent ∨ s.conn = some .live ∧ y = (s.sessionId, x) := by
      intro h
      unfold sendOut at h
      split at h
      · exact .inl h
      · next hc =>
        rcases List.mem_append.mp h with h | h
        · exact .inl h
        · exact .inr ⟨hc, List.mem_singleton.mp h⟩
      · exact .inl h
    rcases ih hy with h | ⟨t, ht, hrest⟩
    · rcases hone h with h | h
      · exact .inl h
      · exact .inr ⟨s, List.mem_cons_self, h⟩
    · exact .inr ⟨t, List.mem_cons_of_mem _ ht, hrest⟩

end Router

end IrisMind.Sessions
