import IrisMind.Gateway.Inbound
import IrisMind.Sessions.Manager

/-! # What routing leaves of the sessions

The one thing that sending can change is a connection, which is dropped when it
turns out to be lost. So who has a session, under which id, in which state and
with which permissions is the same after anything has been routed. -/
namespace IrisMind.Sessions
open IrisMind.Lib IrisMind.Accounts IrisMind.Gateway IrisMind.Inhibition IrisMind.Rooms

/-- A session without its connection. -/
def SessionInfo.offline (s : SessionInfo) : SessionInfo := { s with conn := none }

/-- The same sessions, up to their connections. -/
def SameSessions (old new : SessionTable) : Prop :=
  ∀ k, (new.get? k).map SessionInfo.offline = (old.get? k).map SessionInfo.offline

namespace SameSessions

theorem refl (sessions : SessionTable) : SameSessions sessions sessions := fun _ => rfl

theorem trans {a b c : SessionTable} (hab : SameSessions a b) (hbc : SameSessions b c) :
    SameSessions a c := fun k => (hbc k).trans (hab k)

theorem get?_eq_none {old new : SessionTable} (h : SameSessions old new) {k : String}
    (hk : old.get? k = none) : new.get? k = none := by
  have hnone := h k
  rw [hk] at hnone
  exact Option.map_eq_none_iff.mp hnone

theorem get?_eq_some {old new : SessionTable} (h : SameSessions old new) {k : String}
    {s : SessionInfo} (hk : new.get? k = some s) :
    ∃ t, old.get? k = some t ∧ t.offline = s.offline := by
  have hsome := h k
  rw [hk, Option.map_some] at hsome
  exact Option.map_eq_some_iff.mp hsome.symm

theorem keyed {old new : SessionTable} (h : SameSessions old new) (hk : Keyed old) :
    Keyed new := by
  intro k s hs
  obtain ⟨t, ht, hoff⟩ := h.get?_eq_some hs
  have hid : t.offline.sessionId = s.offline.sessionId := congrArg SessionInfo.sessionId hoff
  exact hid.symm.trans (hk k t ht)

end SameSessions

namespace Router

theorem sameSessions_sendToTarget {old : SessionTable} {msg : Message} {run : RouteRun}
    {s : SessionInfo} (h : SameSessions old run.sessions) (hs : old.get? s.sessionId = some s) :
    SameSessions old (sendToTarget msg run s).sessions := by
  unfold sendToTarget sendBytesToSession
  split
  · split
    · exact h
    · exact h
    · intro k
      rw [Dict.get?_set]
      split
      · next hk => rw [← hk, hs]; rfl
      · exact h k
  · exact h

theorem sameSessions_sendToTargets {old : SessionTable} {msg : Message} {run : RouteRun}
    {targets : List SessionInfo} (h : SameSessions old run.sessions)
    (hs : ∀ s ∈ targets, old.get? s.sessionId = some s) :
    SameSessions old (sendToTargets run msg targets).sessions := by
  induction targets generalizing run with
  | nil => exact h
  | cons s rest ih =>
    exact ih (sameSessions_sendToTarget h (hs s List.mem_cons_self))
      fun t ht => hs t (List.mem_cons_of_mem _ ht)

theorem sameSessions_routeMessage {sessions : SessionTable} (hk : Keyed sessions)
    (msg : Message) : SameSessions sessions (routeMessage sessions msg).sessions := by
  unfold routeMessage
  split
  · split
    · next s hs =>
      split
      · have hid := hk _ s hs
        unfold sendBytesToSession
        split
        · exact .refl _
        · exact .refl _
        · intro k
          rw [Dict.get?_set]
          split
          · next he =>
            have hk' : sessions.get? k = some s := by rw [← he, hid, hs]
            rw [hk']
            rfl
          · rfl
      · exact .refl _
    · exact .refl _
  · refine sameSessions_sendToTargets (.refl _) fun s hs => ?_
    obtain ⟨k, hget⟩ := Dict.mem_values_iff.mp (List.mem_filter.mp hs).1
    rw [hk k s hget]
    exact hget

end Router

variable {T : Type} [Clock T]

/-- The gateway changes connections only. -/
theorem sameSessions_onGrpcMessage (float? : String → Option T) {hub : Hub}
    (hk : Keyed hub.sessions) (drawn : Drawn) (msg : Message) :
    SameSessions hub.sessions (onGrpcMessage float? hub drawn msg).hub.sessions := by
  unfold onGrpcMessage
  split
  · exact Router.sameSessions_routeMessage hk _
  split
  · exact Router.sameSessions_routeMessage hk _
  cases msg.speaker with
  | none => exact Router.sameSessions_routeMessage hk _
  | some speaker =>
    dsimp only
    split
    · exact .refl _
    split
    · exact Router.sameSessions_routeMessage hk _
    split
    · exact Router.sameSessions_routeMessage hk _
    cases hub.rooms.findRoomById msg.roomId with
    | none => exact Router.sameSessions_routeMessage hk _
    | some room => exact .refl _

end IrisMind.Sessions
