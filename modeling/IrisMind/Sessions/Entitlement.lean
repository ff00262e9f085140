import IrisMind.Sessions.Control

/-! # Who may get what goes out

The role, room and broadcast routes look at the permissions of every target. A
message that names its session goes to that session without a look, so it is the
one way to hand a session what it may not receive. -/
namespace IrisMind.Sessions
open IrisMind.Lib IrisMind.Rooms

/-- What the router is asked to deliver, by the route it takes. A message that names no session
goes by its role, or to all. -/
inductive Delivery where
  | message (msg : Message)
  | toRoom (rooms : RoomStore) (roomId : String) (msg : Message)
  | broadcast (c : ControlMessage)

namespace Delivery

/-- The sessions something is handed to. -/
def recipients (sessions : SessionTable) : Delivery → List String
  | message msg => (Router.routeMessage sessions msg).sent.map Prod.fst
  | toRoom rooms roomId msg => (Router.routeToRoom sessions rooms msg roomId).sent.map Prod.fst
  | broadcast c => (Router.broadcastControlMessage sessions c).sent.map Prod.fst

def required : Delivery → Option Permission
  | message msg => msgPermission? msg.msgType
  | toRoom _ _ msg => msgPermission? msg.msgType
  | broadcast _ => some .receiveChat

end Delivery

/-- The session is active and holds the permission, if one is required. -/
def Entitled (sessions : SessionTable) (sid : String) (required : Option Permission) : Prop :=
  ∃ s, sessions.get? sid = some s ∧ s.state = .active ∧ ∀ p, required = some p → p ∈ s.permissions

/-- Everybody who is handed something may receive it. -/
def Delivery.Permitted (d : Delivery) (sessions : SessionTable) : Prop :=
  ∀ sid ∈ d.recipients sessions, Entitled sessions sid d.required

namespace Router

theorem permitted_iff_mem {s : SessionInfo} {msg : Message} :
    permitted s msg = true ↔ ∀ p, msgPermission? msg.msgType = some p → p ∈ s.permissions := by
  unfold permitted
  cases msgPermission? msg.msgType with
  | none => simp
  | some q => simp

theorem entitled_of_target {t : KeyedTable} {s : SessionInfo} {k : String}
    (hs : t.table.get? k = some s) (hr : s.reachable = true) {required : Option Permission}
    (hp : ∀ p, required = some p → p ∈ s.permissions) :
    Entitled t.table s.sessionId required := by
  have hid : s.sessionId = k := t.keyed k s hs
  obtain ⟨hactive, _⟩ := Bool.and_eq_true_iff.mp hr
  exact ⟨s, by rw [hid]; exact hs, of_decide_eq_true hactive, hp⟩

/-- Where targets are picked among the sessions that can be reached, the filter on permissions
lets only entitled ones have the message. -/
theorem entitled_of_sent {t : KeyedTable} {msg : Message} {targets : List SessionInfo}
    (ht : ∀ s ∈ targets, s.reachable = true ∧ ∃ k, t.table.get? k = some s) {sid : String}
    (h : sid ∈ (sendToTargets { sessions := t.table } msg targets).sent.map Prod.fst) :
    Entitled t.table sid (msgPermission? msg.msgType) := by
  obtain ⟨x, hx, rfl⟩ := List.mem_map.mp h
  rcases mem_sent_sendToTargets hx with hx | ⟨s, hs, hreceives, rfl⟩
  · cases hx
  · obtain ⟨hr, k, hk⟩ := ht s hs
    obtain ⟨_, hp⟩ := Bool.and_eq_true_iff.mp hreceives
    exact entitled_of_target hk hr (permitted_iff_mem.mp hp)

theorem routeToRoom_permitted (t : KeyedTable) (rooms : RoomStore) (roomId : String)
    (msg : Message) : (Delivery.toRoom rooms roomId msg).Permitted t.table := by
  intro sid h
  refine entitled_of_sent (fun s hs => ?_) h
  obtain ⟨k, _, hfind⟩ := List.mem_filterMap.mp hs
  obtain ⟨hget, hreach⟩ := Option.filter_eq_some_iff.mp hfind
  exact ⟨hreach, k, hget⟩

theorem broadcast_permitted (t : KeyedTable) (c : ControlMessage) :
    (Delivery.broadcast c).Permitted t.table := by
  intro sid h
  obtain ⟨x, hx, rfl⟩ := List.mem_map.mp h
  rcases mem_sent_foldl_sendOut hx with hx | ⟨s, hs, _, rfl⟩
  · cases hx
  · obtain ⟨hmem, hfilter⟩ := List.mem_filter.mp hs
    obtain ⟨hr, hp⟩ := Bool.and_eq_true_iff.mp hfilter
    obtain ⟨k, hk⟩ := Dict.mem_values_iff.mp hmem
    refine entitled_of_target hk hr fun p hsome => ?_
    cases hsome
    simpa using hp

/-- Without a session id the message goes to a role, past the filter on permissions. -/
theorem routeMessage_permitted_of_role (t : KeyedTable) {msg : Message}
    (hsid : msg.sessionId = "") : (Delivery.message msg).Permitted t.table := by
  intro sid h
  simp only [Delivery.recipients, routeMessage, hsid, ne_eq, not_true_eq_false, if_false] at h
  refine entitled_of_sent (fun s hs => ?_) h
  obtain ⟨hmem, hfilter⟩ := List.mem_filter.mp hs
  obtain ⟨hr, _⟩ := Bool.and_eq_true_iff.mp hfilter
  exact ⟨hr, Dict.mem_values_iff.mp hmem⟩

/-- With a session id it goes to that session, if it is connected, and to no other. -/
theorem sent_of_session {t : KeyedTable} {msg : Message} (hsid : msg.sessionId ≠ "") :
    (routeMessage t.table msg).sent =
      match t.table.get? msg.sessionId with
      | some s => if s.state = .active ∧ s.conn = some .live then [(msg.sessionId, msg)] else []
      | none => [] := by
  simp only [routeMessage, ne_eq, hsid, not_false_eq_true, if_true]
  cases hs : t.table.get? msg.sessionId with
  | none => rfl
  | some s =>
    have hid : s.sessionId = msg.sessionId := t.keyed _ s hs
    by_cases hactive : s.state = .active
    · cases hc : s.conn with
      | none => simp [SessionInfo.reachable, hactive, hc]
      | some c =>
        cases c with
        | live => simp [SessionInfo.reachable, hactive, hc, sendBytesToSession, hid]
        | lost => simp [SessionInfo.reachable, hactive, hc, sendBytesToSession]
    · simp [SessionInfo.reachable, hactive]

theorem mem_sent_of_session {t : KeyedTable} {msg : Message} (hsid : msg.sessionId ≠ "")
    {x : String × Message} : x ∈ (routeMessage t.table msg).sent ↔ x = (msg.sessionId, msg) ∧
      ∃ s, t.table.get? msg.sessionId = some s ∧ s.state = .active ∧ s.conn = some .live := by
  rw [sent_of_session hsid]
  cases hs : t.table.get? msg.sessionId with
  | none => simp
  | some s =>
    by_cases hlive : s.state = .active ∧ s.conn = some .live
    · simp [hlive]
    · simp [hlive]

end Router

/-- For every table and every route: all who are handed something may receive it, exactly when a
message that names a connected session names one with the permission for its type. -/
theorem Delivery.permitted_iff (t : KeyedTable) (d : Delivery) :
    d.Permitted t.table ↔
      ∀ msg s, d = .message msg → msg.sessionId ≠ "" → t.table.get? msg.sessionId = some s →
        s.state = .active → s.conn = some .live → Router.permitted s msg = true := by
  cases d with
  | toRoom rooms roomId msg =>
    exact iff_of_true (Router.routeToRoom_permitted t rooms roomId msg) fun _ _ h => by cases h
  | broadcast c =>
    exact iff_of_true (Router.broadcast_permitted t c) fun _ _ h => by cases h
  | message msg =>
    by_cases hsid : msg.sessionId = ""
    · refine iff_of_true (Router.routeMessage_permitted_of_role t hsid) fun m s h hne => ?_
      cases h
      exact absurd hsid hne
    · constructor
      · intro h m s hd _ hs hactive hc
        cases hd
        have hmem := (Router.mem_sent_of_session hsid).mpr ⟨rfl, s, hs, hactive, hc⟩
        obtain ⟨s', hs', _, hp⟩ := h msg.sessionId (List.mem_map_of_mem hmem)
        rw [hs] at hs'
        cases hs'
        exact Router.permitted_iff_mem.mpr hp
      · intro h sid hmem
        obtain ⟨x, hx, rfl⟩ := List.mem_map.mp hmem
        obtain ⟨rfl, s, hs, hactive, hc⟩ := (Router.mem_sent_of_session hsid).mp hx
        exact ⟨s, hs, hactive, Router.permitted_iff_mem.mp (h msg s rfl hsid hs hactive hc)⟩

/-- An acknowledgement reaches a session that may not receive one. -/
theorem ack_unpermitted :
    ¬ ∀ (t : KeyedTable) (d : Delivery), d.Permitted t.table := by
  intro h
  let t : KeyedTable := (KeyedTable.empty.authenticate "" "s1" (some .live) {}).2
  let ack : Message :=
    { direction := .response, msgType := "ack", content := "ack:1", sessionId := "s1" }
  obtain ⟨s, hs, _, hp⟩ := h t (.message ack) "s1" (by decide)
  cases hs
  cases hp .receiveChat rfl

end IrisMind.Sessions
