import IrisMind.Rooms.Membership
import IrisMind.Sessions.Manager

/-! # How often a room message reaches a session

The targets of a room message are the session lists of all active members, one
after the other. A session is there once for each member that is bound to it, so
it gets the message once exactly when it stands for one account in the room. -/
namespace IrisMind.Sessions
open IrisMind.Lib IrisMind.Rooms

namespace Router

/-- The session is connected and allowed to receive the message. A connection that is lost takes
nothing. -/
def receives (msg : Message) (s : SessionInfo) : Bool :=
  s.conn = some .live && permitted s msg

/-! ## Counting what goes out -/

/-- How often something went out on the session. -/
def RouteRun.sentTo (run : RouteRun) (sid : String) : Nat := (run.sent.map Prod.fst).count sid

theorem sentTo_sendToTarget (msg : Message) (run : RouteRun) (s : SessionInfo) (sid : String) :
    RouteRun.sentTo (sendToTarget msg run s) sid =
      RouteRun.sentTo run sid + (s.sessionId = sid && receives msg s).toNat := by
  unfold sendToTarget sendBytesToSession receives RouteRun.sentTo
  cases hp : permitted s msg with
  | false => simp
  | true =>
    cases hc : s.conn with
    | none => simp
    | some c =>
      cases c with
      | lost => simp
      | live =>
        by_cases hs : s.sessionId = sid
        · simp [hs]
        · simp [hs]

theorem sentTo_sendToTargets (msg : Message) (run : RouteRun) (targets : List SessionInfo)
    (sid : String) :
    RouteRun.sentTo (sendToTargets run msg targets) sid = RouteRun.sentTo run sid +
      targets.countP fun s => s.sessionId = sid && receives msg s := by
  induction targets generalizing run with
  | nil => rfl
  | cons s rest ih =>
    have hstep : sendToTargets run msg (s :: rest) =
        sendToTargets (sendToTarget msg run s) msg rest := rfl
    rw [hstep, ih, sentTo_sendToTarget, List.countP_cons]
    cases decide (s.sessionId = sid) && receives msg s with
    | true => simp; omega
    | false => simp

/-- What goes out is the message, to targets that receive it. -/
theorem mem_sent_sendToTargets {msg : Message} {run : RouteRun} {targets : List SessionInfo}
    {x : String × Message} (hx : x ∈ (sendToTargets run msg targets).sent) :
    x ∈ run.sent ∨ ∃ s ∈ targets, receives msg s = true ∧ x = (s.sessionId, msg) := by
  induction targets generalizing run with
  | nil => exact .inl hx
  | cons s rest ih =>
    have hone : x ∈ (sendToTarget msg run s).sent →
        x ∈ run.sent ∨ receives msg s = true ∧ x = (s.sessionId, msg) := by
      intro h
      unfold sendToTarget sendBytesToSession at h
      split at h
      · next hp =>
        split at h
        · exact .inl h
        · next hc =>
          rcases List.mem_append.mp h with h | h
          · exact .inl h
          · exact .inr ⟨by simp [receives, hc, hp], List.mem_singleton.mp h⟩
        · exact .inl h
      · exact .inl h
    rcases ih hx with h | ⟨t, ht, hrest⟩
    · rcases hone h with h | h
      · exact .inl h
      · exact .inr ⟨s, List.mem_cons_self, h⟩
    · exact .inr ⟨t, List.mem_cons_of_mem _ ht, hrest⟩

/-! ## The targets in a room -/

/-- A room message goes out to the session, if the room has it. -/
def reaches (sessions : SessionTable) (msg : Message) (sid : String) : Bool :=
  match sessions.get? sid with
  | some s => s.reachable && receives msg s
  | none => false

theorem reaches_iff {sessions : SessionTable} {msg : Message} {sid : String} :
    reaches sessions msg sid = true ↔ ∃ s, sessions.get? sid = some s ∧ s.state = .active ∧
      s.conn = some .live ∧ permitted s msg = true := by
  unfold reaches
  cases hs : sessions.get? sid with
  | none => simp
  | some s =>
    simp only [SessionInfo.reachable, receives, Bool.and_eq_true, decide_eq_true_eq,
      Option.some.injEq, exists_eq_left']
    constructor
    · intro hgets
      obtain ⟨⟨ha, _⟩, hc, hp⟩ := hgets
      exact ⟨ha, hc, hp⟩
    · intro hgets
      obtain ⟨ha, hc, hp⟩ := hgets
      exact ⟨⟨ha, by rw [hc]; rfl⟩, hc, hp⟩

/-- The session a room looks up for one id. -/
def target? (sessions : SessionTable) (x : String) : Option SessionInfo :=
  (sessions.get? x).filter SessionInfo.reachable

theorem countP_target {sessions : SessionTable} (hk : Keyed sessions) (msg : Message)
    (sid x : String) :
    (target? sessions x).toList.countP (fun s => s.sessionId = sid && receives msg s) =
      if reaches sessions msg sid = true ∧ x = sid then 1 else 0 := by
  unfold target?
  cases hx : sessions.get? x with
  | none =>
    have hnot : ¬ (reaches sessions msg sid = true ∧ x = sid) := by
      intro hgets
      obtain ⟨h, rfl⟩ := hgets
      simp [reaches, hx] at h
    rw [if_neg hnot]
    rfl
  | some s =>
    have hid : s.sessionId = x := hk x s hx
    rw [Option.filter_some]
    by_cases he : x = sid
    · subst he
      cases hr : s.reachable with
      | false => simp [reaches, hx, hr]
      | true =>
        cases hm : receives msg s with
        | false => simp [reaches, hx, hr, hm]
        | true => simp [reaches, hx, hr, hm, hid]
    · cases hr : s.reachable with
      | false => simp [he]
      | true => simp [he, hid]

theorem countP_targets {sessions : SessionTable} (hk : Keyed sessions) (msg : Message)
    (sid : String) (ids : List String) :
    (ids.filterMap (target? sessions)).countP (fun s => s.sessionId = sid && receives msg s) =
      if reaches sessions msg sid = true then ids.count sid else 0 := by
  induction ids with
  | nil => simp
  | cons x ids ih =>
    have hcons : (x :: ids).filterMap (target? sessions) =
        (target? sessions x).toList ++ ids.filterMap (target? sessions) := by
      rw [List.filterMap_cons]
      cases target? sessions x <;> rfl
    rw [hcons, List.countP_append, countP_target hk, ih, List.count_cons]
    by_cases h : reaches sessions msg sid = true
    · by_cases he : x = sid
      · simp [h, he, Nat.add_comm]
      · simp [h, he]
    · simp [h]

/-- A session gets a room message as often as it is listed, if it is reached at all. -/
theorem sentTo_routeToRoom {sessions : SessionTable} (hk : Keyed sessions) (rooms : RoomStore)
    (msg : Message) (roomId sid : String) :
    RouteRun.sentTo (routeToRoom sessions rooms msg roomId) sid =
      if reaches sessions msg sid = true then (rooms.findAllSessionIdsForRoom roomId).count sid
      else 0 := by
  have h := countP_targets hk msg sid (rooms.findAllSessionIdsForRoom roomId)
  rw [← h]
  change RouteRun.sentTo (sendToTargets _ _ _) _ = _
  rw [sentTo_sendToTargets]
  exact Nat.zero_add _

/-! ## Exactly once -/

/-- Active, connected, permitted, and bound to an active member of the room. -/
def RoomReceiver (sessions : SessionTable) (rooms : RoomStore) (msg : Message)
    (roomId sid : String) : Prop :=
  (∃ s, sessions.get? sid = some s ∧ s.state = .active ∧ s.conn = some .live ∧
    permitted s msg = true) ∧ ∃ accountId, rooms.Bound roomId accountId sid

structure DeliversOnce (sessions : SessionTable) (rooms : RoomStore) (msg : Message)
    (roomId : String) : Prop where
  once : ∀ sid, RoomReceiver sessions rooms msg roomId sid →
    RouteRun.sentTo (routeToRoom sessions rooms msg roomId) sid = 1
  only : ∀ x ∈ (routeToRoom sessions rooms msg roomId).sent,
    x.2 = msg ∧ RoomReceiver sessions rooms msg roomId x.1

/-- Nothing goes out to anybody else. -/
theorem receiver_of_sent {sessions : SessionTable} (hk : Keyed sessions) {rooms : RoomStore}
    {msg : Message} {roomId : String} {x : String × Message}
    (hx : x ∈ (routeToRoom sessions rooms msg roomId).sent) :
    x.2 = msg ∧ RoomReceiver sessions rooms msg roomId x.1 := by
  rcases mem_sent_sendToTargets hx with h | ⟨s, hs, hreceives, rfl⟩
  · cases h
  · obtain ⟨sid, hsid, hfind⟩ := List.mem_filterMap.mp hs
    obtain ⟨hget, hreach⟩ := Option.filter_eq_some_iff.mp hfind
    have hid : s.sessionId = sid := hk sid s hget
    obtain ⟨hactive, _⟩ := Bool.and_eq_true_iff.mp hreach
    obtain ⟨hconn, hpermitted⟩ := Bool.and_eq_true_iff.mp hreceives
    refine ⟨rfl, ⟨s, by rw [hid]; exact hget, of_decide_eq_true hactive,
      of_decide_eq_true hconn, hpermitted⟩, ?_⟩
    obtain ⟨m, hm, hsession⟩ := List.mem_flatMap.mp hsid
    obtain ⟨hmem, hin⟩ := List.mem_filter.mp hm
    obtain ⟨hroom, hlive⟩ := Bool.and_eq_true_iff.mp hin
    refine ⟨m.accountId, m, hmem, ?_, hlive, by rw [hid]; exact hsession⟩
    simpa [RoomMember.isOf] using hroom

theorem sentTo_of_receiver {sessions : SessionTable} (hk : Keyed sessions) {rooms : RoomStore}
    (hw : rooms.WellFormed) {msg : Message} {roomId sid : String}
    (h : RoomReceiver sessions rooms msg roomId sid) :
    RouteRun.sentTo (routeToRoom sessions rooms msg roomId) sid =
      (rooms.accountsOf roomId sid).length := by
  rw [sentTo_routeToRoom hk, if_pos (reaches_iff.mpr h.1),
    RoomStore.count_findAllSessionIdsForRoom hw]

/-- In every history of the rooms, whatever the sessions: a room message goes out once to each
session that is to receive it, and to no other, exactly when each of these sessions stands for
one account in the room. -/
theorem routeToRoom_once_iff (t : KeyedTable) (calls : List RoomManager.Call) (msg : Message)
    (roomId : String) :
    let rooms := Machine.run RoomManager.apply {} calls
    DeliversOnce t.table rooms msg roomId ↔
      ∀ sid a b, RoomReceiver t.table rooms msg roomId sid → rooms.Bound roomId a sid →
        rooms.Bound roomId b sid → a = b := by
  intro rooms
  have hw : rooms.WellFormed := RoomManager.run_wellFormed RoomStore.empty_wellFormed calls
  constructor
  · intro h sid a b hr ha hb
    have hlen : (rooms.accountsOf roomId sid).length = 1 := by
      rw [← sentTo_of_receiver t.keyed hw hr]
      exact h.once sid hr
    obtain ⟨c, hc⟩ := List.length_eq_one_iff.mp hlen
    have hone : ∀ {x}, rooms.Bound roomId x sid → x = c := by
      intro x hx
      have hmem := RoomStore.mem_accountsOf.mpr hx
      rw [hc] at hmem
      exact List.mem_singleton.mp hmem
    rw [hone ha, hone hb]
  · intro h
    refine ⟨fun sid hr => ?_, fun x hx => receiver_of_sent t.keyed hx⟩
    rw [sentTo_of_receiver t.keyed hw hr]
    obtain ⟨a, ha⟩ := hr.2
    have hmem : a ∈ rooms.accountsOf roomId sid := RoomStore.mem_accountsOf.mpr ha
    have hall : ∀ b ∈ rooms.accountsOf roomId sid, b = a := fun b hb =>
      h sid b a hr (RoomStore.mem_accountsOf.mp hb) ha
    have hnodup := RoomStore.accountsOf_nodup hw roomId sid
    rw [List.eq_replicate_of_mem hall, List.nodup_replicate] at hnodup
    exact Nat.le_antisymm hnodup (List.length_pos_of_mem hmem)

end Router

/-- A bot that has joined for two of its users gets every room message twice. -/
theorem bot_receives_twice :
    ¬ ∀ (t : KeyedTable) (calls : List RoomManager.Call) (msg : Message) (roomId : String),
      Router.DeliversOnce t.table (Machine.run RoomManager.apply {} calls) msg roomId := by
  intro h
  let t : KeyedTable := (KeyedTable.empty.authenticate "" "bot" (some .live)
    { permissions := [.receiveChat] }).2
  let calls : List RoomManager.Call := [.create "r" "" "general" "",
    .join id "" "r" "alice" "bot" "member", .join id "" "r" "bob" "bot" "member"]
  let msg : Message := { direction := .response, msgType := "chat", content := "hi" }
  have hbound : ∀ a ∈ ["alice", "bob"],
      (Machine.run RoomManager.apply {} calls).Bound "r" a "bot" := by
    intro a ha
    rw [← RoomStore.mem_accountsOf]
    exact ha
  have hr : Router.RoomReceiver t.table (Machine.run RoomManager.apply {} calls) msg "r" "bot" :=
    ⟨⟨_, rfl, rfl, rfl, rfl⟩, "alice", hbound "alice" (by decide)⟩
  have htwice := (h t calls msg "r").once "bot" hr
  exact absurd htwice (by decide)

end IrisMind.Sessions
