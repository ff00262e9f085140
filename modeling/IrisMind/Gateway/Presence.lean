import IrisMind.Rooms.Membership
import IrisMind.Sessions.Manager

/-! # Sessions behind the memberships

The session manager and the room store are kept in step by one event: a session
that is removed is announced, and the handler of the announcement takes the
session out of the memberships it finds, one after the other. Clients go on
joining, leaving and authenticating meanwhile. A binding is covered as long as
its session is active, or its announcement is still to be handled, or the
handler has the membership on its list. -/
namespace IrisMind.Gateway
open IrisMind.Lib IrisMind.Rooms IrisMind.Sessions

/-- `published` holds the announcements no handler has started on, `leaving` what the handlers
under way have still to do. -/
structure Presence where
  sessions : SessionTable
  rooms : RoomStore
  published : List String := []
  leaving : List (String × String × String) := []

inductive PresenceStep where
  | authenticate (accessToken newId : String) (conn : Option Connection) (msg : AuthMessage)
  | removeSession (sessionId : String)
  | room (call : RoomManager.Call)
  | begin (sessionId : String)
  | leaveNext (displayName : String → String) (now : String) (next : String × String × String)

namespace Presence

/-- `_on_session_disconnect`: the memberships the handler goes through. -/
def onSessionDisconnect (rooms : RoomStore) (sessionId : String) :
    List (String × String × String) :=
  (rooms.findActiveMembersContainingSession sessionId).map fun m =>
    (sessionId, m.roomId, m.accountId)

def step (p : Presence) : PresenceStep → Presence
  | .authenticate accessToken newId conn msg =>
    { p with sessions := (SessionManager.authenticate accessToken p.sessions newId conn msg).2 }
  | .removeSession sessionId =>
    let (event, sessions) := SessionManager.removeSession p.sessions sessionId
    { p with sessions, published := p.published ++ event.toList.map (·.sessionId) }
  | .room call => { p with rooms := RoomManager.apply p.rooms call }
  | .begin sessionId =>
    if sessionId ∈ p.published then
      { p with
        published := p.published.erase sessionId
        leaving := p.leaving ++ onSessionDisconnect p.rooms sessionId }
    else p
  | .leaveNext displayName now (sessionId, roomId, accountId) =>
    if (sessionId, roomId, accountId) ∈ p.leaving then
      { p with
        rooms := (RoomManager.leaveRoom displayName now p.rooms roomId accountId sessionId).store
        leaving := p.leaving.erase (sessionId, roomId, accountId) }
    else p

/-- Rooms without members, and nobody connected. -/
def start (rooms : List Room) : Presence := { sessions := .empty, rooms := { rooms } }

/-- All announcements have been handled. -/
def Quiet (p : Presence) : Prop := p.published = [] ∧ p.leaving = []

/-- Every session a membership is bound to is active. -/
def NoGhosts (p : Presence) : Prop :=
  ∀ roomId accountId sessionId, p.rooms.Bound roomId accountId sessionId →
    SessionManager.isSessionActive p.sessions sessionId = true

/-- The binding is of an active session, or will be looked at by a handler. -/
def Covers (p : Presence) (roomId accountId sessionId : String) : Prop :=
  SessionManager.isSessionActive p.sessions sessionId = true ∨ sessionId ∈ p.published ∨
    (sessionId, roomId, accountId) ∈ p.leaving

structure Covered (p : Presence) : Prop where
  rooms : p.rooms.WellFormed
  bindings : ∀ roomId accountId sessionId, p.rooms.Bound roomId accountId sessionId →
    p.Covers roomId accountId sessionId

theorem Covered.noGhosts {p : Presence} (h : p.Covered) (hq : p.Quiet) : p.NoGhosts := by
  intro roomId accountId sessionId hb
  rcases h.bindings _ _ _ hb with hactive | hpub | hleave
  · exact hactive
  · rw [hq.1] at hpub
    cases hpub
  · rw [hq.2] at hleave
    cases hleave

/-- No client takes the place of a session that a membership is bound to, and no client joins
with a session that is gone and whose handler will not look at the membership any more. -/
def ok (p : Presence) : PresenceStep → Prop
  | .authenticate accessToken _ _ msg =>
    accessToken = "" ∨ msg.accessToken = some accessToken →
      ∀ sessionId ∈ SessionManager.replaced p.sessions msg.sessionTag,
        ∀ roomId accountId, ¬ p.rooms.Bound roomId accountId sessionId
  | .room call => ∀ roomId accountId sessionId, call.binds p.rooms roomId accountId sessionId →
      p.Covers roomId accountId sessionId
  | _ => True

/-! ## What each step keeps -/

theorem covered_authenticate {p : Presence} (h : p.Covered) {accessToken newId : String}
    {conn : Option Connection} {msg : AuthMessage}
    (hok : p.ok (.authenticate accessToken newId conn msg)) :
    (p.step (.authenticate accessToken newId conn msg)).Covered := by
  refine ⟨h.rooms, fun roomId accountId sessionId hb => ?_⟩
  rcases h.bindings _ _ _ hb with hactive | hrest
  · left
    by_cases htoken : accessToken = "" ∨ msg.accessToken = some accessToken
    · refine SessionManager.isSessionActive_authenticate hactive fun hrep => ?_
      exact hok htoken sessionId hrep roomId accountId hb
    · obtain ⟨hne, hwrong⟩ := not_or.mp htoken
      have hrefused : (SessionManager.authenticate accessToken p.sessions newId conn msg).2 =
          p.sessions := by
        simp [SessionManager.authenticate, hne, hwrong]
      change SessionManager.isSessionActive
        (SessionManager.authenticate accessToken p.sessions newId conn msg).2 _ = true
      rw [hrefused]
      exact hactive
  · exact .inr hrest

theorem covered_removeSession {p : Presence} (h : p.Covered) (gone : String) :
    (p.step (.removeSession gone)).Covered := by
  refine ⟨h.rooms, fun roomId accountId sessionId hb => ?_⟩
  rcases h.bindings _ _ _ hb with hactive | hpub | hleave
  · by_cases hs : gone = sessionId
    · subst hs
      obtain ⟨s, hs, _⟩ := SessionManager.isSessionActive_iff.mp hactive
      refine .inr (.inl ?_)
      simp [step, SessionManager.removeSession, hs]
    · exact .inl (SessionManager.isSessionActive_removeSession hactive hs)
  · exact .inr (.inl (List.mem_append_left _ hpub))
  · exact .inr (.inr hleave)

theorem covered_room {p : Presence} (h : p.Covered) {call : RoomManager.Call}
    (hok : p.ok (.room call)) : (p.step (.room call)).Covered := by
  refine ⟨RoomManager.apply_wellFormed _ _ h.rooms, fun roomId accountId sessionId hb => ?_⟩
  rcases RoomManager.bound_of_apply h.rooms hb with hnew | hold
  · exact hok _ _ _ hnew
  · exact h.bindings _ _ _ hold

theorem mem_onSessionDisconnect {rooms : RoomStore} {roomId accountId sessionId : String}
    (h : rooms.Bound roomId accountId sessionId) :
    (sessionId, roomId, accountId) ∈ onSessionDisconnect rooms sessionId := by
  obtain ⟨m, hm, hof, hactive, hsession⟩ := h
  obtain ⟨hr, ha⟩ := Prod.mk.inj (RoomMember.isOf_iff.mp hof)
  refine List.mem_map.mpr ⟨m, List.mem_filter.mpr ⟨hm, ?_⟩, by rw [hr, ha]⟩
  rw [hactive, Bool.and_true]
  exact List.contains_iff_mem.mpr hsession

theorem covered_begin {p : Presence} (h : p.Covered) (sid : String) :
    (p.step (.begin sid)).Covered := by
  unfold step
  dsimp only
  split
  · refine ⟨h.rooms, fun roomId accountId sessionId hb => ?_⟩
    rcases h.bindings _ _ _ hb with hactive | hpub | hleave
    · exact .inl hactive
    · by_cases hs : sessionId = sid
      · subst hs
        exact .inr (.inr (List.mem_append_right _ (mem_onSessionDisconnect hb)))
      · exact .inr (.inl ((List.mem_erase_of_ne hs).mpr hpub))
    · exact .inr (.inr (List.mem_append_left _ hleave))
  · exact h

/-- The handler may strike a membership off its list, because the session has left it. -/
theorem covered_leaveNext {p : Presence} (h : p.Covered) (displayName : String → String)
    (now : String) (next : String × String × String) :
    (p.step (.leaveNext displayName now next)).Covered := by
  obtain ⟨sid, r, a⟩ := next
  unfold step
  dsimp only
  split
  · have hcall := RoomManager.apply_wellFormed p.rooms (.leave displayName now r a sid) h.rooms
    refine ⟨hcall, fun roomId accountId sessionId hb => ?_⟩
    have hold : p.rooms.Bound roomId accountId sessionId :=
      (RoomManager.bound_of_apply (c := .leave displayName now r a sid) h.rooms hb).resolve_left id
    rcases h.bindings _ _ _ hold with hactive | hpub | hleave
    · exact .inl hactive
    · exact .inr (.inl hpub)
    · refine .inr (.inr ((List.mem_erase_of_ne fun he => ?_).mpr hleave))
      cases he
      exact RoomManager.not_bound_leaveRoom h.rooms displayName now _ _ _ hb
  · exact h

theorem covered_step (p : Presence) (i : PresenceStep) (h : p.Covered) (hok : p.ok i) :
    (p.step i).Covered := by
  cases i with
  | authenticate accessToken newId conn msg => exact covered_authenticate h hok
  | removeSession sessionId => exact covered_removeSession h sessionId
  | room call => exact covered_room h hok
  | begin sessionId => exact covered_begin h sessionId
  | leaveNext displayName now next => exact covered_leaveNext h displayName now next

theorem covered_start (rooms : List Room) : (start rooms).Covered :=
  ⟨⟨List.nodup_nil, fun _ h => by cases h⟩, fun _ _ _ hb => by
    obtain ⟨_, hm, _⟩ := hb
    cases hm⟩

/-- In every interleaving whose steps all meet the condition: whenever all announcements have
been handled, every session a membership is bound to is active. -/
theorem run_noGhosts (rooms : List Room) (steps : List PresenceStep)
    (hg : Machine.Guarded step ok (start rooms) steps) :
    ∀ before, before <+: steps → (Machine.run step (start rooms) before).Quiet →
      (Machine.run step (start rooms) before).NoGhosts := by
  intro before hp hq
  exact ((hg.of_prefix hp).inv Covered covered_step (covered_start rooms)).noGhosts hq

/-- A session joins a room, goes, and its announcement is handled. -/
theorem run_noGhosts_joined_and_gone :
    (Machine.run step (start [{ roomId := "r", name := "general" }])
      [.authenticate "" "s" (some .live) { sessionTag := "t" },
        .room (.join id "" "r" "a" "s" "member"), .removeSession "s", .begin "s",
        .leaveNext id "" ("s", "r", "a")]).NoGhosts := by
  refine run_noGhosts _ _ ?_ _ (List.prefix_refl _) ⟨rfl, rfl⟩
  refine ⟨fun _ sid h => ?_, fun r a sid h => ?_, trivial, trivial, trivial, trivial⟩
  · cases h
  · obtain ⟨rfl, rfl, rfl, _⟩ := h
    exact .inl (by decide)

end Presence

/-- A client comes back under its tag: its first session is forgotten without a word, and the
membership stays bound to it for good. -/
theorem ghost_after_replacement :
    ¬ ∀ (rooms : List Room) (steps : List PresenceStep),
      (Machine.run Presence.step (Presence.start rooms) steps).Quiet →
        (Machine.run Presence.step (Presence.start rooms) steps).NoGhosts := by
  intro h
  let steps : List PresenceStep :=
    [.authenticate "" "s1" (some .live) { sessionTag := "t" },
      .room (.join id "" "r" "a" "s1" "member"),
      .authenticate "" "s2" (some .live) { sessionTag := "t" }, .removeSession "s1"]
  have hb : (Machine.run Presence.step (Presence.start [{ roomId := "r" }]) steps).rooms.Bound
      "r" "a" "s1" := ⟨_, List.mem_cons_self, rfl, rfl, List.mem_cons_self⟩
  have hactive := h [{ roomId := "r" }] steps ⟨rfl, rfl⟩ "r" "a" "s1" hb
  exact absurd hactive (by decide)

end IrisMind.Gateway
