import IrisMind.Rooms.Batcher

/-! # Presence

The short term memory keeps its own record of who is in which room, from the
joined and left events it is sent. It is a second copy of the membership, which
is to agree with the first when everything has been published. -/
namespace IrisMind.Memory
open IrisMind.Lib IrisMind.Events IrisMind.Rooms

structure ActiveUser where
  accountId : String
  displayName : String
deriving DecidableEq, Repr

structure PresenceTracker where
  activeUsers : Dict String String := .empty
  roomUsers : Dict String (List String) := .empty

namespace PresenceTracker

def addRoomUser (rooms : Dict String (List String)) (roomId accountId : String) :
    Dict String (List String) :=
  let (users, rooms) := rooms.setDefault roomId []
  if accountId ∈ users then rooms else rooms.set roomId (users ++ [accountId])

def removeRoomUser (rooms : Dict String (List String)) (roomId accountId : String) :
    Dict String (List String) :=
  let users := rooms.getD roomId []
  if accountId ∈ users then rooms.set roomId (users.erase accountId) else rooms

def addUser (p : PresenceTracker) (accountId displayName : String) (roomId : String := "") :
    PresenceTracker where
  activeUsers := p.activeUsers.set accountId displayName
  roomUsers := if roomId = "" then p.roomUsers else addRoomUser p.roomUsers roomId accountId

/-- The lists without the user; without a room it is taken out of all of them. -/
def roomUsersWithout (p : PresenceTracker) (accountId roomId : String) :
    Dict String (List String) :=
  if roomId = "" then p.roomUsers.mapValues (·.filter (· ≠ accountId))
  else removeRoomUser p.roomUsers roomId accountId

def removeUser (p : PresenceTracker) (accountId : String) (roomId : String := "") :
    PresenceTracker :=
  let roomUsers := p.roomUsersWithout accountId roomId
  if ∃ users ∈ roomUsers.values, accountId ∈ users then { p with roomUsers }
  else { activeUsers := p.activeUsers.erase accountId, roomUsers }

def getActiveUsers (p : PresenceTracker) : List ActiveUser :=
  p.activeUsers.entries.map fun e => ⟨e.1, e.2⟩

def getUsersByRoom (p : PresenceTracker) (roomId : String) : List ActiveUser :=
  ((p.roomUsers.getD roomId []).filter p.activeUsers.contains).map fun uid =>
    ⟨uid, p.activeUsers.getD uid uid⟩

/-- The handlers of the joined and left events. -/
def onNotice (p : PresenceTracker) : Notice → PresenceTracker
  | .joined e => p.addUser e.accountId e.displayName e.roomId
  | .joinedBatch _ joins => joins.foldl (fun p e => p.addUser e.accountId e.displayName e.roomId) p
  | .left e => p.removeUser e.accountId e.roomId

/-! ## What the tracker keeps -/

/-- The user is in the list of the room. -/
def In (p : PresenceTracker) (roomId accountId : String) : Prop :=
  accountId ∈ p.roomUsers.getD roomId []

/-- No user is twice in a room, and the active users are those in some room. -/
structure Sound (p : PresenceTracker) : Prop where
  lists : ∀ r, (p.roomUsers.getD r []).Nodup
  present : ∀ a, p.activeUsers.contains a = true ↔ ∃ r, p.In r a

theorem empty_sound : Sound {} where
  lists _ := List.nodup_nil
  present a := by simp [In, Dict.contains, Dict.getD]

theorem getD_set (rooms : Dict String (List String)) (r r' : String) (users : List String) :
    (rooms.set r users).getD r' [] = if r = r' then users else rooms.getD r' [] := by
  rw [Dict.getD, Dict.get?_set]
  split <;> rfl

theorem getD_addRoomUser (rooms : Dict String (List String)) (r a r' : String) :
    (addRoomUser rooms r a).getD r' [] =
      if r = r' ∧ a ∉ rooms.getD r' [] then rooms.getD r' [] ++ [a] else rooms.getD r' [] := by
  have hfirst : (rooms.setDefault r []).1 = rooms.getD r [] := Dict.setDefault_fst rooms r []
  unfold addRoomUser
  dsimp only
  rw [hfirst]
  by_cases hr : r = r'
  · subst hr
    by_cases ha : a ∈ rooms.getD r []
    · rw [if_pos ha, Dict.getD_setDefault, if_neg (not_and_of_not_right _ (not_not.mpr ha))]
    · rw [if_neg ha, getD_set, if_pos rfl, if_pos ⟨rfl, ha⟩]
  · rw [if_neg (not_and_of_not_left _ hr)]
    by_cases ha : a ∈ rooms.getD r []
    · rw [if_pos ha]
      exact Dict.getD_setDefault rooms r r' []
    · rw [if_neg ha, getD_set, if_neg hr, Dict.getD_setDefault]

theorem getD_removeRoomUser (rooms : Dict String (List String)) (r a r' : String) :
    (removeRoomUser rooms r a).getD r' [] =
      if r = r' then (rooms.getD r' []).erase a else rooms.getD r' [] := by
  unfold removeRoomUser
  dsimp only
  by_cases ha : a ∈ rooms.getD r []
  · rw [if_pos ha, getD_set]
    split
    · next hr => rw [hr]
    · rfl
  · rw [if_neg ha]
    split
    · next hr => rw [← hr, List.erase_of_not_mem ha]
    · rfl

theorem getD_mapValues (rooms : Dict String (List String)) (a r : String) :
    (rooms.mapValues (·.filter (· ≠ a))).getD r [] = (rooms.getD r []).filter (· ≠ a) := by
  rw [Dict.getD, Dict.get?_mapValues, Dict.getD]
  cases rooms.get? r <;> rfl

theorem in_addUser (p : PresenceTracker) {r : String} (hr : r ≠ "") (a name r' x : String) :
    (p.addUser a name r).In r' x ↔ (r', x) = (r, a) ∨ p.In r' x := by
  unfold In addUser
  dsimp only
  rw [if_neg hr, getD_addRoomUser]
  by_cases h : r = r'
  · subst h
    by_cases ha : a ∈ p.roomUsers.getD r []
    · rw [if_neg fun h => h.2 ha]
      refine (or_iff_right_of_imp fun hx => ?_).symm
      rw [(Prod.mk.inj hx).2]
      exact ha
    · rw [if_pos ⟨rfl, ha⟩]
      simp [or_comm]
  · rw [if_neg fun hx => h hx.1]
    exact (or_iff_right fun hx => h (Prod.mk.inj hx).1.symm).symm

theorem addUser_sound {p : PresenceTracker} (h : p.Sound) {r : String} (hr : r ≠ "")
    (a name : String) : (p.addUser a name r).Sound where
  lists r' := by
    unfold addUser
    dsimp only
    rw [if_neg hr, getD_addRoomUser]
    split
    · next hnew =>
      refine List.nodup_append.mpr ⟨h.lists r', List.nodup_singleton a, fun x hx y hy hxy => ?_⟩
      rw [hxy, List.mem_singleton.mp hy] at hx
      exact hnew.2 hx
    · exact h.lists r'
  present x := by
    have hset : (p.addUser a name r).activeUsers.contains x = true ↔
        a = x ∨ p.activeUsers.contains x = true := by
      unfold addUser Dict.contains
      rw [Dict.get?_set]
      split
      · next hx => simp [hx]
      · next hx => simp [hx]
    rw [hset, h.present]
    simp only [in_addUser p hr]
    constructor
    · rintro (rfl | ⟨r', hin⟩)
      · exact ⟨r, .inl rfl⟩
      · exact ⟨r', .inr hin⟩
    · rintro ⟨r', hnew | hin⟩
      · exact .inl (Prod.mk.inj hnew).2.symm
      · exact .inr ⟨r', hin⟩

theorem removeUser_roomUsers (p : PresenceTracker) (a r : String) :
    (p.removeUser a r).roomUsers = p.roomUsersWithout a r := by
  unfold removeUser
  dsimp only
  split <;> rfl

theorem getD_removeUser (p : PresenceTracker) (a r r' : String) :
    (p.removeUser a r).roomUsers.getD r' [] =
      if r = "" then (p.roomUsers.getD r' []).filter (· ≠ a)
      else if r = r' then (p.roomUsers.getD r' []).erase a else p.roomUsers.getD r' [] := by
  rw [removeUser_roomUsers, roomUsersWithout]
  split
  · exact getD_mapValues _ _ _
  · exact getD_removeRoomUser _ _ _ _

/-- The user stays active as long as some room still has it. -/
theorem removeUser_activeUsers (p : PresenceTracker) (a r : String) :
    (p.removeUser a r).activeUsers =
      if ∃ users ∈ (p.roomUsersWithout a r).values, a ∈ users then p.activeUsers
      else p.activeUsers.erase a := by
  unfold removeUser
  dsimp only
  split <;> rfl

theorem in_removeUser {p : PresenceTracker} (h : p.Sound) (a r r' x : String) :
    (p.removeUser a r).In r' x ↔ ¬ (x = a ∧ (r = "" ∨ r' = r)) ∧ p.In r' x := by
  unfold In
  rw [getD_removeUser]
  by_cases hr : r = ""
  · rw [if_pos hr]
    simp [hr, and_comm]
  · rw [if_neg hr]
    by_cases hr' : r = r'
    · subst hr'
      rw [if_pos rfl, (h.lists r).mem_erase_iff]
      simp
    · rw [if_neg hr']
      simp [hr, Ne.symm hr']

theorem exists_values_iff (rooms : Dict String (List String)) (a : String) :
    (∃ users ∈ rooms.values, a ∈ users) ↔ ∃ r, a ∈ rooms.getD r [] := by
  constructor
  · rintro ⟨users, hu, ha⟩
    obtain ⟨r, hr⟩ := Dict.mem_values_iff.mp hu
    exact ⟨r, by rw [Dict.getD, hr]; exact ha⟩
  · rintro ⟨r, ha⟩
    cases hr : rooms.get? r with
    | none =>
      rw [Dict.getD, hr] at ha
      cases ha
    | some users =>
      rw [Dict.getD, hr] at ha
      exact ⟨users, Dict.mem_values_of_get? hr, ha⟩

theorem removeUser_sound {p : PresenceTracker} (h : p.Sound) (a r : String) :
    (p.removeUser a r).Sound where
  lists r' := by
    rw [getD_removeUser]
    split
    · exact (h.lists r').filter _
    split
    · exact (h.lists r').erase a
    · exact h.lists r'
  present x := by
    have hstill : (∃ users ∈ (p.roomUsersWithout a r).values, a ∈ users) ↔
        ∃ r', (p.removeUser a r).In r' a := by
      rw [exists_values_iff, ← removeUser_roomUsers]
      rfl
    rw [removeUser_activeUsers]
    by_cases hx : x = a
    · subst hx
      split
      · next hyes =>
        obtain ⟨r', hin⟩ := hstill.mp hyes
        refine iff_of_true ((h.present x).mpr ⟨r', ?_⟩) ⟨r', hin⟩
        exact ((in_removeUser h x r r' x).mp hin).2
      · next hno =>
        refine iff_of_false ?_ fun hin => hno (hstill.mpr hin)
        simp [Dict.contains, Dict.get?_erase]
    · have hsame : ∀ r', (p.removeUser a r).In r' x ↔ p.In r' x := fun r' => by
        rw [in_removeUser h]
        exact and_iff_right fun hxa => hx hxa.1
      simp only [hsame]
      rw [← h.present]
      split
      · exact Iff.rfl
      · rw [Dict.contains, Dict.get?_erase, if_neg (Ne.symm hx), Dict.contains]

/-- The joined events of a batch, one after the other. -/
def addAll (p : PresenceTracker) (joins : List RoomJoinedEvent) : PresenceTracker :=
  joins.foldl (fun p e => p.addUser e.accountId e.displayName e.roomId) p

theorem onNotice_notice (p : PresenceTracker) (batch : Batch) :
    p.onNotice (RoomJoinBatcher.notice batch) = p.addAll batch.2 := by
  obtain ⟨roomId, events⟩ := batch
  match events with
  | [] => rfl
  | [_] => rfl
  | _ :: _ :: _ => rfl

theorem addAll_spec {joins : List RoomJoinedEvent} (hnamed : ∀ e ∈ joins, e.roomId ≠ "") :
    ∀ {p : PresenceTracker}, p.Sound → (p.addAll joins).Sound ∧ ∀ r a,
      (p.addAll joins).In r a ↔ (∃ e ∈ joins, joinedOf r a e = true) ∨ p.In r a := by
  induction joins with
  | nil =>
    intro p h
    exact ⟨h, fun r a => by simp [addAll]⟩
  | cons e rest ih =>
    intro p h
    have he := hnamed e List.mem_cons_self
    obtain ⟨hsound, hin⟩ := ih (fun x hx => hnamed x (List.mem_cons_of_mem _ hx))
      (addUser_sound h he e.accountId e.displayName)
    refine ⟨hsound, fun r a => (hin r a).trans ?_⟩
    rw [in_addUser p he, ← joinedOf_iff]
    simp only [List.mem_cons, or_and_right, exists_or, exists_eq_left]
    exact or_left_comm.trans or_assoc.symm

theorem mem_getUsersByRoom {p : PresenceTracker} (h : p.Sound) {r a : String} :
    a ∈ (p.getUsersByRoom r).map ActiveUser.accountId ↔ p.In r a := by
  have hids : (p.getUsersByRoom r).map ActiveUser.accountId =
      (p.roomUsers.getD r []).filter p.activeUsers.contains := by
    rw [getUsersByRoom, List.map_map]
    exact List.map_id _
  rw [hids, List.mem_filter]
  exact and_iff_left_of_imp fun hin => (h.present a).mpr ⟨r, hin⟩

theorem mem_getActiveUsers {p : PresenceTracker} (h : p.Sound) {a : String} :
    a ∈ p.getActiveUsers.map ActiveUser.accountId ↔ ∃ r, p.In r a := by
  rw [← h.present, getActiveUsers, List.map_map]
  constructor
  · intro ha
    obtain ⟨⟨uid, nick⟩, he, rfl⟩ := List.mem_map.mp ha
    exact Option.isSome_iff_exists.mpr ⟨nick, Dict.mem_entries_iff.mp he⟩
  · intro ha
    obtain ⟨nick, hn⟩ := Option.isSome_iff_exists.mp ha
    exact List.mem_map.mpr ⟨(a, nick), Dict.mem_entries_iff.mpr hn, rfl⟩

end PresenceTracker

/-! ## The two copies over a run -/

/-- A room has an id from the moment it is made. -/
abbrev IdentifiedRoom := { room : Room // room.roomId ≠ "" }

namespace Roster
open Lobby RoomStore RoomManager PresenceTracker

inductive Step where
  | room (i : Lobby.Step)
  | disconnect (displayName : String → String) (now : RoomMember → String) (sessionId : String)
  | cleanup

/-- The leaves of `_on_session_disconnect`. -/
def leaves (s : Lobby) (displayName : String → String) (now : RoomMember → String)
    (sessionId : String) : List Lobby.Step :=
  (s.store.findActiveMembersContainingSession sessionId).map fun m =>
    .leave displayName (now m) m.roomId m.accountId sessionId

def step (s : Lobby) : Step → Lobby
  | .room i => s.step i
  | .disconnect displayName now sessionId =>
    Machine.run Lobby.step s (leaves s displayName now sessionId)
  | .cleanup =>
    { s with store := (s.store.findRoomsByState .active).foldl RoomService.cleanupRoom s.store }

def start (rooms : List IdentifiedRoom) : Lobby := Lobby.start (rooms.map Subtype.val)

/-- What the handlers have made of the events published so far. -/
def tracker (s : Lobby) : PresenceTracker := s.published.foldl onNotice {}

theorem leave_store (s : Lobby) (run : LeaveRun) : (s.leave run).store = run.store := by
  unfold Lobby.leave
  split <;> rfl

/-- A delivery only moves events along. -/
def Delivers : Lobby.Step → Prop
  | .flush => True
  | .publish _ => True
  | _ => False

/-- Both copies say the same. -/
structure Agrees (s : Lobby) : Prop where
  byRoom : ∀ r a, a ∈ ((tracker s).getUsersByRoom r).map ActiveUser.accountId ↔ s.store.ActiveIn r a
  active : ∀ a, a ∈ (tracker s).getActiveUsers.map ActiveUser.accountId ↔
    ∃ r, s.store.ActiveIn r a
  once : ((tracker s).getActiveUsers.map ActiveUser.accountId).Nodup

/-- However the events on their way are published, the copies agree when all have been. -/
def AgreesOnceDelivered (s : Lobby) : Prop :=
  ∀ deliveries : List Lobby.Step, (∀ i ∈ deliveries, Delivers i) →
    (Machine.run Lobby.step s deliveries).inFlight = [] →
      Agrees (Machine.run Lobby.step s deliveries)

/-- The tracker will be told of the change in time: a leave that ends a membership finds no
joined event of it on its way, and nobody is in a room that is deleted. -/
def Reported (s : Lobby) : Step → Prop
  | .room (.delete roomId) => s.store.findMembersByRoom roomId = []
  | .room i => s.Admits i
  | .disconnect displayName now sessionId =>
    Machine.Guarded Lobby.step Lobby.Admits s (leaves s displayName now sessionId)
  | .cleanup => True

/-! ## What holds anyway -/

structure Recorded (s : Lobby) : Prop where
  wellFormed : s.store.WellFormed
  rooms : ∀ room ∈ s.store.rooms, room.roomId ≠ ""
  members : ∀ r a, s.store.ActiveIn r a → r ≠ ""
  named : ∀ e ∈ s.inFlight, e.roomId ≠ ""
  sound : (tracker s).Sound

theorem tracker_append (s t : Lobby) (n : Notice) (h : t.published = s.published ++ [n]) :
    tracker t = (tracker s).onNotice n := by
  rw [tracker, h, List.foldl_append]
  rfl

/-- The account is in the tracker's list of the room, or will be when its event is published. -/
def Heard (s : Lobby) (r a : String) : Prop :=
  (tracker s).In r a ∨ ∃ e ∈ s.inFlight, joinedOf r a e = true

theorem heard_flush (s : Lobby) (r a : String) : Heard s.flush r a ↔ Heard s r a :=
  or_congr_right (by simp only [s.flush_inFlight.mem_iff])

/-- Publishing a batch adds the users of its events. -/
theorem publish_tracker (s : Lobby) (thread : Nat) : s.publish thread = s ∨
    ∃ joins, tracker (s.publish thread) = (tracker s).addAll joins ∧
      s.inFlight.Perm (joins ++ (s.publish thread).inFlight) ∧
      (s.publish thread).store = s.store := by
  refine (s.publish_cases thread).imp id fun ⟨batch, rest, _, heq, hperm⟩ => ?_
  refine ⟨batch.2, ?_, hperm, by rw [heq]⟩
  rw [← onNotice_notice]
  exact tracker_append _ _ _ (by rw [heq])

theorem heard_publish {s : Lobby} (h : Recorded s) (thread : Nat) (r a : String) :
    Heard (s.publish thread) r a ↔ Heard s r a := by
  rcases publish_tracker s thread with heq | ⟨joins, htracker, hperm, _⟩
  · rw [heq]
  · have hnamed : ∀ e ∈ joins, e.roomId ≠ "" := fun e he =>
      h.named e (hperm.mem_iff.mpr (List.mem_append_left _ he))
    have hflight : (∃ e ∈ s.inFlight, joinedOf r a e = true) ↔
        (∃ e ∈ joins, joinedOf r a e = true) ∨
          ∃ e ∈ (s.publish thread).inFlight, joinedOf r a e = true := by
      simp only [hperm.mem_iff, List.mem_append, or_and_right, exists_or]
    rw [Heard, Heard, hflight, htracker, (addAll_spec hnamed h.sound).2]
    exact or_assoc.trans or_left_comm

/-- The store changes, and nobody becomes active or stops being it. -/
theorem Recorded.of_store {s : Lobby} (h : Recorded s) {store : RoomStore} (hw : store.WellFormed)
    (hactive : ∀ r a, store.ActiveIn r a → s.store.ActiveIn r a)
    (hrooms : store.rooms.Sublist s.store.rooms) : Recorded { s with store } where
  wellFormed := hw
  rooms room hroom := h.rooms room (hrooms.subset hroom)
  members r a ha := h.members r a (hactive r a ha)
  named := h.named
  sound := h.sound

theorem Recorded.step {s : Lobby} (h : Recorded s) (i : Lobby.Step) : Recorded (s.step i) := by
  cases i with
  | join displayName now roomId accountId sessionId role =>
    have hw := joinRoom_wellFormed h.wellFormed displayName now roomId accountId sessionId role
    have hrooms := joinRoom_rooms displayName now s.store roomId accountId sessionId role
    have hflight :=
      s.join_inFlight (joinRoom displayName now s.store roomId accountId sessionId role)
    unfold Lobby.step
    dsimp only
    rcases joinRoom_announces h.wellFormed displayName now roomId accountId sessionId role with
      ⟨hevent, hactive⟩ | ⟨hevent, hroom, _, hactive⟩
    · unfold Lobby.join
      rw [hevent]
      exact h.of_store hw (fun r a => (hactive r a).mp) hrooms
    · obtain ⟨room, hfound⟩ := Option.isSome_iff_exists.mp hroom
      have hid : roomId ≠ "" := by
        have hof := List.find?_some (p := fun x : Room => x.roomId == roomId) hfound
        rw [← eq_of_beq hof]
        exact h.rooms room (List.mem_of_find?_eq_some hfound)
      rw [hevent] at hflight
      refine ⟨?_, ?_, ?_, fun e he => ?_, ?_⟩
      · unfold Lobby.join
        rw [hevent]
        exact hw
      · unfold Lobby.join
        rw [hevent]
        exact fun room hr => h.rooms room (hrooms.subset hr)
      · unfold Lobby.join
        rw [hevent]
        intro r a ha
        rcases (hactive r a).mp ha with hself | hold
        · rw [(Prod.mk.inj hself).1]
          exact hid
        · exact h.members r a hold
      · rcases List.mem_append.mp (hflight.mem_iff.mp he) with hold | hnew
        · exact h.named e hold
        · rw [List.mem_singleton.mp hnew]
          exact hid
      · unfold Lobby.join
        rw [hevent]
        exact h.sound
  | leave displayName now roomId accountId sessionId =>
    have hw := leaveRoom_wellFormed h.wellFormed displayName now roomId accountId sessionId
    have hrooms := leaveRoom_rooms displayName now s.store roomId accountId sessionId
    unfold Lobby.step Lobby.leave
    dsimp only
    rcases leaveRoom_announces h.wellFormed displayName now roomId accountId sessionId with
      ⟨hevent, hactive⟩ | ⟨hevent, _, hactive⟩
    · rw [hevent]
      exact h.of_store hw (fun r a => (hactive r a).mp) hrooms
    · rw [hevent]
      have hstore := h.of_store hw (fun r a ha => ((hactive r a).mp ha).2) hrooms
      refine ⟨hw, hstore.rooms, hstore.members, h.named, ?_⟩
      rw [tracker_append s _ _ rfl]
      exact removeUser_sound h.sound _ _
  | delete roomId =>
    exact h.of_store (h.wellFormed.of_sublist (deleteRoom_members s.store roomId))
      (fun r a ha => ((activeIn_deleteRoom _ _ _ _).mp ha).2) List.filter_sublist
  | flush =>
    exact ⟨h.wellFormed, h.rooms, h.members,
      fun e he => h.named e (s.flush_inFlight.mem_iff.mp he), h.sound⟩
  | publish thread =>
    unfold Lobby.step
    dsimp only
    rcases publish_tracker s thread with heq | ⟨joins, htracker, hperm, hstore⟩
    · rw [heq]
      exact h
    · have hnamed : ∀ e ∈ s.inFlight, e.roomId ≠ "" := h.named
      simp only [hperm.mem_iff, List.mem_append] at hnamed
      refine ⟨?_, ?_, ?_, fun e he => hnamed e (.inr he), ?_⟩
      · rw [hstore]
        exact h.wellFormed
      · rw [hstore]
        exact h.rooms
      · rw [hstore]
        exact h.members
      · rw [htracker]
        exact (addAll_spec (fun e he => hnamed e (.inl he)) h.sound).1

/-! ## What the guard decides -/

/-- The accounts of a room are those its tracker has heard of, or will. -/
def Faithful (s : Lobby) : Prop := ∀ r a, s.store.ActiveIn r a ↔ Heard s r a

theorem findMembersByRoom_eq_nil (s : RoomStore) (roomId : String) :
    s.findMembersByRoom roomId = [] ↔ ∀ a, ¬ s.ActiveIn roomId a := by
  rw [findMembersByRoom, List.filter_eq_nil_iff]
  constructor
  · rintro h a ⟨m, hm, hk, hyes⟩
    refine h m hm (Bool.and_eq_true_iff.mpr ⟨?_, hyes⟩)
    exact beq_iff_eq.mpr (congrArg Prod.fst hk)
  · intro h m hm hboth
    obtain ⟨hr, hyes⟩ := Bool.and_eq_true_iff.mp hboth
    exact h m.accountId ⟨m, hm, Prod.ext (eq_of_beq hr) rfl, hyes⟩

theorem faithful_join {s : Lobby} (h : Recorded s) (hf : Faithful s)
    (displayName : String → String) (now roomId accountId sessionId role : String) :
    Faithful (s.join (joinRoom displayName now s.store roomId accountId sessionId role)) := by
  have hflight := s.join_inFlight (joinRoom displayName now s.store roomId accountId sessionId role)
  rcases joinRoom_announces h.wellFormed displayName now roomId accountId sessionId role with
    ⟨hevent, hactive⟩ | ⟨hevent, _, _, hactive⟩
  · unfold Lobby.join
    rw [hevent]
    exact fun r a => (hactive r a).trans (hf r a)
  · rw [hevent] at hflight
    have htracker : tracker (s.join
        (joinRoom displayName now s.store roomId accountId sessionId role)) = tracker s := by
      unfold Lobby.join
      rw [hevent]
      rfl
    have hstore : (s.join
        (joinRoom displayName now s.store roomId accountId sessionId role)).store =
        (joinRoom displayName now s.store roomId accountId sessionId role).store := by
      unfold Lobby.join
      rw [hevent]
    intro r a
    rw [hstore, hactive r a, hf r a, Heard, Heard, htracker]
    simp only [hflight.mem_iff, Option.toList_some, List.mem_append, List.mem_singleton,
      or_and_right, exists_or, exists_eq_left, joinedOf_iff]
    exact or_comm.trans or_assoc

/-- After a leave that is announced the tracker agrees, unless a joined event is to come. -/
theorem faithful_left {s t : Lobby} (h : Recorded s) (hf : Faithful s) {e : RoomLeftEvent}
    (hactive : ∀ r a, t.store.ActiveIn r a ↔
      (r, a) ≠ (e.roomId, e.accountId) ∧ s.store.ActiveIn r a)
    (he : e.roomId ≠ "") (hpublished : t.published = s.published ++ [.left e])
    (hflight : t.inFlight = s.inFlight) :
    Faithful t ↔ ∀ x ∈ s.inFlight, joinedOf e.roomId e.accountId x = false := by
  have htracker : ∀ r a, (tracker t).In r a ↔
      (r, a) ≠ (e.roomId, e.accountId) ∧ (tracker s).In r a := by
    intro r a
    rw [tracker_append s t _ hpublished]
    refine (in_removeUser h.sound _ _ _ _).trans (and_congr_left fun _ => not_congr ?_)
    rw [Prod.mk.injEq, or_iff_right he, and_comm]
  have hpair : ∀ r a, (t.store.ActiveIn r a ↔ Heard t r a) ↔
      ((r, a) = (e.roomId, e.accountId) → ∀ x ∈ s.inFlight, joinedOf r a x = false) := by
    intro r a
    rw [hactive, hf, Heard, Heard, hflight, htracker]
    by_cases hra : (r, a) = (e.roomId, e.accountId)
    · simp [hra]
    · simp [hra]
  unfold Faithful
  simp only [hpair]
  constructor
  · exact fun hall => hall _ _ rfl
  · intro hall r a hra
    obtain ⟨rfl, rfl⟩ := Prod.mk.inj hra
    exact hall

theorem faithful_leave {s : Lobby} (h : Recorded s) (hf : Faithful s)
    (displayName : String → String) (now roomId accountId sessionId : String) :
    Faithful (s.step (.leave displayName now roomId accountId sessionId)) ↔
      s.Admits (.leave displayName now roomId accountId sessionId) := by
  have hends := leaveRoom_event_eq_none_iff h.wellFormed displayName now roomId accountId sessionId
  unfold Lobby.step Lobby.leave Lobby.Admits
  dsimp only
  rcases leaveRoom_announces h.wellFormed displayName now roomId accountId sessionId with
    ⟨hevent, hactive⟩ | ⟨hevent, hyes, hactive⟩
  · rw [hevent]
    refine iff_of_true (fun r a => ?_) fun hyes => absurd hyes (hends.mp hevent)
    exact (hactive r a).trans (hf r a)
  · have hmust : EndsMembership s.store roomId accountId sessionId := by
      by_contra hno
      rw [hends.mpr hno] at hevent
      cases hevent
    rw [hevent, forall_prop_of_true hmust]
    exact faithful_left (e := ⟨roomId, accountId, displayName accountId⟩) h hf hactive
      (h.members _ _ hyes) rfl rfl

theorem faithful_step {s : Lobby} (h : Recorded s) (hf : Faithful s) (i : Lobby.Step) :
    Faithful (s.step i) ↔ Reported s (.room i) := by
  cases i with
  | join displayName now roomId accountId sessionId role =>
    exact iff_of_true (faithful_join h hf _ _ _ _ _ _) trivial
  | leave displayName now roomId accountId sessionId => exact faithful_leave h hf _ _ _ _ _
  | delete roomId =>
    show Faithful { s with store := s.store.deleteRoom roomId } ↔
      s.store.findMembersByRoom roomId = []
    rw [findMembersByRoom_eq_nil]
    have hpair : ∀ r a, ((s.store.deleteRoom roomId).ActiveIn r a ↔ Heard s r a) ↔
        (r = roomId → ¬ s.store.ActiveIn r a) := by
      intro r a
      rw [activeIn_deleteRoom, ← hf r a]
      by_cases hr : r = roomId
      · simp [hr]
      · simp [hr]
    constructor
    · exact fun hall a => (hpair roomId a).mp (hall roomId a) rfl
    · exact fun hnone r a => (hpair r a).mpr fun hr => hr ▸ hnone a
  | flush => exact iff_of_true (fun r a => (hf r a).trans (heard_flush s r a).symm) trivial
  | publish thread =>
    refine iff_of_true (fun r a => ?_) trivial
    show (s.publish thread).store.ActiveIn r a ↔ Heard (s.publish thread) r a
    have hstore : (s.publish thread).store = s.store := by
      rcases publish_tracker s thread with heq | ⟨_, _, _, hstore⟩
      · rw [heq]
      · exact hstore
    rw [hstore, heard_publish h]
    exact hf r a

/-! ## Sessions that go, and the cleanup -/

/-- A joined event is on its way for an account that is no member any more. -/
def Stale (s : Lobby) : Prop :=
  ∃ r a, ¬ s.store.ActiveIn r a ∧ ∃ e ∈ s.inFlight, joinedOf r a e = true

theorem Stale.not_faithful {s : Lobby} (h : Stale s) : ¬ Faithful s := by
  intro hf
  obtain ⟨r, a, hno, he⟩ := h
  exact hno ((hf r a).mpr (.inr he))

/-- A leave takes nothing off its way, and makes nobody a member. -/
theorem leave_lessens {s : Lobby} (h : s.store.WellFormed) (displayName : String → String)
    (now roomId accountId sessionId : String) :
    let t := s.step (.leave displayName now roomId accountId sessionId)
    t.inFlight = s.inFlight ∧ ∀ r a, t.store.ActiveIn r a → s.store.ActiveIn r a := by
  intro t
  have ht : t = s.leave (leaveRoom displayName now s.store roomId accountId sessionId) := rfl
  rcases leaveRoom_announces h displayName now roomId accountId sessionId with
    ⟨hevent, hactive⟩ | ⟨hevent, _, hactive⟩
  · rw [ht, Lobby.leave, hevent]
    exact ⟨rfl, fun r a => (hactive r a).mp⟩
  · rw [ht, Lobby.leave, hevent]
    exact ⟨rfl, fun r a ha => ((hactive r a).mp ha).2⟩

/-- What one leave spoils no other one mends. -/
theorem faithful_leaves {s : Lobby} (h : Recorded s) {is : List Lobby.Step}
    (hleave : ∀ i ∈ is, ∃ displayName now roomId accountId sessionId,
      i = .leave displayName now roomId accountId sessionId) :
    (Stale s → Stale (Machine.run Lobby.step s is)) ∧ (Faithful s →
      (Faithful (Machine.run Lobby.step s is) ↔
        Machine.Guarded Lobby.step Lobby.Admits s is)) := by
  induction is generalizing s with
  | nil => exact ⟨id, fun hf => iff_of_true hf trivial⟩
  | cons i is ih =>
    obtain ⟨displayName, now, roomId, accountId, sessionId, rfl⟩ := hleave i List.mem_cons_self
    obtain ⟨hflight, hless⟩ := leave_lessens h.wellFormed displayName now roomId accountId sessionId
    obtain ⟨hstale, hfaithful⟩ := ih (h.step _) fun j hj => hleave j (List.mem_cons_of_mem _ hj)
    refine ⟨fun hs => hstale ?_, fun hf => ?_⟩
    · obtain ⟨r, a, hno, he⟩ := hs
      exact ⟨r, a, fun hyes => hno (hless r a hyes), by rwa [hflight]⟩
    · by_cases hok : s.Admits (.leave displayName now roomId accountId sessionId)
      · rw [Machine.run_cons, Machine.Guarded, and_iff_right hok]
        exact hfaithful ((faithful_leave h hf _ _ _ _ _).mpr hok)
      · refine iff_of_false (Stale.not_faithful (hstale ?_)) fun hg => hok hg.1
        obtain ⟨hends, hsome⟩ := Classical.not_imp.mp hok
        obtain ⟨e, he, hof⟩ : ∃ e ∈ s.inFlight, joinedOf roomId accountId e = true := by
          by_contra hnone
          refine hsome fun e he => ?_
          cases hof : joinedOf roomId accountId e with
          | false => rfl
          | true => exact absurd ⟨e, he, hof⟩ hnone
        refine ⟨roomId, accountId, ?_, e, hflight ▸ he, hof⟩
        rcases leaveRoom_announces h.wellFormed displayName now roomId accountId sessionId with
          ⟨hevent, _⟩ | ⟨_, _, hactive⟩
        · exact absurd hends ((leaveRoom_event_eq_none_iff h.wellFormed _ _ _ _ _).mp hevent)
        · show ¬ (s.leave _).store.ActiveIn roomId accountId
          rw [leave_store, hactive]
          exact fun hyes => hyes.1 rfl

theorem cleanupRoom_activeIn (s : RoomStore) (room : Room) (r a : String) :
    (RoomService.cleanupRoom s room).ActiveIn r a ↔ s.ActiveIn r a := by
  unfold RoomService.cleanupRoom
  split
  · exact Iff.rfl
  next hempty =>
  split
  · exact Iff.rfl
  · refine (activeIn_deleteRoom s room.roomId r a).trans ?_
    refine and_iff_right_of_imp fun hyes hr => ?_
    have hnil : s.findMembersByRoom room.roomId = [] := by simpa using hempty
    exact (findMembersByRoom_eq_nil s _).mp hnil a (hr ▸ hyes)

theorem cleanup_activeIn (rooms : List Room) (s : RoomStore) (r a : String) :
    (rooms.foldl RoomService.cleanupRoom s).ActiveIn r a ↔ s.ActiveIn r a := by
  induction rooms generalizing s with
  | nil => exact Iff.rfl
  | cons room rest ih =>
    rw [List.foldl_cons, ih]
    exact cleanupRoom_activeIn s room r a

theorem cleanupRoom_sublist (s : RoomStore) (room : Room) :
    (RoomService.cleanupRoom s room).rooms.Sublist s.rooms ∧
      (RoomService.cleanupRoom s room).members.Sublist s.members := by
  unfold RoomService.cleanupRoom
  split
  · exact ⟨List.Sublist.refl _, List.Sublist.refl _⟩
  split
  · exact ⟨List.Sublist.refl _, List.Sublist.refl _⟩
  · exact ⟨List.filter_sublist, List.filter_sublist⟩

theorem cleanup_sublist (rooms : List Room) (s : RoomStore) :
    (rooms.foldl RoomService.cleanupRoom s).rooms.Sublist s.rooms ∧
      (rooms.foldl RoomService.cleanupRoom s).members.Sublist s.members := by
  induction rooms generalizing s with
  | nil => exact ⟨List.Sublist.refl _, List.Sublist.refl _⟩
  | cons room rest ih =>
    obtain ⟨hr, hm⟩ := cleanupRoom_sublist s room
    obtain ⟨hr', hm'⟩ := ih (RoomService.cleanupRoom s room)
    exact ⟨hr'.trans hr, hm'.trans hm⟩

/-! ## The guard is exact -/

theorem leaves_are_leaves (s : Lobby) (displayName : String → String) (now : RoomMember → String)
    (sessionId : String) : ∀ i ∈ leaves s displayName now sessionId,
      ∃ displayName now roomId accountId sessionId,
        i = .leave displayName now roomId accountId sessionId := by
  intro i hi
  obtain ⟨m, _, rfl⟩ := List.mem_map.mp hi
  exact ⟨_, _, _, _, _, rfl⟩

theorem recorded_step (s : Lobby) (i : Step) (h : Recorded s) : Recorded (step s i) := by
  cases i with
  | room i => exact h.step i
  | disconnect displayName now sessionId =>
    exact Machine.run_inv Recorded (fun _ i h => h.step i) h _
  | cleanup =>
    obtain ⟨hr, hm⟩ := cleanup_sublist (s.store.findRoomsByState .active) s.store
    exact h.of_store (h.wellFormed.of_sublist hm) (fun r a => (cleanup_activeIn _ _ r a).mp) hr

theorem faithful_step_iff (s : Lobby) (i : Step) (h : Recorded s) (hf : Faithful s) :
    Faithful (step s i) ↔ Reported s i := by
  cases i with
  | room i => exact faithful_step h hf i
  | disconnect displayName now sessionId =>
    exact (faithful_leaves h (leaves_are_leaves s displayName now sessionId)).2 hf
  | cleanup =>
    exact iff_of_true (fun r a => (cleanup_activeIn _ _ r a).trans (hf r a)) trivial

theorem recorded_start (rooms : List IdentifiedRoom) : Recorded (start rooms) where
  wellFormed := ⟨List.nodup_nil, fun _ h => by cases h⟩
  rooms room h := by
    obtain ⟨identified, _, rfl⟩ := List.mem_map.mp h
    exact identified.2
  members r a h := by
    obtain ⟨_, hm, _⟩ := h
    cases hm
  named e h := by cases h
  sound := empty_sound

theorem faithful_start (rooms : List IdentifiedRoom) : Faithful (start rooms) := by
  intro r a
  refine iff_of_false (fun h => ?_) fun h => ?_
  · obtain ⟨_, hm, _⟩ := h
    cases hm
  · rcases h with h | ⟨_, h, _⟩
    · cases h
    · cases h

/-! ## Everything delivered -/

/-- Deliveries change neither the store nor what the tracker has heard of, or will. -/
theorem deliver_keeps {s : Lobby} (h : Recorded s) {deliveries : List Lobby.Step}
    (hd : ∀ i ∈ deliveries, Delivers i) :
    Recorded (Machine.run Lobby.step s deliveries) ∧
      (Machine.run Lobby.step s deliveries).store = s.store ∧
      ∀ r a, Heard (Machine.run Lobby.step s deliveries) r a ↔ Heard s r a := by
  induction deliveries generalizing s with
  | nil => exact ⟨h, rfl, fun _ _ => Iff.rfl⟩
  | cons i rest ih =>
    have hone : (s.step i).store = s.store ∧ ∀ r a, Heard (s.step i) r a ↔ Heard s r a := by
      cases i with
      | flush => exact ⟨rfl, heard_flush s⟩
      | publish thread =>
        refine ⟨?_, heard_publish h thread⟩
        rcases publish_tracker s thread with heq | ⟨_, _, _, hstore⟩
        · exact congrArg Lobby.store heq
        · exact hstore
      | join displayName now roomId accountId sessionId role =>
        exact (hd _ List.mem_cons_self).elim
      | leave displayName now roomId accountId sessionId =>
        exact (hd _ List.mem_cons_self).elim
      | delete roomId => exact (hd _ List.mem_cons_self).elim
    obtain ⟨hr, hstore, hheard⟩ := ih (h.step i) fun j hj => hd j (List.mem_cons_of_mem _ hj)
    exact ⟨hr, hstore.trans hone.1, fun r a => (hheard r a).trans (hone.2 r a)⟩

/-- The threads in `_flush` can always go on to their end. -/
theorem exists_publishing (n : Nat) (s : Lobby) (hpending : s.pending.entries = [])
    (hlength : s.flushing.flatten.length = n) : ∃ deliveries : List Lobby.Step,
      (∀ i ∈ deliveries, Delivers i) ∧ (Machine.run Lobby.step s deliveries).inFlight = [] := by
  induction n generalizing s with
  | zero =>
    refine ⟨[], (fun _ h => by cases h), ?_⟩
    have hnone := List.flatten_eq_nil_iff.mp (List.length_eq_zero_iff.mp hlength)
    show s.inFlight = []
    rw [inFlight, hpending, List.flatMap_nil, List.nil_append, List.flatMap_eq_nil_iff]
    intro batches hb
    rw [hnone batches hb]
    rfl
  | succ n ih =>
    have hsome : s.flushing.flatten ≠ [] := by
      intro hnil
      rw [hnil] at hlength
      cases hlength
    obtain ⟨batches, hb, hne⟩ : ∃ batches ∈ s.flushing, batches ≠ [] := by
      by_contra hnone
      refine hsome (List.flatten_eq_nil_iff.mpr fun batches hb => ?_)
      by_contra hne
      exact hnone ⟨batches, hb, hne⟩
    obtain ⟨batch, rest, rfl⟩ := List.exists_cons_of_ne_nil hne
    obtain ⟨thread, hthread⟩ := List.mem_iff_getElem?.mp hb
    have hperm := flatMap_set_perm (f := id) (y := rest) (z := [batch]) rfl hthread
    have hstep : (s.publish thread).flushing = s.flushing.set thread rest ∧
        (s.publish thread).pending = s.pending := by
      unfold Lobby.publish
      rw [hthread]
      exact ⟨rfl, rfl⟩
    have hless : (s.publish thread).flushing.flatten.length = n := by
      have hcount := hperm.length_eq
      rw [List.flatMap_id, List.flatMap_id, List.length_append, List.length_singleton] at hcount
      rw [hstep.1]
      omega
    obtain ⟨deliveries, hd, hdone⟩ := ih (s.publish thread) (hstep.2 ▸ hpending) hless
    exact ⟨.publish thread :: deliveries, List.forall_mem_cons.mpr ⟨trivial, hd⟩, hdone⟩

theorem exists_delivery (s : Lobby) : ∃ deliveries : List Lobby.Step,
    (∀ i ∈ deliveries, Delivers i) ∧ (Machine.run Lobby.step s deliveries).inFlight = [] := by
  obtain ⟨deliveries, hd, hdone⟩ := exists_publishing _ s.flush rfl rfl
  exact ⟨.flush :: deliveries, List.forall_mem_cons.mpr ⟨trivial, hd⟩, hdone⟩

theorem agrees_iff {s : Lobby} (h : Recorded s) (hnone : s.inFlight = []) :
    Agrees s ↔ Faithful s := by
  have hheard : ∀ r a, Heard s r a ↔ (tracker s).In r a := by
    intro r a
    rw [Heard, hnone]
    simp
  constructor
  · intro ha r a
    rw [hheard, ← mem_getUsersByRoom h.sound, ha.byRoom]
  · intro hf
    have hin : ∀ r a, (tracker s).In r a ↔ s.store.ActiveIn r a := fun r a =>
      (hheard r a).symm.trans (hf r a).symm
    refine ⟨fun r a => ?_, fun a => ?_, ?_⟩
    · rw [mem_getUsersByRoom h.sound, hin]
    · simp only [mem_getActiveUsers h.sound, hin]
    · rw [getActiveUsers, List.map_map]
      exact (tracker s).activeUsers.nodup

theorem agreesOnceDelivered_iff {s : Lobby} (h : Recorded s) :
    AgreesOnceDelivered s ↔ Faithful s := by
  constructor
  · intro hall r a
    obtain ⟨deliveries, hd, hdone⟩ := exists_delivery s
    obtain ⟨hr, hstore, hheard⟩ := deliver_keeps h hd
    have hf := (agrees_iff hr hdone).mp (hall deliveries hd hdone) r a
    rwa [hstore, hheard] at hf
  · intro hf deliveries hd hdone
    obtain ⟨hr, hstore, hheard⟩ := deliver_keeps h hd
    refine (agrees_iff hr hdone).mpr fun r a => ?_
    rw [hstore, hheard]
    exact hf r a

/-- The copies agree all along a run, whenever everything is delivered, exactly when every step
of it is reported. -/
theorem agrees_all_along_iff (rooms : List IdentifiedRoom) (steps : List Step) :
    (∀ before, before <+: steps → AgreesOnceDelivered (Machine.run step (start rooms) before)) ↔
      Machine.Guarded step Reported (start rooms) steps := by
  have hrecorded : ∀ before, Recorded (Machine.run step (start rooms) before) := fun before =>
    Machine.run_inv Recorded recorded_step (recorded_start rooms) before
  rw [← Machine.guarded_iff Recorded Faithful recorded_step faithful_step_iff
    (recorded_start rooms) (faithful_start rooms) steps]
  exact forall₂_congr fun before _ => agreesOnceDelivered_iff (hrecorded before)

/-- A room is deleted while somebody is in it, and the tracker is not told. -/
theorem deleted_while_present :
    ¬ ∀ (rooms : List IdentifiedRoom) (steps : List Step),
      AgreesOnceDelivered (Machine.run step (start rooms) steps) := by
  intro h
  have hagrees := h [⟨{ roomId := "r", name := "general" }, by decide⟩]
    [.room (.join id "" "r" "a" "s" "member"), .room .flush, .room (.publish 0),
      .room (.delete "r")] [] (fun _ hi => by cases hi) rfl
  obtain ⟨m, hm, _⟩ := (hagrees.byRoom "r" "a").mp (by decide)
  cases hm

end Roster

end IrisMind.Memory
