import IrisMind.Events
import IrisMind.Lib.Rows

/-! # Rooms and their members

The store keeps rooms and memberships in two lists; a membership ends by getting
a disconnect time and may come back to life. An active membership lists the
sessions it is bound to. -/
namespace IrisMind.Rooms
open IrisMind.Lib IrisMind.Events

inductive RoomState where
  | active
  | archived
deriving DecidableEq, Repr

structure Room where
  roomId : String
  name : String := ""
  description : String := ""
  topic : String := ""
  state : RoomState := .active
  createdBy : String := ""
  createdAt : String := ""
  updatedAt : Option String := none
  metadata : List (String × Json) := []

structure RoomMember where
  roomId : String
  accountId : String
  sessionIds : List String := []
  role : String := "member"
  joinedAt : String := ""
  disconnectedAt : Option String := none
deriving DecidableEq, Repr

def RoomMember.isActive (m : RoomMember) : Bool := m.disconnectedAt.isNone

/-- The membership of an account in a room. -/
def RoomMember.isOf (m : RoomMember) (roomId accountId : String) : Bool :=
  m.roomId == roomId && m.accountId == accountId

structure RoomStore where
  rooms : List Room := []
  members : List RoomMember := []

namespace RoomStore

def addMember (s : RoomStore) (m : RoomMember) : RoomStore :=
  { s with members := s.members ++ [m] }

/-- Replace the first membership of the member's room and account. -/
def updateMember (s : RoomStore) (m : RoomMember) : RoomStore :=
  { s with members := Rows.replaceFirst (·.isOf m.roomId m.accountId) m s.members }

def findRoomById (s : RoomStore) (roomId : String) : Option Room :=
  s.rooms.find? (·.roomId == roomId)

def findMember (s : RoomStore) (roomId accountId : String) : Option RoomMember :=
  s.members.find? (·.isOf roomId accountId)

def findAllSessionIdsForRoom (s : RoomStore) (roomId : String) : List String :=
  (s.members.filter fun m => m.roomId == roomId && m.isActive).flatMap (·.sessionIds)

theorem mem_updateMember {s : RoomStore} {m : RoomMember}
    (h : ∃ x ∈ s.members, x.isOf m.roomId m.accountId = true) :
    m ∈ (s.updateMember m).members := Rows.mem_replaceFirst h

/-- The account is an active member of the room, bound to the session. -/
def Bound (s : RoomStore) (roomId accountId sessionId : String) : Prop :=
  ∃ m ∈ s.members, m.isOf roomId accountId = true ∧ m.isActive = true ∧ sessionId ∈ m.sessionIds

theorem Bound.mem_sessionIds {s : RoomStore} {roomId accountId sessionId : String}
    (h : s.Bound roomId accountId sessionId) :
    sessionId ∈ s.findAllSessionIdsForRoom roomId := by
  obtain ⟨m, hm, hof, hactive, hsession⟩ := h
  obtain ⟨hroom, _⟩ := Bool.and_eq_true_iff.mp hof
  refine List.mem_flatMap.mpr ⟨m, List.mem_filter.mpr ⟨hm, ?_⟩, hsession⟩
  exact Bool.and_eq_true_iff.mpr ⟨hroom, hactive⟩

end RoomStore

namespace RoomManager

/-- What `join_room` leaves, whether it succeeded, and the event it hands to the batcher. -/
structure JoinRun where
  store : RoomStore
  joined : Bool
  event : Option RoomJoinedEvent := none

def joinRoom (displayName : String → String) (now : String) (s : RoomStore)
    (roomId accountId sessionId : String) (role : String := "member") : JoinRun :=
  let sessionIds := if sessionId = "" then [] else [sessionId]
  let event : RoomJoinedEvent := ⟨roomId, accountId, displayName accountId⟩
  match s.findRoomById roomId with
  | none => { store := s, joined := false }
  | some room =>
    if room.state ≠ .active then { store := s, joined := false }
    else match s.findMember roomId accountId with
      | some existing =>
        if existing.isActive then
          if sessionId ≠ "" && !existing.sessionIds.contains sessionId then
            { store := s.updateMember
                { existing with sessionIds := existing.sessionIds ++ [sessionId] }
              joined := true }
          else { store := s, joined := true }
        else
          { store := s.updateMember
              { existing with disconnectedAt := none, sessionIds, joinedAt := now, role }
            joined := true
            event := some event }
      | none =>
        { store := s.addMember { roomId, accountId, sessionIds, role, joinedAt := now }
          joined := true
          event := some event }

/-- A session that joins an active room is bound to the account's membership in it. -/
theorem joinRoom_bound (displayName : String → String) (now : String) {s : RoomStore}
    {roomId accountId sessionId : String} (role : String) {room : Room}
    (hroom : s.findRoomById roomId = some room) (hactive : room.state = .active)
    (hsession : sessionId ≠ "") :
    (joinRoom displayName now s roomId accountId sessionId role).store.Bound roomId accountId
      sessionId := by
  have hids : ∀ {m : RoomMember}, m.isOf roomId accountId = true →
      m.roomId = roomId ∧ m.accountId = accountId := by
    intro m h
    simpa [RoomMember.isOf] using h
  simp only [joinRoom, hroom, hactive, ne_eq, not_true_eq_false, if_false, hsession]
  cases hfind : s.findMember roomId accountId with
  | none =>
    refine ⟨_, List.mem_append_right _ List.mem_cons_self, ?_, rfl, List.mem_cons_self⟩
    simp [RoomMember.isOf]
  | some existing =>
    have hexisting : existing.isOf roomId accountId = true :=
      List.find?_some (p := fun m : RoomMember => m.isOf roomId accountId) hfind
    have hmem : existing ∈ s.members := List.mem_of_find?_eq_some hfind
    have hold : ∃ x ∈ s.members, x.isOf existing.roomId existing.accountId = true := by
      obtain ⟨hr, ha⟩ := hids hexisting
      exact ⟨existing, hmem, by rw [hr, ha]; exact hexisting⟩
    dsimp only
    split
    · next hlive =>
      split
      · exact ⟨_, RoomStore.mem_updateMember hold, hexisting, hlive,
          List.mem_append_right _ List.mem_cons_self⟩
      · next hthere =>
        refine ⟨existing, hmem, hexisting, hlive, ?_⟩
        simpa using hthere
    · exact ⟨_, RoomStore.mem_updateMember hold, hexisting, rfl, List.mem_cons_self⟩

end RoomManager

end IrisMind.Rooms
