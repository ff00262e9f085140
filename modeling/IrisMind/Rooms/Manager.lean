import IrisMind.Rooms.Room

/-! # The room manager

Rooms are created, changed and deleted; accounts join and leave them. A room
whose last member leaves is deleted, unless it is protected. `Call` is every
call that writes the store, so a run of calls is a history of the store. -/
namespace IrisMind.Rooms
open IrisMind.Lib IrisMind.Events

namespace RoomState

def value : RoomState → String
  | active => "active"
  | archived => "archived"

def ofValue? (s : String) : Option RoomState :=
  if s = "active" then some active
  else if s = "archived" then some archived
  else none

end RoomState

namespace RoomStore

def addRoom (s : RoomStore) (r : Room) : RoomStore := { s with rooms := s.rooms ++ [r] }

def updateRoom (s : RoomStore) (r : Room) : RoomStore :=
  { s with rooms := Rows.replaceFirst (·.roomId == r.roomId) r s.rooms }

def deleteRoom (s : RoomStore) (roomId : String) : RoomStore where
  rooms := s.rooms.filter (·.roomId != roomId)
  members := s.members.filter (·.roomId != roomId)

def findRoomsByState (s : RoomStore) (state : RoomState) : List Room :=
  s.rooms.filter (·.state == state)

def findMembersByRoom (s : RoomStore) (roomId : String) : List RoomMember :=
  s.members.filter fun m => m.roomId == roomId && m.isActive

def findActiveMembersContainingSession (s : RoomStore) (sessionId : String) : List RoomMember :=
  s.members.filter fun m => m.sessionIds.contains sessionId && m.isActive

end RoomStore

namespace RoomManager

/-! ## Rooms -/

def createRoom (s : RoomStore) (newId now name : String) (createdBy : String := "") :
    Room × RoomStore :=
  let room : Room := { roomId := newId, name, createdBy, createdAt := now }
  (room, s.addRoom room)

/-- The fields of a `RoomUpdate`; a field that is `none` stays as it is. -/
structure RoomUpdate where
  name : Option String := none
  description : Option String := none
  topic : Option String := none
  state : Option RoomState := none
  metadata : Option (List (String × Json)) := none

/-- How `update_room` ends. Comparing two metadata values may raise, and then the fields before
it have been written already. -/
inductive UpdateEnd where
  | updated
  | notFound
  | raised
deriving DecidableEq, Repr

/-- `update_room`; `same` is the comparison of two dynamic values. -/
def updateRoom (same : Json → Json → Option Bool) (s : RoomStore) (now roomId : String)
    (u : RoomUpdate) : UpdateEnd × RoomStore :=
  match s.findRoomById roomId with
  | none => (.notFound, s)
  | some room =>
    let room := { room with
      name := u.name.getD room.name
      description := u.description.getD room.description
      topic := u.topic.getD room.topic
      state := u.state.getD room.state }
    match u.metadata with
    | none => (.updated, s.updateRoom { room with updatedAt := some now })
    | some metadata =>
      match same (.obj room.metadata) (.obj metadata) with
      | none => (.raised, s.updateRoom room)
      | some true => (.updated, s.updateRoom { room with updatedAt := some now })
      | some false => (.updated, s.updateRoom { room with metadata, updatedAt := some now })

/-- The room with the new texts and the new state. -/
def RoomUpdate.applied (u : RoomUpdate) (room : Room) : Room :=
  { room with
    name := u.name.getD room.name
    description := u.description.getD room.description
    topic := u.topic.getD room.topic
    state := u.state.getD room.state }

/-- The update brings metadata that cannot be compared with what the room has. -/
def RoomUpdate.Clashes (u : RoomUpdate) (same : Json → Json → Option Bool) (room : Room) : Prop :=
  ∃ metadata, u.metadata = some metadata ∧ same (.obj room.metadata) (.obj metadata) = none

/-- An update of a room that is there ends with the comparison of its metadata, and then it has
written the texts and the state alone; or it ends well and stamps the room. -/
theorem updateRoom_cases (same : Json → Json → Option Bool) {s : RoomStore} {roomId : String}
    {room : Room} (h : s.findRoomById roomId = some room) (now : String) (u : RoomUpdate) :
    u.Clashes same room ∧
        updateRoom same s now roomId u = (.raised, s.updateRoom (u.applied room)) ∨
      ¬ u.Clashes same room ∧ ∃ new, updateRoom same s now roomId u = (.updated, s.updateRoom new) ∧
        new.roomId = room.roomId ∧ new.updatedAt = some now := by
  unfold updateRoom RoomUpdate.Clashes
  rw [h]
  dsimp only
  cases hm : u.metadata with
  | none => exact .inr ⟨by simp, _, rfl, rfl, rfl⟩
  | some metadata =>
    dsimp only
    cases hsame : same (.obj room.metadata) (.obj metadata) with
    | none => exact .inl ⟨⟨metadata, rfl, hsame⟩, rfl⟩
    | some equal =>
      refine .inr ⟨by simp [hsame], ?_⟩
      cases equal with
      | true => exact ⟨_, rfl, rfl, rfl⟩
      | false => exact ⟨_, rfl, rfl, rfl⟩

def deleteRoom (s : RoomStore) (roomId : String) : RoomStore := s.deleteRoom roomId

/-! ## Members -/

/-- What `leave_room` leaves, whether it succeeded, and the event it publishes. -/
structure LeaveRun where
  store : RoomStore
  left : Bool
  event : Option RoomLeftEvent := none

/-- A room is protected by its name or by who created it. -/
def isProtected (room : Room) : Bool := room.name = "default" || room.createdBy = "system"

/-- `_maybe_delete_empty_room`. -/
def maybeDeleteEmptyRoom (s : RoomStore) (roomId : String) : RoomStore :=
  if !(s.findMembersByRoom roomId).isEmpty then s
  else match s.findRoomById roomId with
    | none => s
    | some room => if isProtected room then s else deleteRoom s roomId

def leaveRoom (displayName : String → String) (now : String) (s : RoomStore)
    (roomId accountId sessionId : String) : LeaveRun :=
  let disconnect (member : RoomMember) : LeaveRun :=
    { store := maybeDeleteEmptyRoom (s.updateMember { member with disconnectedAt := some now })
        roomId
      left := true
      event := some ⟨roomId, accountId, displayName accountId⟩ }
  match s.findMember roomId accountId with
  | none => { store := s, left := false }
  | some member =>
    if !member.isActive then { store := s, left := false }
    else if sessionId = "" then disconnect member
    else if member.sessionIds.contains sessionId then
      let member := { member with sessionIds := member.sessionIds.erase sessionId }
      if member.sessionIds.isEmpty then disconnect member
      else { store := s.updateMember member, left := true }
    else { store := s, left := false }

/-! ## Histories -/

inductive Call where
  | create (newId now name createdBy : String)
  | update (same : Json → Json → Option Bool) (now roomId : String) (update : RoomUpdate)
  | delete (roomId : String)
  | join (displayName : String → String) (now roomId accountId sessionId role : String)
  | leave (displayName : String → String) (now roomId accountId sessionId : String)

def apply (s : RoomStore) : Call → RoomStore
  | .create newId now name createdBy => (createRoom s newId now name createdBy).2
  | .update same now roomId update => (updateRoom same s now roomId update).2
  | .delete roomId => deleteRoom s roomId
  | .join displayName now roomId accountId sessionId role =>
    (joinRoom displayName now s roomId accountId sessionId role).store
  | .leave displayName now roomId accountId sessionId =>
    (leaveRoom displayName now s roomId accountId sessionId).store

end RoomManager

end IrisMind.Rooms
