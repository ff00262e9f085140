import IrisMind.Accounts.Dispatcher
import IrisMind.Rooms.Manager

/-! # Control messages about rooms

A client makes, lists, changes and deletes rooms, and accounts join and leave
them. Who joins or leaves without naming an account is resolved by identity, and
that may create an account. The fields of an update come as JSON text. -/
namespace IrisMind.Rooms
open IrisMind.Lib IrisMind.Accounts IrisMind.Sessions

inductive RoomAction where
  | create
  | list
  | info
  | join
  | leave
  | update
  | delete
  | members
deriving DecidableEq, Repr

namespace RoomAction

def text : RoomAction → String
  | create => "room.create"
  | list => "room.list"
  | info => "room.info"
  | join => "room.join"
  | leave => "room.leave"
  | update => "room.update"
  | delete => "room.delete"
  | members => "room.members"

def ofText? (s : String) : Option RoomAction :=
  if s = "room.create" then some create
  else if s = "room.list" then some list
  else if s = "room.info" then some info
  else if s = "room.join" then some join
  else if s = "room.leave" then some leave
  else if s = "room.update" then some update
  else if s = "room.delete" then some delete
  else if s = "room.members" then some members
  else none

theorem text_of_ofText? {s : String} {a : RoomAction} (h : ofText? s = some a) : a.text = s := by
  unfold ofText? at h
  grind [text]

end RoomAction

/-! ## What a client is told about rooms -/

def Room.dump (r : Room) : Json :=
  .obj [("room_id", .str r.roomId), ("name", .str r.name), ("description", .str r.description),
    ("topic", .str r.topic), ("state", .str r.state.value), ("created_by", .str r.createdBy),
    ("created_at", .str r.createdAt), ("updated_at", .ofText? r.updatedAt),
    ("metadata", .obj r.metadata)]

/-- Nobody writes the time of the last activity. -/
def RoomMember.dump (m : RoomMember) : Json :=
  .obj [("room_id", .str m.roomId), ("account_id", .str m.accountId),
    ("session_ids", .arr (m.sessionIds.map .str)), ("role", .str m.role),
    ("joined_at", .str m.joinedAt), ("last_active", .null),
    ("disconnected_at", .ofText? m.disconnectedAt)]

/-- What handling a control message leaves of the two stores, and the account events. -/
structure DispatchRun where
  outcome : Outcome
  accounts : AccountStore
  rooms : RoomStore
  events : List AccountEvent := []

namespace RoomDispatcher

variable (codec : Codec) (accounts : AccountStore) (rooms : RoomStore) (drawn : Drawn)
  (msg : ControlMessage)

/-- An answer that changes nothing. -/
def answer (outcome : Outcome) : DispatchRun := { outcome, accounts, rooms }

/-- A refusal changes nothing; who names no room, or one that is not there, is refused. -/
def withRoom (action : RoomAction) (serve : Room → DispatchRun) : DispatchRun :=
  if msg.roomId = "" then answer accounts rooms (.error action.text "room_id required")
  else match rooms.findRoomById msg.roomId with
    | none => answer accounts rooms (.error action.text ("room not found: " ++ msg.roomId))
    | some room => serve room

/-- An answer with a value as its text. -/
def tell (action : RoomAction) (roomId : String) (value : Json) : DispatchRun :=
  answer accounts rooms <| match codec.dumps value with
    | none => .raised
    | some text => .answered { action := action.text, roomId, accountId := msg.accountId, text }

/-- `_resolve_or_create_account`, for a message that names no account. -/
def resolveAccount : AccountRun String :=
  if msg.accountId ≠ "" then { value := msg.accountId, store := accounts }
  else
    let resolved := parseIdentity msg.identity
    match resolved.key? with
    | none => { value := "", store := accounts }
    | some (provider, subject) =>
      let providerName :=
        if resolved.providerName = "" then msg.displayName else resolved.providerName
      let run := AccountManager.resolveOrCreateIdentity accounts drawn provider subject
        providerName resolved.metadata
      { value := run.value.accountId, store := run.store, events := run.events }

def handleCreate : DispatchRun :=
  let name := Text.strip msg.text
  if name = "" then answer accounts rooms (.error "room.create" "room name required")
  else
    let (room, rooms) := RoomManager.createRoom rooms drawn.newId drawn.now name msg.accountId
    answer accounts rooms <| .answered
      { action := "room.created", roomId := room.roomId, accountId := msg.accountId
        text := "Created room: " ++ room.name }

def handleList : DispatchRun :=
  tell codec accounts rooms msg .list msg.roomId
    (.arr ((rooms.findRoomsByState .active).map (·.dump)))

def handleInfo : DispatchRun :=
  withRoom accounts rooms msg .info fun room =>
    tell codec accounts rooms msg .info msg.roomId room.dump

def handleJoin (sessionId : String) : DispatchRun :=
  withRoom accounts rooms msg .join fun _ =>
    let resolved := resolveAccount accounts drawn msg
    let accountId := resolved.value
    if accountId = "" then
      { outcome := .error "room.join" "account_id or identity required"
        accounts := resolved.store, rooms, events := resolved.events }
    else
      let run := RoomManager.joinRoom (AccountManager.resolveDisplayName resolved.store) drawn.now
        rooms msg.roomId accountId sessionId
      { outcome :=
          if run.joined then
            .answered
              { action := "room.joined", roomId := msg.roomId, accountId
                text := "Joined room: " ++ msg.roomId }
          else .error "room.join" ("room join failed: " ++ msg.roomId)
        accounts := resolved.store, rooms := run.store, events := resolved.events }

def handleLeave (sessionId : String) : DispatchRun :=
  withRoom accounts rooms msg .leave fun _ =>
    let resolved := resolveAccount accounts drawn msg
    let accountId := resolved.value
    if accountId = "" then
      { outcome := .error "room.leave" "account_id or identity required"
        accounts := resolved.store, rooms, events := resolved.events }
    else
      let run := RoomManager.leaveRoom (AccountManager.resolveDisplayName resolved.store)
        drawn.now rooms msg.roomId accountId sessionId
      { outcome :=
          if run.left then
            .answered
              { action := "room.left", roomId := msg.roomId, accountId
                text := "Left room: " ++ msg.roomId }
          else .error "room.leave" ("room leave failed: " ++ msg.roomId)
        accounts := resolved.store, rooms := run.store, events := resolved.events }

/-! ## Updates -/

/-- A text that is no JSON is the new name; JSON that is no object has no fields. -/
def updateFields : List (String × Json) :=
  if msg.text = "" then []
  else match codec.loads msg.text with
    | none => [("name", .str msg.text)]
    | some (.obj fields) => fields
    | some _ => []

/-- The value of a field, unless it is missing or null. -/
def given (key : String) (fields : List (String × Json)) : Option Json :=
  match Dict.lookup key fields with
  | none | some .null => none
  | some value => some value

/-- The text of a field, if it is given; printing it may raise. -/
def textField (key : String) (fields : List (String × Json)) : Option (Option String) :=
  match given key fields with
  | none => some none
  | some value => (codec.str value).map some

/-- How the fields are taken: as an update, with a state that is none, or with an exception. -/
inductive Coerced where
  | update (u : RoomManager.RoomUpdate)
  | invalid (state : String)
  | raised

def coerceFields (fields : List (String × Json)) (state : Option RoomState) : Coerced :=
  match textField codec "name" fields, textField codec "description" fields,
      textField codec "topic" fields with
  | some name, some description, some topic =>
    .update
      { name, description, topic, state
        metadata := match Dict.lookup "metadata" fields with
          | some (.obj metadata) => some metadata
          | _ => none }
  | _, _, _ => .raised

/-- The state is coerced first. -/
def coerceUpdate (fields : List (String × Json)) : Coerced :=
  match textField codec "state" fields with
  | none => .raised
  | some none => coerceFields codec fields none
  | some (some value) => match RoomState.ofValue? value with
    | none => .invalid value
    | some state => coerceFields codec fields (some state)

def handleUpdate : DispatchRun :=
  withRoom accounts rooms msg .update fun _ =>
    let fields := updateFields codec msg
    if fields.isEmpty then answer accounts rooms (.error "room.update" "no fields to update")
    else match coerceUpdate codec fields with
      | .raised => answer accounts rooms .raised
      | .invalid state => answer accounts rooms
          (.error "room.update" (codec.repr state ++ " is not a valid RoomState"))
      | .update u =>
        let (ended, rooms) := RoomManager.updateRoom codec.same rooms drawn.now msg.roomId u
        answer accounts rooms <| match ended with
          | .raised => .raised
          | .notFound => .error "room.update" ("room not found: " ++ msg.roomId)
          | .updated => .answered
              { action := "room.updated", roomId := msg.roomId, accountId := msg.accountId
                text := "Updated room: " ++ msg.roomId }

def handleDelete : DispatchRun :=
  withRoom accounts rooms msg .delete fun _ =>
    answer accounts (RoomManager.deleteRoom rooms msg.roomId) <| .answered
      { action := "room.deleted", roomId := msg.roomId, accountId := msg.accountId
        text := "Deleted room: " ++ msg.roomId }

def handleMembers : DispatchRun :=
  withRoom accounts rooms msg .members fun _ =>
    tell codec accounts rooms msg .members msg.roomId
      (.arr ((rooms.findMembersByRoom msg.roomId).map (·.dump)))

def handleControlMessage (sessionId : String) : DispatchRun :=
  match RoomAction.ofText? msg.action with
  | some .create => handleCreate accounts rooms drawn msg
  | some .list => handleList codec accounts rooms msg
  | some .info => handleInfo codec accounts rooms msg
  | some .join => handleJoin accounts rooms drawn msg sessionId
  | some .leave => handleLeave accounts rooms drawn msg sessionId
  | some .update => handleUpdate codec accounts rooms drawn msg
  | some .delete => handleDelete accounts rooms msg
  | some .members => handleMembers codec accounts rooms msg
  | none => answer accounts rooms .unhandled

/-! ## Exceptions -/

/-- The state, if one is given, is one. -/
def StateFine (fields : List (String × Json)) : Prop :=
  ∀ value, textField codec "state" fields = some (some value) →
    (RoomState.ofValue? value).isSome = true

/-- A field cannot be printed: the state, or another one once the state is fine. -/
def Unprintable (fields : List (String × Json)) : Prop :=
  textField codec "state" fields = none ∨
    StateFine codec fields ∧
      ∃ key ∈ ["name", "description", "topic"], textField codec key fields = none

/-- The update brings metadata that cannot be compared with what the room has. -/
def Incomparable (room : Room) (fields : List (String × Json)) : Prop :=
  StateFine codec fields ∧ ∃ metadata, Dict.lookup "metadata" fields = some (.obj metadata) ∧
    codec.same (.obj room.metadata) (.obj metadata) = none

/-- What an update of the room does not get through. -/
def UpdateBreaks (room : Room) (fields : List (String × Json)) : Prop :=
  Unprintable codec fields ∨ Incomparable codec room fields

/-- What the dispatcher does not get through: rooms and members that cannot be written as text,
and fields that cannot be printed or compared. -/
def Breaks : Prop :=
  match RoomAction.ofText? msg.action with
  | some .list => codec.dumps (.arr ((rooms.findRoomsByState .active).map (·.dump))) = none
  | some .info => ∃ room, msg.roomId ≠ "" ∧ rooms.findRoomById msg.roomId = some room ∧
      codec.dumps room.dump = none
  | some .members => ∃ room, msg.roomId ≠ "" ∧ rooms.findRoomById msg.roomId = some room ∧
      codec.dumps (.arr ((rooms.findMembersByRoom msg.roomId).map (·.dump))) = none
  | some .update => ∃ room, msg.roomId ≠ "" ∧ rooms.findRoomById msg.roomId = some room ∧
      UpdateBreaks codec room (updateFields codec msg)
  | _ => False

variable {codec accounts rooms drawn msg}

theorem raisesIff_tell (action : RoomAction) (roomId : String) (value : Json) :
    (tell codec accounts rooms msg action roomId value).outcome.RaisesIff
      (codec.dumps value = none) := by
  unfold tell
  cases hd : codec.dumps value with
  | none => exact .inl ⟨rfl, rfl⟩
  | some text => exact .inr ⟨by simp, _, rfl⟩

/-- Who names a room that is not there is answered. -/
theorem raisesIff_withRoom {action : RoomAction} {serve : Room → DispatchRun}
    {breaks : Room → Prop} (h : ∀ room, rooms.findRoomById msg.roomId = some room →
      (serve room).outcome.RaisesIff (breaks room)) :
    (withRoom accounts rooms msg action serve).outcome.RaisesIff
      (∃ room, msg.roomId ≠ "" ∧ rooms.findRoomById msg.roomId = some room ∧ breaks room) := by
  unfold withRoom
  split
  · next hid => exact .inr ⟨fun ⟨_, hne, _⟩ => hne hid, _, rfl⟩
  · next hid =>
    cases hfind : rooms.findRoomById msg.roomId with
    | none => exact .inr ⟨by simp, _, rfl⟩
    | some room =>
      refine (h room hfind).congr ⟨fun hb => ⟨room, hid, rfl, hb⟩, ?_⟩
      intro hbreaks
      obtain ⟨_, _, hsame, hb⟩ := hbreaks
      cases hsame
      exact hb

theorem raisesIff_withRoom_of_answered {action : RoomAction} {serve : Room → DispatchRun}
    (h : ∀ room, ∃ response, (serve room).outcome = .answered response) :
    (withRoom accounts rooms msg action serve).outcome.RaisesIff False :=
  (raisesIff_withRoom fun room _ => Outcome.raisesIff_of_answered (h room)).congr (by simp)

theorem coerceFields_cases (fields : List (String × Json)) (state : Option RoomState) :
    (∃ key ∈ ["name", "description", "topic"], textField codec key fields = none) ∧
        coerceFields codec fields state = .raised ∨
      (∀ key ∈ ["name", "description", "topic"], textField codec key fields ≠ none) ∧
        ∃ u, coerceFields codec fields state = .update u ∧ u.state = state ∧
          ∀ metadata, u.metadata = some metadata ↔
            Dict.lookup "metadata" fields = some (.obj metadata) := by
  unfold coerceFields
  cases hname : textField codec "name" fields with
  | none => exact .inl ⟨⟨"name", by simp, hname⟩, rfl⟩
  | some name =>
    cases hdescription : textField codec "description" fields with
    | none => exact .inl ⟨⟨"description", by simp, hdescription⟩, rfl⟩
    | some description =>
      cases htopic : textField codec "topic" fields with
      | none => exact .inl ⟨⟨"topic", by simp, htopic⟩, rfl⟩
      | some topic =>
        refine .inr ⟨by simp [hname, hdescription, htopic], _, rfl, rfl, fun metadata => ?_⟩
        dsimp only
        split
        · next h => simp [h]
        · next h =>
          constructor
          · intro hnone
            cases hnone
          · intro hsome
            exact absurd hsome (h metadata)

theorem coerceUpdate_cases (codec : Codec) (fields : List (String × Json)) :
    Unprintable codec fields ∧ coerceUpdate codec fields = .raised ∨
      ¬ Unprintable codec fields ∧ ¬ StateFine codec fields ∧
        (∃ value, coerceUpdate codec fields = .invalid value) ∨
      ¬ Unprintable codec fields ∧ StateFine codec fields ∧
        ∃ u, coerceUpdate codec fields = .update u ∧ ∀ metadata, u.metadata = some metadata ↔
          Dict.lookup "metadata" fields = some (.obj metadata) := by
  have hfields : ∀ state, StateFine codec fields → textField codec "state" fields ≠ none →
      coerceUpdate codec fields = coerceFields codec fields state →
      Unprintable codec fields ∧ coerceUpdate codec fields = .raised ∨
        ¬ Unprintable codec fields ∧ ∃ u, coerceUpdate codec fields = .update u ∧
          ∀ metadata, u.metadata = some metadata ↔
            Dict.lookup "metadata" fields = some (.obj metadata) := by
    intro state hfine hstate heq
    rw [heq]
    rcases coerceFields_cases fields state with ⟨hkey, hraised⟩ | ⟨hkeys, u, hu, _, hmetadata⟩
    · exact .inl ⟨.inr ⟨hfine, hkey⟩, hraised⟩
    · refine .inr ⟨?_, u, hu, hmetadata⟩
      intro hbreaks
      rcases hbreaks with hnone | ⟨_, key, hkey, hnone⟩
      · exact hstate hnone
      · exact hkeys key hkey hnone
  unfold coerceUpdate at hfields ⊢
  cases hs : textField codec "state" fields with
  | none => exact .inl ⟨.inl hs, rfl⟩
  | some value? =>
    rw [hs] at hfields
    cases value? with
    | none =>
      have hfine : StateFine codec fields := by
        intro value hvalue
        rw [hs] at hvalue
        cases hvalue
      rcases hfields none hfine (by simp) rfl with h | ⟨hnot, h⟩
      · exact .inl h
      · exact .inr (.inr ⟨hnot, hfine, h⟩)
    | some value =>
      cases hv : RoomState.ofValue? value with
      | none =>
        have hbad : ¬ StateFine codec fields := by
          intro hfine
          have hsome := hfine value hs
          rw [hv] at hsome
          cases hsome
        refine .inr (.inl ⟨?_, hbad, value, by simp only [hv]⟩)
        intro hbreaks
        rcases hbreaks with hnone | ⟨hfine, _⟩
        · rw [hs] at hnone
          cases hnone
        · exact hbad hfine
      | some state =>
        have hfine : StateFine codec fields := by
          intro value' hvalue
          rw [hs] at hvalue
          cases hvalue
          rw [hv]
          rfl
        simp only [hv] at hfields ⊢
        rcases hfields (some state) hfine (by simp) rfl with h | ⟨hnot, h⟩
        · exact .inl h
        · exact .inr (.inr ⟨hnot, hfine, h⟩)

theorem not_updateBreaks_nil (codec : Codec) (room : Room) : ¬ UpdateBreaks codec room [] := by
  intro hbreaks
  rcases hbreaks with (hstate | ⟨_, key, _, hkey⟩) | ⟨_, metadata, hmetadata, _⟩
  · cases hstate
  · cases hkey
  · cases hmetadata

theorem raisesIff_handleUpdate (codec : Codec) (accounts : AccountStore) (rooms : RoomStore)
    (drawn : Drawn) (msg : ControlMessage) :
    (handleUpdate codec accounts rooms drawn msg).outcome.RaisesIff
      (∃ room, msg.roomId ≠ "" ∧ rooms.findRoomById msg.roomId = some room ∧
        UpdateBreaks codec room (updateFields codec msg)) := by
  refine raisesIff_withRoom fun room hroom => ?_
  dsimp only
  cases hfields : updateFields codec msg with
  | nil => exact .inr ⟨not_updateBreaks_nil codec room, _, rfl⟩
  | cons field rest =>
    rw [if_neg (by simp)]
    rcases coerceUpdate_cases codec (field :: rest) with
      ⟨hbad, hraised⟩ | ⟨hfine, hstate, value, hvalue⟩ | ⟨hfine, hstate, u, hu, hmetadata⟩
    · rw [hraised]
      exact .inl ⟨.inl hbad, rfl⟩
    · rw [hvalue]
      refine .inr ⟨?_, _, rfl⟩
      intro hbreaks
      rcases hbreaks with hbad | ⟨hstate', _⟩
      · exact hfine hbad
      · exact hstate hstate'
    · rw [hu]
      dsimp only
      rcases RoomManager.updateRoom_cases codec.same hroom drawn.now u with
        ⟨⟨metadata, hm, hsame⟩, hended⟩ | ⟨hsame, _, hended, _⟩
      · rw [hended]
        exact .inl ⟨.inr ⟨hstate, metadata, (hmetadata metadata).mp hm, hsame⟩, rfl⟩
      · rw [hended]
        refine .inr ⟨?_, _, rfl⟩
        intro hbreaks
        rcases hbreaks with hbad | ⟨_, metadata, hm, hnone⟩
        · exact hfine hbad
        · exact hsame ⟨metadata, (hmetadata metadata).mpr hm, hnone⟩

theorem raisesIff_handleControlMessage (codec : Codec) (accounts : AccountStore)
    (rooms : RoomStore) (drawn : Drawn) {msg : ControlMessage} (sessionId : String)
    {a : RoomAction} (h : RoomAction.ofText? msg.action = some a) :
    (handleControlMessage codec accounts rooms drawn msg sessionId).outcome.RaisesIff
      (Breaks codec rooms msg) := by
  unfold Breaks handleControlMessage
  rw [h]
  cases a with
  | create =>
    refine Outcome.raisesIff_of_answered ?_
    dsimp only [handleCreate]
    split
    · exact ⟨_, rfl⟩
    · exact ⟨_, rfl⟩
  | list => exact raisesIff_tell _ _ _
  | info => exact raisesIff_withRoom fun room _ => raisesIff_tell _ _ _
  | join =>
    refine raisesIff_withRoom_of_answered fun room => ?_
    dsimp only
    split
    · exact ⟨_, rfl⟩
    dsimp only
    split
    · exact ⟨_, rfl⟩
    · exact ⟨_, rfl⟩
  | leave =>
    refine raisesIff_withRoom_of_answered fun room => ?_
    dsimp only
    split
    · exact ⟨_, rfl⟩
    dsimp only
    split
    · exact ⟨_, rfl⟩
    · exact ⟨_, rfl⟩
  | update => exact raisesIff_handleUpdate codec accounts rooms drawn msg
  | delete => exact raisesIff_withRoom_of_answered fun room => ⟨_, rfl⟩
  | members => exact raisesIff_withRoom fun room _ => raisesIff_tell _ _ _

end RoomDispatcher

end IrisMind.Rooms
