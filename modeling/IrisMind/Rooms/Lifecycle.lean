import IrisMind.Rooms.Membership

/-! # The life of rooms and memberships

Everything that writes the room store, one after the other: the calls of the
room manager, the handler that takes a lost session out of its memberships, and
the cleanup every twelfth tick. A room goes when a leave takes its last active
member, and its rows go with it. -/
namespace IrisMind.Rooms
open IrisMind.Lib

namespace RoomManager

/-- What a caller says about a new room. -/
structure RoomDraft where
  name : String
  createdBy : String := ""
  description : String := ""
  topic : String := ""
  state : RoomState := .active
  metadata : List (String × Json) := []

/-- `create_room`. -/
def createRoomFrom (s : RoomStore) (newId now : String) (d : RoomDraft) : Room × RoomStore :=
  let room : Room :=
    { roomId := newId
      name := d.name
      description := d.description
      topic := d.topic
      state := d.state
      createdBy := d.createdBy
      createdAt := now
      metadata := d.metadata }
  (room, s.addRoom room)

end RoomManager

open RoomManager

/-- The room store and the counter of the periodic cleanup. -/
structure RoomService where
  store : RoomStore := {}
  cleanupCounter : Nat := 0

namespace RoomService

/-- `_on_session_disconnect`: the memberships found at the start are left one after the other. -/
def onSessionDisconnect (displayName : String → String) (now : RoomMember → String)
    (s : RoomStore) (sessionId : String) : RoomStore :=
  (s.findActiveMembersContainingSession sessionId).foldl
    (fun t m => (leaveRoom displayName (now m) t m.roomId m.accountId sessionId).store) s

/-- One room of the cleanup. -/
def cleanupRoom (s : RoomStore) (room : Room) : RoomStore :=
  if !(s.findMembersByRoom room.roomId).isEmpty then s
  else if isProtected room then s
  else deleteRoom s room.roomId

/-- `_on_timer_tick`. -/
def onTimerTick (x : RoomService) : RoomService :=
  let x := { x with cleanupCounter := x.cleanupCounter + 1 }
  if x.cleanupCounter % 12 ≠ 0 then x
  else { x with store := (x.store.findRoomsByState .active).foldl cleanupRoom x.store }

inductive Operation where
  | create (newId now : String) (draft : RoomDraft)
  | update (same : Json → Json → Option Bool) (now roomId : String) (update : RoomUpdate)
  | join (displayName : String → String) (now roomId accountId sessionId role : String)
  | leave (displayName : String → String) (now roomId accountId sessionId : String)
  | delete (roomId : String)
  | disconnect (displayName : String → String) (now : RoomMember → String) (sessionId : String)
  | timerTick

def step (x : RoomService) : Operation → RoomService
  | .create newId now draft => { x with store := (createRoomFrom x.store newId now draft).2 }
  | .update same now roomId update =>
    { x with store := (updateRoom same x.store now roomId update).2 }
  | .join displayName now roomId accountId sessionId role =>
    { x with store := (joinRoom displayName now x.store roomId accountId sessionId role).store }
  | .leave displayName now roomId accountId sessionId =>
    { x with store := (leaveRoom displayName now x.store roomId accountId sessionId).store }
  | .delete roomId => { x with store := deleteRoom x.store roomId }
  | .disconnect displayName now sessionId =>
    { x with store := onSessionDisconnect displayName now x.store sessionId }
  | .timerTick => x.onTimerTick

end RoomService

/-! ## What every operation keeps -/

namespace RoomStore

/-- One row for a room and an account, no session twice in a row, every row in a room that is
there, and no active row bound to the session without a name. -/
structure Sound (s : RoomStore) : Prop extends s.WellFormed where
  housed : ∀ m ∈ s.members, ∃ r ∈ s.rooms, r.roomId = m.roomId
  named : ∀ roomId accountId, ¬ s.Bound roomId accountId ""

theorem empty_sound : Sound {} :=
  { empty_wellFormed with
    housed := fun _ h => by cases h
    named := fun _ _ h => by
      obtain ⟨_, hm, _⟩ := h
      cases hm }

theorem Sound.deleteRoom {s : RoomStore} (h : s.Sound) (roomId : String) :
    (s.deleteRoom roomId).Sound where
  toWellFormed := h.of_sublist (deleteRoom_members s roomId)
  housed m hm := by
    obtain ⟨hmem, hne⟩ := List.mem_filter.mp hm
    obtain ⟨r, hr, hid⟩ := h.housed m hmem
    exact ⟨r, List.mem_filter.mpr ⟨hr, by rw [hid]; exact hne⟩, hid⟩
  named r a hb := h.named r a (hb.of_subset (deleteRoom_members s roomId).subset)

theorem Sound.ids {s : RoomStore} (h : s.Sound) {m : RoomMember} (hm : m ∈ s.members) :
    m.roomId ∈ s.rooms.map (·.roomId) := by
  obtain ⟨r, hr, hid⟩ := h.housed m hm
  exact List.mem_map.mpr ⟨r, hr, hid⟩

theorem mem_rooms_of_find {s : RoomStore} {roomId : String} {room : Room}
    (h : s.findRoomById roomId = some room) : room ∈ s.rooms ∧ room.roomId = roomId :=
  ⟨List.mem_of_find?_eq_some h, by
    simpa using List.find?_some (p := fun r : Room => r.roomId == roomId) h⟩

theorem Sound.put {s : RoomStore} (h : s.Sound) {m : RoomMember} (hm : m.sessionIds.Nodup)
    (hroom : ∃ r ∈ s.rooms, r.roomId = m.roomId) (hname : m.isActive = true → "" ∉ m.sessionIds) :
    (s.put m).Sound where
  toWellFormed := put_wellFormed h.toWellFormed hm
  housed x hx := by
    rw [put_rooms]
    rcases mem_put h.toWellFormed hx with rfl | ⟨hold, _⟩
    · exact hroom
    · exact h.housed x hold
  named r a hb := by
    rcases bound_of_put h.toWellFormed hb with ⟨_, hactive, hin⟩ | ⟨_, hold⟩
    · exact hname hactive hin
    · exact h.named r a hold

theorem map_roomId_updateRoom (s : RoomStore) (new : Room) :
    (s.updateRoom new).rooms.map (·.roomId) = s.rooms.map (·.roomId) :=
  Rows.map_replaceFirst (fun x hx => by simpa using hx) s.rooms

theorem Sound.updateRoom {s : RoomStore} (h : s.Sound) (new : Room) : (s.updateRoom new).Sound where
  toWellFormed := ⟨h.unique, h.sessions⟩
  housed m hm := by
    have hid := h.ids hm
    rw [← s.map_roomId_updateRoom new] at hid
    exact List.mem_map.mp hid
  named := h.named

end RoomStore

/-- The row of a member as a leave writes it: without a session, or with the last one, the member
is gone. -/
def RoomMember.left (m : RoomMember) (sessionId now : String) : RoomMember :=
  if sessionId = "" then { m with disconnectedAt := some now }
  else if (m.sessionIds.erase sessionId).isEmpty then
    { m with sessionIds := m.sessionIds.erase sessionId, disconnectedAt := some now }
  else { m with sessionIds := m.sessionIds.erase sessionId }

namespace RoomMember

theorem left_key (m : RoomMember) (sessionId now : String) :
    (m.left sessionId now).key = m.key := by
  unfold left
  split
  · rfl
  · split <;> rfl

theorem left_sessionIds {m : RoomMember} {sessionId : String} (h : sessionId ≠ "") (now : String) :
    (m.left sessionId now).sessionIds = m.sessionIds.erase sessionId := by
  unfold left
  rw [if_neg h]
  split <;> rfl

theorem left_nodup {m : RoomMember} (h : m.sessionIds.Nodup) (sessionId now : String) :
    (m.left sessionId now).sessionIds.Nodup := by
  by_cases hs : sessionId = ""
  · unfold left
    rw [if_pos hs]
    exact h
  · rw [left_sessionIds hs]
    exact h.erase sessionId

/-- A member that leaves with a session stays active exactly if it has another one. -/
theorem left_isActive {m : RoomMember} (hactive : m.isActive = true) (hn : m.sessionIds.Nodup)
    {sessionId : String} (hs : sessionId ≠ "") (now : String) :
    (m.left sessionId now).isActive = true ↔ ∃ x ∈ m.sessionIds, x ≠ sessionId := by
  have herase : m.sessionIds.erase sessionId = [] ↔ ¬ ∃ x ∈ m.sessionIds, x ≠ sessionId := by
    rw [List.eq_nil_iff_forall_not_mem]
    simp only [hn.mem_erase_iff, not_and, not_exists, not_not, ne_eq]
    exact ⟨fun h x hx => by_contra fun hne => h x hne hx, fun h x hne hx => hne (h x hx)⟩
  unfold left
  rw [if_neg hs]
  by_cases hempty : m.sessionIds.erase sessionId = []
  · rw [if_pos (by rw [hempty]; rfl)]
    exact iff_of_false (fun h => by cases h) (herase.mp hempty)
  · rw [if_neg (by simpa using hempty)]
    exact iff_of_true hactive (by_contra fun h => hempty (herase.mpr h))

end RoomMember

namespace RoomManager
open RoomStore

/-- The store after the row of a member that leaves has been written; where that ends the
membership, the room may go. -/
def afterLeave (s : RoomStore) (m : RoomMember) (sessionId now : String) : RoomStore :=
  if (m.left sessionId now).isActive then s.updateMember (m.left sessionId now)
  else maybeDeleteEmptyRoom (s.updateMember (m.left sessionId now)) m.roomId

/-- A leave takes an active member out that is bound to the session, if one is named, and tells of
it when that ends the membership. -/
theorem leaveRoom_eq (displayName : String → String) (now : String) (s : RoomStore)
    (roomId accountId sessionId : String) :
    leaveRoom displayName now s roomId accountId sessionId =
      match s.findMember roomId accountId with
      | none => { store := s, left := false }
      | some m =>
        if m.isActive = true ∧ (sessionId = "" ∨ sessionId ∈ m.sessionIds) then
          { store := afterLeave s m sessionId now
            left := true
            event := if (m.left sessionId now).isActive then none
              else some ⟨roomId, accountId, displayName accountId⟩ }
        else { store := s, left := false } := by
  unfold leaveRoom
  cases hfind : s.findMember roomId accountId with
  | none => rfl
  | some m =>
    have hroom : m.roomId = roomId := congrArg Prod.fst (findMember_eq_some hfind).2
    dsimp only
    unfold afterLeave RoomMember.left
    cases hactive : m.isActive with
    | false => rfl
    | true =>
      simp only [Bool.not_true, Bool.false_eq_true, if_false, true_and, hroom]
      by_cases hs : sessionId = ""
      · simp only [if_pos hs, if_pos (Or.inl hs : sessionId = "" ∨ sessionId ∈ m.sessionIds)]
        rfl
      · have hor : (sessionId = "" ∨ sessionId ∈ m.sessionIds) ↔ sessionId ∈ m.sessionIds :=
          or_iff_right hs
        simp only [if_neg hs, hor]
        by_cases hin : sessionId ∈ m.sessionIds
        · rw [if_pos (List.contains_iff_mem.mpr hin), if_pos hin]
          by_cases hempty : (m.sessionIds.erase sessionId).isEmpty = true
          · simp only [if_pos hempty]
            rfl
          · have hstill : RoomMember.isActive { m with
                roomId := roomId, sessionIds := m.sessionIds.erase sessionId } = true := hactive
            simp only [if_neg hempty]
            rw [if_pos hstill, if_pos hstill]
        · rw [if_neg fun h => hin (List.contains_iff_mem.mp h), if_neg hin]

theorem leaveRoom_store (displayName : String → String) (now : String) (s : RoomStore)
    (roomId accountId sessionId : String) :
    (leaveRoom displayName now s roomId accountId sessionId).store =
      match s.findMember roomId accountId with
      | none => s
      | some m =>
        if m.isActive = true ∧ (sessionId = "" ∨ sessionId ∈ m.sessionIds) then
          afterLeave s m sessionId now
        else s := by
  rw [leaveRoom_eq]
  cases s.findMember roomId accountId with
  | none => rfl
  | some m =>
    dsimp only
    split <;> rfl

theorem maybeDeleteEmptyRoom_cases (s : RoomStore) (roomId : String) :
    maybeDeleteEmptyRoom s roomId = s ∧
        ((∃ m ∈ s.members, m.roomId = roomId ∧ m.isActive = true) ∨
          ∀ room, s.findRoomById roomId = some room → isProtected room = true) ∨
      maybeDeleteEmptyRoom s roomId = s.deleteRoom roomId ∧
        ∀ m ∈ s.members, m.roomId = roomId → m.isActive = false := by
  unfold maybeDeleteEmptyRoom
  by_cases hsome : ∃ m ∈ s.members, m.roomId = roomId ∧ m.isActive = true
  · refine .inl ⟨?_, .inl hsome⟩
    obtain ⟨m, hm, hr, hactive⟩ := hsome
    have hmem : m ∈ s.findMembersByRoom roomId :=
      List.mem_filter.mpr ⟨hm, by simp [hr, hactive]⟩
    rw [if_pos]
    simpa using List.ne_nil_of_mem hmem
  · have hnone : ∀ m ∈ s.members, m.roomId = roomId → m.isActive = false := by
      intro m hm hr
      by_contra hactive
      exact hsome ⟨m, hm, hr, by simpa using hactive⟩
    have hempty : s.findMembersByRoom roomId = [] := by
      refine List.filter_eq_nil_iff.mpr fun m hm hboth => ?_
      obtain ⟨hr, hactive⟩ := Bool.and_eq_true_iff.mp hboth
      rw [hnone m hm (by simpa using hr)] at hactive
      cases hactive
    rw [if_neg (by simp [hempty])]
    cases hroom : s.findRoomById roomId with
    | none => exact .inl ⟨rfl, .inr fun room h => by cases h⟩
    | some room =>
      cases hp : isProtected room with
      | true => exact .inl ⟨by simp [hp], .inr fun r h => by cases h; exact hp⟩
      | false => exact .inr ⟨by simp [hp, deleteRoom], hnone⟩

end RoomManager

namespace RoomStore
open RoomManager

theorem Sound.maybeDeleteEmptyRoom {s : RoomStore} (h : s.Sound) (roomId : String) :
    (maybeDeleteEmptyRoom s roomId).Sound := by
  rcases maybeDeleteEmptyRoom_cases s roomId with ⟨heq, _⟩ | ⟨heq, _⟩
  · rw [heq]
    exact h
  · rw [heq]
    exact h.deleteRoom roomId

theorem Sound.joinRoom {s : RoomStore} (h : s.Sound) (displayName : String → String)
    (now roomId accountId sessionId role : String) :
    (RoomManager.joinRoom displayName now s roomId accountId sessionId role).store.Sound := by
  rcases joinRoom_cases h.toWellFormed displayName now roomId accountId sessionId role with
    heq | ⟨⟨room, hroom, _⟩, m, hm, heq⟩
  · rw [heq]
    exact h
  · rw [heq]
    refine h.put hm.sessions ?_ fun hactive hin => ?_
    · obtain ⟨hmem, hid⟩ := mem_rooms_of_find hroom
      exact ⟨room, hmem, hid.trans (congrArg Prod.fst hm.key).symm⟩
    · rcases hm.bindings hactive "" hin with ⟨heq, hne⟩ | hold
      · exact hne heq.symm
      · exact h.named _ _ hold

theorem Sound.leaveRoom {s : RoomStore} (h : s.Sound) (displayName : String → String)
    (now roomId accountId sessionId : String) :
    (RoomManager.leaveRoom displayName now s roomId accountId sessionId).store.Sound := by
  rw [leaveRoom_store]
  split
  · exact h
  next m hfind =>
  split
  · next hboth =>
    obtain ⟨hmem, hkey⟩ := findMember_eq_some hfind
    have hput : (s.updateMember (m.left sessionId now)).Sound := by
      have hkey' : (m.left sessionId now).key = (roomId, accountId) :=
        (m.left_key sessionId now).trans hkey
      rw [put_eq_updateMember hfind hkey']
      refine h.put (m.left_nodup (h.sessions m hmem) sessionId now) ?_ fun hactive hin => ?_
      · obtain ⟨r, hr, hid⟩ := h.housed m hmem
        refine ⟨r, hr, hid.trans ?_⟩
        show m.key.1 = (m.left sessionId now).key.1
        rw [hkey, hkey']
      · refine h.named roomId accountId (bound_of_found hfind hboth.1 ?_)
        by_cases hs : sessionId = ""
        · unfold RoomMember.left at hactive
          rw [if_pos hs] at hactive
          cases hactive
        · rw [m.left_sessionIds hs] at hin
          exact List.mem_of_mem_erase hin
    unfold afterLeave
    split
    · exact hput
    · exact hput.maybeDeleteEmptyRoom m.roomId
  · exact h

end RoomStore

namespace RoomService
open RoomManager RoomStore

theorem cleanupRoom_sound (s : RoomStore) (room : Room) (h : s.Sound) :
    (cleanupRoom s room).Sound := by
  unfold cleanupRoom
  split
  · exact h
  split
  · exact h
  · exact h.deleteRoom room.roomId

theorem onSessionDisconnect_sound {s : RoomStore} (h : s.Sound) (displayName : String → String)
    (now : RoomMember → String) (sessionId : String) :
    (onSessionDisconnect displayName now s sessionId).Sound :=
  Machine.run_inv Sound (fun _ _ ht => ht.leaveRoom _ _ _ _ _) h _

theorem step_sound (x : RoomService) (op : Operation) (h : x.store.Sound) :
    (x.step op).store.Sound := by
  cases op with
  | create newId now draft =>
    refine ⟨⟨h.unique, h.sessions⟩, fun m hm => ?_, h.named⟩
    obtain ⟨r, hr, hid⟩ := h.housed m hm
    exact ⟨r, List.mem_append_left _ hr, hid⟩
  | update same now roomId update =>
    show (updateRoom same x.store now roomId update).2.Sound
    cases hfind : x.store.findRoomById roomId with
    | none =>
      rw [RoomManager.updateRoom, hfind]
      exact h
    | some room =>
      rcases updateRoom_cases same hfind now update with ⟨_, heq⟩ | ⟨_, new, heq, _⟩
      · rw [heq]
        exact h.updateRoom _
      · rw [heq]
        exact h.updateRoom _
  | join displayName now roomId accountId sessionId role => exact h.joinRoom _ _ _ _ _ _
  | leave displayName now roomId accountId sessionId => exact h.leaveRoom _ _ _ _ _
  | delete roomId => exact h.deleteRoom roomId
  | disconnect displayName now sessionId => exact onSessionDisconnect_sound h _ _ _
  | timerTick =>
    show (onTimerTick x).store.Sound
    unfold onTimerTick
    dsimp only
    split
    · exact h
    · exact Machine.run_inv Sound cleanupRoom_sound h _

theorem run_sound (ops : List Operation) : (Machine.run step {} ops).store.Sound :=
  Machine.run_inv (fun x : RoomService => x.store.Sound) step_sound empty_sound ops

end RoomService

/-! ## A session is lost -/

namespace RoomStore
open RoomManager

/-- The store `s` with its rows rewritten and some rooms deleted. The rooms deleted have no active
row, and among them is every unprotected room that had one and has none any more. -/
structure Rewritten (s : RoomStore) (f : RoomMember → RoomMember) (gone : List String)
    (t : RoomStore) : Prop where
  members : t.members = (s.members.map f).filter fun m => m.roomId ∉ gone
  rooms : t.rooms = s.rooms.filter fun r => r.roomId ∉ gone
  empty : ∀ m ∈ s.members, m.roomId ∈ gone → (f m).isActive = false
  complete : ∀ roomId room, s.findRoomById roomId = some room → isProtected room = false →
    (∃ m ∈ s.members, m.roomId = roomId ∧ m.isActive = true) →
    (∀ m ∈ s.members, m.roomId = roomId → (f m).isActive = false) → roomId ∈ gone

/-- The row of a member once the memberships in `done` have been left. -/
def afterLeaving (done : List (String × String)) (sessionId : String) (now : RoomMember → String)
    (m : RoomMember) : RoomMember :=
  if m.key ∈ done then m.left sessionId (now m) else m

theorem afterLeaving_key (done : List (String × String)) (sessionId : String)
    (now : RoomMember → String) (m : RoomMember) :
    (afterLeaving done sessionId now m).key = m.key := by
  unfold afterLeaving
  split
  · exact m.left_key _ _
  · rfl

theorem afterLeaving_roomId (done : List (String × String)) (sessionId : String)
    (now : RoomMember → String) (m : RoomMember) :
    (afterLeaving done sessionId now m).roomId = m.roomId :=
  congrArg Prod.fst (afterLeaving_key done sessionId now m)

theorem findMember_of_mem {s : RoomStore} (hu : (s.members.map RoomMember.key).Nodup)
    {m : RoomMember} (hm : m ∈ s.members) : s.findMember m.roomId m.accountId = some m := by
  cases hfind : s.findMember m.roomId m.accountId with
  | none => exact absurd (List.mem_map_of_mem hm) (findMember_eq_none hfind)
  | some x =>
    obtain ⟨hx, hkey⟩ := findMember_eq_some hfind
    rw [List.inj_on_of_nodup_map hu hx hm hkey]

theorem rewritten_start {s : RoomStore} (sessionId : String) (now : RoomMember → String) :
    Rewritten s (afterLeaving [] sessionId now) [] s where
  members := by
    have hid : s.members.map (afterLeaving [] sessionId now) = s.members :=
      (List.map_congr_left fun m _ => by simp [afterLeaving]).trans (List.map_id' _)
    rw [hid]
    exact (List.filter_eq_self.mpr fun m _ => by simp).symm
  rooms := (List.filter_eq_self.mpr fun m _ => by simp).symm
  empty m _ h := by cases h
  complete roomId room _ _ hactive hall := by
    obtain ⟨m, hm, hr, hyes⟩ := hactive
    have hno := hall m hm hr
    simp only [afterLeaving, List.not_mem_nil, if_false] at hno
    exact absurd (hyes.symm.trans hno) Bool.noConfusion

section Leave

variable {s t : RoomStore} {done : List (String × String)} {gone : List String}
  {sessionId : String} {now : RoomMember → String}

theorem Rewritten.unique (h : Rewritten s (afterLeaving done sessionId now) gone t)
    (hs : s.WellFormed) : (t.members.map RoomMember.key).Nodup := by
  have hkeys : (s.members.map (afterLeaving done sessionId now)).map RoomMember.key =
      s.members.map RoomMember.key := by
    rw [List.map_map]
    exact List.map_congr_left fun x _ => afterLeaving_key done sessionId now x
  rw [h.members]
  refine List.Nodup.sublist (List.filter_sublist.map _) ?_
  rw [hkeys]
  exact hs.unique

/-- The row of a member that has not been looked at yet is still there. -/
theorem Rewritten.findMember (h : Rewritten s (afterLeaving done sessionId now) gone t)
    (hs : s.WellFormed) {m : RoomMember} (hm : m ∈ s.members) (hactive : m.isActive = true)
    (hnew : m.key ∉ done) :
    m.roomId ∉ gone ∧ t.findMember m.roomId m.accountId = some m := by
  have hself : afterLeaving done sessionId now m = m := if_neg hnew
  have hroom : m.roomId ∉ gone := by
    intro hgone
    have hno := h.empty m hm hgone
    rw [hself] at hno
    exact Bool.noConfusion (hactive.symm.trans hno)
  refine ⟨hroom, findMember_of_mem (h.unique hs) ?_⟩
  rw [h.members]
  refine List.mem_filter.mpr ⟨List.mem_map.mpr ⟨m, hm, hself⟩, by simpa using hroom⟩

theorem afterLeaving_cons_of_ne {m x : RoomMember} (hne : x.key ≠ m.key) :
    afterLeaving (m.key :: done) sessionId now x = afterLeaving done sessionId now x := by
  unfold afterLeaving
  simp only [List.mem_cons, hne, false_or]

theorem afterLeaving_cons_self (m : RoomMember) :
    afterLeaving (m.key :: done) sessionId now m = m.left sessionId (now m) :=
  if_pos List.mem_cons_self

/-- Writing the row of one more member. -/
theorem Rewritten.updateMember (h : Rewritten s (afterLeaving done sessionId now) gone t)
    (hs : s.WellFormed) {m : RoomMember} (hm : m ∈ s.members) :
    (t.updateMember (m.left sessionId (now m))).members =
      (s.members.map (afterLeaving (m.key :: done) sessionId now)).filter
        fun x => x.roomId ∉ gone := by
  have hkey := m.left_key sessionId (now m)
  have hunique : (t.members.map RoomMember.key).Nodup := h.unique hs
  have hfits : ∀ x : RoomMember, x.isOf (m.left sessionId (now m)).roomId
      (m.left sessionId (now m)).accountId = true ↔ x.key = m.key := fun x => by
    rw [RoomMember.isOf_iff, ← hkey]
    rfl
  have hrows : ∀ x ∈ s.members,
      (if (afterLeaving done sessionId now x).key = m.key then m.left sessionId (now m)
        else afterLeaving done sessionId now x) = afterLeaving (m.key :: done) sessionId now x := by
    intro x hx
    rw [afterLeaving_key]
    by_cases hxm : x.key = m.key
    · obtain rfl := List.inj_on_of_nodup_map hs.unique hx hm hxm
      rw [if_pos rfl, afterLeaving_cons_self]
    · rw [if_neg hxm, afterLeaving_cons_of_ne hxm]
  show Rows.replaceFirst _ _ t.members = _
  rw [Rows.replaceFirst_eq_map hfits _ hunique, h.members, List.filter_map, List.filter_map,
    List.map_map]
  have hsame : ∀ x : RoomMember, ((fun y : RoomMember => decide (y.roomId ∉ gone)) ∘
      afterLeaving done sessionId now) x = ((fun y : RoomMember => decide (y.roomId ∉ gone)) ∘
        afterLeaving (m.key :: done) sessionId now) x := by
    intro x
    simp only [Function.comp_apply, afterLeaving_roomId]
  rw [funext hsame]
  exact List.map_congr_left fun x hx => hrows x (List.mem_of_mem_filter hx)

/-- The rows of the other rooms, and of the rooms already gone, are as they were. -/
theorem Rewritten.empty_cons (h : Rewritten s (afterLeaving done sessionId now) gone t)
    {m : RoomMember} (hroom : m.roomId ∉ gone) :
    ∀ x ∈ s.members, x.roomId ∈ gone →
      (afterLeaving (m.key :: done) sessionId now x).isActive = false := by
  intro x hx hgone
  have hne : x.key ≠ m.key := fun hk =>
    hroom ((show x.roomId = m.roomId from congrArg Prod.fst hk) ▸ hgone)
  rw [afterLeaving_cons_of_ne hne]
  exact h.empty x hx hgone

/-- What is to be deleted in another room than the one that is left has been deleted before. -/
theorem Rewritten.complete_cons (h : Rewritten s (afterLeaving done sessionId now) gone t)
    {m : RoomMember} {roomId : String} {room : Room} (hfind : s.findRoomById roomId = some room)
    (hopen : isProtected room = false)
    (hsome : ∃ x ∈ s.members, x.roomId = roomId ∧ x.isActive = true)
    (hnone : ∀ x ∈ s.members, x.roomId = roomId →
      (afterLeaving (m.key :: done) sessionId now x).isActive = false)
    (hne : m.roomId ≠ roomId) : roomId ∈ gone := by
  refine h.complete roomId room hfind hopen hsome fun x hx hr => ?_
  rw [← afterLeaving_cons_of_ne (m := m) fun hk => hne ((congrArg Prod.fst hk).symm.trans hr)]
  exact hnone x hx hr

theorem Rewritten.findRoomById (h : Rewritten s (afterLeaving done sessionId now) gone t)
    {roomId : String} (hroom : roomId ∉ gone) : t.findRoomById roomId = s.findRoomById roomId := by
  unfold RoomStore.findRoomById
  rw [h.rooms, List.find?_filter]
  congr 1
  funext r
  by_cases hr : r.roomId = roomId
  · simp [hr, hroom]
  · simp [hr]

/-- One more member leaves. -/
theorem Rewritten.leave (h : Rewritten s (afterLeaving done sessionId now) gone t)
    (hs : s.WellFormed) {m : RoomMember} (hm : m ∈ s.members) (hactive : m.isActive = true)
    (hin : sessionId = "" ∨ sessionId ∈ m.sessionIds) (hnew : m.key ∉ done)
    (displayName : String → String) :
    ∃ gone', Rewritten s (afterLeaving (m.key :: done) sessionId now) gone'
      (leaveRoom displayName (now m) t m.roomId m.accountId sessionId).store := by
  obtain ⟨hroom, hfind⟩ := h.findMember hs hm hactive hnew
  have hrows := h.updateMember hs hm
  have hempty := h.empty_cons (m := m) hroom
  rw [leaveRoom_store, hfind]
  dsimp only
  rw [if_pos ⟨hactive, hin⟩]
  unfold afterLeave
  -- A room in which the member stays active is not to be deleted.
  have hkept : (∃ x ∈ s.members, x.roomId = m.roomId ∧
        (afterLeaving (m.key :: done) sessionId now x).isActive = true) →
      Rewritten s (afterLeaving (m.key :: done) sessionId now) gone
        (t.updateMember (m.left sessionId (now m))) := by
    intro hstill
    refine ⟨hrows, h.rooms, hempty, fun roomId room hr hopen hsome hnone => ?_⟩
    refine h.complete_cons hr hopen hsome hnone fun heq => ?_
    obtain ⟨x, hx, hxr, hyes⟩ := hstill
    exact Bool.noConfusion (hyes.symm.trans (hnone x hx (hxr.trans heq)))
  cases hleft : (m.left sessionId (now m)).isActive with
  | true =>
    refine ⟨gone, hkept ⟨m, hm, rfl, ?_⟩⟩
    rw [afterLeaving_cons_self]
    exact hleft
  | false =>
    rw [if_neg Bool.false_ne_true]
    rcases maybeDeleteEmptyRoom_cases (t.updateMember (m.left sessionId (now m))) m.roomId with
      ⟨heq, hwhy⟩ | ⟨heq, hnone⟩
    · rw [heq]
      rcases hwhy with ⟨y, hy, hyr, hyes⟩ | hprotected
      · rw [hrows] at hy
        obtain ⟨x, hx, rfl⟩ := List.mem_map.mp (List.mem_of_mem_filter hy)
        refine ⟨gone, hkept ⟨x, hx, ?_, hyes⟩⟩
        rw [← hyr, afterLeaving_roomId]
      · refine ⟨gone, hrows, h.rooms, hempty, fun roomId room hr hopen hsome hnone => ?_⟩
        refine h.complete_cons hr hopen hsome hnone ?_
        rintro rfl
        have hthere : (t.updateMember (m.left sessionId (now m))).findRoomById m.roomId =
            some room := (h.findRoomById hroom).trans hr
        rw [hprotected room hthere] at hopen
        cases hopen
    · rw [heq]
      refine ⟨m.roomId :: gone, ?_, ?_, fun x hx hgone => ?_,
        fun roomId room hr hopen hsome hall => ?_⟩
      · show List.filter _ (t.updateMember _).members = _
        rw [hrows, List.filter_filter]
        refine List.filter_congr fun x _ => Bool.eq_iff_iff.mpr ?_
        simp [not_or]
      · show List.filter _ t.rooms = _
        rw [h.rooms, List.filter_filter]
        refine List.filter_congr fun x _ => Bool.eq_iff_iff.mpr ?_
        simp [not_or]
      · by_cases hxr : x.roomId ∈ gone
        · exact hempty x hx hxr
        · have hxm : x.roomId = m.roomId := (List.mem_cons.mp hgone).resolve_right hxr
          refine hnone _ ?_ ((afterLeaving_roomId _ _ _ _).trans hxm)
          rw [hrows]
          refine List.mem_filter.mpr ⟨List.mem_map_of_mem hx, ?_⟩
          rw [afterLeaving_roomId]
          simpa using hxr
      · by_cases hne : m.roomId = roomId
        · exact hne ▸ List.mem_cons_self
        · exact List.mem_cons_of_mem _ (h.complete_cons hr hopen hsome hall hne)

/-- All of them leave, one after the other. -/
theorem Rewritten.leaveAll (hs : s.WellFormed) (displayName : String → String) :
    ∀ (todo : List RoomMember) (done : List (String × String)) (gone : List String) (t : RoomStore),
      Rewritten s (afterLeaving done sessionId now) gone t →
      (∀ m ∈ todo, m ∈ s.members ∧ m.isActive = true ∧ sessionId ∈ m.sessionIds) →
      (todo.map RoomMember.key).Nodup → (∀ m ∈ todo, m.key ∉ done) →
      ∃ done' gone', (∀ k, k ∈ done' ↔ k ∈ done ∨ k ∈ todo.map RoomMember.key) ∧
        Rewritten s (afterLeaving done' sessionId now) gone' (todo.foldl (fun t m =>
          (leaveRoom displayName (now m) t m.roomId m.accountId sessionId).store) t) := by
  intro todo
  induction todo with
  | nil => exact fun done gone t h _ _ _ => ⟨done, gone, fun k => by simp, h⟩
  | cons m todo ih =>
    intro done gone t h hall hn hnew
    obtain ⟨hmn, hn⟩ := List.nodup_cons.mp hn
    obtain ⟨hm, hactive, hin⟩ := hall m List.mem_cons_self
    obtain ⟨gone₁, h₁⟩ :=
      h.leave hs hm hactive (.inr hin) (hnew m List.mem_cons_self) displayName
    obtain ⟨done', gone', hdone, h'⟩ := ih (m.key :: done) gone₁ _ h₁
      (fun x hx => hall x (List.mem_cons_of_mem _ hx)) hn (fun x hx hk => by
        rcases List.mem_cons.mp hk with hk | hk
        · exact hmn (hk ▸ List.mem_map_of_mem hx)
        · exact hnew x (List.mem_cons_of_mem _ hx) hk)
    refine ⟨done', gone', fun k => ?_, h'⟩
    rw [hdone, List.mem_cons, List.map_cons, List.mem_cons]
    tauto

end Leave

/-- A room that loses its last active member is deleted with all its rows, unless it is
protected. -/
def Emptied (s t : RoomStore) : Prop :=
  ∀ roomId room, s.findRoomById roomId = some room → isProtected room = false →
    (∃ m ∈ s.members, m.roomId = roomId ∧ m.isActive = true) →
    (∀ m ∈ t.members, m.roomId = roomId → m.isActive = false) →
    (∀ r ∈ t.rooms, r.roomId ≠ roomId) ∧ ∀ m ∈ t.members, m.roomId ≠ roomId

/-- What becomes of the members when the session is lost. -/
structure Disconnected (s t : RoomStore) (sessionId : String) : Prop where
  unlisted : ∀ m ∈ t.members, m.isActive = true → sessionId ∉ m.sessionIds
  stays : ∀ m ∈ s.members, m.isActive = true → sessionId ∈ m.sessionIds →
    ((∃ m' ∈ t.members, m'.key = m.key ∧ m'.isActive = true) ↔
      ∃ x ∈ m.sessionIds, x ≠ sessionId)
  others : ∀ m ∈ s.members, (m.isActive = true → sessionId ∉ m.sessionIds) →
    m ∈ t.members ∨ ∀ r ∈ t.rooms, r.roomId ≠ m.roomId
  noNew : ∀ m' ∈ t.members, ∃ m ∈ s.members, m.key = m'.key

theorem Rewritten.mem {s t : RoomStore} {f : RoomMember → RoomMember} {gone : List String}
    (h : Rewritten s f gone t) {m' : RoomMember} :
    m' ∈ t.members ↔ ∃ m ∈ s.members, f m = m' ∧ m'.roomId ∉ gone := by
  rw [h.members, List.mem_filter, List.mem_map, decide_eq_true_eq]
  constructor
  · intro hm
    obtain ⟨⟨m, hm, heq⟩, hroom⟩ := hm
    exact ⟨m, hm, heq, hroom⟩
  · intro hm
    obtain ⟨m, hm, heq, hroom⟩ := hm
    exact ⟨⟨m, hm, heq⟩, hroom⟩

theorem Rewritten.emptied {s t : RoomStore} {f : RoomMember → RoomMember} {gone : List String}
    (h : Rewritten s f gone t) (hroom : ∀ m, (f m).roomId = m.roomId) : Emptied s t := by
  intro roomId room hfind hopen hsome hnone
  have hgone : roomId ∈ gone := by
    by_contra hnot
    refine hnot (h.complete roomId room hfind hopen hsome fun m hm hr => ?_)
    have hr' : (f m).roomId = roomId := (hroom m).trans hr
    exact hnone _ (h.mem.mpr ⟨m, hm, rfl, hr' ▸ hnot⟩) hr'
  refine ⟨fun r hr heq => ?_, fun m hm heq => ?_⟩
  · rw [h.rooms] at hr
    have hnot := (List.mem_filter.mp hr).2
    rw [decide_eq_true_eq, heq] at hnot
    exact hnot hgone
  · obtain ⟨_, _, _, hnot⟩ := h.mem.mp hm
    exact hnot (heq ▸ hgone)

end RoomStore

namespace RoomService
open RoomManager RoomStore

theorem onSessionDisconnect_rewritten {s : RoomStore} (hs : s.WellFormed)
    (displayName : String → String) (now : RoomMember → String) (sessionId : String) :
    ∃ done gone, (∀ m ∈ s.members, m.key ∈ done ↔ m.isActive = true ∧ sessionId ∈ m.sessionIds) ∧
      Rewritten s (afterLeaving done sessionId now) gone
        (onSessionDisconnect displayName now s sessionId) := by
  have hfound : ∀ m ∈ s.findActiveMembersContainingSession sessionId,
      m ∈ s.members ∧ m.isActive = true ∧ sessionId ∈ m.sessionIds := by
    intro m hm
    obtain ⟨hmem, hboth⟩ := List.mem_filter.mp hm
    obtain ⟨hin, hactive⟩ := Bool.and_eq_true_iff.mp hboth
    exact ⟨hmem, hactive, List.contains_iff_mem.mp hin⟩
  obtain ⟨done, gone, hdone, h⟩ := Rewritten.leaveAll hs displayName
    (s.findActiveMembersContainingSession sessionId) [] [] s
    (rewritten_start sessionId now) hfound
    (hs.unique.sublist (List.filter_sublist.map _)) (fun _ _ h => by cases h)
  refine ⟨done, gone, fun m hm => ?_, h⟩
  rw [hdone, or_iff_right List.not_mem_nil, List.mem_map]
  constructor
  · intro hk
    obtain ⟨x, hx, hk⟩ := hk
    obtain ⟨hxm, hboth⟩ := hfound x hx
    rw [← List.inj_on_of_nodup_map hs.unique hxm hm hk]
    exact hboth
  · intro hboth
    refine ⟨m, List.mem_filter.mpr ⟨hm, ?_⟩, rfl⟩
    rw [hboth.1, Bool.and_true]
    exact List.contains_iff_mem.mpr hboth.2

theorem onSessionDisconnect_spec {s : RoomStore} (hs : s.Sound) (displayName : String → String)
    (now : RoomMember → String) (sessionId : String) :
    Disconnected s (onSessionDisconnect displayName now s sessionId) sessionId ∧
      Emptied s (onSessionDisconnect displayName now s sessionId) := by
  obtain ⟨done, gone, hdone, h⟩ :=
    onSessionDisconnect_rewritten hs.toWellFormed displayName now sessionId
  have hroom := afterLeaving_roomId done sessionId now
  -- A session without a name is in no active row.
  have hnamed : ∀ m ∈ s.members, m.key ∈ done → sessionId ≠ "" := by
    rintro m hm hk rfl
    obtain ⟨hactive, hin⟩ := (hdone m hm).mp hk
    exact hs.named m.roomId m.accountId ⟨m, hm, RoomMember.isOf_iff.mpr rfl, hactive, hin⟩
  refine ⟨⟨fun m' hm' hactive => ?_, fun m hm hactive hin => ?_, fun m hm hnot => ?_,
    fun m' hm' => ?_⟩, h.emptied hroom⟩
  · obtain ⟨m, hm, rfl, _⟩ := h.mem.mp hm'
    by_cases hk : m.key ∈ done
    · rw [afterLeaving, if_pos hk, m.left_sessionIds (hnamed m hm hk)]
      exact (hs.sessions m hm).not_mem_erase
    · rw [afterLeaving, if_neg hk] at hactive ⊢
      exact fun hin => hk ((hdone m hm).mpr ⟨hactive, hin⟩)
  · have hk : m.key ∈ done := (hdone m hm).mpr ⟨hactive, hin⟩
    have hrow : afterLeaving done sessionId now m = m.left sessionId (now m) := if_pos hk
    rw [← m.left_isActive hactive (hs.sessions m hm) (hnamed m hm hk) (now m), ← hrow]
    constructor
    · intro hstill
      obtain ⟨m', hm', hkey, hyes⟩ := hstill
      obtain ⟨x, hx, rfl, _⟩ := h.mem.mp hm'
      rw [afterLeaving_key] at hkey
      rwa [List.inj_on_of_nodup_map hs.unique hx hm hkey] at hyes
    · intro hyes
      refine ⟨_, h.mem.mpr ⟨m, hm, rfl, fun hgone => ?_⟩, afterLeaving_key _ _ _ _, hyes⟩
      rw [hroom] at hgone
      exact Bool.noConfusion (hyes.symm.trans (h.empty m hm hgone))
  · have hk : m.key ∉ done := fun hk => by
      obtain ⟨hactive, hin⟩ := (hdone m hm).mp hk
      exact hnot hactive hin
    by_cases hgone : m.roomId ∈ gone
    · refine .inr fun r hr heq => ?_
      rw [h.rooms] at hr
      have hkept := (List.mem_filter.mp hr).2
      rw [decide_eq_true_eq, heq] at hkept
      exact hkept hgone
    · exact .inl (h.mem.mpr ⟨m, hm, if_neg hk, hgone⟩)
  · obtain ⟨m, hm, rfl, _⟩ := h.mem.mp hm'
    exact ⟨m, hm, (afterLeaving_key _ _ _ _).symm⟩

theorem leaveRoom_emptied {s : RoomStore} (hs : s.WellFormed) (displayName : String → String)
    (now roomId accountId sessionId : String) :
    Emptied s (leaveRoom displayName now s roomId accountId sessionId).store := by
  have hsame : Emptied s s := by
    intro r room _ _ hsome hnone
    obtain ⟨m, hm, hr, hyes⟩ := hsome
    exact Bool.noConfusion (hyes.symm.trans (hnone m hm hr))
  cases hfind : s.findMember roomId accountId with
  | none =>
    rw [leaveRoom_store, hfind]
    exact hsame
  | some m =>
    obtain ⟨hm, hkey⟩ := findMember_eq_some hfind
    obtain ⟨rfl, rfl⟩ := Prod.mk.inj hkey
    by_cases hboth : m.isActive = true ∧ (sessionId = "" ∨ sessionId ∈ m.sessionIds)
    · obtain ⟨gone, h⟩ := (rewritten_start sessionId fun _ => now).leave hs hm hboth.1 hboth.2
        List.not_mem_nil displayName
      exact h.emptied (afterLeaving_roomId _ _ _)
    · rw [leaveRoom_store, hfind]
      dsimp only
      rw [if_neg hboth]
      exact hsame

/-- In every state any history reaches: one row for a room and an account, no session twice in a
row, every row in a room that is there; a lost session is taken out of every membership, and only
those are touched; and a room goes with its last active member. -/
theorem run_invariants (ops : List Operation) :
    let s := (Machine.run step {} ops).store
    (s.members.map RoomMember.key).Nodup ∧ (∀ m ∈ s.members, m.sessionIds.Nodup) ∧
      (∀ m ∈ s.members, ∃ r ∈ s.rooms, r.roomId = m.roomId) ∧
      (∀ displayName now sessionId,
        let t := onSessionDisconnect displayName now s sessionId
        Disconnected s t sessionId ∧ Emptied s t) ∧
      ∀ displayName now roomId accountId sessionId,
        Emptied s (leaveRoom displayName now s roomId accountId sessionId).store := by
  intro s
  have h : s.Sound := run_sound ops
  exact ⟨h.unique, h.sessions, h.housed,
    fun displayName now sessionId => onSessionDisconnect_spec h displayName now sessionId,
    fun displayName now roomId accountId sessionId =>
      leaveRoom_emptied h.toWellFormed displayName now roomId accountId sessionId⟩

end RoomService

end IrisMind.Rooms
