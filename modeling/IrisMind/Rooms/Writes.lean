import IrisMind.Accounts.Writes
import IrisMind.Rooms.Dispatcher
import IrisMind.Rooms.Membership

/-! # Which control messages write rooms

A lookup tells whether a call has written: a new room is one more, a deleted one
is not found, a membership that has changed is found changed, and a room that has
been updated carries the time. -/
namespace IrisMind.Rooms
open IrisMind.Lib IrisMind.Accounts IrisMind.Sessions

namespace RoomStore

/-- Writing another row for a membership changes the store. -/
theorem updateMember_ne {s : RoomStore} {roomId accountId : String} {old new : RoomMember}
    (h : s.findMember roomId accountId = some old) (hnew : new.key = (roomId, accountId))
    (hne : new ≠ old) : s.updateMember new ≠ s := by
  intro hsame
  cases hnew
  exact Rows.replaceFirst_ne (fun m : RoomMember => m.isOf new.roomId new.accountId)
    (RoomMember.isOf_iff.mpr rfl) h hne (congrArg RoomStore.members hsame)

theorem addMember_ne (s : RoomStore) (m : RoomMember) : s.addMember m ≠ s := by
  intro hsame
  have hlength := congrArg (fun t : RoomStore => t.members.length) hsame
  simp [addMember] at hlength

theorem addRoom_ne (s : RoomStore) (r : Room) : s.addRoom r ≠ s := by
  intro hsame
  have hlength := congrArg (fun t : RoomStore => t.rooms.length) hsame
  simp [addRoom] at hlength

theorem findMember_deleteRoom (s : RoomStore) (roomId accountId : String) :
    (s.deleteRoom roomId).findMember roomId accountId = none := by
  refine List.find?_eq_none.mpr fun m hm hof => ?_
  have hkept := (List.mem_filter.mp hm).2
  have hkey := RoomMember.isOf_iff.mp hof
  have hroom : m.roomId = roomId := congrArg Prod.fst hkey
  rw [hroom, bne_self_eq_false] at hkept
  cases hkept

theorem findRoomById_deleteRoom (s : RoomStore) (roomId : String) :
    (s.deleteRoom roomId).findRoomById roomId = none := by
  refine List.find?_eq_none.mpr fun r hr hid => ?_
  have hkept := (List.mem_filter.mp hr).2
  rw [beq_iff_eq.mp hid, bne_self_eq_false] at hkept
  cases hkept

theorem roomId_of_find {s : RoomStore} {roomId : String} {room : Room}
    (h : s.findRoomById roomId = some room) : room.roomId = roomId := by
  have hfits : (room.roomId == roomId) = true :=
    List.find?_some (p := fun r : Room => r.roomId == roomId) h
  exact beq_iff_eq.mp hfits

theorem findRoomById_updateRoom {s : RoomStore} {roomId : String} {old new : Room}
    (h : s.findRoomById roomId = some old) (hnew : new.roomId = roomId) :
    (s.updateRoom new).findRoomById roomId = some new := by
  subst hnew
  exact Rows.find?_replaceFirst (fun r : Room => r.roomId == new.roomId) (beq_self_eq_true _) h

theorem updateRoom_ne {s : RoomStore} {roomId : String} {old new : Room}
    (h : s.findRoomById roomId = some old) (hnew : new.roomId = roomId) (hne : new ≠ old) :
    s.updateRoom new ≠ s := by
  intro hsame
  subst hnew
  exact Rows.replaceFirst_ne (fun r : Room => r.roomId == new.roomId) (beq_self_eq_true _) h hne
    (congrArg RoomStore.rooms hsame)

theorem updateRoom_self {s : RoomStore} {roomId : String} {room : Room}
    (h : s.findRoomById roomId = some room) : s.updateRoom room = s := by
  have hid := roomId_of_find h
  subst hid
  unfold updateRoom
  rw [Rows.replaceFirst_self (fun r : Room => r.roomId == room.roomId) h]

end RoomStore

namespace RoomManager

/-! ## Joining and leaving -/

/-- The join puts the session into a membership of an active room. -/
def JoinWrites (s : RoomStore) (roomId accountId sessionId : String) : Prop :=
  ∃ room, s.findRoomById roomId = some room ∧ room.state = .active ∧
    ∀ m, s.findMember roomId accountId = some m → m.isActive = true →
      sessionId ≠ "" ∧ sessionId ∉ m.sessionIds

/-- The leave takes the session, or everybody, out of an active membership. -/
def LeaveWrites (s : RoomStore) (roomId accountId sessionId : String) : Prop :=
  ∃ m, s.findMember roomId accountId = some m ∧ m.isActive = true ∧
    (sessionId = "" ∨ sessionId ∈ m.sessionIds)

theorem joinRoom_store_iff (displayName : String → String) (now : String) (s : RoomStore)
    (roomId accountId sessionId role : String) :
    (joinRoom displayName now s roomId accountId sessionId role).store = s ↔
      ¬ JoinWrites s roomId accountId sessionId := by
  unfold joinRoom JoinWrites
  dsimp only
  cases hroom : s.findRoomById roomId with
  | none => simp
  | some room =>
    dsimp only
    by_cases hstate : room.state = .active
    · rw [if_neg (by simp [hstate])]
      cases hfind : s.findMember roomId accountId with
      | none =>
        refine iff_of_false (RoomStore.addMember_ne s _) (not_not_intro ⟨room, rfl, hstate, ?_⟩)
        intro m hm
        cases hm
      | some existing =>
        have hkey := (RoomStore.findMember_eq_some hfind).2
        dsimp only
        split
        · next hlive =>
          split
          · next hnew =>
            obtain ⟨hne, hout⟩ := Bool.and_eq_true_iff.mp hnew
            refine iff_of_false ?_ (not_not_intro ⟨room, rfl, hstate, fun m hm _ => ?_⟩)
            · refine RoomStore.updateMember_ne hfind hkey fun hsame => ?_
              have hlength := congrArg (fun m : RoomMember => m.sessionIds.length) hsame
              simp at hlength
            · cases hm
              exact ⟨of_decide_eq_true hne, by simpa using hout⟩
          · next hold =>
            refine iff_of_true rfl ?_
            intro hwrites
            obtain ⟨_, _, _, hall⟩ := hwrites
            obtain ⟨hne, hout⟩ := hall existing rfl hlive
            exact hold (by simp [hne, hout])
        · next hdead =>
          refine iff_of_false ?_ (not_not_intro ⟨room, rfl, hstate, fun m hm hlive => ?_⟩)
          · refine RoomStore.updateMember_ne hfind hkey fun hsame => hdead ?_
            rw [← hsame]
            rfl
          · cases hm
            exact absurd hlive hdead
    · rw [if_pos hstate]
      refine iff_of_true rfl ?_
      intro hwrites
      obtain ⟨_, hsame, hactive, _⟩ := hwrites
      cases hsame
      exact hstate hactive

/-- A membership that has got a disconnect time is not as it was, be the room deleted or not. -/
theorem disconnect_ne {s : RoomStore} {roomId accountId now : String} {member : RoomMember}
    (row : RoomMember) (hfind : s.findMember roomId accountId = some member)
    (hlive : member.isActive = true) (hkey : row.key = (roomId, accountId)) :
    maybeDeleteEmptyRoom (s.updateMember { row with disconnectedAt := some now }) roomId ≠ s := by
  intro hsame
  unfold maybeDeleteEmptyRoom at hsame
  have hnot : s.updateMember { row with disconnectedAt := some now } ≠ s := by
    refine RoomStore.updateMember_ne hfind hkey fun heq => ?_
    rw [← heq] at hlive
    cases hlive
  split at hsame
  · exact hnot hsame
  split at hsame
  · exact hnot hsame
  split at hsame
  · exact hnot hsame
  · have hgone := RoomStore.findMember_deleteRoom
      (s.updateMember { row with disconnectedAt := some now }) roomId accountId
    have hdeleted : (s.updateMember { row with disconnectedAt := some now }).deleteRoom roomId =
      s := hsame
    rw [hdeleted, hfind] at hgone
    cases hgone

theorem leaveRoom_store_iff (displayName : String → String) (now : String) (s : RoomStore)
    (roomId accountId sessionId : String) :
    (leaveRoom displayName now s roomId accountId sessionId).store = s ↔
      ¬ LeaveWrites s roomId accountId sessionId := by
  unfold leaveRoom LeaveWrites
  dsimp only
  cases hfind : s.findMember roomId accountId with
  | none => simp
  | some member =>
    have hkey := (RoomStore.findMember_eq_some hfind).2
    dsimp only
    split
    · next hdead =>
      refine iff_of_true rfl ?_
      intro hwrites
      obtain ⟨_, hsame, hlive, _⟩ := hwrites
      cases hsame
      rw [hlive] at hdead
      cases hdead
    next hnot =>
    have hlive : member.isActive = true := by simpa using hnot
    split
    · next hsession =>
      exact iff_of_false (disconnect_ne member hfind hlive hkey)
        (not_not_intro ⟨member, rfl, hlive, .inl hsession⟩)
    next hsession =>
    split
    · next hin =>
      have hmem : sessionId ∈ member.sessionIds := by simpa using hin
      refine iff_of_false ?_ (not_not_intro ⟨member, rfl, hlive, .inr hmem⟩)
      split
      · exact disconnect_ne { member with sessionIds := member.sessionIds.erase sessionId } hfind
          hlive hkey
      · refine RoomStore.updateMember_ne hfind hkey fun hsame => ?_
        have hlength := congrArg (fun m : RoomMember => m.sessionIds.length) hsame
        have hpos := List.length_pos_of_mem hmem
        simp only [List.length_erase_of_mem hmem] at hlength
        omega
    · next hout =>
      refine iff_of_true rfl ?_
      intro hwrites
      obtain ⟨_, hsame, _, hin⟩ := hwrites
      cases hsame
      exact hout (by simpa using hin.resolve_left hsession)

/-! ## Updates -/

/-- The update stamps the room, unless its metadata cannot be compared and nothing else is new. -/
def UpdateWrites (same : Json → Json → Option Bool) (s : RoomStore) (roomId : String)
    (u : RoomUpdate) : Prop :=
  ∃ room, s.findRoomById roomId = some room ∧
    ∀ metadata, u.metadata = some metadata → same (.obj room.metadata) (.obj metadata) = none →
      u.applied room ≠ room

theorem updateRoom_store_of_not_writes {same : Json → Json → Option Bool} {s : RoomStore}
    {roomId : String} {u : RoomUpdate} (h : ¬ UpdateWrites same s roomId u) (now : String) :
    (updateRoom same s now roomId u).2 = s := by
  cases hroom : s.findRoomById roomId with
  | none => simp [updateRoom, hroom]
  | some room =>
    have hself : u.applied room = room := by
      by_contra hne
      exact h ⟨room, hroom, fun _ _ _ => hne⟩
    rcases updateRoom_cases same hroom now u with ⟨_, hrun⟩ | ⟨hnot, _⟩
    · rw [hrun, hself]
      exact RoomStore.updateRoom_self hroom
    · exact absurd ⟨room, hroom, fun m hm hnone _ => hnot ⟨m, hm, hnone⟩⟩ h

theorem not_forall_updateRoom {same : Json → Json → Option Bool} {s : RoomStore}
    {roomId : String} {u : RoomUpdate} (h : UpdateWrites same s roomId u) :
    ¬ ∀ now, (updateRoom same s now roomId u).2 = s := by
  intro hsame
  obtain ⟨room, hroom, hnew⟩ := h
  have hid : room.roomId = roomId := RoomStore.roomId_of_find hroom
  -- A room that has been stamped shows the time.
  refine not_forall_stamp room.updatedAt fun now => ?_
  have hkept := hsame now
  rcases updateRoom_cases same hroom now u with
    ⟨⟨m, hm, hnone⟩, hrun⟩ | ⟨_, new, hrun, hnewId, hat⟩
  · rw [hrun] at hkept
    exact absurd hkept (RoomStore.updateRoom_ne hroom hid (hnew m hm hnone))
  · have hfound := RoomStore.findRoomById_updateRoom hroom (hnewId.trans hid)
    have hstore : s.updateRoom new = s := by
      rw [hrun] at hkept
      exact hkept
    rw [hstore, hroom] at hfound
    cases hfound
    exact hat

end RoomManager

namespace RoomDispatcher

/-- The message writes the rooms, or the accounts on the way to a membership. -/
def Writes (codec : Codec) (rooms : RoomStore) (msg : ControlMessage) (sessionId : String) :
    Prop :=
  match RoomAction.ofText? msg.action with
  | some .create => Text.strip msg.text ≠ ""
  | some .join => ∃ room, msg.roomId ≠ "" ∧ rooms.findRoomById msg.roomId = some room ∧
      if msg.accountId = "" then (parseIdentity msg.identity).key?.isSome = true
      else RoomManager.JoinWrites rooms msg.roomId msg.accountId sessionId
  | some .leave => ∃ room, msg.roomId ≠ "" ∧ rooms.findRoomById msg.roomId = some room ∧
      if msg.accountId = "" then (parseIdentity msg.identity).key?.isSome = true
      else RoomManager.LeaveWrites rooms msg.roomId msg.accountId sessionId
  | some .update => ∃ room, msg.roomId ≠ "" ∧ rooms.findRoomById msg.roomId = some room ∧
      updateFields codec msg ≠ [] ∧ ∃ u, coerceUpdate codec (updateFields codec msg) = .update u ∧
        RoomManager.UpdateWrites codec.same rooms msg.roomId u
  | some .delete => ∃ room, msg.roomId ≠ "" ∧ rooms.findRoomById msg.roomId = some room
  | _ => False

/-- The two stores are as they were. -/
def Keeps (run : DispatchRun) (accounts : AccountStore) (rooms : RoomStore) : Prop :=
  run.accounts = accounts ∧ run.rooms = rooms

variable {codec : Codec} {accounts : AccountStore} {rooms : RoomStore} {msg : ControlMessage}

theorem withRoom_of_found {action : RoomAction} {room : Room} (hid : msg.roomId ≠ "")
    (hroom : rooms.findRoomById msg.roomId = some room) (serve : Room → DispatchRun) :
    withRoom accounts rooms msg action serve = serve room := by
  unfold withRoom
  rw [if_neg hid, hroom]

theorem keeps_withRoom {action : RoomAction} {serve : Room → DispatchRun}
    (h : ∀ room, msg.roomId ≠ "" → rooms.findRoomById msg.roomId = some room →
      Keeps (serve room) accounts rooms) :
    Keeps (withRoom accounts rooms msg action serve) accounts rooms := by
  unfold withRoom
  split
  · exact ⟨rfl, rfl⟩
  · next hid =>
    cases hroom : rooms.findRoomById msg.roomId with
    | none => exact ⟨rfl, rfl⟩
    | some room => exact h room hid hroom

/-- An account that is named is taken as it is, and an identity is resolved only where none is. -/
theorem resolveAccount_cases (accounts : AccountStore) (drawn : Drawn) (msg : ControlMessage) :
    (msg.accountId ≠ "" ∧
        resolveAccount accounts drawn msg = { value := msg.accountId, store := accounts }) ∨
      (msg.accountId = "" ∧ (parseIdentity msg.identity).key? = none ∧
        resolveAccount accounts drawn msg = { value := "", store := accounts }) ∨
      msg.accountId = "" ∧ ∃ provider subject,
        (parseIdentity msg.identity).key? = some (provider, subject) ∧
          (resolveAccount accounts drawn msg).store.SeenAt provider subject drawn.now := by
  unfold resolveAccount
  by_cases hnamed : msg.accountId = ""
  · rw [if_neg (not_not_intro hnamed)]
    dsimp only
    cases hkey : (parseIdentity msg.identity).key? with
    | none => exact .inr (.inl ⟨hnamed, rfl, rfl⟩)
    | some key =>
      obtain ⟨provider, subject⟩ := key
      exact .inr (.inr ⟨hnamed, provider, subject, rfl,
        AccountManager.seenAt_resolveOrCreateIdentity _ _ _ _ _ _⟩)
  · rw [if_pos hnamed]
    exact .inl ⟨hnamed, rfl⟩

/-- A change of a membership is kept from happening by what it would change, or by there being no
account; an identity that is resolved on the way is stamped in any case. -/
theorem membership_keeps_iff {run : Drawn → DispatchRun} {writes : Prop}
    (change : (String → String) → String → String → RoomStore)
    (hrun : ∀ drawn, (run drawn).accounts = (resolveAccount accounts drawn msg).store ∧
      (run drawn).rooms =
        if (resolveAccount accounts drawn msg).value = "" then rooms
        else change (AccountManager.resolveDisplayName (resolveAccount accounts drawn msg).store)
          drawn.now (resolveAccount accounts drawn msg).value)
    (hchange : ∀ displayName now, change displayName now msg.accountId = rooms ↔ ¬ writes) :
    (∀ drawn, Keeps (run drawn) accounts rooms) ↔
      ¬ if msg.accountId = "" then (parseIdentity msg.identity).key?.isSome = true else writes := by
  by_cases hnamed : msg.accountId = ""
  · rw [if_pos hnamed]
    constructor
    · intro h hkey
      obtain ⟨⟨provider, subject⟩, hkey⟩ := Option.isSome_iff_exists.mp hkey
      refine AccountStore.not_forall_seenAt accounts provider subject fun drawn => ?_
      rcases resolveAccount_cases accounts drawn msg with
        ⟨hne, _⟩ | ⟨_, hnone, _⟩ | ⟨_, p, x, hsome, hseen⟩
      · exact absurd hnamed hne
      · rw [hkey] at hnone
        cases hnone
      · rw [hkey] at hsome
        cases hsome
        rw [← (hrun drawn).1, (h drawn).1] at hseen
        exact hseen
    · intro hkey drawn
      rcases resolveAccount_cases accounts drawn msg with
        ⟨hne, _⟩ | ⟨_, _, hresolved⟩ | ⟨_, p, x, hsome, _⟩
      · exact absurd hnamed hne
      · obtain ⟨haccounts, hrooms⟩ := hrun drawn
        rw [hresolved] at haccounts hrooms
        exact ⟨haccounts, hrooms⟩
      · exact absurd (by rw [hsome]; rfl) hkey
  · rw [if_neg hnamed]
    have hresolved : ∀ drawn,
        resolveAccount accounts drawn msg = { value := msg.accountId, store := accounts } := by
      intro drawn
      rcases resolveAccount_cases accounts drawn msg with ⟨_, h⟩ | ⟨h, _⟩ | ⟨h, _⟩
      · exact h
      · exact absurd h hnamed
      · exact absurd h hnamed
    constructor
    · intro h
      obtain ⟨_, hrooms⟩ := hrun ⟨"", ""⟩
      rw [hresolved, if_neg hnamed, (h ⟨"", ""⟩).2] at hrooms
      exact (hchange _ _).mp hrooms.symm
    · intro h drawn
      obtain ⟨haccounts, hrooms⟩ := hrun drawn
      rw [hresolved] at haccounts hrooms
      rw [if_neg hnamed] at hrooms
      exact ⟨haccounts, hrooms.trans ((hchange _ _).mpr h)⟩

/-- Where no room is found, nothing changes. -/
theorem keeps_withRoom_iff {action : RoomAction} {serve : Drawn → Room → DispatchRun}
    {writes : Room → Prop}
    (h : ∀ room, msg.roomId ≠ "" → rooms.findRoomById msg.roomId = some room →
      ((∀ drawn, Keeps (serve drawn room) accounts rooms) ↔ ¬ writes room)) :
    (∀ drawn, Keeps (withRoom accounts rooms msg action (serve drawn)) accounts rooms) ↔
      ¬ ∃ room, msg.roomId ≠ "" ∧ rooms.findRoomById msg.roomId = some room ∧ writes room := by
  by_cases hfound : ∃ room, msg.roomId ≠ "" ∧ rooms.findRoomById msg.roomId = some room
  · obtain ⟨room, hid, hroom⟩ := hfound
    have hserve : ∀ drawn, withRoom accounts rooms msg action (serve drawn) = serve drawn room :=
      fun drawn => withRoom_of_found hid hroom (serve drawn)
    simp only [hserve]
    rw [h room hid hroom, not_iff_not]
    constructor
    · intro hw
      exact ⟨room, hid, hroom, hw⟩
    · intro hwrites
      obtain ⟨_, _, hsame, hw⟩ := hwrites
      rw [hroom] at hsame
      cases hsame
      exact hw
  · refine iff_of_true (fun drawn => keeps_withRoom fun room hid hroom => ?_) ?_
    · exact absurd ⟨room, hid, hroom⟩ hfound
    · intro hwrites
      obtain ⟨room, hid, hroom, _⟩ := hwrites
      exact hfound ⟨room, hid, hroom⟩

theorem keeps_tell (action : RoomAction) (roomId : String) (value : Json) :
    Keeps (tell codec accounts rooms msg action roomId value) accounts rooms := ⟨rfl, rfl⟩

theorem keeps_handleCreate_iff :
    (∀ drawn, Keeps (handleCreate accounts rooms drawn msg) accounts rooms) ↔
      ¬ Text.strip msg.text ≠ "" := by
  unfold handleCreate
  dsimp only
  by_cases hname : Text.strip msg.text = ""
  · simp only [if_pos hname]
    exact iff_of_true (fun _ => ⟨rfl, rfl⟩) (not_not_intro hname)
  · simp only [if_neg hname]
    refine iff_of_false (fun h => ?_) (not_not_intro hname)
    exact RoomStore.addRoom_ne rooms _ (h ⟨"", ""⟩).2

theorem keeps_handleJoin_iff (sessionId : String) :
    (∀ drawn, Keeps (handleJoin accounts rooms drawn msg sessionId) accounts rooms) ↔
      ¬ ∃ room, msg.roomId ≠ "" ∧ rooms.findRoomById msg.roomId = some room ∧
        if msg.accountId = "" then (parseIdentity msg.identity).key?.isSome = true
        else RoomManager.JoinWrites rooms msg.roomId msg.accountId sessionId := by
  refine keeps_withRoom_iff fun room _ _ => membership_keeps_iff
    (fun displayName now accountId =>
      (RoomManager.joinRoom displayName now rooms msg.roomId accountId sessionId).store)
    (fun drawn => ?_)
    fun displayName now => RoomManager.joinRoom_store_iff displayName now rooms msg.roomId
      msg.accountId sessionId "member"
  dsimp only
  split
  · exact ⟨rfl, rfl⟩
  · exact ⟨rfl, rfl⟩

theorem keeps_handleLeave_iff (sessionId : String) :
    (∀ drawn, Keeps (handleLeave accounts rooms drawn msg sessionId) accounts rooms) ↔
      ¬ ∃ room, msg.roomId ≠ "" ∧ rooms.findRoomById msg.roomId = some room ∧
        if msg.accountId = "" then (parseIdentity msg.identity).key?.isSome = true
        else RoomManager.LeaveWrites rooms msg.roomId msg.accountId sessionId := by
  refine keeps_withRoom_iff fun room _ _ => membership_keeps_iff
    (fun displayName now accountId =>
      (RoomManager.leaveRoom displayName now rooms msg.roomId accountId sessionId).store)
    (fun drawn => ?_)
    fun displayName now => RoomManager.leaveRoom_store_iff displayName now rooms msg.roomId
      msg.accountId sessionId
  dsimp only
  split
  · exact ⟨rfl, rfl⟩
  · exact ⟨rfl, rfl⟩

theorem keeps_handleUpdate_iff :
    (∀ drawn, Keeps (handleUpdate codec accounts rooms drawn msg) accounts rooms) ↔
      ¬ ∃ room, msg.roomId ≠ "" ∧ rooms.findRoomById msg.roomId = some room ∧
        updateFields codec msg ≠ [] ∧
          ∃ u, coerceUpdate codec (updateFields codec msg) = .update u ∧
            RoomManager.UpdateWrites codec.same rooms msg.roomId u := by
  refine keeps_withRoom_iff fun room hid hroom => ?_
  dsimp only
  cases hfields : updateFields codec msg with
  | nil => exact iff_of_true (fun _ => ⟨rfl, rfl⟩) fun ⟨hne, _⟩ => hne rfl
  | cons field rest =>
    simp only [List.isEmpty_cons, Bool.false_eq_true, if_false]
    cases hcoerced : coerceUpdate codec (field :: rest) with
    | raised =>
      refine iff_of_true (fun _ => ⟨rfl, rfl⟩) ?_
      intro hwrites
      obtain ⟨_, _, hnone, _⟩ := hwrites
      cases hnone
    | invalid state =>
      refine iff_of_true (fun _ => ⟨rfl, rfl⟩) ?_
      intro hwrites
      obtain ⟨_, _, hnone, _⟩ := hwrites
      cases hnone
    | update u =>
      constructor
      · intro h hcoerced
        obtain ⟨_, _, hsame, hwrites⟩ := hcoerced
        cases hsame
        exact RoomManager.not_forall_updateRoom hwrites fun now => (h ⟨"", now⟩).2
      · intro h drawn
        refine ⟨rfl, RoomManager.updateRoom_store_of_not_writes (fun hwrites => ?_) drawn.now⟩
        exact h ⟨List.cons_ne_nil _ _, u, rfl, hwrites⟩

theorem keeps_handleDelete_iff :
    (∀ _ : Drawn, Keeps (handleDelete accounts rooms msg) accounts rooms) ↔
      ¬ ∃ room, msg.roomId ≠ "" ∧ rooms.findRoomById msg.roomId = some room := by
  have hdelete : (∀ _ : Drawn, Keeps (handleDelete accounts rooms msg) accounts rooms) ↔
      ¬ ∃ room, msg.roomId ≠ "" ∧ rooms.findRoomById msg.roomId = some room ∧ True := by
    refine keeps_withRoom_iff fun room _ hroom => ?_
    refine iff_of_false (fun h => ?_) (not_not_intro trivial)
    have hgone := RoomStore.findRoomById_deleteRoom rooms msg.roomId
    have hsame : rooms.deleteRoom msg.roomId = rooms := (h ⟨"", ""⟩).2
    rw [hsame, hroom] at hgone
    cases hgone
  simp only [and_true] at hdelete
  exact hdelete

theorem keeps_iff (codec : Codec) (accounts : AccountStore) (rooms : RoomStore)
    (msg : ControlMessage) (sessionId : String) :
    (∀ drawn, Keeps (handleControlMessage codec accounts rooms drawn msg sessionId) accounts
      rooms) ↔ ¬ Writes codec rooms msg sessionId := by
  unfold Writes handleControlMessage
  cases RoomAction.ofText? msg.action with
  | none => exact iff_of_true (fun _ => ⟨rfl, rfl⟩) id
  | some action =>
    cases action with
    | create => exact keeps_handleCreate_iff
    | list => exact iff_of_true (fun _ => keeps_tell _ _ _) id
    | info => exact iff_of_true (fun _ => keeps_withRoom fun _ _ _ => keeps_tell _ _ _) id
    | join => exact keeps_handleJoin_iff sessionId
    | leave => exact keeps_handleLeave_iff sessionId
    | update => exact keeps_handleUpdate_iff
    | delete => exact keeps_handleDelete_iff
    | members => exact iff_of_true (fun _ => keeps_withRoom fun _ _ _ => keeps_tell _ _ _) id

end RoomDispatcher

end IrisMind.Rooms
