import IrisMind.Rooms.Lifecycle

/-! # Who is active, and what is announced of it

A join is announced when it makes an account an active member of a room, a leave
when it ends that. Nothing but a joined or left event, and the deletion of a
room, changes who is active where. -/
namespace IrisMind.Rooms
open IrisMind.Lib IrisMind.Events

namespace RoomStore
open RoomManager

/-- The account is an active member of the room, with whatever sessions. -/
def ActiveIn (s : RoomStore) (roomId accountId : String) : Prop :=
  ∃ m ∈ s.members, m.key = (roomId, accountId) ∧ m.isActive = true

theorem activeIn_iff_of_found {s : RoomStore} (hs : s.WellFormed) {roomId accountId : String}
    {m : RoomMember} (h : s.findMember roomId accountId = some m) :
    s.ActiveIn roomId accountId ↔ m.isActive = true := by
  obtain ⟨hm, hkey⟩ := findMember_eq_some h
  constructor
  · intro hactive
    obtain ⟨x, hx, hk, hyes⟩ := hactive
    rwa [hs.eq_found h hx hk] at hyes
  · exact fun hyes => ⟨m, hm, hkey, hyes⟩

theorem not_activeIn_of_none {s : RoomStore} {roomId accountId : String}
    (h : s.findMember roomId accountId = none) : ¬ s.ActiveIn roomId accountId := by
  intro hactive
  obtain ⟨x, hx, hk, _⟩ := hactive
  exact findMember_eq_none h (List.mem_map.mpr ⟨x, hx, hk⟩)

theorem self_mem_put (s : RoomStore) (m : RoomMember) : m ∈ (s.put m).members := by
  unfold put
  split
  · next x hx =>
    obtain ⟨hmem, hkey⟩ := findMember_eq_some hx
    exact mem_updateMember ⟨x, hmem, RoomMember.isOf_iff.mpr hkey⟩
  · exact List.mem_append_right _ List.mem_cons_self

theorem mem_put_of_ne {s : RoomStore} {m x : RoomMember} (hx : x ∈ s.members)
    (hne : x.key ≠ m.key) : x ∈ (s.put m).members := by
  unfold put
  split
  · refine Rows.mem_replaceFirst_of_not ?_ hx
    exact fun hf => hne (RoomMember.isOf_iff.mp hf)
  · exact List.mem_append_left _ hx

/-- Writing a row settles whether its account is active, and nothing else. -/
theorem activeIn_put {s : RoomStore} (hs : s.WellFormed) (m : RoomMember) (r a : String) :
    (s.put m).ActiveIn r a ↔ m.key = (r, a) ∧ m.isActive = true ∨
      m.key ≠ (r, a) ∧ s.ActiveIn r a := by
  constructor
  · intro h
    obtain ⟨x, hx, hk, hyes⟩ := h
    rcases mem_put hs hx with rfl | ⟨hold, hne⟩
    · exact .inl ⟨hk, hyes⟩
    · exact .inr ⟨fun hkm => hne (hk.trans hkm.symm), x, hold, hk, hyes⟩
  · intro h
    rcases h with ⟨hk, hyes⟩ | ⟨hne, x, hx, hk, hyes⟩
    · exact ⟨m, s.self_mem_put m, hk, hyes⟩
    · exact ⟨x, mem_put_of_ne hx fun hkm => hne (hkm.symm.trans hk), hk, hyes⟩

theorem activeIn_deleteRoom (s : RoomStore) (roomId r a : String) :
    (s.deleteRoom roomId).ActiveIn r a ↔ r ≠ roomId ∧ s.ActiveIn r a := by
  constructor
  · intro h
    obtain ⟨x, hx, hk, hyes⟩ := h
    obtain ⟨hmem, hne⟩ := List.mem_filter.mp hx
    have hr : x.roomId = r := congrArg Prod.fst hk
    exact ⟨by rw [← hr]; simpa using hne, x, hmem, hk, hyes⟩
  · intro h
    obtain ⟨hne, x, hx, hk, hyes⟩ := h
    have hr : x.roomId = r := congrArg Prod.fst hk
    exact ⟨x, List.mem_filter.mpr ⟨hx, by rw [hr]; simpa using hne⟩, hk, hyes⟩

/-- A room that is deleted because it is empty takes nobody with it who is active. -/
theorem activeIn_maybeDeleteEmptyRoom (s : RoomStore) (roomId r a : String) :
    (maybeDeleteEmptyRoom s roomId).ActiveIn r a ↔ s.ActiveIn r a := by
  rcases maybeDeleteEmptyRoom_cases s roomId with ⟨heq, _⟩ | ⟨heq, hnone⟩
  · rw [heq]
  · rw [heq, activeIn_deleteRoom, and_iff_right_iff_imp]
    intro h hr
    obtain ⟨x, hx, hk, hyes⟩ := h
    have hno := hnone x hx ((congrArg Prod.fst hk).trans hr)
    exact Bool.noConfusion (hyes.symm.trans hno)

end RoomStore

namespace RoomManager
open RoomStore

/-- A join that is announced makes the account active, which it was not; any other join changes
nothing about who is active. -/
theorem joinRoom_announces {s : RoomStore} (hs : s.WellFormed) (displayName : String → String)
    (now roomId accountId sessionId role : String) :
    let run := joinRoom displayName now s roomId accountId sessionId role
    (run.event = none ∧ ∀ r a, run.store.ActiveIn r a ↔ s.ActiveIn r a) ∨
      run.event = some ⟨roomId, accountId, displayName accountId⟩ ∧
        (s.findRoomById roomId).isSome = true ∧ ¬ s.ActiveIn roomId accountId ∧
        ∀ r a, run.store.ActiveIn r a ↔ (r, a) = (roomId, accountId) ∨ s.ActiveIn r a := by
  have hactive : ∀ {m : RoomMember}, m.key = (roomId, accountId) → m.isActive = true → ∀ r a,
      (s.put m).ActiveIn r a ↔ (r, a) = (roomId, accountId) ∨ s.ActiveIn r a := by
    intro m hk hyes r a
    rw [activeIn_put hs, hk, hyes]
    by_cases h : (r, a) = (roomId, accountId)
    · simp [h]
    · simp [h, Ne.symm h]
  intro run
  have hrun : run = joinRoom displayName now s roomId accountId sessionId role := rfl
  unfold joinRoom at hrun
  cases hroom : s.findRoomById roomId with
  | none =>
    rw [hroom] at hrun
    rw [hrun]
    exact .inl ⟨rfl, fun _ _ => Iff.rfl⟩
  | some room =>
    rw [hroom] at hrun
    dsimp only at hrun
    split at hrun
    · rw [hrun]
      exact .inl ⟨rfl, fun _ _ => Iff.rfl⟩
    · cases hfind : s.findMember roomId accountId with
      | none =>
        rw [hfind] at hrun
        dsimp only at hrun
        rw [hrun]
        refine .inr ⟨rfl, rfl, not_activeIn_of_none hfind, fun r a => ?_⟩
        dsimp only
        rw [put_eq_addMember hfind rfl]
        exact hactive rfl rfl r a
      | some existing =>
        obtain ⟨hmem, hkey⟩ := findMember_eq_some hfind
        have hiff := activeIn_iff_of_found hs hfind
        rw [hfind] at hrun
        dsimp only at hrun
        split at hrun
        · next hlive =>
          split at hrun
          · rw [hrun]
            refine .inl ⟨rfl, fun r a => ?_⟩
            dsimp only
            rw [put_eq_updateMember hfind (by exact hkey), hactive (by exact hkey) (by exact hlive)]
            refine or_iff_right_of_imp fun h => ?_
            obtain ⟨rfl, rfl⟩ := Prod.mk.inj h
            exact hiff.mpr hlive
          · rw [hrun]
            exact .inl ⟨rfl, fun _ _ => Iff.rfl⟩
        · next hdead =>
          rw [hrun]
          refine .inr ⟨rfl, rfl, fun h => hdead (hiff.mp h), fun r a => ?_⟩
          dsimp only
          rw [put_eq_updateMember hfind (by exact hkey)]
          exact hactive (by exact hkey) rfl r a

/-- A leave that is announced ends the membership of an active account; any other leave changes
nothing about who is active. -/
theorem leaveRoom_announces {s : RoomStore} (hs : s.WellFormed) (displayName : String → String)
    (now roomId accountId sessionId : String) :
    let run := leaveRoom displayName now s roomId accountId sessionId
    (run.event = none ∧ ∀ r a, run.store.ActiveIn r a ↔ s.ActiveIn r a) ∨
      run.event = some ⟨roomId, accountId, displayName accountId⟩ ∧
        s.ActiveIn roomId accountId ∧
        ∀ r a, run.store.ActiveIn r a ↔ (r, a) ≠ (roomId, accountId) ∧ s.ActiveIn r a := by
  intro run
  have hrun : run = leaveRoom displayName now s roomId accountId sessionId := rfl
  rw [leaveRoom_eq] at hrun
  cases hfind : s.findMember roomId accountId with
  | none =>
    rw [hfind] at hrun
    rw [hrun]
    exact .inl ⟨rfl, fun _ _ => Iff.rfl⟩
  | some m =>
    obtain ⟨hmem, hkey⟩ := findMember_eq_some hfind
    have hiff := activeIn_iff_of_found hs hfind
    have hleft := (m.left_key sessionId now).trans hkey
    rw [hfind] at hrun
    dsimp only at hrun
    split at hrun
    · next hboth =>
      rw [hrun]
      unfold afterLeave
      cases hstill : (m.left sessionId now).isActive with
      | true =>
        refine .inl ⟨rfl, fun r a => ?_⟩
        dsimp only
        rw [if_pos rfl, put_eq_updateMember hfind hleft, activeIn_put hs, hleft, hstill]
        by_cases h : (roomId, accountId) = (r, a)
        · obtain ⟨rfl, rfl⟩ := Prod.mk.inj h
          simp [hiff.mpr hboth.1]
        · simp [h]
      | false =>
        refine .inr ⟨rfl, hiff.mpr hboth.1, fun r a => ?_⟩
        dsimp only
        rw [if_neg Bool.false_ne_true, activeIn_maybeDeleteEmptyRoom,
          put_eq_updateMember hfind hleft, activeIn_put hs, hleft, hstill]
        by_cases h : (r, a) = (roomId, accountId)
        · simp [h]
        · simp [h, Ne.symm h]
    · rw [hrun]
      exact .inl ⟨rfl, fun _ _ => Iff.rfl⟩

/-- The leave takes the account out of the room: it is an active member, and it is left with no
session. -/
def EndsMembership (s : RoomStore) (roomId accountId sessionId : String) : Prop :=
  ∃ m, s.findMember roomId accountId = some m ∧ m.isActive = true ∧
    (sessionId = "" ∨ sessionId ∈ m.sessionIds ∧ ∀ x ∈ m.sessionIds, x = sessionId)

theorem leaveRoom_event_eq_none_iff {s : RoomStore} (hs : s.WellFormed)
    (displayName : String → String) (now roomId accountId sessionId : String) :
    (leaveRoom displayName now s roomId accountId sessionId).event = none ↔
      ¬ EndsMembership s roomId accountId sessionId := by
  rw [leaveRoom_eq]
  unfold EndsMembership
  cases hfind : s.findMember roomId accountId with
  | none =>
    refine iff_of_true rfl fun h => ?_
    obtain ⟨m, hm, _⟩ := h
    cases hm
  | some m =>
    have hnodup := hs.sessions m (findMember_eq_some hfind).1
    dsimp only
    by_cases hboth : m.isActive = true ∧ (sessionId = "" ∨ sessionId ∈ m.sessionIds)
    · rw [if_pos hboth]
      have hends : (m.left sessionId now).isActive = false ↔
          (sessionId = "" ∨ sessionId ∈ m.sessionIds ∧ ∀ x ∈ m.sessionIds, x = sessionId) := by
        by_cases hs : sessionId = ""
        · unfold RoomMember.left
          rw [if_pos hs]
          exact iff_of_true rfl (.inl hs)
        · rw [← Bool.not_eq_true, m.left_isActive hboth.1 hnodup hs, or_iff_right hs,
            and_iff_right (hboth.2.resolve_left hs)]
          simp
      cases hstill : (m.left sessionId now).isActive with
      | true =>
        refine iff_of_true rfl fun h => ?_
        obtain ⟨x, hx, _, hends'⟩ := h
        cases hx
        rw [hends.mpr hends'] at hstill
        cases hstill
      | false =>
        refine iff_of_false (fun h => by cases h) fun h => h ?_
        exact ⟨m, rfl, hboth.1, hends.mp hstill⟩
    · rw [if_neg hboth]
      refine iff_of_true rfl fun h => hboth ?_
      obtain ⟨x, hx, hactive, hends⟩ := h
      cases hx
      exact ⟨hactive, hends.imp id And.left⟩

end RoomManager

end IrisMind.Rooms
