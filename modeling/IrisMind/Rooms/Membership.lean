import Mathlib.Data.List.Nodup
import IrisMind.Lib.Machine
import IrisMind.Rooms.Manager

/-! # One membership for a room and an account

In every history an account has at most one row in a room, and a row lists a
session at most once. A call that changes a membership writes one row; `Written`
says which bindings it may hold, so what a call does to the bindings of a room
is read off that one row. -/
namespace IrisMind.Rooms
open IrisMind.Lib

def RoomMember.key (m : RoomMember) : String × String := (m.roomId, m.accountId)

theorem RoomMember.isOf_iff {m : RoomMember} {roomId accountId : String} :
    m.isOf roomId accountId = true ↔ m.key = (roomId, accountId) := by
  simp [isOf, key]

namespace RoomStore

structure WellFormed (s : RoomStore) : Prop where
  unique : (s.members.map RoomMember.key).Nodup
  sessions : ∀ m ∈ s.members, m.sessionIds.Nodup

theorem empty_wellFormed : WellFormed {} :=
  ⟨List.nodup_nil, fun _ h => by cases h⟩

theorem WellFormed.of_sublist {s t : RoomStore} (hs : s.WellFormed)
    (h : t.members.Sublist s.members) : t.WellFormed :=
  ⟨hs.unique.sublist (h.map _), fun m hm => hs.sessions m (h.subset hm)⟩

theorem Bound.of_subset {s t : RoomStore} {roomId accountId sessionId : String}
    (h : t.members ⊆ s.members) (hb : t.Bound roomId accountId sessionId) :
    s.Bound roomId accountId sessionId := by
  obtain ⟨m, hm, hrest⟩ := hb
  exact ⟨m, h hm, hrest⟩

theorem deleteRoom_members (s : RoomStore) (roomId : String) :
    (s.deleteRoom roomId).members.Sublist s.members := List.filter_sublist

theorem findMember_eq_some {s : RoomStore} {roomId accountId : String} {m : RoomMember}
    (h : s.findMember roomId accountId = some m) : m ∈ s.members ∧ m.key = (roomId, accountId) :=
  ⟨List.mem_of_find?_eq_some h, RoomMember.isOf_iff.mp
    (List.find?_some (p := fun m : RoomMember => m.isOf roomId accountId) h)⟩

theorem findMember_eq_none {s : RoomStore} {roomId accountId : String}
    (h : s.findMember roomId accountId = none) :
    (roomId, accountId) ∉ s.members.map RoomMember.key := by
  intro hm
  obtain ⟨m, hm, hkey⟩ := List.mem_map.mp hm
  exact absurd (RoomMember.isOf_iff.mpr hkey) (List.find?_eq_none.mp h m hm)

/-- The row the lookup finds is the only one. -/
theorem WellFormed.eq_found {s : RoomStore} (hs : s.WellFormed) {roomId accountId : String}
    {m m' : RoomMember} (h : s.findMember roomId accountId = some m) (hm : m' ∈ s.members)
    (hkey : m'.key = (roomId, accountId)) : m' = m := by
  obtain ⟨hmem, hk⟩ := findMember_eq_some h
  exact List.inj_on_of_nodup_map hs.unique hm hmem (hkey.trans hk.symm)

/-! ## The accounts a session stands for -/

/-- The accounts bound to the session in the room, in the order of their rows. -/
def accountsOf (s : RoomStore) (roomId sessionId : String) : List String :=
  (s.members.filter fun m =>
    m.roomId == roomId && m.isActive && m.sessionIds.contains sessionId).map (·.accountId)

theorem mem_accountsOf {s : RoomStore} {roomId accountId sessionId : String} :
    accountId ∈ s.accountsOf roomId sessionId ↔ s.Bound roomId accountId sessionId := by
  simp only [accountsOf, List.mem_map, List.mem_filter, Bool.and_eq_true, beq_iff_eq,
    List.contains_iff_mem]
  constructor
  · intro hbound
    obtain ⟨m, ⟨hm, ⟨hr, hactive⟩, hs⟩, ha⟩ := hbound
    exact ⟨m, hm, RoomMember.isOf_iff.mpr (by rw [RoomMember.key, hr, ha]), hactive, hs⟩
  · intro hbound
    obtain ⟨m, hm, hof, hactive, hs⟩ := hbound
    obtain ⟨hr, ha⟩ := Prod.mk.inj (RoomMember.isOf_iff.mp hof)
    exact ⟨m, ⟨hm, ⟨hr, hactive⟩, hs⟩, ha⟩

theorem accountsOf_nodup {s : RoomStore} (hs : s.WellFormed) (roomId sessionId : String) :
    (s.accountsOf roomId sessionId).Nodup := by
  unfold accountsOf
  refine List.Nodup.map_on ?_ ((List.Nodup.of_map _ hs.unique).filter _)
  intro m hm m' hm' ha
  have hroom : ∀ {x : RoomMember}, x ∈ s.members.filter (fun m =>
      m.roomId == roomId && m.isActive && m.sessionIds.contains sessionId) →
      x ∈ s.members ∧ x.roomId = roomId := by
    intro x hx
    simp only [List.mem_filter, Bool.and_eq_true, beq_iff_eq] at hx
    exact ⟨hx.1, hx.2.1.1⟩
  obtain ⟨hmem, hr⟩ := hroom hm
  obtain ⟨hmem', hr'⟩ := hroom hm'
  exact List.inj_on_of_nodup_map hs.unique hmem hmem'
    (by rw [RoomMember.key, RoomMember.key, hr, hr', ha])

/-- A room lists a session once for each account it stands for. -/
theorem count_findAllSessionIdsForRoom {s : RoomStore} (hs : s.WellFormed)
    (roomId sessionId : String) :
    (s.findAllSessionIdsForRoom roomId).count sessionId =
      (s.accountsOf roomId sessionId).length := by
  unfold findAllSessionIdsForRoom accountsOf
  have hnodup := hs.sessions
  rw [List.length_map]
  generalize s.members = members at hnodup ⊢
  induction members with
  | nil => rfl
  | cons m rest ih =>
    have ih := ih fun x hx => hnodup x (List.mem_cons_of_mem _ hx)
    have hm : m.sessionIds.count sessionId = if sessionId ∈ m.sessionIds then 1 else 0 :=
      List.Nodup.count (hnodup m List.mem_cons_self)
    cases hin : m.roomId == roomId && m.isActive with
    | false =>
      rw [List.filter_cons_of_neg (by simp [hin]), List.filter_cons_of_neg (by simp [hin])]
      exact ih
    | true =>
      rw [List.filter_cons_of_pos (by simp [hin]), List.flatMap_cons, List.count_append, ih, hm]
      by_cases hsid : sessionId ∈ m.sessionIds
      · rw [if_pos hsid, List.filter_cons_of_pos (by simp [hin, hsid]), List.length_cons,
          Nat.add_comm]
      · rw [if_neg hsid, List.filter_cons_of_neg (by simp [hsid]), Nat.zero_add]

/-! ## Writing one row -/

/-- The store after `m` has been written as the row of its room and account. -/
def put (s : RoomStore) (m : RoomMember) : RoomStore :=
  match s.findMember m.roomId m.accountId with
  | some _ => s.updateMember m
  | none => s.addMember m

theorem put_wellFormed {s : RoomStore} (hs : s.WellFormed) {m : RoomMember}
    (hm : m.sessionIds.Nodup) : (s.put m).WellFormed := by
  have hkey : ∀ x : RoomMember, x.isOf m.roomId m.accountId = true → x.key = m.key :=
    fun x hx => RoomMember.isOf_iff.mp hx
  unfold put
  split
  · refine ⟨?_, fun x hx => ?_⟩
    · change ((Rows.replaceFirst _ m s.members).map RoomMember.key).Nodup
      rw [Rows.map_replaceFirst hkey]
      exact hs.unique
    · have hfits : ∀ y : RoomMember, y.isOf m.roomId m.accountId = true ↔ y.key = m.key :=
        fun y => RoomMember.isOf_iff
      rcases Rows.mem_of_mem_replaceFirst hfits hs.unique hx with rfl | ⟨hx, _⟩
      · exact hm
      · exact hs.sessions x hx
  · next hnone =>
    have hfresh : m.key ∉ s.members.map RoomMember.key := findMember_eq_none hnone
    refine ⟨?_, fun x hx => ?_⟩
    · change ((s.members ++ [m]).map RoomMember.key).Nodup
      rw [List.map_append, List.nodup_append]
      refine ⟨hs.unique, List.nodup_singleton _, ?_⟩
      intro a ha b hb hab
      rw [List.map_singleton, List.mem_singleton] at hb
      exact hfresh (by rw [← hb, ← hab]; exact ha)
    · rcases List.mem_append.mp hx with hx | hx
      · exact hs.sessions x hx
      · rw [List.mem_singleton.mp hx]
        exact hm

theorem put_rooms (s : RoomStore) (m : RoomMember) : (s.put m).rooms = s.rooms := by
  unfold put
  split <;> rfl

theorem mem_put {s : RoomStore} (hs : s.WellFormed) {m x : RoomMember}
    (hx : x ∈ (s.put m).members) : x = m ∨ x ∈ s.members ∧ x.key ≠ m.key := by
  unfold put at hx
  split at hx
  · exact Rows.mem_of_mem_replaceFirst (fun y => RoomMember.isOf_iff) hs.unique hx
  · next hnone =>
    rcases List.mem_append.mp hx with hx | hx
    · refine .inr ⟨hx, fun hk => ?_⟩
      exact findMember_eq_none hnone (List.mem_map.mpr ⟨x, hx, hk⟩)
    · exact .inl (List.mem_singleton.mp hx)

/-- Only the row that was written may bind its account differently. -/
theorem bound_of_put {s : RoomStore} (hs : s.WellFormed) {m : RoomMember}
    {roomId accountId sessionId : String} (hb : (s.put m).Bound roomId accountId sessionId) :
    m.key = (roomId, accountId) ∧ m.isActive = true ∧ sessionId ∈ m.sessionIds ∨
      m.key ≠ (roomId, accountId) ∧ s.Bound roomId accountId sessionId := by
  obtain ⟨x, hx, hof, hactive, hsession⟩ := hb
  have hkey := RoomMember.isOf_iff.mp hof
  rcases mem_put hs hx with rfl | ⟨hmem, hne⟩
  · exact .inl ⟨hkey, hactive, hsession⟩
  · exact .inr ⟨fun hk => hne (hkey.trans hk.symm), x, hmem, hof, hactive, hsession⟩

theorem put_eq_updateMember {s : RoomStore} {m m' : RoomMember} {roomId accountId : String}
    (h : s.findMember roomId accountId = some m') (hkey : m.key = (roomId, accountId)) :
    s.updateMember m = s.put m := by
  have hr : m.roomId = roomId := congrArg Prod.fst hkey
  have ha : m.accountId = accountId := congrArg Prod.snd hkey
  rw [put, hr, ha, h]

theorem put_eq_addMember {s : RoomStore} {m : RoomMember} {roomId accountId : String}
    (h : s.findMember roomId accountId = none) (hkey : m.key = (roomId, accountId)) :
    s.addMember m = s.put m := by
  have hr : m.roomId = roomId := congrArg Prod.fst hkey
  have ha : m.accountId = accountId := congrArg Prod.snd hkey
  rw [put, hr, ha, h]

theorem bound_of_found {s : RoomStore} {m : RoomMember} {roomId accountId sessionId : String}
    (h : s.findMember roomId accountId = some m) (hactive : m.isActive = true)
    (hsession : sessionId ∈ m.sessionIds) : s.Bound roomId accountId sessionId := by
  obtain ⟨hm, hkey⟩ := findMember_eq_some h
  exact ⟨m, hm, RoomMember.isOf_iff.mpr hkey, hactive, hsession⟩

end RoomStore

namespace RoomManager
open RoomStore

/-- The row a call writes for the account: no session twice, and every session it binds was bound
to the account before, or is allowed by `new`. -/
structure Written (s : RoomStore) (roomId accountId : String) (new : String → Prop)
    (m : RoomMember) : Prop where
  key : m.key = (roomId, accountId)
  sessions : m.sessionIds.Nodup
  bindings : m.isActive = true → ∀ x ∈ m.sessionIds, new x ∨ s.Bound roomId accountId x

/-! ## Joining -/

/-- A join leaves the store alone or writes one row, which binds at most one session more. -/
theorem joinRoom_cases {s : RoomStore} (hs : s.WellFormed) (displayName : String → String)
    (now roomId accountId sessionId role : String) :
    (joinRoom displayName now s roomId accountId sessionId role).store = s ∨
      (∃ room, s.findRoomById roomId = some room ∧ room.state = .active) ∧
        ∃ m, Written s roomId accountId (fun x => x = sessionId ∧ sessionId ≠ "") m ∧
          (joinRoom displayName now s roomId accountId sessionId role).store = s.put m := by
  have hids : (if sessionId = "" then [] else [sessionId]).Nodup := by
    split
    · exact List.nodup_nil
    · exact List.nodup_singleton _
  have hnew : ∀ x ∈ (if sessionId = "" then [] else [sessionId]),
      x = sessionId ∧ sessionId ≠ "" := by
    intro x hx
    split at hx
    · cases hx
    · next hne => exact ⟨List.mem_singleton.mp hx, hne⟩
  unfold joinRoom
  cases hroom : s.findRoomById roomId with
  | none => exact .inl rfl
  | some room =>
    dsimp only
    split
    · exact .inl rfl
    next hactive =>
    have hroom : ∃ r, some room = some r ∧ r.state = .active :=
      ⟨room, rfl, by simpa using hactive⟩
    cases hfind : s.findMember roomId accountId with
    | none =>
      refine .inr ⟨hroom, _, ?_, put_eq_addMember hfind rfl⟩
      exact ⟨rfl, hids, fun _ x hx => .inl (hnew x hx)⟩
    | some existing =>
      obtain ⟨hmem, hkey⟩ := findMember_eq_some hfind
      dsimp only
      split
      · next hlive =>
        split
        · next hadd =>
          simp only [ne_eq, decide_not, Bool.and_eq_true, Bool.not_eq_true',
            decide_eq_false_iff_not] at hadd
          obtain ⟨hne, hnot⟩ := hadd
          have hnot : sessionId ∉ existing.sessionIds := by simpa using hnot
          refine .inr ⟨hroom, _, ?_, put_eq_updateMember hfind (by exact hkey)⟩
          refine ⟨hkey, ?_, fun _ x hx => ?_⟩
          · rw [List.nodup_append]
            refine ⟨hs.sessions _ hmem, List.nodup_singleton _, ?_⟩
            intro a ha b hb hab
            rw [List.mem_singleton.mp hb] at hab
            exact hnot (hab ▸ ha)
          · rcases List.mem_append.mp hx with hx | hx
            · exact .inr (bound_of_found hfind hlive hx)
            · exact .inl ⟨List.mem_singleton.mp hx, hne⟩
        · exact .inl rfl
      · refine .inr ⟨hroom, _, ?_, put_eq_updateMember hfind (by exact hkey)⟩
        exact ⟨hkey, hids, fun _ x hx => .inl (hnew x hx)⟩

/-! ## Leaving -/

theorem maybeDeleteEmptyRoom_members (s : RoomStore) (roomId : String) :
    (maybeDeleteEmptyRoom s roomId).members.Sublist s.members := by
  unfold maybeDeleteEmptyRoom
  split
  · exact List.Sublist.refl _
  split
  · exact List.Sublist.refl _
  split
  · exact List.Sublist.refl _
  · exact deleteRoom_members s roomId

/-- A leave that does nothing finds the session unbound; otherwise it writes one row that does not
bind the session any more, and the room may be deleted after it. -/
theorem leaveRoom_cases {s : RoomStore} (hs : s.WellFormed) (displayName : String → String)
    (now roomId accountId sessionId : String) :
    (leaveRoom displayName now s roomId accountId sessionId).store = s ∧
        ¬ s.Bound roomId accountId sessionId ∨
      ∃ m, Written s roomId accountId (fun _ => False) m ∧
        (m.isActive = true → sessionId ∉ m.sessionIds) ∧
        (leaveRoom displayName now s roomId accountId sessionId).store.members.Sublist
          (s.put m).members := by
  have hunbound : ∀ {m}, s.findMember roomId accountId = some m →
      (m.isActive = true → sessionId ∉ m.sessionIds) → ¬ s.Bound roomId accountId sessionId := by
    intro m hfind hnot hbound
    obtain ⟨x, hx, hof, hactive, hsession⟩ := hbound
    have hxm : x = m := hs.eq_found hfind hx (RoomMember.isOf_iff.mp hof)
    subst hxm
    exact hnot hactive hsession
  unfold leaveRoom
  cases hfind : s.findMember roomId accountId with
  | none =>
    refine .inl ⟨rfl, ?_⟩
    intro hbound
    obtain ⟨x, hx, hof, _⟩ := hbound
    exact findMember_eq_none hfind (List.mem_map.mpr ⟨x, hx, RoomMember.isOf_iff.mp hof⟩)
  | some member =>
    obtain ⟨hmem, hkey⟩ := findMember_eq_some hfind
    have hnodup := hs.sessions member hmem
    -- A row with a disconnect time binds nothing.
    have hdisconnect : ∀ row : RoomMember, row.key = (roomId, accountId) → row.sessionIds.Nodup →
        ∃ m, Written s roomId accountId (fun _ => False) m ∧
          (m.isActive = true → sessionId ∉ m.sessionIds) ∧
          (maybeDeleteEmptyRoom (s.updateMember { row with disconnectedAt := some now })
            roomId).members.Sublist (s.put m).members := by
      intro row hrow hids
      refine ⟨{ row with disconnectedAt := some now }, ⟨hrow, hids, ?_⟩, ?_, ?_⟩
      · intro h
        cases h
      · intro h
        cases h
      · have hput := put_eq_updateMember (m := { row with disconnectedAt := some now }) hfind hrow
        rw [← hput]
        exact maybeDeleteEmptyRoom_members _ _
    dsimp only
    split
    · next hdead =>
      refine .inl ⟨rfl, hunbound hfind fun hactive => ?_⟩
      rw [hactive] at hdead
      cases hdead
    next hlive =>
    have hlive : member.isActive = true := by simpa using hlive
    split
    · exact .inr (hdisconnect member hkey hnodup)
    split
    · next hin =>
      have herase : ∀ x ∈ member.sessionIds.erase sessionId, s.Bound roomId accountId x :=
        fun x hx => bound_of_found hfind hlive (List.mem_of_mem_erase hx)
      split
      · exact .inr (hdisconnect { member with sessionIds := member.sessionIds.erase sessionId }
          hkey (hnodup.erase sessionId))
      · have hput := put_eq_updateMember
          (m := { member with sessionIds := member.sessionIds.erase sessionId }) hfind hkey
        refine .inr ⟨{ member with sessionIds := member.sessionIds.erase sessionId },
          ⟨hkey, hnodup.erase sessionId, fun _ x hx => .inr (herase x hx)⟩,
          fun _ => hnodup.not_mem_erase, ?_⟩
        rw [← hput]
    · next hout =>
      exact .inl ⟨rfl, hunbound hfind fun _ hx => hout (by simpa using hx)⟩

/-! ## Every call -/

theorem updateRoom_members (same : Json → Json → Option Bool) (s : RoomStore)
    (now roomId : String) (u : RoomUpdate) :
    (updateRoom same s now roomId u).2.members = s.members := by
  unfold updateRoom
  split
  · rfl
  dsimp only
  split
  · rfl
  split <;> rfl

/-- The call may bind the session to the account's membership in the room. -/
def Call.binds (s : RoomStore) (roomId accountId sessionId : String) : Call → Prop
  | .join _ _ r a x _ => r = roomId ∧ a = accountId ∧ x = sessionId ∧ sessionId ≠ "" ∧
      ∃ room, s.findRoomById roomId = some room ∧ room.state = .active
  | _ => False

theorem apply_wellFormed (s : RoomStore) (c : Call) (hs : s.WellFormed) :
    (apply s c).WellFormed := by
  cases c with
  | create newId now name createdBy => exact ⟨hs.unique, hs.sessions⟩
  | update same now roomId update =>
    have hm := updateRoom_members same s now roomId update
    exact ⟨by rw [apply, hm]; exact hs.unique, by rw [apply, hm]; exact hs.sessions⟩
  | delete roomId => exact hs.of_sublist (deleteRoom_members s roomId)
  | join displayName now roomId accountId sessionId role =>
    rcases joinRoom_cases hs displayName now roomId accountId sessionId role with
      heq | ⟨_, m, hm, heq⟩
    · rw [apply, heq]
      exact hs
    · rw [apply, heq]
      exact put_wellFormed hs hm.sessions
  | leave displayName now roomId accountId sessionId =>
    rcases leaveRoom_cases hs displayName now roomId accountId sessionId with
      ⟨heq, _⟩ | ⟨m, hm, _, hsub⟩
    · rw [apply, heq]
      exact hs
    · exact (put_wellFormed hs hm.sessions).of_sublist hsub

theorem run_wellFormed {s : RoomStore} (hs : s.WellFormed) (calls : List Call) :
    (Machine.run apply s calls).WellFormed :=
  Machine.run_inv WellFormed apply_wellFormed hs calls

/-- A binding after a call was there before it, unless the call is the join that makes it. -/
theorem bound_of_apply {s : RoomStore} (hs : s.WellFormed) {c : Call}
    {roomId accountId sessionId : String} (h : (apply s c).Bound roomId accountId sessionId) :
    c.binds s roomId accountId sessionId ∨ s.Bound roomId accountId sessionId := by
  cases c with
  | create newId now name createdBy => exact .inr h
  | update same now r update =>
    refine .inr (h.of_subset ?_)
    rw [apply, updateRoom_members]
    exact List.Subset.refl _
  | delete r => exact .inr (h.of_subset (deleteRoom_members s r).subset)
  | join displayName now r a x role =>
    rcases joinRoom_cases hs displayName now r a x role with heq | ⟨⟨room, hroom⟩, m, hm, heq⟩
    · rw [apply, heq] at h
      exact .inr h
    · rw [apply, heq] at h
      rcases bound_of_put hs h with ⟨hkey, hactive, hx⟩ | ⟨_, hold⟩
      · obtain ⟨rfl, rfl⟩ := Prod.mk.inj (hm.key.symm.trans hkey)
        rcases hm.bindings hactive _ hx with ⟨rfl, hne⟩ | hold
        · exact .inl ⟨rfl, rfl, rfl, hne, room, hroom⟩
        · exact .inr hold
      · exact .inr hold
  | leave displayName now r a x =>
    rcases leaveRoom_cases hs displayName now r a x with ⟨heq, _⟩ | ⟨m, hm, _, hsub⟩
    · rw [apply, heq] at h
      exact .inr h
    · rcases bound_of_put hs (h.of_subset hsub.subset) with ⟨hkey, hactive, hx⟩ | ⟨_, hold⟩
      · obtain ⟨rfl, rfl⟩ := Prod.mk.inj (hm.key.symm.trans hkey)
        exact .inr ((hm.bindings hactive _ hx).resolve_left id)
      · exact .inr hold

/-- After an account has left with a session, its membership is not bound to that session. -/
theorem not_bound_leaveRoom {s : RoomStore} (hs : s.WellFormed) (displayName : String → String)
    (now roomId accountId sessionId : String) :
    ¬ (leaveRoom displayName now s roomId accountId sessionId).store.Bound roomId accountId
      sessionId := by
  rcases leaveRoom_cases hs displayName now roomId accountId sessionId with
    ⟨heq, hnot⟩ | ⟨m, hm, hgone, hsub⟩
  · rw [heq]
    exact hnot
  · intro h
    rcases bound_of_put hs (h.of_subset hsub.subset) with ⟨_, hactive, hx⟩ | ⟨hne, _⟩
    · exact hgone hactive hx
    · exact hne hm.key

end RoomManager

end IrisMind.Rooms
