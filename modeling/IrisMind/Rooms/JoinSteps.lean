import IrisMind.Lib.Threads
import IrisMind.Rooms.Announcements

/-! # The steps of `join_room`

Frames of different sessions are handled on different threads, and `join_room`
reads the member, decides and writes in separate steps. Here two calls for one
account and one room take their steps in any order; a call nobody comes between
does what `join_room` does. -/
namespace IrisMind.Rooms
open IrisMind.Lib IrisMind.Events

/-- Where a call is: what it does next. `existing` of the call is the first row of the account in
the room, when it found one. -/
inductive Stage where
  | room
  | find
  | check (found : Bool)
  | contains
  | append
  | updateActive
  | decide (found : Bool)
  | revive
  | rebind
  | stamp
  | assign
  | update
  | add
  | announce
  | done (joined : Bool)
deriving DecidableEq, Repr

/-- The stages in which a call holds a row. -/
def Stage.holds : Stage → Bool
  | check found => found
  | decide found => found
  | contains | append | updateActive | revive | rebind | stamp | assign | update => true
  | _ => false

/-- Two calls of `join_room` from different sessions, and the store they find. -/
structure TwoJoins where
  store : RoomStore
  wellFormed : store.WellFormed
  roomId : String
  accountId : String
  sessionId : Bool → String
  named : ∀ j, sessionId j ≠ ""
  distinct : ∀ j, sessionId (!j) ≠ sessionId j
  role : Bool → String := fun _ => "member"
  displayName : String → String := id
  now : Bool → String := fun _ => ""

/-- The store, and the events of the joins. -/
structure Joins where
  store : RoomStore
  events : List RoomJoinedEvent := []

abbrev JoinState := Threads Joins Stage

namespace RoomMember

/-! The fields a call writes, one after the other. -/

def append (sessionId : String) (m : RoomMember) : RoomMember :=
  { m with sessionIds := m.sessionIds ++ [sessionId] }

def revive (m : RoomMember) : RoomMember := { m with disconnectedAt := none }

def rebind (sessionIds : List String) (m : RoomMember) : RoomMember := { m with sessionIds }

def stamp (now : String) (m : RoomMember) : RoomMember := { m with joinedAt := now }

def assign (role : String) (m : RoomMember) : RoomMember := { m with role }

theorem append_key (sessionId : String) (m : RoomMember) : (m.append sessionId).key = m.key := rfl

theorem revive_key (m : RoomMember) : m.revive.key = m.key := rfl

theorem rebind_key (ids : List String) (m : RoomMember) : (m.rebind ids).key = m.key := rfl

theorem stamp_key (now : String) (m : RoomMember) : (m.stamp now).key = m.key := rfl

theorem assign_key (role : String) (m : RoomMember) : (m.assign role).key = m.key := rfl

end RoomMember

namespace RoomStore

/-- A write to a field of the object `find_member` returns. -/
def edit (s : RoomStore) (roomId accountId : String) (f : RoomMember → RoomMember) : RoomStore :=
  match s.findMember roomId accountId with
  | none => s
  | some m => s.updateMember (f m)

section Edit

variable {s : RoomStore} {roomId accountId : String} {f : RoomMember → RoomMember}

theorem edit_of_some {m : RoomMember} (h : s.findMember roomId accountId = some m) :
    s.edit roomId accountId f = s.updateMember (f m) := by
  rw [edit, h]

theorem edit_rooms : (s.edit roomId accountId f).rooms = s.rooms := by
  unfold edit
  split <;> rfl

theorem updateMember_of_key {m : RoomMember} (h : m.key = (roomId, accountId)) :
    (s.updateMember m).members = Rows.replaceFirst (·.isOf roomId accountId) m s.members := by
  obtain ⟨hr, ha⟩ := Prod.mk.inj h
  rw [updateMember, hr, ha]

theorem findMember_updateMember {m m' : RoomMember} (h : s.findMember roomId accountId = some m)
    (hkey : m'.key = (roomId, accountId)) :
    (s.updateMember m').findMember roomId accountId = some m' := by
  rw [findMember, updateMember_of_key hkey]
  exact Rows.find?_replaceFirst (fun x : RoomMember => x.isOf roomId accountId)
    (RoomMember.isOf_iff.mpr hkey) h

theorem updateMember_updateMember {m m' : RoomMember} (h : m.key = m'.key) :
    (s.updateMember m).updateMember m' = s.updateMember m' := by
  obtain ⟨hr, ha⟩ := Prod.mk.inj h
  unfold updateMember
  rw [hr, ha]
  exact congrArg (RoomStore.mk s.rooms) (@Rows.replaceFirst_replaceFirst RoomMember
    (fun x => x.isOf m'.roomId m'.accountId) m (RoomMember.isOf_iff.mpr h) m' s.members)

theorem updateMember_self {m : RoomMember} (h : s.findMember roomId accountId = some m) :
    s.updateMember m = s := by
  obtain ⟨hr, ha⟩ := Prod.mk.inj (findMember_eq_some h).2
  unfold updateMember
  rw [hr, ha, Rows.replaceFirst_self _ h]

theorem findMember_edit {m : RoomMember} (hf : ∀ x, (f x).key = x.key)
    (h : s.findMember roomId accountId = some m) :
    (s.edit roomId accountId f).findMember roomId accountId = some (f m) := by
  rw [edit_of_some h]
  exact findMember_updateMember h ((hf m).trans (findMember_eq_some h).2)

theorem edit_edit (hf : ∀ x, (f x).key = x.key) (g : RoomMember → RoomMember)
    (hg : ∀ x, (g x).key = x.key) :
    (s.edit roomId accountId f).edit roomId accountId g = s.edit roomId accountId (g ∘ f) := by
  cases h : s.findMember roomId accountId with
  | none => simp [edit, h]
  | some m =>
    rw [edit_of_some (findMember_edit hf h), edit_of_some h, edit_of_some h]
    exact updateMember_updateMember (hg (f m)).symm

theorem edit_id : s.edit roomId accountId id = s := by
  unfold edit
  split
  · rfl
  · next h => exact updateMember_self h

end Edit

end RoomStore

namespace TwoJoins

def start (p : TwoJoins) : JoinState := ⟨{ store := p.store }, fun _ => .room⟩

def event (p : TwoJoins) : RoomJoinedEvent := ⟨p.roomId, p.accountId, p.displayName p.accountId⟩

def sessionIds (p : TwoJoins) (j : Bool) : List String :=
  if p.sessionId j = "" then [] else [p.sessionId j]

/-- The row `add_member` gets. -/
def fresh (p : TwoJoins) (j : Bool) : RoomMember :=
  { roomId := p.roomId, accountId := p.accountId, sessionIds := p.sessionIds j,
    role := p.role j, joinedAt := p.now j }

def existing (p : TwoJoins) (s : RoomStore) : Option RoomMember :=
  s.findMember p.roomId p.accountId

/-- The next step of a call: the store and the stage it leaves, and the event it sends. -/
def act (p : TwoJoins) (j : Bool) (s : RoomStore) :
    Stage → RoomStore × Stage × Option RoomJoinedEvent
  | .room =>
    match s.findRoomById p.roomId with
    | none => (s, .done false, none)
    | some room => (s, if room.state ≠ .active then .done false else .find, none)
  | .find => (s, .check (p.existing s).isSome, none)
  | .check found =>
    (s, if found && (p.existing s).any RoomMember.isActive then .contains else .decide found, none)
  | .contains =>
    (s, if p.sessionId j ≠ "" && !(p.existing s).any (·.sessionIds.contains (p.sessionId j))
      then .append else .done true, none)
  | .append => (s.edit p.roomId p.accountId (.append (p.sessionId j)), .updateActive, none)
  | .updateActive => (s.edit p.roomId p.accountId id, .done true, none)
  | .decide found =>
    (s, if found && !(p.existing s).any RoomMember.isActive then .revive else .add, none)
  | .revive => (s.edit p.roomId p.accountId .revive, .rebind, none)
  | .rebind => (s.edit p.roomId p.accountId (.rebind (p.sessionIds j)), .stamp, none)
  | .stamp => (s.edit p.roomId p.accountId (.stamp (p.now j)), .assign, none)
  | .assign => (s.edit p.roomId p.accountId (.assign (p.role j)), .update, none)
  | .update => (s.edit p.roomId p.accountId id, .announce, none)
  | .add => (s.addMember (p.fresh j), .announce, none)
  | .announce => (s, .done true, some p.event)
  | .done joined => (s, .done joined, none)

def step (p : TwoJoins) (j : Bool) (s : Joins) (stage : Stage) : Joins × Stage :=
  let (store, stage, event) := p.act j s.store stage
  (⟨store, s.events ++ event.toList⟩, stage)

def advance (p : TwoJoins) : JoinState → Bool → JoinState := Threads.advance p.step

/-! ## One call on its own -/

/-- A call nobody comes between does what `join_room` does. -/
theorem alone_eq_joinRoom (p : TwoJoins) (j : Bool) :
    let run := RoomManager.joinRoom p.displayName (p.now j) p.store p.roomId p.accountId
      (p.sessionId j) (p.role j)
    Threads.alone p.step j 10 ({ store := p.store }, .room) =
      (⟨run.store, run.event.toList⟩, .done run.joined) := by
  intro run
  have hrun : run = RoomManager.joinRoom p.displayName (p.now j) p.store p.roomId p.accountId
    (p.sessionId j) (p.role j) := rfl
  unfold RoomManager.joinRoom at hrun
  cases hroom : p.store.findRoomById p.roomId with
  | none =>
    rw [hroom] at hrun
    simp [hrun, Threads.alone, step, act, hroom]
  | some room =>
    rw [hroom] at hrun
    dsimp only at hrun
    by_cases hstate : room.state = .active
    · rw [if_neg (not_not.mpr hstate)] at hrun
      cases hfind : p.store.findMember p.roomId p.accountId with
      | none =>
        rw [hfind] at hrun
        simp [hrun, Threads.alone, step, act, hroom, hstate, existing, hfind, sessionIds, event,
          fresh]
      | some m =>
        have hkey := (RoomStore.findMember_eq_some hfind).2
        rw [hfind] at hrun
        dsimp only at hrun
        cases hactive : m.isActive with
        | true =>
          rw [hactive, if_pos rfl] at hrun
          by_cases hin : p.sessionId j ∈ m.sessionIds
          · simp [hrun, Threads.alone, step, act, hroom, hstate, existing, hfind, hactive, hin]
          · simp [hrun, Threads.alone, step, act, hroom, hstate, existing, hfind, hactive, hin,
              p.named j, RoomStore.edit_id, RoomStore.edit_of_some hfind, RoomMember.append]
        | false =>
          rw [hactive, if_neg Bool.false_ne_true] at hrun
          have hwrites : ((((p.store.edit p.roomId p.accountId .revive).edit p.roomId p.accountId
              (.rebind (p.sessionIds j))).edit p.roomId p.accountId (.stamp (p.now j))).edit
              p.roomId p.accountId (.assign (p.role j))) = run.store := by
            rw [RoomStore.edit_edit (RoomMember.stamp_key _) _ (RoomMember.assign_key _),
              RoomStore.edit_edit (RoomMember.rebind_key _) (.assign _ ∘ .stamp _) fun _ => rfl,
              RoomStore.edit_edit RoomMember.revive_key ((.assign _ ∘ .stamp _) ∘ .rebind _)
                fun _ => rfl, RoomStore.edit_of_some hfind, hrun]
            rfl
          simp [Threads.alone, step, act, hroom, hstate, existing, hfind, hactive,
            RoomStore.edit_id, hwrites]
          simp [hrun, event]
    · rw [if_pos hstate] at hrun
      simp [hrun, Threads.alone, step, act, hroom, hstate]

/-- Without the other one a call leaves what `join_room` leaves. -/
theorem run_alone (p : TwoJoins) (j : Bool) :
    let run := RoomManager.joinRoom p.displayName (p.now j) p.store p.roomId p.accountId
      (p.sessionId j) (p.role j)
    (Machine.run p.advance p.start (List.replicate 10 j)).shared =
      ⟨run.store, run.event.toList⟩ := by
  have hrun := Threads.run_replicate p.step p.start j 10
  exact (congrArg Prod.fst hrun).trans (congrArg Prod.fst (p.alone_eq_joinRoom j))

/-! ## What a step does to the rows of the account -/

/-- The rows of the account in the room. -/
def rows (p : TwoJoins) (s : RoomStore) : List RoomMember :=
  s.members.filter (·.isOf p.roomId p.accountId)

theorem existing_eq (p : TwoJoins) (s : RoomStore) : p.existing s = (p.rows s).head? :=
  List.head?_filter.symm

theorem rows_edit (p : TwoJoins) {s : RoomStore} {x : RoomMember} {rest : List RoomMember}
    (h : p.rows s = x :: rest) {f : RoomMember → RoomMember} (hf : ∀ y, (f y).key = y.key) :
    p.rows (s.edit p.roomId p.accountId f) = f x :: rest := by
  have hx : s.findMember p.roomId p.accountId = some x := by
    have hhead := p.existing_eq s
    rw [h] at hhead
    exact hhead
  have hkey : (f x).key = (p.roomId, p.accountId) :=
    (hf x).trans (RoomStore.findMember_eq_some hx).2
  rw [RoomStore.edit_of_some hx, rows, RoomStore.updateMember_of_key hkey]
  exact @Rows.filter_replaceFirst RoomMember (·.isOf p.roomId p.accountId) (f x) x
    (RoomMember.isOf_iff.mpr hkey) rest _ h

/-- The steps of a call in a room that is there and active: the rows and the stage before, the
rows and the stage after, and the events sent. -/
inductive Move (p : TwoJoins) (j : Bool) :
    List RoomMember → Stage → List RoomMember → Stage → List RoomJoinedEvent → Prop
  | room {l} : Move p j l .room l .find []
  | findNone : Move p j [] .find [] (.check false) []
  | findSome {x rest} : Move p j (x :: rest) .find (x :: rest) (.check true) []
  | checkNone {l} : Move p j l (.check false) l (.decide false) []
  | checkActive {x rest} (h : x.isActive = true) :
      Move p j (x :: rest) (.check true) (x :: rest) .contains []
  | checkInactive {x rest} (h : x.isActive = false) :
      Move p j (x :: rest) (.check true) (x :: rest) (.decide true) []
  | containsThere {x rest} (h : p.sessionId j ∈ x.sessionIds) :
      Move p j (x :: rest) .contains (x :: rest) (.done true) []
  | containsNot {x rest} (h : p.sessionId j ∉ x.sessionIds) :
      Move p j (x :: rest) .contains (x :: rest) .append []
  | append {x rest} :
      Move p j (x :: rest) .append (x.append (p.sessionId j) :: rest) .updateActive []
  | updateActive {l} : Move p j l .updateActive l (.done true) []
  | decideNone {l} : Move p j l (.decide false) l .add []
  | decideActive {x rest} (h : x.isActive = true) :
      Move p j (x :: rest) (.decide true) (x :: rest) .add []
  | decideInactive {x rest} (h : x.isActive = false) :
      Move p j (x :: rest) (.decide true) (x :: rest) .revive []
  | revive {x rest} : Move p j (x :: rest) .revive (x.revive :: rest) .rebind []
  | rebind {x rest} :
      Move p j (x :: rest) .rebind (x.rebind [p.sessionId j] :: rest) .stamp []
  | stamp {x rest} : Move p j (x :: rest) .stamp (x.stamp (p.now j) :: rest) .assign []
  | assign {x rest} : Move p j (x :: rest) .assign (x.assign (p.role j) :: rest) .update []
  | update {l} : Move p j l .update l .announce []
  | add {l} : Move p j l .add (l ++ [p.fresh j]) .announce []
  | announce {l} : Move p j l .announce l (.done true) [p.event]
  | done {l joined} : Move p j l (.done joined) l (.done joined) []

/-- The room is there and active. -/
def Open (p : TwoJoins) (s : RoomStore) : Prop :=
  ∃ room, s.findRoomById p.roomId = some room ∧ room.state = .active

theorem act_move (p : TwoJoins) (j : Bool) {s : RoomStore} (hopen : p.Open s) {stage : Stage}
    (hholds : stage.holds = true → p.rows s ≠ []) :
    Move p j (p.rows s) stage (p.rows (p.act j s stage).1) (p.act j s stage).2.1
      (p.act j s stage).2.2.toList := by
  have hids : p.sessionIds j = [p.sessionId j] := if_neg (p.named j)
  have hrow : stage.holds = true → ∃ x rest, p.rows s = x :: rest ∧ p.existing s = some x := by
    intro h
    obtain ⟨x, rest, hx⟩ := List.exists_cons_of_ne_nil (hholds h)
    exact ⟨x, rest, hx, by rw [existing_eq, hx]; rfl⟩
  cases stage with
  | room =>
    obtain ⟨room, hroom, hactive⟩ := hopen
    simp only [act, hroom, hactive]
    exact .room
  | find =>
    simp only [act]
    cases hl : p.rows s with
    | nil =>
      rw [existing_eq, hl]
      exact .findNone
    | cons x rest =>
      rw [existing_eq, hl]
      exact .findSome
  | check found =>
    cases found with
    | false => exact .checkNone
    | true =>
      obtain ⟨x, rest, hl, hx⟩ := hrow rfl
      simp only [act, hl, hx]
      cases h : x.isActive with
      | true => simpa [h] using Move.checkActive h
      | false => simpa [h] using Move.checkInactive h
  | contains =>
    obtain ⟨x, rest, hl, hx⟩ := hrow rfl
    simp only [act, hl, hx]
    by_cases h : p.sessionId j ∈ x.sessionIds
    · simpa [h] using Move.containsThere h
    · simpa [h, p.named j] using Move.containsNot h
  | append =>
    obtain ⟨x, rest, hl, _⟩ := hrow rfl
    simp only [act, p.rows_edit hl (RoomMember.append_key _), hl]
    exact .append
  | updateActive =>
    simp only [act, RoomStore.edit_id]
    exact .updateActive
  | decide found =>
    cases found with
    | false => exact .decideNone
    | true =>
      obtain ⟨x, rest, hl, hx⟩ := hrow rfl
      simp only [act, hl, hx]
      cases h : x.isActive with
      | true => simpa [h] using Move.decideActive h
      | false => simpa [h] using Move.decideInactive h
  | revive =>
    obtain ⟨x, rest, hl, _⟩ := hrow rfl
    simp only [act, p.rows_edit hl RoomMember.revive_key, hl]
    exact .revive
  | rebind =>
    obtain ⟨x, rest, hl, _⟩ := hrow rfl
    simp only [act, p.rows_edit hl (RoomMember.rebind_key _), hl, hids]
    exact .rebind
  | stamp =>
    obtain ⟨x, rest, hl, _⟩ := hrow rfl
    simp only [act, p.rows_edit hl (RoomMember.stamp_key _), hl]
    exact .stamp
  | assign =>
    obtain ⟨x, rest, hl, _⟩ := hrow rfl
    simp only [act, p.rows_edit hl (RoomMember.assign_key _), hl]
    exact .assign
  | update =>
    simp only [act, RoomStore.edit_id]
    exact .update
  | add =>
    have hadd : p.rows (s.addMember (p.fresh j)) = p.rows s ++ [p.fresh j] := by
      rw [rows, RoomStore.addMember, List.filter_append]
      congr 1
      exact List.filter_cons_of_pos (RoomMember.isOf_iff.mpr rfl)
    simp only [act, hadd]
    exact .add
  | announce => exact .announce
  | done joined => exact .done

end TwoJoins

end IrisMind.Rooms
