import Mathlib.Data.List.TakeWhile
import IrisMind.Rooms.Writes

/-! # Updates of a room, field by field

What an update is given for the fields is checked in the loop that writes them:
a field is coerced, compared with the one of the room, written into the room the
store holds, and announced, before the next one is looked at. When a later field
is refused, the earlier ones stay. -/
namespace IrisMind.Rooms
open IrisMind.Lib

/-- The fields `update_room` writes, in the order it writes them. -/
inductive RoomField where
  | name
  | description
  | topic
  | state
  | metadata
deriving DecidableEq, Repr

namespace RoomField

def key : RoomField → String
  | name => "name"
  | description => "description"
  | topic => "topic"
  | state => "state"
  | metadata => "metadata"

abbrev Value : RoomField → Type
  | name | description | topic => String
  | state => RoomState
  | metadata => List (String × Json)

/-- Whether two values of a field are equal; comparing two dynamic values may raise. -/
def same? (same : Json → Json → Option Bool) : (f : RoomField) → f.Value → f.Value → Option Bool
  | name, old, new => some (old = new)
  | description, old, new => some (old = new)
  | topic, old, new => some (old = new)
  | state, old, new => some (old = new)
  | metadata, old, new => same (.obj old) (.obj new)

end RoomField

namespace Room

def get (room : Room) : (f : RoomField) → f.Value
  | .name => room.name
  | .description => room.description
  | .topic => room.topic
  | .state => room.state
  | .metadata => room.metadata

def set (room : Room) : (f : RoomField) → f.Value → Room
  | .name, v => { room with name := v }
  | .description, v => { room with description := v }
  | .topic, v => { room with topic := v }
  | .state, v => { room with state := v }
  | .metadata, v => { room with metadata := v }

@[simp] theorem get_set (room : Room) (f : RoomField) (v : f.Value) : (room.set f v).get f = v := by
  cases f <;> rfl

theorem get_set_of_ne (room : Room) {f f' : RoomField} (h : f' ≠ f) (v : f.Value) :
    (room.set f v).get f' = room.get f' := by
  cases f <;> cases f' <;> first | rfl | exact absurd rfl h

@[simp] theorem set_get (room : Room) (f : RoomField) : room.set f (room.get f) = room := by
  cases f <;> rfl

/-- What no update of a field touches. -/
def stamps (room : Room) : String × String × String × Option String :=
  (room.roomId, room.createdBy, room.createdAt, room.updatedAt)

@[simp] theorem stamps_set (room : Room) (f : RoomField) (v : f.Value) :
    (room.set f v).stamps = room.stamps := by
  cases f <;> rfl

end Room

/-- What a caller gives for a field. -/
inductive Given where
  | state (s : RoomState)
  | value (j : Json)

/-- How an update raises: as a `ValueError`, or where two values are compared. -/
inductive UpdateError where
  | value (text : String)
  | comparison
deriving DecidableEq, Repr

structure RoomUpdatedEvent where
  roomId : String
  field : RoomField
  oldValue : field.Value
  newValue : field.Value

namespace RoomManager

/-- A state is a text as well. -/
def coerceText (key : String) : Given → Except String String
  | .state s => .ok s.value
  | .value (.str s) => .ok s
  | .value _ => .error (key ++ " must be a string")

/-- The new value `coerce_update_field` makes; `repr` prints a value in an error. -/
def coerceValue (repr : Json → String) : (f : RoomField) → Given → Except String f.Value
  | .name, g => coerceText "name" g
  | .description, g => coerceText "description" g
  | .topic, g => coerceText "topic" g
  | .state, .state s => .ok s
  | .state, .value (.str s) => match RoomState.ofValue? s with
    | some state => .ok state
    | none => .error (repr (.str s) ++ " is not a valid RoomState")
  | .state, .value j => .error ("invalid room state: " ++ repr j)
  | .metadata, .value (.obj fields) => .ok fields
  | .metadata, _ => .error "metadata must be an object"

/-- `coerce_update_field`: the old value and the new one. -/
def coerceUpdateField (repr : Json → String) (room : Room) (f : RoomField) (g : Given) :
    Except String (f.Value × f.Value) :=
  (coerceValue repr f g).map fun new => (room.get f, new)

/-- What the loop does about one field. -/
inductive Outcome (f : RoomField) where
  | refused (error : UpdateError)
  | kept
  | changed (new : f.Value)

section
variable (same : Json → Json → Option Bool) (repr : Json → String)

def outcome (room : Room) (f : RoomField) (g : Given) : Outcome f :=
  match coerceUpdateField repr room f g with
  | .error text => .refused (.value text)
  | .ok (old, new) => match f.same? same old new with
    | none => .refused .comparison
    | some true => .kept
    | some false => .changed new

/-- The room as the loop leaves it, what it has announced, and how it raised. -/
structure FieldsRun where
  room : Room
  events : List RoomUpdatedEvent := []
  raised : Option UpdateError := none

/-- The loop of `update_room`. -/
def updateFields (roomId : String) (room : Room) : List (RoomField × Given) → FieldsRun
  | [] => { room }
  | (f, g) :: rest => match outcome same repr room f g with
    | .refused error => { room, raised := some error }
    | .kept => updateFields roomId room rest
    | .changed new =>
      let run := updateFields roomId (room.set f new) rest
      { run with events := ⟨roomId, f, room.get f, new⟩ :: run.events }

/-- The arguments of `update_room`; one that is `none` is not given. -/
structure UpdateArgs where
  name : Option Given := none
  description : Option Given := none
  topic : Option Given := none
  state : Option Given := none
  metadata : Option Given := none

def UpdateArgs.updates (u : UpdateArgs) : List (RoomField × Given) :=
  (u.name.toList.map (.name, ·)) ++ (u.description.toList.map (.description, ·)) ++
    (u.topic.toList.map (.topic, ·)) ++ (u.state.toList.map (.state, ·)) ++
    (u.metadata.toList.map (.metadata, ·))

structure UpdateRun where
  store : RoomStore
  events : List RoomUpdatedEvent := []
  raised : Option UpdateError := none

/-- `update_room`. The room the loop writes is the one the store holds. -/
def updateRoomArgs (s : RoomStore) (now roomId : String) (u : UpdateArgs) : UpdateRun :=
  match s.findRoomById roomId with
  | none => { store := s, raised := some (.value ("room not found: " ++ roomId)) }
  | some room =>
    let run := updateFields same repr roomId room u.updates
    match run.raised with
    | some error => { store := s.updateRoom run.room, events := run.events, raised := some error }
    | none =>
      { store := s.updateRoom { run.room with updatedAt := some now }, events := run.events }

end

variable {same : Json → Json → Option Bool} {repr : Json → String}

/-! ## What an update is to do -/

section
variable (same : Json → Json → Option Bool) (repr : Json → String)

/-- The value given for the field cannot be taken. -/
def refuses (room : Room) (x : RoomField × Given) : Bool :=
  match outcome same repr room x.1 x.2 with
  | .refused _ => true
  | _ => false

/-- The value given for the field is another one than the room has. -/
def changes (room : Room) (x : RoomField × Given) : Bool :=
  match outcome same repr room x.1 x.2 with
  | .changed _ => true
  | _ => false

/-- The given fields, and no others, have the given values; and the room is stamped. -/
structure Replaced (now : String) (items : List (RoomField × Given)) (old new : Room) : Prop where
  given : ∀ x ∈ items, ∃ v, coerceValue repr x.1 x.2 = .ok v ∧
    (new.get x.1 = v ∨ x.1.same? same (new.get x.1) v = some true)
  others : ∀ f, f ∉ items.map Prod.fst → new.get f = old.get f
  stamps : new.stamps = (old.roomId, old.createdBy, old.createdAt, some now)

/-- There is one event for each given field whose value has changed. -/
structure Announced (roomId : String) (items : List (RoomField × Given)) (old new : Room)
    (events : List RoomUpdatedEvent) : Prop where
  fields : events.map RoomUpdatedEvent.field = (items.filter (changes same repr old)).map Prod.fst
  values : ∀ e ∈ events, e.roomId = roomId ∧ e.oldValue = old.get e.field ∧
    e.newValue = new.get e.field

/-- An update that raises has done nothing, and one that returns has done all of it. -/
structure Atomic (s : RoomStore) (now roomId : String) (u : UpdateArgs) (run : UpdateRun) :
    Prop where
  undone : ∀ error, run.raised = some error → run.store = s ∧ run.events = []
  done : run.raised = none → ∃ old new, s.findRoomById roomId = some old ∧
    run.store = s.updateRoom new ∧ Replaced same repr now u.updates old new ∧
    Announced same repr roomId u.updates old new run.events

/-- No field that changes the room stands before the first one that is refused. -/
def RefusedFirst (room : Room) (items : List (RoomField × Given)) : Prop :=
  items.any (refuses same repr room) = true →
    ∀ x ∈ items.takeWhile fun x => !refuses same repr room x, changes same repr room x = false

end

/-! ## What the loop does -/

theorem outcome_congr {room room' : Room} {f : RoomField} (h : room.get f = room'.get f)
    (g : Given) : outcome same repr room f g = outcome same repr room' f g := by
  unfold outcome coerceUpdateField
  rw [h]

theorem coerceValue_of_outcome {room : Room} {f : RoomField} {g : Given} {new : f.Value}
    (h : outcome same repr room f g = .changed new) : coerceValue repr f g = .ok new := by
  unfold outcome coerceUpdateField at h
  cases hv : coerceValue repr f g with
  | error text =>
    rw [hv] at h
    cases h
  | ok v =>
    rw [hv] at h
    simp only [Except.map] at h
    split at h <;> cases h
    rfl

theorem coerceValue_of_kept {room : Room} {f : RoomField} {g : Given}
    (h : outcome same repr room f g = .kept) :
    ∃ v, coerceValue repr f g = .ok v ∧ f.same? same (room.get f) v = some true := by
  unfold outcome coerceUpdateField at h
  cases hv : coerceValue repr f g with
  | error text =>
    rw [hv] at h
    cases h
  | ok v =>
    rw [hv] at h
    simp only [Except.map] at h
    split at h
    · cases h
    · next hsame => exact ⟨v, rfl, hsame⟩
    · cases h

/-- What the loop makes of the fields, told by the room before it. -/
structure Loop (same : Json → Json → Option Bool) (repr : Json → String) (roomId : String)
    (base room : Room) (items : List (RoomField × Given)) (run : FieldsRun) : Prop where
  raised : run.raised.isSome = items.any (refuses same repr base)
  fields : run.events.map RoomUpdatedEvent.field =
    ((items.takeWhile fun x => !refuses same repr base x).filter (changes same repr base)).map
      Prod.fst
  values : ∀ e ∈ run.events, e.roomId = roomId ∧ e.oldValue = base.get e.field ∧
    e.newValue = run.room.get e.field
  given : run.raised = none → ∀ x ∈ items, ∃ v, coerceValue repr x.1 x.2 = .ok v ∧
    (run.room.get x.1 = v ∨ x.1.same? same (run.room.get x.1) v = some true)
  others : ∀ f, f ∉ items.map Prod.fst → run.room.get f = room.get f
  stamps : run.room.stamps = room.stamps
  unchanged : run.events = [] → run.room = room

section LoopStep

variable {roomId : String} {base room : Room} {f : RoomField} {g : Given}
  {rest : List (RoomField × Given)}

theorem Loop.nil : Loop same repr roomId base room [] { room } := by
  refine ⟨rfl, rfl, fun e he => ?_, fun _ x hx => ?_, fun _ _ => rfl, rfl, fun _ => rfl⟩
  · cases he
  · cases hx

theorem Loop.refused {error : UpdateError}
    (hcase : outcome same repr base f g = .refused error) :
    Loop same repr roomId base room ((f, g) :: rest) { room, raised := some error } := by
  have hrefuses : refuses same repr base (f, g) = true := by simp [refuses, hcase]
  refine ⟨by simp [hrefuses], by simp [hrefuses], fun e he => ?_, fun h => ?_, fun _ _ => rfl, rfl,
    fun _ => rfl⟩
  · cases he
  · cases h

/-- A field that is kept is passed over. -/
theorem Loop.kept {run : FieldsRun} (hfirst : room.get f = base.get f)
    (hcase : outcome same repr base f g = .kept) (hfresh : f ∉ rest.map Prod.fst)
    (h : Loop same repr roomId base room rest run) :
    Loop same repr roomId base room ((f, g) :: rest) run := by
  have hrefuses : refuses same repr base (f, g) = false := by simp [refuses, hcase]
  have hchanges : changes same repr base (f, g) = false := by simp [changes, hcase]
  refine ⟨?_, ?_, h.values, fun hnone x hx => ?_, fun f' hf' => h.others f' ?_, h.stamps,
    h.unchanged⟩
  · simp [h.raised, hrefuses]
  · simp [h.fields, hrefuses, hchanges]
  · rcases List.mem_cons.mp hx with rfl | hx
    · obtain ⟨v, hv, hsame⟩ := coerceValue_of_kept hcase
      exact ⟨v, hv, .inr (by rw [h.others f hfresh, hfirst]; exact hsame)⟩
    · exact h.given hnone x hx
  · exact fun hmem => hf' (List.mem_cons_of_mem _ hmem)

/-- A field that is changed is announced, and what comes later does not touch it. -/
theorem Loop.changed {run : FieldsRun} {new : f.Value} (hfirst : room.get f = base.get f)
    (hcase : outcome same repr base f g = .changed new) (hfresh : f ∉ rest.map Prod.fst)
    (h : Loop same repr roomId base (room.set f new) rest run) :
    Loop same repr roomId base room ((f, g) :: rest)
      { run with events := ⟨roomId, f, room.get f, new⟩ :: run.events } := by
  have hrefuses : refuses same repr base (f, g) = false := by simp [refuses, hcase]
  have hchanges : changes same repr base (f, g) = true := by simp [changes, hcase]
  have hnew : run.room.get f = new := (h.others f hfresh).trans (Room.get_set room f new)
  refine ⟨?_, ?_, fun e he => ?_, fun hnone x hx => ?_, fun f' hf' => ?_, ?_, fun hempty => ?_⟩
  · simp [h.raised, hrefuses]
  · simp [h.fields, hrefuses, hchanges]
  · rcases List.mem_cons.mp he with rfl | he
    · exact ⟨rfl, hfirst, hnew.symm⟩
    · exact h.values e he
  · rcases List.mem_cons.mp hx with rfl | hx
    · exact ⟨new, coerceValue_of_outcome hcase, .inl hnew⟩
    · exact h.given hnone x hx
  · rw [List.map_cons, List.mem_cons, not_or] at hf'
    exact (h.others f' hf'.2).trans (Room.get_set_of_ne room hf'.1 new)
  · exact h.stamps.trans (Room.stamps_set room f new)
  · cases hempty

end LoopStep

/-- No field comes twice, so what the loop meets is what was there before it. -/
theorem loop_updateFields (roomId : String) {base : Room} {items : List (RoomField × Given)}
    (hn : (items.map Prod.fst).Nodup) : ∀ {room : Room},
      (∀ x ∈ items, room.get x.1 = base.get x.1) →
        Loop same repr roomId base room items (updateFields same repr roomId room items) := by
  induction items with
  | nil => exact fun _ => Loop.nil
  | cons x rest ih =>
    obtain ⟨f, g⟩ := x
    intro room hbase
    obtain ⟨hfresh, hrest⟩ := List.nodup_cons.mp hn
    have hfirst : room.get f = base.get f := hbase _ List.mem_cons_self
    have hlater : ∀ y ∈ rest, room.get y.1 = base.get y.1 := fun y hy =>
      hbase y (List.mem_cons_of_mem _ hy)
    unfold updateFields
    rw [outcome_congr hfirst]
    cases hcase : outcome same repr base f g with
    | refused error => exact Loop.refused hcase
    | kept => exact (ih hrest hlater).kept hfirst hcase hfresh
    | changed new =>
      have hwritten : ∀ y ∈ rest, (room.set f new).get y.1 = base.get y.1 := by
        intro y hy
        have hne : y.1 ≠ f := fun h => hfresh (List.mem_map.mpr ⟨y, hy, h⟩)
        rw [Room.get_set_of_ne room hne, hlater y hy]
      exact (ih hrest hwritten).changed hfirst hcase hfresh

/-! ## When an update is atomic -/

theorem nodup_updates (u : UpdateArgs) : (u.updates.map Prod.fst).Nodup := by
  obtain ⟨name, description, topic, state, metadata⟩ := u
  cases name <;> cases description <;> cases topic <;> cases state <;> cases metadata <;>
    simp [UpdateArgs.updates]

theorem get_stamped (room : Room) (f : RoomField) (stamp : Option String) :
    Room.get { room with updatedAt := stamp } f = room.get f := by
  cases f <;> rfl

/-- A loop that raises has announced nothing exactly when the refused field comes first. -/
theorem Loop.events_eq_nil_iff {roomId : String} {base room : Room}
    {items : List (RoomField × Given)} {run : FieldsRun}
    (h : Loop same repr roomId base room items run) {error : UpdateError}
    (hraised : run.raised = some error) : run.events = [] ↔ RefusedFirst same repr base items := by
  have hany : items.any (refuses same repr base) = true := by rw [← h.raised, hraised]; rfl
  have hnil : run.events = [] ↔ run.events.map RoomUpdatedEvent.field = [] := by simp
  rw [hnil, h.fields, List.map_eq_nil_iff, List.filter_eq_nil_iff]
  constructor
  · intro hnone _ x hx
    exact (Bool.not_eq_true _).mp (hnone x hx)
  · intro hfirst x hx
    exact (Bool.not_eq_true _).mpr (hfirst hany x hx)

/-- A loop that ends well has done what was to be done. -/
theorem Loop.done {roomId : String} {room : Room} {items : List (RoomField × Given)}
    {run : FieldsRun} (h : Loop same repr roomId room room items run) (hraised : run.raised = none)
    (now : String) : Replaced same repr now items room { run.room with updatedAt := some now } ∧
      Announced same repr roomId items room { run.room with updatedAt := some now } run.events := by
  have hany : items.any (refuses same repr room) = false := by rw [← h.raised, hraised]; rfl
  have hall : (items.takeWhile fun x => !refuses same repr room x) = items := by
    refine List.takeWhile_eq_self_iff.mpr fun x hx => ?_
    simp [List.any_eq_false.mp hany x hx]
  have hstamps := h.stamps
  simp only [Room.stamps, Prod.mk.injEq] at hstamps
  refine ⟨⟨fun x hx => ?_, fun f hf => ?_, ?_⟩, ⟨?_, fun e he => ?_⟩⟩
  · rw [get_stamped]
    exact h.given hraised x hx
  · rw [get_stamped]
    exact h.others f hf
  · simp [Room.stamps, hstamps]
  · rw [h.fields, hall]
  · rw [get_stamped]
    exact h.values e he

/-- For every store and all arguments: the update is atomic exactly when no field that changes the
room stands before the first one that is refused. -/
theorem updateRoomArgs_atomic_iff (same : Json → Json → Option Bool) (repr : Json → String)
    (s : RoomStore) (now roomId : String) (u : UpdateArgs) :
    Atomic same repr s now roomId u (updateRoomArgs same repr s now roomId u) ↔
      ∀ room, s.findRoomById roomId = some room → RefusedFirst same repr room u.updates := by
  unfold updateRoomArgs
  cases hfind : s.findRoomById roomId with
  | none =>
    refine iff_of_true ⟨fun _ _ => ⟨rfl, rfl⟩, fun h => ?_⟩ fun room h => ?_
    · cases h
    · cases h
  | some room =>
    have hloop : Loop same repr roomId room room u.updates
        (updateFields same repr roomId room u.updates) :=
      loop_updateFields roomId (nodup_updates u) fun _ _ => rfl
    have hself : s.updateRoom room = s := by
      rw [← RoomStore.roomId_of_find hfind] at hfind
      exact congrArg (fun rooms => { s with rooms }) (Rows.replaceFirst_self _ hfind)
    dsimp only
    cases hraised : (updateFields same repr roomId room u.updates).raised with
    | none =>
      have hany := hloop.raised
      rw [hraised] at hany
      refine iff_of_true ⟨fun _ h => ?_, fun _ => ?_⟩ fun room' h => ?_
      · cases h
      · obtain ⟨hreplaced, hannounced⟩ := hloop.done hraised now
        exact ⟨room, _, hfind, rfl, hreplaced, hannounced⟩
      · cases h
        intro hrefused
        rw [← hany] at hrefused
        cases hrefused
    | some error =>
      have hevents := hloop.events_eq_nil_iff hraised
      constructor
      · intro h room' hroom'
        cases hroom'
        exact hevents.mp (h.undone error rfl).2
      · intro h
        have hnil := hevents.mpr (h room rfl)
        refine ⟨fun _ _ => ⟨?_, hnil⟩, fun h => by cases h⟩
        rw [hloop.unchanged hnil, hself]

/-- A name and a state come in one call; and the state is not one: the room has the new
name all the same. -/
theorem updateRoomArgs_keeps_name :
    ¬ ∀ (same : Json → Json → Option Bool) (repr : Json → String) (s : RoomStore)
      (now roomId : String) (u : UpdateArgs),
      Atomic same repr s now roomId u (updateRoomArgs same repr s now roomId u) := by
  intro h
  let s : RoomStore := { rooms := [{ roomId := "r", name := "old" }] }
  let u : UpdateArgs :=
    { name := some (.value (.str "new")), state := some (.value (.str "broken")) }
  have hatomic := (h (fun _ _ => none) (fun _ => "'broken'") s "now" "r" u).undone
    (.value "'broken' is not a valid RoomState") (by decide)
  have hname := congrArg (fun t : RoomStore => (t.findRoomById "r").map Room.name) hatomic.1
  exact absurd hname (by decide)

end RoomManager

end IrisMind.Rooms
