import IrisMind.Memory.SensoryEvents
import IrisMind.Planning.Scorer
import IrisMind.Rooms.Lifecycle
import Mathlib.Data.List.MinMax
import Mathlib.Data.String.Basic

/-! # Speaking without being asked

A tick of the heartbeat delivers the inputs that wait. When none does, and the
layer is configured to, the mind is given an empty input for a room: meant is
the room in which somebody was active last, and else the default room, which is
made when there is none. -/
namespace IrisMind.Memory
open IrisMind.Lib IrisMind.Events IrisMind.Rooms IrisMind.Planning

/-! ## Choosing a room -/

namespace ProactiveTrigger

/-- `get_default_room` -/
def getDefaultRoom (s : RoomStore) (newId now : String) : Room × RoomStore :=
  match s.rooms.find? fun r => r.name == "default" && r.state == .active with
  | some room => (room, s)
  | none => RoomManager.createRoom s newId now "default" "system"

/-- `best_room` and `best_active` in the loop of `_select_room`. -/
structure Best where
  room : Option Room := none
  active : Option String := none

variable (lastActive : RoomMember → Option String)

/-- One member in the loop. -/
def Best.consider (b : Best) (p : Room × RoomMember) : Best :=
  if p.2.isActive && (b.active.isNone || b.active.getD "" < (lastActive p.2).getD "") then
    { room := some p.1, active := lastActive p.2 }
  else b

/-- The members of the rooms, in the order in which the loop comes to them. -/
def listed (s : RoomStore) : List (Room × RoomMember) :=
  (s.findRoomsByState .active).flatMap fun room =>
    (s.findMembersByRoom room.roomId).map fun m => (room, m)

/-- `_select_room`, which may make the default room; without a provider there is no room. -/
def selectRoom (newId now : String) : Option RoomStore → String × Option RoomStore
  | none => ("", none)
  | some s =>
    let default_ := getDefaultRoom s newId now
    if (s.findRoomsByState .active).isEmpty then (default_.1.roomId, some default_.2)
    else match ((listed s).foldl (Best.consider lastActive) {}).room with
      | some room => (room.roomId, some s)
      | none => (default_.1.roomId, some default_.2)

/-- What is published for a room. -/
def input (roomId : String) : InputReady :=
  { sessionId := "", content := "", roomId, context := [("from_timer", .bool true)] }

/-! ### What is chosen -/

theorem isActive_of_mem_listed {s : RoomStore} {p : Room × RoomMember} (h : p ∈ listed s) :
    p.2.isActive = true ∧ p.1 ∈ s.findRoomsByState .active := by
  obtain ⟨room, hroom, hp⟩ := List.mem_flatMap.mp h
  obtain ⟨m, hm, rfl⟩ := List.mem_map.mp hp
  have hboth := (List.mem_filter.mp hm).2
  exact ⟨(Bool.and_eq_true_iff.mp hboth).2, hroom⟩

/-- Of active members the loop keeps the first of those who were active last, when it is known of
any of them when that was. A member it is not known of gives way to whoever comes next, so when
it is known of nobody the last one is kept. -/
theorem foldl_consider (l : List (Room × RoomMember)) (hl : ∀ p ∈ l, p.2.isActive = true) :
    l.foldl (Best.consider lastActive) {} =
      match (l.filter fun p => (lastActive p.2).isSome).argmax
        fun p => (lastActive p.2).getD "" with
      | some p => { room := some p.1, active := lastActive p.2 }
      | none => { room := l.getLast?.map Prod.fst, active := none } := by
  induction l using List.reverseRecOn with
  | nil => rfl
  | append_singleton l p ih =>
    have hp : p.2.isActive = true := hl p (by simp)
    rw [List.foldl_append, ih fun q hq => hl q (by simp [hq])]
    simp only [List.foldl_cons, List.foldl_nil, List.filter_append]
    cases hlast : lastActive p.2 with
    | none =>
      simp only [List.filter_cons, hlast, Option.isSome_none, Bool.false_eq_true, if_false,
        List.filter_nil, List.append_nil]
      cases hbest : (l.filter fun p => (lastActive p.2).isSome).argmax
          fun p => (lastActive p.2).getD "" with
      | none => simp [Best.consider, hp, hlast]
      | some q =>
        -- no text is below the empty one
        have hq : (lastActive q.2).isSome = true := by
          simpa using (List.mem_filter.mp (List.argmax_mem hbest)).2
        have hnot : ¬ (lastActive q.2).getD "" < "" := by
          rw [String.lt_iff_toList_lt]
          simp
        obtain ⟨t, ht⟩ := Option.isSome_iff_exists.mp hq
        simp only [ht, Option.getD_some] at hnot
        simp [Best.consider, hlast, ht, hnot]
    | some t =>
      simp only [List.filter_cons, hlast, Option.isSome_some, if_true, List.filter_nil,
        List.argmax_concat]
      cases hbest : (l.filter fun p => (lastActive p.2).isSome).argmax
          fun p => (lastActive p.2).getD "" with
      | none => simp [Best.consider, hp, hlast]
      | some q =>
        have hq : (lastActive q.2).isSome = true := by
          simpa using (List.mem_filter.mp (List.argmax_mem hbest)).2
        obtain ⟨u, hu⟩ := Option.isSome_iff_exists.mp hq
        by_cases hlt : u < t <;> simp [Best.consider, hp, hlast, hu, hlt]

/-! ### Where it is -/

/-- There is an active room of that name. -/
def IsRoom (s : RoomStore) (roomId : String) : Prop :=
  ∃ room ∈ s.rooms, room.roomId = roomId ∧ room.state = .active

theorem getDefaultRoom_isRoom (s : RoomStore) (newId now : String) :
    IsRoom (getDefaultRoom s newId now).2 (getDefaultRoom s newId now).1.roomId := by
  unfold getDefaultRoom
  cases h : s.rooms.find? fun r => r.name == "default" && r.state == .active with
  | some room =>
    have hboth := List.find?_some h
    simp only [Bool.and_eq_true, beq_iff_eq] at hboth
    exact ⟨room, List.mem_of_find?_eq_some h, rfl, hboth.2⟩
  | none =>
    refine ⟨{ roomId := newId, name := "default", createdBy := "system", createdAt := now }, ?_,
      rfl, rfl⟩
    simp [RoomManager.createRoom, RoomStore.addRoom]

/-- The room of the member that is kept; where somebody is known to have been active, this is the
first of those who were last. -/
def mostActive (s : RoomStore) : Option Room :=
  match ((listed s).filter fun p => (lastActive p.2).isSome).argmax
      fun p => (lastActive p.2).getD "" with
  | some p => some p.1
  | none => (listed s).getLast?.map Prod.fst

theorem mostActive_mem {s : RoomStore} {room : Room} (h : mostActive lastActive s = some room) :
    room ∈ s.findRoomsByState .active := by
  unfold mostActive at h
  split at h
  · next p hp =>
    obtain rfl := Option.some.inj h
    exact (isActive_of_mem_listed (List.mem_filter.mp (List.argmax_mem hp)).1).2
  · obtain ⟨p, hp, rfl⟩ := Option.map_eq_some_iff.mp h
    exact (isActive_of_mem_listed (List.mem_of_getLast? hp)).2

/-- The room that is chosen: that of the member that is kept, else the default room. -/
theorem selectRoom_eq (newId now : String) (s : RoomStore) :
    selectRoom lastActive newId now (some s) =
      match mostActive lastActive s with
      | some room => (room.roomId, some s)
      | none => ((getDefaultRoom s newId now).1.roomId, some (getDefaultRoom s newId now).2) := by
  have hfold : ((listed s).foldl (Best.consider lastActive) {}).room = mostActive lastActive s := by
    rw [foldl_consider lastActive _ fun p hp => (isActive_of_mem_listed hp).1, mostActive]
    split <;> rfl
  rw [selectRoom, hfold]
  split
  · next hnone =>
    cases hmost : mostActive lastActive s with
    | none => rfl
    | some room =>
      have hmem := mostActive_mem lastActive hmost
      rw [List.isEmpty_iff.mp hnone] at hmem
      exact absurd hmem (by simp)
  · rfl

/-- The chosen room is an active one of the store that is left. -/
theorem selectRoom_isRoom (newId now : String) (s : RoomStore) :
    ∃ s', (selectRoom lastActive newId now (some s)).2 = some s' ∧
      IsRoom s' (selectRoom lastActive newId now (some s)).1 := by
  rw [selectRoom_eq]
  cases hmost : mostActive lastActive s with
  | none => exact ⟨_, rfl, getDefaultRoom_isRoom s newId now⟩
  | some room =>
    have hmem := List.mem_filter.mp (mostActive_mem lastActive hmost)
    exact ⟨s, rfl, room, hmem.1, rfl, by simpa using hmem.2⟩

end ProactiveTrigger

/-! ## Ticks -/

/-- The memory layer and the rooms, with the inputs nobody asked for. No member of a room says when
it was active last: nothing writes that field. The layer may be without a configuration, and
without access to the rooms. -/
structure MemoryLayer where
  proactiveConfig : Option ProactiveConfig := none
  hasRoomProvider : Bool := true
  sensory : SensoryMemoryManager := {}
  rooms : RoomService := {}
  proactive : List InputReady := []

namespace MemoryLayer

/-- What `_on_timer_tick` of the sensory handler answers: something was delivered. -/
def handled (s : SensoryMemoryManager) (activeRooms : List String) : Bool :=
  let (processed, t) := SensoryMemoryManager.tickLoop activeRooms s
  processed || !t.store.pendingInput.entries.isEmpty

/-- `_MemoryEventHandler._on_timer_tick` -/
def onTimerTick (x : MemoryLayer) (activeRooms : List String) (newId now : String) : MemoryLayer :=
  let sensory := x.sensory.onTimerTick activeRooms
  if handled x.sensory activeRooms then { x with sensory }
  else if x.proactiveConfig.isNone then { x with sensory }
  else
    let (roomId, store) := ProactiveTrigger.selectRoom (fun _ => none) newId now
      (if x.hasRoomProvider then some x.rooms.store else none)
    { x with
      sensory
      rooms := { x.rooms with store := store.getD x.rooms.store }
      proactive := x.proactive ++ [ProactiveTrigger.input roomId] }

inductive Step where
  | sensory (i : SensoryMemoryManager.Step)
  | rooms (op : RoomService.Operation)
  | tick (activeRooms : List String) (newId now : String)

/-- The ticks go through the handler; nothing else of the sensory memory takes them. -/
def step (x : MemoryLayer) : Step → MemoryLayer
  | .sensory (.tick _) => x
  | .sensory i => { x with sensory := x.sensory.step i }
  | .rooms op => { x with rooms := x.rooms.step op }
  | .tick activeRooms newId now =>
    if activeRooms.Perm x.sensory.store.getActiveRoomIds then x.onTimerTick activeRooms newId now
    else x

/-- Nothing waits to be delivered. -/
def Idle (s : SensoryMemoryManager) : Prop :=
  (∀ room, s.store.rawInputs.get? room = none) ∧ s.store.pendingInput.entries = []

/-- Nothing is pending under a key without an entry. -/
def Filled (s : SensoryMemoryManager) : Prop :=
  ∀ key entries, s.store.pendingInput.get? key = some entries → entries ≠ []

section Filled

variable {s : SensoryMemoryManager}

theorem filled_of_none (h : ∀ key, s.store.pendingInput.get? key = none) : Filled s :=
  fun key _ hget => absurd ((h key).symm.trans hget) (by simp)

theorem filled_storeAndFlush (s : SensoryMemoryManager) (block : ContentBlock)
    (accountId roomId : String) : Filled (s.storeAndFlushPendingBlock block accountId roomId) := by
  refine filled_of_none fun key => ?_
  simp only [SensoryMemoryManager.storeAndFlushPendingBlock, SensoryMemoryManager.flushPending,
    SensoryStore.takePendingInput, SensoryStore.clear, Dict.get?_eraseAll]
  split <;> rfl

theorem Filled.step (h : Filled s) (i : SensoryMemoryManager.Step)
    (hi : ∀ rooms, i ≠ .tick rooms) : Filled (s.step i) := by
  cases i with
  | message e =>
    simp only [SensoryMemoryManager.step, SensoryMemoryManager.onMessageEvent]
    split_ifs
    · exact h
    · exact h
    · intro key entries hget
      simp only [SensoryStore.addPendingInput, SensoryStore.storeRawBlock, Dict.get?_set] at hget
      split at hget
      · exact Option.some.inj hget ▸ List.cons_ne_nil _ _
      · exact h key entries hget
  | joined e => exact filled_storeAndFlush _ _ _ _
  | joinedBatch joins =>
    cases joins with
    | nil => exact h
    | cons first rest => exact filled_storeAndFlush _ _ _ _
  | left e => exact filled_storeAndFlush _ _ _ _
  | tick rooms => exact absurd rfl (hi rooms)
  | addFragment block roomId => exact h
  | takeFragments roomId => exact h

end Filled

/-- What a tick adds when nothing waits: nothing without a configuration, and else one input that
nobody asked for, of no room when the layer cannot see the rooms. -/
def Speaks (config : Option ProactiveConfig) (provided : Bool) (x y : MemoryLayer) : Prop :=
  config = none ∧ y.proactive = x.proactive ∧ y.rooms = x.rooms ∨
    config ≠ none ∧ ∃ roomId, y.proactive = x.proactive ++ [ProactiveTrigger.input roomId] ∧
      if provided then ProactiveTrigger.IsRoom y.rooms.store roomId ∧
        ∀ p ∈ (ProactiveTrigger.listed x.rooms.store).getLast?, roomId = p.1.roomId
      else roomId = "" ∧ y.rooms = x.rooms

/-- How a tick may end: nothing waits any more, and either something waited and some of it was
delivered, or nothing did and there may be one more input that nobody asked for. -/
def TickEnds (config : Option ProactiveConfig) (provided : Bool) (x y : MemoryLayer) : Prop :=
  Idle y.sensory ∧
    (¬ Idle x.sensory ∧ y.proactive = x.proactive ∧ y.rooms = x.rooms ∧
        (∃ new, y.sensory.outputs = x.sensory.outputs ++ new ∧
          ∃ k e, SensoryOutput.inputReady k e ∈ new) ∨
      Idle x.sensory ∧ y.sensory.outputs = x.sensory.outputs ∧ Speaks config provided x y)

/-! ### One tick -/

open SensoryMemoryManager (tickLoop tickLoop_spec nodup_getActiveRoomIds mem_getActiveRoomIds)

theorem tickLoop_found : ∀ {rooms : List String} {s : SensoryMemoryManager},
    (tickLoop rooms s).1 = true →
      ∃ room ∈ rooms, ∃ raw, s.store.rawInputs.get? room = some raw
  | [], s, h => absurd h (by simp [tickLoop])
  | room :: rest, s, h => by
    cases hget : s.store.rawInputs.get? room with
    | some raw => exact ⟨room, by simp, raw, hget⟩
    | none =>
      simp only [tickLoop, SensoryStore.takeRaw, hget] at h
      obtain ⟨room', hmem, hraw⟩ := tickLoop_found h
      exact ⟨room', by simp [hmem], hraw⟩

/-- What a tick of the sensory memory comes to. -/
theorem onTimerTick_cases {s : SensoryMemoryManager} (h : Filled s) {rooms : List String}
    (hr : rooms.Perm s.store.getActiveRoomIds) :
    Idle (s.onTimerTick rooms) ∧
      (handled s rooms = true ∧ ¬ Idle s ∧
          (∃ new, (s.onTimerTick rooms).outputs = s.outputs ++ new ∧
            ∃ k e, SensoryOutput.inputReady k e ∈ new) ∨
        handled s rooms = false ∧ Idle s ∧ (s.onTimerTick rooms).outputs = s.outputs) := by
  obtain ⟨hnone, -, hpending, hout, hraw⟩ :=
    tickLoop_spec (hr.nodup_iff.mpr (nodup_getActiveRoomIds _)) s
  have hempty : ∀ room, (tickLoop rooms s).2.store.rawInputs.get? room = none := by
    intro room
    rw [hraw]
    split
    · rfl
    · next hnot =>
      cases hget : s.store.rawInputs.get? room with
      | none => rfl
      | some raw =>
        exact absurd (hr.mem_iff.mpr (mem_getActiveRoomIds hget)) hnot
  have htick : s.onTimerTick rooms = if (tickLoop rooms s).1
      then { (tickLoop rooms s).2 with
        store := (tickLoop rooms s).2.store.clearPendingInput }
      else (tickLoop rooms s).2.flushPending := rfl
  have hhandled : handled s rooms = ((tickLoop rooms s).1 ||
    !s.store.pendingInput.entries.isEmpty) := by rw [← hpending]; rfl
  rw [htick, hhandled]
  cases hfound : (tickLoop rooms s).1 with
  | true =>
    refine ⟨⟨hempty, rfl⟩, .inl ⟨by simp, ?_, _, hout, ?_⟩⟩
    · intro hidle
      obtain ⟨room, -, raw, hget⟩ := tickLoop_found hfound
      exact absurd ((hidle.1 room).symm.trans hget) (by simp)
    · obtain ⟨room, hmem, raw, hget⟩ := tickLoop_found hfound
      refine ⟨raw.input, _, List.mem_flatMap.mpr ⟨raw, ?_, by simp [RawInput.outputs]; rfl⟩⟩
      exact List.mem_filterMap.mpr ⟨room, hmem, hget⟩
  | false =>
    refine ⟨⟨hempty, rfl⟩, ?_⟩
    have hnoraw := hnone hfound
    have hflush : (tickLoop rooms s).2.flushPending.outputs =
        s.outputs ++ s.store.pendingInput.values.flatten.flatMap (·.outputs) := by
      rw [← hpending]
      change (tickLoop rooms s).2.outputs ++ _ = _
      rw [hout, hnoraw, List.flatMap_nil, List.append_nil]
    have hraws : ∀ room, s.store.rawInputs.get? room = none := by
      intro room
      cases hget : s.store.rawInputs.get? room with
      | none => rfl
      | some raw =>
        have hmem := hr.mem_iff.mpr (mem_getActiveRoomIds hget)
        exact absurd (List.mem_filterMap.mpr ⟨room, hmem, hget⟩) (by rw [hnoraw]; simp)
    cases hentries : s.store.pendingInput.entries with
    | nil =>
      refine .inr ⟨by simp, ⟨hraws, hentries⟩, ?_⟩
      simpa [Dict.values, hentries] using hflush
    | cons e rest =>
      have hmem : e ∈ s.store.pendingInput.entries := hentries ▸ List.mem_cons_self
      have hget := Dict.mem_entries_iff.mp hmem
      obtain ⟨first, others, hlist⟩ := List.exists_cons_of_ne_nil (h e.1 e.2 hget)
      refine .inl ⟨by simp, fun hidle => absurd hidle.2 (by simp [hentries]), _, hflush,
        first.input, _, List.mem_flatMap.mpr ⟨first, ?_, by simp [PendingInputEntry.outputs]; rfl⟩⟩
      exact List.mem_flatten.mpr ⟨e.2, Dict.mem_values_of_get? hget, by simp [hlist]⟩

/-- What every run keeps: nothing is pending under a key without an entry, and the layer is as it
was configured. -/
structure Kept (config : Option ProactiveConfig) (provided : Bool) (x : MemoryLayer) : Prop where
  filled : Filled x.sensory
  config : x.proactiveConfig = config
  provided : x.hasRoomProvider = provided

theorem Kept.step {config : Option ProactiveConfig} {provided : Bool} {x : MemoryLayer}
    (h : Kept config provided x) (i : Step) : Kept config provided (x.step i) := by
  cases i with
  | sensory i =>
    by_cases hi : ∃ rooms, i = .tick rooms
    · obtain ⟨rooms, rfl⟩ := hi
      exact h
    · have hstep := h.filled.step i fun rooms heq => hi ⟨rooms, heq⟩
      cases i <;> first | exact ⟨hstep, h.config, h.provided⟩ | exact h
  | rooms op => exact ⟨h.filled, h.config, h.provided⟩
  | tick activeRooms newId now =>
    simp only [MemoryLayer.step]
    split
    · next hr =>
      have hidle := (onTimerTick_cases h.filled hr).1
      have hfilled : Filled (x.sensory.onTimerTick activeRooms) := by
        intro key entries hget
        exact absurd (Dict.mem_entries_iff.mpr hget) (by rw [hidle.2]; simp)
      unfold onTimerTick
      dsimp only
      split_ifs <;> exact ⟨hfilled, h.config, h.provided⟩
    · exact h

theorem kept_run (config : Option ProactiveConfig) (provided : Bool) (is : List Step) :
    Kept config provided (Machine.run MemoryLayer.step
      { proactiveConfig := config, hasRoomProvider := provided } is) :=
  Machine.run_inv (Kept config provided) (fun _ i h => h.step i)
    ⟨filled_of_none fun _ => rfl, rfl, rfl⟩ is

/-- A tick that has delivered nothing. -/
theorem speaks_of_idle {x : MemoryLayer} {activeRooms : List String}
    (h : handled x.sensory activeRooms = false) (newId now : String) :
    (x.onTimerTick activeRooms newId now).sensory = x.sensory.onTimerTick activeRooms ∧
      Speaks x.proactiveConfig x.hasRoomProvider x (x.onTimerTick activeRooms newId now) := by
  cases hconfig : x.proactiveConfig with
  | none =>
    have hquiet : x.onTimerTick activeRooms newId now =
        { x with sensory := x.sensory.onTimerTick activeRooms } := by
      simp [onTimerTick, h, hconfig]
    rw [hquiet]
    exact ⟨rfl, .inl ⟨rfl, rfl, rfl⟩⟩
  | some config =>
    cases hprovided : x.hasRoomProvider with
    | false =>
      have hnowhere : x.onTimerTick activeRooms newId now =
          { x with
            sensory := x.sensory.onTimerTick activeRooms
            proactive := x.proactive ++ [ProactiveTrigger.input ""] } := by
        simp [onTimerTick, h, hconfig, hprovided, ProactiveTrigger.selectRoom]
      rw [hnowhere]
      exact ⟨rfl, .inr ⟨Option.some_ne_none config, "", rfl, rfl, rfl⟩⟩
    | true =>
      obtain ⟨s', hstore, hroom⟩ :=
        ProactiveTrigger.selectRoom_isRoom (fun _ => none) newId now x.rooms.store
      have hspeak : x.onTimerTick activeRooms newId now =
          { x with
            sensory := x.sensory.onTimerTick activeRooms
            rooms := { x.rooms with store := s' }
            proactive := x.proactive ++ [ProactiveTrigger.input (ProactiveTrigger.selectRoom
              (fun _ => none) newId now (some x.rooms.store)).1] } := by
        simp [onTimerTick, h, hconfig, hprovided, hstore]
      rw [hspeak]
      refine ⟨rfl, .inr ⟨Option.some_ne_none config, _, rfl, hroom, fun p hp => ?_⟩⟩
      have hlast : ProactiveTrigger.mostActive (fun _ => none) x.rooms.store = some p.1 := by
        simp [ProactiveTrigger.mostActive, Option.mem_def.mp hp]
      rw [ProactiveTrigger.selectRoom_eq, hlast]

end MemoryLayer

/-- A tick, whatever came before it, delivers what waits, or speaks up when nothing does, and never
does both; without a configuration it never speaks up. It speaks up in a room that is there and
active, if the layer can see the rooms. Since nothing says when a member was active last, that is
the last room in the list that has anybody in it. -/
theorem tick_delivers_or_speaks (config : Option ProactiveConfig) (provided : Bool)
    (is : List MemoryLayer.Step) (activeRooms : List String) (newId now : String)
    (h : activeRooms.Perm
      (Machine.run MemoryLayer.step { proactiveConfig := config, hasRoomProvider := provided }
        is).sensory.store.getActiveRoomIds) :
    let x := Machine.run MemoryLayer.step
      { proactiveConfig := config, hasRoomProvider := provided } is
    MemoryLayer.TickEnds config provided x (x.step (.tick activeRooms newId now)) := by
  intro x
  have hkept := MemoryLayer.kept_run config provided is
  have hy : x.step (.tick activeRooms newId now) = x.onTimerTick activeRooms newId now := if_pos h
  rw [hy]
  obtain ⟨hidle, hcases⟩ := MemoryLayer.onTimerTick_cases hkept.filled h
  rcases hcases with ⟨hhandled, hwait, hnew⟩ | ⟨hhandled, hnone, hout⟩
  · have hsame : x.onTimerTick activeRooms newId now =
        { x with sensory := x.sensory.onTimerTick activeRooms } := by
      rw [MemoryLayer.onTimerTick, hhandled]
      rfl
    rw [hsame]
    exact ⟨hidle, .inl ⟨hwait, rfl, rfl, hnew⟩⟩
  · obtain ⟨hsensory, hspeaks⟩ := MemoryLayer.speaks_of_idle hhandled newId now
    rw [hkept.config, hkept.provided] at hspeaks
    rw [MemoryLayer.TickEnds, hsensory]
    exact ⟨hidle, .inr ⟨hnone, hout, hspeaks⟩⟩

def hello : MessageEvent where
  content := "hi"
  accountId := "ann"
  roomId := "r1"
  sessionId := "s1"
  direction := "request"
  msgType := "chat"

/-- Two people are in two rooms, and one of them says something. -/
def twoRooms : List MemoryLayer.Step :=
  [.rooms (.create "r1" "t1" { name := "lobby" }), .rooms (.create "r2" "t2" { name := "lab" }),
    .rooms (.join id "t3" "r1" "ann" "s1" "member"),
    .rooms (.join id "t4" "r2" "bob" "s2" "member"),
    .sensory (.message hello)]

theorem tick_delivers_or_speaks_two :
    let x := Machine.run MemoryLayer.step
      { proactiveConfig := some {}, hasRoomProvider := true } twoRooms
    MemoryLayer.TickEnds (some {}) true x (x.step (.tick ["r1"] "r3" "t5")) :=
  tick_delivers_or_speaks (some {}) true twoRooms ["r1"] "r3" "t5" (List.Perm.refl _)

end IrisMind.Memory
