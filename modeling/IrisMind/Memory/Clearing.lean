import IrisMind.Memory.Layers

/-! # Clearing a memory

A memory is cleared stream by stream. Whoever asks may name a room, but the room
goes no further than the dispatcher: what a stream has of all rooms is gone.
Only the sensory layer could do with one room, and nobody tells it which. -/
namespace IrisMind.Memory
open IrisMind.Lib

/-- `SensoryMemoryManager.clear`; without a room it is about all of them. -/
def SensoryMemoryAssembler.clear (s : SensoryMemoryAssembler) :
    Option String → SensoryMemoryAssembler
  | some roomId =>
    let s := s.cancelTimer roomId
    { s with store := s.store.clear roomId }
  | none =>
    let s := (s.timers.entries.map Prod.fst).foldl cancelTimer s
    { s with store := {} }

/-- `ShortTermMemoryManager.clear` -/
def ShortTermMemoryManager.clear (m : ShortTermMemoryManager) : ShortTermMemoryManager where
  store := { m.store with turns := [], currentTopics := [], activeReferences := [] }
  presence := {}

namespace MemoryLayers

/-- The stream is the one to be cleared, or all of them are. -/
def Chosen (stream : Option Stream) (s : Stream) : Prop := stream = none ∨ stream = some s

instance (stream : Option Stream) (s : Stream) : Decidable (Chosen stream s) :=
  inferInstanceAs (Decidable (_ ∨ _))

/-- `dispatch_clear`, which does not look at its room. -/
def dispatchClear (l : MemoryLayers) (stream : Option Stream) (_roomId : String) :
    MemoryLayers where
  sensory := if Chosen stream .sensory then l.sensory.clear none else l.sensory
  shortTerm := if Chosen stream .shortTerm then l.shortTerm.clear else l.shortTerm
  episodic := if Chosen stream .episodic then l.episodic.map fun _ => {} else l.episodic
  semantic := if Chosen stream .semantic then l.semantic.map SemanticStore.clear else l.semantic

/-- `MemoryManager.clear`, which does not pass on its room. -/
def clear (l : MemoryLayers) (stream : Option Stream) (_roomId : String) : MemoryLayers :=
  l.dispatchClear stream ""

end MemoryLayers

/-! ## What a room has -/

/-- What the memory keeps of a room: a record, an input that is to be dealt with, or the document
of a lesson. -/
inductive RoomDatum where
  | record (record : MemoryRecord)
  | pending (key : PendingInputKey) (entries : List PendingInputEntry)
  | document (id : String) (doc : Doc)

def SensoryStore.dataOf (s : SensoryStore) (roomId : String) : List RoomDatum :=
  ((s.rawInputs.get? roomId).toList.map fun input => .record (.raw input)) ++
    ((s.fragments.getD roomId []).map fun block => .record (.fragment roomId block)) ++
    ((s.pendingInput.entries.filter (·.1.roomId = roomId)).map fun e => .pending e.1 e.2)

/-- The rows of a room, and their documents. -/
def SemanticStore.dataOf (o : JsonText) (s : SemanticStore) (roomId : String) : List RoomDatum :=
  let rows := (s.entries o).filter (·.textAt "room_id" = roomId)
  (rows.map fun row => .record (.lesson row)) ++ rows.filterMap fun row => do
    let id ← entryId row
    let doc ← s.vector.get? id
    return .document id doc

namespace MemoryLayers

def dataOf (o : JsonText) (l : MemoryLayers) : Stream → String → List RoomDatum
  | .sensory, roomId => l.sensory.store.dataOf roomId
  | .shortTerm, roomId =>
    (l.shortTerm.store.turns.filter (·.roomId = roomId)).map fun t => .record (.turn t)
  | .episodic, roomId =>
    ((l.episodic.elim [] fun store => (store.loadAll o).1).filter
      (·.textAt "room_id" = roomId)).map fun row => .record (.episode row)
  | .semantic, roomId => l.semantic.elim [] fun store => store.dataOf o roomId

/-- Other rooms have what they had, and the room has nothing left in the chosen streams. -/
structure RoomCleared (o : JsonText) (l : MemoryLayers) (stream : Option Stream) (roomId : String)
    (after : MemoryLayers) : Prop where
  others : ∀ s room, room ≠ roomId → after.dataOf o s room = l.dataOf o s room
  removed : ∀ s, Chosen stream s → after.dataOf o s roomId = []

/-! ## What is cleared -/

/-- A clear empties the chosen streams, whatever the room. -/
theorem dataOf_clear (o : JsonText) (l : MemoryLayers) (stream : Option Stream)
    (roomId : String) (s : Stream) (room : String) :
    (l.clear stream roomId).dataOf o s room =
      if Chosen stream s then [] else l.dataOf o s room := by
  cases s with
  | sensory =>
    by_cases h : Chosen stream .sensory
    · simp only [dataOf, clear, dispatchClear, h, if_true]
      rfl
    · simp only [dataOf, clear, dispatchClear, h, if_false]
  | shortTerm =>
    by_cases h : Chosen stream .shortTerm
    · simp only [dataOf, clear, dispatchClear, h, if_true]
      rfl
    · simp only [dataOf, clear, dispatchClear, h, if_false]
  | episodic =>
    by_cases h : Chosen stream .episodic
    · simp only [dataOf, clear, dispatchClear, h, if_true]
      cases l.episodic <;> rfl
    · simp only [dataOf, clear, dispatchClear, h, if_false]
  | semantic =>
    by_cases h : Chosen stream .semantic
    · simp only [dataOf, clear, dispatchClear, h, if_true]
      cases l.semantic <;> rfl
    · simp only [dataOf, clear, dispatchClear, h, if_false]

/-- For every memory, every choice of streams and every room: a clear is one of the room exactly
when no other room has anything in the chosen streams. -/
theorem roomCleared_clear_iff (o : JsonText) (l : MemoryLayers) (stream : Option Stream)
    (roomId : String) : RoomCleared o l stream roomId (l.clear stream roomId) ↔
      ∀ s, Chosen stream s → ∀ room, room ≠ roomId → l.dataOf o s room = [] := by
  constructor
  · intro h s hs room hroom
    have hsame := h.others s room hroom
    rw [dataOf_clear, if_pos hs] at hsame
    exact hsame.symm
  · intro h
    refine ⟨fun s room hroom => ?_, fun s hs => ?_⟩
    · rw [dataOf_clear]
      split
      · next hs => exact (h s hs room hroom).symm
      · rfl
    · rw [dataOf_clear, if_pos hs]

/-- A room is cleared, and what was said in another one is gone. -/
theorem other_room_cleared :
    ¬ ∀ (o : JsonText) (l : MemoryLayers) (stream : Option Stream) (roomId : String),
      roomId ≠ "" → RoomCleared o l stream roomId (l.clear stream roomId) := by
  intro h
  let m := ({} : ShortTermMemoryManager).addTurn ⟨fun _ => 0, fun _ => []⟩ "user"
    [textBlock "hi"] "a" "q"
  have hothers := (h (.ofTable plainWriter []) { shortTerm := m } (some .shortTerm) "r"
    (by decide)).others .shortTerm "q" (by decide)
  have hlength := congrArg List.length hothers
  exact absurd hlength (by decide)

end MemoryLayers

/-! ## The sensory layer can do with one room -/

theorem SensoryStore.dataOf_clear (s : SensoryStore) (roomId room : String) :
    (s.clear roomId).dataOf room = if room = roomId then [] else s.dataOf room := by
  have hpending : (s.clear roomId).pendingInput.entries =
      s.pendingInput.entries.filter (·.1.roomId ≠ roomId) := by
    rw [SensoryStore.clear, Dict.entries_eraseAll]
    refine List.filter_congr fun e he => ?_
    have hmem : e.1 ∈ s.pendingInput.entries.map Prod.fst := List.mem_map_of_mem he
    simp [hmem]
  simp only [dataOf, hpending, List.filter_filter]
  simp only [SensoryStore.clear, Dict.getD, Dict.get?_erase, eq_comm (a := roomId)]
  by_cases h : room = roomId
  · subst h
    simp
  · have hkept : ∀ e : PendingInputKey × List PendingInputEntry,
        (decide (e.1.roomId = room) && !decide (e.1.roomId = roomId)) =
          decide (e.1.roomId = room) :=
      fun e => by
        by_cases he : e.1.roomId = room
        · simp [he, h]
        · simp [he]
    simp [h, hkept]

/-- A clear of one room takes its inputs and fragments, and leaves those of the other rooms. -/
theorem SensoryMemoryAssembler.dataOf_clear (s : SensoryMemoryAssembler) (roomId room : String) :
    (s.clear (some roomId)).store.dataOf room =
      if room = roomId then [] else s.store.dataOf room := by
  have hstore : (s.clear (some roomId)).store = s.store.clear roomId := by
    rw [SensoryMemoryAssembler.clear, (s.cancelTimer_frame roomId).1]
  rw [hstore, SensoryStore.dataOf_clear]

end IrisMind.Memory
