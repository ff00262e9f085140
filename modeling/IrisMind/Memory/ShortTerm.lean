import Mathlib.Data.List.DropRight
import IrisMind.Memory.Blocks
import IrisMind.Memory.Presence

/-! # The short term memory

The turns of all rooms are in one list, the oldest first, and the topics and the
references of all of them in one list and one set. A scope picks turns by room
and by account; an empty one picks all. -/
namespace IrisMind.Memory
open IrisMind.Lib

def maxTurnLength : Nat := 500

structure ShortTermTurn where
  role : String
  blocks : List ContentBlock
  consolidated : Bool := false
  importance : Int
  accountId : String := ""
  roomId : String := ""
deriving DecidableEq

def ShortTermTurn.text (t : ShortTermTurn) : String := blocksText t.blocks

/-- A turn as it is stored. `turn` numbers what was said, and `references` is what was found in
it; nothing reads them. -/
structure StoredTurn extends ShortTermTurn where
  turn : Nat
  references : List String
deriving DecidableEq

structure ShortTermScope where
  roomId : String := ""
  accountId : String := ""
deriving DecidableEq

namespace ShortTermScope

variable (scope : ShortTermScope)

def admitsRoom (roomId : String) : Bool := scope.roomId = "" ∨ roomId = scope.roomId

def admitsAccount (accountId : String) : Bool := scope.accountId = "" ∨ accountId = scope.accountId

/-- The turn is one of the scope. -/
def admits (t : StoredTurn) : Bool := scope.admitsAccount t.accountId && scope.admitsRoom t.roomId

end ShortTermScope

/-- A topic, and the turn that brought it in; only the text is read. -/
structure Topic where
  text : String
  turn : StoredTurn
deriving DecidableEq

/-- `_truncate_blocks`, when `total` code points are taken. -/
def truncateBlocks (maxChars : Nat) : Nat → List ContentBlock → List ContentBlock
  | _, [] => []
  | total, b :: rest =>
    let txt := b.textOrEmpty
    if maxChars ≤ total then []
    else if txt.length ≤ maxChars - total then
      b :: truncateBlocks maxChars (total + txt.length) rest
    else
      { type := some (b.type.getD "text"), text := some (Text.takeChars txt (maxChars - total)) } ::
        truncateBlocks maxChars maxChars rest

/-- The turns, topics and references; `added` counts the turns there were. -/
structure ShortTermStore where
  turns : List StoredTurn := []
  currentTopics : List Topic := []
  activeReferences : List String := []
  maxTurns : Nat := 30
  maxTopics : Nat := 5
  added : Nat := 0

namespace ShortTermStore

variable (s : ShortTermStore)

def appendTurn (entry : StoredTurn) : ShortTermStore :=
  let turns := s.turns ++ [entry]
  { s with turns := if s.maxTurns < turns.length then turns.drop 1 else turns
           added := s.added + 1 }

/-- `_scope` -/
def scopeTurns (scope : ShortTermScope) : List StoredTurn :=
  let turns := if scope.accountId = "" then s.turns
    else s.turns.filter (·.accountId = scope.accountId)
  if scope.roomId = "" then turns else turns.filter (·.roomId = scope.roomId)

def getUnconsolidatedTurns (scope : ShortTermScope) : List StoredTurn :=
  (s.scopeTurns scope).filter (!·.consolidated)

/-- The turns of the scope are marked where they stand in the list of all. -/
def markConsolidated (scope : ShortTermScope) : ShortTermStore :=
  { s with turns := s.turns.map fun t =>
      if scope.admits t then { t with consolidated := true } else t }

/-- A bound of zero is none: `[-0:]` is the whole list. -/
def addTopic (topic : Topic) : ShortTermStore :=
  let topics := if s.currentTopics.any (·.text = topic.text) then s.currentTopics
    else s.currentTopics ++ [topic]
  { s with currentTopics := if s.maxTopics < topics.length ∧ s.maxTopics ≠ 0
      then topics.rtake s.maxTopics else topics }

def addReference (ref : String) : ShortTermStore :=
  { s with activeReferences :=
      if ref ∈ s.activeReferences then s.activeReferences else s.activeReferences ++ [ref] }

theorem scopeTurns_eq (scope : ShortTermScope) :
    s.scopeTurns scope = s.turns.filter scope.admits := by
  have hadmits : scope.admits = fun t =>
      scope.admitsAccount t.accountId && scope.admitsRoom t.roomId := rfl
  unfold scopeTurns
  by_cases ha : scope.accountId = "" <;> by_cases hr : scope.roomId = "" <;>
    simp [hadmits, ShortTermScope.admitsAccount, ShortTermScope.admitsRoom, ha, hr,
      List.filter_filter, Bool.and_comm]

theorem addReferences_frame (refs : List String) :
    (refs.foldl addReference s).turns = s.turns ∧ (refs.foldl addReference s).added = s.added := by
  induction refs generalizing s with
  | nil => exact ⟨rfl, rfl⟩
  | cons ref rest ih => exact ih (s.addReference ref)

theorem addTopics_frame (entry : StoredTurn) (topics : List String) :
    let t := topics.foldl (fun s topic => s.addTopic ⟨topic, entry⟩) s
    t.turns = s.turns ∧ t.added = s.added := by
  induction topics generalizing s with
  | nil => exact ⟨rfl, rfl⟩
  | cons topic rest ih => exact ih (s.addTopic ⟨topic, entry⟩)

theorem appendTurn_sublist (entry : StoredTurn) :
    (s.appendTurn entry).turns.Sublist (s.turns ++ [entry]) := by
  unfold appendTurn
  dsimp only
  split
  · exact List.drop_sublist _ _
  · exact List.Sublist.refl _

end ShortTermStore

structure ShortTermMemoryManager where
  store : ShortTermStore := {}
  presence : PresenceTracker := {}

/-- The scorer and the extractor the memory was given. -/
structure TurnReader where
  score : String → Int
  extract : String → List String

namespace ShortTermMemoryManager

variable (m : ShortTermMemoryManager)

/-- Where `extract_topics` splits. -/
def endsSentence (c : Char) : Bool := c ∈ ['。', '！', '？', '.', '!', '?']

/-- The topics `extract_topics` finds in a text. -/
def topicsIn (content : String) : List String :=
  (((content.toList.splitOnP endsSentence).take 2).map fun sentence =>
    Text.strip (String.ofList sentence)).filter fun sentence =>
      5 < sentence.length ∧ sentence.length < 80

/-- The turn a text is stored as. -/
def entry (reader : TurnReader) (role : String) (blocks : List ContentBlock)
    (accountId roomId : String) : StoredTurn where
  turn := m.store.added
  references := reader.extract (blocksText blocks)
  role
  blocks := truncateBlocks maxTurnLength 0 blocks
  importance := reader.score (blocksText blocks)
  accountId
  roomId

def addTurn (reader : TurnReader) (role : String) (blocks : List ContentBlock)
    (accountId roomId : String) : ShortTermMemoryManager :=
  if blocks = [] then m
  else
    let text := blocksText blocks
    let entry := m.entry reader role blocks accountId roomId
    let store := (reader.extract text).foldl ShortTermStore.addReference (m.store.appendTurn entry)
    { m with store := (topicsIn text).foldl (fun s topic => s.addTopic ⟨topic, entry⟩) store }

/-- A turn that is added is the last one, under the next number; the oldest may go. -/
theorem addTurn_turns (reader : TurnReader) (role : String) (blocks : List ContentBlock)
    (accountId roomId : String) :
    let t := m.addTurn reader role blocks accountId roomId
    t = m ∨ t.store.turns.Sublist (m.store.turns ++ [m.entry reader role blocks accountId roomId]) ∧
      t.store.added = m.store.added + 1 := by
  dsimp only
  unfold addTurn
  split
  · exact .inl rfl
  · refine .inr ?_
    dsimp only
    rw [(ShortTermStore.addTopics_frame _ _ _).1, (ShortTermStore.addTopics_frame _ _ _).2,
      (ShortTermStore.addReferences_frame _ _).1, (ShortTermStore.addReferences_frame _ _).2]
    exact ⟨ShortTermStore.appendTurn_sublist _ _, rfl⟩

end ShortTermMemoryManager

end IrisMind.Memory
