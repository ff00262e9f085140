import IrisMind.Lib.Dict
import IrisMind.Memory.Blocks

/-! # The store of the sensory memory

What has come in is kept until it is dealt with: the last input of each room,
the fragments of an input that is not complete, and once more the last text of
each account in each room. -/
namespace IrisMind.Memory
open IrisMind.Lib

/-- `input` numbers what has come in; nothing reads it, and both copies of an input have it. -/
structure RawInput where
  input : Nat
  block : ContentBlock
  roomId : String := ""
  accountId : String := ""
  sessionId : String := ""
deriving DecidableEq

structure PendingInputKey where
  accountId : String
  roomId : String
deriving DecidableEq

structure PendingInputEntry where
  input : Nat
  content : String
  accountId : String
  roomId : String
deriving DecidableEq

structure SensorySnapshot where
  roomId : String
  fragments : List ContentBlock
  raw : Option RawInput

structure SensoryStore where
  rawInputs : Dict String RawInput := .empty
  fragments : Dict String (List ContentBlock) := .empty
  pendingInput : Dict PendingInputKey (List PendingInputEntry) := .empty

namespace SensoryStore

variable (s : SensoryStore)

def storeRawBlock (input : Nat) (block : ContentBlock) (roomId accountId sessionId : String) :
    SensoryStore :=
  { s with rawInputs := s.rawInputs.set roomId { input, block, roomId, accountId, sessionId } }

def takeRaw (roomId : String) : Option RawInput × SensoryStore :=
  (s.rawInputs.get? roomId, { s with rawInputs := s.rawInputs.erase roomId })

def retrieve (roomId : String) : SensorySnapshot where
  roomId
  fragments := s.fragments.getD roomId []
  raw := s.rawInputs.get? roomId

def addFragment (block : ContentBlock) (roomId : String) : SensoryStore :=
  { s with fragments := s.fragments.set roomId (s.fragments.getD roomId [] ++ [block]) }

def takeFragments (roomId : String) : List ContentBlock × SensoryStore :=
  (s.fragments.getD roomId [], { s with fragments := s.fragments.erase roomId })

/-- `clear` of one room. -/
def clear (roomId : String) : SensoryStore where
  rawInputs := s.rawInputs.erase roomId
  fragments := s.fragments.erase roomId
  pendingInput := s.pendingInput.eraseAll
    ((s.pendingInput.entries.map Prod.fst).filter (·.roomId = roomId))

def addPendingInput (input : Nat) (accountId roomId content : String) : SensoryStore :=
  { s with pendingInput :=
      s.pendingInput.set { accountId, roomId } [{ input, content, accountId, roomId }] }

def takePendingInput : Dict PendingInputKey (List PendingInputEntry) × SensoryStore :=
  (s.pendingInput, { s with pendingInput := .empty })

def clearPendingInput : SensoryStore := { s with pendingInput := .empty }

/-- The rooms with an input or a fragment. -/
def getActiveRoomIds : List String :=
  s.rawInputs.entries.map Prod.fst ++
    (s.fragments.entries.map Prod.fst).filter (!s.rawInputs.contains ·)

/-! ## The fragments of a room -/

theorem fragments_addFragment (block : ContentBlock) (roomId room : String) :
    (s.addFragment block roomId).fragments.getD room [] =
      s.fragments.getD room [] ++ if room = roomId then [block] else [] := by
  rw [addFragment, Dict.getD, Dict.get?_set]
  by_cases h : room = roomId
  · subst h
    simp
  · rw [if_neg (Ne.symm h), if_neg h, List.append_nil, Dict.getD]

theorem fragments_takeFragments (roomId room : String) :
    (s.takeFragments roomId).2.fragments.getD room [] =
      if room = roomId then [] else s.fragments.getD room [] := by
  rw [takeFragments, Dict.getD, Dict.get?_erase]
  by_cases h : room = roomId
  · subst h
    simp
  · simp [h, Ne.symm h, Dict.getD]

end SensoryStore

end IrisMind.Memory
