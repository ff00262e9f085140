import IrisMind.Lib.Text

/-! # Candidates and the jobs they come from

A job extracts memories from records of conversations, as candidates for one of
the stores. What it extracts and where it goes have the same names. -/
namespace IrisMind.Memory
open IrisMind.Lib

inductive TargetStore where
  | semantic | episodic | relationship | appraisal | style | personaPatch
deriving DecidableEq

abbrev PassType := TargetStore

def TargetStore.text : TargetStore → String
  | semantic => "semantic"
  | episodic => "episodic"
  | relationship => "relationship"
  | appraisal => "appraisal"
  | style => "style"
  | personaPatch => "persona_patch"

inductive JobStatus where
  | pending | running | succeeded | failed | skipped
deriving DecidableEq

structure MemoryExtractionJob where
  id : String
  status : JobStatus := .pending
  sourceRecordIds : List String
  passType : PassType
  error : String := ""
  accountId : String := ""
  roomId : String := ""

inductive CandidateStatus where
  | pending | promoted | rejected | needsReview
deriving DecidableEq

structure MemoryCandidate where
  id : String
  sourceRecordIds : List String
  jobId : String := ""
  targetStore : TargetStore
  payload : List (String × Json)
  confidence : Rat
  status : CandidateStatus := .pending
  rejectionReason : String := ""
  payloadHash : String
  scopeAccountId : String := ""
  scopeRoomId : String := ""

namespace MemoryCandidateStore

/-- Whether one of the candidates stands for an item that is the same. -/
def hasPendingDuplicate (store : List MemoryCandidate) (item : MemoryCandidate) : Bool :=
  item.payloadHash != "" && store.any fun existing =>
    existing.targetStore = item.targetStore && existing.scopeAccountId = item.scopeAccountId &&
      existing.scopeRoomId = item.scopeRoomId && existing.payloadHash = item.payloadHash &&
      existing.status ≠ .rejected

def add (allowDuplicates : Bool) (store : List MemoryCandidate) (item : MemoryCandidate) :
    List MemoryCandidate :=
  if !allowDuplicates && hasPendingDuplicate store item then store else store ++ [item]

end MemoryCandidateStore

end IrisMind.Memory
