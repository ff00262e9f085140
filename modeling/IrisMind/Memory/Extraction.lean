import IrisMind.Memory.Promotion

/-! # Extraction

A job is run on records of conversations: a model is asked once, and every item
of its answer becomes a candidate. An exception of the model ends the run as if
there had been nothing to extract; any other one is passed on. -/
namespace IrisMind.Memory
open IrisMind.Lib

/-- A record of the archive. -/
abbrev Record := List (String × Json)

/-- An item of an answer; what is neither a dictionary nor a model has no fields. -/
inductive Item where
  | dict (fields : List (String × Json))
  | model (fields : List (String × Json))
  | other (error : String)

def Item.payload : Item → Except String (List (String × Json))
  | dict fields => .ok fields
  | model fields => .ok fields
  | other error => .error error

/-- An answer of the model. -/
inductive Extracted where
  | none
  /-- An object with items, or with none. -/
  | items (items : List Item)
  /-- A dictionary: its `items` is a method, and no list. -/
  | mapping
  | list (items : List Item)
  | other

/-- `_extract_items` -/
def extractItems : Extracted → Except String (List Item)
  | .none => .ok []
  | .items items => .ok items
  | .mapping => .error "'builtin_function_or_method' object is not iterable"
  | .list items => .ok items
  | .other => .ok []

/-- What extraction relies on: the hash of a candidate, unless its payload cannot be written. -/
structure Hashing where
  computeCandidateHash : TargetStore → List (String × Json) → String → String →
    Except String String

structure LangMemExtractor where
  /-- The passes with an extractor. -/
  available : PassType → Bool := fun _ => true
  allowDuplicates : Bool := false

/-- What a run leaves: the exception it passes on, the one it has swallowed, and the candidates,
which are in the store unless they stand there already. -/
structure Extraction where
  raised : Option String := none
  swallowed : Option String := none
  candidates : List MemoryCandidate := []
  store : List MemoryCandidate

namespace LangMemExtractor

variable (v : Conversion) (h : Hashing) (ex : LangMemExtractor)

/-- Whether `_records_to_messages` has a message. -/
def hasMessages (records : List Record) : Bool :=
  records.any fun r => v.strAt "content" "" r ≠ ""

/-- The candidate that is built of an item, under the scope that a resolver gives or that of the
job. -/
def candidateOf (job : MemoryExtractionJob)
    (resolver : PassType → List (String × Json) → String × String) (id : String) (it : Item) :
    Except String MemoryCandidate := do
  let payload ← it.payload
  let confidence ← v.floatAt "confidence" payload
  let scope := resolver job.passType payload
  let accountId := if scope.1 = "" then job.accountId else scope.1
  let roomId := if scope.2 = "" then job.roomId else scope.2
  let payloadHash ← h.computeCandidateHash job.passType payload accountId roomId
  return { id, sourceRecordIds := job.sourceRecordIds, jobId := job.id
           targetStore := job.passType, payload, confidence, payloadHash
           scopeAccountId := accountId, scopeRoomId := roomId }

/-- The loop over the items. -/
def addItems (job : MemoryExtractionJob)
    (resolver : PassType → List (String × Json) → String × String) :
    List (Item × String) → List MemoryCandidate → Extraction
  | [], store => { store }
  | (it, id) :: rest, store =>
    match candidateOf v h job resolver id it with
    | .error e => { raised := some e, store }
    | .ok c =>
      let run := addItems job resolver rest (MemoryCandidateStore.add ex.allowDuplicates store c)
      { run with candidates := c :: run.candidates }

def run (job : MemoryExtractionJob) (records : List Record)
    (resolver : PassType → List (String × Json) → String × String)
    (invoked : Except String Extracted) (newId : Nat → String) (store : List MemoryCandidate) :
    Extraction :=
  if !ex.available job.passType || !hasMessages v records then { store }
  else
    match invoked with
    | .error e => { swallowed := some e, store }
    | .ok answer =>
      match extractItems answer with
      | .error e => { raised := some e, store }
      | .ok items =>
        addItems v h ex job resolver (items.zipIdx.map fun i => (i.1, newId i.2)) store

/-! ## The candidates of a run -/

section Candidates

variable {v : Conversion} {h : Hashing} {ex : LangMemExtractor} {job : MemoryExtractionJob}
  {resolver : PassType → List (String × Json) → String × String}

theorem candidateOf_ok {id : String} {it : Item} {c : MemoryCandidate}
    (hc : candidateOf v h job resolver id it = .ok c) :
    c.id = id ∧ c.status = .pending ∧ c.sourceRecordIds = job.sourceRecordIds ∧
      c.targetStore = job.passType ∧ it.payload = .ok c.payload ∧
      v.floatAt "confidence" c.payload = .ok c.confidence := by
  obtain ⟨payload, hpayload, hc⟩ := bind_ok hc
  obtain ⟨confidence, hconfidence, hc⟩ := bind_ok hc
  obtain ⟨payloadHash, _, hc⟩ := bind_ok hc
  cases hc
  exact ⟨rfl, rfl, rfl, rfl, hpayload, hconfidence⟩

/-- The candidates of a run carry the ids they were given, in order, and the sources of the job;
they wait for a decision. -/
theorem addItems_candidates {items : List (Item × String)} {store : List MemoryCandidate} :
    let run := addItems v h ex job resolver items store
    run.candidates.map (·.id) <+: items.map Prod.snd ∧
      ∀ c ∈ run.candidates, c.status = .pending ∧ c.sourceRecordIds = job.sourceRecordIds := by
  induction items generalizing store with
  | nil => exact ⟨List.prefix_rfl, fun c hc => absurd hc List.not_mem_nil⟩
  | cons item rest ih =>
    obtain ⟨it, id⟩ := item
    dsimp only
    unfold addItems
    split
    · exact ⟨List.nil_prefix, fun c hc => absurd hc List.not_mem_nil⟩
    · next c hc =>
      obtain ⟨hid, hstatus, hsources, _⟩ := candidateOf_ok hc
      obtain ⟨hids, hall⟩ := @ih (MemoryCandidateStore.add ex.allowDuplicates store c)
      refine ⟨?_, fun c' hc' => ?_⟩
      · rw [List.map_cons, List.map_cons, hid]
        exact List.cons_prefix_cons.mpr ⟨rfl, hids⟩
      · rcases List.mem_cons.mp hc' with rfl | hc'
        · exact ⟨hstatus, hsources⟩
        · exact hall c' hc'

theorem run_candidates {records : List Record} {invoked : Except String Extracted}
    {newId : Nat → String} {store : List MemoryCandidate} :
    let extraction := run v h ex job records resolver invoked newId store
    (∃ n, extraction.candidates.map (·.id) <+: (List.range n).map newId) ∧
      ∀ c ∈ extraction.candidates, c.status = .pending ∧
        c.sourceRecordIds = job.sourceRecordIds := by
  dsimp only
  unfold run
  split
  · exact ⟨⟨0, List.prefix_rfl⟩, fun c hc => absurd hc List.not_mem_nil⟩
  · split
    · exact ⟨⟨0, List.prefix_rfl⟩, fun c hc => absurd hc List.not_mem_nil⟩
    · split
      · exact ⟨⟨0, List.prefix_rfl⟩, fun c hc => absurd hc List.not_mem_nil⟩
      · next items _ =>
        obtain ⟨hids, hall⟩ := @addItems_candidates v h ex job resolver
          (items.zipIdx.map fun i => (i.1, newId i.2)) store
        refine ⟨⟨items.length, ?_⟩, hall⟩
        have hnumbers : items.zipIdx.map Prod.snd = List.range items.length := by
          rw [List.zipIdx_map_snd, List.range_eq_range']
        rw [List.map_map] at hids
        rw [← hnumbers, List.map_map]
        exact hids

end Candidates

/-! ## What stands in the store -/

section Stored

/-- An item that the store does not take. -/
def Skipped (ex : LangMemExtractor) (store : List MemoryCandidate) (c : MemoryCandidate) : Prop :=
  ex.allowDuplicates = false ∧ MemoryCandidateStore.hasPendingDuplicate store c = true

variable {v : Conversion} {h : Hashing} {ex : LangMemExtractor} {job : MemoryExtractionJob}
  {resolver : PassType → List (String × Json) → String × String}

theorem add_skipped {store : List MemoryCandidate} {c : MemoryCandidate}
    (hc : ex.Skipped store c) : MemoryCandidateStore.add ex.allowDuplicates store c = store := by
  rw [MemoryCandidateStore.add, hc.1, hc.2]
  rfl

theorem add_taken {store : List MemoryCandidate} {c : MemoryCandidate}
    (hc : ¬ ex.Skipped store c) :
    MemoryCandidateStore.add ex.allowDuplicates store c = store ++ [c] := by
  refine if_neg fun hskip => hc ?_
  rw [Bool.and_eq_true, Bool.not_eq_true'] at hskip
  exact hskip

theorem subset_addItems {items : List (Item × String)} {store : List MemoryCandidate} :
    store ⊆ (addItems v h ex job resolver items store).store := by
  induction items generalizing store with
  | nil => exact List.Subset.refl store
  | cons item rest ih =>
    unfold addItems
    split
    · exact List.Subset.refl store
    · next c _ =>
      refine List.Subset.trans ?_ ih
      by_cases hskip : ex.Skipped store c
      · rw [add_skipped hskip]
        exact List.Subset.refl store
      · rw [add_taken hskip]
        exact List.subset_append_left store [c]

/-- The store is left as it is when it takes none of the candidates; otherwise it has one of
them. -/
def LeavesStore (ex : LangMemExtractor) (store : List MemoryCandidate) (run : Extraction) : Prop :=
  (∀ c ∈ run.candidates, ex.Skipped store c) ∧ run.store = store ∨
    (∃ c ∈ run.candidates, ¬ ex.Skipped store c) ∧ ∃ c ∈ run.candidates, c ∈ run.store

theorem leavesStore_none {raised swallowed : Option String} {store : List MemoryCandidate} :
    LeavesStore ex store { raised, swallowed, store } :=
  .inl ⟨fun _ hc => absurd hc List.not_mem_nil, rfl⟩

theorem addItems_store {items : List (Item × String)} {store : List MemoryCandidate} :
    LeavesStore ex store (addItems v h ex job resolver items store) := by
  induction items generalizing store with
  | nil => exact leavesStore_none
  | cons item rest ih =>
    unfold addItems
    split
    · exact leavesStore_none
    · next c _ =>
      by_cases hskip : ex.Skipped store c
      · rw [add_skipped hskip]
        rcases @ih store with ⟨hall, hstore⟩ | ⟨⟨c', hmem, hno⟩, c'', hmem', hin⟩
        · exact .inl ⟨List.forall_mem_cons.mpr ⟨hskip, hall⟩, hstore⟩
        · exact .inr ⟨⟨c', List.mem_cons_of_mem _ hmem, hno⟩,
            ⟨c'', List.mem_cons_of_mem _ hmem', hin⟩⟩
      · refine .inr ⟨⟨c, List.mem_cons_self, hskip⟩, ⟨c, List.mem_cons_self, ?_⟩⟩
        rw [add_taken hskip]
        exact subset_addItems (List.mem_append_right _ (List.mem_singleton_self c))

theorem run_store {records : List Record} {invoked : Except String Extracted}
    {newId : Nat → String} {store : List MemoryCandidate} :
    LeavesStore ex store (run v h ex job records resolver invoked newId store) := by
  unfold run
  split
  · exact leavesStore_none
  · split
    · exact leavesStore_none
    · split
      · exact leavesStore_none
      · exact addItems_store

end Stored

end LangMemExtractor

end IrisMind.Memory
