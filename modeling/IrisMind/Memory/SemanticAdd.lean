import IrisMind.Memory.Semantic

/-! # What an addition to the semantic store returns

An entry is looked up by its content alone, whatever its account, and a duplicate
is answered with the last entry of the store. So what comes back is what was
given only if the last entry happens to be it; and another account with the same
lesson gets nothing stored. -/
namespace IrisMind.Memory
open IrisMind.Lib

structure SemanticEntry where
  content : String
  id : String
  type : String
  tags : List String
  timestamp : String
  roomId : String
  accountId : String
  metadata : List (String × Json)

namespace SemanticEntry

/-- A field that is a text; without a default it has to be there. -/
def textField (key : String) (default : Option String) (fields : List (String × Json)) :
    Option String :=
  match Dict.lookup key fields with
  | none => default
  | some (.str s) => some s
  | some _ => none

def text? : Json → Option String
  | .str s => some s
  | _ => none

def tagsField (fields : List (String × Json)) : Option (List String) :=
  match Dict.lookup "tags" fields with
  | none => some []
  | some (.arr items) => items.mapM text?
  | some _ => none

def metadataField (fields : List (String × Json)) : Option (List (String × Json)) :=
  match Dict.lookup "metadata" fields with
  | none => some []
  | some (.obj metadata) => some metadata
  | some _ => none

def ofFields (fields : List (String × Json)) : Option SemanticEntry := do
  let content ← textField "content" none fields
  let id ← textField "id" (some "") fields
  let type ← textField "type" (some "lesson") fields
  let tags ← tagsField fields
  let timestamp ← textField "timestamp" (some "") fields
  let roomId ← textField "room_id" (some "") fields
  let accountId ← textField "account_id" (some "") fields
  let metadata ← metadataField fields
  return { content, id, type, tags, timestamp, roomId, accountId, metadata }

/-- `model_validate`; a value of another kind than its field raises. -/
def modelValidate : Json → Option SemanticEntry
  | .obj fields => ofFields fields
  | _ => none

/-- What an entry has of its own besides its content is of the kinds of the model. -/
def wellFormed (fields : List (String × Json)) : Bool :=
  (textField "type" (some "lesson") fields).isSome && (tagsField fields).isSome &&
    (textField "timestamp" (some "") fields).isSome && (metadataField fields).isSome

end SemanticEntry

namespace SemanticStore

variable (o : JsonText) (lib : VectorStore.Library) (maxEntries : Nat)

/-- An entry with the content, under the account. -/
def Holds (content accountId : String) (e : Json) : Prop :=
  ∃ fields, e = .obj fields ∧ Dict.lookup "content" fields = some (.str content) ∧
    Fields.getText "account_id" "" fields = accountId

/-- The library reads the entry as it is written. -/
def Reads (s : SemanticStore) : Call → Prop
  | .add fields roomId accountId =>
    let e := .obj (completed (lessonId ((s.entries o).length + 1)) roomId accountId fields)
    o.loads (o.dumps e) = some e
  | _ => True

variable {o lib maxEntries}

/-! ## What an addition returns -/

section Entries

variable {s : SemanticStore} {fields : List (String × Json)} {roomId accountId : String}

/-- Nothing is written for a duplicate, nor where the search for one raises. -/
theorem entries_add_of_ne_new
    (h : isDuplicate (Fields.getText "content" "" fields) (s.entries o) ≠ some false) :
    (s.add o lib maxEntries fields roomId accountId).entries o = s.entries o := by
  have hload : (s.jsonl.loadAll o).1 = s.entries o := rfl
  unfold add
  dsimp only
  rw [hload]
  split
  · exact entries_loadAll s.jsonl s.vector s.syncedCount
  · exact entries_loadAll s.jsonl s.vector s.syncedCount
  · next hnew => exact absurd hnew h

theorem entries_add_of_new
    (h : isDuplicate (Fields.getText "content" "" fields) (s.entries o) = some false) :
    (s.add o lib maxEntries fields roomId accountId).entries o =
      (JsonlStore.lastEntries maxEntries (s.entries o ++
        [.obj (completed (lessonId ((s.entries o).length + 1)) roomId accountId fields)])).flatMap
          (pieces o) := by
  have hload : (s.jsonl.loadAll o).1 = s.entries o := rfl
  unfold add
  dsimp only
  rw [hload, h]
  -- the file is written, whatever the collection makes of the entry
  simp only [JsonlStore.flush, Option.map_some]
  split <;> exact load_joinRecords _

/-- Every entry can be written and is read again, on one line. -/
def Whole (o : JsonText) (s : SemanticStore) : Prop :=
  ∀ e ∈ s.entries o, e.Unbroken ∧ o.loads (o.dumps e) = some e

theorem Whole.step (h : Whole o s) {c : Call} (hc : Reads o s c) :
    Whole o (step o lib maxEntries s c) := by
  cases c with
  | add fields roomId accountId =>
    intro e he
    change e ∈ (s.add o lib maxEntries fields roomId accountId).entries o at he
    by_cases hnew : isDuplicate (Fields.getText "content" "" fields) (s.entries o) = some false
    · rw [entries_add_of_new hnew] at he
      refine unbroken_of_mem_flatMap (fun r hr => ?_) he
      rcases List.mem_append.mp (mem_lastEntries hr) with hr | hr
      · exact (h r hr).2
      · rw [List.mem_singleton.mp hr]
        exact hc
    · rw [entries_add_of_ne_new hnew] at he
      exact h e he
  | sync =>
    have hentries : (s.sync o lib).entries o = s.entries o := by
      unfold SemanticStore.sync
      dsimp only
      split
      · exact entries_loadAll _ _ _
      · exact entries_loadAll _ _ _
    intro e he
    exact h e (hentries ▸ he)
  | clear => exact fun e he => absurd he List.not_mem_nil

end Entries

/-! ## When an addition gives what it was given -/

section Returned

variable {s : SemanticStore} {fields : List (String × Json)} {content roomId accountId : String}

end Returned

end SemanticStore

end IrisMind.Memory
