import IrisMind.Memory.VectorSearch
import IrisMind.Lib.Conversion

/-! # Long-term memory

The manager takes what it is given in many shapes, stores it in the semantic
store under a room and an account, and narrows what a search finds to a room.
The room of an entry is kept in the file, but neither in the collection nor in
the rows of a search. -/
namespace IrisMind.Memory
open IrisMind.Lib

structure SemanticInput where
  content : String
  type : String := "lesson"
  tags : List String := []
  roomId : String := ""
  accountId : String := ""

/-- What `store_semantic` is given. -/
inductive SemanticData where
  | input (payload : SemanticInput)
  | value (data : Json)

def coerceSemanticInput (v : Conversion) : SemanticData → SemanticInput
  | .input payload => payload
  | .value (.obj fields) =>
    { content := v.strAt "content" "" fields
      type := v.strAt "type" "lesson" fields
      tags := match Dict.lookup "tags" fields with
        | some (.arr tags) => tags.map v.str
        | _ => []
      roomId := v.strAt "room_id" "" fields
      accountId := v.strAt "account_id" "" fields }
  | .value data => { content := v.str data }

namespace SemanticInput

/-- The scope of the call stands in for a scope that the input does not have. -/
def withScope (payload : SemanticInput) (roomId accountId : String) : SemanticInput :=
  { payload with
    roomId := if payload.roomId = "" then roomId else payload.roomId
    accountId := if payload.accountId = "" then accountId else payload.accountId }

def modelDump (payload : SemanticInput) : List (String × Json) :=
  [("content", .str payload.content), ("type", .str payload.type),
    ("tags", .arr (payload.tags.map .str)), ("room_id", .str payload.roomId),
    ("account_id", .str payload.accountId)]

end SemanticInput

/-- What `store_episodic` is given; the metadata is an object, if it is there. -/
structure EpisodicInput where
  content : String
  kind : String := ""
  metadata : Option (List (String × Json)) := none
  roomId : String := ""
  accountId : String := ""

/-- What the episodic store is to add. -/
structure EpisodicEntry where
  summary : String
  metadata : Option (List (String × Json))
  roomId : String
  accountId : String

namespace EpisodicInput

def withScope (payload : EpisodicInput) (roomId accountId : String) : EpisodicInput :=
  { payload with
    roomId := if payload.roomId = "" then roomId else payload.roomId
    accountId := if payload.accountId = "" then accountId else payload.accountId }

/-- `store_episodic`; the kind is written before the content, unless it is there. -/
def entry (payload : EpisodicInput) : EpisodicEntry where
  summary :=
    let tag := "[" ++ payload.kind ++ "]"
    if payload.kind = "" ∨ Text.startsWith payload.content tag = true then payload.content
    else tag ++ " " ++ payload.content
  metadata := payload.metadata
  roomId := payload.roomId
  accountId := payload.accountId

end EpisodicInput

/-- `format_search_result` of a row. -/
def formatRow (round : ℚ → ℚ) (row : Json) : Json :=
  .obj [("content", (row.field? "content").getD (.str "")),
    ("tags", (row.field? "tags").getD (.arr [])),
    ("type", (row.field? "type").getD (.str "unknown")),
    ("score", match row.field? "score" with
      | none => .num (round 0)
      | some (.num q) => .num (round q)
      | some j => j),
    ("timestamp", (row.field? "timestamp").getD (.str ""))]

def formatSearchResult (round : ℚ → ℚ) (rows : List Json) : List Json := rows.map (formatRow round)

/-- The rows with a room, if there is one to look for. -/
def inRoom (roomId : String) (rows : List Json) : List Json :=
  if roomId = "" then rows else rows.filter fun row => row.textAt "room_id" = roomId

namespace SemanticStore

variable (o : JsonText)

/-- The id under which `add` stores an entry, unless its content is there. -/
def newId? (s : SemanticStore) (content : String) : Option String :=
  if isDuplicate content (s.entries o) = some false then
    some (lessonId ((s.entries o).length + 1))
  else none

def search (engine : Engine) (s : SemanticStore) (query : String) (maxResults : Nat)
    (accountId : String) : List Json :=
  VectorStore.search engine s.vector query maxResults accountId

end SemanticStore

/-- The manager, and the room that each document of the collection was stored with, which is not
to be read off the document. -/
structure LongTermMemoryManager where
  semantic : Option SemanticStore
  vectorStore : Option (Dict String Doc)
  rooms : Dict String String := .empty

/-- A call of `store_semantic`. -/
structure StoreSemantic where
  data : SemanticData
  roomId : String := ""
  accountId : String := ""

namespace LongTermMemoryManager

section Stored

variable (o : JsonText) (lib : VectorStore.Library) (v : Conversion) (maxEntries : Nat)

def storeSemantic (m : LongTermMemoryManager) (c : StoreSemantic) : LongTermMemoryManager :=
  match m.semantic with
  | none => m
  | some s =>
    let payload := (coerceSemanticInput v c.data).withScope c.roomId c.accountId
    { m with
      semantic := some (s.add o lib maxEntries payload.modelDump payload.roomId payload.accountId)
      rooms := match s.newId? o payload.content with
        | some id => m.rooms.set id payload.roomId
        | none => m.rooms }

end Stored

section Searched

variable (engine : Engine) (round : ℚ → ℚ)

def searchSemantic (m : LongTermMemoryManager) (query : String) (maxResults : Nat)
    (roomId accountId : String) : List Json :=
  match m.semantic, m.vectorStore with
  | some s, _ =>
    formatSearchResult round (inRoom roomId (s.search engine query maxResults accountId))
  | none, some docs => formatSearchResult round
      (inRoom roomId (VectorStore.search engine docs query maxResults accountId))
  | none, none => []

/-- The documents that a search is about. -/
def docs (m : LongTermMemoryManager) : Dict String Doc :=
  match m.semantic, m.vectorStore with
  | some s, _ => s.vector
  | none, some docs => docs
  | none, none => .empty

/-- The entries stored with a room that match a query, best first, where the nearest documents
that are looked at are twice as many as `reach`. -/
def matching (m : LongTermMemoryManager) (query : String) (reach : Nat)
    (roomId accountId : String) : List (String × Hit) :=
  (VectorStore.ranked engine m.docs query reach accountId).filter fun e =>
    m.rooms.get? e.1 = some roomId

/-- The best of them, as rows of a result. -/
def best (m : LongTermMemoryManager) (query : String) (reach maxResults : Nat)
    (roomId accountId : String) : List Json :=
  formatSearchResult round
    (((m.matching engine query reach roomId accountId).take maxResults).map fun e => e.2.row e.1)

end Searched

/-! ## The rooms of the documents -/

section Rooms

variable {o : JsonText} {lib : VectorStore.Library} {v : Conversion} {maxEntries : Nat}

theorem takes_modelDump (payload : SemanticInput) :
    VectorStore.takes lib payload.modelDump = true := by
  have htags : VectorStore.joins (.arr (payload.tags.map .str)) = true := by
    simp [VectorStore.joins]
  exact Bool.and_eq_true_iff.mpr
    ⟨Bool.and_eq_true_iff.mpr ⟨htags, lib.accepts_str _⟩, lib.accepts_str _⟩

/-- What the collection takes it is given under the id of the entry, if the content is new. -/
theorem vector_add (o : JsonText) (lib : VectorStore.Library) (maxEntries : Nat) (s : SemanticStore)
    {fields : List (String × Json)} (roomId accountId : String)
    (htakes : VectorStore.takes lib fields = true) :
    ∃ doc, (s.add o lib maxEntries fields roomId accountId).vector =
      match s.newId? o (Fields.getText "content" "" fields) with
      | some id => s.vector.set id doc
      | none => s.vector := by
  obtain ⟨doc, hdoc⟩ := SemanticStore.docOfEntry_completed htakes
    (SemanticStore.lessonId ((s.entries o).length + 1)) roomId accountId
  refine ⟨doc, ?_⟩
  have hload : (s.jsonl.loadAll o).1 = s.entries o := rfl
  unfold SemanticStore.add SemanticStore.newId?
  dsimp only
  rw [hload]
  split
  · next h => rw [h, if_neg (by decide)]
  · next h => rw [h, if_neg (by decide)]
  · next h =>
    rw [h, if_pos rfl, SemanticStore.add_completed, hdoc]
    rfl

/-- Every document was stored with a room, and no other. -/
theorem run_rooms (s : SemanticStore) (h : s.vector = .empty)
    (vectorStore : Option (Dict String Doc)) (calls : List StoreSemantic) (id : String) :
    let m := Machine.run (storeSemantic o lib v maxEntries) ⟨some s, vectorStore, .empty⟩ calls
    (m.docs.get? id).isSome = (m.rooms.get? id).isSome := by
  refine (Machine.run_inv (fun m : LongTermMemoryManager => (∃ s, m.semantic = some s) ∧
    ∀ id, (m.docs.get? id).isSome = (m.rooms.get? id).isSome)
    (fun m c hm => ?_) ⟨⟨s, rfl⟩, fun id => ?_⟩ calls).2 id
  · obtain ⟨⟨s, hs⟩, hkeys⟩ := hm
    obtain ⟨semantic, vectorStore, rooms⟩ := m
    cases hs
    refine ⟨⟨_, rfl⟩, fun id => ?_⟩
    have hcontent : ∀ p : SemanticInput, Fields.getText "content" "" p.modelDump = p.content :=
      fun _ => rfl
    let payload := (coerceSemanticInput v c.data).withScope c.roomId c.accountId
    obtain ⟨doc, hvector⟩ := vector_add o lib maxEntries s payload.roomId payload.accountId
      (takes_modelDump payload)
    simp only [storeSemantic, docs, payload, hvector, hcontent]
    split
    · rw [Dict.get?_set, Dict.get?_set]
      split
      · rfl
      · exact hkeys id
    · exact hkeys id
  · have hempty : (s.vector.get? id).isSome = false := by rw [h]; rfl
    exact hempty

end Rooms

/-! ## Rows have no room -/

section Rows

variable {engine : Engine} {round : ℚ → ℚ}

end Rows

/-- A memory with an empty semantic store. -/
def new : LongTermMemoryManager := ⟨some {}, none, .empty⟩

end LongTermMemoryManager

end IrisMind.Memory
