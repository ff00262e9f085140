import IrisMind.Memory.Assembler
import IrisMind.Memory.LongTerm
import IrisMind.Memory.SemanticAdd
import IrisMind.Memory.ShortTerm

/-! # The layers behind the memory manager

What is stored goes through a handler for its stream, to one layer or to two. The
room and the account travel inside the data, which has a place for them only if
it is an object; and not every handler takes both out again. -/
namespace IrisMind.Memory
open IrisMind.Lib

/-- The streams there is a handler for. -/
inductive Stream where
  | sensory
  | shortTerm
  | episodic
  | semantic
deriving DecidableEq, Repr

/-- What `store` is given. -/
inductive MemoryData where
  | text (s : String)
  | dict (fields : List (String × Json))

structure MemoryLayers where
  sensory : SensoryMemoryAssembler := {}
  shortTerm : ShortTermMemoryManager := {}
  episodic : Option JsonlStore := none
  semantic : Option SemanticStore := none

/-- A record in one of the layers; the last two are lines of a file. -/
inductive MemoryRecord where
  | raw (input : RawInput)
  | fragment (roomId : String) (block : ContentBlock)
  | turn (t : StoredTurn)
  | episode (row : Json)
  | lesson (row : Json)

namespace MemoryRecord

def roomId : MemoryRecord → String
  | raw input => input.roomId
  | fragment roomId _ => roomId
  | turn t => t.roomId
  | episode row => row.textAt "room_id"
  | lesson row => row.textAt "room_id"

/-- A fragment has no account. -/
def accountId : MemoryRecord → String
  | raw input => input.accountId
  | fragment _ _ => ""
  | turn t => t.accountId
  | episode row => row.textAt "account_id"
  | lesson row => row.textAt "account_id"

end MemoryRecord

/-- The libraries and settings the layers work with, the time, and what numbers the input. -/
structure MemorySetup where
  text : JsonText
  conv : Conversion
  library : VectorStore.Library
  reader : TurnReader
  maxEpisodes : Nat := 30
  maxLessons : Nat := 100
  now : String := ""
  input : Nat := 0
  readiness : Option (List String → Bool) := none

/-- The layers after a call, the records it has made, and whether it raised. -/
structure StoreRun where
  layers : MemoryLayers
  created : List MemoryRecord := []
  raised : Bool := false

/-- What comes after a call that has not raised. -/
def StoreRun.next (run : StoreRun) (f : MemoryLayers → StoreRun) : StoreRun :=
  if run.raised then run
  else { f run.layers with created := run.created ++ (f run.layers).created }

/-- The first of the values of the keys that counts as true. -/
def firstTruthy (keys : List String) (fields : List (String × Json)) : Option Json :=
  (keys.filterMap (Dict.lookup · fields)).find? Json.truthy

/-! ## Long-term records -/

/-- `coerce_episodic_input`; metadata that is no object does not validate. -/
def coerceEpisodicInput (v : Conversion) (kind : String) : MemoryData → Option EpisodicInput
  | .text s => some { content := s, kind }
  | .dict fields =>
    let payload (metadata : Option (List (String × Json))) : EpisodicInput :=
      { content := (firstTruthy ["content", "summary"] fields).elim "" v.str
        kind := v.strAt "kind" kind fields
        metadata
        roomId := v.strAt "room_id" "" fields
        accountId := v.strAt "account_id" "" fields }
    match Dict.lookup "metadata" fields with
    | none | some .null => some (payload none)
    | some (.obj metadata) => some (payload (some metadata))
    | some _ => none

def MemoryData.semantic : MemoryData → SemanticData
  | .text s => .value (.str s)
  | .dict fields => .value (.obj fields)

/-- What `EpisodicStore.add` writes; empty metadata is left out. -/
def EpisodicEntry.row (now : String) (e : EpisodicEntry) : Json :=
  .obj ([("summary", .str e.summary), ("timestamp", .str now), ("room_id", .str e.roomId),
    ("account_id", .str e.accountId)] ++
      match e.metadata with
      | some (m :: ms) => [("metadata", .obj (m :: ms))]
      | _ => [])

section Handlers

variable (setup : MemorySetup)

/-- `LongTermMemoryManager.store_episodic` -/
def storeEpisodicEntry (data : MemoryData) (roomId accountId : String) (l : MemoryLayers) :
    StoreRun :=
  match l.episodic with
  | none => { layers := l }
  | some store => match coerceEpisodicInput setup.conv "" data with
    | none => { layers := l, raised := true }
    | some payload =>
      let row := (payload.withScope roomId accountId).entry.row setup.now
      { layers := { l with episodic := store.addEntry setup.text row setup.maxEpisodes }
        created := [.episode row] }

/-- `LongTermMemoryManager.store_semantic`; a content that is there is not stored again. -/
def storeSemanticEntry (data : MemoryData) (roomId accountId : String) (l : MemoryLayers) :
    StoreRun :=
  match l.semantic with
  | none => { layers := l }
  | some store =>
    let payload := (coerceSemanticInput setup.conv data.semantic).withScope roomId accountId
    let layers := { l with semantic := some (store.add setup.text setup.library setup.maxLessons
      payload.modelDump payload.roomId payload.accountId) }
    match SemanticStore.isDuplicate payload.content (store.entries setup.text) with
    | none => { layers, raised := true }
    | some true => { layers }
    | some false => { layers, created := [.lesson (.obj (SemanticStore.completed
        (SemanticStore.lessonId ((store.entries setup.text).length + 1)) payload.roomId
          payload.accountId payload.modelDump))] }

/-! ## Handlers -/

/-- `StoreScope.of` -/
def StoreScope.of (v : Conversion) : MemoryData → ShortTermScope
  | .text _ => {}
  | .dict fields =>
    { roomId := v.strAt "room_id" "" fields, accountId := v.strAt "account_id" "" fields }

/-- `_coerce_short_term_turn` -/
def coerceShortTermTurn (v : Conversion) : MemoryData → String × List ContentBlock
  | .text s => ("system", [textBlock s])
  | .dict fields => (v.strAt "role" "system" fields,
      [textBlock (v.str ((firstTruthy ["content", "summary"] fields).getD (.obj fields)))])

/-- `short_term.add_turn` -/
def addTurnTo (role : String) (blocks : List ContentBlock) (roomId accountId : String)
    (l : MemoryLayers) : StoreRun :=
  if blocks = [] then { layers := l }
  else
    { layers := { l with
        shortTerm := l.shortTerm.addTurn setup.reader role blocks accountId roomId }
      created := [.turn (l.shortTerm.entry setup.reader role blocks accountId roomId)] }

/-- `_store_sensory` -/
def storeSensory (data : MemoryData) (l : MemoryLayers) : StoreRun :=
  let addFragment (text : String) : StoreRun :=
    { layers := { l with
        sensory := l.sensory.addFragmentBlock (textBlock text) true "" setup.readiness }
      created := [.fragment "" (textBlock text)] }
  match data with
  | .text s => addFragment s
  | .dict fields => match firstTruthy ["raw"] fields with
    | some raw =>
      let block := textBlock (setup.conv.str raw)
      { layers := { l with sensory := { l.sensory with
          store := l.sensory.store.storeRawBlock setup.input block "" "" "" } }
        created := [.raw { input := setup.input, block }] }
    | none => addFragment (setup.conv.str (.obj fields))

/-- `_store_short_term` -/
def storeShortTerm (data : MemoryData) (l : MemoryLayers) : StoreRun :=
  let scope := StoreScope.of setup.conv data
  let (role, blocks) := coerceShortTermTurn setup.conv data
  addTurnTo setup role blocks scope.roomId scope.accountId l

/-- `_store_episodic`; the turn that goes with the entry gets the account alone. -/
def storeEpisodic (data : MemoryData) (l : MemoryLayers) : StoreRun :=
  let scope := StoreScope.of setup.conv data
  let (role, blocks) := coerceShortTermTurn setup.conv data
  (storeEpisodicEntry setup data scope.roomId scope.accountId l).next
    (addTurnTo setup role blocks "" scope.accountId)

/-- `_store_semantic`; so does this one, and only an object with a content has one. -/
def storeSemantic (data : MemoryData) (l : MemoryLayers) : StoreRun :=
  let scope := StoreScope.of setup.conv data
  (storeSemanticEntry setup data scope.roomId scope.accountId l).next fun l =>
    match data with
    | .text _ => { layers := l }
    | .dict fields =>
      let content := setup.conv.strAt "content" "" fields
      if content = "" then { layers := l }
      else addTurnTo setup "system" [textBlock content] "" scope.accountId l

/-- The scope of the call is a default for what an object has. -/
def scopedFields (roomId accountId : String) (fields : List (String × Json)) :
    List (String × Json) :=
  let fields := if roomId = "" then fields else Fields.setDefault "room_id" (.str roomId) fields
  if accountId = "" then fields else Fields.setDefault "account_id" (.str accountId) fields

def MemoryData.withDefaults (roomId accountId : String) : MemoryData → MemoryData
  | .text s => .text s
  | .dict fields => .dict (scopedFields roomId accountId fields)

/-- `MemoryManager.store` -/
def MemoryLayers.store (l : MemoryLayers) (stream : Stream) (data : MemoryData)
    (roomId accountId : String) : StoreRun :=
  let data := data.withDefaults roomId accountId
  match stream with
  | .sensory => storeSensory setup data l
  | .shortTerm => storeShortTerm setup data l
  | .episodic => storeEpisodic setup data l
  | .semantic => storeSemantic setup data l

/-! ## Which records keep their scope -/

/-- Every record that is made has the room and the account. -/
def StoreRun.Scoped (run : StoreRun) (roomId accountId : String) : Prop :=
  ∀ record ∈ run.created, record.roomId = roomId ∧ record.accountId = accountId

/-- When the scope of a call gets to all that is made: with an object on the short-term stream it
always does; with an object on a long-term stream only the turn that goes with the entry lacks the
room; everything else has neither a room nor an account. -/
def KeepsScope (l : MemoryLayers) (roomId accountId : String) : Stream → MemoryData → Prop
  | .shortTerm, .dict _ => True
  | .episodic, .dict fields => roomId = "" ∨
    l.episodic.isSome = true ∧ coerceEpisodicInput setup.conv "" (.dict fields) = none
  | .semantic, .dict fields => roomId = "" ∨ setup.conv.strAt "content" "" fields = "" ∨
    ∃ store, l.semantic = some store ∧ SemanticStore.isDuplicate
      (setup.conv.strAt "content" "" fields) (store.entries setup.text) = none
  | .semantic, .text s => roomId = "" ∧ accountId = "" ∨
    ∀ store, l.semantic = some store →
      SemanticStore.isDuplicate s (store.entries setup.text) ≠ some false
  | _, _ => roomId = "" ∧ accountId = ""

variable {setup}

/-! ### Where the scope is read -/

section Scope

variable {fields : List (String × Json)} (v : Conversion) (roomId accountId : String)

end Scope

section Dict

variable {fields : List (String × Json)} (roomId accountId : String)

end Dict

end Handlers

def greeting : MemoryData := .dict [("content", .str "hi")]

/-- A turn that is there after a call was there before, or is one of its records. -/
def StoreRun.Told (run : StoreRun) (l : MemoryLayers) : Prop :=
  ∀ t ∈ run.layers.shortTerm.store.turns,
    t ∈ l.shortTerm.store.turns ∨ .turn t ∈ run.created

theorem StoreRun.told_of_same {run : StoreRun} {l : MemoryLayers}
    (h : run.layers.shortTerm = l.shortTerm) : run.Told l :=
  fun _ ht => .inl (h ▸ ht)

theorem StoreRun.Told.next {run : StoreRun} {l : MemoryLayers} (h : run.Told l)
    {f : MemoryLayers → StoreRun} (hf : ∀ l, (f l).Told l) : (run.next f).Told l := by
  unfold StoreRun.next
  cases run.raised with
  | true => exact h
  | false =>
    intro t ht
    rcases hf run.layers t ht with hold | hnew
    · exact (h t hold).imp_right (List.mem_append_left _)
    · exact .inr (List.mem_append_right _ hnew)

theorem told_addTurnTo (setup : MemorySetup) (role : String) (blocks : List ContentBlock)
    (roomId accountId : String) (l : MemoryLayers) :
    (addTurnTo setup role blocks roomId accountId l).Told l := by
  unfold addTurnTo
  split
  · exact StoreRun.told_of_same rfl
  · intro t ht
    rcases l.shortTerm.addTurn_turns setup.reader role blocks accountId roomId with heq | ⟨hsub, _⟩
    · exact .inl (heq ▸ ht)
    · rcases List.mem_append.mp (hsub.subset ht) with hold | hnew
      · exact .inl hold
      · exact .inr (List.mem_singleton.mp hnew ▸ List.mem_singleton_self _)

theorem told_store (setup : MemorySetup) (l : MemoryLayers) (stream : Stream) (data : MemoryData)
    (roomId accountId : String) : (l.store setup stream data roomId accountId).Told l := by
  have hepisode : ∀ data room account, (storeEpisodicEntry setup data room account l).Told l := by
    intro data room account
    unfold storeEpisodicEntry
    split
    · exact StoreRun.told_of_same rfl
    · split <;> exact StoreRun.told_of_same rfl
  have hlesson : ∀ data room account, (storeSemanticEntry setup data room account l).Told l := by
    intro data room account
    unfold storeSemanticEntry
    split
    · exact StoreRun.told_of_same rfl
    · dsimp only
      split <;> exact StoreRun.told_of_same rfl
  cases stream with
  | sensory =>
    unfold MemoryLayers.store storeSensory
    dsimp only
    split
    · exact StoreRun.told_of_same rfl
    · split <;> exact StoreRun.told_of_same rfl
  | shortTerm => exact told_addTurnTo setup _ _ _ _ l
  | episodic => exact (hepisode _ _ _).next fun l => told_addTurnTo setup _ _ _ _ l
  | semantic =>
    refine (hlesson _ _ _).next fun l => ?_
    cases data with
    | text s => exact StoreRun.told_of_same rfl
    | dict fields =>
      dsimp only [MemoryData.withDefaults]
      split
      · exact StoreRun.told_of_same rfl
      · exact told_addTurnTo setup _ _ _ _ l

end IrisMind.Memory
