import IrisMind.Memory.LongTerm
import IrisMind.Memory.Candidates
import IrisMind.Lib.Rows

/-! # Handlers

What becomes of a candidate that has been accepted: the handler of its store
works out what is to be written and what it returns, and the write is the last
thing it does. Any write may fail, before anything has changed or after; the
one of a relationship first changes the live state and then a snapshot. -/
namespace IrisMind.Memory
open IrisMind.Lib

/-! ## Relationships -/

inductive RelationshipLevel where
  | acquaintance | familiar | bonded
deriving DecidableEq

def RelationshipLevel.rank : RelationshipLevel → Nat
  | acquaintance => 0
  | familiar => 1
  | bonded => 2

structure RelationshipState where
  level : RelationshipLevel := .acquaintance
  trust : ℚ := 1 / 10
  familiarity : ℚ := 0
deriving DecidableEq

/-- The fields that a candidate may move. -/
inductive RelationshipField where
  | trust | familiarity
deriving DecidableEq

namespace RelationshipManager

variable (states : Dict String RelationshipState)

def key (accountId : String) : String := if accountId = "" then "__global__" else accountId

def getState (accountId : String) : RelationshipState := (states.get? (key accountId)).getD {}

def updateLevel (state : RelationshipState) : RelationshipState :=
  if 7 / 10 ≤ state.trust then
    if state.level.rank < 2 then { state with level := .bonded } else state
  else if 3 / 10 ≤ state.trust ∧ state.level.rank < 1 then { state with level := .familiar }
  else state

def applyCandidateDelta (field : RelationshipField) (delta : ℚ) (accountId : String) :
    Dict String RelationshipState :=
  let state := getState states accountId
  states.set (key accountId) (updateLevel (match field with
    | .trust => { state with trust := max 0 (min 1 (state.trust + delta)) }
    | .familiarity => { state with familiarity := max 0 (min 1 (state.familiarity + delta)) }))

end RelationshipManager

structure RelationshipSnapshot where
  id : String
  accountId : String
  roomId : String
  state : RelationshipState
  sourceRecordIds : List String
  allSourceRecordIds : List String
deriving DecidableEq

/-- `save_snapshot` -/
def RelationshipStateStore.saveSnapshot (snapshots : List RelationshipSnapshot)
    (accountId : String) (state : RelationshipState) (roomId : String)
    (sourceRecordIds : List String) : List RelationshipSnapshot :=
  let id := accountId ++ "::" ++ if roomId = "" then "__global__" else roomId
  match snapshots.find? (·.id = id) with
  | some existing => Rows.replaceFirst (·.id = id)
      { id, accountId, roomId, state, sourceRecordIds,
        allSourceRecordIds := (existing.allSourceRecordIds ++ sourceRecordIds).eraseDups } snapshots
  | none => snapshots ++
      [{ id, accountId, roomId, state, sourceRecordIds, allSourceRecordIds := sourceRecordIds }]

/-! ## What is written -/

structure AppraisalEpisode where
  id : String
  accountId : String
  roomId : String
  triggerSummary : String
  contextType : String
  appraisal : List (String × Json)

inductive StyleKind where
  | tonePreference | successfulPattern | runningGag | avoidanceRule | chaosPreference
  | conversationStrategy
deriving DecidableEq

namespace StyleKind

def text : StyleKind → String
  | tonePreference => "tone_preference"
  | successfulPattern => "successful_pattern"
  | runningGag => "running_gag"
  | avoidanceRule => "avoidance_rule"
  | chaosPreference => "chaos_preference"
  | conversationStrategy => "conversation_strategy"

def all : List StyleKind :=
  [tonePreference, successfulPattern, runningGag, avoidanceRule, chaosPreference,
    conversationStrategy]

def ofText? (s : String) : Option StyleKind := all.find? (·.text = s)

end StyleKind

inductive StyleScope where
  | global | account | room
deriving DecidableEq

def StyleScope.ofText? : String → Option StyleScope
  | "global" => some global
  | "account" => some account
  | "room" => some room
  | _ => none

structure StyleMemory where
  id : String
  scope : StyleScope
  accountId : String
  roomId : String
  kind : StyleKind
  content : String
  evidence : String
  confidence : ℚ
  activationCondition : String
  sourceRecordIds : List String

inductive PersonaPatchStatus where
  | pending | approved | rejected | applied
deriving DecidableEq

structure PersonaPatchCandidate where
  id : String
  targetFile : String
  reason : String
  proposedPatch : String
  evidenceRecordIds : List String
  confidence : ℚ
  status : PersonaPatchStatus
  metadata : List (String × Json)

/-- The stores that a candidate may change, and the live state of the relationships. -/
structure Stores where
  semantic : List SemanticInput := []
  episodic : List EpisodicEntry := []
  relationships : Dict String RelationshipState := .empty
  snapshots : List RelationshipSnapshot := []
  appraisals : List AppraisalEpisode := []
  styles : List StyleMemory := []
  personaPatches : List PersonaPatchCandidate := []

inductive Write where
  | semantic (payload : SemanticInput)
  | episodic (entry : EpisodicEntry)
  | relationship (field : RelationshipField) (delta : ℚ) (accountId roomId : String)
      (sourceRecordIds : List String)
  | appraisal (episode : AppraisalEpisode)
  | style (item : StyleMemory)
  | personaPatch (item : PersonaPatchCandidate)

/-- The store that a write goes to. -/
def Write.target : Write → TargetStore
  | .semantic _ => .semantic
  | .episodic _ => .episodic
  | .relationship .. => .relationship
  | .appraisal _ => .appraisal
  | .style _ => .style
  | .personaPatch _ => .personaPatch

/-- What comes of the write of a store: it may raise, with or without a trace. -/
inductive Writing where
  | done
  | refused (error : String)
  | spoilt (error : String)

namespace Writing

def error? : Writing → Option String
  | done => none
  | refused e => some e
  | spoilt e => some e

/-- What is in the store then. -/
def leaves {α : Type} (old new : α) : Writing → α
  | done => new
  | refused _ => old
  | spoilt _ => new

end Writing

/-- A write, to the snapshots of relationships only where they are kept. -/
def Stores.perform (keepsSnapshots : Bool) (w : Writing) (s : Stores) :
    Write → Option String × Stores
  | .semantic payload =>
    (w.error?, { s with semantic := w.leaves s.semantic (s.semantic ++ [payload]) })
  | .episodic entry =>
    (w.error?, { s with episodic := w.leaves s.episodic (s.episodic ++ [entry]) })
  | .relationship field delta accountId roomId sourceRecordIds =>
    let relationships :=
      RelationshipManager.applyCandidateDelta s.relationships field delta accountId
    if keepsSnapshots then
      let snapshots := RelationshipStateStore.saveSnapshot s.snapshots accountId
        (RelationshipManager.getState relationships accountId) roomId sourceRecordIds
      (w.error?, { s with relationships, snapshots := w.leaves s.snapshots snapshots })
    else (none, { s with relationships })
  | .appraisal episode =>
    (w.error?, { s with appraisals := w.leaves s.appraisals (s.appraisals ++ [episode]) })
  | .style item => (w.error?, { s with styles := w.leaves s.styles (s.styles ++ [item]) })
  | .personaPatch item =>
    (w.error?, { s with personaPatches := w.leaves s.personaPatches (s.personaPatches ++ [item]) })

/-! ## The handlers -/

structure HandlerOutcome where
  status : CandidateStatus
  reason : String := ""
  memoryId : String := ""

/-- What a handler returns: nothing, the id of what it has written, or more. -/
inductive Applied where
  | none
  | created (id : String)
  | outcome (o : HandlerOutcome)

/-- What a handler is to write, if anything, and what it returns after that; or the exception it
raises before. -/
abbrev Plan := Except String (Option Write × Applied)

def clampDelta (value maxAbs : ℚ) : ℚ :=
  if maxAbs < value then maxAbs else if value < -maxAbs then -maxAbs else value

def scaleByConfidence (value confidence : ℚ) : ℚ := value * max 0 (min 1 confidence)

section Apply

variable (v : Conversion) (c : MemoryCandidate) (roomId accountId : String)

/-- `RelationshipPromotionHandler.apply` -/
def RelationshipPromotionHandler.apply : Plan := do
  if c.confidence < 6 / 10 then return (none, .none)
  let suggested ← v.floatAt "suggested_delta" c.payload
  if suggested = 0 then return (none, .none)
  let field := if (match Dict.lookup "field" c.payload with
    | some j => if j.truthy then v.str j else "trust"
    | none => "trust") = "familiarity" then RelationshipField.familiarity else .trust
  let maxDelta : ℚ := 5 / 100
  let cap := if suggested < 0 then maxDelta * (5 / 10) else maxDelta
  let scaled := scaleByConfidence (clampDelta suggested cap) c.confidence
  return (some (.relationship field scaled accountId roomId c.sourceRecordIds),
    .created ("rel_" ++ Text.takeChars c.id 12))

/-- `AppraisalPromotionHandler.apply` -/
def AppraisalPromotionHandler.apply (newId : String) : Plan := do
  if c.confidence < 5 / 10 then return (none, .none)
  let estimated ← v.floatAt "estimated_delta" c.payload
  let scaled := scaleByConfidence (clampDelta estimated (5 / 10)) c.confidence
  return (some (.appraisal
    { id := newId, accountId, roomId
      triggerSummary := Text.strip (v.strAt "trigger_summary" "" c.payload)
      contextType := v.strAt "appraisal_dimension" "general" c.payload
      appraisal := [("dimension", .str (v.strAt "appraisal_dimension" "" c.payload)),
        ("estimated_delta_raw", .num estimated), ("estimated_delta_clamped", .num scaled),
        ("reason", .str (v.strAt "reason" "" c.payload)), ("source", .str "langmem_candidate"),
        ("source_candidate_id", .str c.id),
        ("source_record_ids", .arr (c.sourceRecordIds.map .str))] }), .created newId)

namespace PersonaPatchPromotionHandler

def defaultTarget : String := ".iris/config/iris_profile.md"

/-- `str(payload.get("target_file", …) or "")` -/
def targetFile (payload : List (String × Json)) : String :=
  match Dict.lookup "target_file" payload with
  | some j => if j.truthy then v.str j else ""
  | none => defaultTarget

def apply (newId : String) : Plan :=
  let proposed := Text.strip (v.strAt "proposed_patch" "" c.payload)
  let reason := Text.strip (v.strAt "reason" "" c.payload)
  let evidence := Text.strip (v.strAt "evidence" "" c.payload)
  if proposed = "" ∨ reason = "" then
    .ok (none, .outcome { status := .rejected, reason := "missing_required_fields" })
  else
    let item (metadata : List (String × Json)) : PersonaPatchCandidate :=
      { id := newId, reason, proposedPatch := proposed, targetFile := targetFile v c.payload
        evidenceRecordIds := c.sourceRecordIds, confidence := c.confidence, status := .pending
        metadata := metadata ++ [("source_candidate_id", .str c.id), ("evidence", .str evidence)] }
    if c.confidence < 9 / 10 then
      let marks := [("needs_review", .bool true), ("low_confidence", .bool true)]
      .ok (some (.personaPatch (item marks)),
        .outcome { status := .needsReview, reason := "low_confidence_pending", memoryId := newId })
    else
      .ok (some (.personaPatch (item [])), .outcome { status := .promoted, memoryId := newId })

/-- `is_duplicate`, when the store can be listed. -/
def isDuplicate (store : List PersonaPatchCandidate) : Bool :=
  store.any fun existing =>
    existing.status = .pending &&
      existing.reason = Text.strip (v.strAt "reason" "" c.payload) &&
      existing.proposedPatch = Text.strip (v.strAt "proposed_patch" "" c.payload) &&
      existing.targetFile = v.strAt "target_file" defaultTarget c.payload

end PersonaPatchPromotionHandler

namespace StylePromotionHandler

def apply (newId : String) : Plan :=
  if c.confidence < 6 / 10 then .ok (none, .none)
  else
    let content := Text.strip (v.strAt "content" "" c.payload)
    let scope := match Dict.lookup "scope" c.payload with
      | some j => if j.truthy then v.str j else "account"
      | none => "account"
    if content = "" then .ok (none, .none)
    else .ok (some (.style
      { id := newId
        kind := (StyleKind.ofText? (v.strAt "kind" "successful_pattern" c.payload)).getD
          .successfulPattern
        content
        evidence := Text.strip (v.strAt "evidence" "" c.payload)
        confidence := c.confidence
        scope := (StyleScope.ofText? scope).getD .account
        accountId, roomId
        activationCondition := Text.strip (v.strAt "activation_condition" "" c.payload)
        sourceRecordIds := c.sourceRecordIds }), .created newId)

/-- `is_duplicate`, when the store can be listed. -/
def isDuplicate (store : List StyleMemory) : Bool :=
  let content := Text.strip (v.strAt "content" "" c.payload)
  content ≠ "" && store.any fun existing =>
    existing.content = content && existing.kind.text = v.strAt "kind" "" c.payload

end StylePromotionHandler

end Apply

end IrisMind.Memory
