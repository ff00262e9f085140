import IrisMind.Memory.CandidateHash
import IrisMind.Memory.Duplicates
import IrisMind.Memory.Schemas

/-! # The candidates that wait

The store keeps a candidate a line and skips one for which another stands that is not rejected.
What `list_all` makes of the file is compared with a list of candidates to which the same is done:
no two of them may stand for the same. -/
namespace IrisMind.Memory
open IrisMind.Lib

def TargetStore.ofText? (s : String) : Option TargetStore :=
  [semantic, episodic, relationship, appraisal, style, personaPatch].find? (·.text = s)

@[simp] theorem TargetStore.ofText?_text (t : TargetStore) : ofText? t.text = some t := by
  cases t <;> rfl

def CandidateStatus.text : CandidateStatus → String
  | pending => "pending"
  | promoted => "promoted"
  | rejected => "rejected"
  | needsReview => "needs_review"

def CandidateStatus.ofText? (s : String) : Option CandidateStatus :=
  [pending, promoted, rejected, needsReview].find? (·.text = s)

@[simp] theorem CandidateStatus.ofText?_text (t : CandidateStatus) : ofText? t.text = some t := by
  cases t <;> rfl

/-! ## Lists of candidates -/

namespace MemoryCandidateStore

/-- Candidates for the same store and scope with the same hash, neither of them rejected. -/
structure Clash (c d : MemoryCandidate) : Prop where
  targetStore : c.targetStore = d.targetStore
  accountId : c.scopeAccountId = d.scopeAccountId
  roomId : c.scopeRoomId = d.scopeRoomId
  payloadHash : c.payloadHash = d.payloadHash
  left : c.status ≠ .rejected
  right : d.status ≠ .rejected

/-- All candidates have a hash, and no two of them stand for the same. -/
structure Unique (l : List MemoryCandidate) : Prop where
  hashed : ∀ c ∈ l, c.payloadHash ≠ ""
  apart : l.Pairwise fun c d => ¬ Clash c d

variable {l l' : List MemoryCandidate} {item : MemoryCandidate}

theorem Unique.nil : Unique [] := ⟨fun _ h => absurd h List.not_mem_nil, .nil⟩

theorem Unique.sublist (h : Unique l) (hsub : l'.Sublist l) : Unique l' :=
  ⟨fun c hc => h.hashed c (hsub.subset hc), h.apart.sublist hsub⟩

theorem not_clash_of_not_duplicate (hhash : item.payloadHash ≠ "")
    (h : hasPendingDuplicate l item = false) : ∀ c ∈ l, ¬ Clash c item := by
  intro c hc hclash
  rw [hasPendingDuplicate, bne_iff_ne.mpr hhash, Bool.true_and, List.any_eq_false] at h
  refine h c hc ?_
  simp [hclash.targetStore, hclash.accountId, hclash.roomId, hclash.payloadHash, hclash.left]

/-- What is added clashes with nothing. -/
theorem Unique.add (h : Unique l) (hhash : item.payloadHash ≠ "") :
    Unique (MemoryCandidateStore.add false l item) := by
  unfold MemoryCandidateStore.add
  cases hdup : hasPendingDuplicate l item with
  | true => exact h
  | false =>
    have hnew := not_clash_of_not_duplicate hhash hdup
    refine ⟨fun c hc => ?_, List.pairwise_append.mpr ⟨h.apart, List.pairwise_singleton _ _, ?_⟩⟩
    · rcases List.mem_append.mp hc with hc | hc
      · exact h.hashed c hc
      · rw [List.mem_singleton.mp hc]
        exact hhash
    · intro c hc d hd
      rw [List.mem_singleton.mp hd]
      exact hnew c hc

/-- A candidate that stays rejected once it is clashes with no more than before. -/
theorem Unique.update {c c' : MemoryCandidate} (h : Unique (l ++ c :: l'))
    (hstore : c'.targetStore = c.targetStore) (haccount : c'.scopeAccountId = c.scopeAccountId)
    (hroom : c'.scopeRoomId = c.scopeRoomId) (hhash : c'.payloadHash = c.payloadHash)
    (hstatus : c.status = .rejected → c'.status = .rejected) : Unique (l ++ c' :: l') := by
  have hleft : ∀ d, Clash c' d → Clash c d := fun d hd =>
    ⟨hstore ▸ hd.targetStore, haccount ▸ hd.accountId, hroom ▸ hd.roomId, hhash ▸ hd.payloadHash,
      mt hstatus hd.left, hd.right⟩
  have hright : ∀ d, Clash d c' → Clash d c := fun d hd =>
    ⟨hstore ▸ hd.targetStore, haccount ▸ hd.accountId, hroom ▸ hd.roomId, hhash ▸ hd.payloadHash,
      hd.left, mt hstatus hd.right⟩
  obtain ⟨hhashed, hapart⟩ := h
  rw [List.pairwise_append, List.pairwise_cons] at hapart
  obtain ⟨hl, ⟨hc, hl'⟩, hcross⟩ := hapart
  refine ⟨fun d hd => ?_, List.pairwise_append.mpr ⟨hl, List.pairwise_cons.mpr ⟨?_, hl'⟩, ?_⟩⟩
  · rcases List.mem_append.mp hd with hd | hd
    · exact hhashed d (List.mem_append_left _ hd)
    · rcases List.mem_cons.mp hd with rfl | hd
      · rw [hhash]
        exact hhashed c (List.mem_append_right _ List.mem_cons_self)
      · exact hhashed d (List.mem_append_right _ (List.mem_cons_of_mem _ hd))
  · exact fun d hd => mt (hleft d) (hc d hd)
  · intro d hd e he
    rcases List.mem_cons.mp he with rfl | he
    · exact mt (hright d) (hcross d hd c List.mem_cons_self)
    · exact hcross d hd e (List.mem_cons_of_mem _ he)

end MemoryCandidateStore

/-! ## Records of candidates -/

/-- A candidate with all that is kept of it. -/
structure StoredCandidate extends MemoryCandidate where
  createdAt : String
  metadata : List (String × Json) := []

/-- A field of a model, which has its default where it is absent. -/
def fieldOr {α : Type} (read : Json → Option α) (default : α) : Option Json → Option α
  | none => some default
  | some j => read j

def readText : Json → Option String
  | .str s => some s
  | _ => none

def readTexts : Json → Option (List String)
  | .arr items => items.mapM readText
  | _ => none

def readStore : Json → Option TargetStore
  | .str s => TargetStore.ofText? s
  | _ => none

def readStatus : Json → Option CandidateStatus
  | .str s => CandidateStatus.ofText? s
  | _ => none

def readFields : Json → Option (List (String × Json))
  | .obj fields => some fields
  | _ => none

namespace StoredCandidate

def fields (c : StoredCandidate) : List (String × Json) :=
  [("id", .str c.id), ("created_at", .str c.createdAt),
    ("source_record_ids", .arr (c.sourceRecordIds.map .str)), ("job_id", .str c.jobId),
    ("target_store", .str c.targetStore.text), ("payload", .obj c.payload),
    ("confidence", .num c.confidence), ("status", .str c.status.text),
    ("rejection_reason", .str c.rejectionReason), ("metadata", .obj c.metadata),
    ("payload_hash", .str c.payloadHash), ("scope_account_id", .str c.scopeAccountId),
    ("scope_room_id", .str c.scopeRoomId)]

def modelDump (c : StoredCandidate) : Json := .obj c.fields

variable (v : Conversion) (newId now : String)

/-- The candidate with some fields; a new id and the time are there in case. -/
def ofFields (get : String → Option Json) : Option StoredCandidate := do
  let id ← fieldOr readText newId (get "id")
  let createdAt ← fieldOr readText now (get "created_at")
  let sourceRecordIds ← fieldOr readTexts [] (get "source_record_ids")
  let jobId ← fieldOr readText "" (get "job_id")
  let targetStore ← fieldOr readStore .semantic (get "target_store")
  let payload ← fieldOr readFields [] (get "payload")
  let confidence ← fieldOr (FieldKind.number? v) 0 (get "confidence")
  let status ← fieldOr readStatus .pending (get "status")
  let rejectionReason ← fieldOr readText "" (get "rejection_reason")
  let metadata ← fieldOr readFields [] (get "metadata")
  let payloadHash ← fieldOr readText "" (get "payload_hash")
  let scopeAccountId ← fieldOr readText "" (get "scope_account_id")
  let scopeRoomId ← fieldOr readText "" (get "scope_room_id")
  return { id, createdAt, sourceRecordIds, jobId, targetStore, payload, confidence, status,
           rejectionReason, metadata, payloadHash, scopeAccountId, scopeRoomId }

def modelValidate : Json → Option StoredCandidate
  | .obj fields => ofFields v newId now fun k => Dict.lookup k fields
  | _ => none

/-- The fields are those of a candidate. -/
structure ReadAs (get : String → Option Json) (c : StoredCandidate) : Prop where
  id : fieldOr readText newId (get "id") = some c.id
  createdAt : fieldOr readText now (get "created_at") = some c.createdAt
  sourceRecordIds : fieldOr readTexts [] (get "source_record_ids") = some c.sourceRecordIds
  jobId : fieldOr readText "" (get "job_id") = some c.jobId
  targetStore : fieldOr readStore .semantic (get "target_store") = some c.targetStore
  payload : fieldOr readFields [] (get "payload") = some c.payload
  confidence : fieldOr (FieldKind.number? v) 0 (get "confidence") = some c.confidence
  status : fieldOr readStatus .pending (get "status") = some c.status
  rejectionReason : fieldOr readText "" (get "rejection_reason") = some c.rejectionReason
  metadata : fieldOr readFields [] (get "metadata") = some c.metadata
  payloadHash : fieldOr readText "" (get "payload_hash") = some c.payloadHash
  scopeAccountId : fieldOr readText "" (get "scope_account_id") = some c.scopeAccountId
  scopeRoomId : fieldOr readText "" (get "scope_room_id") = some c.scopeRoomId

variable {v : Conversion} {newId now : String}

theorem ofFields_eq_some {get : String → Option Json} {c : StoredCandidate} :
    ofFields v newId now get = some c ↔ ReadAs v newId now get c := by
  constructor
  · intro h
    obtain ⟨_, id, h⟩ := Option.bind_eq_some_iff.mp h
    obtain ⟨_, createdAt, h⟩ := Option.bind_eq_some_iff.mp h
    obtain ⟨_, sourceRecordIds, h⟩ := Option.bind_eq_some_iff.mp h
    obtain ⟨_, jobId, h⟩ := Option.bind_eq_some_iff.mp h
    obtain ⟨_, targetStore, h⟩ := Option.bind_eq_some_iff.mp h
    obtain ⟨_, payload, h⟩ := Option.bind_eq_some_iff.mp h
    obtain ⟨_, confidence, h⟩ := Option.bind_eq_some_iff.mp h
    obtain ⟨_, status, h⟩ := Option.bind_eq_some_iff.mp h
    obtain ⟨_, rejectionReason, h⟩ := Option.bind_eq_some_iff.mp h
    obtain ⟨_, metadata, h⟩ := Option.bind_eq_some_iff.mp h
    obtain ⟨_, payloadHash, h⟩ := Option.bind_eq_some_iff.mp h
    obtain ⟨_, scopeAccountId, h⟩ := Option.bind_eq_some_iff.mp h
    obtain ⟨_, scopeRoomId, h⟩ := Option.bind_eq_some_iff.mp h
    cases h
    exact { id, createdAt, sourceRecordIds, jobId, targetStore, payload, confidence, status,
            rejectionReason, metadata, payloadHash, scopeAccountId, scopeRoomId }
  · intro h
    simp only [ofFields, h.id, h.createdAt, h.sourceRecordIds, h.jobId, h.targetStore, h.payload,
      h.confidence, h.status, h.rejectionReason, h.metadata, h.payloadHash, h.scopeAccountId,
      h.scopeRoomId, Option.bind_eq_bind, Option.bind_some, Option.pure_def]

theorem modelValidate_obj_iff {fields : List (String × Json)} {c : StoredCandidate} :
    modelValidate v newId now (.obj fields) = some c ↔
      ReadAs v newId now (Dict.lookup · fields) c := by
  rw [modelValidate, ofFields_eq_some]

theorem readTexts_map (l : List String) : readTexts (.arr (l.map .str)) = some l := by
  rw [readTexts]
  induction l with
  | nil => rfl
  | cons s l ih => rw [List.map_cons, List.mapM_cons, ih]; rfl

/-- What is dumped validates. -/
theorem modelValidate_modelDump (c : StoredCandidate) :
    modelValidate v newId now c.modelDump = some c := by
  refine modelValidate_obj_iff.mpr ?_
  constructor <;>
    simp [fields, Dict.lookup, fieldOr, readText, readStore, readStatus, readFields,
      readTexts_map, FieldKind.number?, Json.number?]

end StoredCandidate

/-! ## The store -/

/-- What the store relies on: JSON lines, comparison of texts, conversions, digests, and what is
drawn for a record without an id or a time. -/
structure CandidateSetup extends JsonText where
  serialises : Json → Bool
  same : Json → Json → Bool
  same_text : ∀ j t, same j (.str t) = true ↔ j = .str t
  conv : Conversion
  digests : Digests
  hexdigest : ∀ s, digests.sha256 s ≠ ""
  newId : String
  now : String

namespace CandidateSetup

variable (u : CandidateSetup)

def backend : Backend StoredCandidate where
  toJsonText := u.toJsonText
  serialises := u.serialises
  same := u.same
  validate := StoredCandidate.modelValidate u.conv u.newId u.now

/-- The item with its hash, which is made where there is none. -/
def hashed (item : StoredCandidate) : Except String StoredCandidate :=
  if item.payloadHash = "" then do
    let payloadHash ← u.digests.computeCandidateHash item.targetStore.text item.payload
      item.scopeAccountId item.scopeRoomId
    return { item with payloadHash }
  else .ok item

/-- What `_has_pending_duplicate` filters by. -/
def duplicateFilters (item : MemoryCandidate) : List (String × Json) :=
  [("target_store", .str item.targetStore.text), ("scope_account_id", .str item.scopeAccountId),
    ("scope_room_id", .str item.scopeRoomId), ("payload_hash", .str item.payloadHash)]

/-- Nothing comes of it where the listing raises. -/
def hasPendingDuplicate (s : JsonlStore) (item : StoredCandidate) : Option Bool :=
  if item.payloadHash = "" then some false
  else (u.backend.listFiltered (duplicateFilters item.toMemoryCandidate) s).map fun found =>
    found.any fun existing => existing.status ∈ [.pending, .promoted, .needsReview]

inductive AddOutcome where
  | raised | skipped | added
deriving DecidableEq

def add (allowDuplicates : Bool) (s : JsonlStore) (item : StoredCandidate) (taken : Bool) :
    AddOutcome × JsonlStore :=
  match u.hashed item with
  | .error _ => (.raised, s)
  | .ok item =>
    match if allowDuplicates then some false else u.hasPendingDuplicate s item with
    | none => (.raised, (s.loadAll u.toJsonText).2)
    | some true => (.skipped, (s.loadAll u.toJsonText).2)
    | some false =>
      match u.backend.call s (.add item.modelDump taken) with
      | (.raised, s) => (.raised, s)
      | (_, s) => (.added, s)

/-- The changes of an update of the status, with a reason or without. -/
def statusChanges (status : CandidateStatus) (rejectionReason : Option String) :
    List (String × Json) :=
  ("status", .str status.text) ::
    (rejectionReason.map fun reason => ("rejection_reason", Json.str reason)).toList

inductive Call where
  | add (item : StoredCandidate) (taken : Bool)
  | update (itemId : String) (status : CandidateStatus) (rejectionReason : Option String)
    (now : String) (taken : Bool)

def step (s : JsonlStore) : Call → JsonlStore
  | .add item taken => (u.add false s item taken).2
  | .update itemId status rejectionReason now taken =>
    (u.backend.call s (.update itemId (statusChanges status rejectionReason) now taken)).2

/-- What `list_all` makes of the records. -/
def stored (entries : List Json) : List MemoryCandidate :=
  entries.filterMap fun e => (u.backend.validate e).map (·.toMemoryCandidate)

/-- The candidates that are stored. -/
def candidates (s : JsonlStore) : List MemoryCandidate := u.stored (u.backend.records s)

/-- The record that a call writes. -/
def written? (s : JsonlStore) : Call → Option Json
  | .add item _ => match u.hashed item with
    | .error _ => none
    | .ok item =>
      if u.hasPendingDuplicate s item = some false then some item.modelDump else none
  | .update itemId status rejectionReason now _ => match locate itemId (u.backend.records s) with
    | .found _ fields _ => some (.obj (changed (statusChanges status rejectionReason) now fields))
    | _ => none

/-! ## What a history meets -/

/-- What is written is read as it was where its line is whole. -/
def Reads (s : JsonlStore) (c : Call) : Prop :=
  ∀ r, u.written? s c = some r → u.loads (u.dumps r) = some r

/-- An update finds a candidate, and leaves a rejected one rejected. -/
def KeepsRejected (s : JsonlStore) : Call → Prop
  | .add _ _ => True
  | .update itemId status _ _ _ => ∀ front fields back,
      locate itemId (u.backend.records s) = .found front fields back →
        ∃ c, u.backend.validate (.obj fields) = some c ∧
          (c.status = .rejected → status = .rejected)

/-- A record is written in one line, or no piece of it is a candidate. -/
def Whole (r : Json) : Prop :=
  r.Unbroken ∨ ∀ p ∈ pieces u.toJsonText r, u.backend.validate p = none

def WritesWhole (s : JsonlStore) (c : Call) : Prop := ∀ r, u.written? s c = some r → u.Whole r

variable {u} {s : JsonlStore}

/-! ## What records keep -/

/-- A record that is read as it was, in one line or in none that makes a candidate, and that has
all that duplicates are found by, if it is a candidate itself. -/
structure Sound (u : CandidateSetup) (e : Json) : Prop where
  reads : u.loads (u.dumps e) = some e
  whole : u.Whole e
  filed : ∀ fields c, e = .obj fields → u.backend.validate e = some c →
    ∀ f ∈ duplicateFilters c.toMemoryCandidate, Dict.lookup f.1 fields = some f.2

theorem stored_append (es es' : List Json) :
    u.stored (es ++ es') = u.stored es ++ u.stored es' := List.filterMap_append

theorem pieces_of_unbroken {e : Json} (hreads : u.loads (u.dumps e) = some e) (h : e.Unbroken) :
    (pieces u.toJsonText e).Sublist [e] := by
  rw [pieces, List.splitOnP_eq_singleton (JsonWriter.unbroken_iff.mp h)]
  unfold readLines
  rw [List.filterMap_cons]
  split
  · exact List.nil_sublist _
  next hread =>
    split at hread
    · cases hread
    · cases hreads.symm.trans hread
      exact List.Sublist.refl _

/-- What is read of a record is the record, unless it is no candidate. -/
theorem Sound.of_piece {e p : Json} (h : Sound u e) (hp : p ∈ pieces u.toJsonText e) :
    Sound u p := by
  obtain ⟨hunbroken, hreads⟩ := mem_pieces h.reads hp
  refine ⟨hreads, .inl hunbroken, ?_⟩
  rcases h.whole with hwhole | hnone
  · rw [List.mem_singleton.mp ((pieces_of_unbroken h.reads hwhole).subset hp)]
    exact h.filed
  · intro fields c _ hvalid
    rw [hnone p hp] at hvalid
    cases hvalid

theorem Sound.stored_pieces {e : Json} (h : Sound u e) :
    (u.stored (pieces u.toJsonText e)).Sublist (u.stored [e]) := by
  rcases h.whole with hwhole | hnone
  · exact (pieces_of_unbroken h.reads hwhole).filterMap _
  · have hempty : u.stored (pieces u.toJsonText e) = [] :=
      List.filterMap_eq_nil_iff.mpr fun p hp => by rw [hnone p hp, Option.map_none]
    rw [hempty]
    exact List.nil_sublist _

theorem stored_flatMap {es : List Json} (h : ∀ e ∈ es, Sound u e) :
    (u.stored (es.flatMap (pieces u.toJsonText))).Sublist (u.stored es) := by
  induction es with
  | nil => exact List.Sublist.refl _
  | cons e es ih =>
    have hrest := ih fun e he => h e (List.mem_cons_of_mem _ he)
    have hhead := (h e List.mem_cons_self).stored_pieces
    have hsub := hhead.append hrest
    rwa [← stored_append, ← stored_append] at hsub

/-- Writing a list of records loses candidates at most. -/
theorem sound_kept {es : List Json} (h : ∀ e ∈ es, Sound u e) (taken : Bool) :
    (∀ e ∈ (u.backend.kept es taken).2, Sound u e) ∧
      (u.stored (u.backend.kept es taken).2).Sublist (u.stored es) := by
  unfold Backend.kept
  split
  · refine ⟨fun p hp => ?_, stored_flatMap h⟩
    obtain ⟨e, he, hp⟩ := List.mem_flatMap.mp hp
    exact (h e he).of_piece hp
  · exact ⟨h, List.Sublist.refl _⟩

/-! ## Additions -/

theorem validate_obj_iff {fields : List (String × Json)} {c : StoredCandidate} :
    u.backend.validate (.obj fields) = some c ↔
      StoredCandidate.ReadAs u.conv u.newId u.now (Dict.lookup · fields) c :=
  StoredCandidate.modelValidate_obj_iff

theorem validate_modelDump (item : StoredCandidate) :
    u.backend.validate item.modelDump = some item :=
  StoredCandidate.modelValidate_modelDump item

theorem lookup_fields (item : StoredCandidate) :
    ∀ f ∈ duplicateFilters item.toMemoryCandidate, Dict.lookup f.1 item.fields = some f.2 := by
  intro f hf
  simp only [duplicateFilters, List.mem_cons, List.not_mem_nil, or_false] at hf
  rcases hf with rfl | rfl | rfl | rfl <;> simp [StoredCandidate.fields, Dict.lookup]

theorem sound_modelDump {item : StoredCandidate}
    (hreads : u.loads (u.dumps item.modelDump) = some item.modelDump)
    (hwhole : u.Whole item.modelDump) : Sound u item.modelDump := by
  refine ⟨hreads, hwhole, ?_⟩
  intro fields c hfields hvalid
  rw [validate_modelDump] at hvalid
  rw [← Option.some.inj hvalid, ← Json.obj.inj hfields]
  exact lookup_fields item

theorem hashed_ne {item item' : StoredCandidate} (h : u.hashed item = .ok item') :
    item'.payloadHash ≠ "" := by
  unfold hashed at h
  split at h
  · obtain ⟨payloadHash, hhash, hitem⟩ := bind_ok h
    cases hitem
    obtain ⟨_, _, hdigest⟩ := bind_ok hhash
    obtain ⟨_, _, hsum⟩ := bind_ok hdigest
    cases hsum
    exact u.hexdigest _
  · cases h
    assumption

theorem mem_stored {es : List Json} {c : MemoryCandidate} (h : c ∈ u.stored es) :
    ∃ fields d, .obj fields ∈ es ∧ u.backend.validate (.obj fields) = some d ∧
      d.toMemoryCandidate = c := by
  obtain ⟨e, he, hc⟩ := List.mem_filterMap.mp h
  obtain ⟨d, hvalid, rfl⟩ := Option.map_eq_some_iff.mp hc
  cases e with
  | obj fields => exact ⟨fields, d, he, hvalid, rfl⟩
  | _ => cases hvalid

/-- A listing that finds no duplicate has missed none. -/
theorem not_duplicate (hsound : ∀ e ∈ u.backend.records s, Sound u e) {item : StoredCandidate}
    (h : u.hasPendingDuplicate s item = some false) :
    MemoryCandidateStore.hasPendingDuplicate (u.candidates s) item.toMemoryCandidate = false := by
  unfold hasPendingDuplicate at h
  split at h
  · next hhash => simp [MemoryCandidateStore.hasPendingDuplicate, hhash]
  obtain ⟨found, hlist, hnone⟩ := Option.map_eq_some_iff.mp h
  rw [Backend.listFiltered_eq] at hlist
  rw [MemoryCandidateStore.hasPendingDuplicate, Bool.and_eq_false_imp]
  refine fun _ => List.any_eq_false.mpr fun c hc hsame => ?_
  obtain ⟨fields, d, he, hvalid, rfl⟩ := mem_stored hc
  simp only [Bool.and_eq_true, decide_eq_true_eq] at hsame
  obtain ⟨⟨⟨⟨hstore, haccount⟩, hroom⟩, hhash⟩, hstatus⟩ := hsame
  have hfilters : duplicateFilters item.toMemoryCandidate =
      duplicateFilters d.toMemoryCandidate := by
    simp [duplicateFilters, hstore, haccount, hroom, hhash]
  have hfits : u.backend.fits (duplicateFilters item.toMemoryCandidate) (.obj fields) =
      some true := by
    rw [Backend.fits, hfilters]
    refine congrArg some (List.all_eq_true.mpr fun f hf => ?_)
    rw [(hsound _ he).filed fields d rfl hvalid f hf]
    simp only [duplicateFilters, List.mem_cons, List.not_mem_nil, or_false] at hf
    rcases hf with rfl | rfl | rfl | rfl <;> exact (u.same_text _ _).mpr rfl
  have hmem : d ∈ found := (Backend.mem_filtered hlist).mpr ⟨_, he, hfits, hvalid⟩
  have hopen := List.any_eq_false.mp hnone d hmem
  revert hstatus hopen
  cases d.status <;> simp

/-- What a history keeps. -/
structure Kept (u : CandidateSetup) (s : JsonlStore) : Prop where
  sound : ∀ e ∈ u.backend.records s, Sound u e
  unique : MemoryCandidateStore.Unique (u.candidates s)

theorem Kept.of_records {t : JsonlStore} (h : Kept u s)
    (hsame : u.backend.records t = u.backend.records s) : Kept u t := by
  have hcandidates : u.candidates t = u.candidates s := by rw [candidates, hsame, candidates]
  exact ⟨hsame ▸ h.sound, hcandidates ▸ h.unique⟩

/-- A list of records is kept where it is written, if it can be. -/
theorem Kept.write {t : JsonlStore} {es : List Json} {taken : Bool} (hsound : ∀ e ∈ es, Sound u e)
    (hunique : MemoryCandidateStore.Unique (u.stored es))
    (ht : u.backend.records t = (u.backend.kept es taken).2) : Kept u t := by
  obtain ⟨hkept, hsub⟩ := sound_kept hsound taken
  refine ⟨ht ▸ hkept, hunique.sublist ?_⟩
  rw [candidates, ht]
  exact hsub

theorem candidates_added (item : StoredCandidate)
    (hdup : MemoryCandidateStore.hasPendingDuplicate (u.candidates s) item.toMemoryCandidate =
      false) : u.stored (u.backend.records s ++ [item.modelDump]) =
      MemoryCandidateStore.add false (u.candidates s) item.toMemoryCandidate := by
  have hitem : u.stored [item.modelDump] = [item.toMemoryCandidate] := by
    rw [stored, List.filterMap_cons, validate_modelDump]
    rfl
  rw [stored_append, hitem, MemoryCandidateStore.add, hdup]
  rfl

theorem Kept.add {item : StoredCandidate} {taken : Bool} (h : Kept u s)
    (hreads : u.Reads s (.add item taken)) (hwhole : u.WritesWhole s (.add item taken)) :
    Kept u (u.add false s item taken).2 := by
  have hload : Kept u (s.loadAll u.toJsonText).2 :=
    h.of_records (Backend.records_loadAll (b := u.backend))
  unfold CandidateSetup.add
  cases hhashed : u.hashed item with
  | error _ => exact h
  | ok item' =>
    dsimp only
    rw [if_neg Bool.false_ne_true]
    cases hdup : u.hasPendingDuplicate s item' with
    | none => exact hload
    | some found =>
      cases found with
      | true => exact hload
      | false =>
        have hwritten : u.written? s (.add item taken) = some item'.modelDump := by
          simp only [written?, hhashed, hdup, if_true]
        have hrecord := sound_modelDump (hreads _ hwritten) (hwhole _ hwritten)
        have hnew := candidates_added item' (not_duplicate h.sound hdup)
        have hadded : Kept u (u.backend.call s (.add item'.modelDump taken)).2 := by
          refine Kept.write (fun e he => ?_) (hnew ▸ h.unique.add (hashed_ne hhashed))
            (u.backend.call_records s (.add item'.modelDump taken)).2
          rcases List.mem_append.mp he with he | he
          · exact h.sound e he
          · rw [List.mem_singleton.mp he]
            exact hrecord
        dsimp only
        split <;> next hcall => rw [hcall] at hadded; exact hadded

/-! ## Updates -/

section Changes

variable (status : CandidateStatus) (rejectionReason : Option String) (now : String)
  (fields : List (String × Json))

/-- What an update of the status leaves of the values of a record. -/
theorem lookup_changed (k : String) :
    Dict.lookup k (changed (statusChanges status rejectionReason) now fields) =
      if "updated_at" = k then some (.str now)
      else if "rejection_reason" = k then (rejectionReason.map Json.str).or (Dict.lookup k fields)
      else if "status" = k then some (.str status.text)
      else Dict.lookup k fields := by
  unfold changed statusChanges
  cases rejectionReason with
  | none =>
    by_cases hk : "rejection_reason" = k
    · simp [Dict.lookup_write, ← hk]
    · simp [Dict.lookup_write, hk]
  | some reason =>
    change Dict.lookup k (Dict.write _ _ (Dict.write _ _ (Dict.write _ _ fields))) = _
    rw [Dict.lookup_write, Dict.lookup_write, Dict.lookup_write]
    rfl

theorem lookup_changed_of_ne {k : String}
    (hk : k ∉ ["updated_at", "rejection_reason", "status"]) :
    Dict.lookup k (changed (statusChanges status rejectionReason) now fields) =
      Dict.lookup k fields := by
  simp only [List.mem_cons, List.not_mem_nil, or_false, not_or] at hk
  rw [lookup_changed, if_neg (Ne.symm hk.1), if_neg (Ne.symm hk.2.1), if_neg (Ne.symm hk.2.2)]

variable {fields}

/-- A candidate stays one, with its new status. -/
theorem validate_changed {c : StoredCandidate}
    (h : u.backend.validate (.obj fields) = some c) :
    u.backend.validate (.obj (changed (statusChanges status rejectionReason) now fields)) =
      some { c with status, rejectionReason := rejectionReason.getD c.rejectionReason } := by
  have hread := validate_obj_iff.mp h
  refine validate_obj_iff.mpr ?_
  have hsame := fun {k} => lookup_changed_of_ne status rejectionReason now fields (k := k)
  constructor
  case status =>
    rw [lookup_changed]
    exact CandidateStatus.ofText?_text status
  case rejectionReason =>
    rw [lookup_changed, if_neg (by decide), if_pos rfl]
    cases rejectionReason with
    | none => exact hread.rejectionReason
    | some reason => rfl
  all_goals rw [hsame (by decide)]
  · exact hread.id
  · exact hread.createdAt
  · exact hread.sourceRecordIds
  · exact hread.jobId
  · exact hread.targetStore
  · exact hread.payload
  · exact hread.confidence
  · exact hread.metadata
  · exact hread.payloadHash
  · exact hread.scopeAccountId
  · exact hread.scopeRoomId

theorem sound_changed {c : StoredCandidate} (h : Sound u (.obj fields))
    (hvalid : u.backend.validate (.obj fields) = some c)
    (hreads : u.loads (u.dumps (.obj (changed (statusChanges status rejectionReason) now fields))) =
      some (.obj (changed (statusChanges status rejectionReason) now fields)))
    (hwhole : u.Whole (.obj (changed (statusChanges status rejectionReason) now fields))) :
    Sound u (.obj (changed (statusChanges status rejectionReason) now fields)) := by
  refine ⟨hreads, hwhole, ?_⟩
  intro fields' c' hfields hvalid' f hf
  rw [validate_changed status rejectionReason now hvalid] at hvalid'
  cases hvalid'
  cases hfields
  have hkey : f.1 ∉ ["updated_at", "rejection_reason", "status"] := by
    simp only [duplicateFilters, List.mem_cons, List.not_mem_nil, or_false] at hf
    rcases hf with rfl | rfl | rfl | rfl <;> simp
  rw [lookup_changed_of_ne _ _ _ _ hkey]
  exact h.filed fields c rfl hvalid f hf

end Changes

theorem stored_cons {e : Json} {c : StoredCandidate} (h : u.backend.validate e = some c)
    (es : List Json) : u.stored (e :: es) = c.toMemoryCandidate :: u.stored es := by
  rw [stored, List.filterMap_cons, h]
  rfl

theorem Kept.update {itemId now : String} {status : CandidateStatus}
    {rejectionReason : Option String} {taken : Bool} (h : Kept u s)
    (hreads : u.Reads s (.update itemId status rejectionReason now taken))
    (hkeeps : u.KeepsRejected s (.update itemId status rejectionReason now taken))
    (hwhole : u.WritesWhole s (.update itemId status rejectionReason now taken)) :
    Kept u (u.step s (.update itemId status rejectionReason now taken)) := by
  have hrecords := (u.backend.call_records s
    (.update itemId (statusChanges status rejectionReason) now taken)).2
  cases hlocate : locate itemId (u.backend.records s) with
  | absent =>
    simp only [Backend.onRecords, hlocate] at hrecords
    exact h.of_records hrecords
  | broken =>
    simp only [Backend.onRecords, hlocate] at hrecords
    exact h.of_records hrecords
  | found front fields back =>
    simp only [Backend.onRecords, hlocate] at hrecords
    obtain ⟨c, hvalid, hstatus⟩ := hkeeps front fields back hlocate
    have hwritten : u.written? s (.update itemId status rejectionReason now taken) =
        some (.obj (changed (statusChanges status rejectionReason) now fields)) := by
      simp only [written?, hlocate]
    have hall := Backend.locate_found hlocate
    have hold : Sound u (.obj fields) := h.sound _ (hall ▸ by simp)
    have hnew := sound_changed status rejectionReason now hold hvalid (hreads _ hwritten)
      (hwhole _ hwritten)
    refine Kept.write (fun e he => ?_) ?_ hrecords
    · rcases List.mem_append.mp he with he | he
      · exact h.sound e (hall ▸ List.mem_append_left _ he)
      · rcases List.mem_cons.mp he with rfl | he
        · exact hnew
        · exact h.sound e (hall ▸ List.mem_append_right _ (List.mem_cons_of_mem _ he))
    · have hunique := h.unique
      rw [candidates, ← hall, stored_append, stored_cons hvalid] at hunique
      rw [stored_append, stored_cons (validate_changed status rejectionReason now hvalid)]
      exact hunique.update rfl rfl rfl rfl hstatus

/-- One call keeps what is kept. -/
theorem Kept.step {c : Call} (h : Kept u s)
    (hc : u.Reads s c ∧ u.KeepsRejected s c ∧ u.WritesWhole s c) : Kept u (u.step s c) := by
  obtain ⟨hreads, hkeeps, hwhole⟩ := hc
  cases c with
  | add item taken => exact h.add hreads hwhole
  | update itemId status rejectionReason now taken => exact h.update hreads hkeeps hwhole

/-- A store has the file of another one, and later calls get the same answers. -/
def Unchanged (u : CandidateSetup) (s t : JsonlStore) : Prop :=
  t.file = s.file ∧ ∀ later, u.backend.answers t later = u.backend.answers s later

theorem skipped_unchanged (u : CandidateSetup) (s : JsonlStore) (item : StoredCandidate)
    (taken : Bool) (h : (u.add false s item taken).1 = .skipped) :
    u.Unchanged s (u.add false s item taken).2 := by
  have hload : (u.add false s item taken).2 = (s.loadAll u.toJsonText).2 := by
    unfold add at h ⊢
    cases hhashed : u.hashed item with
    | error _ =>
      rw [hhashed] at h
      cases h
    | ok item' =>
      simp only [hhashed, if_neg Bool.false_ne_true] at h ⊢
      cases hdup : u.hasPendingDuplicate s item' with
      | none => simp [hdup] at h
      | some found =>
        cases found with
        | true => rfl
        | false =>
          simp only [hdup] at h
          split at h <;> cases h
  rw [hload]
  refine ⟨?_, Backend.answers_of_records (Backend.records_loadAll (b := u.backend))⟩
  unfold JsonlStore.loadAll
  split <;> rfl

end CandidateSetup
open CandidateSetup

/-- In every history whose records are written in one line each, no two stored candidates stand
for the same, each has a hash, and an addition that is skipped changes nothing. -/
theorem candidates_run_unique (u : CandidateSetup) (calls : List Call)
    (h : Machine.Guarded u.step (fun s c => u.Reads s c ∧ u.KeepsRejected s c ∧ u.WritesWhole s c)
      {} calls) :
    MemoryCandidateStore.Unique (u.candidates (Machine.run u.step {} calls)) ∧
      ∀ item taken, (u.add false (Machine.run u.step {} calls) item taken).1 = .skipped →
        u.Unchanged (Machine.run u.step {} calls)
          (u.add false (Machine.run u.step {} calls) item taken).2 := by
  have hstart : Kept u {} :=
    ⟨fun _ he => absurd he List.not_mem_nil, MemoryCandidateStore.Unique.nil⟩
  exact ⟨(h.inv (Kept u) (fun _ _ => Kept.step) hstart).unique, skipped_unchanged u _⟩

/-! ## One candidate -/

/-- A store whose library reads the records of a table. -/
def tableSetup (table : List Json) : CandidateSetup where
  toJsonText := .ofTable plainWriter table
  serialises _ := true
  same
    | .str s, .str t => s == t
    | _, _ => false
  same_text j t := by cases j <;> simp
  conv := .plain
  digests := ⟨fun _ => .error "Type is not JSON serializable", fun _ => "0"⟩
  hexdigest _ := by simp
  newId := "c2"
  now := "t2"

/-- A candidate that is hashed already. -/
def wish (content : String) : StoredCandidate where
  id := "c1"
  createdAt := "t1"
  sourceRecordIds := ["r1"]
  targetStore := .semantic
  payload := [("content", .str content)]
  confidence := 0
  payloadHash := "h1"

theorem eq_of_written?_wish {table : List Json} {s : JsonlStore} {content : String} {r : Json}
    (hr : (tableSetup table).written? s (.add (wish content) true) = some r) :
    r = (wish content).modelDump := by
  have hhashed : (tableSetup table).hashed (wish content) = .ok (wish content) := rfl
  rw [written?, hhashed] at hr
  exact (Option.some.inj (Option.ite_none_right_eq_some.mp hr).2).symm

theorem records_wish (table : List Json) (content : String) :
    (tableSetup table).backend.records
        (Machine.run (tableSetup table).step {} [.add (wish content) true]) =
      pieces (.ofTable plainWriter table) (wish content).modelDump := by
  have hrecords := ((tableSetup table).backend.call_records {}
    (.add (wish content).modelDump true)).2
  exact hrecords.trans (List.append_nil _)

/-- The same wish, twice. -/
theorem candidates_run_unique_wish : MemoryCandidateStore.Unique
    ((tableSetup [(wish "likes trees").modelDump]).candidates
      (Machine.run (tableSetup [(wish "likes trees").modelDump]).step {}
        [.add (wish "likes trees") true, .add (wish "likes trees") true])) := by
  have hreads : ∀ s, (tableSetup [(wish "likes trees").modelDump]).Reads s
      (.add (wish "likes trees") true) := by
    intro s r hr
    rw [eq_of_written?_wish hr]
    exact (isRecord_ofTable rfl).reads
  have hwhole : ∀ s, (tableSetup [(wish "likes trees").modelDump]).WritesWhole s
      (.add (wish "likes trees") true) := by
    intro s r hr
    rw [eq_of_written?_wish hr]
    exact .inl (unbroken_of_all (by decide))
  exact (candidates_run_unique (tableSetup [(wish "likes trees").modelDump])
    [.add (wish "likes trees") true, .add (wish "likes trees") true]
    ⟨⟨hreads _, trivial, hwhole _⟩, ⟨hreads _, trivial, hwhole _⟩, trivial⟩).1

/-- A wish with an empty object between line separators. -/
def brokenWish : StoredCandidate := wish "likes\u2028\x7b\x7d\u2028trees"

/-- What a library reads that reads the broken wish as well as an empty object. -/
def brokenSetup : CandidateSetup := tableSetup [brokenWish.modelDump, .obj []]

/-- A piece of a record is read as a candidate without a hash. -/
theorem piece_not_hashed :
    ¬ ∀ (u : CandidateSetup) (calls : List Call),
      Machine.Guarded u.step (fun s c => u.Reads s c ∧ u.KeepsRejected s c) {} calls →
        MemoryCandidateStore.Unique (u.candidates (Machine.run u.step {} calls)) := by
  intro h
  have hreads : brokenSetup.loads (brokenSetup.dumps brokenWish.modelDump) =
      some brokenWish.modelDump := by
    simp [brokenSetup, tableSetup, JsonText.ofTable]
  have hpiece : brokenSetup.loads ['\x7b', '\x7d'] = some (.obj []) := by
    have hother : ¬ plainWriter.dumps brokenWish.modelDump = ['\x7b', '\x7d'] := by decide +kernel
    have hempty : plainWriter.dumps (.obj []) = ['\x7b', '\x7d'] := by decide +kernel
    simp [brokenSetup, tableSetup, JsonText.ofTable, hother, hempty]
  have hread : Json.obj [] ∈ pieces brokenSetup.toJsonText brokenWish.modelDump := by
    refine List.mem_filterMap.mpr ⟨['\x7b', '\x7d'], by decide +kernel, ?_⟩
    rw [if_neg (by decide)]
    exact hpiece
  have hunique := h brokenSetup [.add brokenWish true] ⟨⟨fun r hr => ?_, trivial⟩, trivial⟩
  · have hstored : ∃ c ∈ brokenSetup.candidates
        (Machine.run brokenSetup.step {} [.add brokenWish true]), c.payloadHash = "" := by
      refine ⟨_, List.mem_filterMap.mpr ⟨.obj [], ?_, rfl⟩, rfl⟩
      exact (records_wish _ _).symm ▸ hread
    obtain ⟨c, hc, hhash⟩ := hstored
    exact hunique.hashed c hc hhash
  · rw [eq_of_written?_wish hr]
    exact hreads

end IrisMind.Memory
