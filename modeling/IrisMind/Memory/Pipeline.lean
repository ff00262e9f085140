import IrisMind.Memory.Extraction
import IrisMind.Memory.Failures

/-! # A pass of the pipeline

A pass collects records, has them extracted under a job and has the candidates
promoted. The records come from an archive of all accounts and rooms, by their
ids or as the last ones; the job's account and room play no part in that. -/
namespace IrisMind.Memory
open IrisMind.Lib

structure MemoryConsolidationRecord where
  sourceRecordIds : List String
  candidateIds : List String
  createdMemoryIds : List String
  rejectedCandidateIds : List String
  confidence : ℚ
  notes : String

/-- `_record_status` -/
def MemoryCandidate.recordStatus (c : MemoryCandidate) (d : Decision) : MemoryCandidate :=
  match d.1 with
  | .rejected => { c with status := .rejected, rejectionReason := d.2 }
  | .needsReview => { c with status := .needsReview, rejectionReason := d.2 }
  | _ => { c with status := .promoted, rejectionReason := "" }

/-- What comes of the promotion of candidates: the exception that ended it, and the candidates
that have been decided about until then. -/
structure Evaluated where
  raised : Option String := none
  decided : List (MemoryCandidate × Decision) := []
  policy : PromotionPolicy

namespace PromotionPolicy

variable (v : Conversion) (config : PromotionConfig)

/-- The loop of `evaluate`. -/
def promoteAll : PromotionPolicy → List PromoteCall → Evaluated
  | p, [] => { policy := p }
  | p, call :: calls =>
    match promote v config p call with
    | (.error e, p) => { raised := some e, policy := p }
    | (.ok d, p) =>
      let rest := promoteAll p calls
      { rest with decided := (call.candidate.recordStatus d, d) :: rest.decided }

def consolidationRecord (decided : List (MemoryCandidate × Decision)) :
    MemoryConsolidationRecord :=
  let promoted := decided.filter (·.2.1 = .promoted)
  let rejected := decided.filter (·.2.1 ≠ .promoted)
  { sourceRecordIds := (decided.flatMap (·.1.sourceRecordIds)).eraseDups
    candidateIds := decided.map (·.1.id)
    createdMemoryIds := promoted.map (·.1.id)
    rejectedCandidateIds := rejected.map (·.1.id)
    confidence := if promoted.isEmpty then 0
      else (promoted.map (·.1.confidence)).sum / promoted.length
    notes := "; ".intercalate (rejected.map fun e => e.1.targetStore.text ++ ":" ++ e.2.2) }

/-- `evaluate`, where there may be a log. -/
def evaluate (logging : Writing) (p : PromotionPolicy) (calls : List PromoteCall)
    (log : Option (List MemoryConsolidationRecord)) :
    Evaluated × Option (List MemoryConsolidationRecord) :=
  let evaluated := promoteAll v config p calls
  match evaluated.raised, log with
  | none, some records =>
    ({ evaluated with raised := logging.error? },
      some (logging.leaves records (records ++ [consolidationRecord evaluated.decided])))
  | _, _ => (evaluated, log)

end PromotionPolicy

def MemoryExtractionJobStore.update (jobs : List MemoryExtractionJob) (id : String)
    (change : MemoryExtractionJob → MemoryExtractionJob) : List MemoryExtractionJob :=
  match jobs.find? (·.id = id) with
  | some job => Rows.replaceFirst (·.id = id) (change job) jobs
  | none => jobs

def RawConversationArchiveStore.findById (archive : List Record) (recordId : String) :
    Option Record := archive.find? (idIs recordId)

/-- What a pass meets: fresh ids, the answer of the model, and what comes of the writes. -/
structure Circumstances where
  jobId : String
  invoked : Except String Extracted
  candidateId : Nat → String
  newId : Nat → String := fun _ => ""
  writing : Nat → Writing := fun _ => .done
  listed : Nat → Bool := fun _ => true
  logging : Writing := .done

structure MemoryPipeline where
  enabled : Bool := true
  batchMaxChars : Int := 8000
  extractor : LangMemExtractor := {}
  config : PromotionConfig := {}
  archive : List Record := []
  jobs : List MemoryExtractionJob := []
  candidates : List MemoryCandidate := []
  policy : PromotionPolicy := {}
  log : Option (List MemoryConsolidationRecord) := some []

/-- The arguments of a pass. -/
structure Pass where
  passType : PassType
  sourceRecordIds : Option (List String) := none
  accountId : String := ""
  roomId : String := ""

/-- What a pass leaves: the job and the records that the extractor was given, whether extraction
and promotion failed, the candidates as they were built and as they were decided about, and what
is returned. -/
structure PassResult where
  handed : Option (MemoryExtractionJob × List Record) := none
  extractionFailed : Bool := false
  promotionFailed : Bool := false
  produced : List MemoryCandidate := []
  decided : List MemoryCandidate := []
  returned : List MemoryCandidate := []
  state : MemoryPipeline

namespace MemoryPipeline

variable (v : Conversion) (h : Hashing) (env : Circumstances) (s : MemoryPipeline) (pass : Pass)

/-- The id of a record, as text. -/
def recordId (r : Record) : String := v.strAt "id" "" r

/-- `_batch_window` -/
def batchWindow : Nat := (max 1 (s.batchMaxChars / 200)).toNat

/-- `_collect_records` -/
def collectRecords (sourceRecordIds : Option (List String)) : List String × List Record :=
  match sourceRecordIds with
  | some (id :: ids) =>
    (id :: ids, (id :: ids).filterMap (RawConversationArchiveStore.findById s.archive))
  | _ =>
    let records := s.archive.drop (s.archive.length - s.batchWindow)
    (records.map (recordId v), records)

/-- The job of a pass. -/
def job : MemoryExtractionJob where
  id := env.jobId
  sourceRecordIds := (s.collectRecords v pass.sourceRecordIds).1
  passType := pass.passType
  accountId := pass.accountId
  roomId := pass.roomId

/-- The run of the extractor in a pass. -/
def extraction : Extraction :=
  s.extractor.run v h (s.job v env pass) (s.collectRecords v pass.sourceRecordIds).2
    (fun _ _ => (pass.accountId, pass.roomId)) env.invoked env.candidateId s.candidates

/-- The calls of `promote` in a pass. -/
def calls (candidates : List MemoryCandidate) : List PromoteCall :=
  candidates.zipIdx.map fun c =>
    { candidate := c.1, roomId := pass.roomId, accountId := pass.accountId
      newId := env.newId c.2, writing := env.writing c.2, listed := env.listed c.2 }

/-- The promotion of candidates in a pass. -/
def evaluation (candidates : List MemoryCandidate) :
    Evaluated × Option (List MemoryConsolidationRecord) :=
  s.policy.evaluate v s.config env.logging (calls env pass candidates) s.log

/-- The jobs, where the one of the pass has come to an end. -/
def jobsAfter (status : JobStatus) (error : String) : List MemoryExtractionJob :=
  let job := s.job v env pass
  let jobs := MemoryExtractionJobStore.update (s.jobs ++ [job]) job.id fun job =>
    { job with status := .running }
  MemoryExtractionJobStore.update jobs job.id fun job => { job with status, error }

/-- A pass whose extractor has raised an exception. -/
def failedPass (error : String) : PassResult :=
  let extraction := s.extraction v h env pass
  { handed := some (s.job v env pass, (s.collectRecords v pass.sourceRecordIds).2)
    extractionFailed := true
    produced := extraction.candidates
    state := { s with
      candidates := extraction.store, jobs := s.jobsAfter v env pass .failed error } }

/-- A pass whose extractor has returned. -/
def endedPass : PassResult :=
  let extraction := s.extraction v h env pass
  let (evaluated, log) := s.evaluation v env pass extraction.candidates
  let decided := evaluated.decided.map Prod.fst
  { handed := some (s.job v env pass, (s.collectRecords v pass.sourceRecordIds).2)
    extractionFailed := extraction.swallowed.isSome
    promotionFailed := evaluated.raised.isSome
    produced := extraction.candidates, decided
    returned := decided ++ extraction.candidates.drop decided.length
    state := { s with
      candidates := extraction.store, policy := evaluated.policy, log
      jobs := s.jobsAfter v env pass .succeeded "" } }

def runPass : PassResult :=
  if !s.enabled then { state := s }
  else if (s.collectRecords v pass.sourceRecordIds).2.isEmpty then { state := s }
  else
    match (s.extraction v h env pass).raised with
    | some e => s.failedPass v h env pass e
    | none => s.endedPass v h env pass

/-! ## The scope of a pass -/

/-- A record of an account and a room, where they are given. -/
def Belongs (accountId roomId : String) (r : Record) : Prop :=
  (accountId ≠ "" → Fields.getText "account_id" "" r = accountId) ∧
    (roomId ≠ "" → Fields.getText "room_id" "" r = roomId)

/-- The extractor is given records of the job's scope, and their ids are the sources of the job
and of what it produces. -/
def InScope (r : PassResult) : Prop :=
  ∀ job records, r.handed = some (job, records) →
    (∀ record ∈ records, Belongs job.accountId job.roomId record) ∧
      job.sourceRecordIds = records.map (recordId v) ∧
      ∀ c ∈ r.produced, c.sourceRecordIds = records.map (recordId v)

/-- Without ids, the last records of the archive are of the account and the room of the pass; with
ids, each of them is that of such a record, or none is in the archive. -/
structure KeepsScope (s : MemoryPipeline) (pass : Pass) : Prop where
  window : pass.sourceRecordIds.getD [] = [] →
    ∀ record ∈ s.archive.drop (s.archive.length - s.batchWindow),
      Belongs pass.accountId pass.roomId record
  found : (∀ id ∈ pass.sourceRecordIds.getD [],
      RawConversationArchiveStore.findById s.archive id = none) ∨
    ∀ id ∈ pass.sourceRecordIds.getD [], ∃ record,
      RawConversationArchiveStore.findById s.archive id = some record ∧
        Belongs pass.accountId pass.roomId record

section Scope

variable {v : Conversion} {h : Hashing} {env : Circumstances} {s : MemoryPipeline} {pass : Pass}

theorem recordId_of_findById {archive : List Record} {id : String} {r : Record}
    (hr : RawConversationArchiveStore.findById archive id = some r) : recordId v r = id := by
  have hid : idIs id r = true := List.find?_some hr
  unfold idIs at hid
  split at hid
  · next s hs =>
    rw [recordId, v.strAt_of_text hs]
    exact eq_of_beq hid
  · cases hid

/-- The ids are those of the records that are found exactly if all of them are found. -/
theorem ids_eq_iff {archive : List Record} (ids : List String) :
    ids = (ids.filterMap (RawConversationArchiveStore.findById archive)).map (recordId v) ↔
      ∀ id ∈ ids, (RawConversationArchiveStore.findById archive id).isSome = true := by
  have hlength : ∀ ids : List String, ids.length =
      (ids.filterMap (RawConversationArchiveStore.findById archive)).length →
      ∀ id ∈ ids, (RawConversationArchiveStore.findById archive id).isSome = true := by
    intro ids
    induction ids with
    | nil => exact fun _ id hid => absurd hid List.not_mem_nil
    | cons id ids ih =>
      intro hlen
      cases hfound : RawConversationArchiveStore.findById archive id with
      | none =>
        rw [List.filterMap_cons_none hfound, List.length_cons] at hlen
        have hle := List.length_filterMap_le (RawConversationArchiveStore.findById archive) ids
        omega
      | some r =>
        rw [List.filterMap_cons_some hfound, List.length_cons, List.length_cons] at hlen
        exact List.forall_mem_cons.mpr ⟨by rw [hfound]; rfl, ih (Nat.succ.inj hlen)⟩
  constructor
  · intro heq
    refine hlength ids ?_
    rw [← List.length_map (recordId v), ← heq]
  · intro hall
    induction ids with
    | nil => rfl
    | cons id ids ih =>
      obtain ⟨r, hr⟩ := Option.isSome_iff_exists.mp (hall id List.mem_cons_self)
      rw [List.filterMap_cons_some hr, List.map_cons, recordId_of_findById hr,
        ← ih fun id hid => hall id (List.mem_cons_of_mem _ hid)]

/-- The sources are the ids of the records exactly if every given id is found. -/
theorem collectRecords_iff (sourceRecordIds : Option (List String)) :
    (s.collectRecords v sourceRecordIds).1 =
        (s.collectRecords v sourceRecordIds).2.map (recordId v) ↔
      ∀ id ∈ sourceRecordIds.getD [],
        (RawConversationArchiveStore.findById s.archive id).isSome = true := by
  unfold collectRecords
  split
  · next id ids => exact ids_eq_iff (id :: ids)
  · next hnone =>
    refine iff_of_true rfl fun id hid => ?_
    cases sourceRecordIds with
    | none => exact absurd hid List.not_mem_nil
    | some ids =>
      cases ids with
      | nil => exact absurd hid List.not_mem_nil
      | cons id ids => exact absurd rfl (hnone id ids)

theorem collectRecords_nil (hids : pass.sourceRecordIds.getD [] = []) :
    (s.collectRecords v pass.sourceRecordIds).2 =
      s.archive.drop (s.archive.length - s.batchWindow) := by
  unfold collectRecords
  split
  · next id ids heq =>
    rw [heq] at hids
    cases hids
  · rfl

theorem collectRecords_ids (hids : pass.sourceRecordIds.getD [] ≠ []) :
    (s.collectRecords v pass.sourceRecordIds).2 =
      (pass.sourceRecordIds.getD []).filterMap
        (RawConversationArchiveStore.findById s.archive) := by
  unfold collectRecords
  split
  · next id ids heq =>
    rw [heq]
    rfl
  · next hnone =>
    refine absurd ?_ hids
    cases hgiven : pass.sourceRecordIds with
    | none => rfl
    | some ids =>
      cases ids with
      | nil => rfl
      | cons id ids => exact absurd hgiven (hnone id ids)

/-- What is collected is in the scope, and every id is found, unless nothing is collected. -/
theorem keepsScope_iff : s.KeepsScope pass ↔
    (s.collectRecords v pass.sourceRecordIds).2 = [] ∨
      (∀ record ∈ (s.collectRecords v pass.sourceRecordIds).2,
        Belongs pass.accountId pass.roomId record) ∧
      ∀ id ∈ pass.sourceRecordIds.getD [],
        (RawConversationArchiveStore.findById s.archive id).isSome = true := by
  by_cases hids : pass.sourceRecordIds.getD [] = []
  · rw [collectRecords_nil hids]
    constructor
    · exact fun hkeeps => .inr ⟨hkeeps.window hids, fun id hid => by simp [hids] at hid⟩
    · rintro (hempty | ⟨hbelongs, _⟩)
      · exact ⟨fun _ record hrecord => by simp [hempty] at hrecord, .inl fun id hid => by
          simp [hids] at hid⟩
      · exact ⟨fun _ => hbelongs, .inl fun id hid => by simp [hids] at hid⟩
  · rw [collectRecords_ids hids]
    constructor
    · rintro ⟨_, hnone | hfound⟩
      · exact .inl (List.filterMap_eq_nil_iff.mpr hnone)
      · refine .inr ⟨fun record hrecord => ?_, fun id hid => ?_⟩
        · obtain ⟨id, hid, hrecord⟩ := List.mem_filterMap.mp hrecord
          obtain ⟨record', hfind, hbelongs⟩ := hfound id hid
          cases hrecord.symm.trans hfind
          exact hbelongs
        · obtain ⟨record, hfind, _⟩ := hfound id hid
          exact Option.isSome_iff_exists.mpr ⟨record, hfind⟩
    · rintro (hempty | ⟨hbelongs, hfound⟩)
      · exact ⟨fun hno => absurd hno hids, .inl (List.filterMap_eq_nil_iff.mp hempty)⟩
      · refine ⟨fun hno => absurd hno hids, .inr fun id hid => ?_⟩
        obtain ⟨record, hrecord⟩ := Option.isSome_iff_exists.mp (hfound id hid)
        exact ⟨record, hrecord, hbelongs record (List.mem_filterMap.mpr ⟨id, hid, hrecord⟩)⟩

/-- What is produced has the sources of the job. -/
theorem produced_sources {c : MemoryCandidate} (hc : c ∈ (s.extraction v h env pass).candidates) :
    c.sourceRecordIds = (s.collectRecords v pass.sourceRecordIds).1 :=
  (LangMemExtractor.run_candidates.2 c hc).2

theorem runPass_eq (henabled : s.enabled = true)
    (hrecords : (s.collectRecords v pass.sourceRecordIds).2 ≠ []) :
    s.runPass v h env pass = match (s.extraction v h env pass).raised with
      | some e => s.failedPass v h env pass e
      | none => s.endedPass v h env pass := by
  unfold runPass
  rw [henabled, if_neg (by decide), if_neg (by rw [List.isEmpty_iff]; exact hrecords)]

theorem handed_runPass (henabled : s.enabled = true)
    (hrecords : (s.collectRecords v pass.sourceRecordIds).2 ≠ []) :
    (s.runPass v h env pass).handed =
        some (s.job v env pass, (s.collectRecords v pass.sourceRecordIds).2) ∧
      (s.runPass v h env pass).produced = (s.extraction v h env pass).candidates := by
  rw [runPass_eq henabled hrecords]
  split <;> exact ⟨rfl, rfl⟩

theorem handed_none (hnone : s.enabled = false ∨
    (s.collectRecords v pass.sourceRecordIds).2 = []) :
    (s.runPass v h env pass).handed = none := by
  unfold runPass
  rcases hnone with hoff | hempty
  · rw [hoff]
    rfl
  · split
    · rfl
    · rw [hempty]
      rfl

end Scope

/-- A pass keeps to its scope exactly if the pipeline is off, or what the archive has for it is of
its account and room. -/
theorem runPass_inScope_iff (v : Conversion) (h : Hashing) (env : Circumstances)
    (s : MemoryPipeline) (pass : Pass) :
    InScope v (s.runPass v h env pass) ↔
      s.enabled = false ∨ s.KeepsScope pass := by
  rw [keepsScope_iff (v := v)]
  by_cases hnone : s.enabled = false ∨ (s.collectRecords v pass.sourceRecordIds).2 = []
  · refine iff_of_true (fun job records hhanded => ?_) (hnone.imp_right .inl)
    rw [handed_none hnone] at hhanded
    cases hhanded
  · obtain ⟨hon, hrecords⟩ := not_or.mp hnone
    obtain ⟨hhanded, hproduced⟩ :=
      @handed_runPass v h env s pass (Bool.not_eq_false _ ▸ hon) hrecords
    rw [← collectRecords_iff (v := v)]
    constructor
    · intro hscope
      obtain ⟨hbelongs, hsources, _⟩ := hscope _ _ hhanded
      exact .inr (.inr ⟨hbelongs, hsources⟩)
    · rintro (hoff | hempty | ⟨hbelongs, hsources⟩)
      · exact absurd hoff hon
      · exact absurd hempty hrecords
      · intro job records heq
        rw [hhanded] at heq
        cases heq
        refine ⟨hbelongs, hsources, fun c hc => ?_⟩
        rw [hproduced] at hc
        rw [produced_sources hc]
        exact hsources

/-- What two accounts have said. -/
def shared : MemoryPipeline where
  archive := [[("id", .str "r1"), ("content", .str "I like tea"), ("account_id", .str "ann")],
    [("id", .str "r2"), ("content", .str "I like beer"), ("account_id", .str "bob")]]

/-- A pass for one account is given what the other has said. -/
theorem other_account_extracted :
    ¬ ∀ (v : Conversion) (h : Hashing) (env : Circumstances) (s : MemoryPipeline) (pass : Pass),
      InScope v (s.runPass v h env pass) := by
  intro hall
  have hscope := hall .plain ⟨fun _ _ _ _ => .ok "h"⟩
    { jobId := "j1", invoked := .ok .none, candidateId := toString } shared
    { passType := .semantic, accountId := "ann" }
  obtain ⟨hbelongs, _⟩ := hscope _ _ (handed_runPass (by decide) (by simp [collectRecords, shared,
    batchWindow])).1
  have hbob := (hbelongs [("id", .str "r2"), ("content", .str "I like beer"),
    ("account_id", .str "bob")] (by simp [collectRecords, shared, batchWindow])).1
  exact absurd (hbob (by decide)) (by decide)

end MemoryPipeline

end IrisMind.Memory
