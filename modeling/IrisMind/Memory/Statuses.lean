import IrisMind.Memory.Pipeline

/-! # What is recorded of a pass

A job that extraction leaves with an exception is recorded as failed, and any
other one as a success, whatever was swallowed and however promotion ended. A
candidate is stored before it is decided about and never again, so a stored one
waits for a decision that has long been made. -/
namespace IrisMind.Memory
open IrisMind.Lib

namespace MemoryPipeline

/-- The job is recorded as failed if and only if extraction or promotion failed, and what is
stored of a candidate has the status that was decided. -/
def Faithful (r : PassResult) : Prop :=
  ∀ job records, r.handed = some (job, records) →
    (∃ stored, r.state.jobs.find? (·.id = job.id) = some stored ∧
      (stored.status = .failed ↔ r.extractionFailed = true ∨ r.promotionFailed = true)) ∧
    ∀ c ∈ r.decided, ∀ stored ∈ r.state.candidates, stored.id = c.id → stored.status = c.status

/-- The ids of a pass have not been given before. -/
structure Fresh (env : Circumstances) (s : MemoryPipeline) : Prop where
  job : ∀ j ∈ s.jobs, j.id ≠ env.jobId
  distinct : Function.Injective env.candidateId
  candidate : ∀ c ∈ s.candidates, ∀ n, c.id ≠ env.candidateId n

section Jobs

/-- The job that has been added last is found under a new id, and is what it has become. -/
theorem find?_update {jobs : List MemoryExtractionJob} (job : MemoryExtractionJob)
    (hfound : jobs.find? (·.id = job.id) = some job)
    (change : MemoryExtractionJob → MemoryExtractionJob) (hid : (change job).id = job.id) :
    (MemoryExtractionJobStore.update jobs job.id change).find? (·.id = job.id) =
      some (change job) := by
  unfold MemoryExtractionJobStore.update
  rw [hfound]
  exact Rows.find?_replaceFirst (fun j : MemoryExtractionJob => decide (j.id = job.id))
    (decide_eq_true hid) hfound

theorem find?_added {jobs : List MemoryExtractionJob} (job : MemoryExtractionJob)
    (hnew : ∀ j ∈ jobs, j.id ≠ job.id) : (jobs ++ [job]).find? (·.id = job.id) = some job := by
  rw [List.find?_append, List.find?_eq_none.mpr fun j hj => by simpa using hnew j hj,
    Option.none_or, List.find?_singleton, if_pos (decide_eq_true rfl)]

/-- What is recorded of the job of a pass is how it ended. -/
theorem find?_jobsAfter {v : Conversion} {env : Circumstances} {s : MemoryPipeline} {pass : Pass}
    (hnew : ∀ j ∈ s.jobs, j.id ≠ env.jobId) (status : JobStatus) (error : String) :
    (s.jobsAfter v env pass status error).find? (·.id = env.jobId) =
      some { s.job v env pass with status, error } :=
  have hadded := find?_added (s.job v env pass) hnew
  find?_update { s.job v env pass with status := .running } (find?_update _ hadded _ rfl) _ rfl

end Jobs

section Decided

variable {v : Conversion} {config : PromotionConfig}

theorem status_recordStatus (c : MemoryCandidate) (d : Decision) :
    (c.recordStatus d).status ≠ .pending ∧ (c.recordStatus d).id = c.id := by
  unfold MemoryCandidate.recordStatus
  split <;> exact ⟨CandidateStatus.noConfusion, rfl⟩

/-- Who has been decided about is no longer pending, and everyone is unless promotion raises. -/
structure Decides (calls : List PromoteCall) (evaluated : Evaluated) : Prop where
  settled : ∀ c ∈ evaluated.decided.map Prod.fst, c.status ≠ .pending ∧
    ∃ call ∈ calls, call.candidate.id = c.id
  all : evaluated.raised = none → evaluated.decided.map (·.1.id) = calls.map (·.candidate.id)

theorem promoteAll_decides {p : PromotionPolicy} {calls : List PromoteCall} :
    Decides calls (p.promoteAll v config calls) := by
  induction calls generalizing p with
  | nil => exact ⟨fun c hc => absurd hc List.not_mem_nil, fun _ => rfl⟩
  | cons call calls ih =>
    unfold PromotionPolicy.promoteAll
    split
    · exact ⟨fun c hc => absurd hc List.not_mem_nil, fun h => nomatch h⟩
    · next d p' _ =>
      obtain ⟨hall, hids⟩ := @ih p'
      obtain ⟨hstatus, hid⟩ := status_recordStatus call.candidate d
      refine ⟨List.forall_mem_cons.mpr ⟨⟨hstatus, call, List.mem_cons_self, hid.symm⟩,
        fun c hc => ?_⟩, fun hnone => ?_⟩
      · obtain ⟨hc, call', hcall', hcid⟩ := hall c hc
        exact ⟨hc, call', List.mem_cons_of_mem _ hcall', hcid⟩
      · rw [List.map_cons, List.map_cons, hids hnone, hid]

theorem evaluate_decides {p : PromotionPolicy} {calls : List PromoteCall} {logging : Writing}
    {log : Option (List MemoryConsolidationRecord)} :
    Decides calls (p.evaluate v config logging calls log).1 := by
  obtain ⟨hall, hids⟩ := @promoteAll_decides v config p calls
  unfold PromotionPolicy.evaluate
  dsimp only
  split
  · next hnone _ => exact ⟨hall, fun _ => hids ‹_›⟩
  · exact ⟨hall, hids⟩

end Decided

section Pass

variable {v : Conversion} {h : Hashing} {env : Circumstances} {s : MemoryPipeline} {pass : Pass}

/-- A pass with an exception of the extractor is recorded as it should be. -/
theorem faithful_failedPass (hfresh : Fresh env s) (e : String) :
    Faithful (s.failedPass v h env pass e) := by
  rintro job records ⟨⟩
  exact ⟨⟨_, find?_jobsAfter hfresh.job _ _, iff_of_true rfl (.inl rfl)⟩,
    fun c hc => absurd hc List.not_mem_nil⟩

/-- The candidates of a pass have the ids of the pass, each its own. -/
theorem id_of_extraction {c : MemoryCandidate}
    (hc : c ∈ (s.extraction v h env pass).candidates) : ∃ n, c.id = env.candidateId n := by
  obtain ⟨n, hids⟩ : ∃ n, (s.extraction v h env pass).candidates.map (·.id) <+:
      (List.range n).map env.candidateId := LangMemExtractor.run_candidates.1
  obtain ⟨k, _, hk⟩ := List.mem_map.mp (hids.subset (List.mem_map_of_mem hc))
  exact ⟨k, hk.symm⟩

variable (env pass) in
theorem mem_calls {candidates : List MemoryCandidate} {c : MemoryCandidate} :
    c ∈ candidates ↔ ∃ call ∈ calls env pass candidates, call.candidate = c := by
  have hcandidates : (calls env pass candidates).map (·.candidate) = candidates := by
    rw [calls, List.map_map]
    exact List.zipIdx_map_fst _ _
  rw [← List.mem_map, hcandidates]

/-- A pass that ends is recorded as it should be exactly if the model has not failed, the store
has taken none of the candidates and promotion has not failed. -/
theorem faithful_endedPass (hfresh : Fresh env s) :
    Faithful (s.endedPass v h env pass) ↔
      (s.extraction v h env pass).swallowed = none ∧
      (∀ c ∈ (s.extraction v h env pass).candidates, s.extractor.Skipped s.candidates c) ∧
      (s.evaluation v env pass (s.extraction v h env pass).candidates).1.raised = none := by
  obtain ⟨hdecided, hids⟩ : Decides (calls env pass (s.extraction v h env pass).candidates)
      (s.evaluation v env pass (s.extraction v h env pass).candidates).1 := evaluate_decides
  have hstore : s.extractor.LeavesStore s.candidates (s.extraction v h env pass) :=
    LangMemExtractor.run_store
  constructor
  · intro hfaithful
    obtain ⟨⟨stored, hfind, hstatus⟩, hall⟩ := hfaithful _ _ rfl
    have hjob := Option.some.inj (hfind.symm.trans (find?_jobsAfter hfresh.job _ _))
    rw [hjob] at hstatus
    have hnone : ¬ ((s.endedPass v h env pass).extractionFailed = true ∨
        (s.endedPass v h env pass).promotionFailed = true) :=
      fun hfailed => JobStatus.noConfusion (hstatus.mpr hfailed)
    obtain ⟨hswallowed, hraised⟩ := not_or.mp hnone
    have hraised : (s.evaluation v env pass (s.extraction v h env pass).candidates).1.raised =
        none := Option.not_isSome_iff_eq_none.mp hraised
    refine ⟨Option.not_isSome_iff_eq_none.mp hswallowed, ?_, hraised⟩
    rcases hstore with ⟨hskipped, _⟩ | ⟨_, c, hc, hin⟩
    · exact hskipped
    · -- a candidate that the store has taken is pending there, and decided about
      have hpending := (LangMemExtractor.run_candidates.2 c hc).1
      obtain ⟨call, hcall, hcandidate⟩ := (mem_calls env pass).mp hc
      have hid := List.mem_map_of_mem (f := fun call => call.candidate.id) hcall
      rw [← hids hraised, hcandidate] at hid
      obtain ⟨d, hd, hdid⟩ := List.mem_map.mp hid
      have hmem := List.mem_map_of_mem (f := Prod.fst) hd
      have hsame := hall d.1 hmem c hin hdid.symm
      exact absurd (hsame.symm.trans hpending) (hdecided d.1 hmem).1
  · rintro ⟨hswallowed, hskipped, hraised⟩ job records ⟨⟩
    refine ⟨⟨_, find?_jobsAfter hfresh.job _ _, iff_of_false JobStatus.noConfusion ?_⟩, ?_⟩
    · unfold endedPass
      dsimp only
      rw [hswallowed, hraised]
      rintro (h | h) <;> cases h
    · intro c hc stored hstored hsame
      obtain ⟨_, call, hcall, hid⟩ := hdecided c hc
      obtain ⟨n, hn⟩ := id_of_extraction ((mem_calls env pass).mpr ⟨call, hcall, rfl⟩)
      rcases hstore with ⟨_, hstore⟩ | ⟨⟨c', hc', hno⟩, _⟩
      · have hold : stored ∈ s.candidates := hstore ▸ hstored
        exact absurd (hsame.trans (hid.symm.trans hn)) (hfresh.candidate stored hold n)
      · exact absurd (hskipped c' hc') hno

end Pass

/-- What a pass leaves is recorded as it should be exactly if there is nothing to run, or the
extractor raises, or the model does not fail, all that it finds stands in the store already and
promotion does not fail. -/
theorem runPass_faithful_iff (v : Conversion) (h : Hashing) (env : Circumstances)
    (s : MemoryPipeline) (pass : Pass) (hfresh : Fresh env s) :
    Faithful (s.runPass v h env pass) ↔
      (s.enabled = false ∨ (s.collectRecords v pass.sourceRecordIds).2 = []) ∨
        (s.extraction v h env pass).raised ≠ none ∨
        (s.extraction v h env pass).swallowed = none ∧
          (∀ c ∈ (s.extraction v h env pass).candidates, s.extractor.Skipped s.candidates c) ∧
          (s.evaluation v env pass (s.extraction v h env pass).candidates).1.raised = none := by
  by_cases hnone : s.enabled = false ∨ (s.collectRecords v pass.sourceRecordIds).2 = []
  · refine iff_of_true (fun job records hhanded => ?_) (.inl hnone)
    rw [handed_none hnone] at hhanded
    cases hhanded
  · obtain ⟨hon, hrecords⟩ := not_or.mp hnone
    rw [or_iff_right hnone, runPass_eq (Bool.not_eq_false _ ▸ hon) hrecords]
    cases hraised : (s.extraction v h env pass).raised with
    | some e => exact iff_of_true (faithful_failedPass hfresh e) (.inl (Option.some_ne_none e))
    | none =>
      rw [or_iff_right (fun hno => hno rfl)]
      exact faithful_endedPass hfresh

/-- A pipeline with one record, and what a pass of it meets when the model gives an answer. -/
def single : MemoryPipeline where
  archive := [[("id", .str "r1"), ("content", .str "I like tea")]]

def answered (invoked : Except String Extracted) : Circumstances where
  jobId := "j1"
  invoked
  candidateId n := String.ofList (List.replicate n 'c')

theorem fresh_answered (invoked : Except String Extracted) : Fresh (answered invoked) single where
  job j hj := absurd hj List.not_mem_nil
  distinct n m hnm := by
    have hlength := congrArg List.length (String.ofList_inj.mp hnm)
    simpa using hlength
  candidate c hc := absurd hc List.not_mem_nil

theorem nothing_found_faithful : Faithful (single.runPass .plain ⟨fun _ _ _ _ => .ok "h"⟩
    (answered (.ok .none)) { passType := .semantic }) := by
  have hnone : (single.extraction .plain ⟨fun _ _ _ _ => .ok "h"⟩ (answered (.ok .none))
      { passType := .semantic }).candidates = [] := by
    refine List.eq_nil_iff_length_eq_zero.mpr ?_
    decide +kernel
  refine (runPass_faithful_iff .plain ⟨fun _ _ _ _ => .ok "h"⟩ (answered (.ok .none)) single
    { passType := .semantic } (fresh_answered _)).mpr (.inr (.inr ⟨?_, ?_, ?_⟩))
  · decide +kernel
  · rw [hnone]
    exact fun c hc => absurd hc List.not_mem_nil
  · rw [hnone]
    rfl

/-- A memory that the model is not sure of. -/
def unsure : Item :=
  .model [("category", .str "technical"), ("content", .str "likes tea"), ("evidence", .str "said"),
    ("confidence", .num (2 / 10)), ("scope", .str "account")]

/-- A candidate that is refused stays in the store as one that waits. -/
theorem refused_stays_pending :
    ¬ ∀ (v : Conversion) (h : Hashing) (env : Circumstances) (s : MemoryPipeline) (pass : Pass),
      Fresh env s → Faithful (s.runPass v h env pass) := by
  intro hall
  obtain ⟨r, hr⟩ : ∃ r, r = single.runPass .plain ⟨fun _ _ _ _ => .ok "h"⟩
    (answered (.ok (.items [unsure]))) { passType := .semantic } := ⟨_, rfl⟩
  have hfaithful := hall .plain ⟨fun _ _ _ _ => .ok "h"⟩ (answered (.ok (.items [unsure])))
    single { passType := .semantic } (fresh_answered _)
  rw [← hr] at hfaithful
  have hdecided : r.decided.map (fun c => (c.id, c.status)) = [("", .rejected)] := by
    rw [hr]
    decide +kernel
  have hstored : r.state.candidates.map (fun c => (c.id, c.status)) = [("", .pending)] := by
    rw [hr]
    decide +kernel
  have hhanded : r.handed.isSome = true := by
    rw [hr]
    decide +kernel
  obtain ⟨⟨job, records⟩, hhanded⟩ := Option.isSome_iff_exists.mp hhanded
  obtain ⟨c, hc, hcsame⟩ := List.mem_map.mp (hdecided ▸ List.mem_singleton_self _)
  obtain ⟨t, ht, htsame⟩ := List.mem_map.mp (hstored ▸ List.mem_singleton_self _)
  obtain ⟨hcid, hcstatus⟩ := Prod.mk.inj hcsame
  obtain ⟨htid, htstatus⟩ := Prod.mk.inj htsame
  have hsame := (hfaithful job records hhanded).2 c hc t ht (htid.trans hcid.symm)
  rw [hcstatus, htstatus] at hsame
  cases hsame

end MemoryPipeline

end IrisMind.Memory
