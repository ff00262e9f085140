import IrisMind.Memory.Layers
import IrisMind.Memory.Pipeline
import IrisMind.Memory.Promotions
import IrisMind.Memory.Schemas

/-! # The log of consolidations

An evaluation leaves a record of what has become of its candidates. Under what is
created the record has the ids of the candidates that were promoted, not those of
the entries, which the stores and the handlers give out themselves: a lesson is
named after the length of its file, an episode has no id, and a snapshot has that
of its account and room. -/
namespace IrisMind.Memory
open IrisMind.Lib

/-- An entry that a promotion has made, with the id it is found under, if it has one. -/
structure MadeEntry where
  store : TargetStore
  id : Option String
deriving DecidableEq

/-- The files behind long-term memory, where there are any. -/
structure LongTermStores where
  semantic : Option SemanticStore := none
  episodic : Option JsonlStore := none

/-- What a policy works on. -/
structure Vault where
  policy : PromotionPolicy := {}
  longTerm : LongTermStores := {}

/-- `_compose_id` -/
def composeId (accountId roomId : String) : String :=
  accountId ++ "::" ++ if roomId = "" then "__global__" else roomId

/-- What is appended to a list. -/
def appendedTo {α : Type} (old new : List α) : List α := new.drop old.length

/-- The entries that handlers have made. -/
def Stores.madeSince (old new : Stores) : List MadeEntry :=
  ((appendedTo old.snapshots new.snapshots).map fun s => ⟨.relationship, some s.id⟩) ++
    ((appendedTo old.appraisals new.appraisals).map fun e => ⟨.appraisal, some e.id⟩) ++
    ((appendedTo old.styles new.styles).map fun m => ⟨.style, some m.id⟩) ++
    ((appendedTo old.personaPatches new.personaPatches).map fun p => ⟨.personaPatch, some p.id⟩)

section Audit

variable (setup : MemorySetup) (config : PromotionConfig)

namespace LongTermStores

/-- `store_semantic`, of an input that has its scope; a lesson that is there is not made again. -/
def storeLesson (m : LongTermStores) (payload : SemanticInput) :
    LongTermStores × List MadeEntry :=
  match m.semantic with
  | none => (m, [])
  | some s =>
    ({ m with semantic := some (s.add setup.text setup.library setup.maxLessons payload.modelDump
        payload.roomId payload.accountId) },
      ((s.newId? setup.text payload.content).map fun id => ⟨.semantic, some id⟩).toList)

/-- `store_episodic` -/
def storeEpisode (m : LongTermStores) (entry : EpisodicEntry) : LongTermStores × List MadeEntry :=
  match m.episodic with
  | none => (m, [])
  | some s =>
    ({ m with episodic := s.addEntry setup.text (entry.row setup.now) setup.maxEpisodes },
      [⟨.episodic, SemanticStore.entryId (entry.row setup.now)⟩])

/-- What the policy has handed over, lessons and episodes, is stored. -/
def storeAll (m : LongTermStores) (lessons : List SemanticInput) (episodes : List EpisodicEntry) :
    LongTermStores × List MadeEntry :=
  let (m, made) := lessons.foldl (fun r payload =>
    ((r.1.storeLesson setup payload).1, r.2 ++ (r.1.storeLesson setup payload).2)) (m, [])
  episodes.foldl (fun r entry =>
    ((r.1.storeEpisode setup entry).1, r.2 ++ (r.1.storeEpisode setup entry).2)) (m, made)

/-- A lesson that is found under an id. -/
def Holds (m : LongTermStores) (id : String) : Prop :=
  ∃ s, m.semantic = some s ∧ ∃ e ∈ s.entries setup.text, SemanticStore.entryId e = some id

end LongTermStores

namespace Vault

/-- `promote`, and the entries that it makes in the stores. -/
def promote (s : Vault) (call : PromoteCall) : Except String Decision × Vault × List MadeEntry :=
  let (answer, policy) := PromotionPolicy.promote setup.conv config s.policy call
  let (longTerm, made) := s.longTerm.storeAll setup
    (appendedTo s.policy.stores.semantic policy.stores.semantic)
    (appendedTo s.policy.stores.episodic policy.stores.episodic)
  (answer, { policy, longTerm }, made ++ s.policy.stores.madeSince policy.stores)

def step (s : Vault) (call : PromoteCall) : Vault := (s.promote setup config call).2.1

/-- An entry of a store is found under an id. -/
def Holds (s : Vault) (id : String) : Prop :=
  s.longTerm.Holds setup id ∨ (∃ e ∈ s.policy.stores.snapshots, e.id = id) ∨
    (∃ e ∈ s.policy.stores.appraisals, e.id = id) ∨ (∃ e ∈ s.policy.stores.styles, e.id = id) ∨
    ∃ e ∈ s.policy.stores.personaPatches, e.id = id

end Vault

/-- What becomes of candidates one after the other: the decisions, the entries that are made, and
the exception that ends it. -/
structure Audit where
  raised : Option String := none
  decided : List (MemoryCandidate × Decision) := []
  made : List MadeEntry := []
  vault : Vault

def audit : Vault → List PromoteCall → Audit
  | s, [] => { vault := s }
  | s, call :: calls =>
    match s.promote setup config call with
    | (.error e, s, made) => { raised := some e, made, vault := s }
    | (.ok d, s, made) =>
      let rest := audit s calls
      { rest with
        decided := (call.candidate.recordStatus d, d) :: rest.decided, made := made ++ rest.made }

/-- The record lists every candidate once, as rejected those that are, and as created the entries
that were made, all of which are found under their ids. -/
structure FaithfulRecord (calls : List PromoteCall) (a : Audit)
    (record : MemoryConsolidationRecord) : Prop where
  candidates : ∀ call ∈ calls, record.candidateIds.count call.candidate.id = 1
  rejected : ∀ id, id ∈ record.rejectedCandidateIds ↔
    ∃ e ∈ a.decided, e.1.status = .rejected ∧ e.1.id = id
  created : ∀ id, id ∈ record.createdMemoryIds ↔ ∃ e ∈ a.made, e.id = some id
  named : ∀ e ∈ a.made, ∃ id, e.id = some id
  found : ∀ id ∈ record.createdMemoryIds, a.vault.Holds setup id

/-- Whatever record an evaluation writes to the log is faithful. -/
def FaithfulLog (s : Vault) (calls : List PromoteCall) : Prop :=
  ∀ logging records record,
    (s.policy.evaluate setup.conv config logging calls (some records)).2 =
        some (records ++ [record]) →
      FaithfulRecord setup calls (audit setup config s calls) record

/-! ## What a promotion makes -/

/-- The entries that a write makes where it leaves its trace. -/
def Vault.makes (s : Vault) : Write → List MadeEntry
  | .semantic payload => ((s.longTerm.semantic.bind (·.newId? setup.text payload.content)).map
      fun id => ⟨.semantic, some id⟩).toList
  | .episodic entry =>
    if s.longTerm.episodic.isSome then
      [⟨.episodic, SemanticStore.entryId (entry.row setup.now)⟩] else []
  | .relationship _ _ accountId roomId _ =>
    if config.keepsSnapshots ∧
        s.policy.stores.snapshots.find? (·.id = composeId accountId roomId) = none then
      [⟨.relationship, some (composeId accountId roomId)⟩] else []
  | .appraisal episode => [⟨.appraisal, some episode.id⟩]
  | .style item => [⟨.style, some item.id⟩]
  | .personaPatch item => [⟨.personaPatch, some item.id⟩]

end Audit

section Made

variable {setup : MemorySetup} {config : PromotionConfig} {s : Vault} {call : PromoteCall}

@[simp] theorem appendedTo_self {α : Type} (old : List α) : appendedTo old old = [] :=
  List.drop_length

theorem appendedTo_append {α : Type} (old new : List α) : appendedTo old (old ++ new) = new :=
  List.drop_left

theorem length_replaceFirst {α : Type} {fits : α → Bool} {new : α} (l : List α) :
    (Rows.replaceFirst fits new l).length = l.length := by
  induction l with
  | nil => rfl
  | cons x l ih =>
    unfold Rows.replaceFirst
    split
    · rfl
    · simp [ih]

/-- A snapshot is appended for an account and a room that have none. -/
theorem appended_saveSnapshot (snapshots : List RelationshipSnapshot) (accountId roomId : String)
    (state : RelationshipState) (sourceRecordIds : List String) :
    (appendedTo snapshots (RelationshipStateStore.saveSnapshot snapshots accountId state roomId
      sourceRecordIds)).map (·.id) =
        if snapshots.find? (·.id = composeId accountId roomId) = none then
          [composeId accountId roomId] else [] := by
  cases hfind : snapshots.find? (·.id = composeId accountId roomId) with
  | some existing =>
    have hsaved : ∃ row, RelationshipStateStore.saveSnapshot snapshots accountId state roomId
        sourceRecordIds = Rows.replaceFirst (·.id = composeId accountId roomId) row snapshots := by
      unfold RelationshipStateStore.saveSnapshot
      dsimp only
      rw [← composeId, hfind]
      exact ⟨_, rfl⟩
    obtain ⟨row, hrow⟩ := hsaved
    rw [hrow, appendedTo, List.drop_of_length_le (length_replaceFirst _).le]
    rfl
  | none =>
    have hsaved : ∃ row : RelationshipSnapshot, row.id = composeId accountId roomId ∧
        RelationshipStateStore.saveSnapshot snapshots accountId state roomId sourceRecordIds =
          snapshots ++ [row] := by
      unfold RelationshipStateStore.saveSnapshot
      dsimp only
      rw [← composeId, hfind]
      exact ⟨_, rfl, rfl⟩
    obtain ⟨row, hid, hrow⟩ := hsaved
    rw [hrow, appendedTo_append, List.map_singleton, hid]
    rfl

theorem made_of_same
    (h : (PromotionPolicy.promote setup.conv config s.policy call).2.stores = s.policy.stores) :
    (s.promote setup config call).2.2 = [] := by
  unfold Vault.promote
  dsimp only
  rw [h, appendedTo_self, appendedTo_self]
  simp [LongTermStores.storeAll, Stores.madeSince]

/-- A write makes its entries in the stores where it leaves a trace. -/
theorem made_of_perform (s : Vault) (w : Writing) (write : Write) :
    let new := (s.policy.stores.perform config.keepsSnapshots w write).2
    (s.longTerm.storeAll setup (appendedTo s.policy.stores.semantic new.semantic)
        (appendedTo s.policy.stores.episodic new.episodic)).2 ++ s.policy.stores.madeSince new =
      w.leaves [] (s.makes setup config write) := by
  cases write with
  | semantic payload =>
    cases w <;> simp [Stores.perform, Writing.leaves, appendedTo_append, Stores.madeSince,
      LongTermStores.storeAll, LongTermStores.storeLesson, Vault.makes] <;>
      cases s.longTerm.semantic <;> rfl
  | episodic entry =>
    cases w <;> simp [Stores.perform, Writing.leaves, appendedTo_append, Stores.madeSince,
      LongTermStores.storeAll, LongTermStores.storeEpisode, Vault.makes] <;>
      cases s.longTerm.episodic <;> rfl
  | relationship field delta accountId roomId sourceRecordIds =>
    cases hkeeps : config.keepsSnapshots with
    | false => cases w <;> simp [Stores.perform, Writing.leaves, Stores.madeSince,
        LongTermStores.storeAll, Vault.makes, hkeeps]
    | true =>
      have hmade : ∀ state, (appendedTo s.policy.stores.snapshots
          (RelationshipStateStore.saveSnapshot s.policy.stores.snapshots accountId state roomId
            sourceRecordIds)).map (fun row => (⟨.relationship, some row.id⟩ : MadeEntry)) =
          s.makes setup config (.relationship field delta accountId roomId sourceRecordIds) := by
        intro state
        have hid := congrArg (List.map fun id => (⟨.relationship, some id⟩ : MadeEntry))
          (appended_saveSnapshot s.policy.stores.snapshots accountId roomId state sourceRecordIds)
        rw [List.map_map] at hid
        refine Eq.trans hid ?_
        simp only [Vault.makes, hkeeps, true_and]
        split <;> rfl
      cases w <;>
        simp [Stores.perform, Writing.leaves, Stores.madeSince, LongTermStores.storeAll, hmade]
  | appraisal _ | style _ | personaPatch _ =>
    cases w <;> simp [Stores.perform, Writing.leaves, appendedTo_append, Stores.madeSince,
      LongTermStores.storeAll, Vault.makes]

end Made

/-! ## Candidates that are turned down -/

section TurnedDown

open PromotionPolicy

variable (setup : MemorySetup) (config : PromotionConfig)

/-- Nothing is written of a candidate, or the write raises and has not made an entry. -/
def WritesNothing (s : Vault) (call : PromoteCall) : Prop :=
  ∀ write answer,
    plan setup.conv config call.candidate call.roomId call.accountId call.newId =
      .ok (some write, answer) →
    ¬ Written config write.target call.writing ∧
      ((∃ e, call.writing = .refused e) ∨ s.makes setup config write = [])

/-- A candidate is a duplicate, or refused by the checks, or accepted with nothing to write. -/
def TurnedDown (s : Vault) (call : PromoteCall) : Prop :=
  (config.duplicateGuard && isAlreadySeen setup.conv config s.policy call) = true ∨
    (∃ reason, validate setup.conv call.candidate config.minConfidence =
      .ok (.rejected, reason)) ∨
    (∃ reason, validate setup.conv call.candidate config.minConfidence =
      .ok (.promoted, reason)) ∧ WritesNothing setup config s call

variable {setup config} {s : Vault} {call : PromoteCall}

theorem none_of_relationship {v : Conversion} {c : MemoryCandidate} {roomId accountId : String}
    {answer : Applied}
    (h : RelationshipPromotionHandler.apply v c roomId accountId = .ok (none, answer)) :
    answer = .none := by
  unfold RelationshipPromotionHandler.apply at h
  cases hdelta : v.floatAt "suggested_delta" c.payload with
  | error e =>
    rw [hdelta] at h
    split at h <;> cases h
    rfl
  | ok suggested =>
    rw [hdelta] at h
    split at h
    · cases h
      rfl
    · replace h : (if suggested = 0 then _ else _) = _ := h
      split at h <;> cases h
      rfl

theorem none_of_appraisal {v : Conversion} {c : MemoryCandidate}
    {roomId accountId newId : String} {answer : Applied}
    (h : AppraisalPromotionHandler.apply v c roomId accountId newId = .ok (none, answer)) :
    answer = .none := by
  unfold AppraisalPromotionHandler.apply at h
  cases hdelta : v.floatAt "estimated_delta" c.payload with
  | error e =>
    rw [hdelta] at h
    split at h <;> cases h
    rfl
  | ok estimated =>
    rw [hdelta] at h
    split at h <;> cases h
    rfl

/-- What has nothing written is rejected. -/
theorem rejected_of_none {v : Conversion} {c : MemoryCandidate}
    {roomId accountId newId : String} {answer : Applied}
    (h : plan v config c roomId accountId newId = .ok (none, answer)) :
    (decided (.ok answer)).1 = .rejected := by
  unfold plan at h
  split at h
  · cases h
  split at h
  · cases h
  split at h
  · unfold handlerPlan at h
    split at h
    · rw [none_of_relationship h]
      rfl
    · rw [none_of_appraisal h]
      rfl
    · unfold PersonaPatchPromotionHandler.apply at h
      dsimp only at h
      split at h
      · cases h
        rfl
      · split at h <;> cases h
    · unfold StylePromotionHandler.apply at h
      dsimp only at h
      split at h
      · cases h
        rfl
      · split at h <;> cases h
        rfl
  · cases h

theorem promote_answer : (s.promote setup config call).1 =
    (PromotionPolicy.promote setup.conv config s.policy call).1 := rfl

theorem made_of_not_accepts (h : ¬ Accepts setup.conv config s.policy call) :
    (s.promote setup config call).2.2 = [] :=
  made_of_same (congrArg PromotionPolicy.stores (promote_of_not_accepts h))

/-- What an accepted candidate comes to. -/
theorem accepted_cases (haccepts : Accepts setup.conv config s.policy call) {d : Decision}
    (hd : (s.promote setup config call).1 = .ok d) :
    (d.1 = .rejected ∧ (s.promote setup config call).2.2 = [] ∧ ∀ write answer,
      plan setup.conv config call.candidate call.roomId call.accountId call.newId ≠
        .ok (some write, answer)) ∨
    ∃ write answer, plan setup.conv config call.candidate call.roomId call.accountId call.newId =
        .ok (some write, answer) ∧
      (s.promote setup config call).2.2 = call.writing.leaves [] (s.makes setup config write) ∧
      (d.1 = .rejected ↔ ¬ Written config write.target call.writing) := by
  obtain ⟨hdecision, hstores⟩ := promote_of_accepts haccepts
  rw [promote_answer, hdecision] at hd
  cases Except.ok.inj hd
  unfold apply at hstores ⊢
  cases hplan : plan setup.conv config call.candidate call.roomId call.accountId call.newId with
  | error e =>
    rw [hplan] at hstores
    exact .inl ⟨rfl, made_of_same hstores, fun _ _ h => by cases h⟩
  | ok planned =>
    obtain ⟨_ | write, answer⟩ := planned
    · rw [hplan] at hstores
      exact .inl ⟨rejected_of_none hplan, made_of_same hstores, fun _ _ h => by cases h⟩
    · refine .inr ⟨write, answer, rfl, ?_, ?_⟩
      · have hperformed : (PromotionPolicy.promote setup.conv config s.policy call).2.stores =
            (s.policy.stores.perform config.keepsSnapshots call.writing write).2 := by
          rw [(promote_of_accepts haccepts).2]
          exact stores_apply hplan
        rw [← made_of_perform s call.writing write, ← hperformed]
        rfl
      · dsimp only
        rw [← perform_error_iff (s := s.policy.stores)]
        split
        · next e stores hperform =>
          rw [hperform]
          exact iff_of_true rfl (Option.some_ne_none e)
        · next stores hperform =>
          rw [hperform]
          refine iff_of_false (fun h => ?_) (not_not.mpr rfl)
          rcases decided_of_plan hplan with hpromoted | hreview
          · cases hpromoted.symm.trans h
          · rw [hreview] at h
            cases h

/-- An accepted candidate is rejected with nothing made if nothing is written for it. -/
theorem writesNothing_iff (haccepts : Accepts setup.conv config s.policy call) {d : Decision}
    (hd : (s.promote setup config call).1 = .ok d) :
    WritesNothing setup config s call ↔
      d.1 = .rejected ∧ (s.promote setup config call).2.2 = [] := by
  rcases accepted_cases haccepts hd with ⟨hrejected, hmade, hno⟩ |
    ⟨write, answer, hplan, hmade, hrejected⟩
  · exact iff_of_true (fun write answer h => absurd h (hno write answer)) ⟨hrejected, hmade⟩
  · rw [hmade, hrejected]
    constructor
    · intro h
      obtain ⟨hraises, hnothing⟩ := h write answer hplan
      refine ⟨hraises, ?_⟩
      rcases hnothing with ⟨e, he⟩ | hnone
      · rw [he]
        rfl
      · rw [hnone]
        cases call.writing <;> rfl
    · rintro ⟨hraises, hnothing⟩ write' answer' hplan'
      cases hplan.symm.trans hplan'
      refine ⟨hraises, ?_⟩
      cases hwriting : call.writing with
      | done => exact absurd (.inl (by rw [hwriting]; rfl)) hraises
      | refused e => exact .inl ⟨e, rfl⟩
      | spoilt e =>
        rw [hwriting] at hnothing
        exact .inr hnothing

theorem rejected_of_seen
    (hseen : (config.duplicateGuard && isAlreadySeen setup.conv config s.policy call) = true)
    {d : Decision} (hd : (s.promote setup config call).1 = .ok d) : d.1 = .rejected := by
  rw [promote_answer] at hd
  unfold PromotionPolicy.promote at hd
  rw [if_pos hseen] at hd
  cases Except.ok.inj hd
  rfl

/-- The decision on a new candidate that is not accepted is that of the checks. -/
theorem validate_of_not_accepts (haccepts : ¬ Accepts setup.conv config s.policy call)
    (hseen : ¬ (config.duplicateGuard && isAlreadySeen setup.conv config s.policy call) = true)
    {d : Decision} (hd : (s.promote setup config call).1 = .ok d) :
    validate setup.conv call.candidate config.minConfidence = .ok d := by
  rw [promote_answer] at hd
  unfold PromotionPolicy.promote at hd
  rw [if_neg hseen] at hd
  split at hd
  · cases hd
  · next reason hvalid => exact absurd ⟨Bool.eq_false_iff.mpr hseen, reason, hvalid⟩ haccepts
  · next d' _ hvalid => exact hvalid.trans hd

theorem turnedDown_iff {d : Decision} (hd : (s.promote setup config call).1 = .ok d) :
    TurnedDown setup config s call ↔
      d.1 = .rejected ∧ (s.promote setup config call).2.2 = [] := by
  by_cases haccepts : Accepts setup.conv config s.policy call
  · obtain ⟨hseen, reason, hvalid⟩ := id haccepts
    have hdown : TurnedDown setup config s call ↔ WritesNothing setup config s call := by
      simp [TurnedDown, hseen, hvalid]
    rw [hdown]
    exact writesNothing_iff haccepts hd
  rw [made_of_not_accepts haccepts, and_iff_left rfl]
  by_cases hseen : (config.duplicateGuard &&
      isAlreadySeen setup.conv config s.policy call) = true
  · exact iff_of_true (.inl hseen) (rejected_of_seen hseen hd)
  · have hvalid := validate_of_not_accepts haccepts hseen hd
    obtain ⟨status, reason⟩ := d
    constructor
    · rintro (h | ⟨reason', h⟩ | ⟨⟨reason', h⟩, _⟩)
      · exact absurd h hseen
      · cases hvalid.symm.trans h
        rfl
      · exact absurd ⟨Bool.eq_false_iff.mpr hseen, reason', h⟩ haccepts
    · intro h
      obtain rfl : status = .rejected := h
      exact .inr (.inl ⟨reason, hvalid⟩)

end TurnedDown

/-! ## Records of runs -/

section Runs

open PromotionPolicy

variable (setup : MemorySetup) (config : PromotionConfig)

/-- The checks come to a decision about a candidate. -/
def Decides (s : Vault) (call : PromoteCall) : Prop :=
  (config.duplicateGuard && isAlreadySeen setup.conv config s.policy call) = true ∨
    ∃ d, validate setup.conv call.candidate config.minConfidence = .ok d

/-- Ids that are drawn at random: those of candidates have hexadecimal digits and dashes only, and
none is drawn again for an entry. -/
structure RandomIds (calls : List PromoteCall) : Prop where
  digits : ∀ call ∈ calls, ∀ c ∈ call.candidate.id.toList, c ∈ "0123456789abcdef-".toList
  fresh : ∀ call ∈ calls, ∀ call' ∈ calls, call.newId ≠ call'.candidate.id

variable {setup config} {s : Vault} {call : PromoteCall} {calls : List PromoteCall}

/-- An audit decides as an evaluation does. -/
theorem audit_eq (s : Vault) (calls : List PromoteCall) :
    promoteAll setup.conv config s.policy calls =
      { raised := (audit setup config s calls).raised
        decided := (audit setup config s calls).decided
        policy := (audit setup config s calls).vault.policy } := by
  induction calls generalizing s with
  | nil => rfl
  | cons call calls ih =>
    unfold promoteAll audit
    cases hanswer : PromotionPolicy.promote setup.conv config s.policy call with
    | mk answer policy =>
      have hpromote : s.promote setup config call =
          (answer, ⟨policy, (s.promote setup config call).2.1.longTerm⟩,
            (s.promote setup config call).2.2) := by
        simp [Vault.promote, hanswer]
      rw [hpromote]
      cases answer with
      | error e => rfl
      | ok d =>
        dsimp only
        rw [ih ⟨policy, (s.promote setup config call).2.1.longTerm⟩]

theorem decides_iff : Decides setup config s call ↔
    ∃ d, (s.promote setup config call).1 = .ok d := by
  rw [promote_answer]
  unfold Decides PromotionPolicy.promote
  by_cases hseen : (config.duplicateGuard &&
      isAlreadySeen setup.conv config s.policy call) = true
  · rw [if_pos hseen]
    exact iff_of_true (.inl hseen) ⟨_, rfl⟩
  · rw [if_neg hseen, or_iff_right hseen]
    split
    · next e hvalid => simp [hvalid]
    · next reason hvalid => exact iff_of_true ⟨_, hvalid⟩ ⟨_, rfl⟩
    · next d _ hvalid => exact iff_of_true ⟨_, hvalid⟩ ⟨_, rfl⟩

/-- The record of an evaluation that comes to its end. -/
theorem written_iff {logging : Writing} {records : List MemoryConsolidationRecord}
    {record : MemoryConsolidationRecord} :
    (s.policy.evaluate setup.conv config logging calls (some records)).2 =
        some (records ++ [record]) ↔
      (audit setup config s calls).raised = none ∧ (∀ e, logging ≠ .refused e) ∧
        record = consolidationRecord (audit setup config s calls).decided := by
  have hmore : ∀ x : MemoryConsolidationRecord, records ≠ records ++ [x] := fun x h => by
    simpa using congrArg List.length h
  unfold evaluate
  rw [audit_eq]
  cases (audit setup config s calls).raised with
  | some e => simp [hmore]
  | none => cases logging <;> simp [Writing.leaves, hmore, eq_comm]

/-- An audit that runs to its end: its decisions and entries, call by call. -/
theorem audit_raised_iff : (audit setup config s calls).raised = none ↔
    Machine.Guarded (Vault.step setup config) (Decides setup config) s calls := by
  induction calls generalizing s with
  | nil => exact iff_of_true rfl trivial
  | cons call calls ih =>
    rw [Machine.Guarded, decides_iff]
    unfold audit
    cases hpromote : s.promote setup config call with
    | mk answer rest =>
      obtain ⟨next, made⟩ := rest
      have hstep : s.step setup config call = next := by rw [Vault.step, hpromote]
      rw [hstep]
      cases answer with
      | error e => simp
      | ok d => simpa using ih

theorem recordStatus_fields (c : MemoryCandidate) (d : Decision) :
    (c.recordStatus d).id = c.id ∧ ((c.recordStatus d).status = .rejected ↔ d.1 = .rejected) := by
  obtain ⟨status, reason⟩ := d
  cases status <;> exact ⟨rfl, by simp [MemoryCandidate.recordStatus]⟩

theorem status_of_decided : ∀ e ∈ (audit setup config s calls).decided,
    (e.1.status = .rejected ↔ e.2.1 = .rejected) := by
  induction calls generalizing s with
  | nil => exact fun e he => absurd he List.not_mem_nil
  | cons call calls ih =>
    intro e he
    unfold audit at he
    split at he
    · exact absurd he List.not_mem_nil
    · next d next made _ =>
      rcases List.mem_cons.mp he with rfl | he
      · exact (recordStatus_fields call.candidate d).2
      · exact ih e he

/-- What an audit that runs to its end says of its candidates. -/
theorem audit_decided (h : (audit setup config s calls).raised = none) :
    (audit setup config s calls).decided.map (·.1.id) = calls.map (·.candidate.id) ∧
      (Machine.Guarded (Vault.step setup config) (TurnedDown setup config) s calls ↔
        (∀ e ∈ (audit setup config s calls).decided, e.2.1 = .rejected) ∧
          (audit setup config s calls).made = []) := by
  induction calls generalizing s with
  | nil => exact ⟨rfl, iff_of_true trivial ⟨fun e he => absurd he List.not_mem_nil, rfl⟩⟩
  | cons call calls ih =>
    cases hpromote : s.promote setup config call with
    | mk answer rest =>
      obtain ⟨next, made⟩ := rest
      cases answer with
      | error e =>
        unfold audit at h
        rw [hpromote] at h
        cases h
      | ok d =>
        have haudit : audit setup config s (call :: calls) =
            { audit setup config next calls with
              decided := (call.candidate.recordStatus d, d) ::
                (audit setup config next calls).decided
              made := made ++ (audit setup config next calls).made } := by
          rw [audit, hpromote]
        rw [haudit] at h ⊢
        obtain ⟨hids, hdown⟩ := ih h
        refine ⟨?_, ?_⟩
        · simp [hids, recordStatus_fields]
        · have hstep : s.step setup config call = next := by rw [Vault.step, hpromote]
          have hanswer : (s.promote setup config call).1 = .ok d := by rw [hpromote]
          have hfirst := turnedDown_iff hanswer
          rw [Machine.Guarded, hstep, hdown, hfirst, hpromote]
          simp only [List.forall_mem_cons, List.append_eq_nil_iff]
          tauto

/-! ### The ids of what is made -/

/-- The id that a handler has given to what it writes. -/
def Write.ownId : Write → Option String
  | .appraisal episode => some episode.id
  | .style item => some item.id
  | .personaPatch item => some item.id
  | _ => none

theorem ownId_of_relationship {v : Conversion} {c : MemoryCandidate} {roomId accountId : String}
    {write : Write} {answer : Applied}
    (h : RelationshipPromotionHandler.apply v c roomId accountId = .ok (some write, answer)) :
    write.ownId = none := by
  unfold RelationshipPromotionHandler.apply at h
  cases hdelta : v.floatAt "suggested_delta" c.payload with
  | error e =>
    rw [hdelta] at h
    split at h <;> cases h
  | ok suggested =>
    rw [hdelta] at h
    split at h
    · cases h
    · replace h : (if suggested = 0 then _ else _) = _ := h
      split at h <;> cases h
      rfl

/-- A handler gives what it writes the id that is drawn for it. -/
theorem ownId_of_plan {v : Conversion} {c : MemoryCandidate} {roomId accountId newId id : String}
    {write : Write} {answer : Applied}
    (h : plan v config c roomId accountId newId = .ok (some write, answer))
    (hid : write.ownId = some id) : id = newId := by
  unfold plan at h
  split at h
  · cases h
    cases hid
  split at h
  · cases h
    cases hid
  split at h
  · unfold handlerPlan at h
    split at h
    · cases (ownId_of_relationship h).symm.trans hid
    · unfold AppraisalPromotionHandler.apply at h
      cases hdelta : v.floatAt "estimated_delta" c.payload with
      | error e =>
        rw [hdelta] at h
        split at h <;> cases h
      | ok estimated =>
        rw [hdelta] at h
        split at h <;> cases h
        exact (Option.some.inj hid).symm
    · unfold PersonaPatchPromotionHandler.apply at h
      dsimp only at h
      split at h
      · cases h
      · split at h <;> cases h <;> exact (Option.some.inj hid).symm
    · unfold StylePromotionHandler.apply at h
      dsimp only at h
      split at h
      · cases h
      · split at h <;> cases h
        exact (Option.some.inj hid).symm
  · cases h

theorem entryId_row (entry : EpisodicEntry) (now : String) :
    SemanticStore.entryId (entry.row now) = none := by
  unfold EpisodicEntry.row
  split <;> rfl

theorem id_of_makes {write : Write} {e : MadeEntry} {id : String}
    (he : e ∈ s.makes setup config write) (hid : e.id = some id) :
    (∃ n, id = SemanticStore.lessonId n) ∨ (∃ accountId roomId, id = composeId accountId roomId) ∨
      write.ownId = some id := by
  cases write with
  | semantic payload =>
    simp only [Vault.makes, Option.mem_toList, Option.map_eq_some_iff] at he
    obtain ⟨lesson, hlesson, rfl⟩ := he
    obtain ⟨store, _, hnew⟩ := Option.bind_eq_some_iff.mp hlesson
    unfold SemanticStore.newId? at hnew
    split at hnew <;> cases hnew
    exact .inl ⟨_, (Option.some.inj hid).symm⟩
  | episodic entry =>
    simp only [Vault.makes] at he
    split at he
    · rw [List.mem_singleton.mp he, entryId_row] at hid
      cases hid
    · exact absurd he List.not_mem_nil
  | relationship field delta accountId roomId sourceRecordIds =>
    simp only [Vault.makes] at he
    split at he
    · rw [List.mem_singleton.mp he] at hid
      exact .inr (.inl ⟨accountId, roomId, (Option.some.inj hid).symm⟩)
    · exact absurd he List.not_mem_nil
  | appraisal _ | style _ | personaPatch _ =>
    rw [List.mem_singleton.mp he] at hid
    exact .inr (.inr hid)

/-- Where the ids of entries come from. -/
theorem id_of_promoted {e : MadeEntry} {id : String} (he : e ∈ (s.promote setup config call).2.2)
    (hid : e.id = some id) :
    (∃ n, id = SemanticStore.lessonId n) ∨ (∃ accountId roomId, id = composeId accountId roomId) ∨
      id = call.newId := by
  by_cases haccepts : Accepts setup.conv config s.policy call
  · rcases accepted_cases haccepts (promote_of_accepts haccepts).1 with ⟨_, hmade, _⟩ |
      ⟨write, answer, hplan, hmade, _⟩
    · rw [hmade] at he
      exact absurd he List.not_mem_nil
    · have hmakes : e ∈ s.makes setup config write := by
        rw [hmade] at he
        cases hwriting : call.writing with
        | refused error =>
          rw [hwriting] at he
          exact absurd he List.not_mem_nil
        | done =>
          rw [hwriting] at he
          exact he
        | spoilt error =>
          rw [hwriting] at he
          exact he
      exact (id_of_makes hmakes hid).imp_right fun h => h.imp_right fun h => ownId_of_plan hplan h
  · rw [made_of_not_accepts haccepts] at he
    exact absurd he List.not_mem_nil

theorem id_of_made {e : MadeEntry} {id : String} (he : e ∈ (audit setup config s calls).made)
    (hid : e.id = some id) :
    (∃ n, id = SemanticStore.lessonId n) ∨ (∃ accountId roomId, id = composeId accountId roomId) ∨
      ∃ call ∈ calls, id = call.newId := by
  induction calls generalizing s with
  | nil => exact absurd he List.not_mem_nil
  | cons call calls ih =>
    have hfirst : e ∈ (s.promote setup config call).2.2 →
        (∃ n, id = SemanticStore.lessonId n) ∨
          (∃ accountId roomId, id = composeId accountId roomId) ∨
            ∃ call' ∈ call :: calls, id = call'.newId := fun he =>
      (id_of_promoted he hid).imp_right fun h => h.imp_right fun h =>
        ⟨call, List.mem_cons_self, h⟩
    unfold audit at he
    cases hpromote : s.promote setup config call with
    | mk answer rest =>
      obtain ⟨next, made⟩ := rest
      rw [hpromote] at he hfirst
      cases answer with
      | error error => exact hfirst he
      | ok d =>
        rcases List.mem_append.mp he with he | he
        · exact hfirst he
        · exact (ih he).imp_right fun h => h.imp_right fun ⟨call', hcall, h⟩ =>
            ⟨call', List.mem_cons_of_mem _ hcall, h⟩

/-- No entry has the id of a candidate. -/
theorem RandomIds.not_made (h : RandomIds calls) {e : MadeEntry}
    (he : e ∈ (audit setup config s calls).made) {call : PromoteCall} (hcall : call ∈ calls) :
    e.id ≠ some call.candidate.id := by
  intro hid
  rcases id_of_made he hid with ⟨n, hn⟩ | ⟨accountId, roomId, hn⟩ | ⟨call', hcall', hn⟩
  · have hletter := h.digits call hcall 'l' (by rw [hn]; simp [SemanticStore.lessonId])
    exact absurd hletter (by decide)
  · have hcolon := h.digits call hcall ':' (by rw [hn]; simp [composeId])
    exact absurd hcolon (by decide)
  · exact h.fresh call' hcall' call hcall hn.symm

/-! ### When a record is faithful -/

theorem mem_createdMemoryIds {decided : List (MemoryCandidate × Decision)} {id : String} :
    id ∈ (consolidationRecord decided).createdMemoryIds ↔
      ∃ e ∈ decided, e.2.1 = .promoted ∧ e.1.id = id := by
  simp [consolidationRecord, and_assoc]

theorem mem_rejectedCandidateIds {decided : List (MemoryCandidate × Decision)} {id : String} :
    id ∈ (consolidationRecord decided).rejectedCandidateIds ↔
      ∃ e ∈ decided, e.2.1 ≠ .promoted ∧ e.1.id = id := by
  simp [consolidationRecord, and_assoc]

theorem eq_of_id {decided : List (MemoryCandidate × Decision)}
    (h : (decided.map (·.1.id)).Nodup) {e e' : MemoryCandidate × Decision} (he : e ∈ decided)
    (he' : e' ∈ decided) (hid : e.1.id = e'.1.id) : e = e' :=
  List.inj_on_of_nodup_map h he he' hid

/-- A record of decisions is faithful exactly if the candidates are distinct and all of them were
rejected without an entry. -/
theorem faithfulRecord_iff (hids : RandomIds calls)
    (hraised : (audit setup config s calls).raised = none) :
    FaithfulRecord setup calls (audit setup config s calls)
        (consolidationRecord (audit setup config s calls).decided) ↔
      (calls.map (·.candidate.id)).Nodup ∧
        (∀ e ∈ (audit setup config s calls).decided, e.2.1 = .rejected) ∧
        (audit setup config s calls).made = [] := by
  obtain ⟨hlisted, _⟩ := audit_decided hraised
  have hcandidates : (consolidationRecord (audit setup config s calls).decided).candidateIds =
      calls.map (·.candidate.id) := hlisted
  have hcall : ∀ e ∈ (audit setup config s calls).decided,
      ∃ call ∈ calls, call.candidate.id = e.1.id := fun e he =>
    List.mem_map.mp (hlisted ▸ List.mem_map_of_mem (f := fun e => e.1.id) he)
  constructor
  · intro h
    have hnodup : (calls.map (·.candidate.id)).Nodup := by
      refine List.nodup_iff_count_eq_one.mpr fun id hid => ?_
      obtain ⟨call, hcall, rfl⟩ := List.mem_map.mp hid
      exact hcandidates ▸ h.candidates call hcall
    have hno : ∀ e ∈ (audit setup config s calls).decided, e.2.1 ≠ .promoted := by
      intro e he hpromoted
      have hlogged := mem_createdMemoryIds.mpr ⟨e, he, hpromoted, rfl⟩
      obtain ⟨m, hm, hid⟩ := (h.created e.1.id).mp hlogged
      obtain ⟨call, hcall, hsame⟩ := hcall e he
      exact hids.not_made hm hcall (hsame ▸ hid)
    refine ⟨hnodup, fun e he => ?_, ?_⟩
    · obtain ⟨e', he', hstatus, hid⟩ := (h.rejected e.1.id).mp
        (mem_rejectedCandidateIds.mpr ⟨e, he, hno e he, rfl⟩)
      rw [eq_of_id (hlisted ▸ hnodup) he he' hid.symm]
      exact (status_of_decided e' he').mp hstatus
    · refine List.eq_nil_iff_forall_not_mem.mpr fun m hm => ?_
      obtain ⟨id, hid⟩ := h.named m hm
      obtain ⟨e, he, hpromoted, _⟩ := mem_createdMemoryIds.mp ((h.created id).mpr ⟨m, hm, hid⟩)
      exact hno e he hpromoted
  · rintro ⟨hnodup, hrejected, hmade⟩
    have hnone : ∀ id, id ∉ (consolidationRecord
        (audit setup config s calls).decided).createdMemoryIds := fun id hid => by
      obtain ⟨e, he, hpromoted, _⟩ := mem_createdMemoryIds.mp hid
      cases (hrejected e he).symm.trans hpromoted
    refine ⟨fun call hcall => ?_, fun id => ?_, fun id => ?_, fun m hm => ?_, fun id hid => ?_⟩
    · rw [hcandidates]
      exact List.count_eq_one_of_mem hnodup (List.mem_map.mpr ⟨call, hcall, rfl⟩)
    · rw [mem_rejectedCandidateIds]
      constructor
      · rintro ⟨e, he, _, hid⟩
        exact ⟨e, he, (status_of_decided e he).mpr (hrejected e he), hid⟩
      · rintro ⟨e, he, _, hid⟩
        exact ⟨e, he, by rw [hrejected e he]; exact CandidateStatus.noConfusion, hid⟩
    · rw [hmade]
      exact iff_of_false (hnone id) fun ⟨_, hm, _⟩ => absurd hm List.not_mem_nil
    · rw [hmade] at hm
      exact absurd hm List.not_mem_nil
    · exact absurd hid (hnone id)

/-- The log of an evaluation is faithful exactly if the checks raise, or the candidates are
distinct and every one is turned down with nothing made. -/
theorem faithfulLog_iff (setup : MemorySetup) (config : PromotionConfig) (s : Vault)
    (calls : List PromoteCall) (hids : RandomIds calls) : FaithfulLog setup config s calls ↔
      (Machine.Guarded (Vault.step setup config) (Decides setup config) s calls →
        (calls.map (·.candidate.id)).Nodup ∧
          Machine.Guarded (Vault.step setup config) (TurnedDown setup config) s calls) := by
  rw [← audit_raised_iff]
  constructor
  · intro h hraised
    have hwritten := h .done [] _ (written_iff.mpr ⟨hraised, (fun _ h => by cases h), rfl⟩)
    obtain ⟨hnodup, hdown⟩ := (faithfulRecord_iff hids hraised).mp hwritten
    exact ⟨hnodup, (audit_decided hraised).2.mpr hdown⟩
  · intro h logging records record hwritten
    obtain ⟨hraised, _, rfl⟩ := written_iff.mp hwritten
    obtain ⟨hnodup, hdown⟩ := h hraised
    exact (faithfulRecord_iff hids hraised).mpr ⟨hnodup, (audit_decided hraised).2.mp hdown⟩

end Runs

/-- A memory that can keep lessons. -/
def kept : Vault where
  longTerm := { semantic := some {} }

def auditSetup : MemorySetup where
  text := .ofTable plainWriter []
  conv := .plain
  library := .plain
  reader := ⟨fun _ => 0, fun _ => []⟩

/-- A candidate that nobody is sure about. -/
def unsure : PromoteCall where
  candidate :=
    { id := "c4", sourceRecordIds := ["r1"], targetStore := .semantic
      payload := [("content", .str "likes trees"), ("evidence", .str "said so")]
      confidence := 1 / 10, payloadHash := "h4" }
  newId := ""

theorem unsure_faithful : FaithfulLog auditSetup {} kept [unsure] := by
  have hids : RandomIds [unsure] := ⟨by simp [unsure], by simp [unsure]⟩
  refine (faithfulLog_iff auditSetup {} kept [unsure] hids).mpr fun _ =>
    ⟨by decide, .inr (.inl ⟨"low_confidence<" ++ auditSetup.conv.str (.num (3 / 4)), ?_⟩), trivial⟩
  unfold PromotionPolicy.validate
  rw [if_neg (by decide), if_pos (by norm_num [unsure])]

/-- The record of a lesson has the id of the candidate, and the lesson another one. -/
theorem lesson_misnamed :
    ¬ ∀ (setup : MemorySetup) (config : PromotionConfig) (s : Vault) (calls : List PromoteCall),
      RandomIds calls → FaithfulLog setup config s calls := by
  intro h
  have hids : RandomIds [PromotionPolicy.fact] :=
    ⟨by simp [PromotionPolicy.fact], by simp [PromotionPolicy.fact]⟩
  have hraised : (audit auditSetup {} kept [PromotionPolicy.fact]).raised = none := by
    decide +kernel
  have hfaithful := h auditSetup {} kept [PromotionPolicy.fact] hids .done [] _
    (written_iff.mpr ⟨hraised, (fun _ h => by cases h), rfl⟩)
  have hmade : (audit auditSetup {} kept [PromotionPolicy.fact]).made =
      [⟨.semantic, some "lesson_001"⟩] := by
    decide +kernel
  have hcreated := (hfaithful.created "lesson_001").mpr
    ⟨⟨.semantic, some "lesson_001"⟩, by rw [hmade]; exact List.mem_singleton_self _, rfl⟩
  have hids : (PromotionPolicy.consolidationRecord
      (audit auditSetup {} kept [PromotionPolicy.fact]).decided).createdMemoryIds = ["c2"] := by
    decide +kernel
  rw [hids] at hcreated
  exact absurd hcreated (by decide)

end IrisMind.Memory
