import IrisMind.Memory.Promotion
import IrisMind.Lib.Machine

/-! # Runs of promotions

A hash is remembered once its candidate is promoted, so no store is changed
twice for it, and a refusal leaves the stores as they were, as long as a write
that raises leaves nothing and nothing is written for a hash twice before it is
remembered. The patch of a candidate with low confidence is such a write. -/
namespace IrisMind.Memory
open IrisMind.Lib

namespace PromotionPolicy

section Runs

variable (v : Conversion) (config : PromotionConfig)

def after (p : PromotionPolicy) (call : PromoteCall) : PromotionPolicy :=
  (promote v config p call).2

/-- Every refusal has left the stores as they were, and no two calls with one hash have changed
them. -/
structure OnceAndWhole (p : PromotionPolicy) (calls : List PromoteCall) : Prop where
  whole : ∀ before call, before ++ [call] <+: calls →
    let q := Machine.run (after v config) p before
    ∀ reason, (promote v config q call).1 = .ok (.rejected, reason) →
      (after v config q call).stores = q.stores
  once : ∀ before call between call', before ++ call :: between ++ [call'] <+: calls →
    call.candidate.payloadHash = call'.candidate.payloadHash →
    call.candidate.payloadHash ≠ "" →
    let q := Machine.run (after v config) p before
    let q' := Machine.run (after v config) (after v config q call) between
    (after v config q call).stores ≠ q.stores → (after v config q' call').stores = q'.stores

/-- The policy, and the hashes of the patches that it has had written for review. -/
structure Reviewed where
  policy : PromotionPolicy
  reviewed : List String := []

/-- The answer to a patch with low confidence. -/
def pendingReview : Decision := (.needsReview, "low_confidence_pending")

def Reviewed.step (s : Reviewed) (call : PromoteCall) : Reviewed where
  policy := after v config s.policy call
  reviewed := match (promote v config s.policy call).1 with
    | .ok d => if d = pendingReview then call.candidate.payloadHash :: s.reviewed else s.reviewed
    | .error _ => s.reviewed

/-- A write that leaves nothing should it raise: it raises at once, and for a relationship only
where the live state stays as it is. -/
def Traceless (s : Stores) (w : Writing) : Write → Prop
  | .relationship field delta accountId _ _ => config.keepsSnapshots = false ∨ w = .done ∨
      (∃ e, w = .refused e) ∧
        RelationshipManager.applyCandidateDelta s.relationships field delta accountId =
          s.relationships
  | _ => ∀ e, w ≠ .spoilt e

/-- What is written of an accepted candidate leaves nothing should it raise, and a hash it has is
not that of a patch under review. -/
def Fits (s : Reviewed) (call : PromoteCall) : Prop :=
  Accepts v config s.policy call → ∀ write answer,
    plan v config call.candidate call.roomId call.accountId call.newId =
      .ok (some write, answer) →
    Traceless config s.policy.stores call.writing write ∧
      (call.candidate.payloadHash ≠ "" → call.candidate.payloadHash ∉ s.reviewed)

end Runs

section Steps

variable {v : Conversion} {config : PromotionConfig} {p : PromotionPolicy} {call : PromoteCall}

theorem decided_of_relationship {c : MemoryCandidate} {roomId accountId : String} {write : Write}
    {answer : Applied}
    (h : RelationshipPromotionHandler.apply v c roomId accountId = .ok (some write, answer)) :
    (decided (.ok answer)).1 = .promoted := by
  unfold RelationshipPromotionHandler.apply at h
  cases hdelta : v.floatAt "suggested_delta" c.payload with
  | error e =>
    rw [hdelta] at h
    split at h <;> cases h
  | ok suggested =>
    rw [hdelta] at h
    split at h
    · cases h
    · replace h : (if suggested = 0 then _ else _) = _ := h
      split at h
      · cases h
      · cases h
        rfl

theorem decided_of_appraisal {c : MemoryCandidate} {roomId accountId newId : String}
    {write : Write} {answer : Applied}
    (h : AppraisalPromotionHandler.apply v c roomId accountId newId = .ok (some write, answer)) :
    (decided (.ok answer)).1 = .promoted := by
  unfold AppraisalPromotionHandler.apply at h
  cases hdelta : v.floatAt "estimated_delta" c.payload with
  | error e =>
    rw [hdelta] at h
    split at h <;> cases h
  | ok estimated =>
    rw [hdelta] at h
    split at h <;> cases h
    rfl

theorem decided_of_personaPatch {c : MemoryCandidate} {newId : String} {write : Write}
    {answer : Applied}
    (h : PersonaPatchPromotionHandler.apply v c newId = .ok (some write, answer)) :
    (decided (.ok answer)).1 = .promoted ∨ decided (.ok answer) = pendingReview := by
  unfold PersonaPatchPromotionHandler.apply at h
  dsimp only at h
  split at h
  · cases h
  · split at h <;> cases h
    · exact .inr rfl
    · exact .inl rfl

theorem decided_of_style {c : MemoryCandidate} {roomId accountId newId : String}
    {write : Write} {answer : Applied}
    (h : StylePromotionHandler.apply v c roomId accountId newId = .ok (some write, answer)) :
    (decided (.ok answer)).1 = .promoted := by
  unfold StylePromotionHandler.apply at h
  dsimp only at h
  split at h
  · cases h
  · split at h <;> cases h
    rfl

/-- A handler that writes has the candidate promoted, or a patch reviewed. -/
theorem decided_of_plan {c : MemoryCandidate} {roomId accountId newId : String} {write : Write}
    {answer : Applied}
    (h : plan v config c roomId accountId newId = .ok (some write, answer)) :
    (decided (.ok answer)).1 = .promoted ∨ decided (.ok answer) = pendingReview := by
  unfold plan at h
  split at h
  · cases h
    exact .inl rfl
  split at h
  · cases h
    exact .inl rfl
  split at h
  · unfold handlerPlan at h
    split at h
    · exact .inl (decided_of_relationship h)
    · exact .inl (decided_of_appraisal h)
    · exact decided_of_personaPatch h
    · exact .inl (decided_of_style h)
  · cases h

/-- A write without a trace that raises changes nothing. -/
theorem Traceless.unchanged {s : Stores} {w : Writing} {write : Write}
    (h : Traceless config s w write) {e : String}
    (hraised : (s.perform config.keepsSnapshots w write).1 = some e) :
    (s.perform config.keepsSnapshots w write).2 = s := by
  cases w with
  | done =>
    cases write with
    | relationship =>
      unfold Stores.perform at hraised
      dsimp only at hraised
      split at hraised <;> cases hraised
    | _ => cases hraised
  | refused e' =>
    cases write with
    | relationship field delta accountId roomId sourceRecordIds =>
      unfold Stores.perform at hraised ⊢
      dsimp only at hraised ⊢
      split at hraised
      · next hkeeps =>
        rw [if_pos hkeeps]
        rcases h with h | h | ⟨_, h⟩
        · exact absurd hkeeps (Bool.eq_false_iff.mp h)
        · cases h
        · rw [h]
          rfl
      · cases hraised
    | _ => rfl
  | spoilt e' =>
    cases write with
    | relationship field delta accountId roomId sourceRecordIds =>
      rcases h with h | h | ⟨⟨_, h⟩, _⟩
      · unfold Stores.perform at hraised
        dsimp only at hraised
        rw [h, if_neg Bool.false_ne_true] at hraised
        cases hraised
      · cases h
      · cases h
    | _ => exact absurd rfl (h e')

/-- What becomes of a call that fits: the stores stay as they are, or what is written is decided
to be promoted or under review. -/
theorem Fits.cases {s : Reviewed} (h : Fits v config s call) :
    (after v config s.policy call).stores = s.policy.stores ∨
      Accepts v config s.policy call ∧ ∃ d, (promote v config s.policy call).1 = .ok d ∧
        (d.1 = .promoted ∨ d = pendingReview) ∧
        (call.candidate.payloadHash ≠ "" → call.candidate.payloadHash ∉ s.reviewed) := by
  by_cases haccepts : Accepts v config s.policy call
  · obtain ⟨hdecision, hstores⟩ := promote_of_accepts haccepts
    unfold after
    rw [hdecision, hstores]
    unfold apply
    cases hplan : plan v config call.candidate call.roomId call.accountId call.newId with
    | error e => exact .inl rfl
    | ok planned =>
      obtain ⟨write, answer⟩ := planned
      cases write with
      | none => exact .inl rfl
      | some write =>
        obtain ⟨htraceless, hreview⟩ := h haccepts write answer hplan
        dsimp only
        split
        · next e stores hperform =>
          refine .inl ?_
          have hsame := htraceless.unchanged (congrArg Prod.fst hperform)
          rw [hperform] at hsame
          exact hsame
        · exact .inr ⟨haccepts, _, rfl, decided_of_plan hplan, hreview⟩
  · refine .inl ?_
    unfold after
    rw [promote_of_not_accepts haccepts]

/-- A refusal leaves the stores as they were. -/
theorem Fits.whole {s : Reviewed} (h : Fits v config s call) {reason : String}
    (hrejected : (promote v config s.policy call).1 = .ok (.rejected, reason)) :
    (after v config s.policy call).stores = s.policy.stores := by
  rcases h.cases with hsame | ⟨_, d, hd, hdecided, _⟩
  · exact hsame
  · rw [hd] at hrejected
    cases hrejected
    rcases hdecided with hdecided | hdecided <;> cases hdecided

/-- A hash for which nothing more is to be written. -/
def Reviewed.Recorded (s : Reviewed) (hash : String) : Prop :=
  hash ∈ s.policy.seenHashes ∨ hash ∈ s.reviewed

theorem seenHashes_after {hash : String} (h : hash ∈ p.seenHashes) :
    hash ∈ (after v config p call).seenHashes := by
  unfold after promote
  split
  · exact h
  · split
    · exact h
    · dsimp only
      split
      · exact List.mem_cons_of_mem _ h
      · exact h
    · exact h

theorem Reviewed.Recorded.step {s : Reviewed} {hash : String} (h : s.Recorded hash) :
    (s.step v config call).Recorded hash := by
  refine h.imp seenHashes_after fun h => ?_
  unfold Reviewed.step
  dsimp only
  split
  · split
    · exact List.mem_cons_of_mem _ h
    · exact h
  · exact h

theorem remembered (haccepts : Accepts v config p call) {d : Decision}
    (hd : (promote v config p call).1 = .ok d) (hpromoted : d.1 = .promoted)
    (hhash : call.candidate.payloadHash ≠ "") :
    call.candidate.payloadHash ∈ (after v config p call).seenHashes := by
  rw [(promote_of_accepts haccepts).1] at hd
  obtain ⟨hseen, reason, hvalid⟩ := haccepts
  unfold after promote
  rw [hseen, if_neg Bool.false_ne_true, hvalid]
  dsimp only
  rw [Except.ok.inj hd, if_pos ⟨hpromoted, hhash⟩]
  exact List.mem_cons_self

/-- A hash for which the stores have changed is recorded. -/
theorem Fits.recorded {s : Reviewed} (h : Fits v config s call)
    (hhash : call.candidate.payloadHash ≠ "")
    (hchanged : (after v config s.policy call).stores ≠ s.policy.stores) :
    (s.step v config call).Recorded call.candidate.payloadHash := by
  rcases h.cases with hsame | ⟨haccepts, d, hd, hdecided, _⟩
  · exact absurd hsame hchanged
  · rcases hdecided with hpromoted | hreview
    · exact .inl (remembered haccepts hd hpromoted hhash)
    · refine .inr ?_
      unfold Reviewed.step
      dsimp only
      rw [hd]
      dsimp only
      rw [if_pos hreview]
      exact List.mem_cons_self

/-- Nothing changes for a recorded hash. -/
theorem Fits.unchanged {s : Reviewed} (h : Fits v config s call)
    (hguard : config.duplicateGuard = true) (hhash : call.candidate.payloadHash ≠ "")
    (hrecorded : s.Recorded call.candidate.payloadHash) :
    (after v config s.policy call).stores = s.policy.stores := by
  rcases h.cases with hsame | ⟨haccepts, _, _, _, hreview⟩
  · exact hsame
  · rcases hrecorded with hseen | hreviewed
    · have halready : isAlreadySeen v config s.policy call = true := by
        simp [isAlreadySeen, hhash, hseen]
      have hno := haccepts.1
      rw [hguard, halready] at hno
      cases hno
    · exact absurd hreviewed (hreview hhash)

theorem policy_run (s : Reviewed) (calls : List PromoteCall) :
    (Machine.run (Reviewed.step v config) s calls).policy =
      Machine.run (after v config) s.policy calls := by
  induction calls generalizing s with
  | nil => rfl
  | cons call calls ih => exact ih _

end Steps

/-- As long as every write is traceless and nothing is written for a hash under review, every
refusal leaves the stores as they were, and a hash changes them at most once. -/
theorem run_once_and_whole (v : Conversion) (config : PromotionConfig) (p : PromotionPolicy)
    (calls : List PromoteCall) (hguard : config.duplicateGuard = true)
    (hfits : Machine.Guarded (Reviewed.step v config) (Fits v config) ⟨p, []⟩ calls) :
    OnceAndWhole v config p calls := by
  have hat : ∀ before call, before ++ [call] <+: calls →
      Fits v config (Machine.run (Reviewed.step v config) ⟨p, []⟩ before) call := by
    intro before call hprefix
    exact (Machine.guarded_append.mp (hfits.of_prefix hprefix)).2.1
  constructor
  · intro before call hprefix
    have hfit := hat before call hprefix
    rw [← policy_run ⟨p, []⟩ before]
    exact fun reason => hfit.whole
  · intro before call between call' hprefix hsame hhash
    have hfirst := hat before call
      (List.IsPrefix.trans ⟨between ++ [call'], by simp⟩ hprefix)
    have hlast := hat (before ++ call :: between) call' hprefix
    rw [Machine.run_append, Machine.run_cons] at hlast
    dsimp only
    rw [← policy_run ⟨p, []⟩ before]
    intro hchanged
    have hstep := hfirst.recorded hhash hchanged
    have hkept : (Machine.run (Reviewed.step v config) _ between).Recorded
        call.candidate.payloadHash :=
      Machine.run_inv (fun s : Reviewed => s.Recorded call.candidate.payloadHash)
        (fun _ _ h => h.step) hstep between
    have hunchanged := hlast.unchanged hguard (hsame ▸ hhash) (hsame ▸ hkept)
    rw [policy_run] at hunchanged
    exact hunchanged

theorem traceless_done (config : PromotionConfig) (s : Stores) (write : Write) :
    Traceless config s .done write := by
  cases write with
  | relationship => exact .inr (.inl rfl)
  | _ => exact fun _ h => nomatch h

/-- A candidate for a memory, promoted once. -/
def fact : PromoteCall where
  candidate :=
    { id := "c2", sourceRecordIds := ["r1"], targetStore := .semantic
      payload := [("content", .str "likes trees"), ("evidence", .str "said so")]
      confidence := 9 / 10, payloadHash := "h2" }
  newId := ""

theorem fact_twice_once : OnceAndWhole .plain {} {} [fact, fact] := by
  have hreviewed : (Reviewed.step .plain {} ⟨{}, []⟩ fact).reviewed = [] := by decide +kernel
  refine run_once_and_whole .plain {} {} [fact, fact] rfl
    ⟨fun _ write _ _ => ⟨traceless_done _ _ _, fun _ => List.not_mem_nil⟩,
      fun _ write _ _ => ⟨traceless_done _ _ _, fun _ => ?_⟩, trivial⟩
  rw [hreviewed]
  exact List.not_mem_nil

/-- A candidate that raises trust, where the snapshot cannot be written. -/
def closer : PromoteCall where
  candidate :=
    { id := "c3", sourceRecordIds := ["r1"], targetStore := .relationship
      payload := [("signal", .str "trust_increase"), ("suggested_delta", .num (5 / 100))]
      confidence := 9 / 10, payloadHash := "h3" }
  accountId := "ann"
  newId := ""
  writing := .refused "disk full"

/-- The refusal of a candidate whose snapshot cannot be written leaves the live state moved. -/
theorem refused_snapshot_moves :
    ¬ ∀ (v : Conversion) (config : PromotionConfig) (p : PromotionPolicy)
      (calls : List PromoteCall), config.duplicateGuard = true → OnceAndWhole v config p calls := by
  intro h
  have hwhole := (h .plain {} {} [closer] rfl).whole [] closer (List.prefix_refl _)
    "apply_failed: disk full"
  have hrejected : (promote .plain {} {} closer).1.toOption =
      some (.rejected, "apply_failed: disk full") := by decide +kernel
  have hmoved : ((after .plain {} {} closer).stores.relationships.get? "ann").isSome = true := by
    decide +kernel
  refine absurd (congrArg (fun s => (s.relationships.get? "ann").isSome) (hwhole ?_)) ?_
  · rw [Machine.run_nil]
    cases hdecision : (promote .plain {} {} closer).1 with
    | ok d =>
      rw [hdecision] at hrejected
      exact congrArg Except.ok (Option.some.inj hrejected)
    | error e =>
      rw [hdecision] at hrejected
      cases hrejected
  · rw [Machine.run_nil]
    dsimp only
    rw [hmoved]
    decide

end PromotionPolicy

end IrisMind.Memory
