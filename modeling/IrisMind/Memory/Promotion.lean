import IrisMind.Memory.Handlers
import IrisMind.Lib.Words

/-! # Promotion

The policy decides about candidates one at a time: it refuses what it has seen,
checks the candidate, has it written and remembers its hash. What it checks is
the text under `content`; what it stores of an episode is made of two other
texts. -/
namespace IrisMind.Memory
open IrisMind.Lib

/-- What a policy is set up with. -/
structure PromotionConfig where
  minConfidence : ℚ := 3 / 4
  duplicateGuard : Bool := true
  /-- The stores with a handler. -/
  handles : TargetStore → Bool := fun _ => true
  keepsSnapshots : Bool := true

structure PromotionPolicy where
  stores : Stores := {}
  seenHashes : List String := []

/-- A call of `promote`: besides the arguments, the id of what it creates, what comes of its write
and whether a store can be listed for duplicates. -/
structure PromoteCall where
  candidate : MemoryCandidate
  roomId : String := ""
  accountId : String := ""
  newId : String
  writing : Writing := .done
  listed : Bool := true

abbrev Decision := CandidateStatus × String

namespace PromotionPolicy

def sensitiveKeywords : List String := ["住所", "電話", "メール", "パスワード", "SSN", "マイナンバー"]

def blockedCategories : List String := ["avoidance"]

/-- `keyword in text` -/
def mentions (text keyword : String) : Bool := keyword.toList <:+: text.toList

section Checks

variable (v : Conversion) (c : MemoryCandidate)

/-- The text of a field without the blanks around it. -/
def textOf (key : String) : String := Text.strip (v.strAt key "" c.payload)

def checkPersonaPatch : Decision :=
  if textOf v c "proposed_patch" = "" then (.needsReview, "persona_patch_missing_proposed_patch")
  else if textOf v c "reason" = "" then (.needsReview, "persona_patch_missing_reason")
  else if c.sourceRecordIds.isEmpty then (.needsReview, "no_source_record_ids")
  else (.promoted, "")

def checkFields : Option Decision :=
  match c.targetStore with
  | .relationship => match Dict.lookup "suggested_delta" c.payload with
    | none | some .null => some (.needsReview, "relationship_missing_suggested_delta")
    | some _ => none
  | .appraisal =>
    if textOf v c "trigger_summary" = "" then
      some (.needsReview, "appraisal_missing_trigger_summary")
    else none
  | _ =>
    if textOf v c "content" = "" then some (.rejected, "empty_content")
    else if (textOf v c "content").length < 4 then some (.needsReview, "very_short_content")
    else none

def checkSources : Option Decision :=
  if c.sourceRecordIds.isEmpty then some (.needsReview, "no_source_record_ids") else none

def checkEvidence : Option Decision :=
  if c.targetStore ∈ [.semantic, .episodic, .style] ∧ textOf v c "evidence" = "" then
    some (.needsReview, "missing_evidence")
  else none

def checkSensitive : Option Decision :=
  if c.targetStore ∈ [.semantic, .episodic] ∧ c.confidence < 9 / 10 then
    (sensitiveKeywords.find? (mentions (textOf v c "content"))).map fun keyword =>
      (.rejected, "sensitive_keyword=" ++ keyword)
  else none

/-- Membership in a set, which a value must have a hash for. -/
def isBlocked : Json → Except String Bool
  | .str s => .ok (s ∈ blockedCategories)
  | .arr _ => .error "unhashable type: 'list'"
  | .obj _ => .error "unhashable type: 'dict'"
  | _ => .ok false

def checkCategory : Except String Decision :=
  if c.targetStore ∈ [.semantic, .episodic] then do
    if (← isBlocked ((Dict.lookup "category" c.payload).getD .null)) ∧ c.confidence < 85 / 100 then
      return (.rejected, "avoidance_requires_high_confidence")
    return (.promoted, "")
  else .ok (.promoted, "")

/-- `_validate` -/
def validate (minConfidence : ℚ) : Except String Decision :=
  if c.targetStore = .personaPatch then .ok (checkPersonaPatch v c)
  else if c.confidence < minConfidence then
    .ok (.rejected, "low_confidence<" ++ v.str (.num minConfidence))
  else
    match (((checkFields v c).or (checkSources c)).or (checkEvidence v c)).or
      (checkSensitive v c) with
    | some d => .ok d
    | none => checkCategory c

end Checks

section Promote

variable (v : Conversion) (config : PromotionConfig)

/-- `_promote_semantic` -/
def promoteSemantic (c : MemoryCandidate) (roomId accountId : String) : Plan :=
  let payload := Fields.setDefault "type" (.str "user_preference") c.payload
  let payload := Fields.setDefault "tags" (.arr [.str "langmem"]) payload
  let payload := Dict.write "confidence" (.num c.confidence) payload
  let payload := Fields.setDefault "id" (.str ("sem_" ++ Text.takeChars c.id 12)) payload
  .ok (some (.semantic
    ((coerceSemanticInput v (.value (.obj payload))).withScope roomId accountId)),
    .created (v.strAt "id" "" payload))

/-- `text.strip(" ->")` -/
def stripArrow (text : String) : String :=
  let isArrow (c : Char) : Bool := c = ' ' ∨ c = '-' ∨ c = '>'
  String.ofList (Words.strip isArrow text.toList)

/-- What is made of the situation and the lesson. -/
def episode (c : MemoryCandidate) (roomId accountId : String) : EpisodicEntry :=
  let situation := v.strAt "situation" "" c.payload
  let lesson := v.strAt "lesson" "" c.payload
  let payload : EpisodicInput :=
    { content := stripArrow (situation ++ " -> " ++ lesson), kind := "interaction"
      metadata := some [("confidence", .num c.confidence)] }
  (payload.withScope roomId accountId).entry

/-- `_promote_episodic` -/
def promoteEpisodic (c : MemoryCandidate) (roomId accountId : String) : Plan :=
  .ok (some (.episodic (episode v c roomId accountId)),
    .created ("epi_" ++ Text.takeChars c.id 12))

/-- What the handler of a store does. -/
def handlerPlan (c : MemoryCandidate) (roomId accountId newId : String) : Plan :=
  match c.targetStore with
  | .relationship => RelationshipPromotionHandler.apply v c roomId accountId
  | .appraisal => AppraisalPromotionHandler.apply v c roomId accountId newId
  | .personaPatch => PersonaPatchPromotionHandler.apply v c newId
  | _ => StylePromotionHandler.apply v c roomId accountId newId

/-- `_apply`, as far as the write. -/
def plan (c : MemoryCandidate) (roomId accountId newId : String) : Plan :=
  if c.targetStore = .semantic then promoteSemantic v c roomId accountId
  else if c.targetStore = .episodic then promoteEpisodic v c roomId accountId
  else if config.handles c.targetStore then handlerPlan v c roomId accountId newId
  else .error ("no handler for " ++ c.targetStore.text)

/-- `_apply` -/
def apply (s : Stores) (call : PromoteCall) : Except String Applied × Stores :=
  match plan v config call.candidate call.roomId call.accountId call.newId with
  | .error e => (.error e, s)
  | .ok (none, answer) => (.ok answer, s)
  | .ok (some write, answer) =>
    match s.perform config.keepsSnapshots call.writing write with
    | (some e, s) => (.error e, s)
    | (none, s) => (.ok answer, s)

def isDuplicate (s : Stores) (c : MemoryCandidate) : Bool :=
  config.handles c.targetStore &&
    match c.targetStore with
    | .style => StylePromotionHandler.isDuplicate v c s.styles
    | .personaPatch => PersonaPatchPromotionHandler.isDuplicate v c s.personaPatches
    | _ => false

/-- `_is_already_seen` -/
def isAlreadySeen (p : PromotionPolicy) (call : PromoteCall) : Bool :=
  call.candidate.payloadHash ≠ "" &&
    (call.candidate.payloadHash ∈ p.seenHashes ||
      call.listed && isDuplicate v config p.stores call.candidate)

/-- What is made of the answer of a handler. -/
def decided : Except String Applied → Decision
  | .error e => (.rejected, "apply_failed: " ++ e)
  | .ok .none => (.rejected, "handler_returned_none")
  | .ok (.created _) => (.promoted, "")
  | .ok (.outcome o) => (o.status, o.reason)

/-- `promote`; an exception that `_validate` raises is not caught. -/
def promote (p : PromotionPolicy) (call : PromoteCall) : Except String Decision × PromotionPolicy :=
  if config.duplicateGuard && isAlreadySeen v config p call then
    (.ok (.rejected, "duplicate_payload_hash"), p)
  else
    match validate v call.candidate config.minConfidence with
    | .error e => (.error e, p)
    | .ok (.promoted, _) =>
      let (answer, stores) := apply v config p.stores call
      let seen := if (decided answer).1 = .promoted ∧ call.candidate.payloadHash ≠ "" then
        call.candidate.payloadHash :: p.seenHashes else p.seenHashes
      (.ok (decided answer), { stores, seenHashes := seen })
    | .ok d => (.ok d, p)

/-- Whether the policy gets as far as having the candidate written. -/
def Accepts (p : PromotionPolicy) (call : PromoteCall) : Prop :=
  (config.duplicateGuard && isAlreadySeen v config p call) = false ∧
    ∃ reason, validate v call.candidate config.minConfidence = .ok (.promoted, reason)

end Promote

/-! ## What a promotion stores -/

section Sensitive

variable {v : Conversion} {config : PromotionConfig} {p : PromotionPolicy} {call : PromoteCall}

/-- Nothing changes unless the candidate is accepted. -/
theorem promote_of_not_accepts (h : ¬ Accepts v config p call) :
    (promote v config p call).2 = p := by
  unfold promote
  split
  · rfl
  · next hseen =>
    split
    · rfl
    · next reason hvalid => exact absurd ⟨Bool.eq_false_iff.mpr hseen, reason, hvalid⟩ h
    · rfl

/-- An accepted candidate is applied. -/
theorem promote_of_accepts (h : Accepts v config p call) :
    (promote v config p call).1 = .ok (decided (apply v config p.stores call).1) ∧
      (promote v config p call).2.stores = (apply v config p.stores call).2 := by
  obtain ⟨hseen, reason, hvalid⟩ := h
  unfold promote
  rw [hseen, if_neg Bool.false_ne_true, hvalid]
  exact ⟨rfl, rfl⟩

/-- None of the keywords is in a text. -/
def Harmless (text : String) : Prop := ∀ keyword ∈ sensitiveKeywords, mentions text keyword = false

instance (text : String) : Decidable (Harmless text) :=
  inferInstanceAs (Decidable (∀ keyword ∈ sensitiveKeywords, mentions text keyword = false))

/-- None of the keywords has a blank or a part of an arrow. -/
theorem keyword_char {keyword : String} (h : keyword ∈ sensitiveKeywords) {c : Char}
    (hc : c ∈ keyword.toList) :
    Text.isSpace c = false ∧ decide (c = ' ' ∨ c = '-' ∨ c = '>') = false := by
  have hall : (sensitiveKeywords.all fun keyword => keyword.toList.all fun c =>
      !Text.isSpace c && !decide (c = ' ' ∨ c = '-' ∨ c = '>')) = true := by decide +kernel
  have hchar := List.all_eq_true.mp (List.all_eq_true.mp hall keyword h) c hc
  rw [Bool.and_eq_true, Bool.not_eq_true', Bool.not_eq_true'] at hchar
  exact hchar

theorem mentions_strip {isSep : Char → Bool} {keyword : String}
    (h : ∀ c ∈ keyword.toList, isSep c = false) (text : String) :
    mentions (String.ofList (Words.strip isSep text.toList)) keyword = mentions text keyword := by
  rw [mentions, mentions, String.toList_ofList]
  exact decide_eq_decide.mpr (Words.infix_strip h)

theorem mentions_textOf {keyword : String} (h : keyword ∈ sensitiveKeywords) (c : MemoryCandidate)
    (key : String) :
    mentions (textOf v c key) keyword = mentions (v.strAt key "" c.payload) keyword :=
  mentions_strip (fun _ hch => (keyword_char h hch).1) _

/-- What a check refuses is not promoted. -/
theorem status_of_check {c : MemoryCandidate} {d : Decision}
    (h : (((checkFields v c).or (checkSources c)).or (checkEvidence v c)).or
      (checkSensitive v c) = some d) : d.1 ≠ .promoted := by
  rcases Option.or_eq_some_iff.mp h with h | ⟨_, h⟩
  · rcases Option.or_eq_some_iff.mp h with h | ⟨_, h⟩
    · rcases Option.or_eq_some_iff.mp h with h | ⟨_, h⟩
      · unfold checkFields at h
        (repeat' split at h) <;> cases h <;> exact CandidateStatus.noConfusion
      · unfold checkSources at h
        split at h <;> cases h
        exact CandidateStatus.noConfusion
    · unfold checkEvidence at h
      split at h <;> cases h
      exact CandidateStatus.noConfusion
  · unfold checkSensitive at h
    split at h
    · obtain ⟨_, _, rfl⟩ := Option.map_eq_some_iff.mp h
      exact CandidateStatus.noConfusion
    · cases h

/-- What is promoted has passed every check. -/
theorem checks_of_validate {c : MemoryCandidate} {minConfidence : ℚ} {reason : String}
    (hpersona : c.targetStore ≠ .personaPatch)
    (h : validate v c minConfidence = .ok (.promoted, reason)) :
    checkFields v c = none ∧ checkEvidence v c = none ∧ checkSensitive v c = none ∧
      checkCategory c = .ok (.promoted, reason) := by
  unfold validate at h
  rw [if_neg hpersona] at h
  split at h
  · cases h
  · split at h
    · next d hd =>
      exact absurd (congrArg Prod.fst (Except.ok.inj h)) (status_of_check hd)
    · next hnone =>
      obtain ⟨hrest, hsensitive⟩ := Option.or_eq_none_iff.mp hnone
      obtain ⟨hrest, hevidence⟩ := Option.or_eq_none_iff.mp hrest
      exact ⟨(Option.or_eq_none_iff.mp hrest).1, hevidence, hsensitive, h⟩

theorem ne_personaPatch {t : TargetStore} (h : t ∈ [.semantic, .episodic]) :
    t ≠ .personaPatch := by
  rintro rfl
  simp at h

/-- The content of what is promoted has been found to be without keywords. -/
theorem harmless_of_validate {c : MemoryCandidate} {minConfidence : ℚ} {reason : String}
    (htarget : c.targetStore ∈ [.semantic, .episodic]) (hconf : c.confidence < 9 / 10)
    (h : validate v c minConfidence = .ok (.promoted, reason)) :
    Harmless (v.strAt "content" "" c.payload) := by
  obtain ⟨_, _, hsensitive, _⟩ := checks_of_validate (ne_personaPatch htarget) h
  rw [checkSensitive, if_pos ⟨htarget, hconf⟩, Option.map_eq_none_iff,
    List.find?_eq_none] at hsensitive
  intro keyword hkeyword
  rw [← mentions_textOf hkeyword]
  exact Bool.eq_false_iff.mpr (hsensitive keyword hkeyword)

theorem summary_episode (v : Conversion) (c : MemoryCandidate) (roomId accountId : String) :
    let content := stripArrow (v.strAt "situation" "" c.payload ++ " -> " ++
      v.strAt "lesson" "" c.payload)
    (episode v c roomId accountId).summary = content ∨
      (episode v c roomId accountId).summary = "[interaction]" ++ " " ++ content :=
  ite_eq_or_eq _ _ _

/-- What is composed of two texts has a keyword only if one of them has. -/
theorem harmless_summary {c : MemoryCandidate} (hs : Harmless (v.strAt "situation" "" c.payload))
    (hl : Harmless (v.strAt "lesson" "" c.payload)) (roomId accountId : String) :
    Harmless (episode v c roomId accountId).summary := by
  intro keyword hkeyword
  have hseps : ∀ c ∈ " -> ".toList, c ∉ keyword.toList := by
    intro c hc hkey
    have hno := (keyword_char hkeyword hkey).2
    have hall : " -> ".toList.all (fun c => decide (c = ' ' ∨ c = '-' ∨ c = '>')) = true := by
      decide
    exact absurd (List.all_eq_true.mp hall c hc) (Bool.eq_false_iff.mp hno)
  have htag : mentions "[interaction]" keyword = false := by
    have htag : Harmless "[interaction]" := by decide +kernel
    exact htag keyword hkeyword
  have hcontent : mentions (stripArrow (v.strAt "situation" "" c.payload ++ " -> " ++
      v.strAt "lesson" "" c.payload)) keyword = false := by
    rw [stripArrow, mentions_strip fun c hc => (keyword_char hkeyword hc).2]
    refine decide_eq_false fun h => ?_
    rw [String.toList_append, String.toList_append, List.append_assoc] at h
    exact (Words.infix_append_seps hseps h).elim (of_decide_eq_false (hs keyword hkeyword))
      (of_decide_eq_false (hl keyword hkeyword))
  rcases summary_episode v c roomId accountId with h | h
  · rw [h]
    exact hcontent
  · rw [h]
    refine decide_eq_false fun h => ?_
    rw [String.toList_append, String.toList_append, List.append_assoc] at h
    have hblank : ∀ ch ∈ [' '], ch ∉ keyword.toList := fun ch hch =>
      hseps ch (List.mem_singleton.mp hch ▸ by decide)
    exact (Words.infix_append_seps hblank h).elim (of_decide_eq_false htag)
      (of_decide_eq_false hcontent)

/-- What is stored in long-term memory mentions no keyword, nor do the texts that an episode is
composed of. -/
def StoresNothingSensitive (v : Conversion) (config : PromotionConfig) (p : PromotionPolicy)
    (call : PromoteCall) : Prop :=
  let stores := (promote v config p call).2.stores
  (∀ new, stores.semantic = p.stores.semantic ++ new → ∀ payload ∈ new, Harmless payload.content) ∧
    ∀ new, stores.episodic = p.stores.episodic ++ new → ∀ entry ∈ new, Harmless entry.summary ∧
      Harmless (v.strAt "situation" "" call.candidate.payload) ∧
      Harmless (v.strAt "lesson" "" call.candidate.payload)

theorem content_promoteSemantic (c : MemoryCandidate) (roomId accountId : String) :
    ∃ payload answer,
      promoteSemantic v c roomId accountId = .ok (some (.semantic payload), answer) ∧
        payload.content = v.strAt "content" "" c.payload := by
  refine ⟨_, _, rfl, ?_⟩
  change v.strAt "content" "" _ = _
  unfold Conversion.strAt
  rw [Fields.lookup_setDefault (by decide), Dict.lookup_write, if_neg (by decide),
    Fields.lookup_setDefault (by decide), Fields.lookup_setDefault (by decide)]

theorem not_mem_new {α : Type} {old new : List α} (h : old = old ++ new) (x : α) : x ∉ new :=
  List.self_eq_append_right.mp h ▸ List.not_mem_nil

theorem Writing.mem_new {α : Type} {w : Writing} {old new : List α} {x : α}
    (h : w.leaves old (old ++ [x]) = old ++ new) : ∀ y ∈ new, y = x := by
  intro y hy
  cases w with
  | refused e => exact absurd hy (not_mem_new h y)
  | _ =>
    have hone : [x] = new := List.append_cancel_left h
    exact List.mem_singleton.mp (hone ▸ hy)

theorem stores_apply {s : Stores} {write : Write} {answer : Applied}
    (h : plan v config call.candidate call.roomId call.accountId call.newId =
      .ok (some write, answer)) :
    (apply v config s call).2 = (s.perform config.keepsSnapshots call.writing write).2 := by
  unfold apply
  rw [h]
  dsimp only
  split <;> next heq => rw [heq]

/-- A lesson is stored without anything sensitive. -/
theorem semantic_harmless (htarget : call.candidate.targetStore = .semantic)
    (hconf : call.candidate.confidence < 9 / 10) : StoresNothingSensitive v config p call := by
  by_cases haccepts : Accepts v config p call
  · obtain ⟨payload, answer, hplan, hcontent⟩ := content_promoteSemantic (v := v) call.candidate
      call.roomId call.accountId
    have hstores : (promote v config p call).2.stores =
        { p.stores with semantic :=
          call.writing.leaves p.stores.semantic (p.stores.semantic ++ [payload]) } := by
      rw [(promote_of_accepts haccepts).2, stores_apply (by rw [plan, if_pos htarget]; exact hplan)]
      rfl
    obtain ⟨_, reason, hvalid⟩ := haccepts
    have hharmless := harmless_of_validate (by simp [htarget]) hconf hvalid
    unfold StoresNothingSensitive
    rw [hstores]
    refine ⟨fun new hnew x hx => ?_, fun new hnew x hx => ?_⟩
    · rw [Writing.mem_new hnew x hx, hcontent]
      exact hharmless
    · exact absurd hx (not_mem_new hnew x)
  · unfold StoresNothingSensitive
    rw [promote_of_not_accepts haccepts]
    exact ⟨fun new hnew x hx => absurd hx (not_mem_new hnew x),
      fun new hnew x hx => absurd hx (not_mem_new hnew x)⟩

/-- What is stored of an accepted episode. -/
theorem stores_episodic (htarget : call.candidate.targetStore = .episodic)
    (haccepts : Accepts v config p call) :
    (promote v config p call).2.stores =
      { p.stores with
        episodic := call.writing.leaves p.stores.episodic (p.stores.episodic ++
          [episode v call.candidate call.roomId call.accountId]) } := by
  have hsemantic : call.candidate.targetStore ≠ .semantic := by
    simp [htarget]
  rw [(promote_of_accepts haccepts).2,
    stores_apply (by rw [plan, if_neg hsemantic, if_pos htarget]; rfl)]
  rfl

end Sensitive

/-- A candidate without high confidence brings nothing sensitive into long-term memory exactly if
it is a lesson, or nothing is stored of it, or neither of the texts of the episode mentions a
keyword. -/
theorem stores_nothing_sensitive_iff (v : Conversion) (config : PromotionConfig)
    (p : PromotionPolicy) (call : PromoteCall)
    (htarget : call.candidate.targetStore ∈ [.semantic, .episodic])
    (hconf : call.candidate.confidence < 9 / 10) :
    StoresNothingSensitive v config p call ↔
      call.candidate.targetStore = .semantic ∨ ¬ Accepts v config p call ∨
        (∃ e, call.writing = .refused e) ∨
        Harmless (v.strAt "situation" "" call.candidate.payload) ∧
          Harmless (v.strAt "lesson" "" call.candidate.payload) := by
  by_cases hsemantic : call.candidate.targetStore = .semantic
  · exact iff_of_true (semantic_harmless hsemantic hconf) (.inl hsemantic)
  · have hepisodic : call.candidate.targetStore = .episodic := by
      simpa [hsemantic] using htarget
    by_cases haccepts : Accepts v config p call
    · have hstores := stores_episodic hepisodic haccepts
      unfold StoresNothingSensitive
      rw [hstores]
      constructor
      · rintro ⟨_, hall⟩
        cases hwriting : call.writing with
        | refused e => exact .inr (.inr (.inl ⟨e, rfl⟩))
        | _ =>
          rw [hwriting] at hall
          exact .inr (.inr (.inr (hall _ rfl _ (List.mem_singleton_self _)).2))
      · rintro (h | h | ⟨e, h⟩ | ⟨hs, hl⟩)
        · exact absurd h hsemantic
        · exact absurd haccepts h
        · rw [h]
          exact ⟨fun new hnew x hx =>
              absurd hx (not_mem_new hnew x),
            fun new hnew x hx => absurd hx (not_mem_new hnew x)⟩
        · refine ⟨fun new hnew x hx =>
            absurd hx (not_mem_new hnew x),
            fun new hnew x hx => ⟨?_, hs, hl⟩⟩
          rw [Writing.mem_new hnew x hx]
          exact harmless_summary hs hl _ _
    · refine iff_of_true ?_ (.inr (.inl haccepts))
      unfold StoresNothingSensitive
      rw [promote_of_not_accepts haccepts]
      exact ⟨fun new hnew x hx => absurd hx (not_mem_new hnew x),
        fun new hnew x hx => absurd hx (not_mem_new hnew x)⟩

/-- A walk that the user took, which is no secret. -/
def walk : MemoryCandidate where
  id := "c1"
  sourceRecordIds := ["r1"]
  targetStore := .episodic
  payload := [("content", .str "a walk"), ("evidence", .str "said so"),
    ("situation", .str "a walk in the park"), ("lesson", .str "likes trees")]
  confidence := 8 / 10
  payloadHash := "h1"

theorem walk_harmless : StoresNothingSensitive .plain {} {} { candidate := walk, newId := "" } :=
  (stores_nothing_sensitive_iff .plain {} {} { candidate := walk, newId := "" } (by decide)
    (by decide +kernel)).mpr (.inr (.inr (.inr (by decide +kernel))))

/-- An address, under a content that says nothing of it. -/
def address : MemoryCandidate :=
  { walk with payload := [("content", .str "a walk"), ("evidence", .str "said so"),
    ("situation", .str "住所は東京"), ("lesson", .str "likes trees")] }

/-- An address is stored that the check of the content does not see. -/
theorem address_stored :
    ¬ ∀ (v : Conversion) (config : PromotionConfig) (p : PromotionPolicy) (call : PromoteCall),
      call.candidate.targetStore ∈ [.semantic, .episodic] → call.candidate.confidence < 9 / 10 →
      StoresNothingSensitive v config p call := by
  intro h
  have hall := (h .plain {} {} { candidate := address, newId := "" } (by decide)
    (by decide +kernel)).2
  have hstored : (promote .plain {} {} { candidate := address, newId := "" }).2.stores.episodic.map
      (·.summary) = ["[interaction] 住所は東京 -> likes trees"] := by decide +kernel
  obtain ⟨entry, hentry, hsummary⟩ := List.mem_map.mp (hstored ▸ List.mem_singleton_self _)
  have hno := (hall _ rfl entry hentry).1 "住所" (by decide)
  rw [hsummary] at hno
  exact absurd hno (by decide +kernel)

end PromotionPolicy

end IrisMind.Memory
