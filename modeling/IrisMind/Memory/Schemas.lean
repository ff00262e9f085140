import IrisMind.Memory.Extraction
import Mathlib.Tactic.NormNum
import Mathlib.Tactic.FinCases

/-! # Schemas of extraction

Every pass has a schema that its items are validated against: names and kinds of
fields, some with a default. What a validated item has is what promotion asks
for, but for episodes, whose schema has neither the content nor the evidence
that is asked for. -/
namespace IrisMind.Memory
open IrisMind.Lib

inductive FieldKind where
  | text
  | number
  /-- A number from 0 to 1. -/
  | confidence
  | oneOf (values : List String)

/-- A field of a schema, which is required unless it has a default. -/
structure FieldSpec where
  name : String
  kind : FieldKind
  default : Option Json := none

namespace FieldKind

variable (v : Conversion)

/-- The number that a field is validated as. -/
def number? : Json → Option ℚ
  | .str s => if s = "" then none else (v.parse s).toOption
  | j => j.number?

def accepts : FieldKind → Json → Bool
  | text, .str _ => true
  | text, _ => false
  | number, j => (number? v j).isSome
  | confidence, j => match number? v j with
    | some q => 0 ≤ q ∧ q ≤ 1
    | none => false
  | oneOf values, .str s => s ∈ values
  | oneOf _, _ => false

/-- The value of a validated field. -/
def value (j : Json) : FieldKind → Json
  | number => ((number? v j).map Json.num).getD j
  | confidence => ((number? v j).map Json.num).getD j
  | _ => j

/-- What the value of a validated field is. -/
def Holds : FieldKind → Json → Prop
  | text, j => ∃ s, j = .str s
  | number, j => ∃ q, j = .num q
  | confidence, j => ∃ q, j = .num q ∧ 0 ≤ q ∧ q ≤ 1
  | oneOf values, j => ∃ s ∈ values, j = .str s

end FieldKind

def schema : PassType → List FieldSpec
  | .semantic => -- UserPreferenceMemory
    [⟨"category", .oneOf ["communication", "technical", "creative", "personal_preference",
      "avoidance", "project"], none⟩, ⟨"content", .text, none⟩, ⟨"evidence", .text, none⟩,
      ⟨"confidence", .confidence, none⟩,
      ⟨"scope", .oneOf ["account", "room", "global"], some (.str "account")⟩]
  | .episodic => -- EpisodicInteractionMemory
    [⟨"situation", .text, none⟩, ⟨"user_intent", .text, none⟩, ⟨"assistant_action", .text, none⟩,
      ⟨"result", .text, none⟩, ⟨"lesson", .text, none⟩, ⟨"confidence", .confidence, none⟩]
  | .style => -- StyleMemory
    [⟨"kind", .oneOf (StyleKind.all.map StyleKind.text), none⟩, ⟨"content", .text, none⟩,
      ⟨"evidence", .text, none⟩, ⟨"confidence", .confidence, none⟩,
      ⟨"activation_condition", .text, some (.str "")⟩]
  | .relationship => -- RelationshipMemoryCandidate
    [⟨"signal", .oneOf ["trust_increase", "trust_decrease", "familiarity_increase", "boundary_set",
      "preference_disclosed", "repair_needed"], none⟩, ⟨"evidence", .text, none⟩,
      ⟨"suggested_delta", .number, some (.num 0)⟩, ⟨"confidence", .confidence, none⟩]
  | .appraisal => -- AppraisalMemoryCandidate
    [⟨"trigger_summary", .text, none⟩,
      ⟨"appraisal_dimension", .oneOf ["novelty", "pleasantness", "goal_relevance", "agency",
        "coping_potential", "accountability", "control", "social_norms"], none⟩,
      ⟨"estimated_delta", .number, some (.num 0)⟩, ⟨"reason", .text, none⟩,
      ⟨"confidence", .confidence, none⟩]
  | .personaPatch => -- PersonaPatchMemoryCandidate
    [⟨"target_file", .text, some (.str PersonaPatchPromotionHandler.defaultTarget)⟩,
      ⟨"proposed_patch", .text, none⟩, ⟨"reason", .text, none⟩,
      ⟨"evidence", .text, some (.str "")⟩, ⟨"confidence", .confidence, none⟩]

section Validation

variable (v : Conversion) (pass : PassType) (fields : List (String × Json))

def validates : Bool :=
  (schema pass).all fun f => match Dict.lookup f.name fields with
    | some j => f.kind.accepts v j
    | none => f.default.isSome

/-- The fields of the model that is made of valid fields. -/
def modelDump : List (String × Json) :=
  (schema pass).map fun f => (f.name, match Dict.lookup f.name fields with
    | some j => f.kind.value v j
    | none => f.default.getD .null)

/-- The items that validate, as dictionaries and as models. -/
inductive Validated : Item → Prop
  | dict (h : validates v pass fields = true) : Validated (.dict fields)
  | model (h : validates v pass fields = true) : Validated (.model (modelDump v pass fields))

end Validation

section Validated

variable {v : Conversion} {pass : PassType} {fields : List (String × Json)}

/-- Every default passes its own check. -/
theorem default_accepted (pass : PassType) : ∀ f ∈ schema pass, ∀ j, f.default = some j →
    f.kind.accepts v j = true := by
  cases pass <;> simp [schema, FieldKind.accepts, FieldKind.number?, Json.number?]

/-- The value of an accepted field is accepted. -/
theorem accepts_value {kind : FieldKind} {j : Json} (h : kind.accepts v j = true) :
    kind.accepts v (kind.value v j) = true := by
  cases kind with
  | number =>
    obtain ⟨q, hq⟩ := Option.isSome_iff_exists.mp h
    rw [FieldKind.value, hq]
    rfl
  | confidence =>
    cases hq : FieldKind.number? v j with
    | none =>
      rw [FieldKind.accepts, hq] at h
      cases h
    | some q =>
      rw [FieldKind.accepts, hq] at h
      rw [FieldKind.value, hq]
      exact h
  | text => exact h
  | oneOf values => exact h

theorem names_nodup (pass : PassType) : ((schema pass).map (·.name)).Nodup := by
  cases pass <;> decide

/-- A field of a schema is there in valid fields, unless it has a default. -/
theorem accepted_of_validates (h : validates v pass fields = true) {f : FieldSpec}
    (hf : f ∈ schema pass) :
    (∃ j, Dict.lookup f.name fields = some j ∧ f.kind.accepts v j = true) ∨
      Dict.lookup f.name fields = none ∧ f.default.isSome = true := by
  have hfield := List.all_eq_true.mp h f hf
  split at hfield
  · next j hj => exact .inl ⟨j, hj, hfield⟩
  · next hj => exact .inr ⟨hj, hfield⟩

/-- A model that is made of valid fields is valid itself. -/
theorem validates_modelDump (h : validates v pass fields = true) :
    validates v pass (modelDump v pass fields) = true := by
  refine List.all_eq_true.mpr fun f hf => ?_
  have hnames : ((modelDump v pass fields).map Prod.fst).Nodup := by
    rw [modelDump, List.map_map]
    exact names_nodup pass
  rw [Dict.lookup_of_mem hnames (List.mem_map.mpr ⟨f, hf, rfl⟩)]
  dsimp only
  rcases accepted_of_validates h hf with ⟨j, hj, haccepts⟩ | ⟨hj, hdefault⟩
  · rw [hj]
    exact accepts_value haccepts
  · rw [hj]
    obtain ⟨j, hj⟩ := Option.isSome_iff_exists.mp hdefault
    rw [hj]
    exact default_accepted pass f hf j hj

theorem holds_value {kind : FieldKind} {j : Json} (h : kind.accepts v j = true) :
    kind.Holds (kind.value v j) := by
  cases kind with
  | number =>
    obtain ⟨q, hq⟩ := Option.isSome_iff_exists.mp h
    exact ⟨q, by simp [FieldKind.value, hq]⟩
  | confidence =>
    cases hq : FieldKind.number? v j with
    | none => simp [FieldKind.accepts, hq] at h
    | some q =>
      simp only [FieldKind.accepts, hq, decide_eq_true_eq] at h
      exact ⟨q, by simp [FieldKind.value, hq], h⟩
  | text =>
    cases j with
    | str s => exact ⟨s, rfl⟩
    | _ => cases h
  | oneOf values =>
    cases j with
    | str s => exact ⟨s, of_decide_eq_true h, rfl⟩
    | _ => cases h

theorem default_holds (pass : PassType) : ∀ f ∈ schema pass, ∀ j, f.default = some j →
    f.kind.Holds j := by
  cases pass <;> simp [schema, FieldKind.Holds]

/-- A model has the fields of its schema, each with a value of its kind. -/
theorem modelDump_holds (h : validates v pass fields = true) :
    List.Forall₂ (fun f p => ∃ j, p = (f.name, j) ∧ f.kind.Holds j) (schema pass)
      (modelDump v pass fields) := by
  rw [modelDump, List.forall₂_map_right_iff, List.forall₂_same]
  intro f hf
  refine ⟨_, rfl, ?_⟩
  rcases accepted_of_validates h hf with ⟨j, hj, haccepts⟩ | ⟨hj, hdefault⟩
  · simp only [hj]
    exact holds_value haccepts
  · obtain ⟨d, hd⟩ := Option.isSome_iff_exists.mp hdefault
    simp only [hj, hd, Option.getD_some]
    exact default_holds pass f hf d hd

theorem Validated.payload {it : Item} (h : Validated v pass fields it) :
    ∃ payload, it.payload = .ok payload ∧ validates v pass payload = true := by
  cases h with
  | dict h => exact ⟨_, rfl, h⟩
  | model h => exact ⟨_, rfl, validates_modelDump h⟩

theorem text_of_validates (h : validates v pass fields = true) {name : String}
    (hf : ⟨name, .text, none⟩ ∈ schema pass) :
    ∃ s, Dict.lookup name fields = some (.str s) := by
  rcases accepted_of_validates h hf with ⟨j, hj, haccepts⟩ | ⟨_, hdefault⟩
  · cases j with
    | str s => exact ⟨s, hj⟩
    | _ => cases haccepts
  · cases hdefault

theorem floatAt_of_number? {key : String} {j : Json} {q : ℚ}
    (hj : Dict.lookup key fields = some j) (hq : FieldKind.number? v j = some q) :
    v.floatAt key fields = .ok q := by
  cases j with
  | str s =>
    rw [FieldKind.number?] at hq
    split at hq
    · cases hq
    · next hs =>
      rw [Conversion.floatAt, hj]
      dsimp only
      rw [Json.truthy, if_pos (bne_iff_ne.mpr hs), Conversion.float]
      cases hp : v.parse s with
      | error e =>
        rw [hp] at hq
        cases hq
      | ok q' =>
        rw [hp] at hq
        rw [Option.some.inj hq]
  | _ => exact v.floatAt_of_number hj hq

end Validated

/-! ## What promotion asks for -/

section Promoted

open PromotionPolicy

variable {v : Conversion} {config : PromotionConfig} {p : PromotionPolicy} {call : PromoteCall}

/-- A candidate that nobody could object to: of high confidence, with texts of some length that
mention no keyword, and with a delta, where its schema has one. -/
structure Convincing (v : Conversion) (config : PromotionConfig) (c : MemoryCandidate) : Prop where
  confident : max (9 / 10) config.minConfidence ≤ c.confidence
  texts : ∀ f ∈ schema c.targetStore, f.kind = .text → f.default = none → ∀ s,
    Dict.lookup f.name c.payload = some (.str s) → 4 ≤ (Text.strip s).length ∧ Harmless s
  deltas : ∀ f ∈ schema c.targetStore, f.kind = .number → ∃ j q,
    Dict.lookup f.name c.payload = some j ∧ FieldKind.number? v j = some q ∧ q ≠ 0

/-- A plan to write to a store and have the candidate promoted. -/
def Promotes (target : TargetStore) (planned : Plan) : Prop :=
  ∃ write answer, planned = .ok (some write, answer) ∧ write.target = target ∧
    (decided (.ok answer)).1 = .promoted

/-- Whether the write to a store raises nothing. Without snapshots, a relationship is not
written. -/
def Written (config : PromotionConfig) (target : TargetStore) (w : Writing) : Prop :=
  w.error? = none ∨ target = .relationship ∧ config.keepsSnapshots = false

theorem perform_error_iff {s : Stores} {w : Writing} {write : Write} :
    (s.perform config.keepsSnapshots w write).1 = none ↔ Written config write.target w := by
  cases write with
  | relationship =>
    unfold Stores.perform Written
    cases hkeeps : config.keepsSnapshots with
    | true => exact ⟨.inl, fun h => h.elim id fun h => nomatch h.2⟩
    | false => exact iff_of_true rfl (.inr ⟨rfl, rfl⟩)
  | _ => exact ⟨.inl, fun h => h.elim id fun h => nomatch h.1⟩

theorem promoted_iff_written {target : TargetStore} (haccepts : Accepts v config p call)
    (hplan : Promotes target
      (plan v config call.candidate call.roomId call.accountId call.newId)) :
    (∃ reason, (promote v config p call).1 = .ok (.promoted, reason)) ↔
      Written config target call.writing := by
  obtain ⟨write, answer, hplan, rfl, hanswer⟩ := hplan
  rw [← perform_error_iff (s := p.stores), (promote_of_accepts haccepts).1]
  unfold apply
  rw [hplan]
  dsimp only
  split
  · next e _ heq =>
    rw [heq]
    refine iff_of_false ?_ (Option.some_ne_none e)
    rintro ⟨reason, h⟩
    cases h
  · next heq =>
    rw [heq]
    exact iff_of_true ⟨_, congrArg Except.ok (Prod.ext hanswer rfl)⟩ rfl

theorem accepts_of_promoted {reason : String}
    (h : (promote v config p call).1 = .ok (.promoted, reason)) : Accepts v config p call := by
  unfold promote at h
  split at h
  · cases h
  · next hseen =>
    split at h
    · cases h
    · next reason' hvalid => exact ⟨Bool.eq_false_iff.mpr hseen, reason', hvalid⟩
    · next d hno hvalid =>
      cases h
      exact absurd rfl (hno reason)

theorem validate_of_checks {c : MemoryCandidate} (hpersona : c.targetStore ≠ .personaPatch)
    (hconf : max (9 / 10) config.minConfidence ≤ c.confidence) (hsources : c.sourceRecordIds ≠ [])
    (hfields : checkFields v c = none) (hevidence : checkEvidence v c = none)
    (hcategory : c.targetStore ∈ [.semantic, .episodic] →
      ∃ b, isBlocked ((Dict.lookup "category" c.payload).getD .null) = .ok b) :
    validate v c config.minConfidence = .ok (.promoted, "") := by
  obtain ⟨hhigh, hmin⟩ := max_le_iff.mp hconf
  have hchecked : checkSources c = none := if_neg (by rw [List.isEmpty_iff]; exact hsources)
  have hsensitive : checkSensitive v c = none := if_neg fun h => absurd h.2 (not_lt.mpr hhigh)
  unfold validate
  rw [if_neg hpersona, if_neg (not_lt.mpr hmin), hfields, hchecked, hevidence, hsensitive]
  dsimp only [Option.or]
  unfold checkCategory
  split
  · next htarget =>
    obtain ⟨b, hb⟩ := hcategory htarget
    rw [hb]
    have hlow : ¬ c.confidence < 85 / 100 := by
      refine not_lt.mpr (le_trans ?_ hhigh)
      norm_num
    exact if_neg fun h => hlow h.2
  · rfl

theorem textOf_of_lookup {c : MemoryCandidate} {key s : String}
    (h : Dict.lookup key c.payload = some (.str s)) : textOf v c key = Text.strip s := by
  rw [textOf, v.strAt_of_text h]

/-- A required text of a convincing candidate is no shorter than four characters. -/
theorem Convincing.text {c : MemoryCandidate} (h : Convincing v config c) {pass : PassType}
    (htarget : c.targetStore = pass) (hvalid : validates v pass c.payload = true) {name : String}
    (hf : ⟨name, .text, none⟩ ∈ schema pass) : 4 ≤ (textOf v c name).length := by
  subst htarget
  obtain ⟨s, hs⟩ := text_of_validates hvalid hf
  rw [textOf_of_lookup hs]
  exact (h.texts _ hf rfl rfl s hs).1

/-- A delta of a convincing candidate is there. -/
theorem Convincing.delta {c : MemoryCandidate} (h : Convincing v config c) {pass : PassType}
    (htarget : c.targetStore = pass) {name : String} {default : Option Json}
    (hf : ⟨name, .number, default⟩ ∈ schema pass) : ∃ j q, Dict.lookup name c.payload = some j ∧
      FieldKind.number? v j = some q ∧ q ≠ 0 := by
  subst htarget
  exact h.deltas _ hf rfl

theorem ne_empty_of_length {s : String} (h : 4 ≤ s.length) : s ≠ "" := by
  rintro rfl
  exact absurd h (by decide)

/-- The content and the evidence are enough for a candidate with a content. -/
theorem validate_of_content {c : MemoryCandidate} (hc : Convincing v config c)
    (hsources : c.sourceRecordIds ≠ [])
    (htarget : c.targetStore ∈ [.semantic, .episodic, .style])
    (hcontent : 4 ≤ (textOf v c "content").length) (hevidence : textOf v c "evidence" ≠ "")
    (hcategory : c.targetStore ∈ [.semantic, .episodic] →
      ∃ b, isBlocked ((Dict.lookup "category" c.payload).getD .null) = .ok b) :
    validate v c config.minConfidence = .ok (.promoted, "") := by
  have hpersona : c.targetStore ≠ .personaPatch := by
    rintro heq
    simp [heq] at htarget
  refine validate_of_checks hpersona hc.confident hsources ?_ (if_neg fun h => hevidence h.2)
    hcategory
  have hfields : (if textOf v c "content" = "" then some (.rejected, "empty_content")
      else if (textOf v c "content").length < 4 then some (.needsReview, "very_short_content")
      else none : Option Decision) = none := by
    rw [if_neg (ne_empty_of_length hcontent), if_neg (not_lt.mpr hcontent)]
  unfold checkFields
  cases htarget' : c.targetStore with
  | relationship => simp [htarget'] at htarget
  | appraisal => simp [htarget'] at htarget
  | _ => exact hfields

theorem plan_semantic (htarget : call.candidate.targetStore = .semantic) :
    Promotes .semantic
      (plan v config call.candidate call.roomId call.accountId call.newId) := by
  refine ⟨?write, ?answer, ?planned, ?target, ?decided⟩
  case planned => exact if_pos htarget
  case target => rfl
  case decided => rfl

theorem plan_episodic (htarget : call.candidate.targetStore = .episodic) :
    Promotes .episodic
      (plan v config call.candidate call.roomId call.accountId call.newId) := by
  refine ⟨?write, ?answer, ?planned, ?target, ?decided⟩
  case planned =>
    unfold plan
    rw [htarget, if_neg (by decide), if_pos rfl]
    rfl
  case target => rfl
  case decided => rfl

theorem plan_handled (hother : call.candidate.targetStore ∉ [.semantic, .episodic])
    (hhandles : ∀ t, config.handles t = true) :
    plan v config call.candidate call.roomId call.accountId call.newId =
      handlerPlan v call.candidate call.roomId call.accountId call.newId := by
  unfold plan
  rw [if_neg fun h => hother (by simp [h]), if_neg fun h => hother (by simp [h]),
    if_pos (hhandles _)]

theorem low_of_convincing {c : MemoryCandidate} (hc : Convincing v config c) {low : ℚ}
    (hlow : low ≤ 9 / 10) : ¬ c.confidence < low :=
  not_lt.mpr (hlow.trans ((le_max_left _ _).trans hc.confident))

section Handled

variable (hc : Convincing v config call.candidate) (hhandles : ∀ t, config.handles t = true)
include hc hhandles

theorem plan_style (htarget : call.candidate.targetStore = .style)
    (hcontent : textOf v call.candidate "content" ≠ "") :
    Promotes .style
      (plan v config call.candidate call.roomId call.accountId call.newId) := by
  rw [plan_handled (by simp [htarget]) hhandles, handlerPlan, htarget]
  refine ⟨?write, ?answer, ?planned, ?target, ?decided⟩
  case planned =>
    dsimp only
    unfold StylePromotionHandler.apply
    rw [if_neg (low_of_convincing hc (by norm_num))]
    exact if_neg hcontent
  case target => rfl
  case decided => rfl

theorem plan_relationship (htarget : call.candidate.targetStore = .relationship) {q : ℚ}
    (hdelta : v.floatAt "suggested_delta" call.candidate.payload = .ok q) (hq : q ≠ 0) :
    Promotes .relationship
      (plan v config call.candidate call.roomId call.accountId call.newId) := by
  rw [plan_handled (by simp [htarget]) hhandles, handlerPlan, htarget]
  refine ⟨?write, ?answer, ?planned, ?target, ?decided⟩
  case planned =>
    dsimp only
    unfold RelationshipPromotionHandler.apply
    rw [if_neg (low_of_convincing hc (by norm_num)), hdelta]
    exact if_neg hq
  case target => rfl
  case decided => rfl

theorem plan_appraisal (htarget : call.candidate.targetStore = .appraisal) {q : ℚ}
    (hdelta : v.floatAt "estimated_delta" call.candidate.payload = .ok q) :
    Promotes .appraisal
      (plan v config call.candidate call.roomId call.accountId call.newId) := by
  rw [plan_handled (by simp [htarget]) hhandles, handlerPlan, htarget]
  refine ⟨?write, ?answer, ?planned, ?target, ?decided⟩
  case planned =>
    dsimp only
    unfold AppraisalPromotionHandler.apply
    rw [if_neg (low_of_convincing hc (by norm_num)), hdelta]
    rfl
  case target => rfl
  case decided => rfl

theorem plan_personaPatch (htarget : call.candidate.targetStore = .personaPatch)
    (hpatch : textOf v call.candidate "proposed_patch" ≠ "")
    (hreason : textOf v call.candidate "reason" ≠ "") :
    Promotes .personaPatch
      (plan v config call.candidate call.roomId call.accountId call.newId) := by
  rw [plan_handled (by simp [htarget]) hhandles, handlerPlan, htarget]
  refine ⟨?write, ?answer, ?planned, ?target, ?decided⟩
  case planned =>
    refine (if_neg (not_or.mpr ⟨hpatch, hreason⟩)).trans ?_
    exact if_neg (low_of_convincing hc le_rfl)
  case target => rfl
  case decided => rfl

end Handled

/-- What is asked of an episode besides what its schema has: a content, an evidence and no
category without a hash. -/
def Substantiated (v : Conversion) (c : MemoryCandidate) : Prop :=
  4 ≤ (textOf v c "content").length ∧ textOf v c "evidence" ≠ "" ∧
    ∃ b, isBlocked ((Dict.lookup "category" c.payload).getD .null) = .ok b

theorem substantiated_of_validate {c : MemoryCandidate} {reason : String}
    (htarget : c.targetStore = .episodic)
    (h : validate v c config.minConfidence = .ok (.promoted, reason)) : Substantiated v c := by
  obtain ⟨hfields, hevidence, _, hcategory⟩ :=
    checks_of_validate (ne_personaPatch (by simp [htarget])) h
  refine ⟨?_, fun hempty => ?_, ?_⟩
  · unfold checkFields at hfields
    rw [htarget] at hfields
    dsimp only at hfields
    split at hfields
    · cases hfields
    · split at hfields
      · cases hfields
      · next hlong => exact not_lt.mp hlong
  · rw [checkEvidence, if_pos ⟨by simp [htarget], hempty⟩] at hevidence
    cases hevidence
  · rw [checkCategory, if_pos (by simp [htarget])] at hcategory
    obtain ⟨b, hb, _⟩ := bind_ok hcategory
    exact ⟨b, hb⟩

/-- A model has only the fields of its schema. -/
theorem lookup_modelDump {pass : PassType} {fields : List (String × Json)} {name : String}
    (h : name ∉ (schema pass).map (·.name)) :
    Dict.lookup name (modelDump v pass fields) = none := by
  refine Dict.lookup_eq_none.mpr fun hmem => h ?_
  rw [modelDump, List.map_map] at hmem
  exact hmem

/-- No model of an episode has what is asked of it. -/
theorem not_substantiated_of_model {c : MemoryCandidate} {fields : List (String × Json)}
    (h : c.payload = modelDump v .episodic fields) : ¬ Substantiated v c := by
  rintro ⟨hcontent, _⟩
  rw [textOf, h, Conversion.strAt, lookup_modelDump (by decide)] at hcontent
  exact absurd hcontent (by decide : ¬ 4 ≤ (Text.strip "").length)

/-- A category of the schema has a hash. -/
theorem category_hashed {c : MemoryCandidate} (hvalid : validates v .semantic c.payload = true) :
    ∃ b, isBlocked ((Dict.lookup "category" c.payload).getD .null) = .ok b := by
  rcases accepted_of_validates hvalid List.mem_cons_self with ⟨j, hj, haccepts⟩ | ⟨_, hdefault⟩
  · rw [hj]
    cases j with
    | str s => exact ⟨_, rfl⟩
    | _ => cases haccepts
  · cases hdefault

section Item

variable {pass : PassType}

/-- A convincing candidate passes the checks, an episode if it has what is asked of it. -/
theorem validate_convincing {c : MemoryCandidate} (hc : Convincing v config c)
    (htarget : c.targetStore = pass) (hvalid : validates v pass c.payload = true)
    (hsources : c.sourceRecordIds ≠ []) (hepisodic : pass = .episodic → Substantiated v c) :
    validate v c config.minConfidence = .ok (.promoted, "") := by
  have hlong {name : String} (hf : ⟨name, .text, none⟩ ∈ schema pass) :
      4 ≤ (textOf v c name).length := hc.text htarget hvalid hf
  have htext {name : String} (hf : ⟨name, .text, none⟩ ∈ schema pass) : textOf v c name ≠ "" :=
    ne_empty_of_length (hlong hf)
  cases pass with
  | semantic =>
    exact validate_of_content hc hsources (by simp [htarget]) (hlong (by simp [schema]))
      (htext (by simp [schema])) fun _ => category_hashed hvalid
  | episodic =>
    obtain ⟨hcontent, hevidence, hcategory⟩ := hepisodic rfl
    exact validate_of_content hc hsources (by simp [htarget]) hcontent hevidence fun _ => hcategory
  | style =>
    exact validate_of_content hc hsources (by simp [htarget]) (hlong (by simp [schema]))
      (htext (by simp [schema])) (by simp [htarget])
  | relationship =>
    obtain ⟨j, q, hj, hq, _⟩ := hc.delta htarget
      (List.mem_cons_of_mem _ (List.mem_cons_of_mem _ List.mem_cons_self))
    refine validate_of_checks (by simp [htarget]) hc.confident hsources ?_
      (if_neg (by simp [htarget])) (by simp [htarget])
    unfold checkFields
    rw [htarget, hj]
    cases j with
    | null => cases hq
    | _ => rfl
  | appraisal =>
    refine validate_of_checks (by simp [htarget]) hc.confident hsources ?_
      (if_neg (by simp [htarget])) (by simp [htarget])
    unfold checkFields
    rw [htarget]
    exact if_neg (htext (by simp [schema]))
  | personaPatch =>
    unfold validate
    rw [if_pos htarget, checkPersonaPatch, if_neg (htext (by simp [schema])),
      if_neg (htext (by simp [schema])), if_neg (by rwa [List.isEmpty_iff])]

theorem plan_convincing (hc : Convincing v config call.candidate)
    (htarget : call.candidate.targetStore = pass)
    (hvalid : validates v pass call.candidate.payload = true)
    (hhandles : ∀ t, config.handles t = true) :
    Promotes pass (plan v config call.candidate call.roomId call.accountId call.newId) := by
  have htext {name : String} (hf : ⟨name, .text, none⟩ ∈ schema pass) :
      textOf v call.candidate name ≠ "" := ne_empty_of_length (hc.text htarget hvalid hf)
  cases pass with
  | semantic => exact plan_semantic htarget
  | episodic => exact plan_episodic htarget
  | style => exact plan_style hc hhandles htarget (htext (by simp [schema]))
  | relationship =>
    obtain ⟨j, q, hj, hq, hnonzero⟩ := hc.delta htarget
      (List.mem_cons_of_mem _ (List.mem_cons_of_mem _ List.mem_cons_self))
    exact plan_relationship hc hhandles htarget (floatAt_of_number? hj hq) hnonzero
  | appraisal =>
    obtain ⟨j, q, hj, hq, _⟩ := hc.delta htarget
      (List.mem_cons_of_mem _ (List.mem_cons_of_mem _ List.mem_cons_self))
    exact plan_appraisal hc hhandles htarget (floatAt_of_number? hj hq)
  | personaPatch =>
    exact plan_personaPatch hc hhandles htarget (htext (by simp [schema]))
      (htext (by simp [schema]))

end Item

end Promoted

open PromotionPolicy LangMemExtractor in
/-- The candidate that is built of a convincing item, and not seen yet, is promoted exactly if it is
no episode, or one that has what its schema lacks, and it can be written. -/
theorem convincing_promoted_iff (v : Conversion) (h : Hashing) (config : PromotionConfig)
    (p : PromotionPolicy) (job : MemoryExtractionJob)
    (resolver : PassType → List (String × Json) → String × String) (id : String)
    (fields : List (String × Json)) (it : Item) (call : PromoteCall)
    (hvalidated : Validated v job.passType fields it)
    (hbuilt : candidateOf v h job resolver id it = .ok call.candidate)
    (hconvincing : Convincing v config call.candidate) (hsources : job.sourceRecordIds ≠ [])
    (hhandles : ∀ t, config.handles t = true)
    (hunseen : (config.duplicateGuard && isAlreadySeen v config p call) = false) :
    (∃ reason, (promote v config p call).1 = .ok (.promoted, reason)) ↔
      (job.passType = .episodic → Substantiated v call.candidate) ∧
        Written config job.passType call.writing := by
  obtain ⟨_, _, hrecords, htarget, hitem, _⟩ := candidateOf_ok hbuilt
  obtain ⟨payload, hpayload, hvalid⟩ := hvalidated.payload
  cases hpayload.symm.trans hitem
  have hplan := plan_convincing hconvincing htarget hvalid hhandles
  constructor
  · rintro ⟨reason, hpromoted⟩
    have haccepts := accepts_of_promoted hpromoted
    refine ⟨fun hepisodic => ?_, (promoted_iff_written haccepts hplan).mp ⟨reason, hpromoted⟩⟩
    obtain ⟨_, reason', hvalidate⟩ := haccepts
    exact substantiated_of_validate (htarget.trans hepisodic) hvalidate
  · rintro ⟨hepisodic, hwritten⟩
    have hvalidate :=
      validate_convincing hconvincing htarget hvalid (hrecords ▸ hsources) hepisodic
    exact (promoted_iff_written ⟨hunseen, "", hvalidate⟩ hplan).mpr hwritten

/-- A hash that is the one of a single candidate. -/
def hashedAs (hash : String) : Hashing := ⟨fun _ _ _ _ => .ok hash⟩

def oneRecord (passType : PassType) : MemoryExtractionJob where
  id := "j4"
  sourceRecordIds := ["r1"]
  passType
  accountId := "ann"

/-- A taste for tea. -/
def preference : List (String × Json) :=
  [("category", .str "technical"), ("content", .str "likes green tea"),
    ("evidence", .str "said so"), ("confidence", .num (95 / 100))]

def preferred : PromoteCall where
  candidate :=
    { id := "c4", sourceRecordIds := ["r1"], jobId := "j4", targetStore := .semantic
      payload := preference ++ [("scope", .str "account")], confidence := 95 / 100
      payloadHash := "5d98e7deb876e61290d25fa28be42424bd90d532b0ebe97e5d1cefeb5d71be8a"
      scopeAccountId := "ann" }
  accountId := "ann"
  newId := ""

theorem convincing_preferred : Convincing .plain {} preferred.candidate where
  confident := by decide +kernel
  texts f hf hkind hdefault s hs := by
    fin_cases hf
    · cases hkind
    · cases hs
      decide +kernel
    · cases hs
      decide +kernel
    · cases hkind
    · cases hkind
  deltas f hf hkind := by
    fin_cases hf <;> cases hkind

theorem preference_promoted :
    ∃ reason, (PromotionPolicy.promote .plain {} {} preferred).1 = .ok (.promoted, reason) := by
  refine (convincing_promoted_iff .plain
    (hashedAs "5d98e7deb876e61290d25fa28be42424bd90d532b0ebe97e5d1cefeb5d71be8a") {} {}
    (oneRecord .semantic) (fun _ _ => ("", "")) "c4" preference
    (.model (modelDump .plain .semantic preference)) preferred (.model ?_)
    (by with_unfolding_all rfl) convincing_preferred (by decide) (fun _ => rfl) ?_).mpr
      ⟨(fun h => nomatch h), .inl rfl⟩
  · decide +kernel
  · decide +kernel

/-- A walk, as an episode with all its fields. -/
def stroll : List (String × Json) :=
  [("situation", .str "a walk in the park"), ("user_intent", .str "to talk about trees"),
    ("assistant_action", .str "named the trees"), ("result", .str "a long talk"),
    ("lesson", .str "likes trees"), ("confidence", .num (95 / 100))]

def strolled : PromoteCall where
  candidate :=
    { id := "c5", sourceRecordIds := ["r1"], jobId := "j4", targetStore := .episodic
      payload := stroll, confidence := 95 / 100
      payloadHash := "457b5b043869079dff0d1b0fdd943f9849e8ecafc58f5b599eac22ff55af7497"
      scopeAccountId := "ann" }
  accountId := "ann"
  newId := ""

theorem convincing_strolled : Convincing .plain {} strolled.candidate where
  confident := by decide +kernel
  texts f hf hkind hdefault s hs := by
    fin_cases hf
    case «5» => cases hkind
    all_goals
      cases hs
      decide +kernel
  deltas f hf hkind := by
    fin_cases hf <;> cases hkind

open PromotionPolicy LangMemExtractor in
/-- An episode as its schema has it is refused, however convincing it is. -/
theorem episode_refused :
    ¬ ∀ (v : Conversion) (h : Hashing) (config : PromotionConfig) (p : PromotionPolicy)
      (job : MemoryExtractionJob) (resolver : PassType → List (String × Json) → String × String)
      (id : String) (fields : List (String × Json)) (it : Item) (call : PromoteCall),
      Validated v job.passType fields it →
      candidateOf v h job resolver id it = .ok call.candidate →
      Convincing v config call.candidate → job.sourceRecordIds ≠ [] →
      (∀ t, config.handles t = true) →
      (config.duplicateGuard && isAlreadySeen v config p call) = false → call.writing = .done →
      ∃ reason, (promote v config p call).1 = .ok (.promoted, reason) := by
  intro hall
  obtain ⟨reason, hpromoted⟩ := hall .plain
    (hashedAs "457b5b043869079dff0d1b0fdd943f9849e8ecafc58f5b599eac22ff55af7497") {} {}
    (oneRecord .episodic) (fun _ _ => ("", "")) "c5" stroll
    (.model (modelDump .plain .episodic stroll)) strolled (.model (by decide +kernel))
    (by with_unfolding_all rfl) convincing_strolled (by decide) (fun _ => rfl)
    (by decide +kernel) rfl
  obtain ⟨_, reason', hvalidate⟩ := accepts_of_promoted hpromoted
  have hpayload : strolled.candidate.payload = modelDump .plain .episodic stroll := by
    with_unfolding_all rfl
  exact not_substantiated_of_model hpayload (substantiated_of_validate rfl hvalidate)

end IrisMind.Memory
