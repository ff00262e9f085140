import IrisMind.Limbic.Lexicon
import IrisMind.Limbic.Relationship
import Mathlib.Tactic.Linarith
import Mathlib.Tactic.NormNum
import Mathlib.Tactic.Ring

/-! # Appraisal

A text is appraised twice: for what it means, from the words and patterns found
in it and from the context it comes with, and for how well it can be coped with,
from the profile of who said it. Both come together in six dimensions. A
classifier may take the place of the words. What raises appraises nothing. -/
namespace IrisMind.Limbic
open IrisMind.Lib

structure PrimaryAppraisal where
  novelty : ℚ
  pleasantness : ℚ
  goalRelevance : ℚ
  agency : ℚ
  copingPotential : ℚ

structure SecondaryAppraisal where
  accountability : ℚ
  control : ℚ
  controllability : ℚ
  socialNorms : ℚ

structure AppraisalDimensions where
  unpleasantness : ℚ
  control : ℚ
  responsibility : ℚ
  certainty : ℚ
  effort : ℚ
  attention : ℚ

abbrev Context := Dict String Json

abbrev Profile := Dict String ProfileValue

/-- A value of a profile as a factor; what is no number is the `TypeError`. -/
def ProfileValue.number? : ProfileValue → Option ℚ
  | .json j => j.number?
  | .style _ => none

/-- `max(-1.0, min(1.0, x))` -/
def clampSigned (x : ℚ) : ℚ := max (-1) (min 1 x)

/-! ## Classifiers -/

def PlutchikEmotion.value : PlutchikEmotion → String
  | .joy => "joy"
  | .sadness => "sadness"
  | .anticipation => "anticipation"
  | .surprise => "surprise"
  | .anger => "anger"
  | .fear => "fear"
  | .disgust => "disgust"
  | .trust => "trust"

/-- `_keyword_match` -/
def keywordMatch (text : String) : Dict String ℚ :=
  keywordMap.foldl (fun scores (emotion, keywords) =>
    let count := keywords.countP fun keyword => (Pattern.literal keyword).search text
    if 0 < count then scores.set emotion (min 1 (count * (3 / 10))) else scores) .empty

namespace NeuralEmotionClassifier

/-- `_LABEL_MAP` -/
def labelMap : String → Option PlutchikEmotion
  | "joy" | "happy" | "happiness" | "喜び" | "嬉しい" => some .joy
  | "sadness" | "sad" | "悲しみ" => some .sadness
  | "anger" | "angry" | "怒り" => some .anger
  | "fear" | "怖れ" | "恐れ" => some .fear
  | "surprise" | "surprised" | "驚き" => some .surprise
  | "disgust" | "嫌悪" => some .disgust
  | "trust" | "信頼" => some .trust
  | "anticipation" | "期待" => some .anticipation
  | _ => none

/-- The results that are dictionaries; a list of lists stands for its first. -/
def flattenResults : Json → List (List (String × Json))
  | .arr (.arr nested :: _) => nested.filterMap fun
    | .obj fields => some fields
    | _ => none
  | .arr items => items.filterMap fun
    | .obj fields => some fields
    | _ => none
  | _ => []

/-- The emotion of a label. What is no text is none of the labels. -/
def labelOf (item : List (String × Json)) : Option PlutchikEmotion :=
  match item.lookup "label" with
  | some (.str label) => labelMap (Text.lower (Text.strip label))
  | _ => none

/-- `_map_to_plutchik` -/
def mapToPlutchik (results : Json) : Dict String ℚ :=
  (flattenResults results).foldl (fun scores item =>
    match labelOf item, (item.lookup "score").bind Json.number? with
    | some emotion, some score => scores.set emotion.value (clamp score)
    | _, _ => scores) .empty

/-- `classify`, with the pipeline of the model; a model that cannot be loaded raises. -/
def classify (pipeline : String → Option Json) (text : String) : Option (Dict String ℚ) :=
  if Text.strip text = "" then some .empty else (pipeline text).map mapToPlutchik

end NeuralEmotionClassifier

/-- With a classifier, which may raise, and what `float` makes of a text. -/
structure Appraiser where
  emotionClassifier : Option (String → Option (Dict String ℚ)) := none
  floatOfText : String → Option ℚ

/-! ## The two appraisals -/

/-- `detect_context_type`: the first of those with the most patterns found. -/
def detectContextType (text : String) : Option String :=
  (contextPatterns.foldl (fun (best : Option String × Nat) (ctx, patterns) =>
    let count := patterns.countP (·.search text)
    if best.2 < count then (some ctx, count) else best) (none, 0)).1

/-- A truth value of the context that is false when it is absent. -/
def Context.flag (ctx : Context) (key : String) : Bool := (ctx.get? key).any Json.truthy

def scoreNovelty (ctx : Context) : ℚ :=
  if ctx.flag "is_new_topic" then 8 / 10
  else if ctx.flag "topic_changed" then 6 / 10
  else 3 / 10

def scorePleasantness (wordEmotions : Dict String ℚ) : ℚ :=
  let positive := wordEmotions.getD "joy" 0 + wordEmotions.getD "trust" 0 +
    wordEmotions.getD "anticipation" 0
  let negative := wordEmotions.getD "sadness" 0 + wordEmotions.getD "anger" 0 +
    wordEmotions.getD "fear" 0 + wordEmotions.getD "disgust" 0
  clampSigned (positive - negative)

def relevanceMap : String → Option ℚ
  | "support_seeking" => some (9 / 10)
  | "self_disclosure" => some (7 / 10)
  | "positive_feedback" => some (4 / 10)
  | "negative_feedback" => some (6 / 10)
  | _ => none

def scoreGoalRelevance (contextType : Option String) (ctx : Context) : ℚ :=
  match contextType.bind relevanceMap with
  | some relevance => relevance
  | none => if ctx.flag "is_direct_question" then 8 / 10 else 5 / 10

def scoreAgency (ctx : Context) : ℚ := if ctx.flag "user_is_agent" then 8 / 10 else 3 / 10

namespace Appraiser

variable (a : Appraiser)

def detectWordEmotions (text : String) : Option (Dict String ℚ) :=
  match a.emotionClassifier with
  | some classify => classify text
  | none => some (keywordMatch text)

/-- `float(value)` -/
def float? : Json → Option ℚ
  | .str s => a.floatOfText s
  | j => j.number?

def scoreCopingPotential (ctx : Context) : Option ℚ := do
  let trust ← a.float? (ctx.getD "trust_level" (.num (5 / 10)))
  let familiarity ← a.float? (ctx.getD "familiarity" (.num 0))
  some (min 1 (trust * (6 / 10) + familiarity * (4 / 10)))

def appraisePrimary (text : String) (ctx : Context) : Option PrimaryAppraisal := do
  let wordEmotions ← a.detectWordEmotions text
  let copingPotential ← a.scoreCopingPotential ctx
  some { novelty := scoreNovelty ctx
         pleasantness := scorePleasantness wordEmotions
         goalRelevance := scoreGoalRelevance (detectContextType text) ctx
         agency := scoreAgency ctx
         copingPotential }

end Appraiser

def appraiseSecondary (primary : PrimaryAppraisal) (profile : Profile) :
    Option SecondaryAppraisal := do
  let trustLevel ← (profile.getD "trust_level" (.json (.num (5 / 10)))).number?
  let familiarity ← (profile.getD "familiarity" (.json (.num 0))).number?
  some { accountability := min 1 (trustLevel * (7 / 10) + familiarity * (3 / 10))
         control := primary.copingPotential * (6 / 10) + trustLevel * (4 / 10)
         controllability := primary.copingPotential * (8 / 10) + familiarity * (2 / 10)
         socialNorms := 5 / 10 + familiarity * (3 / 10) + trustLevel * (2 / 10) }

def computeDimensions (primary : PrimaryAppraisal) (secondary : SecondaryAppraisal) :
    AppraisalDimensions where
  unpleasantness := max 0 (-primary.pleasantness)
  control := secondary.control
  responsibility := secondary.accountability
  certainty := 1 - primary.novelty
  effort := 1 - primary.copingPotential
  attention := primary.goalRelevance

/-! ## What a text comes to -/

theorem clampSigned_mem (x : ℚ) : -1 ≤ clampSigned x ∧ clampSigned x ≤ 1 :=
  ⟨le_max_left _ _, max_le (by norm_num) (min_le_left _ _)⟩

theorem clampSigned_of_mem {x : ℚ} (h : -1 ≤ x ∧ x ≤ 1) : clampSigned x = x := by
  rw [clampSigned, min_eq_right h.2, max_eq_right h.1]

theorem relevanceMap_mem {contextType : String} {relevance : ℚ}
    (h : relevanceMap contextType = some relevance) :
    4 / 10 ≤ relevance ∧ relevance ≤ 9 / 10 := by
  unfold relevanceMap at h
  split at h <;> cases h <;> norm_num

theorem scoreGoalRelevance_mem (contextType : Option String) (ctx : Context) :
    4 / 10 ≤ scoreGoalRelevance contextType ctx ∧ scoreGoalRelevance contextType ctx ≤ 9 / 10 := by
  unfold scoreGoalRelevance
  split
  · next relevance hbind =>
    obtain ⟨text, -, hrelevance⟩ := Option.bind_eq_some_iff.mp hbind
    exact relevanceMap_mem hrelevance
  · split <;> norm_num

/-- The keys an appraisal reads of a context. -/
def readKeys : List String :=
  ["is_new_topic", "topic_changed", "is_direct_question", "user_is_agent", "trust_level",
    "familiarity"]

/-- A context with nothing in it that an appraisal reads. -/
def Context.Plain (ctx : Context) : Prop := ∀ key ∈ readKeys, ctx.get? key = none

/-- The share a profile says, or what stands for it, when it is a number between 0 and 1. -/
def Profile.Share (profile : Profile) (key : String) (default x : ℚ) : Prop :=
  (profile.getD key (.json (.num default))).number? = some x ∧ 0 ≤ x ∧ x ≤ 1

/-- What a plain context and a profile with shares make of any text. -/
structure AppraisalDimensions.Typical (d : AppraisalDimensions) (trust familiarity : ℚ) :
    Prop where
  unpleasantness : 0 ≤ d.unpleasantness ∧ d.unpleasantness ≤ 1
  control : d.control = 18 / 100 + 4 / 10 * trust
  responsibility : d.responsibility = 7 / 10 * trust + 3 / 10 * familiarity
  certainty : d.certainty = 7 / 10
  effort : d.effort = 7 / 10
  attention : 4 / 10 ≤ d.attention ∧ d.attention ≤ 9 / 10

variable {a : Appraiser} {text : String} {ctx : Context} {profile : Profile}
  {primary : PrimaryAppraisal} {secondary : SecondaryAppraisal}

theorem Context.Plain.flag (h : ctx.Plain) (key : String) (hkey : key ∈ readKeys) :
    ctx.flag key = false := by
  simp [Context.flag, h key hkey]

theorem Context.Plain.scoreCopingPotential (h : ctx.Plain) :
    a.scoreCopingPotential ctx = some (3 / 10) := by
  have htrust : ctx.get? "trust_level" = none := h _ (by simp [readKeys])
  have hfamiliarity : ctx.get? "familiarity" = none := h _ (by simp [readKeys])
  simp only [Appraiser.scoreCopingPotential, Dict.getD, htrust, hfamiliarity, Option.getD_none,
    Appraiser.float?, Json.number?]
  norm_num

theorem Context.Plain.appraisePrimary (h : ctx.Plain)
    (hprimary : a.appraisePrimary text ctx = some primary) :
    primary.novelty = 3 / 10 ∧ primary.copingPotential = 3 / 10 ∧
      (-1 ≤ primary.pleasantness ∧ primary.pleasantness ≤ 1) ∧
      (4 / 10 ≤ primary.goalRelevance ∧ primary.goalRelevance ≤ 9 / 10) := by
  simp only [Appraiser.appraisePrimary, h.scoreCopingPotential] at hprimary
  obtain ⟨wordEmotions, -, hprimary⟩ := Option.bind_eq_some_iff.mp hprimary
  cases hprimary
  refine ⟨?_, rfl, clampSigned_mem _, scoreGoalRelevance_mem _ _⟩
  simp [scoreNovelty, h.flag "is_new_topic" (by simp [readKeys]),
    h.flag "topic_changed" (by simp [readKeys])]

theorem typical_of_appraised (h : ctx.Plain) {trust familiarity : ℚ}
    (htrust : profile.Share "trust_level" (5 / 10) trust)
    (hfamiliarity : profile.Share "familiarity" 0 familiarity)
    (hprimary : a.appraisePrimary text ctx = some primary)
    (hsecondary : appraiseSecondary primary profile = some secondary) :
    (computeDimensions primary secondary).Typical trust familiarity := by
  obtain ⟨hnovelty, hcoping, hpleasant, hrelevance⟩ := h.appraisePrimary hprimary
  obtain ⟨ht, ht0, ht1⟩ := htrust
  obtain ⟨hf, hf0, hf1⟩ := hfamiliarity
  simp only [appraiseSecondary, ht, hf, Option.bind_eq_bind, Option.bind_some,
    Option.some.injEq] at hsecondary
  subst hsecondary
  refine ⟨⟨le_max_left _ _, max_le (by norm_num) (by linarith)⟩, ?_, ?_, ?_, ?_, hrelevance⟩
  · simp only [computeDimensions, hcoping]
    ring
  · rw [computeDimensions, min_eq_right (by linarith)]
    ring
  · simp only [computeDimensions, hnovelty]
    norm_num
  · simp only [computeDimensions, hcoping]
    norm_num

end IrisMind.Limbic
