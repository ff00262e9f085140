import IrisMind.Lib.Wire
import Mathlib.Data.Finset.Card
import Mathlib.Data.List.DropRight
import Mathlib.Data.List.Infix
import Mathlib.Tactic.Linarith
import Mathlib.Tactic.NormNum
import Mathlib.Tactic.Ring

/-! # When Iris speaks unasked

Five scores are taken of the memory and of what was heard, each of them zero
when it cannot be taken, and come to one total. Of the five, two can bring it
to the default threshold. -/
namespace IrisMind.Planning
open IrisMind.Lib

structure ProactiveConfig where
  triggerWeights : Dict String ℚ := .ofList [("memory", 55 / 100), ("context", 30 / 100)]
  speakThreshold : ℚ := 30 / 100

/-- What the memory answers at one time; none is an exception. A raw input counts by being
there, a turn of the short-term memory by its number. -/
structure MemoryView where
  recent : Nat → String → Option (List Json)
  searchSemantic : String → Nat → String → Option (List Json)
  raw : String → Option Bool
  recentTurns : Nat → Option Nat

/-- `item.get(key, default)`; what is no object raises. -/
def getOf (item : Json) (key : String) (default : Json) : Option Json :=
  match item with
  | .obj fields => some ((Dict.lookup key fields).getD default)
  | _ => none

def summaryOf (item : Json) : Option Json := getOf item "summary" (.str "")

/-- A text that is joined or stripped; anything else raises. -/
def textOf : Json → Option String
  | .str s => some s
  | _ => none

/-- `r.get("score", 0.0)`, as a number. -/
def scoreOf (row : Json) : Option ℚ := (getOf row "score" (.num 0)).bind (·.number?)

/-- `_safe_score` -/
def safeScore (score : Option ℚ) : ℚ := score.getD 0

namespace ProactiveScorer

/-- `_do_compute_memory_score` -/
def memoryScore? (m : MemoryView) : Option ℚ := do
  let recent ← m.recent 3 ""
  if recent.isEmpty then some 0
  else
    let summaries ← (← recent.mapM summaryOf).mapM textOf
    let topic := " ".intercalate summaries
    if Text.strip topic = "" then some 0
    else
      let results ← m.searchSemantic topic 3 ""
      let scores ← results.mapM scoreOf
      some (scores.max?.getD 0)

/-- `_char_bigram_set` of a text. -/
def charBigramSet (text : String) : Finset (Char × Char) :=
  (text.toList.zip text.toList.tail).toFinset

/-- `_char_bigram_set`; what is no text has no slices, but with less than two items needs none. -/
def charBigramSet? : Json → Option (Finset (Char × Char))
  | .str s => some (charBigramSet s)
  | .arr items => if items.length < 2 then some ∅ else none
  | .obj fields => if fields.length < 2 then some ∅ else none
  | _ => none

def jaccard (a b : Finset (Char × Char)) : ℚ := (a ∩ b).card / (a ∪ b).card

def similarity (bgA bgB : Finset (Char × Char)) : ℚ :=
  if bgA = ∅ ∧ bgB = ∅ then 5 / 10
  else if bgA = ∅ ∨ bgB = ∅ then 3 / 10
  else min (jaccard bgA bgB + 2 / 10) 1

def isShort (summary : String) : Bool := (Text.strip summary).length < 10

/-- Whether all are short: the second is looked at only if the first is. -/
def bothShort? (a b : Json) : Option Bool := do
  if isShort (← textOf a) then some (isShort (← textOf b)) else some false

def pairScore? (a b : Json) : Option ℚ := do
  if ← bothShort? a b then some (7 / 10)
  else some (similarity (← charBigramSet? a) (← charBigramSet? b))

/-- `_do_compute_context_score` -/
def contextScore? (m : MemoryView) : Option ℚ := do
  let recent ← m.recent 2 ""
  if recent.length < 2 then some (3 / 10)
  else
    match ← (recent.rtake 2).mapM summaryOf with
    | [a, b] => pairScore? a b
    | _ => none

/-- `_do_compute_sensory_score` -/
def sensoryScore? (m : MemoryView) (roomId : String) : Option ℚ :=
  (m.raw roomId).map fun raw => if raw then 6 / 10 else 0

/-- `_do_compute_short_term_score` -/
def shortTermScore? (m : MemoryView) : Option ℚ :=
  (m.recentTurns 2).map fun turns => if 2 ≤ turns then 5 / 10 else if turns = 1 then 3 / 10 else 0

def occursIn (text part : String) : Bool := part.toList <:+: text.toList

/-- `_compute_content_urgency` -/
def contentUrgency (content : String) : ℚ :=
  if content = "" then 0
  else
    let question := ["？", "?", "教えて", "what", "how", "why"].any (occursIn content)
    let demanding := ["urgent", "important", "急", "至急", "help", "問題"].any
      (occursIn (Text.lower content))
    min ((if question then 3 / 10 else 0) + (if demanding then 3 / 10 else 0) +
      (if 100 < content.length then 2 / 10 else 0) +
      (if 2 ≤ content.toList.count '!' then 1 / 10 else 0)) (8 / 10)

/-- `context.get("system_event") == "connected"` -/
def isConnected (context : Dict String Json) : Bool :=
  match context.get? "system_event" with
  | some (.str event) => event = "connected"
  | _ => false

/-- `_aggregate_scores` -/
def aggregateScores (config : ProactiveConfig) (memoryScore contextScore sensoryScore
    urgencyScore : ℚ) (context : Dict String Json) : ℚ :=
  let w := config.triggerWeights
  let total := w.getD "memory" (55 / 100) * memoryScore + w.getD "context" (30 / 100) * contextScore
  let total := if 0 < sensoryScore then max total (sensoryScore * (3 / 10)) else total
  let total := max total (urgencyScore * (15 / 100))
  if isConnected context then max total (config.speakThreshold + 1 / 10) else total

structure Scores where
  memory : ℚ
  context : ℚ
  sensory : ℚ
  shortTerm : ℚ
  urgency : ℚ

/-- The scores of `compute`; the short-term memory counts for the context. -/
def scores (m : MemoryView) (content roomId : String) : Scores :=
  let contextScore := safeScore (contextScore? m)
  let stmScore := safeScore (shortTermScore? m)
  { memory := safeScore (memoryScore? m)
    context := if 0 < stmScore then max contextScore stmScore else contextScore
    sensory := safeScore (sensoryScore? m roomId)
    shortTerm := stmScore
    urgency := contentUrgency content }

def compute (config : ProactiveConfig) (m : MemoryView) (content roomId : String)
    (context : Dict String Json) : ℚ × Scores :=
  let s := scores m content roomId
  (aggregateScores config s.memory s.context s.sensory s.urgency context, s)

/-! ## Bounds -/

variable {m : MemoryView} {content roomId : String} {context : Dict String Json}

theorem sensory_le : safeScore (sensoryScore? m roomId) ≤ 6 / 10 := by
  unfold safeScore sensoryScore?
  cases m.raw roomId with
  | none => norm_num
  | some raw => cases raw <;> norm_num

theorem shortTerm_mem : 0 ≤ safeScore (shortTermScore? m) ∧
    safeScore (shortTermScore? m) ≤ 5 / 10 := by
  unfold safeScore shortTermScore?
  cases m.recentTurns 2 with
  | none => norm_num
  | some turns =>
    simp only [Option.map_some, Option.getD_some]
    split
    · norm_num
    · split <;> norm_num

theorem contentUrgency_le : contentUrgency content ≤ 8 / 10 := by
  unfold contentUrgency
  split
  · norm_num
  · exact min_le_right _ _

theorem jaccard_nonneg (a b : Finset (Char × Char)) : 0 ≤ jaccard a b :=
  div_nonneg (Nat.cast_nonneg _) (Nat.cast_nonneg _)

theorem similarity_mem (a b : Finset (Char × Char)) :
    0 ≤ similarity a b ∧ similarity a b ≤ 1 := by
  unfold similarity
  split
  · norm_num
  · split
    · norm_num
    · exact ⟨le_min (add_nonneg (jaccard_nonneg _ _) (by norm_num)) (by norm_num),
        min_le_right _ _⟩

/-! ## What reaches the threshold -/

/-- The total reaches the threshold, as the judge asks. -/
def speaks (config : ProactiveConfig) (m : MemoryView) (content roomId : String)
    (context : Dict String Json) : Prop :=
  config.speakThreshold ≤ (compute config m content roomId context).1

theorem default_weights :
    ({} : ProactiveConfig).triggerWeights.getD "memory" (55 / 100) = 55 / 100 ∧
      ({} : ProactiveConfig).triggerWeights.getD "context" (30 / 100) = 30 / 100 :=
  ⟨rfl, rfl⟩

/-- What the sensory memory and the urgency give is never enough. -/
theorem aggregateScores_default {memoryScore contextScore sensoryScore urgencyScore : ℚ}
    (hsensory : sensoryScore ≤ 6 / 10) (hurgency : urgencyScore ≤ 8 / 10) :
    30 / 100 ≤ aggregateScores {} memoryScore contextScore sensoryScore urgencyScore context ↔
      isConnected context = true ∨
        30 / 100 ≤ 55 / 100 * memoryScore + 30 / 100 * contextScore := by
  simp only [aggregateScores, default_weights.1, default_weights.2]
  generalize 55 / 100 * memoryScore + 30 / 100 * contextScore = total
  have hheard : 30 / 100 ≤ max (if 0 < sensoryScore then max total (sensoryScore * (3 / 10))
      else total) (urgencyScore * (15 / 100)) ↔ 30 / 100 ≤ total := by
    have hlate : ¬ (30 / 100 : ℚ) ≤ urgencyScore * (15 / 100) := by linarith
    have hraw : ¬ (30 / 100 : ℚ) ≤ sensoryScore * (3 / 10) := by linarith
    split <;> simp only [le_max_iff, hlate, hraw, or_false]
  split
  · next hconnected =>
    have hpast : (30 / 100 : ℚ) ≤ 30 / 100 + 1 / 10 := by norm_num
    simp only [le_max_iff, hconnected, true_or, iff_true]
    exact .inr hpast
  · next hconnected => rw [hheard]; simp [hconnected]

/-- Two summaries that repeat each other: at least four of five of their pairs of characters are
common to both, and not both are short. -/
structure Echoes (a b : String) : Prop where
  long : (isShort a && isShort b) = false
  pairs : charBigramSet a ≠ ∅
  common : 4 * (charBigramSet a ∪ charBigramSet b).card ≤
    5 * (charBigramSet a ∩ charBigramSet b).card

theorem similarity_eq_one_iff {a b : String} (h : (isShort a && isShort b) = false) :
    1 ≤ similarity (charBigramSet a) (charBigramSet b) ↔ Echoes a b := by
  constructor
  · intro hone
    unfold similarity at hone
    split at hone
    · norm_num at hone
    · split at hone
      · norm_num at hone
      · next hsome =>
        have ha : charBigramSet a ≠ ∅ := fun he => hsome (.inl he)
        have hpos : 0 < (charBigramSet a ∪ charBigramSet b).card :=
          Finset.card_pos.mpr ((Finset.nonempty_iff_ne_empty.mpr ha).mono Finset.subset_union_left)
        have hjaccard : 8 / 10 ≤ jaccard (charBigramSet a) (charBigramSet b) := by
          linarith [(le_min_iff.mp hone).1]
        rw [jaccard, le_div_iff₀ (Nat.cast_pos.mpr hpos)] at hjaccard
        refine ⟨h, ha, ?_⟩
        have hcard : (4 : ℚ) * (charBigramSet a ∪ charBigramSet b).card ≤
          5 * (charBigramSet a ∩ charBigramSet b).card := by linarith
        exact_mod_cast hcard
  · rintro ⟨-, ha, hcommon⟩
    have hpos : 0 < (charBigramSet a ∪ charBigramSet b).card :=
      Finset.card_pos.mpr ((Finset.nonempty_iff_ne_empty.mpr ha).mono Finset.subset_union_left)
    have hb : charBigramSet b ≠ ∅ := by
      intro hb
      rw [hb, Finset.inter_empty, Finset.card_empty] at hcommon
      rw [hb] at hpos
      omega
    have hcard : (4 : ℚ) * (charBigramSet a ∪ charBigramSet b).card ≤
        5 * (charBigramSet a ∩ charBigramSet b).card := by exact_mod_cast hcommon
    have hjaccard : 8 / 10 ≤ jaccard (charBigramSet a) (charBigramSet b) := by
      rw [jaccard, le_div_iff₀ (Nat.cast_pos.mpr hpos)]
      linarith
    unfold similarity
    rw [if_neg (by simp [ha]), if_neg (by simp [ha, hb])]
    exact le_min (by linarith) (le_refl _)

/-- The last two summaries, when there are two and they are texts. -/
def lastSummaries (m : MemoryView) : Option (String × String) := do
  let recent ← m.recent 2 ""
  if recent.length < 2 then none
  else
    match ← (recent.rtake 2).mapM summaryOf with
    | [a, b] => some (← textOf a, ← textOf b)
    | _ => none

theorem similarity_empty_lt (a : Finset (Char × Char)) :
    0 ≤ similarity a ∅ ∧ similarity a ∅ < 1 := by
  refine ⟨(similarity_mem a ∅).1, ?_⟩
  by_cases ha : a = ∅ <;> norm_num [similarity, ha]

/-- A summary that is no text has no pairs of characters. -/
theorem charBigramSet?_cases {j : Json} (h : textOf j = none) :
    charBigramSet? j = none ∨ charBigramSet? j = some ∅ := by
  cases j with
  | str s => cases h
  | arr items => exact (em (items.length < 2)).symm.imp (fun h => if_neg h) fun h => if_pos h
  | obj fields => exact (em (fields.length < 2)).symm.imp (fun h => if_neg h) fun h => if_pos h
  | _ => exact .inl rfl

theorem eq_str_of_textOf {j : Json} {t : String} (h : textOf j = some t) : j = .str t := by
  cases j <;> cases h
  rfl

theorem pairScore_str (a b : String) : pairScore? (.str a) (.str b) =
    some (if isShort a && isShort b then 7 / 10
      else similarity (charBigramSet a) (charBigramSet b)) := by
  unfold pairScore? bothShort?
  simp only [textOf, charBigramSet?, Option.bind_eq_bind, Option.bind_some]
  cases isShort a <;> cases isShort b <;> rfl

/-- Of what is no text nothing, or no more than that it resembles nothing. -/
theorem pairScore_lt {a b : Json} (h : textOf a = none ∨ textOf b = none) :
    0 ≤ safeScore (pairScore? a b) ∧ safeScore (pairScore? a b) < 1 := by
  have hnone : ∀ o : Option ℚ, o = none → 0 ≤ safeScore o ∧ safeScore o < 1 := by
    rintro _ rfl
    norm_num [safeScore]
  cases ha : textOf a with
  | none => exact hnone _ (by simp [pairScore?, bothShort?, ha])
  | some s =>
    have hb : textOf b = none := h.resolve_left (by simp [ha])
    cases hs : isShort s with
    | true => exact hnone _ (by simp [pairScore?, bothShort?, ha, hs, hb])
    | false =>
      have hpair : pairScore? a b = (charBigramSet? a).bind fun bgA =>
          (charBigramSet? b).bind fun bgB => some (similarity bgA bgB) := by
        simp [pairScore?, bothShort?, ha, hs]
      rw [hpair]
      cases charBigramSet? a with
      | none => exact hnone _ rfl
      | some bgA =>
        rcases charBigramSet?_cases hb with hbg | hbg <;> rw [hbg]
        · exact hnone _ rfl
        · exact similarity_empty_lt bgA

theorem contextScore_cases (m : MemoryView) :
    lastSummaries m = none ∧ (0 ≤ safeScore (contextScore? m) ∧ safeScore (contextScore? m) < 1) ∨
      ∃ a b, lastSummaries m = some (a, b) ∧ safeScore (contextScore? m) =
        if isShort a && isShort b then 7 / 10
        else similarity (charBigramSet a) (charBigramSet b) := by
  unfold contextScore? lastSummaries
  cases m.recent 2 "" with
  | none => exact .inl ⟨rfl, by norm_num [safeScore]⟩
  | some recent =>
    simp only [Option.bind_eq_bind, Option.bind_some]
    split
    · exact .inl ⟨rfl, by norm_num [safeScore]⟩
    · cases (recent.rtake 2).mapM summaryOf with
      | none => exact .inl ⟨rfl, by norm_num [safeScore]⟩
      | some summaries =>
        rcases summaries with _ | ⟨a, _ | ⟨b, _ | ⟨c, rest⟩⟩⟩
        all_goals simp only [Option.bind_some]
        · exact .inl ⟨trivial, by norm_num [safeScore]⟩
        · exact .inl ⟨trivial, by norm_num [safeScore]⟩
        · cases ha : textOf a with
          | none => exact .inl ⟨by simp, pairScore_lt (.inl ha)⟩
          | some s =>
            cases hb : textOf b with
            | none => exact .inl ⟨by simp, pairScore_lt (.inr hb)⟩
            | some t =>
              obtain rfl := eq_str_of_textOf ha
              obtain rfl := eq_str_of_textOf hb
              refine .inr ⟨s, t, by simp, ?_⟩
              rw [pairScore_str, safeScore, Option.getD_some]
        · exact .inl ⟨trivial, by norm_num [safeScore]⟩

theorem contextScore_nonneg : 0 ≤ safeScore (contextScore? m) := by
  rcases contextScore_cases m with ⟨-, h, -⟩ | ⟨a, b, -, hscore⟩
  · exact h
  · rw [hscore]
    split
    · norm_num
    · exact (similarity_mem _ _).1

theorem context_eq_max : (scores m content roomId).context =
    max (safeScore (contextScore? m)) (safeScore (shortTermScore? m)) := by
  simp only [scores]
  split
  · rfl
  · next h => rw [max_eq_left ((not_lt.mp h).trans contextScore_nonneg)]

theorem contextScore_eq_one_iff : 1 ≤ safeScore (contextScore? m) ↔
    ∃ a b, lastSummaries m = some (a, b) ∧ Echoes a b := by
  rcases contextScore_cases m with ⟨hnone, -, hlow⟩ | ⟨a, b, hsome, hscore⟩
  · simp [hnone, hlow]
  · have hecho : 1 ≤ safeScore (contextScore? m) ↔ Echoes a b := by
      rw [hscore]
      cases hshort : isShort a && isShort b with
      | true => exact iff_of_false (by norm_num) fun he => Bool.noConfusion (hshort ▸ he.long)
      | false => exact similarity_eq_one_iff hshort
    rw [hecho]
    simp [hsome]

/-- With the default configuration, and whatever raises: Iris speaks unasked when someone has
connected or when the memory and the context together weigh enough, and neither a raw input nor
any urgency makes a difference. When the memory gives nothing, the last two summaries have to
repeat each other. -/
theorem speaks_iff (m : MemoryView) (content roomId : String) (context : Dict String Json) :
    (speaks {} m content roomId context ↔ isConnected context = true ∨
      30 / 100 ≤ 55 / 100 * (scores m content roomId).memory +
        30 / 100 * (scores m content roomId).context) ∧
    (safeScore (memoryScore? m) = 0 →
      (speaks {} m content roomId context ↔ isConnected context = true ∨
        ∃ a b, lastSummaries m = some (a, b) ∧ Echoes a b)) := by
  have hspeaks : speaks {} m content roomId context ↔ isConnected context = true ∨
      30 / 100 ≤ 55 / 100 * (scores m content roomId).memory +
        30 / 100 * (scores m content roomId).context :=
    aggregateScores_default sensory_le contentUrgency_le
  refine ⟨hspeaks, fun hmemory => hspeaks.trans (or_congr_right ?_)⟩
  have hzero : (scores m content roomId).memory = 0 := hmemory
  have hturns : ¬ 1 ≤ safeScore (shortTermScore? m) := by
    linarith [(shortTerm_mem : _ ∧ safeScore (shortTermScore? m) ≤ 5 / 10).2]
  have hone : ∀ x : ℚ, 30 / 100 ≤ 55 / 100 * 0 + 30 / 100 * x ↔ 1 ≤ x := fun x =>
    ⟨fun h => by linarith, fun h => by linarith⟩
  rw [hzero, context_eq_max, hone, le_max_iff, or_iff_left hturns, contextScore_eq_one_iff]

end ProactiveScorer

end IrisMind.Planning
