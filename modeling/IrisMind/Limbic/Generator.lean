import IrisMind.Lib.Ranking
import IrisMind.Limbic.Appraiser
import Mathlib.Logic.Function.Basic

/-! # From an appraisal to an emotion

Each dimension gives its weight to some of the emotions. The emotion with the
most is the primary one, the next the secondary; of several with the same the
one that is named first. Where no emotion has anything, the mood stands for all
of it. -/
namespace IrisMind.Limbic
open IrisMind.Lib

/-- Valence, arousal and dominance. -/
structure Vad where
  valence : ℚ := 0
  arousal : ℚ := 0
  dominance : ℚ := 0

structure Mood extends Vad where
  lastUpdated : ℚ := 0

/-- The whole of `CompanionEmotion`; a relationship reads the primary emotion of it. -/
structure GeneratedEmotion extends CompanionEmotion, Vad where
  intensity : ℚ
  secondary : Option PlutchikEmotion := none
  secondaryIntensity : ℚ := 0

/-- `list(PlutchikEmotion)` -/
def PlutchikEmotion.all : List PlutchikEmotion :=
  [.joy, .sadness, .anticipation, .surprise, .anger, .fear, .disgust, .trust]

/-- `PLUTCHIK_VAD` -/
def plutchikVad : PlutchikEmotion → Vad
  | .joy => ⟨8 / 10, 6 / 10, 6 / 10⟩
  | .sadness => ⟨-6 / 10, -4 / 10, -3 / 10⟩
  | .anticipation => ⟨4 / 10, 7 / 10, 3 / 10⟩
  | .surprise => ⟨2 / 10, 9 / 10, -2 / 10⟩
  | .anger => ⟨-7 / 10, 8 / 10, 5 / 10⟩
  | .fear => ⟨-7 / 10, 8 / 10, -6 / 10⟩
  | .disgust => ⟨-6 / 10, 3 / 10, 1 / 10⟩
  | .trust => ⟨5 / 10, 2 / 10, 3 / 10⟩

namespace EmotionGenerator

/-- The value of each dimension, with its entry of `_DIMENSION_WEIGHTS`. -/
def dimensionWeights (d : AppraisalDimensions) : List (ℚ × List (PlutchikEmotion × ℚ)) :=
  [(d.unpleasantness, [(.sadness, 4 / 10), (.anger, 3 / 10), (.disgust, 2 / 10),
     (.fear, 1 / 10)]),
   (d.control, [(.anger, 3 / 10), (.joy, 2 / 10), (.trust, 3 / 10), (.fear, 2 / 10)]),
   (d.responsibility, [(.anger, 3 / 10), (.disgust, 2 / 10), (.sadness, 2 / 10),
     (.trust, 3 / 10)]),
   (d.certainty, [(.trust, 4 / 10), (.surprise, 3 / 10), (.fear, 3 / 10)]),
   (d.effort, [(.anticipation, 4 / 10), (.sadness, 3 / 10), (.joy, 3 / 10)]),
   (d.attention, [(.surprise, 3 / 10), (.anticipation, 4 / 10), (.joy, 3 / 10)])]

/-- `_compute_emotion_scores` -/
def computeEmotionScores (d : AppraisalDimensions) : PlutchikEmotion → ℚ :=
  (dimensionWeights d).foldl (fun scores (value, weights) =>
    weights.foldl (fun scores (emotion, weight) =>
      Function.update scores emotion (scores emotion + value * weight)) scores) fun _ => 0

/-- `sorted_emotions`, without the scores. -/
def sortedEmotions (d : AppraisalDimensions) : List PlutchikEmotion :=
  Ranking.rankBy (computeEmotionScores d) PlutchikEmotion.all

/-- How much of an emotion's place the mood takes. -/
def moodWeight : ℚ := 3 / 10

def tinted (base mood : ℚ) : ℚ := clampSigned (base * (1 - moodWeight) + mood * moodWeight)

/-- The emotion when none has any score. -/
def fallback (mood : Vad) : GeneratedEmotion where
  primary := .trust
  toVad := mood
  intensity := 1 / 10

/-- `generate`; without a mood its numbers count as zero. -/
def generate (d : AppraisalDimensions) (mood : Option Mood) : GeneratedEmotion :=
  let scores := computeEmotionScores d
  let mood : Vad := (mood.map Mood.toVad).getD {}
  match sortedEmotions d with
  | [] => fallback mood
  | primary :: rest =>
    if scores primary ≤ 0 then fallback mood
    else
      let base := plutchikVad primary
      { primary
        intensity := min 1 (scores primary)
        valence := tinted base.valence mood.valence
        arousal := tinted base.arousal mood.arousal
        dominance := tinted base.dominance mood.dominance
        secondary := rest.head?
        secondaryIntensity := (rest.head?.map fun secondary => min 1 (scores secondary)).getD 0 }

/-! ## The scores -/

variable (d : AppraisalDimensions)

/-- What each emotion gets of the dimensions. -/
theorem computeEmotionScores_eq :
    computeEmotionScores d = fun
      | .joy => 2 / 10 * d.control + 3 / 10 * d.effort + 3 / 10 * d.attention
      | .sadness => 4 / 10 * d.unpleasantness + 2 / 10 * d.responsibility + 3 / 10 * d.effort
      | .anticipation => 4 / 10 * d.effort + 4 / 10 * d.attention
      | .surprise => 3 / 10 * d.certainty + 3 / 10 * d.attention
      | .anger => 3 / 10 * d.unpleasantness + 3 / 10 * d.control + 3 / 10 * d.responsibility
      | .fear => 1 / 10 * d.unpleasantness + 2 / 10 * d.control + 3 / 10 * d.certainty
      | .disgust => 2 / 10 * d.unpleasantness + 2 / 10 * d.responsibility
      | .trust => 3 / 10 * d.control + 3 / 10 * d.responsibility + 4 / 10 * d.certainty := by
  funext emotion
  cases emotion <;>
    simp [computeEmotionScores, dimensionWeights, Function.update] <;> ring

theorem mem_all (emotion : PlutchikEmotion) : emotion ∈ PlutchikEmotion.all := by
  cases emotion <;> simp [PlutchikEmotion.all]

theorem sortedEmotions_cons : ∃ primary rest, sortedEmotions d = primary :: rest ∧
    ∀ emotion, computeEmotionScores d emotion ≤ computeEmotionScores d primary := by
  cases hsorted : sortedEmotions d with
  | nil =>
    have hmem : PlutchikEmotion.joy ∈ sortedEmotions d := Ranking.mem_rankBy.mpr (mem_all _)
    rw [hsorted] at hmem
    cases hmem
  | cons primary rest =>
    exact ⟨primary, rest, rfl, fun emotion =>
      (Ranking.head_rankBy hsorted).1 emotion (mem_all emotion)⟩

/-- Either the mood stands for the emotion, or the primary emotion has the most of all. -/
theorem generate_cases (mood : Option Mood) :
    (∀ emotion, computeEmotionScores d emotion ≤ 0) ∧
        generate d mood = fallback ((mood.map Mood.toVad).getD {}) ∨
      ∃ primary, (generate d mood).primary = primary ∧
        0 < computeEmotionScores d primary ∧
        (∀ emotion, computeEmotionScores d emotion ≤ computeEmotionScores d primary) ∧
        (generate d mood).intensity = min 1 (computeEmotionScores d primary) ∧
        (generate d mood).toVad =
          ⟨tinted (plutchikVad primary).valence ((mood.map Mood.toVad).getD {}).valence,
           tinted (plutchikVad primary).arousal ((mood.map Mood.toVad).getD {}).arousal,
           tinted (plutchikVad primary).dominance ((mood.map Mood.toVad).getD {}).dominance⟩ := by
  obtain ⟨primary, rest, hsorted, hmax⟩ := sortedEmotions_cons d
  unfold generate
  rw [hsorted]
  by_cases hscore : computeEmotionScores d primary ≤ 0
  · exact .inl ⟨fun emotion => (hmax emotion).trans hscore, if_pos hscore⟩
  · simp only [if_neg hscore]
    exact .inr ⟨primary, rfl, not_le.mp hscore, hmax, rfl, rfl⟩

end EmotionGenerator

end IrisMind.Limbic
