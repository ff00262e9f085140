import IrisMind.Limbic.Appraiser
import Mathlib.Data.Rat.Floor

/-! # Modulation

What the emotions come to for a plan: a few numbers in range, and two labels.
The sampling, the guidance in the prompt and the behaviour are read off them. -/
namespace IrisMind.Planning
open IrisMind.Limbic

structure ModulationState where
  chaosLevel : ℚ := 0
  valence : ℚ := 0
  arousal : ℚ := 0
  dominance : ℚ := 0
  moodLabel : String := "neutral"
  emotionLabel : String := ""
  chaosLevel_mem : 0 ≤ chaosLevel ∧ chaosLevel ≤ 1 := by norm_num
  valence_mem : -1 ≤ valence ∧ valence ≤ 1 := by norm_num
  arousal_mem : -1 ≤ arousal ∧ arousal ≤ 1 := by norm_num
  dominance_mem : -1 ≤ dominance ∧ dominance ≤ 1 := by norm_num

namespace ModulationState

/-- `__post_init__` brings the numbers into range. -/
def of (chaosLevel valence arousal dominance : ℚ) (moodLabel emotionLabel : String) :
    ModulationState where
  chaosLevel := clamp chaosLevel
  valence := clampSigned valence
  arousal := clampSigned arousal
  dominance := clampSigned dominance
  moodLabel := moodLabel
  emotionLabel := emotionLabel
  chaosLevel_mem := RelationshipState.clamp_mem _
  valence_mem := clampSigned_mem _
  arousal_mem := clampSigned_mem _
  dominance_mem := clampSigned_mem _

def fromChaosLevel (level : ℚ) : ModulationState := of level 0 0 0 "neutral" ""

variable (mod : ModulationState)

/-! ## Sampling -/

def arousalShift : ℚ := max 0 mod.arousal * (8 / 100) - max 0 (-mod.arousal) * (4 / 100)

def valenceShift : ℚ :=
  if mod.valence < -35 / 100 then -3 / 100 else if 35 / 100 < mod.valence then 2 / 100 else 0

def samplingTemperature : ℚ :=
  let base := 45 / 100 + mod.chaosLevel * (35 / 100)
  max (2 / 10) (min (9 / 10) (base + mod.arousalShift + mod.valenceShift))

def minPThreshold : ℚ := max (2 / 100) (1 / 10 - mod.chaosLevel * (8 / 100))

/-! ## Behaviour -/

def shouldSuppressProactive : Bool := mod.valence < -45 / 100 && 35 / 100 < mod.arousal

/-- With what the random number generator draws. -/
def checkRelaxResponseRules (draw : ℚ) : Bool :=
  if mod.chaosLevel < 5 / 10 then false else draw < mod.chaosLevel

/-- `max(1, 1 + int(chaos_level * 3))` -/
def curiosityCandidateCount : Int := max 1 (1 + ⌊mod.chaosLevel * 3⌋)

/-! ## Guidance in the prompt -/

def hasAffectiveSignal : Bool :=
  12 / 100 ≤ |mod.valence| || 12 / 100 ≤ |mod.arousal| || 12 / 100 ≤ |mod.dominance| ||
    mod.emotionLabel ≠ ""

def affectiveTone : String :=
  if !mod.hasAffectiveSignal then ""
  else if mod.valence < -35 / 100 ∧ 35 / 100 < mod.arousal then "緊張や警戒が少し強い"
  else if mod.valence < -35 / 100 ∧ mod.arousal ≤ 35 / 100 then "心配や落ち込みを少し含む"
  else if 35 / 100 < mod.valence ∧ 25 / 100 < mod.arousal then "明るく前向き"
  else if 35 / 100 < mod.valence then "穏やかで好意的"
  else if 45 / 100 < mod.arousal then "反応が速くなりやすい"
  else if mod.arousal < -35 / 100 then "落ち着いて静か"
  else if mod.moodLabel ≠ "neutral" then mod.moodLabel
  else "平静"

def behaviorDirectives : List String :=
  if !mod.hasAffectiveSignal then []
  else
    (if mod.valence < -25 / 100 then ["相手を急かさず、受け止める表現を優先する"]
      else if 25 / 100 < mod.valence then ["前向きさを少しだけにじませる"] else []) ++
    (if 35 / 100 < mod.arousal then ["短く、テンポよく返す"]
      else if mod.arousal < -25 / 100 then ["落ち着いた間合いで返す"] else []) ++
    (if mod.dominance < -25 / 100 then ["断定を避け、確認や提案の形に寄せる"]
      else if 35 / 100 < mod.dominance then ["必要な判断を簡潔に示す"] else [])

def promptLines : List String :=
  if !mod.hasAffectiveSignal then []
  else ("- 受け止め方: " ++ mod.affectiveTone) ::
    mod.behaviorDirectives.map ("- 話し方: " ++ ·) ++ ["- 注意: 感情状態そのものを説明しない"]

/-! ## Bounds -/

variable {mod}

theorem arousalShift_mem : -4 / 100 ≤ mod.arousalShift ∧ mod.arousalShift ≤ 8 / 100 := by
  obtain ⟨hlow, hhigh⟩ := mod.arousal_mem
  unfold arousalShift
  rcases le_total 0 mod.arousal with h | h
  · rw [max_eq_right h, max_eq_left (by linarith)]
    constructor <;> linarith
  · rw [max_eq_left h, max_eq_right (by linarith)]
    constructor <;> linarith

theorem valenceShift_mem : -3 / 100 ≤ mod.valenceShift ∧ mod.valenceShift ≤ 2 / 100 := by
  unfold valenceShift
  split
  · norm_num
  · split <;> norm_num

/-- What the shifts may come to is already in the range the temperature is held in. -/
theorem samplingTemperature_eq : mod.samplingTemperature =
    45 / 100 + mod.chaosLevel * (35 / 100) + mod.arousalShift + mod.valenceShift := by
  obtain ⟨hchaos, hchaos'⟩ := mod.chaosLevel_mem
  obtain ⟨harousal, harousal'⟩ := mod.arousalShift_mem
  obtain ⟨hvalence, hvalence'⟩ := mod.valenceShift_mem
  rw [samplingTemperature, min_eq_right (by linarith), max_eq_right (by linarith)]

end ModulationState

end IrisMind.Planning
