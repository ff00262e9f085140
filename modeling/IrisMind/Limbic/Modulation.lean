import IrisMind.Limbic.MoodRange
import IrisMind.Planning.Modulation

/-! # What planning hears of the emotions

The latest mood and emotion become a modulation. As long as the profiles are
sound the mood stays in its region and the emotions at their peaks, so that most
of what a modulation could ask for is never asked for: no plan is held back, no
rule is relaxed, and of nine tones three are left. -/
namespace IrisMind.Limbic
open IrisMind.Lib IrisMind.Accounts
open IrisMind.Lib.Smoothing (Share Within)
open IrisMind.Planning (ModulationState)

/-- `_compute_chaos_level` -/
def computeChaosLevel (emotion : GeneratedEmotion) : ℚ :=
  if [PlutchikEmotion.anger, .fear, .disgust, .surprise].contains emotion.primary then
    min (35 / 100) (emotion.intensity * (25 / 100))
  else min (2 / 10) (emotion.intensity * (12 / 100))

/-- `_classify_mood` -/
def classifyMood (valence arousal : ℚ) : String :=
  if valence < -35 / 100 ∧ 25 / 100 < arousal then "警戒"
  else if valence < -35 / 100 then "心配"
  else if 35 / 100 < valence ∧ 25 / 100 < arousal then "明るい"
  else if 35 / 100 < valence then "穏やか"
  else "neutral"

def LimbicOrchestrator.getModulationState (o : LimbicOrchestrator) : ModulationState :=
  match o.state.latest with
  | none => {}
  | some latest =>
    .of (computeChaosLevel latest.emotion) latest.mood.valence latest.mood.arousal
      latest.mood.dominance (classifyMood latest.mood.valence latest.mood.arousal)
      latest.emotion.primary.value

/-! ## What is left to ask for -/

/-- A modulation that asks for little. -/
structure Subdued (mod : ModulationState) : Prop where
  unsuppressed : mod.shouldSuppressProactive = false
  rules : ∀ draw, mod.checkRelaxResponseRules draw = false
  candidates : mod.curiosityCandidateCount = 1
  label : mod.moodLabel = if mod.valence < -35 / 100 then "心配" else "neutral"
  tone : mod.affectiveTone =
    if mod.emotionLabel = "" then ""
    else if mod.valence < -35 / 100 then "心配や落ち込みを少し含む" else "平静"
  directives : mod.behaviorDirectives.length ≤ 2
  temperature : Within (408 / 1000) (5152 / 10000) mod.samplingTemperature
  minP : 922 / 10000 ≤ mod.minPThreshold

theorem classifyMood_narrow {v : Vad} (hv : v.Narrow) :
    classifyMood v.valence v.arousal = if v.valence < -35 / 100 then "心配" else "neutral" := by
  obtain ⟨⟨-, hvalence⟩, -, -, ⟨-, happart⟩⟩ := hv
  unfold classifyMood
  rw [if_neg (by rintro ⟨hlow, hhigh⟩; linarith)]
  split
  · rfl
  · rw [if_neg (by rintro ⟨hhigh, -⟩; linarith), if_neg (by linarith)]

/-- The modulation has the numbers of a mood. -/
def Shows (mod : ModulationState) (v : Vad) : Prop :=
  mod.valence = v.valence ∧ mod.arousal = v.arousal ∧ mod.dominance = v.dominance

theorem tone_narrow {mod : ModulationState} {v : Vad} (hv : v.Narrow) (hshows : Shows mod v)
    (hlabel : mod.moodLabel = classifyMood v.valence v.arousal)
    (hsignal : mod.emotionLabel = "" → mod.hasAffectiveSignal = false) :
    mod.affectiveTone =
      if mod.emotionLabel = "" then ""
      else if mod.valence < -35 / 100 then "心配や落ち込みを少し含む" else "平静" := by
  rw [classifyMood_narrow hv] at hlabel
  obtain ⟨⟨-, hvalence⟩, ⟨harousal, harousal'⟩, -, ⟨-, happart⟩⟩ := hv
  obtain ⟨rv, ra, -⟩ := hshows
  by_cases hemotion : mod.emotionLabel = ""
  · simp [ModulationState.affectiveTone, hemotion, hsignal hemotion]
  · have hheard : mod.hasAffectiveSignal = true := by
      simp [ModulationState.hasAffectiveSignal, hemotion]
    simp only [ModulationState.affectiveTone, hheard, Bool.not_true, Bool.false_eq_true, if_false,
      if_neg hemotion, rv, ra]
    rw [if_neg (by rintro ⟨hlow, hhigh⟩; linarith)]
    by_cases hlow : v.valence < -35 / 100
    · rw [if_pos ⟨hlow, by linarith⟩, if_pos hlow]
    · rw [if_neg (fun h => hlow h.1), if_neg (by rintro ⟨hhigh, -⟩; linarith),
        if_neg (by linarith), if_neg (by linarith), if_neg (by linarith), if_neg hlow]
      simp [hlabel, hlow]

/-- Without a number for the dominance that asks for anything, two of the directives are left. -/
theorem directives_narrow {mod : ModulationState} {v : Vad} (hv : v.Narrow)
    (hshows : Shows mod v) : mod.behaviorDirectives.length ≤ 2 := by
  obtain ⟨-, -, ⟨hdominance, hdominance'⟩, -⟩ := hv
  obtain ⟨-, -, rd⟩ := hshows
  unfold ModulationState.behaviorDirectives
  rw [rd, if_neg (show ¬ v.dominance < -25 / 100 by linarith),
    if_neg (show ¬ 35 / 100 < v.dominance by linarith)]
  split
  · simp
  · simp only [List.append_nil, List.length_append]
    have hone : ∀ (a b : Prop) [Decidable a] [Decidable b] (s t : String),
        (if a then [s] else if b then [t] else []).length ≤ 1 := by
      intro a b _ _ s t
      split
      · simp
      · split <;> simp
    exact Nat.add_le_add (hone ..) (hone ..)

theorem temperature_narrow {mod : ModulationState} {v : Vad} (hv : v.Narrow)
    (hshows : Shows mod v) (hchaos : mod.chaosLevel ≤ 972 / 10000) :
    Within (408 / 1000) (5152 / 10000) mod.samplingTemperature := by
  obtain ⟨⟨-, hvalence⟩, ⟨harousal, harousal'⟩, -, -⟩ := hv
  obtain ⟨rv, ra, -⟩ := hshows
  have hchaos0 := mod.chaosLevel_mem.1
  have hlow : -3 / 100 ≤ mod.valenceShift := ModulationState.valenceShift_mem.1
  have hhigh : mod.valenceShift ≤ 0 := by
    unfold ModulationState.valenceShift
    rw [rv]
    split
    · norm_num
    · rw [if_neg (by linarith)]
  have hshift : Within (-12 / 1000) (3106 / 100000) mod.arousalShift := by
    unfold ModulationState.arousalShift
    rw [ra]
    rcases le_total 0 v.arousal with h | h
    · rw [max_eq_right h, max_eq_left (by linarith)]
      constructor <;> linarith
    · rw [max_eq_left h, max_eq_right (by linarith)]
      constructor <;> linarith
  obtain ⟨hshift0, hshift1⟩ := hshift
  rw [ModulationState.samplingTemperature_eq]
  constructor <;> linarith

theorem subdued_of_narrow {mod : ModulationState} {v : Vad} (hv : v.Narrow)
    (hshows : Shows mod v) (hchaos : mod.chaosLevel ≤ 972 / 10000)
    (hlabel : mod.moodLabel = classifyMood v.valence v.arousal)
    (hsignal : mod.emotionLabel = "" → mod.hasAffectiveSignal = false) : Subdued mod where
  unsuppressed := by
    have hvalence : ¬ mod.valence < -45 / 100 := by linarith [hv.valence.1, hshows.1]
    simp [ModulationState.shouldSuppressProactive, hvalence]
  rules draw := if_pos (by linarith)
  candidates := by
    have hfloor : ⌊mod.chaosLevel * 3⌋ = 0 :=
      Int.floor_eq_zero_iff.mpr ⟨by linarith [mod.chaosLevel_mem.1], by linarith⟩
    simp [ModulationState.curiosityCandidateCount, hfloor]
  label := by rw [hlabel, classifyMood_narrow hv, hshows.1]
  tone := tone_narrow hv hshows hlabel hsignal
  directives := directives_narrow hv hshows
  temperature := temperature_narrow hv hshows hchaos
  minP := le_max_of_le_right (by linarith)

/-- What is left of the emotions lets in little chaos. -/
theorem chaos_of_peak {emotion : GeneratedEmotion} {top : ℚ}
    (hpeak : peak emotion.primary = some top) (hintensity : emotion.intensity ≤ top) :
    computeChaosLevel emotion ≤ 972 / 10000 := by
  have hquiet : ¬ [PlutchikEmotion.anger, .fear, .disgust, .surprise].contains emotion.primary := by
    cases hprimary : emotion.primary <;> rw [hprimary] at hpeak <;> cases hpeak <;> decide
  have htop : top ≤ 81 / 100 := by
    cases hprimary : emotion.primary <;> rw [hprimary] at hpeak <;> cases hpeak <;> norm_num
  rw [computeChaosLevel, if_neg hquiet]
  exact min_le_of_right_le (by linarith)

theorem narrow_zero : Vad.Narrow {} := narrowRegion_holds.mp narrowRegion_proper.zero

theorem LimbicHandler.Bounded.subdued {h : LimbicHandler} {t : ℚ} (hb : h.Bounded t) :
    Subdued h.orchestrator.getModulationState := by
  unfold LimbicOrchestrator.getModulationState
  split
  · refine subdued_of_narrow narrow_zero ⟨rfl, rfl, rfl⟩ (by norm_num) ?_ fun _ => ?_
    · norm_num [classifyMood]
    · norm_num [ModulationState.hasAffectiveSignal]
  · next latest hlatest =>
    have hmood := hb.latestMood latest hlatest
    obtain ⟨top, hpeak, hintensity⟩ := (hb.latest latest hlatest).emotion
    obtain ⟨hvalence, harousal, hdominance⟩ :=
      Region.unit_holds.mp (narrowRegion_proper.unit _ hmood)
    refine subdued_of_narrow (narrowRegion_holds.mp hmood) ⟨clampSigned_of_mem hvalence,
      clampSigned_of_mem harousal, clampSigned_of_mem hdominance⟩ ?_ rfl fun hnone => ?_
    · exact max_le (by norm_num) (min_le_of_right_le (chaos_of_peak hpeak hintensity.2))
    · have hnamed : ∀ e : PlutchikEmotion, e.value ≠ "" := fun e => by cases e <;> decide
      exact absurd hnone (hnamed _)

/-- Whatever is said and whoever comes and goes, as long as the profiles are sound and the clock
does not go back: planning is never told to hold a plan back or to relax a rule, the mood is
called worried or neutral and no other name, and the temperature stays between 0.408 and 0.5152. -/
theorem modulation_subdued (out : Outside) (hexp : out.exp.Decays) (startedAt : ℚ)
    (is : List (Moment × LimbicEvent)) (hsound : ∀ i ∈ is, i.1.Sound)
    (hclock : Ticking startedAt is) :
    Subdued (Machine.run (LimbicHandler.step out) (LimbicHandler.fresh startedAt)
      is).orchestrator.getModulationState := by
  obtain ⟨t, hb⟩ := (LimbicHandler.bounded_fresh startedAt).run hexp hsound hclock
  exact hb.subdued

theorem modulation_subdued_thanked :
    Subdued (Machine.run (LimbicHandler.step still) (LimbicHandler.fresh 0)
      [thanked]).orchestrator.getModulationState :=
  modulation_subdued still still_decays 0 [thanked] thanked_sound thanked_ticking

end IrisMind.Limbic
