import IrisMind.Lib.Smoothing
import IrisMind.Limbic.Generator

/-! # The mood

The mood fades with the time since the last emotion and is moved by each new
one. How much of it is left is an exponential, taken as a function of its
argument that gives no number where it overflows. -/
namespace IrisMind.Limbic
open IrisMind.Lib
open IrisMind.Lib.Smoothing (Share Within blend)

/-- `math.exp`; none is the `OverflowError`. -/
abbrev Exp := ℚ → Option ℚ

structure MoodDynamics where
  mood : Mood := {}
  lastUpdate : ℚ

namespace MoodDynamics

variable (exp : Exp)

/-- `_compute_decay` -/
def computeDecay (dt : ℚ) : Option ℚ := exp (-(693 / 1000) * dt / 600)

/-- What an axis of the mood becomes with an emotion. -/
def moved (decay old axis intensity : ℚ) : ℚ :=
  clampSigned (old * decay + axis * intensity * (1 - decay))

/-- `update`: the time is taken down before the exponential may overflow. -/
def update (m : MoodDynamics) (now : ℚ) (emotion : GeneratedEmotion) :
    Option Mood × MoodDynamics :=
  match computeDecay exp (now - m.lastUpdate) with
  | none => (none, { m with lastUpdate := now })
  | some decay =>
    let mood : Mood :=
      { valence := moved decay m.mood.valence emotion.valence emotion.intensity
        arousal := moved decay m.mood.arousal emotion.arousal emotion.intensity
        dominance := moved decay m.mood.dominance emotion.dominance emotion.intensity
        lastUpdated := now }
    (some mood, { mood, lastUpdate := now })

def getMood (m : MoodDynamics) (now : ℚ) : Option Mood :=
  (computeDecay exp (now - m.lastUpdate)).map fun decay =>
    { valence := m.mood.valence * decay
      arousal := m.mood.arousal * decay
      dominance := m.mood.dominance * decay
      lastUpdated := now }

end MoodDynamics

/-! ## Regions of moods -/

/-- A weighted sum of the axes. -/
def Vad.dot (weights v : Vad) : ℚ :=
  weights.valence * v.valence + weights.arousal * v.arousal + weights.dominance * v.dominance

/-- The moods between two parallel planes. -/
structure Slab where
  weights : Vad
  low : ℚ
  high : ℚ

def Slab.Holds (slab : Slab) (v : Vad) : Prop := Within slab.low slab.high (slab.weights.dot v)

/-- What is common to some slabs. -/
abbrev Region := List Slab

namespace Region

def Holds (region : Region) (v : Vad) : Prop := ∀ slab ∈ region, slab.Holds v

/-- All the numbers a mood may have. -/
def unit : Region := [⟨⟨1, 0, 0⟩, -1, 1⟩, ⟨⟨0, 1, 0⟩, -1, 1⟩, ⟨⟨0, 0, 1⟩, -1, 1⟩]

theorem unit_holds {v : Vad} : unit.Holds v ↔
    Within (-1) 1 v.valence ∧ Within (-1) 1 v.arousal ∧ Within (-1) 1 v.dominance := by
  simp [unit, Holds, Slab.Holds, Vad.dot]

/-- A region around the mood that is neutral, and of moods in range. -/
structure Proper (region : Region) : Prop where
  zero : region.Holds {}
  unit : ∀ v, region.Holds v → unit.Holds v

end Region

/-- What `math.exp` does with an argument that is not positive: it gives a share. -/
def Exp.Decays (exp : Exp) : Prop := ∀ x ≤ 0, ∃ y, exp x = some y ∧ Share y

theorem Exp.Decays.computeDecay {exp : Exp} (h : exp.Decays) {dt : ℚ} (hdt : 0 ≤ dt) :
    ∃ decay, MoodDynamics.computeDecay exp dt = some decay ∧ Share decay :=
  h _ (by linarith)

namespace MoodDynamics

variable {exp : Exp} {m : MoodDynamics} {now : ℚ} {region : Region}

/-- A mood that is asked for later has faded inside every region it was in. -/
theorem getMood_holds (hexp : exp.Decays) (hregion : region.Proper) (hnow : m.lastUpdate ≤ now)
    (hm : region.Holds m.mood.toVad) :
    ∃ mood, m.getMood exp now = some mood ∧ region.Holds mood.toVad := by
  obtain ⟨decay, hdecay, hshare⟩ := hexp.computeDecay (sub_nonneg.mpr hnow)
  refine ⟨_, by rw [getMood, hdecay]; rfl, fun slab hslab => ?_⟩
  have hzero : Within slab.low slab.high 0 := by
    simpa [Slab.Holds, Vad.dot] using hregion.zero slab hslab
  have hfaded := Smoothing.faded_within hshare hzero (hm slab hslab)
  simpa only [Slab.Holds, Vad.dot, add_mul, mul_assoc] using hfaded

/-- What an emotion draws the mood to. -/
def drawn (emotion : GeneratedEmotion) : Vad where
  valence := emotion.valence * emotion.intensity
  arousal := emotion.arousal * emotion.intensity
  dominance := emotion.dominance * emotion.intensity

theorem moved_eq_blend {decay old axis intensity : ℚ} (hd : Share decay)
    (hold : Within (-1) 1 old) (hsample : Within (-1) 1 (axis * intensity)) :
    moved decay old axis intensity = blend decay old (axis * intensity) :=
  clampSigned_of_mem (Smoothing.blend_within hd hold hsample)

/-- A region that holds the mood and what an emotion draws it to is not left. -/
theorem update_holds (hexp : exp.Decays) (hregion : region.Proper) (hnow : m.lastUpdate ≤ now)
    {emotion : GeneratedEmotion} (hm : region.Holds m.mood.toVad)
    (he : region.Holds (drawn emotion)) :
    ∃ mood, m.update exp now emotion = (some mood, { mood, lastUpdate := now }) ∧
      region.Holds mood.toVad := by
  obtain ⟨decay, hdecay, hshare⟩ := hexp.computeDecay (sub_nonneg.mpr hnow)
  obtain ⟨hvalence, harousal, hdominance⟩ := Region.unit_holds.mp (hregion.unit _ hm)
  obtain ⟨hvalence', harousal', hdominance'⟩ := Region.unit_holds.mp (hregion.unit _ he)
  refine ⟨_, by rw [update, hdecay], fun slab hslab => ?_⟩
  have hblend := Smoothing.blend_within hshare (hm slab hslab) (he slab hslab)
  have hsum : slab.weights.dot
      ⟨moved decay m.mood.valence emotion.valence emotion.intensity,
       moved decay m.mood.arousal emotion.arousal emotion.intensity,
       moved decay m.mood.dominance emotion.dominance emotion.intensity⟩ =
      blend decay (slab.weights.dot m.mood.toVad) (slab.weights.dot (drawn emotion)) := by
    simp only [Vad.dot, drawn, moved_eq_blend hshare hvalence hvalence',
      moved_eq_blend hshare harousal harousal', moved_eq_blend hshare hdominance hdominance',
      blend]
    ring
  exact (congrArg (Within slab.low slab.high) hsum).mpr hblend

theorem update_some {emotion : GeneratedEmotion} {mood : Mood} {m' : MoodDynamics}
    (h : m.update exp now emotion = (some mood, m')) : m' = { mood, lastUpdate := now } := by
  unfold update at h
  split at h <;> cases h
  rfl

end MoodDynamics

end IrisMind.Limbic
