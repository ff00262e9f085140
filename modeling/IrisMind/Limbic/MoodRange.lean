import IrisMind.Limbic.Emotions
import IrisMind.Lib.Machine

/-! # How far the mood goes

As long as the profiles are sound, every emotion draws the mood to a place
inside a region that is far from the ends of the axes, and the region is not
left. Arousal and valence stay close together in it. -/
namespace IrisMind.Limbic
open IrisMind.Lib IrisMind.Accounts
open IrisMind.Lib.Smoothing (Share Within)

/-- The region the mood stays in. -/
def narrowRegion : Region :=
  [⟨⟨1, 0, 0⟩, -4495 / 10000, 3411 / 10000⟩,
   ⟨⟨0, 1, 0⟩, -2997 / 10000, 3882 / 10000⟩,
   ⟨⟨0, 0, 1⟩, -2248 / 10000, 2047 / 10000⟩,
   ⟨⟨-1, 1, 0⟩, -2047 / 10000, 1664 / 10000⟩]

/-- What it is to be in the narrow region. -/
structure Vad.Narrow (v : Vad) : Prop where
  valence : Within (-4495 / 10000) (3411 / 10000) v.valence
  arousal : Within (-2997 / 10000) (3882 / 10000) v.arousal
  dominance : Within (-2248 / 10000) (2047 / 10000) v.dominance
  apart : Within (-2047 / 10000) (1664 / 10000) (v.arousal - v.valence)

theorem narrowRegion_holds {v : Vad} : narrowRegion.Holds v ↔ v.Narrow := by
  have hapart : -v.valence + v.arousal = v.arousal - v.valence := by ring
  simp only [narrowRegion, Region.Holds, List.forall_mem_cons, Slab.Holds, Vad.dot, one_mul,
    zero_mul, neg_mul, zero_add, add_zero, hapart]
  constructor
  · rintro ⟨hvalence, harousal, hdominance, happart, -⟩
    exact ⟨hvalence, harousal, hdominance, happart⟩
  · intro h
    exact ⟨h.valence, h.arousal, h.dominance, h.apart, by simp⟩

theorem narrowRegion_proper : narrowRegion.Proper where
  zero := narrowRegion_holds.mpr (by constructor <;> norm_num [Within])
  unit v hv := by
    obtain ⟨hvalence, harousal, hdominance, -⟩ := narrowRegion_holds.mp hv
    simp only [Within] at hvalence harousal hdominance
    refine Region.unit_holds.mpr ⟨⟨?_, ?_⟩, ⟨?_, ?_⟩, ⟨?_, ?_⟩⟩ <;> linarith

theorem tinted_eq {base mood : ℚ} (hbase : Within (-1) 1 base) (hmood : Within (-1) 1 mood) :
    EmotionGenerator.tinted base mood = base * (7 / 10) + mood * (3 / 10) := by
  obtain ⟨hb0, hb1⟩ := hbase
  obtain ⟨hm0, hm1⟩ := hmood
  have hweight : EmotionGenerator.moodWeight = 3 / 10 := rfl
  rw [EmotionGenerator.tinted, hweight, clampSigned_of_mem ⟨by linarith, by linarith⟩]
  ring

/-- A slab around 0 holds what an emotion draws the mood to, when its borders are drawn into it. -/
theorem Slab.drawn_holds {slab : Slab} {emotion : GeneratedEmotion} {primary : PlutchikEmotion}
    {mood : Vad} {bound : ℚ} (hmood : slab.Holds mood) (hunit : Region.unit.Holds mood)
    (hvad : emotion.toVad =
      ⟨EmotionGenerator.tinted (plutchikVad primary).valence mood.valence,
       EmotionGenerator.tinted (plutchikVad primary).arousal mood.arousal,
       EmotionGenerator.tinted (plutchikVad primary).dominance mood.dominance⟩)
    (h0 : 0 ≤ emotion.intensity) (hbound : emotion.intensity ≤ bound)
    (hzero : Within slab.low slab.high 0)
    (hlow : slab.low ≤
      (slab.weights.dot (plutchikVad primary) * (7 / 10) + slab.low * (3 / 10)) * bound)
    (hhigh : (slab.weights.dot (plutchikVad primary) * (7 / 10) + slab.high * (3 / 10)) * bound ≤
      slab.high) :
    slab.Holds (MoodDynamics.drawn emotion) := by
  obtain ⟨hvalence, harousal, hdominance⟩ := Region.unit_holds.mp hunit
  obtain ⟨hm0, hm1⟩ := hmood
  have hbase : Region.unit.Holds (plutchikVad primary) := by
    cases primary <;> norm_num [Region.unit_holds, plutchikVad, Within]
  obtain ⟨hvalence', harousal', hdominance'⟩ := Region.unit_holds.mp hbase
  have hsum : slab.weights.dot (MoodDynamics.drawn emotion) =
      (slab.weights.dot (plutchikVad primary) * (7 / 10) + slab.weights.dot mood * (3 / 10)) *
        emotion.intensity := by
    simp only [MoodDynamics.drawn, hvad, tinted_eq hvalence' hvalence,
      tinted_eq harousal' harousal, tinted_eq hdominance' hdominance, Vad.dot]
    ring
  rw [Slab.Holds, hsum]
  exact Smoothing.weakened_within ⟨by linarith, by linarith⟩ h0 hbound hzero hlow hhigh

/-- What is left of the emotions draws the mood into the region. -/
theorem drawn_narrow {emotion : GeneratedEmotion} {primary : PlutchikEmotion} {top : ℚ}
    {mood : Vad} (hmood : narrowRegion.Holds mood) (hpeak : peak primary = some top)
    (hintensity : Within (44 / 100) top emotion.intensity)
    (hvad : emotion.toVad =
      ⟨EmotionGenerator.tinted (plutchikVad primary).valence mood.valence,
       EmotionGenerator.tinted (plutchikVad primary).arousal mood.arousal,
       EmotionGenerator.tinted (plutchikVad primary).dominance mood.dominance⟩) :
    narrowRegion.Holds (MoodDynamics.drawn emotion) := by
  intro slab hslab
  have h0 : 0 ≤ emotion.intensity := le_trans (by norm_num) hintensity.1
  refine Slab.drawn_holds (hmood slab hslab) (narrowRegion_proper.unit _ hmood) hvad h0
    hintensity.2 ?_ ?_ ?_
  all_goals
    simp only [narrowRegion, List.mem_cons, List.not_mem_nil, or_false] at hslab
    rcases hslab with rfl | rfl | rfl | rfl <;> cases primary <;> cases hpeak <;>
      norm_num [Within, plutchikVad, Vad.dot]

/-! ## Runs -/

/-- The clock never goes back. -/
def Ticking : ℚ → List (Moment × LimbicEvent) → Prop
  | _, [] => True
  | t, i :: rest => t ≤ i.1.readAt ∧ i.1.readAt ≤ i.1.updatedAt ∧ Ticking i.1.updatedAt rest

/-- The handler when the pipeline has been built. -/
def LimbicHandler.fresh (startedAt : ℚ) : LimbicHandler where
  orchestrator := { mood := { lastUpdate := startedAt } }

theorem LimbicHandler.kept_fresh (startedAt : ℚ) : (LimbicHandler.fresh startedAt).Kept where
  relationships := RelationshipManager.run_wellFormed []
  latest _ hr := by cases hr

variable {out : Outside} {h : LimbicHandler} {i : Moment × LimbicEvent}

theorem LimbicHandler.Kept.run (out : Outside) (hk : h.Kept)
    {is : List (Moment × LimbicEvent)} (hsound : ∀ i ∈ is, i.1.Sound) :
    (Machine.run (LimbicHandler.step out) h is).Kept := by
  induction is generalizing h with
  | nil => exact hk
  | cons i is ih =>
    exact ih (hk.step out (hsound i List.mem_cons_self)) fun j hj =>
      hsound j (List.mem_cons_of_mem i hj)

theorem RelationshipState.feel_moves (state : RelationshipState) (emotion : CompanionEmotion)
    (contextType : Option String) (userProfile : Option Profile) :
    (state.feel emotion contextType userProfile).trust =
        clamp (state.trust + (emotionRelationshipImpact emotion.primary).trust) ∧
      (state.feel emotion contextType userProfile).familiarity =
        clamp (state.familiarity + (emotionRelationshipImpact emotion.primary).familiarity) := by
  have hstyle : ∀ s : RelationshipState, (s.updateAttachmentStyle userProfile).trust = s.trust ∧
      (s.updateAttachmentStyle userProfile).familiarity = s.familiarity := by
    intro s
    unfold RelationshipState.updateAttachmentStyle
    split
    · exact ⟨rfl, rfl⟩
    · split <;> exact ⟨rfl, rfl⟩
  have hlevel : ∀ s : RelationshipState, s.updateLevel.trust = s.trust ∧
      s.updateLevel.familiarity = s.familiarity := by
    intro s
    obtain ⟨level, he, -⟩ := s.updateLevel_spec
    rw [he]
    exact ⟨rfl, rfl⟩
  unfold RelationshipState.feel
  dsimp only
  rw [(hstyle _).1, (hstyle _).2, (hlevel _).1, (hlevel _).2]
  split <;> exact ⟨rfl, rfl⟩

/-- No step takes familiarity away, and none takes more of the trust than sadness does. -/
theorem LimbicHandler.Kept.relationship_step (hk : h.Kept) (hsound : i.1.Sound)
    (a : AccountId) :
    (h.orchestrator.relationship.value a).familiarity ≤
        ((h.step out i).orchestrator.relationship.value a).familiarity ∧
      (h.orchestrator.relationship.value a).trust - 1 / 100 ≤
        ((h.step out i).orchestrator.relationship.value a).trust := by
  have hsame : ∀ x : ℚ, x - 1 / 100 ≤ x := fun x => by linarith
  have hstep := LimbicHandler.orchestrator_step out h i
  cases hq : i.2.request? i.1 with
  | none =>
    simp only [hq] at hstep
    rw [hstep]
    exact ⟨le_refl _, hsame _⟩
  | some q =>
    simp only [hq] at hstep
    rw [hstep]
    rcases h.orchestrator.process_cases out i.1 q.text q.context q.userProfile q.accountId with
      ⟨-, hun⟩ | ⟨r, -, hp⟩
    · rw [hun.relationship]
      exact ⟨le_refl _, hsame _⟩
    · rw [hp.relationship a]
      split
      · next ha =>
        obtain ⟨top, hpeak, -⟩ := (hp.narrow hk.relationships hsound hq).emotion
        obtain ⟨hfamiliarity, htrust⟩ := peak_impact hpeak
        obtain ⟨-, hfamiliar⟩ := (hk.relationships q.accountId).familiarity
        obtain ⟨-, htrusted⟩ := (hk.relationships q.accountId).trust
        have hfelt := RelationshipState.feel_moves
          (h.orchestrator.relationship.value q.accountId) r.emotion.toCompanionEmotion
          (detectContextType q.text)
          (some (h.orchestrator.profileOf q.userProfile q.accountId).1)
        rw [hp.felt, ha, hfelt.1, hfelt.2]
        exact ⟨le_max_of_le_right (le_min hfamiliar (by linarith)),
          le_max_of_le_right (le_min (by linarith) (by linarith))⟩
      · exact ⟨le_refl _, hsame _⟩

/-- What holds of the mood at a time, as long as the clock never goes back. -/
structure LimbicHandler.Bounded (h : LimbicHandler) (t : ℚ) : Prop extends h.Kept where
  mood : narrowRegion.Holds h.orchestrator.mood.mood.toVad
  latestMood : ∀ r, h.orchestrator.state.latest = some r → narrowRegion.Holds r.mood.toVad
  clock : h.orchestrator.mood.lastUpdate ≤ t

theorem LimbicHandler.bounded_fresh (startedAt : ℚ) :
    (LimbicHandler.fresh startedAt).Bounded startedAt where
  toKept := LimbicHandler.kept_fresh startedAt
  mood := narrowRegion_proper.zero
  latestMood _ hr := by cases hr
  clock := le_refl _

theorem LimbicHandler.Bounded.step {t : ℚ} (hexp : out.exp.Decays) (hb : h.Bounded t)
    (hsound : i.1.Sound) (hread : t ≤ i.1.readAt) (hupdated : i.1.readAt ≤ i.1.updatedAt) :
    (h.step out i).Bounded i.1.updatedAt := by
  have hkept := hb.toKept.step out hsound
  have hclock : h.orchestrator.mood.lastUpdate ≤ i.1.updatedAt :=
    hb.clock.trans (hread.trans hupdated)
  have hstep := LimbicHandler.orchestrator_step out h i
  cases hq : i.2.request? i.1 with
  | none =>
    simp only [hq] at hstep
    refine ⟨hkept, ?_, fun r hr => hb.latestMood r ?_, ?_⟩
    · rw [hstep]
      exact hb.mood
    · rwa [hstep] at hr
    · rwa [hstep]
  | some q =>
    simp only [hq] at hstep
    rcases h.orchestrator.process_cases out i.1 q.text q.context q.userProfile q.accountId with
      ⟨-, hun⟩ | ⟨r, -, hp⟩
    · rw [← hstep] at hun
      refine ⟨hkept, hun.mood ▸ hb.mood, fun r hr => hb.latestMood r (hun.state ▸ hr), ?_⟩
      rcases hun.clock with he | he
      · exact he ▸ hclock
      · exact he.le
    · rw [← hstep] at hp
      obtain ⟨trust, familiarity, ht, hf, htypical⟩ :=
        hp.typical hb.relationships hsound hq
      obtain ⟨current, hcurrent, hemotion⟩ := hp.emotion
      obtain ⟨_, hread', hheld⟩ := MoodDynamics.getMood_holds hexp narrowRegion_proper
        (hb.clock.trans hread) hb.mood
      cases hcurrent.symm.trans hread'
      obtain ⟨primary, top, hpeak, -, hintensity, hvad⟩ := htypical.generate ht hf current
      rw [← hemotion] at hintensity hvad
      obtain ⟨mood, hupdate, hmood⟩ := MoodDynamics.update_holds hexp narrowRegion_proper hclock
        hb.mood (drawn_narrow hheld hpeak hintensity hvad)
      obtain ⟨hresult, hdynamics⟩ := Prod.mk.inj (hp.mood.symm.trans hupdate)
      refine ⟨hkept, hdynamics ▸ hmood, fun r' hr => ?_, hdynamics ▸ le_refl _⟩
      rw [hp.state] at hr
      cases hr
      exact Option.some.inj hresult ▸ hmood

theorem LimbicHandler.Bounded.run {t : ℚ} (hexp : out.exp.Decays) (hb : h.Bounded t)
    {is : List (Moment × LimbicEvent)} (hsound : ∀ i ∈ is, i.1.Sound) (hclock : Ticking t is) :
    ∃ t, (Machine.run (LimbicHandler.step out) h is).Bounded t := by
  induction is generalizing h t with
  | nil => exact ⟨t, hb⟩
  | cons i is ih =>
    obtain ⟨hread, hupdated, hrest⟩ := hclock
    exact ih (hb.step hexp (hsound i List.mem_cons_self) hread hupdated)
      (fun j hj => hsound j (List.mem_cons_of_mem i hj)) hrest

/-- Whatever is said and whoever comes and goes, as long as the profiles are sound: the latest
emotion is sadness, anticipation or trust, with at least 0.44 and at most the peak of it; what is
suggested for a reappraisal is always the same; no event takes familiarity away, nor more of a
trust than one hundredth. -/
theorem emotions_hold (out : Outside) (startedAt : ℚ) (is : List (Moment × LimbicEvent))
    (hsound : ∀ i ∈ is, i.1.Sound) :
    let h := Machine.run (LimbicHandler.step out) (LimbicHandler.fresh startedAt) is
    (∀ r, h.orchestrator.state.latest = some r →
      (r.emotion.primary = .sadness ∨ r.emotion.primary = .anticipation ∨
        r.emotion.primary = .trust) ∧ r.Narrow) ∧
    ∀ i a, i.1.Sound →
      (h.orchestrator.relationship.value a).familiarity ≤
          ((h.step out i).orchestrator.relationship.value a).familiarity ∧
        (h.orchestrator.relationship.value a).trust - 1 / 100 ≤
          ((h.step out i).orchestrator.relationship.value a).trust := by
  have hkept := (LimbicHandler.kept_fresh startedAt).run out hsound
  refine ⟨fun r hr => ⟨?_, hkept.latest r hr⟩, fun i a hi => hkept.relationship_step hi a⟩
  obtain ⟨⟨top, hpeak, -⟩, -, -⟩ := hkept.latest r hr
  cases hprimary : r.emotion.primary <;> rw [hprimary] at hpeak <;> cases hpeak <;> simp

/-! ## One run -/

/-- `math.exp` where it is asked for 0. -/
def still : Outside where
  exp := fun _ => some 1
  appraiser := { floatOfText := fun _ => none }

theorem still_decays : still.exp.Decays := fun _ _ => ⟨1, rfl, by norm_num, le_refl _⟩

def friend : Account where
  accountId := "a1"
  profile := .ofList [("trust_level", .num (9 / 10))]

/-- Someone with an account says thanks. -/
def thanked : Moment × LimbicEvent :=
  ({ accounts := some { accounts := [friend] }
     rooms := none, readAt := 0, updatedAt := 0 },
   .message { direction := "request", content := "ありがとう", accountId := ⟨"a1", by simp⟩
              roomId := "" })

theorem thanked_sound : ∀ i ∈ [thanked], i.1.Sound := by
  intro i hi accountId account haccount
  cases List.mem_singleton.mp hi
  unfold Moment.account at haccount
  split at haccount
  · cases haccount
  · have hfound : [friend].find? (·.accountId == accountId.1) = some account := haccount
    cases List.mem_singleton.mp (List.mem_of_find?_eq_some hfound)
    constructor
    · intro x hx
      cases hx
      norm_num
    · intro x hx
      cases hx
      norm_num

theorem thanked_ticking : Ticking 0 [thanked] := ⟨le_refl _, le_refl _, trivial⟩

theorem emotions_hold_thanked :
    (∀ r, (Machine.run (LimbicHandler.step still) (LimbicHandler.fresh 0)
        [thanked]).orchestrator.state.latest = some r →
      (r.emotion.primary = .sadness ∨ r.emotion.primary = .anticipation ∨
        r.emotion.primary = .trust) ∧ r.Narrow) ∧
    ((Machine.run (LimbicHandler.step still) (LimbicHandler.fresh 0)
        [thanked]).orchestrator.relationship.value ⟨"a1", by simp⟩).familiarity ≤
      ((Machine.run (LimbicHandler.step still) (LimbicHandler.fresh 0)
        [thanked, thanked]).orchestrator.relationship.value ⟨"a1", by simp⟩).familiarity :=
  have h := emotions_hold still 0 [thanked] thanked_sound
  ⟨h.1, (h.2 thanked _ (thanked_sound _ List.mem_cons_self)).1⟩

end IrisMind.Limbic
