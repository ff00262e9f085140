import IrisMind.Inhibition.Manager

/-! # What silences a room

A room is silent on its own for three reasons of its own: its gate, a suppression
that covers it and blocks some proactive reason, or that no session is connected.
The manager asks for any active suppression at all, whatever room it is limited
to and whatever it blocks, and without a room it asks every gate. The answer is
split into the part in scope of the room and the rest. -/
namespace IrisMind.Inhibition
open IrisMind.Lib

variable {T : Type} [Clock T]

/-- Active, global or of the room, and a block on some proactive reason. -/
def SuppressionEntry.silences (e : SuppressionEntry T) (now : T) (roomId : String) : Bool :=
  e.isActive now && e.covers (some roomId) && decide (∃ p ∈ proactiveOnly, e.blocks p = true)

namespace InhibitionManager

/-- The two states agree on everything in scope of the room. -/
structure AgreeOn (m n : InhibitionManager T) (now : T) (roomId : String) : Prop where
  config : m.config = n.config
  gate : m.gate.room roomId = n.gate.room roomId
  entries : ∀ e, e.silences now roomId = true →
    (e ∈ m.striatum.suppressions.values ↔ e ∈ n.striatum.suppressions.values)

/-- The gate holds a proactive event back, as the configuration has it. -/
def gateHolds (config : InhibitionConfig T) (g : RoomGate T) (now : T) : Bool :=
  config.inhibitProactiveDuringExecution && g.executing ||
    config.inhibitProactiveDuringCooldown && g.isOnCooldown now

/-- Something in scope of the room silences it. -/
def silencedInScope (m : InhibitionManager T) (sessionGetter : Option Bool) (gateNow : String → T)
    (now : T) (roomId : String) : Bool :=
  gateHolds m.config (m.gate.room roomId) (gateNow roomId) ||
    m.striatum.suppressions.values.any (·.silences now roomId) || sessionGetter = some false

/-- Something that does not concern the room makes the manager silence it: an active suppression
of another room, or one that blocks no proactive reason; for the empty room id also the gate of
a room. -/
def silencedFromOutside (m : InhibitionManager T) (gateNow : String → T) (now : T)
    (roomId : String) : Bool :=
  (m.striatum.suppressions.values.any fun e => e.isActive now && !e.silences now roomId) ||
    roomId = "" && m.gate.gates.entries.any fun g => gateHolds m.config g.2 (gateNow g.1)

theorem silencedInScope_congr {m n : InhibitionManager T} {now : T} {roomId : String}
    (h : AgreeOn m n now roomId) (sessionGetter : Option Bool) (gateNow : String → T) :
    m.silencedInScope sessionGetter gateNow now roomId =
      n.silencedInScope sessionGetter gateNow now roomId := by
  have hentries : m.striatum.suppressions.values.any (·.silences now roomId) =
      n.striatum.suppressions.values.any (·.silences now roomId) := by
    rw [Bool.eq_iff_iff, List.any_eq_true, List.any_eq_true]
    refine exists_congr fun e => ?_
    constructor
    · intro hentry
      obtain ⟨hm, hs⟩ := hentry
      exact ⟨(h.entries e hs).mp hm, hs⟩
    · intro hentry
      obtain ⟨hn, hs⟩ := hentry
      exact ⟨(h.entries e hs).mpr hn, hs⟩
  unfold silencedInScope
  rw [h.config, h.gate, hentries]

theorem active_of_silences {e : SuppressionEntry T} {now : T} {roomId : String}
    (h : e.silences now roomId = true) : e.isActive now = true := by
  unfold SuppressionEntry.silences at h
  rw [Bool.and_assoc] at h
  exact (Bool.and_eq_true_iff.mp h).1

/-- An active suppression is in scope of the room or outside of it. -/
theorem hasActiveSuppression_eq (s : Striatum T) (now : T) (roomId : String) :
    s.hasActiveSuppression now =
      (s.suppressions.values.any (·.silences now roomId) ||
        s.suppressions.values.any fun e => e.isActive now && !e.silences now roomId) := by
  unfold Striatum.hasActiveSuppression
  rw [Bool.eq_iff_iff]
  simp only [Bool.or_eq_true, List.any_eq_true, Bool.and_eq_true, Bool.not_eq_true']
  constructor
  · intro hentry
    obtain ⟨e, hm, ha⟩ := hentry
    cases hs : e.silences now roomId with
    | true => exact .inl ⟨e, hm, hs⟩
    | false => exact .inr ⟨e, hm, ha, hs⟩
  · intro hentry
    rcases hentry with ⟨e, hm, hs⟩ | ⟨e, hm, ha, _⟩
    · exact ⟨e, hm, active_of_silences hs⟩
    · exact ⟨e, hm, ha⟩

/-- Without a room, the manager's own gate answers for the global scope and the gates of all
rooms are asked besides. -/
theorem gateHolds_any (config : InhibitionConfig T) (g : Gate T) (gateNow : String → T) :
    (config.inhibitProactiveDuringExecution && g.isExecuting ||
        config.inhibitProactiveDuringCooldown && g.isOnCooldown gateNow) =
      (gateHolds config g.globalGate (gateNow "") ||
        g.gates.entries.any fun e => gateHolds config e.2 (gateNow e.1)) := by
  have hany : (g.gates.entries.any fun e => gateHolds config e.2 (gateNow e.1)) =
      (config.inhibitProactiveDuringExecution && g.gates.values.any (·.executing) ||
        config.inhibitProactiveDuringCooldown &&
          g.gates.entries.any fun e => e.2.isOnCooldown (gateNow e.1)) := by
    unfold gateHolds Dict.values
    induction g.gates.entries with
    | nil => simp
    | cons e rest ih =>
      simp only [List.any_cons, List.map_cons, ih, Bool.and_or_distrib_left]
      ac_rfl
  rw [hany]
  unfold gateHolds Gate.isExecuting Gate.isOnCooldown
  simp only [Bool.and_or_distrib_left]
  ac_rfl

theorem shouldSuppressProactive_eq (m : InhibitionManager T) (sessionGetter : Option Bool)
    (gateNow : String → T) (now : T) (roomId : String) :
    (m.shouldSuppressProactive sessionGetter gateNow now roomId).1 =
      (m.silencedInScope sessionGetter gateNow now roomId ||
        m.silencedFromOutside gateNow now roomId) := by
  by_cases hr : roomId = ""
  · subst hr
    have hgate := gateHolds_any m.config m.gate gateNow
    simp only [shouldSuppressProactive, ne_eq, not_true_eq_false, if_false, hgate,
      hasActiveSuppression_eq m.striatum now "", silencedInScope, silencedFromOutside,
      decide_true, Bool.true_and, Gate.room, if_true]
    ac_rfl
  · have hgate : (m.config.inhibitProactiveDuringExecution && (m.gate.room roomId).executing ||
        m.config.inhibitProactiveDuringCooldown &&
          (m.gate.room roomId).isOnCooldown (gateNow roomId)) =
      gateHolds m.config (m.gate.room roomId) (gateNow roomId) := rfl
    simp only [shouldSuppressProactive, ne_eq, hr, not_false_eq_true, if_true,
      Gate.isRoomExecuting, Gate.isRoomOnCooldown, Gate.getGate_fst, Gate.room_getGate, hgate,
      hasActiveSuppression_eq m.striatum now roomId, silencedInScope, silencedFromOutside,
      decide_false, Bool.false_and, Bool.or_false]
    ac_rfl

/-- For every two states that agree on what is in scope of the room: the manager gives the same
answer exactly when something in scope silences the room, or what is outside of it silences it
in both states or in neither. -/
theorem shouldSuppressProactive_eq_iff {m n : InhibitionManager T} {now : T} {roomId : String}
    (h : AgreeOn m n now roomId) (sessionGetter : Option Bool) (gateNow : String → T) :
    (m.shouldSuppressProactive sessionGetter gateNow now roomId).1 =
        (n.shouldSuppressProactive sessionGetter gateNow now roomId).1 ↔
      m.silencedInScope sessionGetter gateNow now roomId = true ∨
        (m.silencedFromOutside gateNow now roomId = true ↔
          n.silencedFromOutside gateNow now roomId = true) := by
  rw [shouldSuppressProactive_eq, shouldSuppressProactive_eq,
    silencedInScope_congr h sessionGetter gateNow]
  cases n.silencedInScope sessionGetter gateNow now roomId with
  | true => simp
  | false =>
    rw [Bool.false_or, Bool.false_or, Bool.eq_iff_iff]
    exact (or_iff_right Bool.false_ne_true).symm

end InhibitionManager

/-! ## A recording in another room -/

/-- Nothing is suppressed but proactive speech in the room "other". -/
def recordingElsewhere : InhibitionManager Int :=
  (InhibitionManager.fresh ⟨0, true, true⟩).suppress 1 "voice_recording" 0 (some "other") none

theorem agreeOn_recordingElsewhere :
    InhibitionManager.AgreeOn recordingElsewhere (.fresh ⟨0, true, true⟩) 1 "r" := by
  refine ⟨rfl, rfl, fun e he => iff_of_false (fun hm => ?_) (fun hm => ?_)⟩
  · have hscope : ∀ x ∈ recordingElsewhere.striatum.suppressions.values,
        x.silences 1 "r" = false := by decide
    rw [hscope e hm] at he
    cases he
  · cases hm

theorem recording_silences_another_room :
    ¬ ∀ (m n : InhibitionManager Int) (sessionGetter : Option Bool) (gateNow : String → Int)
      (now : Int) (roomId : String), InhibitionManager.AgreeOn m n now roomId →
        (m.shouldSuppressProactive sessionGetter gateNow now roomId).1 =
          (n.shouldSuppressProactive sessionGetter gateNow now roomId).1 := by
  intro h
  have hsame := h _ _ (some true) (fun _ => 1) 1 "r" agreeOn_recordingElsewhere
  exact absurd hsame (by decide)

theorem recording_silences_another_room_iff :
    ((recordingElsewhere.shouldSuppressProactive (some true) (fun _ => 1) 1 "r").1 =
        ((InhibitionManager.fresh ⟨0, true, true⟩ : InhibitionManager Int).shouldSuppressProactive
          (some true) (fun _ => 1) 1 "r").1 ↔
      recordingElsewhere.silencedInScope (some true) (fun _ => 1) 1 "r" = true ∨
        (recordingElsewhere.silencedFromOutside (fun _ => 1) 1 "r" = true ↔
          (InhibitionManager.fresh ⟨0, true, true⟩ : InhibitionManager Int).silencedFromOutside
            (fun _ => 1) 1 "r" = true)) :=
  InhibitionManager.shouldSuppressProactive_eq_iff agreeOn_recordingElsewhere _ _

end IrisMind.Inhibition
