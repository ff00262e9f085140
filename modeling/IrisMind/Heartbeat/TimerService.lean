import IrisMind.Lib.Machine
import Mathlib.Data.List.Chain
import Mathlib.Data.NNRat.Defs
import Mathlib.Tactic.Linarith
import Mathlib.Tactic.Ring

/-! # The heartbeat

A thread publishes numbered ticks and waits between them; other threads start
it, stop it, reset its wait and publish ticks of their own. As long as every
`stop` sees its thread end, the numbers run from zero without a gap, and two
neighbouring ticks are an interval apart unless a reset, or the start of a
thread, came between them. -/
namespace IrisMind.Heartbeat
open IrisMind.Lib

structure TimerTick where
  source : String
  tickCount : Int
  /-- When it was published. -/
  time : Rat
  /-- Published without the wait before it having run to its end. -/
  early : Bool := false
deriving DecidableEq, Repr

/-- Where the thread of a `_loop` stands: before the test of its `while`, inside `publish`, inside
`_wait_for_interval` with its deadline, or at its end. -/
inductive Phase where
  | head (early : Bool)
  | publishing
  | waiting (deadline : Rat)
  | ended
deriving DecidableEq, Repr

/-- `threads` are the loops ever started; `starts`, `resets` and `asked` count the calls that
started a thread, those of `reset`, and those of `tick` and `schedule_tick`. -/
structure TimerService where
  interval : Rat
  now : Rat := 0
  shutdown : Bool := false
  reset : Bool := false
  tickCount : Nat := 0
  thread : Option Nat := none
  threads : List Phase := []
  scheduled : List Rat := []
  published : List TimerTick := []
  starts : Nat := 0
  resets : Nat := 0
  asked : Nat := 0

/-- What happens next: time passes, a loop takes a turn, a delayed tick falls due, or a call. The
`join` of a `stop` returns at `joined`, in time or not. A call is one step, also `start`, whose
test and assignment no lock holds together, and `publish` never raises. -/
inductive Input where
  | advance (dt : ℚ≥0)
  | turn (k : Nat)
  | fire (k : Nat)
  | start
  | stop
  | joined
  | tick
  | reset
  | scheduleTick (delay : Rat)

namespace TimerService

def publish (s : TimerService) (t : TimerTick) : TimerService :=
  { s with published := s.published ++ [t] }

def manualTick (s : TimerService) : TimerTick := ⟨"heartbeat:manual", -1, s.now, false⟩

/-- The loop up to the next place where another thread may come between. -/
def loop (s : TimerService) : Phase → TimerService × Phase
  | .head early =>
    if s.shutdown then (s, .ended)
    else (s.publish ⟨"heartbeat", s.tickCount, s.now, early⟩, .publishing)
  | .publishing => ({ s with tickCount := s.tickCount + 1 }, .waiting (s.now + s.interval))
  | .waiting deadline =>
    if s.shutdown then (s, .head true)
    else if deadline ≤ s.now then (s, .head false)
    else if s.reset then ({ s with reset := false }, .head true)
    else (s, .waiting deadline)
  | .ended => (s, .ended)

def turn (s : TimerService) (k : Nat) : TimerService :=
  match s.threads[k]? with
  | none => s
  | some phase =>
    let next := s.loop phase
    { next.1 with threads := s.threads.set k next.2 }

def start (s : TimerService) : TimerService :=
  if s.thread.isSome then s
  else { s with
    shutdown := false
    reset := false
    thread := some s.threads.length
    threads := s.threads ++ [.head true]
    starts := s.starts + 1 }

/-- A timer that is due publishes its tick and is gone. -/
def fire (s : TimerService) (k : Nat) : TimerService :=
  match s.scheduled[k]? with
  | some due =>
    if due ≤ s.now then
      { s.publish s.manualTick with scheduled := s.scheduled.eraseIdx k }
    else s
  | none => s

def step (s : TimerService) : Input → TimerService
  | .advance dt => { s with now := s.now + dt }
  | .turn k => s.turn k
  | .fire k => s.fire k
  | .start => s.start
  | .stop => { s with shutdown := true }
  | .joined => { s with thread := none }
  | .tick => { s.publish s.manualTick with asked := s.asked + 1 }
  | .reset => { s with reset := true, resets := s.resets + 1 }
  | .scheduleTick delay =>
    { s with scheduled := s.scheduled ++ [s.now + delay], asked := s.asked + 1 }

/-- The ticks of the loops. -/
def regular (s : TimerService) : List TimerTick :=
  s.published.filter fun t => t.source == "heartbeat"

def manual (s : TimerService) : List TimerTick :=
  s.published.filter fun t => t.source == "heartbeat:manual"

/-- The phase of the thread that `start` has handed out. -/
def phase (s : TimerService) : Phase :=
  (s.thread.bind fun k => s.threads[k]?).getD .ended

/-- A `join` does not give up on a thread that still runs, as it does after two seconds: a thread
that is inside `publish` for longer would go on without a handle, beside the next one. -/
def JoinEnds (s : TimerService) : Input → Prop
  | .joined => s.phase = .ended
  | _ => True

@[simp] theorem publish_regular (s : TimerService) (t : TimerTick) :
    (s.publish t).regular = s.regular ++ if t.source = "heartbeat" then [t] else [] := by
  by_cases h : t.source = "heartbeat" <;> simp [regular, publish, h]

@[simp] theorem publish_manual (s : TimerService) (t : TimerTick) :
    (s.publish t).manual = s.manual ++ if t.source = "heartbeat:manual" then [t] else [] := by
  by_cases h : t.source = "heartbeat:manual" <;> simp [manual, publish, h]

/-! ## What a running thread knows -/

/-- The time of the last tick of a loop, zero before there is one. -/
def lastTime (s : TimerService) : Rat := (s.regular.getLast?.map TimerTick.time).getD 0

/-- The last tick of a loop was published at least an interval before `time`. -/
def Rested (s : TimerService) (time : Rat) : Prop :=
  s.regular ≠ [] ∧ s.lastTime + s.interval ≤ time

/-- What a thread has to know of the ticks before it, in each phase. -/
def Ready (s : TimerService) : Phase → Prop
  | .head false => s.Rested s.now
  | .waiting deadline => s.Rested deadline
  | .publishing => s.regular ≠ []
  | _ => True

/-- How many numbers are given out: while its tick is being published, one more than counted. -/
def given (s : TimerService) : Phase → Nat
  | .publishing => s.tickCount + 1
  | _ => s.tickCount

/-- The early ticks that the thread may still publish without another call. -/
def pending (s : TimerService) : Phase → Nat
  | .head true => if s.shutdown then 0 else 1
  | _ => 0

def early (s : TimerService) : Nat := s.regular.countP fun t => t.early

def onTime (s : TimerService) : Nat := s.regular.countP fun t => !t.early

/-- Two neighbouring ticks are an interval apart, or the later one is early. -/
def Spaced (interval : Rat) (ticks : List TimerTick) : Prop :=
  ticks.IsChain fun t u => u.early ∨ t.time + interval ≤ u.time

structure Paced (s : TimerService) (phase : Phase) : Prop where
  counted : s.regular.map (·.tickCount) = (List.range (s.given phase)).map Nat.cast
  spaced : Spaced s.interval s.regular
  ready : s.Ready phase
  past : s.lastTime ≤ s.now
  budget : s.early + s.reset.toNat + s.pending phase ≤ s.starts + s.resets
  rate : s.onTime * s.interval ≤ s.lastTime

/-- Which threads there are, and what is published beside the ticks of the loops, changes nothing
a thread knows. -/
theorem Paced.frame {s : TimerService} {phase : Phase} (h : Paced s phase) (threads : List Phase)
    (thread : Option Nat) (published : List TimerTick) (scheduled : List Rat) (asked : Nat)
    (hreg : { s with published }.regular = s.regular) :
    Paced { s with threads, thread, published, scheduled, asked } phase := by
  let s' : TimerService := { s with threads, thread, published, scheduled, asked }
  have hs' : s'.regular = s.regular := hreg
  have hlast : s'.lastTime = s.lastTime := by simp [lastTime, hs']
  have hready : s'.Ready phase := by
    have hready := h.ready
    cases phase with
    | head early => cases early <;> simp_all [Ready, Rested, s']
    | _ => simp_all [Ready, Rested, s']
  refine ⟨hs' ▸ h.counted, hs' ▸ h.spaced, hready, hlast ▸ h.past, ?_, ?_⟩
  · have hearly : s'.early = s.early := by simp [early, hs']
    change s'.early + _ + _ ≤ _
    exact hearly ▸ h.budget
  · have honTime : s'.onTime = s.onTime := by simp [onTime, hs']
    change s'.onTime * s.interval ≤ s'.lastTime
    rw [honTime, hlast]
    exact h.rate

/-! ## One turn -/

theorem lastTime_append {s s' : TimerService} {t : TimerTick} (h : s'.regular = s.regular ++ [t]) :
    s'.lastTime = t.time := by simp [lastTime, h]

theorem spaced_append {interval : Rat} {ticks : List TimerTick} {t : TimerTick}
    (h : Spaced interval ticks)
    (ht : ∀ u ∈ ticks.getLast?, t.early ∨ u.time + interval ≤ t.time) :
    Spaced interval (ticks ++ [t]) := by
  refine List.isChain_append.mpr ⟨h, by simp, ?_⟩
  intro u hu v hv
  simp only [List.head?_cons, Option.mem_some_iff] at hv
  subst hv
  exact ht u hu

theorem Rested.spaced {s : TimerService} {time : Rat} (h : s.Rested time) :
    ∀ u ∈ s.regular.getLast?, u.time + s.interval ≤ time := by
  intro u hu
  have hlast : s.lastTime = u.time := by simp [lastTime, Option.mem_def.mp hu]
  exact hlast ▸ h.2

/-- A tick of a loop that is not shut down. -/
theorem Paced.publish {s : TimerService} {early : Bool} (h : Paced s (.head early))
    (hrun : s.shutdown = false) :
    Paced (s.publish ⟨"heartbeat", s.tickCount, s.now, early⟩) .publishing := by
  let s' := s.publish ⟨"heartbeat", s.tickCount, s.now, early⟩
  have hreg : s'.regular = s.regular ++ [⟨"heartbeat", s.tickCount, s.now, early⟩] := by
    simp [s']
  have hlast : s'.lastTime = s.now := lastTime_append hreg
  refine ⟨?_, ?_, ?_, hlast.le, ?_, ?_⟩
  · have hcounted := h.counted
    simp only [given] at hcounted
    change s'.regular.map _ = (List.range (s.tickCount + 1)).map _
    simp [hreg, hcounted, List.range_succ]
  · change Spaced s.interval s'.regular
    rw [hreg]
    refine spaced_append h.spaced fun u hu => ?_
    cases early with
    | true => exact Or.inl rfl
    | false => exact Or.inr (Rested.spaced h.ready u hu)
  · change s'.regular ≠ []
    simp [hreg]
  · have hbudget := h.budget
    change s'.early + s.reset.toNat + 0 ≤ s.starts + s.resets
    cases early <;> simp [TimerService.early, hreg, pending, hrun] at hbudget ⊢ <;> omega
  · change s'.onTime * s.interval ≤ s'.lastTime
    rw [hlast]
    cases early with
    | true =>
      have : s'.onTime = s.onTime := by simp [onTime, hreg]
      rw [this]
      exact h.rate.trans h.past
    | false =>
      have hone : s'.onTime = s.onTime + 1 := by simp [onTime, hreg]
      have hrested : s.lastTime + s.interval ≤ s.now := h.ready.2
      have hrate := h.rate
      rw [hone]
      push_cast
      linarith

theorem Paced.loop {s : TimerService} {phase : Phase} (h : Paced s phase) :
    Paced (s.loop phase).1 (s.loop phase).2 := by
  cases phase with
  | head early =>
    cases hrun : s.shutdown with
    | true =>
      simp only [TimerService.loop, hrun, if_true]
      have hbudget : s.early + s.reset.toNat + s.pending .ended ≤ s.starts + s.resets :=
        Nat.le_trans (by simp [pending]) h.budget
      exact ⟨h.counted, h.spaced, trivial, h.past, hbudget, h.rate⟩
    | false =>
      simp only [TimerService.loop, hrun, Bool.false_eq_true, if_false]
      exact h.publish hrun
  | publishing =>
    refine ⟨h.counted, h.spaced, ⟨h.ready, ?_⟩, h.past, h.budget, h.rate⟩
    change s.lastTime + s.interval ≤ s.now + s.interval
    linarith [h.past]
  | waiting deadline =>
    simp only [TimerService.loop]
    split
    · rename_i hrun
      exact ⟨h.counted, h.spaced, trivial, h.past, by simpa [pending, hrun] using h.budget, h.rate⟩
    · split
      · rename_i hdue
        exact ⟨h.counted, h.spaced, ⟨h.ready.1, h.ready.2.trans hdue⟩, h.past,
          by simpa [pending] using h.budget, h.rate⟩
      · split
        · rename_i hrun _ hreset
          refine ⟨h.counted, h.spaced, trivial, h.past, ?_, h.rate⟩
          -- the flag that is cleared pays for the tick
          have hbudget := h.budget
          change s.early + 0 + (if s.shutdown then 0 else 1) ≤ s.starts + s.resets
          simpa [pending, hreset, hrun] using hbudget
        · exact h
  | ended => exact h

theorem step_interval (s : TimerService) (i : Input) : (s.step i).interval = s.interval := by
  cases i with
  | turn k =>
    simp only [step, turn]
    cases s.threads[k]? with
    | none => rfl
    | some phase =>
      cases phase <;> simp only [loop] <;> split_ifs <;> rfl
  | fire k =>
    simp only [step, fire]
    cases s.scheduled[k]? with
    | none => rfl
    | some due => simp only; split_ifs <;> rfl
  | start => simp only [step, start]; split_ifs <;> rfl
  | _ => rfl

/-- `reset` during a wait makes the loop publish its next tick at once, where its docstring promises
one more interval. -/
theorem reset_publishes {s : TimerService} {k : Nat} {deadline : Rat}
    (hk : s.threads[k]? = some (.waiting deadline)) (hrun : s.shutdown = false)
    (hearly : s.now < deadline) :
    (((s.step .reset).step (.turn k)).step (.turn k)).regular =
      s.regular ++ [⟨"heartbeat", s.tickCount, s.now, true⟩] := by
  have hlt : k < s.threads.length := (List.getElem?_eq_some_iff.mp hk).1
  let threads := s.threads.set k (.head true)
  let s' := { s with reset := false, resets := s.resets + 1, threads }
  have hwait : (s.step .reset).step (.turn k) = s' := by
    simp [step, turn, loop, hk, hrun, not_le.mpr hearly, s', threads]
  have hhead : s'.threads[k]? = some (.head true) := by simp [s', threads, hlt]
  rw [hwait]
  simp only [step, turn, hhead, loop]
  simp [s', hrun, regular, publish]

/-- A turn touches neither the handle of the thread nor the ticks that are asked for. -/
theorem loop_keeps (s : TimerService) (phase : Phase) :
    (s.loop phase).1.thread = s.thread ∧ (s.loop phase).1.manual = s.manual ∧
      (s.loop phase).1.scheduled = s.scheduled ∧ (s.loop phase).1.asked = s.asked := by
  cases phase with
  | head early =>
    simp only [loop]
    split_ifs
    · exact ⟨rfl, rfl, rfl, rfl⟩
    · exact ⟨rfl, by simp, rfl, rfl⟩
  | waiting deadline =>
    simp only [loop]
    split_ifs <;> exact ⟨rfl, rfl, rfl, rfl⟩
  | _ => exact ⟨rfl, rfl, rfl, rfl⟩

/-! ## Runs -/

/-- Only the thread that `start` has handed out still runs, and every manual tick that was asked
for is published or scheduled. -/
structure Inv (s : TimerService) : Prop where
  paced : Paced s s.phase
  alone : ∀ k p, s.threads[k]? = some p → p ≠ .ended → s.thread = some k
  kept : s.manual.length + s.scheduled.length = s.asked

theorem Inv.turn {s : TimerService} (h : Inv s) (k : Nat) : Inv (s.turn k) := by
  unfold TimerService.turn
  cases hk : s.threads[k]? with
  | none => exact h
  | some phase =>
    have hlt : k < s.threads.length := (List.getElem?_eq_some_iff.mp hk).1
    by_cases hended : phase = .ended
    · subst hended
      have hsame : s.threads.set k .ended = s.threads := by
        obtain ⟨_, hget⟩ := List.getElem?_eq_some_iff.mp hk
        rw [← hget, List.set_getElem_self]
      simpa only [loop, hsame] using h
    · have hthread := h.alone k phase hk hended
      have hphase : s.phase = phase := by simp [TimerService.phase, hthread, hk]
      have hpaced : Paced (s.loop phase).1 (s.loop phase).2 := (hphase ▸ h.paced).loop
      obtain ⟨hkeep, hmanual, hscheduled, hasked⟩ := s.loop_keeps phase
      let s' : TimerService :=
        { (s.loop phase).1 with threads := s.threads.set k (s.loop phase).2 }
      have hnext : s'.phase = (s.loop phase).2 := by
        simp [s', TimerService.phase, hkeep, hthread, hlt]
      refine ⟨?_, ?_, ?_⟩
      · change Paced s' s'.phase
        rw [hnext]
        exact hpaced.frame _ _ _ _ _ rfl
      · intro j p hj hp
        change (s.loop phase).1.thread = some j
        rw [hkeep]
        by_cases hjk : k = j
        · exact hjk ▸ hthread
        · exact h.alone j p (by simpa [hjk] using hj) hp
      · change (s.loop phase).1.manual.length + (s.loop phase).1.scheduled.length = _
        rw [hmanual, hscheduled]
        exact h.kept.trans hasked.symm

theorem Inv.start {s : TimerService} (h : Inv s) : Inv s.start := by
  unfold TimerService.start
  split
  · exact h
  · rename_i hnone
    have hthread : s.thread = none := by simpa using hnone
    have hended : s.phase = .ended := by simp [TimerService.phase, hthread]
    let s' : TimerService := { s with
      shutdown := false, reset := false, thread := some s.threads.length,
      threads := s.threads ++ [.head true], starts := s.starts + 1 }
    have hphase : s'.phase = .head true := by simp [TimerService.phase, s']
    have hp : Paced s .ended := hended ▸ h.paced
    refine ⟨?_, ?_, h.kept⟩
    · change Paced s' s'.phase
      rw [hphase]
      refine ⟨hp.counted, hp.spaced, trivial, hp.past, ?_, hp.rate⟩
      have hbudget := hp.budget
      change s.early + 0 + 1 ≤ s.starts + 1 + s.resets
      omega
    · -- every earlier thread has ended
      intro k p hk hne
      change some s.threads.length = some k
      change (s.threads ++ [.head true])[k]? = some p at hk
      rcases Nat.lt_trichotomy k s.threads.length with hlt | heq | hgt
      · rw [List.getElem?_append_left hlt] at hk
        exact absurd (h.alone k p hk hne) (by simp [hthread])
      · rw [heq]
      · rw [List.getElem?_eq_none (by simp; omega)] at hk
        exact absurd hk (by simp)

theorem Inv.fire {s : TimerService} (h : Inv s) (k : Nat) : Inv (s.fire k) := by
  unfold TimerService.fire
  cases hk : s.scheduled[k]? with
  | none => exact h
  | some due =>
    have hlt : k < s.scheduled.length := (List.getElem?_eq_some_iff.mp hk).1
    by_cases hdue : due ≤ s.now
    · simp only [hdue, if_true]
      refine ⟨h.paced.frame _ _ _ _ _ (by simp [regular, publish, manualTick]), h.alone, ?_⟩
      have hkept := h.kept
      have hmanual : (s.publish s.manualTick).manual.length = s.manual.length + 1 := by
        simp [manualTick]
      change (s.publish s.manualTick).manual.length + (s.scheduled.eraseIdx k).length = s.asked
      rw [hmanual, List.length_eraseIdx_of_lt hlt]
      omega
    · simpa only [hdue, if_false] using h

/-- Time that passes makes nothing less ready. -/
theorem Ready.later {s : TimerService} {phase : Phase} (h : s.Ready phase) {now : Rat}
    (hnow : s.now ≤ now) : { s with now }.Ready phase := by
  cases phase with
  | head early =>
    cases early with
    | false => exact ⟨h.1, h.2.trans hnow⟩
    | true => trivial
  | _ => exact h

theorem Inv.step {s : TimerService} (h : Inv s) (i : Input) (hok : s.JoinEnds i) :
    Inv (s.step i) := by
  cases i with
  | advance dt =>
    have hnow : s.now ≤ s.now + (dt : Rat) := le_add_of_nonneg_right dt.2
    exact ⟨⟨h.paced.counted, h.paced.spaced, h.paced.ready.later hnow,
      h.paced.past.trans hnow, h.paced.budget, h.paced.rate⟩, h.alone, h.kept⟩
  | turn k => exact h.turn k
  | fire k => exact h.fire k
  | start => exact h.start
  | stop =>
    refine ⟨⟨h.paced.counted, h.paced.spaced, h.paced.ready, h.paced.past, ?_, h.paced.rate⟩,
      h.alone, h.kept⟩
    have hnone : { s with shutdown := true }.pending s.phase = 0 := by
      unfold pending
      split <;> rfl
    have hbudget := h.paced.budget
    change s.early + s.reset.toNat + { s with shutdown := true }.pending s.phase ≤ _
    rw [hnone]
    exact Nat.le_trans (Nat.le_add_right _ _) hbudget
  | joined =>
    have hended : s.phase = .ended := hok
    refine ⟨?_, ?_, h.kept⟩
    · have hp : Paced s .ended := hended ▸ h.paced
      exact hp.frame _ _ _ _ _ rfl
    · -- a thread that runs would be the one that was waited for
      intro k p hk hne
      have hthread := h.alone k p hk hne
      have hphase : s.phase = p := by
        simp [TimerService.phase, hthread, show s.threads[k]? = some p from hk]
      exact absurd (hphase.symm.trans hended) hne
  | tick =>
    refine ⟨h.paced.frame _ _ _ _ _ (by simp [regular, publish, manualTick]), h.alone, ?_⟩
    have hkept := h.kept
    have hmanual : (s.publish s.manualTick).manual.length = s.manual.length + 1 := by
      simp [manualTick]
    change (s.publish s.manualTick).manual.length + s.scheduled.length = s.asked + 1
    omega
  | reset =>
    refine ⟨⟨h.paced.counted, h.paced.spaced, h.paced.ready, h.paced.past, ?_, h.paced.rate⟩,
      h.alone, h.kept⟩
    have hbudget := h.paced.budget
    change s.early + 1 + s.pending s.phase ≤ s.starts + (s.resets + 1)
    omega
  | scheduleTick delay =>
    refine ⟨h.paced.frame _ _ _ _ _ rfl, h.alone, ?_⟩
    have hkept := h.kept
    change s.manual.length + (s.scheduled ++ [s.now + delay]).length = s.asked + 1
    simp only [List.length_append, List.length_singleton]
    omega

theorem inv_new (interval : Rat) : Inv { interval } := by
  refine ⟨⟨rfl, List.isChain_nil, trivial, le_refl _, Nat.zero_le _, ?_⟩, by simp, rfl⟩
  simp [onTime, lastTime, regular]

end TimerService

/-- However starts, stops, resets, manual and scheduled ticks and the turns of the threads come
between each other: as long as no `join` gives up on a thread that runs, the ticks of the loops are
numbered from zero without a gap, each one is an interval after the one before it or early, at most
one for each start and reset is early, and no more of the others are published than intervals have
passed. Of the ticks asked for, each one is published once or still scheduled. -/
theorem ticks_paced (interval : Rat) (is : List Input)
    (h : Machine.Guarded TimerService.step TimerService.JoinEnds { interval } is) :
    let s := Machine.run TimerService.step { interval } is
    (∃ n, s.regular.map (·.tickCount) = (List.range n).map Nat.cast) ∧
      TimerService.Spaced interval s.regular ∧ s.early ≤ s.starts + s.resets ∧
      s.onTime * interval ≤ s.now ∧ s.manual.length + s.scheduled.length = s.asked := by
  have hinv : TimerService.Inv _ :=
    h.inv _ (fun _ i hs hi => hs.step i hi) (TimerService.inv_new interval)
  have hinterval : (Machine.run TimerService.step { interval } is).interval = interval :=
    Machine.run_inv (fun s : TimerService => s.interval = interval)
      (fun s i hs => (s.step_interval i).trans hs) rfl is
  have hp := hinv.paced
  have hspaced := hp.spaced
  have hbudget := hp.budget
  have hrate := hp.rate
  rw [hinterval] at hspaced hrate
  exact ⟨⟨_, hp.counted⟩, hspaced, by omega, hrate.trans hp.past, hinv.kept⟩

/-- A loop that is reset, ticks early, waits its interval out, ticks again and is stopped. -/
def resetOnce : List Input :=
  [.start, .turn 0, .turn 0, .reset, .turn 0, .turn 0, .turn 0, .advance 5, .turn 0, .turn 0, .tick,
    .stop, .turn 0, .turn 0, .turn 0, .joined]

theorem ticks_paced_reset :
    let s := Machine.run TimerService.step { interval := 5 } resetOnce
    s.regular.length = 3 ∧
    (∃ n, s.regular.map (·.tickCount) = (List.range n).map Nat.cast) ∧
      TimerService.Spaced 5 s.regular ∧ s.early ≤ s.starts + s.resets ∧
      s.onTime * 5 ≤ s.now ∧ s.manual.length + s.scheduled.length = s.asked :=
  ⟨by decide +kernel, ticks_paced 5 resetOnce (by
    simp only [resetOnce, Machine.Guarded, TimerService.JoinEnds, true_and, and_true]
    decide +kernel)⟩

end IrisMind.Heartbeat
