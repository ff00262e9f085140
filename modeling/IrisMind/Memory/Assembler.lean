import IrisMind.Lib.Machine
import IrisMind.Memory.Sensory

/-! # Assembling fragments

The fragments of a room are gathered until there are enough of them, one is
marked as the last, they are judged to be complete, or none has come for a
while. Each fragment starts the timer of its room anew. A timer that has
expired cannot be cancelled: its callback waits for the lock, and by the time
it has it the timer may have been replaced. -/
namespace IrisMind.Memory
open IrisMind.Lib

/-- The assembler, with what was added and what the flush callback was given. `due` are the timers
that have expired and whose callback has not run yet. -/
structure SensoryMemoryAssembler where
  store : SensoryStore := {}
  timeoutMs : Int := 800
  maxFragments : Nat := 10
  timers : Dict String Nat := .empty
  nextTimer : Nat := 0
  running : List (Nat × String) := []
  due : List (Nat × String) := []
  added : List (String × ContentBlock) := []
  flushed : List (String × List ContentBlock) := []

namespace SensoryMemoryAssembler

variable (s : SensoryMemoryAssembler)

def fragments (roomId : String) : List ContentBlock := s.store.fragments.getD roomId []

/-- `_cancel_timer_locked`; a timer that has expired goes on. -/
def cancelTimer (roomId : String) : SensoryMemoryAssembler :=
  match s.timers.get? roomId with
  | none => s
  | some timer => { s with timers := s.timers.erase roomId
                           running := s.running.filter (· ≠ (timer, roomId)) }

/-- `_flush_locked` -/
def flushLocked (roomId : String) : SensoryMemoryAssembler :=
  let s := s.cancelTimer roomId
  let (blocks, store) := s.store.takeFragments roomId
  let s := { s with store }
  if blocks.isEmpty then s else { s with flushed := s.flushed ++ [(roomId, blocks)] }

/-- `_reset_timer_locked` -/
def resetTimer (roomId : String) : SensoryMemoryAssembler :=
  let s := s.cancelTimer roomId
  if s.timeoutMs ≤ 0 then s
  else { s with timers := s.timers.set roomId s.nextTimer
                running := s.running ++ [(s.nextTimer, roomId)]
                nextTimer := s.nextTimer + 1 }

/-- The evaluator is the one that is set at the time; it judges the texts alone. -/
def addFragmentBlock (block : ContentBlock) (isFinal : Bool) (roomId : String)
    (readiness : Option (List String → Bool)) : SensoryMemoryAssembler :=
  let s := { s with store := s.store.addFragment block roomId
                    added := s.added ++ [(roomId, block)] }
  let snapshot := s.store.retrieve roomId
  if s.maxFragments ≤ snapshot.fragments.length then s.flushLocked roomId
  else if isFinal then s.flushLocked roomId
  else
    let textFrags := (snapshot.fragments.filter (·.type = some "text")).map (·.textOrEmpty)
    if readiness.any (· textFrags) then s.flushLocked roomId else s.resetTimer roomId

inductive Step where
  | addFragmentBlock (block : ContentBlock) (isFinal : Bool) (roomId : String)
      (readiness : Option (List String → Bool))
  | expire (timer : Nat × String)
  | onTimeout (timer : Nat × String)
  | flush (roomId : String)

/-- A running timer may expire, and the callback of one that has expired runs once. -/
def step : Step → SensoryMemoryAssembler
  | .addFragmentBlock block isFinal roomId readiness =>
    s.addFragmentBlock block isFinal roomId readiness
  | .expire timer =>
    if timer ∈ s.running then
      { s with running := s.running.filter (· ≠ timer), due := s.due ++ [timer] }
    else s
  | .onTimeout timer =>
    if timer ∈ s.due then
      { s with due := s.due.filter (· ≠ timer) }.flushLocked timer.2
    else s
  | .flush roomId => s.flushLocked roomId

/-! ## What is kept -/

/-- The blocks the callback was given for a room. -/
def delivered (roomId : String) : List ContentBlock :=
  (s.flushed.filter (·.1 = roomId)).flatMap Prod.snd

/-- The blocks that were added for a room. -/
def received (roomId : String) : List ContentBlock :=
  (s.added.filter (·.1 = roomId)).map Prod.snd

/-- The timer of the room is running, or its callback is still to run. -/
def Timed (room : String) : Prop :=
  ∃ timer, s.timers.get? room = some timer ∧ ((timer, room) ∈ s.running ∨ (timer, room) ∈ s.due)

/-- No block is lost, doubled or moved; nothing empty or too long is flushed; the buffer is
short of the limit; and a timer will flush what is in it. -/
structure Conserved : Prop where
  blocks : ∀ room, s.delivered room ++ s.fragments room = s.received room
  flushed : ∀ f ∈ s.flushed, f.2 ≠ [] ∧ f.2.length ≤ s.maxFragments
  short : ∀ room, (s.fragments room).length < s.maxFragments
  timed : 0 < s.timeoutMs → ∀ room, s.fragments room ≠ [] → s.Timed room

variable {s}

/-! ## The timer of a room -/

theorem cancelTimer_frame (roomId : String) :
    (s.cancelTimer roomId).store = s.store ∧ (s.cancelTimer roomId).added = s.added ∧
    (s.cancelTimer roomId).flushed = s.flushed ∧ (s.cancelTimer roomId).due = s.due ∧
    (s.cancelTimer roomId).maxFragments = s.maxFragments ∧
    (s.cancelTimer roomId).timeoutMs = s.timeoutMs := by
  unfold cancelTimer
  split <;> exact ⟨rfl, rfl, rfl, rfl, rfl, rfl⟩

theorem Timed.cancelTimer {room roomId : String} (h : s.Timed room) (hne : room ≠ roomId) :
    (s.cancelTimer roomId).Timed room := by
  obtain ⟨timer, hget, hmem⟩ := h
  unfold SensoryMemoryAssembler.cancelTimer
  split
  · exact ⟨timer, hget, hmem⟩
  · next other _ =>
    refine ⟨timer, ?_, hmem.imp_left fun hrun => ?_⟩
    · rw [Dict.get?_erase, if_neg (Ne.symm hne), hget]
    · exact List.mem_filter.mpr ⟨hrun, by simp [hne]⟩

/-! ## Flushing -/

/-- What holds while a block of the room has been added and not been dealt with. -/
structure ConservedBut (s : SensoryMemoryAssembler) (roomId : String) : Prop where
  blocks : ∀ room, s.delivered room ++ s.fragments room = s.received room
  flushed : ∀ f ∈ s.flushed, f.2 ≠ [] ∧ f.2.length ≤ s.maxFragments
  full : (s.fragments roomId).length ≤ s.maxFragments
  short : ∀ room ≠ roomId, (s.fragments room).length < s.maxFragments
  timed : 0 < s.timeoutMs → ∀ room ≠ roomId, s.fragments room ≠ [] → s.Timed room

theorem Conserved.but (h : s.Conserved) (roomId : String) : s.ConservedBut roomId :=
  ⟨h.blocks, h.flushed, (h.short roomId).le, fun room _ => h.short room,
    fun ht room _ => h.timed ht room⟩

theorem ConservedBut.cancelTimer {roomId : String} (h : s.ConservedBut roomId) :
    (s.cancelTimer roomId).ConservedBut roomId := by
  obtain ⟨hstore, hadded, hflushed, -, hmax, htimeout⟩ := s.cancelTimer_frame roomId
  refine ⟨fun room => ?_, ?_, ?_, fun room hne => ?_, fun ht room hne hfull => ?_⟩
  · rw [delivered, fragments, received, hstore, hadded, hflushed]
    exact h.blocks room
  · rw [hflushed, hmax]
    exact h.flushed
  · rw [fragments, hstore, hmax]
    exact h.full
  · rw [fragments, hstore, hmax]
    exact h.short room hne
  · rw [fragments, hstore] at hfull
    rw [htimeout] at ht
    exact (h.timed ht room hne hfull).cancelTimer hne

theorem delivered_append (f : String × List ContentBlock) (room : String) :
    ({ s with flushed := s.flushed ++ [f] } : SensoryMemoryAssembler).delivered room =
      s.delivered room ++ if f.1 = room then f.2 else [] := by
  rw [delivered, List.filter_append, List.flatMap_append]
  by_cases h : f.1 = room <;> simp [delivered, h]

/-- A flush hands over what is in the buffer of the room, if anything is. -/
theorem flushLocked_spec (s : SensoryMemoryAssembler) (roomId : String) :
    let c := s.cancelTimer roomId
    let t := s.flushLocked roomId
    (∀ room, t.fragments room = if room = roomId then [] else c.fragments room) ∧
    (∀ room, t.delivered room = c.delivered room ++
      if roomId = room then c.fragments roomId else []) ∧
    (∀ f ∈ t.flushed, f ∈ c.flushed ∨ f.2 = c.fragments roomId ∧ f.2 ≠ []) ∧
    (∀ room, t.received room = c.received room) ∧ (∀ room, t.Timed room ↔ c.Timed room) ∧
    t.maxFragments = c.maxFragments ∧ t.timeoutMs = c.timeoutMs := by
  intro c t
  have ht : t = if (c.fragments roomId).isEmpty then
      ({ c with store := (c.store.takeFragments roomId).2 } : SensoryMemoryAssembler)
      else { c with store := (c.store.takeFragments roomId).2,
                    flushed := c.flushed ++ [(roomId, c.fragments roomId)] } := rfl
  rw [ht]
  by_cases hempty : c.fragments roomId = []
  · rw [if_pos (List.isEmpty_iff.mpr hempty)]
    refine ⟨c.store.fragments_takeFragments roomId, fun room => ?_, fun f hf => .inl hf,
      fun _ => rfl, fun _ => Iff.rfl, rfl, rfl⟩
    rw [hempty, ite_self, List.append_nil]
    rfl
  · rw [if_neg fun he => hempty (List.isEmpty_iff.mp he)]
    refine ⟨c.store.fragments_takeFragments roomId, fun room => ?_, fun f hf => ?_,
      fun _ => rfl, fun _ => Iff.rfl, rfl, rfl⟩
    · exact delivered_append (roomId, c.fragments roomId) room
    · rcases List.mem_append.mp hf with hf | hf
      · exact .inl hf
      · rw [List.mem_singleton.mp hf]
        exact .inr ⟨rfl, hempty⟩

theorem ConservedBut.flushLocked {roomId : String} (h : s.ConservedBut roomId)
    (hpos : 1 ≤ s.maxFragments) : (s.flushLocked roomId).Conserved := by
  have hbut := h.cancelTimer
  have hmax : 1 ≤ (s.cancelTimer roomId).maxFragments := by
    rwa [(s.cancelTimer_frame roomId).2.2.2.2.1]
  obtain ⟨hfragments, hdelivered, hflushed, hreceived, htimed, hlimit, htimeout⟩ :=
    s.flushLocked_spec roomId
  refine ⟨fun room => ?_, fun f hf => ?_, fun room => ?_, fun ht room hfull => ?_⟩
  · rw [hdelivered, hfragments, hreceived, ← hbut.blocks room]
    by_cases hroom : room = roomId
    · subst hroom
      simp
    · rw [if_neg (Ne.symm hroom), if_neg hroom, List.append_nil]
  · rw [hlimit]
    rcases hflushed f hf with hf | ⟨hblocks, hsome⟩
    · exact hbut.flushed f hf
    · exact ⟨hsome, hblocks ▸ hbut.full⟩
  · rw [hfragments, hlimit]
    by_cases hroom : room = roomId
    · rw [if_pos hroom]
      exact hmax
    · rw [if_neg hroom]
      exact hbut.short room hroom
  · rw [hfragments] at hfull
    have hroom : room ≠ roomId := fun he => hfull (if_pos he)
    rw [if_neg hroom] at hfull
    exact (htimed room).mpr (hbut.timed (htimeout ▸ ht) room hroom hfull)

/-- A timer that is started anew covers the room again. -/
theorem ConservedBut.resetTimer {roomId : String} (h : s.ConservedBut roomId)
    (hshort : (s.fragments roomId).length < s.maxFragments) : (s.resetTimer roomId).Conserved := by
  have hbut := h.cancelTimer
  obtain ⟨hstore, -, -, -, hmax, -⟩ := s.cancelTimer_frame roomId
  have hroomShort : ((s.cancelTimer roomId).fragments roomId).length <
      (s.cancelTimer roomId).maxFragments := by rwa [fragments, hstore, hmax]
  rw [SensoryMemoryAssembler.resetTimer]
  generalize s.cancelTimer roomId = t at hbut hroomShort
  have hall : ∀ room, (t.fragments room).length < t.maxFragments := by
    intro room
    by_cases hroom : room = roomId
    · rw [hroom]
      exact hroomShort
    · exact hbut.short room hroom
  change (if t.timeoutMs ≤ 0 then t else _).Conserved
  by_cases ht : t.timeoutMs ≤ 0
  · rw [if_pos ht]
    exact ⟨hbut.blocks, hbut.flushed, hall, fun hpos => absurd hpos (Int.not_lt.mpr ht)⟩
  · rw [if_neg ht]
    refine ⟨hbut.blocks, hbut.flushed, hall, fun hpos room hfull => ?_⟩
    by_cases hroom : room = roomId
    · subst hroom
      exact ⟨t.nextTimer, Dict.get?_set_self _ _ _,
        .inl (List.mem_append_right _ List.mem_cons_self)⟩
    · obtain ⟨timer, hget, hmem⟩ := hbut.timed hpos room hroom hfull
      refine ⟨timer, ?_, hmem.imp_left (List.mem_append_left _)⟩
      rw [Dict.get?_set, if_neg (Ne.symm hroom), hget]

/-! ## Steps -/

/-- The assembler once a block has been put in the buffer. -/
def withFragment (s : SensoryMemoryAssembler) (block : ContentBlock) (roomId : String) :
    SensoryMemoryAssembler :=
  { s with store := s.store.addFragment block roomId, added := s.added ++ [(roomId, block)] }

theorem fragments_withFragment (block : ContentBlock) (roomId room : String) :
    (s.withFragment block roomId).fragments room =
      s.fragments room ++ if room = roomId then [block] else [] :=
  s.store.fragments_addFragment block roomId room

theorem received_withFragment (block : ContentBlock) (roomId room : String) :
    (s.withFragment block roomId).received room =
      s.received room ++ if room = roomId then [block] else [] := by
  rw [received, withFragment, List.filter_append, List.map_append]
  by_cases h : room = roomId
  · subst h
    simp [received]
  · simp [received, h, Ne.symm h]

theorem Conserved.withFragment (h : s.Conserved) (block : ContentBlock) (roomId : String) :
    (s.withFragment block roomId).ConservedBut roomId := by
  have hother : ∀ room ≠ roomId,
      (s.withFragment block roomId).fragments room = s.fragments room := by
    intro room hne
    rw [fragments_withFragment, if_neg hne, List.append_nil]
  refine ⟨fun room => ?_, h.flushed, ?_, fun room hne => ?_, fun ht room hne hfull => ?_⟩
  · rw [fragments_withFragment, received_withFragment, ← h.blocks room, ← List.append_assoc]
    rfl
  · have hshort := h.short roomId
    rw [fragments_withFragment, if_pos rfl, List.length_append, List.length_singleton]
    exact hshort
  · rw [hother room hne]
    exact h.short room
  · rw [hother room hne] at hfull
    exact h.timed ht room hfull

theorem Conserved.addFragmentBlock (h : s.Conserved) (hpos : 1 ≤ s.maxFragments)
    (block : ContentBlock) (isFinal : Bool) (roomId : String)
    (readiness : Option (List String → Bool)) :
    (s.addFragmentBlock block isFinal roomId readiness).Conserved := by
  have hbut := h.withFragment block roomId
  change (if s.maxFragments ≤ ((s.withFragment block roomId).fragments roomId).length
    then (s.withFragment block roomId).flushLocked roomId
    else if isFinal then (s.withFragment block roomId).flushLocked roomId
    else if readiness.any _ then (s.withFragment block roomId).flushLocked roomId
    else (s.withFragment block roomId).resetTimer roomId).Conserved
  split
  · exact hbut.flushLocked hpos
  · next hroom =>
    split
    · exact hbut.flushLocked hpos
    · split
      · exact hbut.flushLocked hpos
      · exact hbut.resetTimer (Nat.not_le.mp hroom)

theorem Conserved.expire (h : s.Conserved) (timer : Nat × String) :
    ({ s with running := s.running.filter (· ≠ timer), due := s.due ++ [timer] } :
      SensoryMemoryAssembler).Conserved := by
  refine ⟨h.blocks, h.flushed, h.short, fun ht room hfull => ?_⟩
  obtain ⟨t, hget, hmem⟩ := h.timed ht room hfull
  refine ⟨t, hget, ?_⟩
  by_cases hsame : (t, room) = timer
  · exact .inr (List.mem_append_right _ (hsame ▸ List.mem_cons_self))
  · exact hmem.imp (fun hrun => List.mem_filter.mpr ⟨hrun, by simpa using hsame⟩)
      (List.mem_append_left _)

/-- A callback that runs late flushes the room of its timer, and touches no other. -/
theorem Conserved.callback (h : s.Conserved) (timer : Nat × String) :
    ({ s with due := s.due.filter (· ≠ timer) } : SensoryMemoryAssembler).ConservedBut
      timer.2 := by
  refine ⟨h.blocks, h.flushed, (h.short _).le, fun room _ => h.short room,
    fun ht room hne hfull => ?_⟩
  obtain ⟨t, hget, hmem⟩ := h.timed ht room hfull
  refine ⟨t, hget, hmem.imp_right fun hdue => List.mem_filter.mpr ⟨hdue, ?_⟩⟩
  have hother : (t, room) ≠ timer := fun he => hne (congrArg Prod.snd he)
  simpa using hother

theorem Conserved.step (h : s.Conserved) (hpos : 1 ≤ s.maxFragments) (i : Step) :
    (s.step i).Conserved := by
  cases i with
  | addFragmentBlock block isFinal roomId readiness =>
    exact h.addFragmentBlock hpos block isFinal roomId readiness
  | expire timer =>
    rw [SensoryMemoryAssembler.step]
    split
    · exact h.expire timer
    · exact h
  | onTimeout timer =>
    rw [SensoryMemoryAssembler.step]
    split
    · exact (h.callback timer).flushLocked hpos
    · exact h
  | flush roomId => exact (h.but roomId).flushLocked hpos

/-! ## Runs -/

/-- What a step adds to which room. -/
def Step.block? : Step → Option (String × ContentBlock)
  | .addFragmentBlock block _ roomId _ => some (roomId, block)
  | _ => none

/-- What the assembler was given: its settings and the blocks. -/
def given (s : SensoryMemoryAssembler) : Int × Nat × List (String × ContentBlock) :=
  (s.timeoutMs, s.maxFragments, s.added)

theorem given_cancelTimer (roomId : String) : (s.cancelTimer roomId).given = s.given := by
  obtain ⟨-, hadded, -, -, hmax, htimeout⟩ := s.cancelTimer_frame roomId
  rw [given, hadded, hmax, htimeout, given]

theorem given_flushLocked (roomId : String) : (s.flushLocked roomId).given = s.given := by
  refine Eq.trans ?_ (given_cancelTimer roomId)
  rw [flushLocked]
  split
  next => split <;> rfl

theorem given_resetTimer (roomId : String) : (s.resetTimer roomId).given = s.given := by
  refine Eq.trans ?_ (given_cancelTimer roomId)
  rw [resetTimer]
  split <;> rfl

theorem given_addFragmentBlock (block : ContentBlock) (isFinal : Bool) (roomId : String)
    (readiness : Option (List String → Bool)) :
    (s.addFragmentBlock block isFinal roomId readiness).given =
      (s.withFragment block roomId).given := by
  change (if s.maxFragments ≤ ((s.withFragment block roomId).fragments roomId).length
    then (s.withFragment block roomId).flushLocked roomId
    else if isFinal then (s.withFragment block roomId).flushLocked roomId
    else if readiness.any _ then (s.withFragment block roomId).flushLocked roomId
    else (s.withFragment block roomId).resetTimer roomId).given = _
  split
  · exact given_flushLocked roomId
  · split
    · exact given_flushLocked roomId
    · split
      · exact given_flushLocked roomId
      · exact given_resetTimer roomId

theorem given_step (i : Step) :
    (s.step i).given = (s.timeoutMs, s.maxFragments, s.added ++ i.block?.toList) := by
  have hsame : s.given = (s.timeoutMs, s.maxFragments, s.added ++ []) := by
    rw [List.append_nil, given]
  cases i with
  | addFragmentBlock block isFinal roomId readiness =>
    exact given_addFragmentBlock block isFinal roomId readiness
  | expire timer =>
    rw [SensoryMemoryAssembler.step]
    split <;> exact hsame
  | onTimeout timer =>
    rw [SensoryMemoryAssembler.step]
    split
    · exact (given_flushLocked timer.2).trans hsame
    · exact hsame
  | flush roomId => exact (given_flushLocked roomId).trans hsame

theorem given_run (is : List Step) : (Machine.run step s is).given =
    (s.timeoutMs, s.maxFragments, s.added ++ is.filterMap Step.block?) := by
  induction is generalizing s with
  | nil => rw [List.filterMap_nil, List.append_nil, Machine.run_nil, given]
  | cons i is ih =>
    have hstep := s.given_step i
    rw [given, Prod.mk.injEq, Prod.mk.injEq] at hstep
    rw [Machine.run_cons, ih, hstep.1, hstep.2.1, hstep.2.2, List.append_assoc]
    cases hi : i.block? <;> simp [hi]

/-- The assembler at its start. -/
def start (timeoutMs : Int) (maxFragments : Nat) : SensoryMemoryAssembler :=
  { timeoutMs, maxFragments }

theorem start_conserved (timeoutMs : Int) {maxFragments : Nat} (hpos : 1 ≤ maxFragments) :
    (start timeoutMs maxFragments).Conserved := by
  have hnone : ∀ room, (start timeoutMs maxFragments).fragments room = [] := fun _ => rfl
  refine ⟨fun room => rfl, by simp [start], fun room => ?_, fun _ room hfull => ?_⟩
  · rw [hnone]
    exact hpos
  · exact absurd (hnone room) hfull

/-- Whatever is added, expires and is flushed: the blocks of every room come out in the order
they went in, in lists of the right length, and none is left without a timer. -/
theorem fragments_conserved (timeoutMs : Int) {maxFragments : Nat} (hpos : 1 ≤ maxFragments)
    (is : List Step) :
    let s := Machine.run step (start timeoutMs maxFragments) is
    s.Conserved ∧ s.given = (timeoutMs, maxFragments, is.filterMap Step.block?) := by
  have hinv := Machine.run_inv (fun s : SensoryMemoryAssembler => s.Conserved ∧ 1 ≤ s.maxFragments)
    (fun s i h => ⟨h.1.step h.2 i, ?_⟩) ⟨start_conserved timeoutMs hpos, hpos⟩ is
  · exact ⟨hinv.1, given_run is⟩
  · have hmax : (s.step i).maxFragments = s.maxFragments := congrArg (·.2.1) (s.given_step i)
    exact hmax.symm ▸ h.2

theorem fragments_conserved_late_callback :
    (Machine.run step (start 800 3) [.addFragmentBlock (textBlock "a") false "r" none,
      .expire (0, "r"), .addFragmentBlock (textBlock "b") false "r" none,
      .onTimeout (0, "r")]).Conserved :=
  (fragments_conserved 800 (by simp) _).1

end SensoryMemoryAssembler

end IrisMind.Memory
