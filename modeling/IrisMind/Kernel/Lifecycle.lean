import IrisMind.Lib.Machine
import Mathlib.Logic.Function.Basic
import Mathlib.Data.List.Nodup
import Mathlib.Data.List.Infix

/-! # The lifecycle of plugins

The plugins are initialized and started one after the other. When a start
raises, those that were started before it are stopped in reverse order; a stop
that raises there leaves its plugin as it is. `stop_all` goes over all of them
in reverse, and marks a plugin before it calls its stop. Only an `Exception` is
caught: anything else that a call raises leaves the loop at once. -/
namespace IrisMind.Kernel
open IrisMind.Lib

inductive PluginState where
  | unloaded | initialized | started | ready | stopping | stopped | error
deriving DecidableEq

/-- The calls of plugins. -/
inductive PluginCall where
  | init (name : String)
  | start (name : String)
  | stop (name : String)
deriving DecidableEq

/-- What a call raises: an `Exception`, or any other `BaseException`. -/
inductive Raised where
  | exception | exit
deriving DecidableEq

/-- The lifecycle, with the calls it made and what each raised. -/
structure PluginLifecycle where
  order : List String
  states : String → PluginState := fun _ => .unloaded
  log : List (PluginCall × Option Raised) := []

/-- What a call raises, if anything, may depend on all the calls before it. -/
abbrev Plugins := List (PluginCall × Option Raised) → PluginCall → Option Raised

namespace PluginLifecycle

variable (plugins : Plugins)

def set (s : PluginLifecycle) (name : String) (state : PluginState) : PluginLifecycle :=
  { s with states := Function.update s.states name state }

def call (s : PluginLifecycle) (c : PluginCall) : PluginLifecycle :=
  { s with log := s.log ++ [(c, plugins s.log c)] }

/-- The loop of `init_all`, with the call that it raises from. -/
def initLoop : List String → PluginLifecycle → Option (PluginCall × Raised) × PluginLifecycle
  | [], s => (none, s)
  | name :: rest, s =>
    let s' := s.call plugins (.init name)
    match plugins s.log (.init name) with
    | none => initLoop rest (s'.set name .initialized)
    | some .exception => (some (.init name, .exception), s'.set name .error)
    | some .exit => (some (.init name, .exit), s')

/-- One stop. `left` is the state in which a plugin is left whose stop raises. -/
def stopOne (left : PluginState) (s : PluginLifecycle) (name : String) : PluginLifecycle :=
  let s' := (s.set name left).call plugins (.stop name)
  if plugins s.log (.stop name) = none then s'.set name .stopped else s'

/-- Both loops that stop plugins: those in the states `stops`. The loop goes on after an
`Exception`; it tells which stop has ended it. -/
def stopLoop (stops : List PluginState) (left : PluginState) :
    List String → PluginLifecycle → Option String × PluginLifecycle
  | [], s => (none, s)
  | name :: rest, s =>
    if s.states name ∈ stops then
      if plugins s.log (.stop name) = some .exit then (some name, s.stopOne plugins left name)
      else stopLoop stops left rest (s.stopOne plugins left name)
    else stopLoop stops left rest s

/-- The state is set after the stop only, so that a stop that raises leaves it as it was. -/
def stopStartedBefore (s : PluginLifecycle) (failedName : String) :
    Option String × PluginLifecycle :=
  stopLoop plugins [.started] .started (s.order.take (s.order.idxOf failedName)).reverse s

/-- The loop of `start_all`, with the call that it raises from: a start, or a stop that ends the
clean-up. -/
def startLoop : List String → PluginLifecycle → Option (PluginCall × Raised) × PluginLifecycle
  | [], s => (none, s)
  | name :: rest, s =>
    if s.states name = .error then startLoop rest s
    else
      let s' := s.call plugins (.start name)
      match plugins s.log (.start name) with
      | none => startLoop rest (s'.set name .started)
      | some .exception =>
        match (s'.set name .error).stopStartedBefore plugins name with
        | (none, s) => (some (.start name, .exception), s)
        | (some stopped, s) => (some (.stop stopped, .exit), s)
      | some .exit => (some (.start name, .exit), s')

def markReady (s : PluginLifecycle) (name : String) : PluginLifecycle :=
  if s.states name = .started then s.set name .ready else s

def markAllReady (s : PluginLifecycle) : PluginLifecycle := s.order.foldl markReady s

/-- The states in which `stop_all` stops a plugin. -/
def active : List PluginState := [.started, .ready, .initialized]

/-- The state is `STOPPING` during the stop. -/
def stopAll (s : PluginLifecycle) : Option String × PluginLifecycle :=
  stopLoop plugins active .stopping s.order.reverse s

inductive Phase where
  | initAll | startAll | markAllReady | stopAll
deriving DecidableEq

def step (s : PluginLifecycle) : Phase → PluginLifecycle
  | .initAll => (initLoop plugins s.order s).2
  | .startAll => (startLoop plugins s.order s).2
  | .markAllReady => s.markAllReady
  | .stopAll => (s.stopAll plugins).2

def run (order : List String) (phases : List Phase) : PluginLifecycle :=
  Machine.run (step plugins) { order } phases

/-! ## What was called -/

/-- The plugins whose start returned, in order. -/
def started (s : PluginLifecycle) : List String :=
  s.log.filterMap fun
    | (.start name, none) => some name
    | _ => none

/-- The plugins whose stop was called, in order. -/
def stopped (s : PluginLifecycle) : List String :=
  s.log.filterMap fun
    | (.stop name, _) => some name
    | _ => none

/-- The plugins whose stop raised. -/
def stuck (s : PluginLifecycle) : List String :=
  s.log.filterMap fun
    | (.stop name, some _) => some name
    | _ => none

/-- Each plugin is stopped once at most, those that were started in reverse order, and each of
these is stopped. -/
structure StoppedOnce (s : PluginLifecycle) : Prop where
  once : s.stopped.Nodup
  inReverse : (s.stopped.filter (· ∈ s.started)).Sublist s.started.reverse
  each : ∀ name ∈ s.started, name ∈ s.stopped

/-- The log once these stops have been called, one after the other. -/
def callStops (log : List (PluginCall × Option Raised)) (names : List String) :
    List (PluginCall × Option Raised) :=
  names.foldl (fun log name => log ++ [(.stop name, plugins log (.stop name))]) log

/-- How many of these stops, called one after the other, end the loop that calls them. -/
def exits : List (PluginCall × Option Raised) → List String → Nat
  | _, [] => 0
  | log, name :: rest =>
    let raised := plugins log (.stop name)
    (if raised = some .exit then 1 else 0) + exits (log ++ [(.stop name, raised)]) rest

/-- The plugins that are to be stopped, in the order of the stops. -/
def toStop (s : PluginLifecycle) : List String := s.order.reverse.filter (s.states · ∈ active)

/-- Of the stops that come before the stop of this plugin, more than `k` end a `stop_all`. The next
one goes on behind such a stop, so that `k + 1` of them do not come to the plugin. -/
def CutBefore (s : PluginLifecycle) (k : Nat) (name : String) : Prop :=
  k < exits plugins s.log (s.toStop.takeWhile (· ≠ name))

section Frames

variable (s : PluginLifecycle) (name : String)

@[simp] theorem started_set (state : PluginState) : (s.set name state).started = s.started := rfl

@[simp] theorem stopped_set (state : PluginState) : (s.set name state).stopped = s.stopped := rfl

@[simp] theorem stuck_set (state : PluginState) : (s.set name state).stuck = s.stuck := rfl

@[simp] theorem order_set (state : PluginState) : (s.set name state).order = s.order := rfl

@[simp] theorem states_set_self (state : PluginState) :
    (s.set name state).states name = state := by simp [set]

theorem states_set_of_ne {n : String} (h : n ≠ name) (state : PluginState) :
    (s.set name state).states n = s.states n := by simp [set, Function.update_of_ne h]

@[simp] theorem order_call (c : PluginCall) : (s.call plugins c).order = s.order := rfl

@[simp] theorem states_call (c : PluginCall) : (s.call plugins c).states = s.states := rfl

@[simp] theorem started_call_init : (s.call plugins (.init name)).started = s.started := by
  simp [started, call]

@[simp] theorem stopped_call_init : (s.call plugins (.init name)).stopped = s.stopped := by
  simp [stopped, call]

@[simp] theorem stuck_call_init : (s.call plugins (.init name)).stuck = s.stuck := by
  simp [stuck, call]

theorem started_call_start : (s.call plugins (.start name)).started =
    s.started ++ if plugins s.log (.start name) = none then [name] else [] := by
  cases h : plugins s.log (.start name) <;> simp [started, call, h]

@[simp] theorem stopped_call_start : (s.call plugins (.start name)).stopped = s.stopped := by
  simp [stopped, call]

@[simp] theorem stuck_call_start : (s.call plugins (.start name)).stuck = s.stuck := by
  simp [stuck, call]

@[simp] theorem started_call_stop : (s.call plugins (.stop name)).started = s.started := by
  simp [started, call]

@[simp] theorem stopped_call_stop :
    (s.call plugins (.stop name)).stopped = s.stopped ++ [name] := by
  simp [stopped, call]

theorem stuck_call_stop : (s.call plugins (.stop name)).stuck =
    s.stuck ++ if plugins s.log (.stop name) = none then [] else [name] := by
  cases h : plugins s.log (.stop name) <;> simp [stuck, call, h]

end Frames

variable {plugins}

/-! ## What a loop does -/

theorem stopOne_spec (left : PluginState) (s : PluginLifecycle) (name : String) :
    (s.stopOne plugins left name).order = s.order ∧
    (s.stopOne plugins left name).started = s.started ∧
    (s.stopOne plugins left name).stopped = s.stopped ++ [name] ∧
    (plugins s.log (.stop name) = none ∧ (s.stopOne plugins left name).stuck = s.stuck ∧
        (s.stopOne plugins left name).states = Function.update s.states name .stopped ∨
      plugins s.log (.stop name) ≠ none ∧
        (s.stopOne plugins left name).stuck = s.stuck ++ [name] ∧
        (s.stopOne plugins left name).states = Function.update s.states name left) := by
  have hlog : (s.set name left).log = s.log := rfl
  unfold stopOne
  by_cases hok : plugins s.log (.stop name) = none
  · rw [if_pos hok]
    refine ⟨rfl, by simp, by simp, .inl ⟨hok, ?_, Function.update_idem _ _ _⟩⟩
    rw [stuck_set, stuck_call_stop, hlog, if_pos hok, List.append_nil, stuck_set]
  · rw [if_neg hok]
    refine ⟨rfl, by simp, by simp, .inr ⟨hok, ?_, rfl⟩⟩
    rw [stuck_call_stop, hlog, if_neg hok, stuck_set]

theorem stopOne_log (left : PluginState) (s : PluginLifecycle) (name : String) :
    (s.stopOne plugins left name).log = s.log ++ [(.stop name, plugins s.log (.stop name))] := by
  unfold stopOne
  dsimp only
  split <;> rfl

theorem exits_append (log : List (PluginCall × Option Raised)) (names rest : List String) :
    exits plugins log (names ++ rest) =
      exits plugins log names + exits plugins (callStops plugins log names) rest := by
  induction names generalizing log with
  | nil => exact (Nat.zero_add _).symm
  | cons name names ih =>
    rw [List.cons_append, exits, exits, ih, Nat.add_assoc]
    rfl

/-- What a loop has done that stops the plugins of the list which are in one of the states, in
order: it has called the stops of all of them, or those up to one that ended it. Those whose stop
raised are left behind. -/
structure StoppedThrough (plugins : Plugins) (stops : List PluginState) (left : PluginState)
    (ns : List String) (s t : PluginLifecycle) (called rest : List String) : Prop where
  order : t.order = s.order
  log : t.log = callStops plugins s.log called
  started : t.started = s.started
  split : ns.filter (s.states · ∈ stops) = called ++ rest
  stopped : t.stopped = s.stopped ++ called
  ending : rest = [] ∧ exits plugins s.log called = 0 ∨ ∃ before n, called = before ++ [n] ∧
    exits plugins s.log before = 0 ∧ exits plugins s.log called = 1
  stuck : ∃ raised, t.stuck = s.stuck ++ raised ∧ (∀ n ∈ raised, n ∈ called) ∧
    ∀ n ∈ called, t.states n = if n ∈ raised then left else .stopped
  others : ∀ n, n ∉ called → t.states n = s.states n

section

variable {stops : List PluginState} {left : PluginState} {s : PluginLifecycle} {name : String}

theorem stopOne_states_of_ne {n : String} (hne : n ≠ name) :
    (s.stopOne plugins left name).states n = s.states n := by
  obtain ⟨-, -, -, hone⟩ := @stopOne_spec plugins left s name
  rcases hone with ⟨-, -, hupd⟩ | ⟨-, -, hupd⟩ <;> rw [hupd, Function.update_of_ne hne]

theorem filter_stopOne {ns : List String} (hname : name ∉ ns) (hstop : s.states name ∈ stops) :
    (name :: ns).filter (s.states · ∈ stops) =
      name :: ns.filter ((s.stopOne plugins left name).states · ∈ stops) := by
  rw [List.filter_cons_of_pos (by simpa using hstop)]
  refine congrArg _ (List.filter_congr fun n hn => ?_)
  have hne : n ≠ name := fun he => hname (he ▸ hn)
  rw [stopOne_states_of_ne hne]

/-- A stop that does not end the loop, and what the loop does after it. -/
theorem StoppedThrough.cons {ns called rest : List String} {t : PluginLifecycle}
    (hname : name ∉ ns) (hstop : s.states name ∈ stops)
    (hgoes : plugins s.log (.stop name) ≠ some .exit)
    (h : StoppedThrough plugins stops left ns (s.stopOne plugins left name) t called rest) :
    StoppedThrough plugins stops left (name :: ns) s t (name :: called) rest := by
  obtain ⟨ho, hs, hst, hone⟩ := @stopOne_spec plugins left s name
  have hlog := @stopOne_log plugins left s name
  have hnot : name ∉ called := fun hm =>
    hname (List.mem_of_mem_filter (h.split ▸ List.mem_append_left rest hm))
  have hexits : ∀ names, exits plugins s.log (name :: names) =
      exits plugins (s.stopOne plugins left name).log names := by
    intro names
    rw [exits, hlog, if_neg hgoes, Nat.zero_add]
  obtain ⟨raised, hraised, hin, hstates⟩ := h.stuck
  refine ⟨h.order.trans ho, ?_, h.started.trans hs, ?_, ?_, ?_, ?_, fun n hm => ?_⟩
  · rw [h.log, hlog]
    rfl
  · rw [filter_stopOne hname hstop, h.split, List.cons_append]
  · rw [h.stopped, hst, List.append_assoc, List.singleton_append]
  · rcases h.ending with ⟨hrest, hnone⟩ | ⟨before, n, hcalled, hnone, hone⟩
    · exact .inl ⟨hrest, (hexits called).trans hnone⟩
    · refine .inr ⟨name :: before, n, ?_, (hexits before).trans hnone, (hexits called).trans hone⟩
      rw [hcalled, List.cons_append]
  · rcases hone with ⟨-, hstuck, hupd⟩ | ⟨-, hstuck, hupd⟩
    · refine ⟨raised, by rw [hraised, hstuck], fun n hm => ?_, fun n hm => ?_⟩
      · exact List.mem_cons_of_mem name (hin n hm)
      · rcases List.mem_cons.mp hm with rfl | hm
        · rw [h.others n hnot, hupd, Function.update_self, if_neg fun hm => hnot (hin n hm)]
        · exact hstates n hm
    · refine ⟨name :: raised, ?_, fun n hm => ?_, fun n hm => ?_⟩
      · rw [hraised, hstuck, List.append_assoc, List.singleton_append]
      · rcases List.mem_cons.mp hm with rfl | hm
        · exact List.mem_cons_self
        · exact List.mem_cons_of_mem name (hin n hm)
      · rcases List.mem_cons.mp hm with rfl | hm
        · rw [h.others n hnot, hupd, Function.update_self, if_pos List.mem_cons_self]
        · have hne : n ≠ name := fun he => hnot (he ▸ hm)
          simp only [hstates n hm, List.mem_cons, hne, false_or]
  · rw [List.mem_cons, not_or] at hm
    rw [h.others n hm.2, stopOne_states_of_ne hm.1]

end

theorem stopLoop_spec (stops : List PluginState) (left : PluginState) {ns : List String}
    (hn : ns.Nodup) (s : PluginLifecycle) : ∃ called rest,
      StoppedThrough plugins stops left ns s (stopLoop plugins stops left ns s).2 called rest := by
  induction ns generalizing s with
  | nil =>
    exact ⟨[], [], rfl, rfl, rfl, rfl, by simp [stopLoop], .inl ⟨rfl, rfl⟩,
      ⟨[], by simp [stopLoop]⟩, fun _ _ => rfl⟩
  | cons name ns ih =>
    obtain ⟨hname, hns⟩ := List.nodup_cons.mp hn
    rw [stopLoop]
    by_cases hstop : s.states name ∈ stops
    · rw [if_pos hstop]
      by_cases hexit : plugins s.log (.stop name) = some .exit
      · rw [if_pos hexit]
        obtain ⟨ho, hs, hst, ⟨hnone, -, -⟩ | ⟨-, hstuck, hupd⟩⟩ := @stopOne_spec plugins left s name
        · rw [hnone] at hexit
          exact nomatch hexit
        · have hsplit := @filter_stopOne plugins stops left s name ns hname hstop
          have hone : exits plugins s.log [name] = 1 := by rw [exits, if_pos hexit, exits]
          refine ⟨[name], _, ho, stopOne_log left s name, hs, hsplit, hst,
            .inr ⟨[], name, rfl, rfl, hone⟩,
            ⟨[name], hstuck, fun _ hm => hm, fun n hm => ?_⟩, fun n hm => ?_⟩
          · rw [if_pos hm, hupd, List.mem_singleton.mp hm, Function.update_self]
          · exact stopOne_states_of_ne fun he => hm (List.mem_singleton.mpr he)
      · rw [if_neg hexit]
        obtain ⟨called, rest, h⟩ := ih hns (s.stopOne plugins left name)
        exact ⟨name :: called, rest, h.cons hname hstop hexit⟩
    · rw [if_neg hstop]
      obtain ⟨called, rest, h⟩ := ih hns s
      refine ⟨called, rest, h.order, h.log, h.started, ?_, h.stopped, h.ending, h.stuck, h.others⟩
      rw [List.filter_cons_of_neg (by simpa using hstop), h.split]

/-- No plugin was started or stopped so far. -/
structure Fresh (s : PluginLifecycle) : Prop where
  started : s.started = []
  stopped : s.stopped = []
  stuck : s.stuck = []
  states : ∀ n, s.states n ≠ .started

theorem Fresh.initLoop {s : PluginLifecycle} (h : s.Fresh) (ns : List String) :
    (initLoop plugins ns s).2.Fresh ∧
      (PluginLifecycle.initLoop plugins ns s).2.order = s.order := by
  induction ns generalizing s with
  | nil => exact ⟨h, rfl⟩
  | cons name rest ih =>
    have hcall : (s.call plugins (.init name)).Fresh :=
      ⟨by simp [h.started], by simp [h.stopped], by simp [h.stuck], h.states⟩
    have hset : ∀ state : PluginState, state ≠ .started →
        ((s.call plugins (.init name)).set name state).Fresh := by
      intro state hne
      refine ⟨hcall.started, hcall.stopped, hcall.stuck, fun n => ?_⟩
      by_cases hn : n = name
      · rwa [hn, states_set_self]
      · rw [states_set_of_ne _ _ hn]
        exact h.states n
    rw [PluginLifecycle.initLoop]
    split
    · exact ih (hset .initialized (by simp))
    · exact ⟨hset .error (by simp), rfl⟩
    · exact ⟨hcall, rfl⟩

/-- What the phases before `stop_all` leave: those that were stopped are the last that were started,
in reverse; and a plugin that was started still runs unless its stop returned. -/
structure Settled (s : PluginLifecycle) : Prop where
  inOrder : s.started.Sublist s.order
  stuck : ∀ n ∈ s.stuck, n ∈ s.stopped ∧ n ∈ s.started
  stopped : s.stopped <+: s.started.reverse
  running : ∀ n ∈ s.started, s.states n ∈ active ↔ n ∈ s.stuck ∨ n ∉ s.stopped

theorem Fresh.settled {s : PluginLifecycle} (h : s.Fresh) : s.Settled := by
  refine ⟨?_, ?_, ?_, ?_⟩
  · rw [h.started]
    exact List.nil_sublist _
  · simp [h.stuck]
  · rw [h.stopped]
    exact List.nil_prefix
  · simp [h.started]

/-- While the plugins are started one by one: `done` are those the loop has passed. -/
structure Starting (s : PluginLifecycle) (done rest : List String) : Prop where
  order : s.order = done ++ rest
  started : s.started = done.filter (s.states · ∈ [PluginState.started])
  rest : ∀ n ∈ rest, s.states n ≠ .started
  stopped : s.stopped = []
  stuck : s.stuck = []

theorem Starting.settled {s : PluginLifecycle} {done rest : List String}
    (h : s.Starting done rest) : s.Settled := by
  refine ⟨?_, by simp [h.stuck], by simp [h.stopped], fun n hn => ?_⟩
  · rw [h.started, h.order]
    exact List.filter_sublist.trans (List.sublist_append_left done rest)
  · rw [h.started] at hn
    have hstate := List.mem_singleton.mp (of_decide_eq_true (List.mem_filter.mp hn).2)
    simp [active, hstate, h.stopped]

theorem Starting.not_mem {s : PluginLifecycle} {name : String} {done rest : List String}
    (hn : s.order.Nodup) (h : s.Starting done (name :: rest)) :
    name ∉ done ∧ name ∉ rest ∧ done.Nodup := by
  rw [h.order] at hn
  obtain ⟨hdone, hrest, hdisjoint⟩ := List.nodup_append.mp hn
  exact ⟨fun hm => hdisjoint name hm name List.mem_cons_self rfl, (List.nodup_cons.mp hrest).1,
    hdone⟩

/-- What was started before a start that raises is stopped in reverse order, unless a stop ends the
clean-up. -/
theorem Starting.cleanup {s : PluginLifecycle} {name : String} {done rest : List String}
    (hn : s.order.Nodup) (h : s.Starting done (name :: rest)) :
    (s.stopStartedBefore plugins name).2.Settled ∧
      (s.stopStartedBefore plugins name).2.order = s.order := by
  obtain ⟨hnot, -, hdone⟩ := h.not_mem hn
  have htake : s.order.take (s.order.idxOf name) = done := by
    rw [h.order, List.idxOf_append_of_notMem hnot, List.idxOf_cons_self, Nat.add_zero,
      List.take_left]
  rw [stopStartedBefore, htake]
  obtain ⟨called, remaining, hloop⟩ :=
    @stopLoop_spec plugins [.started] .started done.reverse (List.nodup_reverse.mpr hdone) s
  obtain ⟨raised, hraised, hin, hstates⟩ := hloop.stuck
  have hsplit : s.started.reverse = called ++ remaining := by
    rw [← hloop.split, List.filter_reverse, ← h.started]
  have hstarted : ∀ n ∈ called, n ∈ s.started := fun n hm =>
    List.mem_reverse.mp (hsplit ▸ List.mem_append_left remaining hm)
  have hstopped := hloop.stopped
  rw [h.stopped, List.nil_append] at hstopped
  rw [h.stuck, List.nil_append] at hraised
  refine ⟨⟨?_, fun n hm => ?_, ?_, fun n hm => ?_⟩, hloop.order⟩
  · rw [hloop.started, hloop.order]
    exact h.settled.inOrder
  · rw [hraised] at hm
    rw [hstopped, hloop.started]
    exact ⟨hin n hm, hstarted n (hin n hm)⟩
  · rw [hstopped, hloop.started, hsplit]
    exact List.prefix_append called remaining
  · rw [hraised, hstopped]
    by_cases hc : n ∈ called
    · rw [hstates n hc]
      by_cases hr : n ∈ raised <;> simp [active, hc, hr]
    · rw [hloop.started] at hm
      have hrunning := h.settled.running n hm
      rw [h.stuck, h.stopped] at hrunning
      rw [hloop.others n hc]
      exact hrunning.trans (by simp [hc])

/-- A plugin that is dealt with, whatever its new state. -/
theorem Starting.filter_set {s : PluginLifecycle} {name : String} {done rest : List String}
    (hn : s.order.Nodup) (h : s.Starting done (name :: rest)) (state : PluginState) :
    done.filter ((s.set name state).states · ∈ [PluginState.started]) = s.started := by
  rw [h.started]
  refine List.filter_congr fun n hm => ?_
  rw [states_set_of_ne s name fun he => (h.not_mem hn).1 (he ▸ hm)]

theorem startLoop_settled {s : PluginLifecycle} {done rest : List String} (hn : s.order.Nodup)
    (h : s.Starting done rest) :
    (startLoop plugins rest s).2.Settled ∧ (startLoop plugins rest s).2.order = s.order := by
  induction rest generalizing s done with
  | nil => exact ⟨h.settled, rfl⟩
  | cons name rest ih =>
    have horder : s.order = done ++ [name] ++ rest := by rw [h.order]; simp
    have hrest : ∀ state, ∀ n ∈ rest, (s.set name state).states n ≠ .started := by
      intro state n hm
      rw [states_set_of_ne s name fun he => (h.not_mem hn).2.1 (he ▸ hm)]
      exact h.rest n (List.mem_cons_of_mem name hm)
    rw [startLoop]
    by_cases herror : s.states name = .error
    · rw [if_pos herror]
      refine ih hn ⟨horder, ?_, fun n hm => h.rest n (List.mem_cons_of_mem name hm), h.stopped,
        h.stuck⟩
      rw [List.filter_append, ← h.started]
      simp [herror]
    rw [if_neg herror]
    have hstarted := started_call_start plugins s name
    cases hok : plugins s.log (.start name) with
    | none =>
      rw [if_pos hok] at hstarted
      refine ih hn ⟨horder, ?_, hrest .started, by simp [h.stopped], by simp [h.stuck]⟩
      have hdone := h.filter_set hn .started
      rw [started_set, hstarted, List.filter_append]
      exact congrArg₂ _ hdone.symm (by simp)
    | some raised =>
      rw [if_neg (by simp [hok]), List.append_nil] at hstarted
      cases raised with
      | exception =>
        have hstarting : ((s.call plugins (.start name)).set name .error).Starting done
            (name :: rest) := by
          refine ⟨h.order, ?_, ?_, by simp [h.stopped], by simp [h.stuck]⟩
          · rw [started_set, hstarted]
            exact (h.filter_set hn .error).symm
          · intro n hm
            rcases List.mem_cons.mp hm with rfl | hm
            · rw [states_set_self]
              simp
            · exact hrest .error n hm
        have hclean := @Starting.cleanup plugins
          ((s.call plugins (.start name)).set name .error) name done rest hn hstarting
        dsimp only
        rcases hend : stopStartedBefore plugins _ name with ⟨_ | stopped, t⟩ <;>
          rw [hend] at hclean <;> exact hclean
      | exit =>
        have hstarting : (s.call plugins (.start name)).Starting done (name :: rest) :=
          ⟨h.order, hstarted.trans h.started, h.rest, by simp [h.stopped], by simp [h.stuck]⟩
        exact ⟨hstarting.settled, rfl⟩

/-- Marking a plugin as ready changes no call, and none that runs. -/
theorem Settled.markReady {s : PluginLifecycle} (h : s.Settled) (name : String) :
    (s.markReady name).Settled ∧ (s.markReady name).order = s.order := by
  rw [PluginLifecycle.markReady]
  split
  · next hstate =>
    refine ⟨⟨h.inOrder, h.stuck, h.stopped, fun n hn => ?_⟩, rfl⟩
    have hrunning := h.running n hn
    by_cases hne : n = name
    · subst hne
      simpa [active, hstate] using hrunning
    · rw [states_set_of_ne _ _ hne]
      exact hrunning
  · exact ⟨h, rfl⟩

theorem Settled.markAllReady {s : PluginLifecycle} (h : s.Settled) :
    s.markAllReady.Settled ∧ s.markAllReady.order = s.order :=
  Machine.run_inv (fun t : PluginLifecycle => t.Settled ∧ t.order = s.order)
    (fun _ name ht => ⟨(ht.1.markReady name).1, (ht.1.markReady name).2.trans ht.2⟩)
    ⟨h, rfl⟩ s.order

/-! ## Stopping all -/

section

variable {s : PluginLifecycle} (hn : s.order.Nodup)

include hn

/-- The plugins that are to be stopped once some were stopped are the others. -/
theorem StoppedThrough.toStop {t : PluginLifecycle} {called rest : List String}
    (h : StoppedThrough plugins active .stopping s.order.reverse s t called rest) :
    t.toStop = rest := by
  have hnodup : (called ++ rest).Nodup := h.split ▸ (List.nodup_reverse.mpr hn).filter _
  obtain ⟨raised, -, -, hstates⟩ := h.stuck
  have hcalled : ∀ n ∈ called, t.states n ∉ active := by
    intro n hm
    rw [hstates n hm]
    split <;> simp [active]
  have hsame : t.toStop = s.toStop.filter (· ∉ called) := by
    rw [PluginLifecycle.toStop, PluginLifecycle.toStop, h.order, List.filter_filter]
    refine List.filter_congr fun n _ => ?_
    by_cases hm : n ∈ called
    · simp [hm, hcalled n hm]
    · simp [hm, h.others n hm]
  rw [hsame, PluginLifecycle.toStop, h.split, List.filter_append,
    List.filter_eq_nil_iff.mpr (by simp), List.nil_append, List.filter_eq_self]
  intro n hm
  exact decide_eq_true fun hc => (List.nodup_append.mp hnodup).2.2 n hc n hm rfl

omit hn in
/-- What is before a stop that was called has ended nothing. -/
theorem StoppedThrough.exits_before {t : PluginLifecycle} {ns called rest : List String}
    {stops : List PluginState} {left : PluginState}
    (h : StoppedThrough plugins stops left ns s t called rest) {before after : List String}
    {n : String} (hcalled : called = before ++ n :: after) :
    exits plugins s.log before = 0 := by
  rcases h.ending with ⟨-, hnone⟩ | ⟨before', last, hcalled', hnone, -⟩
  · rw [hcalled, exits_append] at hnone
    exact (Nat.add_eq_zero_iff.mp hnone).1
  · have hprefix : before <+: before' := by
      have hboth : before <+: before' ++ [last] :=
        hcalled' ▸ hcalled ▸ List.prefix_append before (n :: after)
      rcases List.prefix_concat_iff.mp hboth with heq | hlt
      · have hlength := congrArg List.length (hcalled.symm.trans (hcalled'.trans heq.symm))
        simp at hlength
      · exact hlt
    obtain ⟨more, rfl⟩ := hprefix
    rw [exits_append] at hnone
    exact (Nat.add_eq_zero_iff.mp hnone).1

/-- Stopping all once more goes on where the last one was ended: before each stop that was called,
at most `k` have ended one, and where stops are left, more than `k` have. -/
theorem stopAlls_spec (k : Nat) : ∃ called rest, s.toStop = called ++ rest ∧
    (Machine.run (step plugins) s (List.replicate (k + 1) .stopAll)).started = s.started ∧
    (Machine.run (step plugins) s (List.replicate (k + 1) .stopAll)).stopped =
      s.stopped ++ called ∧
    (∀ before n after, called = before ++ n :: after → exits plugins s.log before ≤ k) ∧
    (rest ≠ [] → k < exits plugins s.log called) := by
  induction k generalizing s with
  | zero =>
    obtain ⟨called, rest, h⟩ :=
      @stopLoop_spec plugins active .stopping s.order.reverse (List.nodup_reverse.mpr hn) s
    refine ⟨called, rest, h.split, h.started, h.stopped, fun before n after hcalled => ?_,
      fun hrest => ?_⟩
    · rw [h.exits_before hcalled]
    · rcases h.ending with ⟨hnil, -⟩ | ⟨-, -, -, -, hone⟩
      · exact absurd hnil hrest
      · omega
  | succ k ih =>
    obtain ⟨first, behind, h⟩ :=
      @stopLoop_spec plugins active .stopping s.order.reverse (List.nodup_reverse.mpr hn) s
    have hbehind := h.toStop hn
    obtain ⟨called, rest, hsplit, hstarted, hstopped, hbefore, hleft⟩ := ih (h.order.symm ▸ hn)
    rw [h.log] at hbefore hleft
    have hfirst : exits plugins s.log first ≤ 1 := by
      rcases h.ending with ⟨-, hnone⟩ | ⟨-, -, -, -, hone⟩ <;> omega
    refine ⟨first ++ called, rest, ?_, hstarted.trans h.started, ?_, ?_, fun hrest => ?_⟩
    · rw [PluginLifecycle.toStop, h.split, List.append_assoc, ← hsplit, hbehind]
    · refine hstopped.trans ?_
      rw [← List.append_assoc]
      exact congrArg (· ++ called) h.stopped
    · intro before n after hcalled
      rcases List.append_eq_append_iff.mp hcalled with ⟨more, rfl, hmore⟩ | ⟨more, hmore, hrest⟩
      · have hk := hbefore more n after hmore
        rw [exits_append]
        omega
      · cases more with
        | nil =>
          rw [List.append_nil] at hmore
          rw [← hmore]
          omega
        | cons m more =>
          rw [h.exits_before hmore]
          exact Nat.zero_le _
    · have hk := hleft hrest
      rw [exits_append]
      rcases h.ending with ⟨hnil, -⟩ | ⟨-, -, -, -, hone⟩
      · rw [hbehind, hnil] at hsplit
        exact absurd (List.append_eq_nil_iff.mp hsplit.symm).2 hrest
      · omega

end

theorem filter_mem_of_sublist {l m : List String} (h : l.Sublist m) (hn : m.Nodup) :
    m.filter (· ∈ l) = l := by
  induction h with
  | slnil => rfl
  | cons a hsub ih =>
    obtain ⟨ha, hm⟩ := List.nodup_cons.mp hn
    rw [List.filter_cons_of_neg (by simpa using fun hl => ha (hsub.subset hl)), ih hm]
  | @cons_cons l m a hsub ih =>
    obtain ⟨ha, hm⟩ := List.nodup_cons.mp hn
    have hcongr : m.filter (· ∈ a :: l) = m.filter (· ∈ l) := by
      refine List.filter_congr fun n hmem => ?_
      have hne : n ≠ a := fun he => ha (he ▸ hmem)
      simp [hne]
    rw [List.filter_cons_of_pos (by simp), hcongr, ih hm]

theorem sublist_of_apart {first later l : List String} (h : l.Sublist (first ++ later))
    (hapart : ∀ n ∈ first, n ∉ l) : l.Sublist later := by
  have hfilter := h.filter (· ∉ first)
  have hself : l.filter (· ∉ first) = l := by
    rw [List.filter_eq_self]
    exact fun n hm => decide_eq_true fun hf => hapart n hf hm
  have hnone : first.filter (· ∉ first) = [] := by simp
  rw [hself, List.filter_append, hnone, List.nil_append] at hfilter
  exact hfilter.trans List.filter_sublist

/-- Of the plugins that are to be stopped, the stops of all but those that are cut off are
called. -/
theorem mem_called_iff {s : PluginLifecycle} (hn : s.order.Nodup) {k : Nat}
    {called rest : List String} (hsplit : s.toStop = called ++ rest)
    (hbefore : ∀ before n after, called = before ++ n :: after → exits plugins s.log before ≤ k)
    (hleft : rest ≠ [] → k < exits plugins s.log called) {n : String} (hm : n ∈ s.toStop) :
    n ∈ called ↔ ¬ s.CutBefore plugins k n := by
  have hnodup : (called ++ rest).Nodup := hsplit ▸ (List.nodup_reverse.mpr hn).filter _
  rw [CutBefore, hsplit, Nat.not_lt]
  by_cases hc : n ∈ called
  · refine iff_of_true hc ?_
    obtain ⟨before, after, rfl⟩ := List.append_of_mem hc
    rw [List.append_assoc] at hnodup ⊢
    have hnot : n ∉ before := fun hb =>
      (List.nodup_append.mp hnodup).2.2 n hb n List.mem_cons_self rfl
    have hothers : ∀ m ∈ before, decide (m ≠ n) = true := fun m hb =>
      decide_eq_true fun heq => hnot (heq ▸ hb)
    have htake : (before ++ (n :: after ++ rest)).takeWhile (· ≠ n) = before := by
      rw [List.takeWhile_append_of_pos hothers]
      simp
    rw [htake]
    exact hbefore before n after rfl
  · refine iff_of_false hc (Nat.not_le.mpr ?_)
    have hrest : rest ≠ [] := by
      rintro rfl
      rw [hsplit, List.append_nil] at hm
      exact hc hm
    have hothers : ∀ m ∈ called, decide (m ≠ n) = true := fun m hm =>
      decide_eq_true fun heq => hc (heq ▸ hm)
    rw [List.takeWhile_append_of_pos hothers, exits_append]
    exact Nat.lt_of_lt_of_le (hleft hrest) (Nat.le_add_right _ _)

/-- After `stop_all` every plugin was stopped once if and only if none of those left behind is
stopped again, and each that still was to be stopped is. -/
theorem Settled.stoppedOnce_iff {s : PluginLifecycle} (hn : s.order.Nodup) (h : s.Settled)
    (k : Nat) : (Machine.run (step plugins) s (List.replicate (k + 1) .stopAll)).StoppedOnce ↔
      (∀ n ∈ s.stuck, s.CutBefore plugins k n) ∧
        ∀ n ∈ s.started, n ∉ s.stopped → ¬ s.CutBefore plugins k n := by
  obtain ⟨called, rest, hsplit, hstarted, hstopped, hbefore, hleft⟩ :=
    @stopAlls_spec plugins s hn k
  have hactive : ∀ n ∈ s.started, s.states n ∈ active →
      (n ∈ called ↔ ¬ s.CutBefore plugins k n) :=
    fun n hm hrun => mem_called_iff hn hsplit hbefore hleft (List.mem_filter.mpr
      ⟨List.mem_reverse.mpr (h.inOrder.subset hm), decide_eq_true hrun⟩)
  have hcalled : called.Sublist s.order.reverse :=
    (hsplit ▸ List.sublist_append_left called rest).trans List.filter_sublist
  have hreverse : s.order.reverse.filter (· ∈ s.started) = s.started.reverse := by
    rw [List.filter_reverse, filter_mem_of_sublist h.inOrder hn]
  have hnodup : s.started.reverse.Nodup := List.nodup_reverse.mpr (hn.sublist h.inOrder)
  have hrun : ∀ n ∈ called, s.states n ∈ active := by
    intro n hm
    have hmem := List.mem_append_left rest hm
    rw [← hsplit] at hmem
    exact of_decide_eq_true (List.mem_filter.mp hmem).2
  constructor
  · rintro ⟨once, -, each⟩
    rw [hstopped] at once each
    refine ⟨fun n hm => ?_, fun n hm hnot => ?_⟩
    · obtain ⟨hst, hs⟩ := h.stuck n hm
      rw [← not_not (a := s.CutBefore plugins k n),
        ← hactive n hs ((h.running n hs).mpr (.inl hm))]
      exact fun hc => (List.nodup_append.mp once).2.2 n hst n hc rfl
    · rw [← hactive n hm ((h.running n hm).mpr (.inr hnot))]
      exact (List.mem_append.mp (each n (hstarted.symm ▸ hm))).resolve_left hnot
  · rintro ⟨hstuck, hstill⟩
    obtain ⟨later, hlater⟩ := h.stopped
    have hapart : ∀ n ∈ s.stopped, n ∉ called := by
      intro n hst hc
      have hs : n ∈ s.started := List.mem_reverse.mp (h.stopped.subset hst)
      have hmem := ((h.running n hs).mp (hrun n hc)).resolve_right (not_not_intro hst)
      exact (hactive n hs (hrun n hc)).mp hc (hstuck n hmem)
    refine ⟨?_, ?_, fun n hm => ?_⟩
    · rw [hstopped, List.nodup_append]
      refine ⟨hnodup.sublist h.stopped.sublist, (List.nodup_reverse.mpr hn).sublist hcalled, ?_⟩
      rintro n hst m hc rfl
      exact hapart n hst hc
    · -- those that are stopped now were started before those that are stopped already
      have hsame : s.stopped.filter (· ∈ s.started) = s.stopped := by
        rw [List.filter_eq_self]
        exact fun n hm => decide_eq_true (List.mem_reverse.mp (h.stopped.subset hm))
      have hsub : (called.filter (· ∈ s.started)).Sublist (s.stopped ++ later) := by
        rw [hlater, ← hreverse]
        exact hcalled.filter _
      have hmore := sublist_of_apart hsub fun n hst hm =>
        hapart n hst (List.mem_of_mem_filter hm)
      rw [hstarted, hstopped, List.filter_append, hsame, ← hlater]
      exact hmore.append_left s.stopped
    · rw [hstarted] at hm
      rw [hstopped, List.mem_append]
      by_cases hst : n ∈ s.stopped
      · exact .inl hst
      · exact .inr ((hactive n hm ((h.running n hm).mpr (.inr hst))).mpr (hstill n hm hst))

/-! ## Runs -/

theorem Settled.run_ready {s : PluginLifecycle} (h : s.Settled) {phases : List Phase}
    (hp : phases.Sublist [.markAllReady]) :
    (Machine.run (step plugins) s phases).Settled ∧
      (Machine.run (step plugins) s phases).order = s.order := by
  rcases List.sublist_cons_iff.mp hp with hskip | ⟨rest, rfl, hrest⟩
  · rw [List.sublist_nil.mp hskip]
    exact ⟨h, rfl⟩
  · rw [List.sublist_nil.mp hrest]
    exact h.markAllReady

theorem Fresh.run_start {s : PluginLifecycle} (hn : s.order.Nodup) (h : s.Fresh)
    {phases : List Phase} (hp : phases.Sublist [.startAll, .markAllReady]) :
    (Machine.run (step plugins) s phases).Settled ∧
      (Machine.run (step plugins) s phases).order = s.order := by
  rcases List.sublist_cons_iff.mp hp with hskip | ⟨rest, rfl, hrest⟩
  · exact h.settled.run_ready hskip
  · have hstarting : s.Starting [] s.order :=
      ⟨rfl, by simp [h.started], fun n _ => h.states n, h.stopped, h.stuck⟩
    obtain ⟨hsettled, ho⟩ := @startLoop_settled plugins s [] s.order hn hstarting
    obtain ⟨hrun, horder⟩ := @Settled.run_ready plugins _ hsettled rest hrest
    exact ⟨hrun, horder.trans ho⟩

/-- The phases before `stop_all`, in their order. One that raises may be the last of them. -/
theorem run_settled {order : List String} (hn : order.Nodup) {phases : List Phase}
    (hp : phases.Sublist [.initAll, .startAll, .markAllReady]) :
    (run plugins order phases).Settled ∧ (run plugins order phases).order = order := by
  have hfresh : ({ order } : PluginLifecycle).Fresh := ⟨rfl, rfl, rfl, by simp⟩
  rcases List.sublist_cons_iff.mp hp with hskip | ⟨rest, rfl, hrest⟩
  · exact hfresh.run_start hn hskip
  · obtain ⟨hnext, ho⟩ := @Fresh.initLoop plugins _ hfresh order
    obtain ⟨hrun, horder⟩ := @Fresh.run_start plugins _ (ho ▸ hn) hnext rest hrest
    exact ⟨hrun, horder.trans ho⟩

/-- Every plugin is stopped once, in reverse order and if it was started, exactly when the stops
that end a `stop_all` keep all of them from each plugin whose stop raised while a start was cleaned
up, and from none that was started and not stopped there. -/
theorem stopped_once_iff (plugins : Plugins) {order : List String} (hn : order.Nodup)
    {phases : List Phase} (hp : phases.Sublist [.initAll, .startAll, .markAllReady]) (k : Nat) :
    let s := run plugins order phases
    (run plugins order (phases ++ List.replicate (k + 1) .stopAll)).StoppedOnce ↔
      (∀ n ∈ s.stuck, s.CutBefore plugins k n) ∧
        ∀ n ∈ s.started, n ∉ s.stopped → ¬ s.CutBefore plugins k n := by
  obtain ⟨hsettled, ho⟩ := @run_settled plugins order hn phases hp
  have hrun : run plugins order (phases ++ List.replicate (k + 1) .stopAll) =
      Machine.run (step plugins) (run plugins order phases) (List.replicate (k + 1) .stopAll) :=
    Machine.run_append _ _ _
  intro s
  rw [hrun]
  exact hsettled.stoppedOnce_iff (ho.symm ▸ hn) k

/-- The stop of the second of three plugins is no `Exception` and ends the first stop of all. -/
theorem stopped_once_interrupted :
    let plugins : Plugins := fun _ c => if c = .stop "memory" then some .exit else none
    let s := run plugins ["config", "memory", "agency"] [.initAll, .startAll, .markAllReady]
    (run plugins ["config", "memory", "agency"]
      ([.initAll, .startAll, .markAllReady] ++ List.replicate (1 + 1) .stopAll)).StoppedOnce ↔
      (∀ n ∈ s.stuck, s.CutBefore plugins 1 n) ∧
        ∀ n ∈ s.started, n ∉ s.stopped → ¬ s.CutBefore plugins 1 n :=
  stopped_once_iff _ (by simp) (List.Sublist.refl _) 1

/-- The stop of the first plugin raises while the start of the second is cleaned up. -/
theorem stopped_twice :
    ¬ (run (fun _ c => if c = .start "memory" ∨ c = .stop "config" then some .exception else none)
      ["config", "memory"] [.initAll, .startAll, .stopAll]).StoppedOnce := by
  intro h
  exact absurd h.once (by decide)

end PluginLifecycle

end IrisMind.Kernel
