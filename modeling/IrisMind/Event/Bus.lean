import IrisMind.Lib.Dict
import IrisMind.Lib.Text
import Mathlib.Algebra.GroupWithZero.Nat
import Mathlib.Algebra.BigOperators.Group.List.Basic

/-! # The event bus

`publish` shows an event to the tracer, takes the handlers that are subscribed
at that moment and calls them one after the other. What a handler raises is
counted and logged. The name of a handler is read for the count of a call that
returned, and again for the log; a partial or a callable object has none. -/
namespace IrisMind.Event
open IrisMind.Lib

/-- What a `DebugSnapshotEvent` adds. -/
structure Snapshot where
  category : String := ""
  data : Option Json := none
  trigger : String := ""

structure BusEvent (T : Type) where
  typeName : String
  timestamp : Option T := none
  source : String
  traceId : String := ""
  snapshot : Option Snapshot := none

/-! ## The tracer -/

structure TraceEntry where
  timestamp : String
  source : String
  traceId : String
  type : String
  snapshot : Option Snapshot
  raw : Json

structure EventTracer where
  buffer : List TraceEntry := []
  maxEntries : Nat := 500
  enabled : Bool := true
  publishCount : Nat := 0
  categoryIndex : Dict String (List Nat) := .empty

/-- `model_dump` raises on what cannot be written as JSON. -/
structure Encoding (T : Type) where
  isoformat : T → String
  modelDump : BusEvent T → Option Json

namespace EventTracer

variable {T : Type}

/-- Every index moves down with the buffer, and a category without one is dropped. -/
def shiftIndex (index : Dict String (List Nat)) : Dict String (List Nat) :=
  let index := index.mapValues fun indices => (indices.filter (0 < ·)).map (· - 1)
  index.eraseAll ((index.entries.filter (·.2.isEmpty)).map Prod.fst)

def noteCategory (tracer : EventTracer) : Option Snapshot → EventTracer
  | none => tracer
  | some s =>
    let indices := tracer.categoryIndex.getD s.category []
    { tracer with
      categoryIndex := tracer.categoryIndex.set s.category (indices ++ [tracer.buffer.length]) }

def append (tracer : EventTracer) (entry : TraceEntry) : EventTracer :=
  let tracer := { tracer with buffer := tracer.buffer ++ [entry] }
  if tracer.buffer.length > tracer.maxEntries then
    { tracer with buffer := tracer.buffer.drop 1
                  categoryIndex := shiftIndex tracer.categoryIndex }
  else tracer

/-- Whether `on_event` returned. What was done before `model_dump` raised stays done. -/
def onEvent (tracer : EventTracer) (encoding : Encoding T) (now : T) (event : BusEvent T) :
    Bool × EventTracer :=
  if !tracer.enabled then (true, tracer)
  else
    let tracer := { tracer with publishCount := tracer.publishCount + 1 }
    let tracer := tracer.noteCategory event.snapshot
    match encoding.modelDump event with
    | none => (false, tracer)
    | some raw => (true, tracer.append
        { timestamp := encoding.isoformat (event.timestamp.getD now), source := event.source,
          traceId := event.traceId, type := event.typeName, snapshot := event.snapshot, raw })

/-- The tracer raises only when it is on and the event cannot be written. -/
theorem onEvent_fst (tracer : EventTracer) (encoding : Encoding T) (now : T)
    (event : BusEvent T) : (tracer.onEvent encoding now event).1 = true ↔
      (tracer.enabled = true → (encoding.modelDump event).isSome = true) := by
  unfold onEvent
  cases tracer.enabled with
  | false => simp
  | true => cases encoding.modelDump event <;> simp

end EventTracer

/-! ## The bus -/

/-- A callable. Functions, methods and lambdas have a `__qualname__`. -/
structure Handler where
  id : Nat
  qualname : Option String
deriving DecidableEq

structure EventBusMetrics where
  published : Nat := 0
  handled : Nat := 0
  errors : Nat := 0
  handlerTimes : Dict String ℚ := .empty

structure EventBus where
  subscribers : Dict String (List Handler) := .empty
  tracer : Option EventTracer := none
  metrics : EventBusMetrics := {}

/-- How a call ends: `raised` is an `Exception`, `exited` any other `BaseException`. -/
inductive Ending where
  | returned | raised | exited
deriving DecidableEq

inductive Change where
  | subscribe (eventType : String) (handler : Handler)
  | unsubscribe (eventType : String) (handler : Handler)

/-- What a call does, with what the events it publishes itself add to the counts. -/
structure Reaction where
  changes : List Change := []
  handled : Nat := 0
  errors : Nat := 0
  elapsed : ℚ := 0
  ending : Ending := .returned

/-- What leaves `publish`. -/
inductive Failure where
  | tracer | handler | attribute | exit
deriving DecidableEq

namespace EventBus

variable {T : Type}

def subscribe (bus : EventBus) (eventType : String) (handler : Handler) : EventBus :=
  { bus with subscribers :=
      bus.subscribers.set eventType (bus.subscribers.getD eventType [] ++ [handler]) }

def unsubscribe (bus : EventBus) (eventType : String) (handler : Handler) : EventBus :=
  { bus with subscribers :=
      bus.subscribers.set eventType ((bus.subscribers.getD eventType []).erase handler) }

def change (bus : EventBus) : Change → EventBus
  | .subscribe eventType handler => bus.subscribe eventType handler
  | .unsubscribe eventType handler => bus.unsubscribe eventType handler

/-- `handler(event)` -/
def call (bus : EventBus) (r : Reaction) : EventBus :=
  let bus := r.changes.foldl change bus
  { bus with metrics := { bus.metrics with handled := bus.metrics.handled + r.handled
                                           errors := bus.metrics.errors + r.errors } }

def countHandled (bus : EventBus) (name : String) (elapsed : ℚ) : EventBus :=
  { bus with metrics :=
      { bus.metrics with handlerTimes := bus.metrics.handlerTimes.set name elapsed
                         handled := bus.metrics.handled + 1 } }

def countError (bus : EventBus) : EventBus :=
  { bus with metrics := { bus.metrics with errors := bus.metrics.errors + 1 } }

/-- What a handler does may depend on the calls before it. -/
abbrev Reactions := List Handler → Handler → Reaction

/-- The loop of `publish`, with the calls made so far. -/
def deliver (react : Reactions) (strict : Bool) : List Handler → EventBus → List Handler →
    Option Failure × EventBus × List Handler
  | [], bus, calls => (none, bus, calls)
  | h :: rest, bus, calls =>
    let r := react calls h
    let bus := bus.call r
    let calls := calls ++ [h]
    match r.ending, h.qualname with
    | .exited, _ => (some .exit, bus, calls)
    | .returned, some name => deliver react strict rest (bus.countHandled name r.elapsed) calls
    | _, name? =>
      -- raised by the handler, or by `handler.__qualname__` after it returned
      let bus := bus.countError
      if strict then (some .handler, bus, calls)
      else match name? with
        | none => (some .attribute, bus, calls)
        | some _ => deliver react strict rest bus calls

/-- `timestamp` and `trace_id` are filled in. -/
def stamp (now : T) (newTraceId : String) (event : BusEvent T) : BusEvent T :=
  { event with timestamp := some (event.timestamp.getD now)
               traceId := if event.traceId = "" then newTraceId else event.traceId }

/-- Whether the tracer lets the event pass. -/
def trace (bus : EventBus) (encoding : Encoding T) (now : T) (event : BusEvent T) :
    Bool × EventBus :=
  match bus.tracer with
  | none => (true, bus)
  | some tracer =>
    let (passed, tracer) := tracer.onEvent encoding now event
    (passed, { bus with tracer := some tracer })

def handlers (bus : EventBus) (eventType : String) : List Handler :=
  bus.subscribers.getD eventType []

/-- With the handlers that were called, in order. -/
def publish (bus : EventBus) (encoding : Encoding T) (react : Reactions) (now : T)
    (newTraceId : String) (event : BusEvent T) (strict : Bool) :
    Option Failure × EventBus × List Handler :=
  let event := stamp now newTraceId event
  let traced := bus.trace encoding now event
  if !traced.1 then (some .tracer, traced.2, [])
  else
    let bus := traced.2
    let bus := { bus with metrics := { bus.metrics with published := bus.metrics.published + 1 } }
    deliver react strict (bus.handlers event.typeName) bus []

/-! ## What a publish amounts to -/

/-- What the handlers do when each is called in turn. -/
def reactions (react : Reactions) : List Handler → List Handler → List (Handler × Reaction)
  | _, [] => []
  | calls, h :: rest => (h, react calls h) :: reactions react (calls ++ [h]) rest

/-- A call after which the loop goes on: the handler has a name, and raised an `Exception` at
worst. -/
def Survivable (p : Handler × Reaction) : Prop :=
  p.1.qualname.isSome = true ∧ p.2.ending ≠ .exited

variable {react : Reactions}

theorem deliver_eq_none (hs : List Handler) (bus : EventBus) (calls : List Handler) :
    (deliver react false hs bus calls).1 = none ↔ ∀ p ∈ reactions react calls hs, Survivable p := by
  induction hs generalizing bus calls with
  | nil => simp [deliver, reactions]
  | cons h rest ih =>
    rw [reactions, List.forall_mem_cons, deliver]
    cases hr : (react calls h).ending <;> cases hq : h.qualname <;>
      simp [Survivable, hr, hq, ih]

theorem metrics_change (bus : EventBus) (c : Change) : (bus.change c).metrics = bus.metrics := by
  cases c <;> rfl

theorem metrics_changes (cs : List Change) (bus : EventBus) :
    (cs.foldl change bus).metrics = bus.metrics := by
  induction cs generalizing bus with
  | nil => rfl
  | cons c cs ih => rw [List.foldl_cons, ih, metrics_change]

@[simp] theorem handled_call (bus : EventBus) (r : Reaction) :
    (bus.call r).metrics.handled = bus.metrics.handled + r.handled := by
  rw [call, metrics_changes]

@[simp] theorem errors_call (bus : EventBus) (r : Reaction) :
    (bus.call r).metrics.errors = bus.metrics.errors + r.errors := by
  rw [call, metrics_changes]

/-- How many of the calls ended so. -/
def ended (rs : List (Handler × Reaction)) (e : Ending) : Nat := rs.countP (·.2.ending = e)

theorem ended_cons (p : Handler × Reaction) (rs : List (Handler × Reaction)) (e : Ending) :
    ended (p :: rs) e = ended rs e + if p.2.ending = e then 1 else 0 := by
  rw [ended, List.countP_cons]
  simp only [decide_eq_true_eq, ended]

theorem deliver_returned {x : Handler} {rest calls : List Handler} {bus : EventBus} {name : String}
    (hname : x.qualname = some name) (hr : (react calls x).ending = .returned) :
    deliver react false (x :: rest) bus calls =
      deliver react false rest
        ((bus.call (react calls x)).countHandled name (react calls x).elapsed) (calls ++ [x]) := by
  rw [deliver, hname, hr]

theorem deliver_raised {x : Handler} {rest calls : List Handler} {bus : EventBus} {name : String}
    (hname : x.qualname = some name) (hr : (react calls x).ending = .raised) :
    deliver react false (x :: rest) bus calls =
      deliver react false rest (bus.call (react calls x)).countError (calls ++ [x]) := by
  rw [deliver, hname, hr]
  rfl

theorem deliver_counts {hs : List Handler} (bus : EventBus) {calls : List Handler}
    (h : ∀ p ∈ reactions react calls hs, Survivable p) :
    let out := deliver react false hs bus calls
    let rs := reactions react calls hs
    out.2.2 = calls ++ hs ∧
    out.2.1.metrics.handled =
      bus.metrics.handled + ended rs .returned + (rs.map (·.2.handled)).sum ∧
    out.2.1.metrics.errors =
      bus.metrics.errors + ended rs .raised + (rs.map (·.2.errors)).sum := by
  induction hs generalizing bus calls with
  | nil => simp [deliver, reactions, ended]
  | cons x rest ih =>
    rw [reactions, List.forall_mem_cons] at h
    obtain ⟨⟨hname, hstay⟩, hrest⟩ := h
    obtain ⟨name, hname⟩ := Option.isSome_iff_exists.mp hname
    intro out rs
    have hrs : rs = (x, react calls x) :: reactions react (calls ++ [x]) rest := rfl
    cases hr : (react calls x).ending with
    | returned =>
      have hout : out = _ := deliver_returned hname hr
      obtain ⟨hcalls, hhandled, herrors⟩ :=
        ih ((bus.call (react calls x)).countHandled name (react calls x).elapsed) hrest
      rw [hout, hrs]
      refine ⟨by rw [hcalls, List.append_assoc, List.singleton_append], ?_, ?_⟩
      · rw [hhandled, ended_cons, if_pos hr, List.map_cons, List.sum_cons]
        simp only [countHandled, handled_call]
        omega
      · rw [herrors, ended_cons, if_neg (by simp [hr]), List.map_cons, List.sum_cons]
        simp only [countHandled, errors_call]
        omega
    | raised =>
      have hout : out = _ := deliver_raised hname hr
      obtain ⟨hcalls, hhandled, herrors⟩ := ih (bus.call (react calls x)).countError hrest
      rw [hout, hrs]
      refine ⟨by rw [hcalls, List.append_assoc, List.singleton_append], ?_, ?_⟩
      · rw [hhandled, ended_cons, if_neg (by simp [hr]), List.map_cons, List.sum_cons]
        simp only [countError, handled_call]
        omega
      · rw [herrors, ended_cons, if_pos hr, List.map_cons, List.sum_cons]
        simp only [countError, errors_call]
        omega
    | exited => exact absurd hr hstay

/-- A publish that is not strict calls every handler of that moment once and in order, returns,
and counts how the calls ended. -/
def Isolated (bus : EventBus) (encoding : Encoding T) (react : Reactions) (now : T)
    (newTraceId : String) (event : BusEvent T) : Prop :=
  let out := bus.publish encoding react now newTraceId event false
  let rs := reactions react [] (bus.handlers event.typeName)
  out.1 = none ∧ out.2.2 = bus.handlers event.typeName ∧
  out.2.1.metrics.handled =
    bus.metrics.handled + ended rs .returned + (rs.map (·.2.handled)).sum ∧
  out.2.1.metrics.errors = bus.metrics.errors + ended rs .raised + (rs.map (·.2.errors)).sum

/-- A tracer that is on can write the event. -/
def Traceable (bus : EventBus) (encoding : Encoding T) (event : BusEvent T) : Prop :=
  ∀ tracer, bus.tracer = some tracer → tracer.enabled = true →
    (encoding.modelDump event).isSome = true

theorem trace_spec (bus : EventBus) (encoding : Encoding T) (now : T) (event : BusEvent T) :
    ((bus.trace encoding now event).1 = true ↔ bus.Traceable encoding event) ∧
      (bus.trace encoding now event).2.subscribers = bus.subscribers ∧
      (bus.trace encoding now event).2.metrics = bus.metrics := by
  cases ht : bus.tracer with
  | none => simp [trace, Traceable, ht]
  | some tracer =>
    have hfst := tracer.onEvent_fst encoding now event
    simpa [trace, Traceable, ht] using hfst

theorem publish_traced (react : Reactions) {bus : EventBus} {encoding : Encoding T} {now : T}
    {newTraceId : String} {event : BusEvent T}
    (h : bus.Traceable encoding (stamp now newTraceId event)) :
    ∃ traced : EventBus, traced.metrics.handled = bus.metrics.handled ∧
      traced.metrics.errors = bus.metrics.errors ∧
      bus.publish encoding react now newTraceId event false =
        deliver react false (bus.handlers event.typeName) traced [] := by
  obtain ⟨hpass, hsub, hmetrics⟩ := bus.trace_spec encoding now (stamp now newTraceId event)
  refine ⟨{ (bus.trace encoding now (stamp now newTraceId event)).2 with
    metrics := { bus.metrics with published := bus.metrics.published + 1 } }, rfl, rfl, ?_⟩
  have hgo : ¬ (!(bus.trace encoding now (stamp now newTraceId event)).1) = true := by
    simp [hpass.mpr h]
  rw [publish, if_neg hgo, handlers, ← hsub, ← hmetrics]
  rfl

theorem publish_untraced {bus : EventBus} {encoding : Encoding T} {now : T} {newTraceId : String}
    {event : BusEvent T} (h : ¬ bus.Traceable encoding (stamp now newTraceId event)) :
    (bus.publish encoding react now newTraceId event false).1 = some .tracer := by
  have hpass := (bus.trace_spec encoding now (stamp now newTraceId event)).1
  have hstop : (!(bus.trace encoding now (stamp now newTraceId event)).1) = true := by
    rw [Bool.not_eq_true', ← Bool.not_eq_true, hpass]
    exact h
  rw [publish, if_pos hstop]

theorem publish_isolated_iff (bus : EventBus) (encoding : Encoding T) (react : Reactions)
    (now : T) (newTraceId : String) (event : BusEvent T) :
    bus.Isolated encoding react now newTraceId event ↔
      bus.Traceable encoding (stamp now newTraceId event) ∧
      ∀ p ∈ reactions react [] (bus.handlers event.typeName), Survivable p := by
  by_cases htrace : bus.Traceable encoding (stamp now newTraceId event)
  · obtain ⟨traced, hhandled, herrors, he⟩ := publish_traced react htrace
    rw [and_iff_right htrace, Isolated, he]
    refine ⟨fun h => (deliver_eq_none _ traced []).mp h.1, fun h => ?_⟩
    obtain ⟨hcalls, hcount, hcountErrors⟩ := deliver_counts traced h
    rw [hhandled] at hcount
    rw [herrors] at hcountErrors
    exact ⟨(deliver_eq_none _ traced []).mpr h, hcalls, hcount, hcountErrors⟩
  · refine iff_of_false (fun h => ?_) fun h => htrace h.1
    have hfail := h.1
    rw [publish_untraced htrace] at hfail
    exact nomatch hfail

/-- A partial keeps the handler after it from being called, and so does an event that the tracer
cannot write. -/
theorem handler_without_name_stops_delivery :
    ¬ ({ subscribers := .ofList [("MessageEvent", [⟨0, none⟩, ⟨1, some "on_message"⟩])] } :
        EventBus).Isolated (T := Nat) ⟨fun _ => "", fun _ => some .null⟩ (fun _ _ => {}) 0 "t"
      { typeName := "MessageEvent", source := "io" } ∧
    ¬ ({ subscribers := .ofList [("MessageEvent", [⟨1, some "on_message"⟩])], tracer := some {} } :
        EventBus).Isolated (T := Nat) ⟨fun _ => "", fun _ => none⟩ (fun _ _ => {}) 0 "t"
      { typeName := "MessageEvent", source := "io" } := by
  constructor
  · intro h
    exact absurd h.2.1 (by decide)
  · intro h
    exact absurd h.2.1 (by decide)

end EventBus

end IrisMind.Event
