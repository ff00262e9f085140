import IrisMind.Event.Bus
import IrisMind.Lib.Machine
import Mathlib.Data.List.DropRight

/-! # The index of the tracer

The tracer keeps the last events, and for every category the positions of its
snapshots among them. All positions move down by one when the oldest event goes.
A search by category reads the index; it is compared with a scan of the events. -/
namespace IrisMind.Event
open IrisMind.Lib

/-- `results[-n:]` -/
def lastOf {α : Type} (n : Int) (results : List α) : List α :=
  if 0 < n then results.rtake n.toNat else results.drop (-n).toNat

/-- An argument that is neither `None` nor empty. -/
def given (text : Option String) : Option String := text.filter (· ≠ "")

namespace EventTracer

def ofType (typeFilter : Option String) (results : List TraceEntry) : List TraceEntry :=
  match given typeFilter with
  | some type => results.filter (·.type = type)
  | none => results

def find (tracer : EventTracer) (category typeFilter : Option String) (n : Int) :
    List TraceEntry :=
  let results := match given category with
    | some c => (tracer.categoryIndex.getD c []).filterMap (tracer.buffer[·]?)
    | none => tracer.buffer
  lastOf n (ofType typeFilter results)

/-- The entry is a debug snapshot of the category. -/
def isOf (category : String) (entry : TraceEntry) : Bool :=
  entry.snapshot.any (·.category = category)

section Positions

variable {α : Type} {p : α → Bool}

end Positions

section Calls

variable {T : Type} (encoding : Encoding T)

/-- What is kept of an event. -/
def traced? (now : T) (event : BusEvent T) : Option TraceEntry :=
  (encoding.modelDump event).map fun raw =>
    { timestamp := encoding.isoformat (event.timestamp.getD now), source := event.source,
      traceId := event.traceId, type := event.typeName, snapshot := event.snapshot, raw }

def step (tracer : EventTracer) (call : T × BusEvent T) : EventTracer :=
  (tracer.onEvent encoding call.1 call.2).2

/-- The entries of the events of some calls. -/
def traced (calls : List (T × BusEvent T)) : List TraceEntry :=
  calls.filterMap fun call => traced? encoding call.1 call.2

variable {encoding}

theorem rtake_append_rtake {α : Type} (n : Nat) (l l' : List α) :
    (l.rtake n ++ l').rtake n = (l ++ l').rtake n := by
  simp only [List.rtake, ← List.drop_append_of_le_length (Nat.sub_le l.length n), List.drop_drop,
    List.length_drop, List.length_append]
  congr 1
  omega

end Calls

end EventTracer

end IrisMind.Event
