import Mathlib.Data.Finset.Insert
import IrisMind.Inhibition.Gate
import IrisMind.Lib.Machine
import IrisMind.Planning.Plan

/-! # The striatum: suppressions and plan evaluation

Suppressions are filed under a key made of a room and a reason. Each entry
carries a profile that says which plan reasons it blocks, the room it is limited
to, and an expiry, where zero stands for no expiry. `evaluate` decides on a plan
from the entries and from the execution gate of the plan's room. -/
namespace IrisMind.Inhibition
open IrisMind.Lib IrisMind.Planning

structure SuppressionProfile where
  blockedReasons : Finset String
  priority : Nat := 1
deriving DecidableEq

def proactiveOnly : Finset String :=
  {PlanReason.proactiveCuriosity.value, PlanReason.proactiveEscalation.value,
    PlanReason.timerEvent.value}

def allReasons : Finset String := (PlanReason.all.map PlanReason.value).toFinset

def builtinSuppressionProfiles : Dict String SuppressionProfile :=
  .ofList [("speaking", ⟨proactiveOnly, 1⟩), ("voice_recording", ⟨proactiveOnly, 2⟩),
    ("emotional_fatigue", ⟨proactiveOnly, 1⟩), ("user_away", ⟨proactiveOnly, 1⟩),
    ("hyperdirect", ⟨allReasons, 100⟩)]

structure SuppressionEntry (T : Type) where
  reason : String
  profile : SuppressionProfile
  roomId : Option String
  expiry : T

variable {T : Type} [Clock T]

namespace SuppressionEntry

def isActive (e : SuppressionEntry T) (now : T) : Bool := e.expiry = 0 || now < e.expiry

/-- An entry without a room applies in every room. -/
def covers (e : SuppressionEntry T) (roomId : Option String) : Bool :=
  e.roomId = none || e.roomId = roomId

def blocks (e : SuppressionEntry T) (planReason : String) : Bool :=
  planReason ∈ e.profile.blockedReasons

end SuppressionEntry

structure Striatum (T : Type) where
  profiles : Dict String SuppressionProfile
  suppressions : Dict String (SuppressionEntry T)

namespace Striatum

/-- `_Striatum.__init__`: no profiles, or an empty table of them, means the built-in ones. -/
def fresh (profiles : Option (Dict String SuppressionProfile)) : Striatum T where
  profiles := match profiles with
    | some d => if d.entries.isEmpty then builtinSuppressionProfiles else d
    | none => builtinSuppressionProfiles
  suppressions := .empty

def makeKey (roomId : Option String) (reason : String) : String :=
  (match roomId with
    | some r => if r = "" then "_global_" else r
    | none => "_global_") ++ ":" ++ reason

def hasActiveSuppression (s : Striatum T) (now : T) : Bool :=
  s.suppressions.values.any (·.isActive now)

def suppress (s : Striatum T) (now : T) (reason : String) (duration : T) (roomId : Option String)
    (profile : Option SuppressionProfile) : Striatum T :=
  let profile := match profile with
    | some p => p
    | none => s.profiles.getD reason ⟨∅, 1⟩
  let expiry := if 0 < duration then now + duration else 0
  let entry := { reason, profile, roomId, expiry }
  { s with suppressions := s.suppressions.set (makeKey roomId reason) entry }

def unsuppress (s : Striatum T) (reason : String) (roomId : Option String) : Striatum T :=
  { s with suppressions := s.suppressions.erase (makeKey roomId reason) }

def shouldSuppress (s : Striatum T) (now : T) (planReason : String) (roomId : Option String) :
    Bool :=
  s.suppressions.values.any fun e => e.isActive now && e.covers roomId && e.blocks planReason

/-- The entry filed under the global hyperdirect key, when it blocks the plan. The
branch looks at the key alone, not at the room of the entry. -/
def hyperdirectBlocks (s : Striatum T) (now : T) (plan : Plan) : Bool :=
  match s.suppressions.get? (makeKey none "hyperdirect") with
  | none => false
  | some e => e.isActive now && e.blocks plan.reason.value

/-- The first entry that the loop over all suppressions stops at. -/
def profileBlock? (s : Striatum T) (now : T) (plan : Plan) : Option (SuppressionEntry T) :=
  s.suppressions.values.find? fun e =>
    e.reason ≠ "hyperdirect" && e.isActive now && e.covers (some plan.roomId) &&
      e.blocks plan.reason.value

/-- `_Striatum.evaluate`. The gate reads the clock on its own, at `gateNow`, and
remembers every room it was asked about. -/
def evaluate (s : Striatum T) (gate : Gate T) (now gateNow : T) (plan : Plan) :
    GateDecision × Gate T :=
  if s.hyperdirectBlocks now plan then
    (⟨false, .hyperdirect, some "hyperdirect inhibition active"⟩, gate)
  else
    let (executing, gate) := gate.isRoomExecuting plan.roomId
    if executing then
      if plan.reason = .userInput then
        (⟨true, .direct, some "user input queued despite execution in progress"⟩, gate)
      else (⟨false, .indirect, some "execution in progress"⟩, gate)
    else
      let (cooling, gate) := gate.isRoomOnCooldown plan.roomId gateNow
      if cooling then
        if plan.reason = .userInput then
          (⟨true, .direct, some "user input queued despite cooldown"⟩, gate)
        else (⟨false, .indirect, some "cooldown remaining"⟩, gate)
      else match s.profileBlock? now plan with
        | some e => (⟨false, .indirect, some ("suppressed: " ++ e.reason)⟩, gate)
        | none => (⟨true, .direct, some "gate open"⟩, gate)

end Striatum

/-! ## Calls that change the suppressions -/

inductive SuppressionCall (T : Type) where
  | suppress (now : T) (reason : String) (duration : T) (roomId : Option String)
      (profile : Option SuppressionProfile)
  | unsuppress (reason : String) (roomId : Option String)

def Striatum.apply (s : Striatum T) : SuppressionCall T → Striatum T
  | .suppress now reason duration roomId profile => s.suppress now reason duration roomId profile
  | .unsuppress reason roomId => s.unsuppress reason roomId

structure InhibitionRequestEvent (T : Type) where
  action : String
  reason : String
  duration : T
  roomId : String
  sessionId : String := ""

/-- `_InhibitionEventHandler._on_request_event`: the call a request turns into; an unknown
action is only logged. -/
def onRequestEvent (now : T) (event : InhibitionRequestEvent T) : Option (SuppressionCall T) :=
  let roomId := if event.roomId = "" then none else some event.roomId
  if event.action ∈ ["suppress", "true", "1"] then
    some (.suppress now event.reason event.duration roomId none)
  else if event.action ∈ ["unsuppress", "false", "0"] then
    some (.unsuppress event.reason roomId)
  else if event.action = "hyperdirect" then
    some (.suppress now "hyperdirect" event.duration roomId none)
  else none

end IrisMind.Inhibition
