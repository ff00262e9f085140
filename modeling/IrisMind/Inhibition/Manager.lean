import IrisMind.Inhibition.Striatum

/-! # The inhibition manager

The facade of the inhibition layer: the gate for executions, the striatum for
suppressions. `fmt` renders a remaining cooldown in the text of a refusal. -/
namespace IrisMind.Inhibition
open IrisMind.Lib

structure InhibitionManager (T : Type) where
  config : InhibitionConfig T
  gate : Gate T
  striatum : Striatum T

variable {T : Type} [Clock T]

namespace InhibitionManager

def fresh (config : InhibitionConfig T) : InhibitionManager T :=
  ⟨config, .fresh, .fresh none⟩

def acquireExecution (fmt : T → String) (m : InhibitionManager T) (roomId : String) (now : T) :
    GateDecision × InhibitionManager T :=
  let (decision, gate) := m.gate.acquire fmt roomId now
  (decision, { m with gate })

def releaseExecution (m : InhibitionManager T) (roomId : String) (now : T) :
    InhibitionManager T :=
  { m with gate := m.gate.release m.config roomId now }

def forceReleaseExecution (m : InhibitionManager T) (roomId : String) : InhibitionManager T :=
  { m with gate := m.gate.forceRelease roomId }

def suppress (m : InhibitionManager T) (now : T) (reason : String) (duration : T)
    (roomId : Option String) (profile : Option SuppressionProfile) : InhibitionManager T :=
  { m with striatum := m.striatum.suppress now reason duration roomId profile }

/-- A room asks its own gate; without a room, every gate is asked. The session getter is a
parameter: `none` where the manager was built without one, else its answer. -/
def shouldSuppressProactive (m : InhibitionManager T) (sessionGetter : Option Bool)
    (gateNow : String → T) (now : T) (roomId : String) : Bool × InhibitionManager T :=
  let (executing, cooling, gate) :=
    if roomId ≠ "" then
      let (executing, gate) := m.gate.isRoomExecuting roomId
      let (cooling, gate) := gate.isRoomOnCooldown roomId (gateNow roomId)
      (executing, cooling, gate)
    else (m.gate.isExecuting, m.gate.isOnCooldown gateNow, m.gate)
  (m.config.inhibitProactiveDuringExecution && executing
      || m.config.inhibitProactiveDuringCooldown && cooling
      || m.striatum.hasActiveSuppression now
      || sessionGetter = some false,
    { m with gate })

end InhibitionManager

end IrisMind.Inhibition
