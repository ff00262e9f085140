import Mathlib.Algebra.Order.Ring.Int
import IrisMind.Lib.Dict

/-! # The execution gate

One gate for each room, and a global one for the empty room id. A gate grants
one execution at a time and stays shut for the cooldown after a release. Every
function that reads the monotonic clock takes the reading as an argument. -/
namespace IrisMind.Inhibition
open IrisMind.Lib

/-- The type of clock readings and durations. -/
class Clock (T : Type) extends LinearOrder T, Zero T, Add T, Sub T

instance : Clock Int where
  toLinearOrder := inferInstance

inductive Pathway where
  | direct
  | indirect
  | hyperdirect
deriving DecidableEq, Repr

structure GateDecision where
  allow : Bool
  pathway : Pathway
  reason : Option String := none
deriving DecidableEq, Repr

/-- The fields of `InhibitionConfig` the inhibition layer reads. -/
structure InhibitionConfig (T : Type) where
  postExecutionCooldownSec : T
  inhibitProactiveDuringExecution : Bool := true
  inhibitProactiveDuringCooldown : Bool := true

structure RoomGate (T : Type) where
  executing : Bool
  cooldownUntil : T
deriving DecidableEq, Repr

variable {T : Type} [Clock T]

namespace RoomGate

/-- `_RoomGate.__init__`. -/
def fresh : RoomGate T := ⟨false, 0⟩

def isOnCooldown (g : RoomGate T) (now : T) : Bool := decide (now < g.cooldownUntil)

def remainingCooldown (g : RoomGate T) (now : T) : T := max 0 (g.cooldownUntil - now)

/-- `_RoomGate.acquire`; `fmt` renders the remaining seconds. -/
def acquire (fmt : T → String) (g : RoomGate T) (now : T) : GateDecision × RoomGate T :=
  if g.executing then
    (⟨false, .indirect, some "execution already in progress"⟩, g)
  else if g.isOnCooldown now then
    (⟨false, .indirect, some ("cooldown " ++ fmt (g.remainingCooldown now) ++ "s remaining")⟩, g)
  else
    (⟨true, .direct, some "gate open"⟩, { g with executing := true })

def release (cfg : InhibitionConfig T) (_g : RoomGate T) (now : T) : RoomGate T :=
  ⟨false, now + cfg.postExecutionCooldownSec⟩

def forceRelease (_g : RoomGate T) : RoomGate T := ⟨false, 0⟩

/-- A gate refuses when it is executing or cooling down, and then it stays as it is. -/
theorem acquire_cases (fmt : T → String) (g : RoomGate T) (now : T) :
    (g.acquire fmt now).1.allow = false ∧ (g.executing = true ∨ g.isOnCooldown now = true) ∧
        (g.acquire fmt now).2 = g ∨
      (g.acquire fmt now).1.allow = true ∧ g.executing = false ∧ g.isOnCooldown now = false := by
  unfold acquire
  cases he : g.executing with
  | true => exact .inl ⟨rfl, .inl rfl, rfl⟩
  | false =>
    cases hc : g.isOnCooldown now with
    | true => exact .inl ⟨rfl, .inr rfl, rfl⟩
    | false => exact .inr ⟨rfl, rfl, rfl⟩

end RoomGate

structure Gate (T : Type) where
  globalGate : RoomGate T
  gates : Dict String (RoomGate T)

namespace Gate

def fresh : Gate T := ⟨.fresh, .empty⟩

/-- `_Gate._get_gate`: the empty room id names the global gate, and the first
look at any other room stores a fresh gate for it. -/
def getGate (g : Gate T) (roomId : String) : RoomGate T × Gate T :=
  if roomId = "" then (g.globalGate, g)
  else ((g.gates.setDefault roomId .fresh).1,
    { g with gates := (g.gates.setDefault roomId .fresh).2 })

/-- Room gates are shared objects: an operation on one is seen by every later look. -/
def putGate (g : Gate T) (roomId : String) (rg : RoomGate T) : Gate T :=
  if roomId = "" then { g with globalGate := rg }
  else { g with gates := g.gates.set roomId rg }

def acquire (fmt : T → String) (g : Gate T) (roomId : String) (now : T) : GateDecision × Gate T :=
  let (rg, g) := g.getGate roomId
  let (decision, rg) := rg.acquire fmt now
  (decision, g.putGate roomId rg)

def release (cfg : InhibitionConfig T) (g : Gate T) (roomId : String) (now : T) : Gate T :=
  let (rg, g) := g.getGate roomId
  g.putGate roomId (rg.release cfg now)

def forceRelease (g : Gate T) (roomId : String) : Gate T :=
  let (rg, g) := g.getGate roomId
  g.putGate roomId rg.forceRelease

def isRoomExecuting (g : Gate T) (roomId : String) : Bool × Gate T :=
  let (rg, g) := g.getGate roomId
  (rg.executing, g)

def isRoomOnCooldown (g : Gate T) (roomId : String) (now : T) : Bool × Gate T :=
  let (rg, g) := g.getGate roomId
  (rg.isOnCooldown now, g)

/-- Some gate is executing, whichever room it belongs to. -/
def isExecuting (g : Gate T) : Bool := g.globalGate.executing || g.gates.values.any (·.executing)

/-- Some gate is cooling down. Each gate reads the clock on its own. -/
def isOnCooldown (g : Gate T) (now : String → T) : Bool :=
  g.globalGate.isOnCooldown (now "") || g.gates.entries.any fun e => e.2.isOnCooldown (now e.1)

/-! ## One room's gate

`room` is the gate a room id names; every operation on a room moves that gate
as the room operation says and leaves the gates of all other rooms alone. -/

def room (g : Gate T) (roomId : String) : RoomGate T :=
  if roomId = "" then g.globalGate else g.gates.getD roomId .fresh

@[simp] theorem getGate_fst (g : Gate T) (r : String) : (g.getGate r).1 = g.room r := by
  unfold getGate room
  split
  · rfl
  · exact Dict.setDefault_fst _ _ _

@[simp] theorem room_getGate (g : Gate T) (r x : String) : (g.getGate r).2.room x = g.room x := by
  unfold getGate room
  by_cases hr : r = ""
  · rw [if_pos hr]
  · rw [if_neg hr]
    by_cases hx : x = ""
    · simp [hx]
    · simp only [if_neg hx]
      exact Dict.getD_setDefault _ _ _ _

theorem room_putGate (g : Gate T) (r x : String) (rg : RoomGate T) :
    (g.putGate r rg).room x = if r = x then rg else g.room x := by
  unfold putGate room
  by_cases hr : r = ""
  · subst hr
    by_cases hx : x = ""
    · simp [hx]
    · simp [hx, Ne.symm hx]
  · by_cases hx : x = ""
    · subst hx; simp [hr]
    · simp only [if_neg hr, if_neg hx, Dict.getD, Dict.get?_set]
      split <;> rfl

theorem acquire_fst (fmt : T → String) (g : Gate T) (r : String) (now : T) :
    (g.acquire fmt r now).1 = ((g.room r).acquire fmt now).1 := by
  simp [acquire]

theorem room_acquire (fmt : T → String) (g : Gate T) (r x : String) (now : T) :
    (g.acquire fmt r now).2.room x =
      if r = x then ((g.room r).acquire fmt now).2 else g.room x := by
  simp [acquire, room_putGate]

theorem room_release (cfg : InhibitionConfig T) (g : Gate T) (r x : String) (now : T) :
    (g.release cfg r now).room x = if r = x then (g.room r).release cfg now else g.room x := by
  simp [release, room_putGate]

theorem room_forceRelease (g : Gate T) (r x : String) :
    (g.forceRelease r).room x = if r = x then (g.room r).forceRelease else g.room x := by
  simp [forceRelease, room_putGate]

end Gate

end IrisMind.Inhibition
