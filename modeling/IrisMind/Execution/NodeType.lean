import Mathlib.Data.List.Basic
import IrisMind.Tools.Registry

/-! # Task levels, node types and routing tools -/
namespace IrisMind.Execution
open IrisMind.Tools

inductive LevelName where
  | chat
  | light
  | normal
  | deep
  | research
deriving DecidableEq, Repr

/-- The fields of a task level that execution reads. -/
structure TaskLevel where
  name : LevelName
  modelRole : String
  maxTokens : Nat
  maxToolIterations : Nat
  priority : Int
  showThinking : Bool
deriving DecidableEq, Repr

namespace LevelName

def value : LevelName → String
  | chat => "chat"
  | light => "light"
  | normal => "normal"
  | deep => "deep"
  | research => "research"

def all : List LevelName := [chat, light, normal, deep, research]

/-- `TASK_LEVELS`. -/
def level : LevelName → TaskLevel
  | chat => ⟨chat, "low", 80, 0, 0, false⟩
  | light => ⟨light, "low", 256, 1, 1, false⟩
  | normal => ⟨normal, "medium", 0, 5, 2, true⟩
  | deep => ⟨deep, "medium", 4096, 10, 3, true⟩
  | research => ⟨research, "high", 8192, 20, 4, true⟩

end LevelName

/-- `TASK_LEVELS[name]`, where an unknown name is a `KeyError`. -/
def taskLevel? (name : String) : Option TaskLevel :=
  (LevelName.all.find? fun l => l.value == name).map LevelName.level

inductive NodeTypeName where
  | generalChat
  | generalTask
deriving DecidableEq, Repr

inductive RoutingTool where
  | generalChat
  | generalTask
  | deepTask
  | finish
deriving DecidableEq, Repr

namespace RoutingTool

def value : RoutingTool → String
  | generalChat => "general_chat"
  | generalTask => "general_task"
  | deepTask => "deep_task"
  | finish => "finish"

def all : List RoutingTool := [generalChat, generalTask, deepTask, finish]

/-- `ROUTING_TOOLS`. -/
def description : RoutingTool → String
  | generalChat => "Continue with another short message to say more."
  | generalTask => "Switch to task mode with full tool access for multi-step work."
  | deepTask => "Upgrade to extended mode for complex tasks needing more tokens or tool rounds."
  | finish => "Complete the response when no more actions are needed."

def schema (t : RoutingTool) : ToolSchema := ⟨t.value, t.description⟩

def ofName? (name : String) : Option RoutingTool := all.find? fun t => t.value == name

theorem ofName?_eq_some_iff {name : String} {t : RoutingTool} :
    ofName? name = some t ↔ name = t.value := by
  constructor
  · intro h
    have hv := List.find?_some h
    exact (beq_iff_eq.mp hv).symm
  · intro h
    rw [h]
    cases t <;> rfl

end RoutingTool

structure NodeType where
  name : NodeTypeName
  entryLevel : LevelName
  availableLevels : List LevelName
  maxChainDepth : Nat
  routingTargets : List RoutingTool
  toolListByLevel : LevelName → Option (List String)

/-- The routing tool that carries the node's own name. -/
def NodeTypeName.routingTool : NodeTypeName → RoutingTool
  | .generalChat => .generalChat
  | .generalTask => .generalTask

/-- `NODE_TYPES`. -/
def NodeTypeName.nodeType : NodeTypeName → NodeType
  | .generalChat =>
    { name := .generalChat
      entryLevel := .chat
      availableLevels := [.chat, .light]
      maxChainDepth := 10
      routingTargets := [.generalChat, .generalTask, .finish]
      toolListByLevel := fun
        | .chat => some []
        | .light => some ["web_search", "read_file"]
        | _ => none }
  | .generalTask =>
    { name := .generalTask
      entryLevel := .normal
      availableLevels := [.normal, .deep, .research]
      maxChainDepth := 3
      routingTargets := [.generalChat, .generalTask, .deepTask, .finish]
      toolListByLevel := fun _ => none }

theorem taskLevel?_maxToolIterations {name : String} {level : TaskLevel}
    (h : taskLevel? name = some level) : level.maxToolIterations ≤ 20 := by
  obtain ⟨l, _, hl⟩ := Option.map_eq_some_iff.mp h
  rw [← hl]
  cases l <;> decide

end IrisMind.Execution
