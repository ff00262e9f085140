import IrisMind.Lib.Dict
import IrisMind.Lib.Text

/-! # The tool registry

Tools are registered under their own name. The schema a tool is offered with
carries that same name, because the decorator takes the tool's name from the
schema. A tool itself is foreign code, so what one run of it does is an
argument of `execute`. -/
namespace IrisMind.Tools
open IrisMind.Lib

structure ToolSchema where
  name : String
  description : String
deriving DecidableEq, Repr

structure ToolDef where
  name : String
  description : String
  sideEffect : Bool := false
deriving DecidableEq, Repr

def ToolDef.toOpenaiTool (td : ToolDef) : ToolSchema := ⟨td.name, td.description⟩

/-- What running a tool comes to. -/
inductive ToolOutcome where
  | raises
  | returns (text : String)
deriving DecidableEq, Repr

/-- What `execute` comes to; a `rejected` call raises before any tool is run. -/
inductive Execution where
  | rejected
  | failed
  | returned (text : String)
deriving DecidableEq, Repr

structure ToolRegistry where
  tools : Dict String ToolDef
  keyed : ∀ k td, tools.get? k = some td → td.name = k

namespace ToolRegistry

def empty : ToolRegistry := ⟨.empty, fun _ _ h => by simp at h⟩

def register (r : ToolRegistry) (td : ToolDef) : ToolRegistry where
  tools := r.tools.set td.name td
  keyed := by
    intro k x h
    rw [Dict.get?_set] at h
    split at h
    · next hk => cases h; exact hk
    · exact r.keyed k x h

def get (r : ToolRegistry) (name : String) : Option ToolDef := r.tools.get? name

def listTools (r : ToolRegistry) (allowSideEffects : Bool) : List ToolSchema :=
  (r.tools.values.filter fun t => allowSideEffects || !t.sideEffect).map ToolDef.toOpenaiTool

def listToolsByName (r : ToolRegistry) (names : List String) (allowSideEffects : Bool) :
    List ToolSchema :=
  (r.tools.values.filter fun t => names.contains t.name && (allowSideEffects || !t.sideEffect)).map
    ToolDef.toOpenaiTool

def isSideEffect (r : ToolRegistry) (name : String) : Bool :=
  match r.get name with
  | some td => td.sideEffect
  | none => false

/-- `registry.execute(name, **args)`: the arguments are spread over a method whose
own parameters are `self` and `name`. -/
def execute (r : ToolRegistry) (name : String) (args : List (String × Json))
    (outcome : ToolOutcome) : Execution :=
  if args.any (fun a => a.1 == "name" || a.1 == "self") then .rejected
  else match r.get name with
    | none => .returned ("Error: tool '" ++ name ++ "' not found")
    | some _ => match outcome with
      | .raises => .failed
      | .returns text => .returned text

/-! ## What is offered -/

theorem mem_listTools {r : ToolRegistry} {allow : Bool} {schema : ToolSchema}
    (h : schema ∈ r.listTools allow) :
    ∃ td, r.get schema.name = some td ∧ (allow = false → td.sideEffect = false) := by
  obtain ⟨td, hf, he⟩ := List.mem_map.mp h
  obtain ⟨hm, hs⟩ := List.mem_filter.mp hf
  obtain ⟨k, hk⟩ := Dict.mem_values_iff.mp hm
  have hn : td.name = k := r.keyed k td hk
  refine ⟨td, ?_, fun ha => by simpa [ha] using hs⟩
  rw [← he, ToolDef.toOpenaiTool, get, hn]
  exact hk

theorem mem_listToolsByName {r : ToolRegistry} {names : List String} {allow : Bool}
    {schema : ToolSchema} (h : schema ∈ r.listToolsByName names allow) :
    schema.name ∈ names ∧
      ∃ td, r.get schema.name = some td ∧ (allow = false → td.sideEffect = false) := by
  obtain ⟨td, hf, he⟩ := List.mem_map.mp h
  obtain ⟨hm, hs⟩ := List.mem_filter.mp hf
  rw [Bool.and_eq_true, List.contains_iff_mem] at hs
  have hl : schema ∈ r.listTools allow :=
    List.mem_map.mpr ⟨td, List.mem_filter.mpr ⟨hm, hs.2⟩, he⟩
  exact ⟨he ▸ hs.1, mem_listTools hl⟩

theorem isSideEffect_of_get {r : ToolRegistry} {name : String} {td : ToolDef}
    (h : r.get name = some td) : r.isSideEffect name = td.sideEffect := by
  simp [isSideEffect, h]

end ToolRegistry

end IrisMind.Tools
