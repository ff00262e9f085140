import Mathlib.Data.List.Basic

/-! # Models by role

A role has the last model that names it, and every other role the first model. -/
namespace IrisMind.Llm

structure ModelEntry where
  name : String
  roles : List String := ["default"]
  contextWindow : Option Int := none

structure ModelConfig where
  models : List ModelEntry
  defaultContextWindow : Int := 8192

namespace ModelConfig

def findModel (config : ModelConfig) (role : String) : Option ModelEntry :=
  (config.models.reverse.find? (·.roles.contains role)).or config.models.head?

def getModel (config : ModelConfig) (role : String) : String :=
  match config.findModel role with
  | some m => m.name
  | none => ""

def getEffectiveContextWindow (config : ModelConfig) (role : String) : Int :=
  ((config.findModel role).bind (·.contextWindow)).getD config.defaultContextWindow

end ModelConfig

end IrisMind.Llm
