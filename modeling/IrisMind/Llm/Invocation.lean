import Mathlib.Data.Rat.Defs
import IrisMind.Llm.ModelConfig
import IrisMind.Tools.Registry

/-! # What a call may ask of a model

What a model can do is what its entry says, or else what its tier suggests. A
call is cut down to that before it is made. -/
namespace IrisMind.Llm
open IrisMind.Tools

/-- The tiers that validate. -/
inductive PerformanceTier where
  | fast
  | balanced
  | capable
deriving DecidableEq, Repr

/-- An entry with what a call reads of it. -/
structure InvocationEntry extends ModelEntry where
  provider : String := "ollama"
  maxTokens : Int := 512
  temperature : Option ℚ := none
  repeatPenalty : Option ℚ := none
  capabilities : Option (List String) := none
  performanceTier : PerformanceTier := .balanced

structure InvocationConfig where
  models : List InvocationEntry
  defaultTemperature : ℚ := 7 / 10

namespace InvocationConfig

variable (config : InvocationConfig) (role : String)

/-- The same models, as the other lookups see them. -/
def toModelConfig : ModelConfig := { models := config.models.map (·.toModelEntry) }

def findModel : Option InvocationEntry :=
  (config.models.reverse.find? (·.roles.contains role)).or config.models.head?

theorem findModel_toModelConfig :
    config.toModelConfig.findModel role = (config.findModel role).map (·.toModelEntry) := by
  rw [ModelConfig.findModel, toModelConfig, findModel, ← List.map_reverse, List.find?_map,
    List.head?_map, Option.map_or]
  rfl

def getModel : String := ((config.findModel role).map (·.name)).getD ""

def getEffectiveTemperature : ℚ :=
  ((config.findModel role).bind (·.temperature)).getD config.defaultTemperature

def getModelCapabilities : List String := ((config.findModel role).bind (·.capabilities)).getD []

def getModelPerformanceTier : PerformanceTier :=
  ((config.findModel role).map (·.performanceTier)).getD .balanced

def getEffectiveMaxTokens : Int := ((config.findModel role).map (·.maxTokens)).getD 4096

end InvocationConfig

/-! ## What a model can do -/

namespace CapabilityChecker

variable (config : InvocationConfig) (role : String)

/-- A list that is empty counts as one that is not there. -/
def supports (capability : String) (tiers : List PerformanceTier) : Bool :=
  let caps := config.getModelCapabilities role
  if caps ≠ [] then caps.contains capability
  else tiers.contains (config.getModelPerformanceTier role)

def supportsTools : Bool := supports config role "tools" [.balanced, .capable]

def supportsThinking : Bool := supports config role "thinking" [.capable]

end CapabilityChecker

namespace ModelInvocationPolicy

variable (checker : Option InvocationConfig)

/-- No tools are none at all. -/
def resolveTools (requestedTools : List ToolSchema) (modelRole : String) : List ToolSchema :=
  if checker.all (CapabilityChecker.supportsTools · modelRole) then requestedTools else []

def resolveThinking (requested : Bool) (modelRole : String) : Bool :=
  requested && checker.all (CapabilityChecker.supportsThinking · modelRole)

/-- The first there is; the last one always is. -/
def resolveTemperature (explicit levelTemp modulationTemp : Option ℚ) (configTemp : ℚ) : ℚ :=
  ((explicit.or levelTemp).or modulationTemp).getD configTemp

end ModelInvocationPolicy

end IrisMind.Llm
