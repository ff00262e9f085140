import IrisMind.Lib.Dict
import IrisMind.Lib.Topological
import Mathlib.Data.List.Pairwise

/-! # The order of plugins

The plugins of one phase are sorted by the names they depend on, and the phases
follow each other. A dependency may also name a service, which another plugin
provides or the kernel itself; the sort of a phase lists such names too, and
what is no plugin is left out of the order. -/
namespace IrisMind.Kernel
open IrisMind.Lib IrisMind.Lib.Graphs

inductive PluginPhase where
  | infra | core | store | layer | cognitive | feature | ready
deriving DecidableEq

namespace PluginPhase

def value : PluginPhase → Nat
  | infra => 0
  | core => 10
  | store => 15
  | layer => 20
  | cognitive => 30
  | feature => 40
  | ready => 50

/-- `sorted(PluginPhase)` -/
def sorted : List PluginPhase := [infra, core, store, layer, cognitive, feature, ready]

theorem mem_sorted (phase : PluginPhase) : phase ∈ sorted := by cases phase <;> simp [sorted]

theorem sorted_pairwise : sorted.Pairwise (fun p q => p.value < q.value) := by
  simp [sorted, value]

end PluginPhase

structure PluginManifest where
  phase : PluginPhase
  dependencies : List String := []
  provides : List String := []

inductive ResolveError where
  | keyError (text : String)
  | cycleError (phase : PluginPhase)

section

variable (plugins : Dict String PluginManifest) (builtinServiceNames : List String)

def pluginNames : List String := plugins.entries.map Prod.fst

def knownServices : List String :=
  pluginNames plugins ++ plugins.values.flatMap (·.provides) ++ builtinServiceNames

def phaseGraph (phase : PluginPhase) : Graph String :=
  (plugins.entries.filter (·.2.phase = phase)).map fun e => (e.1, e.2.dependencies)

/-- The loop over the phases. -/
def orderPhases (sorter : Sorter String) : List PluginPhase → Except ResolveError (List String)
  | [] => .ok []
  | phase :: rest =>
    if (phaseGraph plugins phase).isEmpty then orderPhases sorter rest
    else match sorter.staticOrder (phaseGraph plugins phase) with
      | none => .error (.cycleError phase)
      | some phaseOrder =>
        (orderPhases sorter rest).map (phaseOrder.filter (· ∈ pluginNames plugins) ++ ·)

def resolveOrder (sorter : Sorter String) : Except ResolveError (List String) :=
  match (plugins.values.flatMap (·.dependencies)).find?
      (· ∉ knownServices plugins builtinServiceNames) with
  | some dep => .error (.keyError ("Plugin has unresolved dependency '" ++ dep ++ "'"))
  | none => orderPhases plugins sorter PluginPhase.sorted

/-- The `DependencyError`, with the plugin and what it misses. -/
def verifyDependencies : Option (String × List String) :=
  (plugins.entries.map fun e =>
    (e.1, e.2.dependencies.filter (· ∉ knownServices plugins builtinServiceNames))).find?
    (!·.2.isEmpty)

/-! ## What is asked of an order -/

/-- `a` depends on `b` by its name, or on a service that `b` provides. -/
def Needs (a b : String) : Prop := ∃ m m', plugins.get? a = some m ∧ plugins.get? b = some m' ∧
  (b ∈ m.dependencies ∨ ∃ s ∈ m.dependencies, s ∈ m'.provides)

/-- Every plugin once, each after all it needs. -/
structure GoodOrder (order : List String) : Prop where
  perm : order.Perm (pluginNames plugins)
  after : ∀ a b, Needs plugins a b → After order a b

/-- No plugin stands before one of an earlier phase. -/
def InPhases (order : List String) : Prop := order.Pairwise fun a b =>
  ∀ m m', plugins.get? a = some m → plugins.get? b = some m' → m.phase.value ≤ m'.phase.value

def Unresolved : Prop := ∃ m ∈ plugins.values, ∃ dep ∈ m.dependencies,
  dep ∉ knownServices plugins builtinServiceNames

/-- The order is good, and only what has no good order is refused. -/
def Resolves (sorter : Sorter String) : Prop :=
  (∀ order, resolveOrder plugins builtinServiceNames sorter = .ok order →
    GoodOrder plugins order) ∧
  ∀ e, resolveOrder plugins builtinServiceNames sorter = .error e →
    Unresolved plugins builtinServiceNames ∨
      ¬ ∃ order, GoodOrder plugins order ∧ InPhases plugins order

end

variable {plugins : Dict String PluginManifest} {builtinServiceNames : List String}

/-! ## The graph of a phase -/

section

variable (sorter : Sorter String)

theorem resolveOrder_unresolved (h : Unresolved plugins builtinServiceNames) :
    ∃ text, resolveOrder plugins builtinServiceNames sorter = .error (.keyError text) := by
  obtain ⟨m, hm, dep, hdep, hunknown⟩ := h
  have hsome : ((plugins.values.flatMap (·.dependencies)).find?
      (· ∉ knownServices plugins builtinServiceNames)).isSome = true := by
    rw [List.find?_isSome]
    exact ⟨dep, List.mem_flatMap.mpr ⟨m, hm, hdep⟩, by simpa using hunknown⟩
  obtain ⟨dep', he⟩ := Option.isSome_iff_exists.mp hsome
  rw [resolveOrder, he]
  exact ⟨_, rfl⟩

/-- What was resolved passes the check that follows. -/
theorem verifyDependencies_resolved {order : List String}
    (h : resolveOrder plugins builtinServiceNames sorter = .ok order) :
    verifyDependencies plugins builtinServiceNames = none := by
  have hknown : ¬ Unresolved plugins builtinServiceNames := fun hu => by
    obtain ⟨text, he⟩ := resolveOrder_unresolved sorter hu
    rw [he] at h
    exact nomatch h
  rw [verifyDependencies, List.find?_eq_none]
  intro e he hmissing
  obtain ⟨⟨name, m⟩, hm, rfl⟩ := List.mem_map.mp he
  have hne : m.dependencies.filter (· ∉ knownServices plugins builtinServiceNames) ≠ [] := by
    simpa using hmissing
  obtain ⟨dep, hdep⟩ := List.exists_mem_of_ne_nil _ hne
  obtain ⟨hmem, hunknown⟩ := List.mem_filter.mp hdep
  exact hknown ⟨m, List.mem_map_of_mem hm, dep, hmem, of_decide_eq_true hunknown⟩

end

/-! ## Cycles -/

section

variable (sorter : Sorter String) (hc : ∀ phase, ¬ Cyclic (phaseGraph plugins phase))

include hc

end

section

variable (hknown : ¬ Unresolved plugins builtinServiceNames)
  (hc : ∀ phase, ¬ Cyclic (phaseGraph plugins phase))

include hknown hc

end

end IrisMind.Kernel
