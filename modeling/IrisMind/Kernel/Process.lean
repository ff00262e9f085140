import IrisMind.Kernel.Dependencies
import IrisMind.Kernel.Hooks
import IrisMind.Kernel.Lifecycle

/-! # Starting the kernel

Plugins are discovered and initialized, and then the services and the hooks are
frozen. After that the kernel provides its command handler, which a frozen
container refuses: no kernel is ever started, and no plugin is ever stopped. -/
namespace IrisMind.Kernel
open IrisMind.Lib IrisMind.Lib.Graphs

/-! ## Services -/

/-- The name of a type, and the name under which one of its instances is known. -/
abbrev ServiceKey := String × String

structure ServiceContainer (ι : Type) where
  services : Dict ServiceKey ι := .empty
  frozen : Bool := false

namespace ServiceContainer

variable {ι : Type}

def refusal (key : ServiceKey) : String :=
  "ServiceContainer is frozen, cannot provide '" ++ key.1 ++ "'"

def provide (c : ServiceContainer ι) (key : ServiceKey) (service : ι) :
    Except String (ServiceContainer ι) :=
  if c.frozen then .error (refusal key)
  else .ok { c with services := c.services.set key service }

def resolve (c : ServiceContainer ι) (key : ServiceKey) : Except String ι :=
  match c.services.get? key with
  | some service => .ok service
  | none =>
    let names := c.services.entries.map fun e => "\"" ++ e.1.1 ++ "('" ++ e.1.2 ++ "')\""
    .error ("Service '" ++ key.1 ++ "' (name='" ++ key.2 ++ "') not found. Available: [" ++
      ", ".intercalate names ++ "]")

def resolveOptional (c : ServiceContainer ι) (key : ServiceKey) : Option ι := c.services.get? key

def freeze (c : ServiceContainer ι) : ServiceContainer ι := { c with frozen := true }

end ServiceContainer

/-! ## The plugin manager -/

/-- What a plugin brings: its manifest, the services its `init` provides and the hooks it
registers. -/
structure PluginModule (ι α : Type) where
  name : String
  manifest : PluginManifest
  provides : List (ServiceKey × ι) := []
  hooks : List (String × Int × HookHandler α) := []

/-- What a start may raise; what comes from a plugin or from outside may be no `Exception`. -/
inductive StartError where
  | runtimeError (text : String)
  | unresolved (e : ResolveError)
  | dependency (pluginName : String) (missing : List String)
  | ofPlugin (call : PluginCall) (raised : Raised)
  | outside (text : String) (raised : Raised)

def StartError.isException : StartError → Bool
  | .ofPlugin _ .exit => false
  | .outside _ .exit => false
  | _ => true

/-- What a start of the kernel finds outside: the modules, what the calls of plugins raise, the
instances of the kernel itself, and whether the command handler can be built and the listener
started. -/
structure KernelWorld (ι α : Type) where
  modules : List (PluginModule ι α)
  disabled : List String
  sorter : Sorter String
  plugins : Plugins
  instances : String → ι
  handlerBuilt : Except StartError Unit
  ioStarted : Except StartError Unit

/-- The modules that are not disabled. -/
def KernelWorld.enabled {ι α : Type} (w : KernelWorld ι α) : List (PluginModule ι α) :=
  w.modules.filter fun m => !w.disabled.contains m.name

structure PluginManager (ι α : Type) where
  lifecycle : PluginLifecycle := { order := [] }
  di : ServiceContainer ι := {}
  hookRegistry : HookRegistry α := {}
  shutdownRequested : Bool := false

namespace PluginManager

variable {ι α : Type} (w : KernelWorld ι α)

def provide (m : PluginManager ι α) (key : ServiceKey) (service : ι) :
    Except StartError (PluginManager ι α) :=
  match m.di.provide key service with
  | .error text => .error (.runtimeError text)
  | .ok di => .ok { m with di }

def registerHook (m : PluginManager ι α) (hookName : String) (priority : Int)
    (handler : HookHandler α) : Except StartError (PluginManager ι α) :=
  match m.hookRegistry.register hookName priority handler with
  | .error text => .error (.runtimeError text)
  | .ok hookRegistry => .ok { m with hookRegistry }

/-- The services the kernel itself provides first. -/
def builtin : List String := ["EventBus", "HookRegistry", "Config", "PluginManager"]

/-- `load`: the plugins that are not disabled, in their order. -/
def load : Except StartError (List String) :=
  let manifests : Dict String PluginManifest :=
    .ofList (w.enabled.map fun m => (m.name, m.manifest))
  match resolveOrder manifests ["EventBus"] w.sorter with
  | .error e => .error (.unresolved e)
  | .ok order =>
    match verifyDependencies manifests ["EventBus"] with
    | some (pluginName, missing) => .error (.dependency pluginName missing)
    | none => .ok order

/-- The body of the `init` of a plugin; of several of one name the last one is kept. -/
def initModule (m : PluginManager ι α) (name : String) : Except StartError (PluginManager ι α) :=
  match w.enabled.reverse.find? (·.name == name) with
  | none => .ok m
  | some plugin => do
    let m ← plugin.provides.foldlM (fun m s => m.provide s.1 s.2) m
    plugin.hooks.foldlM (fun m h => m.registerHook h.1 h.2.1 h.2.2) m

/-- `init_all` raises what the first `init` raises. -/
def initAll (m : PluginManager ι α) : Except StartError Unit × PluginManager ι α :=
  match PluginLifecycle.initLoop w.plugins m.lifecycle.order m.lifecycle with
  | (some (call, raised), lifecycle) => (.error (.ofPlugin call raised), { m with lifecycle })
  | (none, lifecycle) =>
    match lifecycle.order.foldlM (initModule w) m with
    | .error e => (.error e, { m with lifecycle })
    | .ok m => (.ok (), { m with lifecycle })

/-- `discover_and_build_all`; what it raises leaves the manager behind as it is. -/
def discoverAndBuildAll (m : PluginManager ι α) : Except StartError Unit × PluginManager ι α :=
  match builtin.foldlM (fun m name => m.provide (name, "default") (w.instances name)) m with
  | .error e => (.error e, m)
  | .ok m =>
    match load w with
    | .error e => (.error e, m)
    | .ok order =>
      match initAll w { m with lifecycle := { order } } with
      | (.error e, m) => (.error e, m)
      | (.ok (), m) =>
        (.ok (), { m with hookRegistry := m.hookRegistry.freeze, di := m.di.freeze })

def startAll (m : PluginManager ι α) : Except StartError Unit × PluginManager ι α :=
  match PluginLifecycle.startLoop w.plugins m.lifecycle.order m.lifecycle with
  | (some (call, raised), lifecycle) => (.error (.ofPlugin call raised), { m with lifecycle })
  | (none, lifecycle) => (.ok (), { m with lifecycle := lifecycle.markAllReady })

/-- It raises what no stop is kept from raising. -/
def stopAll (m : PluginManager ι α) : Option StartError × PluginManager ι α :=
  match m.lifecycle.stopAll w.plugins with
  | (some name, lifecycle) => (some (.ofPlugin (.stop name) .exit), { m with lifecycle })
  | (none, lifecycle) => (none, { m with lifecycle })

end PluginManager

/-! ## The process -/

/-- The manager a `build_kernel` has made, and what the build comes to. -/
def buildKernel {ι α : Type} (w : KernelWorld ι α) : Except StartError Unit × PluginManager ι α :=
  match PluginManager.discoverAndBuildAll w {} with
  | (.error e, m) => (.error e, m)
  | (.ok (), m) =>
    match w.handlerBuilt with
    | .error e => (.error e, m)
    | .ok () =>
      match m.provide ("CommandHandler", "default") (w.instances "CommandHandler") with
      | .error e => (.error e, m)
      | .ok m => (.ok (), m)

/-- The process, with the managers its starts have left behind. -/
structure KernelProcess (ι α : Type) where
  components : Option (PluginManager ι α) := none
  left : List (PluginManager ι α) := []

namespace KernelProcess

variable {ι α : Type}

/-- `_cleanup`, with what it raises; the components stay when a stop ends it. -/
def cleanup (w : KernelWorld ι α) (p : KernelProcess ι α) :
    Option StartError × KernelProcess ι α :=
  match p.components with
  | none => (none, p)
  | some m =>
    match m.stopAll w with
    | (some e, m) => (some e, { p with components := some m })
    | (none, m) => (none, { components := none, left := p.left ++ [m] })

/-- How a start ends that has raised: an `Exception` is raised again after the clean-up. -/
def failed (w : KernelWorld ι α) (e : StartError) (p : KernelProcess ι α) :
    Except StartError Unit × KernelProcess ι α :=
  if e.isException then (.error ((p.cleanup w).1.getD e), (p.cleanup w).2) else (.error e, p)

/-- `start`, with what it raises. A manager whose build raised is no component. -/
def start (w : KernelWorld ι α) (p : KernelProcess ι α) :
    Except StartError Unit × KernelProcess ι α :=
  match buildKernel w with
  | (.error e, m) =>
    let (result, p) := failed w e p
    (result, { p with left := p.left ++ [m] })
  | (.ok (), m) =>
    let started : Except StartError Unit × PluginManager ι α :=
      match (m.di.resolveOptional ("IOManager", "default")).elim (.ok ()) fun _ => w.ioStarted with
      | .error e => (.error e, m)
      | .ok () => m.startAll w
    match started with
    | (.error e, m) => failed w e { p with components := some m }
    | (.ok (), m) => (.ok (), { p with components := some m })

def shutdown (w : KernelWorld ι α) (p : KernelProcess ι α) : KernelProcess ι α :=
  match p.components with
  | none => p
  | some m => (cleanup w { p with components := some { m with shutdownRequested := true } }).2

def shutdownRequested (p : KernelProcess ι α) : Bool :=
  p.components.any (·.shutdownRequested)

inductive Call (ι α : Type) where
  | start (w : KernelWorld ι α)
  | shutdown (w : KernelWorld ι α)

def step (p : KernelProcess ι α) : Call ι α → KernelProcess ι α
  | .start w => (p.start w).2
  | .shutdown w => p.shutdown w

end KernelProcess

/-! ## No kernel starts -/

section

variable {ι α : Type} {w : KernelWorld ι α}

/-- No call of a plugin is a start or a stop. -/
def Unstarted (m : PluginManager ι α) : Prop :=
  m.lifecycle.started = [] ∧ m.lifecycle.stopped = []

theorem initAll_unstarted {m : PluginManager ι α} (h : m.lifecycle.Fresh) :
    Unstarted (m.initAll w).2 := by
  have hfresh : (PluginLifecycle.initLoop w.plugins m.lifecycle.order m.lifecycle).2.Fresh :=
    (h.initLoop _).1
  unfold PluginManager.initAll
  rcases hinit : PluginLifecycle.initLoop w.plugins m.lifecycle.order m.lifecycle with
    ⟨_ | ⟨call, raised⟩, lifecycle⟩
  · rw [hinit] at hfresh
    dsimp only
    split <;> exact ⟨hfresh.started, hfresh.stopped⟩
  · rw [hinit] at hfresh
    exact ⟨hfresh.started, hfresh.stopped⟩

/-- The container is frozen when all plugins have been built, and none of them is started. -/
theorem discoverAndBuildAll_frozen (w : KernelWorld ι α) :
    Unstarted (PluginManager.discoverAndBuildAll w {}).2 ∧
      ((PluginManager.discoverAndBuildAll w {}).1 = .ok () →
        (PluginManager.discoverAndBuildAll w {}).2.di.frozen = true) := by
  have hbuiltin : ∃ m, PluginManager.builtin.foldlM (fun (m : PluginManager ι α) name =>
      m.provide (name, "default") (w.instances name)) {} = .ok m ∧ m.lifecycle = { order := [] } :=
    ⟨_, rfl, rfl⟩
  obtain ⟨m, hm, hlifecycle⟩ := hbuiltin
  unfold PluginManager.discoverAndBuildAll
  rw [hm]
  cases PluginManager.load w with
  | error e => exact ⟨by rw [Unstarted, hlifecycle]; exact ⟨rfl, rfl⟩, nofun⟩
  | ok order =>
    have hinit : Unstarted (PluginManager.initAll w { m with lifecycle := { order } }).2 :=
      initAll_unstarted ⟨rfl, rfl, rfl, by simp⟩
    revert hinit
    dsimp only
    rcases PluginManager.initAll w { m with lifecycle := { order } } with ⟨e | ⟨⟩, m'⟩
    · exact fun hinit => ⟨hinit, nofun⟩
    · exact fun hinit => ⟨hinit, fun _ => rfl⟩

/-- What a frozen container says to the command handler. -/
def refused : StartError :=
  .runtimeError (ServiceContainer.refusal ("CommandHandler", "default"))

/-- Whatever is outside, the build raises; when all plugins could be initialized and the command
handler was built, it is the frozen container that does. -/
theorem buildKernel_raises (w : KernelWorld ι α) :
    (∃ e, (buildKernel w).1 = .error e) ∧ Unstarted (buildKernel w).2 ∧
      ((PluginManager.discoverAndBuildAll w {}).1 = .ok () → w.handlerBuilt = .ok () →
        (buildKernel w).1 = .error refused) := by
  obtain ⟨hunstarted, hfrozen⟩ := discoverAndBuildAll_frozen w
  unfold buildKernel
  rcases hbuild : PluginManager.discoverAndBuildAll w {} with ⟨e | ⟨⟩, m⟩
  · rw [hbuild] at hunstarted
    exact ⟨⟨e, rfl⟩, hunstarted, nofun⟩
  · rw [hbuild] at hunstarted hfrozen
    have hrefused : m.provide ("CommandHandler", "default") (w.instances "CommandHandler") =
        .error refused := by
      rw [PluginManager.provide, ServiceContainer.provide, if_pos (hfrozen rfl)]
      rfl
    dsimp only
    cases w.handlerBuilt with
    | error e => exact ⟨⟨e, rfl⟩, hunstarted, nofun⟩
    | ok u =>
      rw [hrefused]
      exact ⟨⟨_, rfl⟩, hunstarted, fun _ _ => rfl⟩

theorem failed_of_none {p : KernelProcess ι α} (h : p.components = none) (e : StartError) :
    KernelProcess.failed w e p = (.error e, p) := by
  rw [KernelProcess.failed, KernelProcess.cleanup, h]
  exact ite_self _

/-- A process that has no kernel, and never had one that started or stopped a plugin. -/
structure Idle (p : KernelProcess ι α) : Prop where
  components : p.components = none
  unstarted : ∀ m ∈ p.left, Unstarted m

theorem Idle.start {p : KernelProcess ι α} (h : Idle p) (w : KernelWorld ι α) :
    (∃ e, (p.start w).1 = .error e) ∧ Idle (p.start w).2 := by
  obtain ⟨⟨e, he⟩, hunstarted, -⟩ := buildKernel_raises w
  rcases hbuild : buildKernel w with ⟨result, m⟩
  rw [hbuild] at he hunstarted
  cases he
  have hstart : p.start w = (.error e, { p with left := p.left ++ [m] }) := by
    simp only [KernelProcess.start, hbuild, failed_of_none h.components]
  rw [hstart]
  refine ⟨⟨e, rfl⟩, h.components, fun m' hm => ?_⟩
  rcases List.mem_append.mp hm with hm | hm
  · exact h.unstarted m' hm
  · exact List.mem_singleton.mp hm ▸ hunstarted

theorem Idle.step {p : KernelProcess ι α} (h : Idle p) (call : KernelProcess.Call ι α) :
    Idle (p.step call) := by
  cases call with
  | start w => exact (h.start w).2
  | shutdown w =>
    have hsame : p.step (.shutdown w) = p := by
      rw [KernelProcess.step, KernelProcess.shutdown, h.components]
    exact hsame.symm ▸ h

/-- In every run of starts and shutdowns, whatever the plugins and the world around them: no
start returns, no plugin is ever started or stopped, and no shutdown is ever requested. A start
that gets as far as the command handler raises because the container is frozen. -/
theorem kernel_never_starts (calls : List (KernelProcess.Call ι α)) (w : KernelWorld ι α) :
    let p := Machine.run KernelProcess.step {} calls
    Idle p ∧ p.shutdownRequested = false ∧ (∃ e, (p.start w).1 = .error e) ∧
      ((PluginManager.discoverAndBuildAll w {}).1 = .ok () → w.handlerBuilt = .ok () →
        (p.start w).1 = .error refused) := by
  have hidle : Idle (Machine.run KernelProcess.step {} calls) :=
    Machine.run_inv Idle (fun _ call h => h.step call) ⟨rfl, by simp⟩ calls
  refine ⟨hidle, ?_, (hidle.start w).1, fun hbuilt hhandler => ?_⟩
  · rw [KernelProcess.shutdownRequested, hidle.components]
    rfl
  · have hraised := (buildKernel_raises w).2.2 hbuilt hhandler
    rcases hbuild : buildKernel w with ⟨result, m⟩
    rw [hbuild] at hraised
    cases hraised
    simp only [KernelProcess.start, hbuild, failed_of_none hidle.components]

end

end IrisMind.Kernel
