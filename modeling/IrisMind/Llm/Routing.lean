import IrisMind.Lib.Dict
import IrisMind.Lib.Text
import IrisMind.Llm.Invocation

/-! # Which model a call goes to

The bridge keeps three tables by the name of a model: its client, its entry and
its provider, which makes the arguments for the client of what the caller asks
for. Where two entries bear one name, the later one is in all three. A name that
is in none gets the first client and the first provider there is, and these need
not belong to one entry: then the client may get arguments made for another. -/
namespace IrisMind.Llm
open IrisMind.Lib

structure ProviderConnection where
  baseUrl : String := ""
  apiKey : String := ""

/-- What the bridge is built from; `hash` is the digest of a key that is not empty. -/
structure BridgeConfig extends InvocationConfig where
  providers : Dict String ProviderConnection := .empty
  hash : String → String := id

/-- The provider classes that are registered. -/
def providerClasses : List String := ["ollama", "openrouter", "google"]

def defaultUrl (provider : String) : String :=
  if provider = "ollama" then "http://localhost:11434"
  else if provider = "openrouter" then "https://openrouter.ai/api/v1"
  else if provider = "google" then "https://generativelanguage.googleapis.com/v1beta/openai"
  else ""

namespace BridgeConfig

variable (config : BridgeConfig)

def resolveConnection (entry : InvocationEntry) : ProviderConnection :=
  let conn := config.providers.getD entry.provider {}
  if conn.baseUrl = "" then { conn with baseUrl := defaultUrl entry.provider } else conn

def hashKey (apiKey : String) : String := if apiKey = "" then "" else config.hash apiKey

/-- There is one instance of a provider for each of these. -/
def providerKey (entry : InvocationEntry) : String :=
  let conn := config.resolveConnection entry
  entry.provider ++ "|" ++ conn.baseUrl ++ "|" ++ config.hashKey conn.apiKey

/-- The key tells which provider it is of. -/
theorem provider_of_providerKey {config : BridgeConfig} {e e' : InvocationEntry}
    (he : e.provider ∈ providerClasses) (he' : e'.provider ∈ providerClasses)
    (h : config.providerKey e = config.providerKey e') : e.provider = e'.provider := by
  have hbar : ∀ name ∈ providerClasses, '|' ∉ name.toList := by decide
  have hlist := congrArg String.toList h
  simp only [providerKey, String.toList_append, List.append_assoc] at hlist
  exact String.toList_inj.mp
    (Text.first_split (hbar _ he) (hbar _ he') hlist).1

end BridgeConfig

/-! ## What a client is called with -/

/-- What the caller of the bridge asks for. -/
structure CallArgs where
  temperature : ℚ := 7 / 10
  maxTokens : Int := 4096
  reasoning : Option Bool := none
  kwargs : Dict String Json := .empty

/-- `options[k] = kwargs.pop(k)` for each of the keys that is there. -/
def moveKeys (keys : List String) (options kwargs : Dict String Json) :
    Dict String Json × Dict String Json :=
  keys.foldl (fun s k =>
    match s.2.get? k with
    | some v => (s.1.set k v, s.2.erase k)
    | none => s) (options, kwargs)

namespace OllamaProvider

/-- `build_call_options`, with what is left of the `kwargs`. -/
def buildCallOptions (args : CallArgs) (entry : Option InvocationEntry) :
    Dict String Json × Dict String Json :=
  let options := Dict.ofList
    [("temperature", .num args.temperature), ("num_predict", .int args.maxTokens)]
  let options := match entry.bind (·.repeatPenalty) with
    | some penalty => options.set "repeat_penalty" (.num penalty)
    | none => options
  let (options, kwargs) :=
    moveKeys ["presence_penalty", "frequency_penalty", "repeat_penalty"] options args.kwargs
  let options := match kwargs.get? "num_ctx" with
    | none => options
    | some .null => options
    | some numCtx => options.set "num_ctx" numCtx
  (options, kwargs.erase "num_ctx")

def buildCallKwargs (args : CallArgs) (entry : Option InvocationEntry) :
    Dict String Json × Dict String Json :=
  let (options, kwargs) := buildCallOptions args entry
  let callKwargs := Dict.empty.set "options" (.obj options.entries)
  match args.reasoning with
  | some reasoning => (callKwargs.set "reasoning" (.bool reasoning), kwargs)
  | none => (callKwargs, kwargs)

end OllamaProvider

/-- The keys of the server of Ollama are nothing to it. -/
def OpenAICompatibleProvider.buildCallKwargs (args : CallArgs) :
    Dict String Json × Dict String Json :=
  let (callKwargs, kwargs) := moveKeys ["presence_penalty", "frequency_penalty"]
    (.ofList [("temperature", .num args.temperature), ("max_tokens", .int args.maxTokens)])
    args.kwargs
  (callKwargs, kwargs.erase "num_ctx")

/-- An instance of the provider class of a name. -/
structure Provider where
  name : String
  key : String

namespace Provider

/-- The other two classes inherit one. -/
def buildCallKwargs (p : Provider) (args : CallArgs) (entry : Option InvocationEntry) :
    Dict String Json × Dict String Json :=
  if p.name = "ollama" then OllamaProvider.buildCallKwargs args entry
  else OpenAICompatibleProvider.buildCallKwargs args

/-- The arguments of the client: what the provider has made, and what it has left. -/
def callKwargs (p : Provider) (entry : Option InvocationEntry) (args : CallArgs) :
    Dict String Json :=
  let (callKwargs, kwargs) := p.buildCallKwargs args entry
  kwargs.entries.foldl (fun d e => d.set e.1 e.2) callKwargs

/-- Two providers make the same of all that is asked for exactly when both are of Ollama or
neither is. -/
theorem callKwargs_eq_iff {p q : Provider} {entry : Option InvocationEntry} :
    (∀ args, p.callKwargs entry args = q.callKwargs entry args) ↔
      (p.name = "ollama" ↔ q.name = "ollama") := by
  have hollama : ∀ {r : Provider}, r.name = "ollama" →
      (r.callKwargs entry {}).get? "temperature" = none := by
    intro r hr
    rw [callKwargs, buildCallKwargs, if_pos hr]
    rfl
  have hother : ∀ {r : Provider}, r.name ≠ "ollama" →
      (r.callKwargs entry {}).get? "temperature" ≠ none := by
    intro r hr
    rw [callKwargs, buildCallKwargs, if_neg hr]
    exact Option.some_ne_none _
  constructor
  · intro h
    by_cases hp : p.name = "ollama" <;> by_cases hq : q.name = "ollama"
    · exact iff_of_true hp hq
    · exact absurd (h {} ▸ hollama hp) (hother hq)
    · exact absurd ((h {}).symm ▸ hollama hq) (hother hp)
    · exact iff_of_false hp hq
  · intro h args
    simp only [callKwargs, buildCallKwargs, h]

end Provider

/-! ## The bridge -/

/-- A client, by the entry it was created for and the instance that created it. -/
structure ChatModel where
  entry : InvocationEntry
  connection : ProviderConnection
  provider : Provider

structure LLMBridge where
  chatModels : Dict String ChatModel := .empty
  entries : Dict String InvocationEntry := .empty
  modelProviders : Dict String Provider := .empty
  providerInstances : Dict String Provider := .empty

/-- What a call works with. -/
structure Call where
  chatModel : ChatModel
  entry : Option InvocationEntry
  provider : Provider

namespace LLMBridge

/-- One round of the loop of `__init__`; a provider that is not registered raises. -/
def add (config : BridgeConfig) (b : LLMBridge) (entry : InvocationEntry) : Option LLMBridge :=
  if entry.provider ∈ providerClasses then
    let connection := config.resolveConnection entry
    let key := config.providerKey entry
    let (provider, providerInstances) :=
      b.providerInstances.setDefault key { name := entry.provider, key }
    some { chatModels := b.chatModels.set entry.name { entry, connection, provider }
           entries := b.entries.set entry.name entry
           modelProviders := b.modelProviders.set entry.name provider
           providerInstances }
  else none

def init (config : BridgeConfig) : Option LLMBridge := config.models.foldlM (add config) {}

variable (b : LLMBridge)

def getDefaultModel : String := (b.chatModels.entries.head?.map Prod.fst).getD ""

def resolveChatModel (modelName : String) : Option ChatModel :=
  (b.chatModels.get? modelName).or b.chatModels.values.head?

def getProviderForModel (modelName : String) : Option Provider :=
  (b.modelProviders.get? modelName).or b.providerInstances.values.head?

/-- The name a call is made with; an empty one is none. -/
def modelName (model : Option String) : String :=
  match model with
  | some name => if name = "" then b.getDefaultModel else name
  | none => b.getDefaultModel

/-- What `chat` looks up before it calls; without any model it raises. -/
def route (model : Option String) : Option Call := do
  let chatModel ← b.resolveChatModel (b.modelName model)
  let provider ← b.getProviderForModel (b.modelName model)
  some { chatModel, entry := b.entries.get? (b.modelName model), provider }

end LLMBridge

/-! ## The tables -/

/-- The last entry of a name. -/
def lastNamed (models : List InvocationEntry) (name : String) : Option InvocationEntry :=
  models.reverse.find? (·.name = name)

theorem lastNamed_concat (models : List InvocationEntry) (e : InvocationEntry) (name : String) :
    lastNamed (models ++ [e]) name = if e.name = name then some e else lastNamed models name := by
  rw [lastNamed, List.reverse_concat, List.find?_cons]
  by_cases h : e.name = name <;> simp [h, lastNamed]

theorem lastNamed_isSome {models : List InvocationEntry} {e : InvocationEntry} (h : e ∈ models) :
    ∃ e', lastNamed models e.name = some e' := by
  have hsome : (lastNamed models e.name).isSome = true :=
    List.find?_isSome.mpr ⟨e, List.mem_reverse.mpr h, by simp⟩
  exact Option.isSome_iff_exists.mp hsome

theorem head?_write {ν : Type} (k : String) (v : ν) (l : List (String × ν)) :
    (Dict.write k v l).head?.map Prod.fst = (l.head?.map Prod.fst).or (some k) := by
  cases l with
  | nil => rfl
  | cons e l =>
    rw [Dict.write]
    split
    · next h => simp [h]
    · rfl

/-- The instance that an entry gets. -/
def BridgeConfig.provider (config : BridgeConfig) (entry : InvocationEntry) : Provider where
  name := entry.provider
  key := config.providerKey entry

/-- The client that is created for an entry. -/
def BridgeConfig.chatModel (config : BridgeConfig) (entry : InvocationEntry) : ChatModel where
  entry := entry
  connection := config.resolveConnection entry
  provider := config.provider entry

/-- What the tables are once the entries have been gone through. -/
structure LLMBridge.Built (config : BridgeConfig) (b : LLMBridge)
    (models : List InvocationEntry) : Prop where
  chatModels : ∀ name, b.chatModels.get? name = (lastNamed models name).map config.chatModel
  entries : ∀ name, b.entries.get? name = lastNamed models name
  modelProviders : ∀ name, b.modelProviders.get? name =
    (lastNamed models name).map config.provider
  first : b.chatModels.entries.head?.map Prod.fst = models.head?.map (·.name)
  instances : ∀ k v, b.providerInstances.get? k = some v →
    ∃ e, e.provider ∈ providerClasses ∧ config.providerKey e = k ∧ v = config.provider e
  firstInstance : b.providerInstances.entries.head?.map Prod.fst =
    models.head?.map config.providerKey
  registered : ∀ e ∈ models, e.provider ∈ providerClasses

namespace LLMBridge.Built

variable {config : BridgeConfig} {b b' : LLMBridge} {models : List InvocationEntry}

theorem empty : Built config {} [] where
  chatModels _ := rfl
  entries _ := rfl
  modelProviders _ := rfl
  first := rfl
  instances _ _ h := by cases h
  firstInstance := rfl
  registered _ h := absurd h List.not_mem_nil

/-- The instance under the key of an entry is the one it gets. -/
theorem instance_eq (h : Built config b models) {entry : InvocationEntry}
    (hentry : entry.provider ∈ providerClasses) {v : Provider}
    (hv : b.providerInstances.get? (config.providerKey entry) = some v) :
    v = config.provider entry := by
  obtain ⟨e, he, hkey, rfl⟩ := h.instances _ _ hv
  rw [BridgeConfig.provider, BridgeConfig.provider, hkey,
    BridgeConfig.provider_of_providerKey he hentry hkey]

/-- The instance of a key is made when the key is first met. -/
theorem setDefault (h : Built config b models) {entry : InvocationEntry}
    (hentry : entry.provider ∈ providerClasses) :
    ∃ d, b.providerInstances.setDefault (config.providerKey entry)
        { name := entry.provider, key := config.providerKey entry } = (config.provider entry, d) ∧
      (∀ k v, d.get? k = some v →
        ∃ e, e.provider ∈ providerClasses ∧ config.providerKey e = k ∧ v = config.provider e) ∧
      d.entries.head?.map Prod.fst = (models ++ [entry]).head?.map config.providerKey := by
  have hhead : ∀ o : Option String, o = models.head?.map config.providerKey →
      o.or (some (config.providerKey entry)) =
        (models ++ [entry]).head?.map config.providerKey := by
    rintro o rfl
    cases models <;> rfl
  unfold Dict.setDefault
  cases hget : b.providerInstances.get? (config.providerKey entry) with
  | some v =>
    obtain rfl := h.instance_eq hentry hget
    refine ⟨_, rfl, h.instances, ?_⟩
    cases models with
    | nil =>
      have hnil : b.providerInstances.entries = [] := by simpa using h.firstInstance
      rw [Dict.get?, hnil] at hget
      cases hget
    | cons e models => exact h.firstInstance
  | none =>
    refine ⟨_, rfl, fun k v hv => ?_, ?_⟩
    · rw [Dict.get?_set] at hv
      split at hv
      · next hk => exact ⟨entry, hentry, hk, (Option.some.inj hv).symm⟩
      · exact h.instances k v hv
    · exact (head?_write _ _ _).trans (hhead _ h.firstInstance)

theorem add {entry : InvocationEntry} (h : Built config b models)
    (hadd : b.add config entry = some b') : Built config b' (models ++ [entry]) := by
  unfold LLMBridge.add at hadd
  split at hadd
  · next hentry =>
    obtain ⟨d, hdefault, hinstances, hfirst⟩ := h.setDefault hentry
    dsimp only at hadd
    rw [hdefault] at hadd
    obtain rfl := Option.some.inj hadd
    refine ⟨fun name => ?_, fun name => ?_, fun name => ?_, ?_, hinstances, hfirst, fun e he => ?_⟩
    · rw [Dict.get?_set, lastNamed_concat, h.chatModels]
      split <;> rfl
    · rw [Dict.get?_set, lastNamed_concat, h.entries]
    · rw [Dict.get?_set, lastNamed_concat, h.modelProviders]
      split <;> rfl
    · refine (head?_write _ _ _).trans ?_
      rw [h.first]
      cases models <;> rfl
    · rcases List.mem_append.mp he with he | he
      · exact h.registered e he
      · exact List.mem_singleton.mp he ▸ hentry
  · cases hadd

theorem foldlM {rest : List InvocationEntry} (h : Built config b models)
    (hrun : rest.foldlM (LLMBridge.add config) b = some b') : Built config b' (models ++ rest) := by
  induction rest generalizing b models with
  | nil =>
    obtain rfl := Option.some.inj hrun
    rwa [List.append_nil]
  | cons e rest ih =>
    rw [List.foldlM_cons] at hrun
    obtain ⟨b₁, hadd, hrun⟩ := Option.bind_eq_some_iff.mp hrun
    have hrest := ih (h.add hadd) hrun
    rwa [List.append_assoc] at hrest

end LLMBridge.Built

theorem LLMBridge.built_init {config : BridgeConfig} {b : LLMBridge}
    (h : LLMBridge.init config = some b) : b.Built config config.models := by
  have hbuilt := LLMBridge.Built.empty.foldlM h
  rwa [List.nil_append] at hbuilt

/-! ## Where a call goes -/

namespace LLMBridge.Built

variable {config : BridgeConfig} {b : LLMBridge} {models : List InvocationEntry}

theorem route_known (h : Built config b models) {model : Option String} {e : InvocationEntry}
    (he : lastNamed models (b.modelName model) = some e) :
    b.route model = some ⟨config.chatModel e, some e, config.provider e⟩ := by
  rw [route, resolveChatModel, getProviderForModel, h.chatModels, h.modelProviders, h.entries, he]
  rfl

/-- The client is that of the first name there is, and the provider the first one that was made. -/
theorem route_unknown {first e : InvocationEntry} {rest : List InvocationEntry}
    (h : Built config b (first :: rest)) {model : Option String}
    (hunknown : lastNamed (first :: rest) (b.modelName model) = none)
    (he : lastNamed (first :: rest) first.name = some e) :
    b.route model = some ⟨config.chatModel e, none, config.provider first⟩ := by
  have hclient : b.chatModels.values.head? = some (config.chatModel e) := by
    have hfirst := h.first
    have hget := h.chatModels first.name
    rw [he] at hget
    cases hentries : b.chatModels.entries with
    | nil => simp [hentries] at hfirst
    | cons c l =>
      rw [hentries, List.head?_cons, List.head?_cons, Option.map_some, Option.map_some] at hfirst
      rw [Dict.get?, hentries, Dict.lookup, if_pos (Option.some.inj hfirst)] at hget
      rw [Dict.values, hentries, List.map_cons, List.head?_cons, hget]
      rfl
  have hinstance : b.providerInstances.values.head? = some (config.provider first) := by
    have hfirst := h.firstInstance
    cases hentries : b.providerInstances.entries with
    | nil => simp [hentries] at hfirst
    | cons c l =>
      rw [hentries, List.head?_cons, List.head?_cons, Option.map_some, Option.map_some] at hfirst
      have hself : c.2 = config.provider first := by
        refine h.instance_eq (h.registered first List.mem_cons_self) ?_
        rw [Dict.get?, hentries, Dict.lookup, if_pos (Option.some.inj hfirst)]
      rw [Dict.values, hentries, List.map_cons, List.head?_cons, hself]
  rw [route, resolveChatModel, getProviderForModel, h.chatModels, h.modelProviders, h.entries,
    hunknown, hclient, hinstance]
  rfl

end LLMBridge.Built

/-- The client gets what its own provider would make of all that is asked for. -/
def Call.Fits (call : Call) : Prop := ∀ args,
  call.provider.callKwargs call.entry args = call.chatModel.provider.callKwargs call.entry args

/-- Of a bridge that is built of some models: a call by a name that is known goes to the last entry
of that name, with its own client, entry and provider. By any other name it goes, without an entry,
to the client of the last entry named like the first one, and the arguments are made for this client
exactly when both or neither of these two are of Ollama. A role gets its own entry exactly when no
later one bears its name. -/
theorem calls_routed (config : BridgeConfig) (b : LLMBridge) (first : InvocationEntry)
    (rest : List InvocationEntry) (hmodels : config.models = first :: rest)
    (hb : LLMBridge.init config = some b) :
    (∀ model e, lastNamed config.models (b.modelName model) = some e →
      b.route model = some ⟨config.chatModel e, some e, config.provider e⟩) ∧
    (∀ model, lastNamed config.models (b.modelName model) = none →
      ∃ call e, b.route model = some call ∧ call.entry = none ∧
        lastNamed config.models first.name = some e ∧ call.chatModel = config.chatModel e ∧
        (call.Fits ↔ (first.provider = "ollama" ↔ e.provider = "ollama"))) ∧
    ∀ role e, config.findModel role = some e → e.name ≠ "" →
      ((b.route (some (config.getModel role))).bind (·.entry) = some e ↔
        lastNamed config.models e.name = some e) := by
  have hbuilt := LLMBridge.built_init hb
  refine ⟨fun model e he => hbuilt.route_known he, fun model hnone => ?_,
    fun role e hrole hname => ?_⟩
  · obtain ⟨e, he⟩ := lastNamed_isSome (hmodels ▸ List.mem_cons_self : first ∈ config.models)
    rw [hmodels] at hbuilt hnone he
    exact ⟨_, e, hbuilt.route_unknown hnone he, rfl, hmodels ▸ he, rfl,
      Provider.callKwargs_eq_iff⟩
  · have hmodel : b.modelName (some (config.getModel role)) = e.name := by
      rw [InvocationConfig.getModel, hrole]
      exact if_neg hname
    have hmem : e ∈ config.models := by
      rcases Option.or_eq_some_iff.mp hrole with h | ⟨-, h⟩
      · exact List.mem_reverse.mp (List.mem_of_find?_eq_some h)
      · exact List.mem_of_head? h
    obtain ⟨e', he'⟩ := lastNamed_isSome hmem
    rw [hbuilt.route_known (hmodel.symm ▸ he'), he']
    rfl

/-- One model for two roles, each with a length of its own, and at two providers. -/
def brief : InvocationEntry := { name := "qwen", roles := ["default"], maxTokens := 512 }

def lengthy : InvocationEntry :=
  { name := "qwen", roles := ["memory"], provider := "openrouter", maxTokens := 1024 }

theorem calls_routed_twice : ∃ b, LLMBridge.init { models := [brief, lengthy] } = some b ∧
    (b.route (some "qwen")).bind (·.entry) ≠ some brief ∧
    ∃ call, b.route (some "gemma") = some call ∧ ¬ call.Fits := by
  refine ⟨_, rfl, ?_⟩
  obtain ⟨-, hother, hrole⟩ := calls_routed { models := [brief, lengthy] } _ brief [lengthy] rfl rfl
  refine ⟨fun h => ?_, ?_⟩
  · have hlast := (hrole "default" brief rfl (by decide)).mp h
    exact absurd (congrArg (·.map (·.maxTokens)) hlast) (by decide)
  · obtain ⟨call, e, hroute, -, hlast, -, hfits⟩ := hother (some "gemma") rfl
    obtain rfl : lengthy = e := Option.some.inj hlast
    exact ⟨call, hroute, fun h => absurd (hfits.mp h) (by decide)⟩

end IrisMind.Llm
