import IrisMind.Lib.Text
import IrisMind.Lib.NameTree

/-! # The state of the whole system

Every layer gives its state as a tree, or fails to. What is gathered is asked
for by dotted paths, and a report lists every leaf under the path that leads to
it. -/
namespace IrisMind.Kernel
open IrisMind.Lib

variable {α : Type}

/-- `_resolve_path` -/
def resolvePath (tree : List (String × NameTree α)) (path : String) : Option (NameTree α) :=
  if path = "" then some (.dict tree) else (NameTree.dict tree).follow (path.splitOn ".")

/-- The key of `k` below `pre`. -/
def keyBelow (pre k : String) : String := if pre ≠ "" then pre ++ "." ++ k else k

mutual

/-- One turn of the loop of `_flatten`: what is below a key goes into the result. -/
def flattenItem (key : String) : NameTree α → Dict String α → Dict String α
  | .leaf v, result => result.set key v
  | .dict tree, result =>
    (flattenItems key tree .empty).entries.foldl (fun d e => d.set e.1 e.2) result

def flattenItems (pre : String) : List (String × NameTree α) → Dict String α → Dict String α
  | [], result => result
  | (k, v) :: rest, result => flattenItems pre rest (flattenItem (keyBelow pre k) v result)

end

/-- `_flatten` -/
def flatten (tree : List (String × NameTree α)) (pre : String := "") : Dict String α :=
  flattenItems pre tree .empty

/-! ## What a report lists -/

/-- The path of a leaf that `ks` lead to below `pre`. -/
def pathBelow (pre : String) (ks : List String) : String :=
  if pre = "" then NameTree.dotted ks else pre ++ "." ++ NameTree.dotted ks

/-- The path of a leaf that `ks` lead to from `key`. -/
def pathFrom (key : String) (ks : List String) : String :=
  if ks = [] then key else pathBelow key ks

theorem pathBelow_injective {pre : String} {ks ks' : List String} (hks : ks ≠ []) (hks' : ks' ≠ [])
    (h : ∀ k ∈ ks, NameTree.IsName k) (h' : ∀ k ∈ ks', NameTree.IsName k)
    (heq : pathBelow pre ks = pathBelow pre ks') : ks = ks' := by
  refine NameTree.dotted_injective hks hks' h h' ?_
  unfold pathBelow at heq
  split at heq
  · exact heq
  · simpa using heq

theorem pathFrom_keyBelow {pre k : String} (hk : k ≠ "") (ks : List String) :
    pathFrom (keyBelow pre k) ks = pathBelow pre (k :: ks) := by
  by_cases hks : ks = []
  · subst hks
    by_cases hpre : pre = "" <;> simp [pathFrom, keyBelow, pathBelow, hpre]
  · have hdotted := NameTree.dotted_cons k hks
    by_cases hpre : pre = ""
    · simp [pathFrom, keyBelow, pathBelow, hpre, hk, hks, hdotted]
    · simp [pathFrom, keyBelow, pathBelow, hpre, hks, hdotted, String.append_assoc]

theorem keyBelow_ne_empty {pre k : String} (hk : k ≠ "") : keyBelow pre k ≠ "" := by
  unfold keyBelow
  split
  · simp
  · exact hk

/-- The leaves below `pre` under their paths. -/
def listed (pre : String) (tree : List (String × NameTree α)) : List (String × α) :=
  (NameTree.entryLeaves tree).map fun l => (pathBelow pre l.1, l.2)

/-- No two leaves have one path. -/
theorem nodup_listed {tree : List (String × NameTree α)} (h : (NameTree.dict tree).Named)
    (pre : String) : ((listed pre tree).map Prod.fst).Nodup := by
  have hnames := NameTree.nodup_entryLeaves h.1 h.2
  rw [List.Nodup, List.pairwise_map] at hnames
  rw [listed, List.map_map, List.Nodup, List.pairwise_map]
  refine hnames.imp_of_mem fun {a b} ha hb hne heq => hne ?_
  exact pathBelow_injective (NameTree.ne_nil_of_mem_entryLeaves ha)
    (NameTree.ne_nil_of_mem_entryLeaves hb) (NameTree.isName_of_mem_entryLeaves h.2 ha)
    (NameTree.isName_of_mem_entryLeaves h.2 hb) heq

mutual

theorem flattenItem_eq : ∀ {t : NameTree α} {key : String} (result : Dict String α), t.Named →
    key ≠ "" → flattenItem key t result =
      ((NameTree.leaves t).map fun l => (pathFrom key l.1, l.2)).foldl (fun d e => d.set e.1 e.2)
        result
  | .leaf v, key, result, _, _ => by simp [flattenItem, NameTree.leaves, pathFrom]
  | .dict tree, key, result, h, hkey => by
    -- what is below the key is gathered first, and no two of it have one path
    have hentries : (flattenItems key tree .empty).entries = listed key tree := by
      rw [flattenItems_eq .empty h.2]
      exact Dict.entries_ofList (nodup_listed h key)
    rw [flattenItem, hentries, NameTree.leaves]
    refine congrArg (List.foldl _ result) (List.map_congr_left fun l hl => ?_)
    simp [pathFrom, NameTree.ne_nil_of_mem_entryLeaves hl]

theorem flattenItems_eq : ∀ {tree : List (String × NameTree α)} {pre : String}
    (result : Dict String α), NameTree.EntriesNamed tree → flattenItems pre tree result =
      (listed pre tree).foldl (fun d e => d.set e.1 e.2) result
  | [], pre, result, _ => rfl
  | (k, v) :: rest, pre, result, h => by
    rw [flattenItems, flattenItem_eq result h.2.1 (keyBelow_ne_empty h.1.1),
      flattenItems_eq _ h.2.2]
    simp [listed, NameTree.entryLeaves, pathFrom_keyBelow h.1.1, Function.comp_def]

end

theorem flatten_entries {tree : List (String × NameTree α)} (h : (NameTree.dict tree).Named) :
    (flatten tree).entries =
      (NameTree.entryLeaves tree).map fun l => (NameTree.dotted l.1, l.2) := by
  have hlisted : (flatten tree).entries = listed "" tree := by
    rw [flatten, flattenItems_eq .empty h.2]
    exact Dict.entries_ofList (nodup_listed h "")
  simpa [listed, pathBelow] using hlisted

/-- What a report lists under a path is what the path leads to. -/
theorem mem_flatten {tree : List (String × NameTree α)} (h : (NameTree.dict tree).Named)
    {path : String} {value : α} :
    (path, value) ∈ (flatten tree).entries ↔ resolvePath tree path = some (.leaf value) := by
  rw [flatten_entries h, List.mem_map]
  constructor
  · rintro ⟨⟨ks, v⟩, hmem, heq⟩
    obtain ⟨rfl, rfl⟩ := Prod.mk.inj heq
    have hne := NameTree.ne_nil_of_mem_entryLeaves hmem
    have hnames := NameTree.isName_of_mem_entryLeaves h.2 hmem
    rw [resolvePath, if_neg (NameTree.dotted_ne_empty hne hnames),
      NameTree.splitOn_dotted hne hnames]
    exact (NameTree.mem_entryLeaves h.1 h.2).mp hmem
  · intro hpath
    unfold resolvePath at hpath
    split at hpath
    · exact absurd (Option.some.inj hpath) (by simp)
    · exact ⟨(path.splitOn ".", value), (NameTree.mem_entryLeaves h.1 h.2).mpr hpath, by
        rw [NameTree.dotted_splitOn]⟩

/-! ## The layers -/

/-- An object that should give its state: there may be none, it may have no `get_state`, and what it
has may fail. -/
inductive StateProvider where
  | missing
  | stateless
  | state (tree : List (String × NameTree Json))
  | raises (text : String)

def StateProvider.errorTree (text : String) : NameTree Json := .dict [("error", .leaf (.str text))]

/-- What is put under the name of a layer. -/
def StateProvider.layerTree : StateProvider → Option (NameTree Json)
  | .missing => none
  | .stateless => some (errorTree "no get_state")
  | .state tree => some (.dict tree)
  | .raises text => some (errorTree text)

/-- What is put under `kernel`. -/
def StateProvider.kernelTree : StateProvider → Option (NameTree Json)
  | .state tree => some (.dict tree)
  | .raises text => some (errorTree text)
  | _ => none

structure TracerCounts where
  subscriberCount : Nat
  publishCount : Nat
  errorCount : Nat

def TracerCounts.tree (c : TracerCounts) : NameTree Json :=
  .dict [("subscribers", .leaf (.int c.subscriberCount)),
    ("total_published", .leaf (.int c.publishCount)), ("errors", .leaf (.int c.errorCount))]

structure SystemDiagnostics where
  tracer : Option TracerCounts
  kernel : StateProvider
  layerProviders : Dict String StateProvider

namespace SystemDiagnostics

def putTree (tree : Dict String (NameTree Json)) (name : String) : Option (NameTree Json) →
    Dict String (NameTree Json)
  | none => tree
  | some t => tree.set name t

def getState (s : SystemDiagnostics) : Dict String (NameTree Json) :=
  let tree := s.layerProviders.entries.foldl
    (fun tree layer => putTree tree layer.1 layer.2.layerTree) .empty
  let tree := putTree tree "kernel" s.kernel.kernelTree
  putTree tree "eventbus" (s.tracer.map TracerCounts.tree)

def query (s : SystemDiagnostics) (path : String) : Option (NameTree Json) :=
  resolvePath s.getState.entries path

/-! ## What one layer does to the others -/

theorem get?_putTree (tree : Dict String (NameTree Json)) (name k : String)
    (t : Option (NameTree Json)) :
    (putTree tree name t).get? k = if name = k then t.or (tree.get? k) else tree.get? k := by
  cases t with
  | none => simp [putTree]
  | some t => simp [putTree, Dict.get?_set]

theorem get?_layers (name : String) : ∀ {layers : List (String × StateProvider)}
    (tree : Dict String (NameTree Json)), (layers.map Prod.fst).Nodup →
    (layers.foldl (fun tree layer => putTree tree layer.1 layer.2.layerTree) tree).get? name =
      ((Dict.lookup name layers).bind StateProvider.layerTree).or (tree.get? name)
  | [], tree, _ => rfl
  | (k, obj) :: rest, tree, h => by
    obtain ⟨hnew, hrest⟩ := List.nodup_cons.mp h
    rw [List.foldl_cons, get?_layers name _ hrest, get?_putTree, Dict.lookup]
    by_cases hk : k = name
    · subst hk
      simp [Dict.lookup_eq_none.mpr hnew]
    · simp [hk]

theorem get?_getState (s : SystemDiagnostics) (name : String) :
    s.getState.get? name =
      if "eventbus" = name ∧ s.tracer.isSome then s.tracer.map TracerCounts.tree
      else if "kernel" = name ∧ s.kernel.kernelTree.isSome then s.kernel.kernelTree
      else (s.layerProviders.get? name).bind StateProvider.layerTree := by
  have hlayers := get?_layers name .empty s.layerProviders.nodup
  rw [getState, get?_putTree, get?_putTree, hlayers]
  cases s.tracer <;> cases s.kernel.kernelTree <;> by_cases hbus : "eventbus" = name <;>
    by_cases hkernel : "kernel" = name <;> simp [hbus, hkernel, Dict.get?, Dict.empty, Dict.lookup]

/-- The names in what the layers give can be spelled in a path. -/
structure Spelled (s : SystemDiagnostics) : Prop where
  layers : ∀ name obj, s.layerProviders.get? name = some obj → NameTree.IsName name
  states : ∀ name tree, s.layerProviders.get? name = some (.state tree) → (NameTree.dict tree).Named
  kernel : ∀ tree, s.kernel = .state tree → (NameTree.dict tree).Named

theorem named_errorTree (text : String) : (StateProvider.errorTree text).Named := by
  simp [StateProvider.errorTree, NameTree.Named, NameTree.EntriesNamed, NameTree.IsName]

theorem named_counts (c : TracerCounts) : c.tree.Named := by
  simp [TracerCounts.tree, NameTree.Named, NameTree.EntriesNamed, NameTree.IsName]

theorem Spelled.named {s : SystemDiagnostics} (h : s.Spelled) :
    (NameTree.dict s.getState.entries).Named := by
  refine NameTree.named_dict fun name t ht => ?_
  rw [get?_getState] at ht
  split at ht
  · next hbus =>
    obtain ⟨c, hc⟩ := Option.isSome_iff_exists.mp hbus.2
    rw [hc] at ht
    obtain rfl : c.tree = t := by simpa using ht
    exact ⟨hbus.1 ▸ by simp [NameTree.IsName], named_counts c⟩
  · split at ht
    · next hkernel =>
      refine ⟨hkernel.1 ▸ by simp [NameTree.IsName], ?_⟩
      cases hobj : s.kernel with
      | state tree =>
        obtain rfl : NameTree.dict tree = t := by simpa [hobj, StateProvider.kernelTree] using ht
        exact h.kernel tree hobj
      | raises text =>
        obtain rfl : StateProvider.errorTree text = t := by
          simpa [hobj, StateProvider.kernelTree] using ht
        exact named_errorTree text
      | missing => simp [hobj, StateProvider.kernelTree] at ht
      | stateless => simp [hobj, StateProvider.kernelTree] at ht
    · obtain ⟨obj, hobj, htree⟩ := Option.bind_eq_some_iff.mp ht
      refine ⟨h.layers name obj hobj, ?_⟩
      cases obj with
      | state tree =>
        obtain rfl := Option.some.inj htree
        exact h.states name tree hobj
      | raises text =>
        obtain rfl := Option.some.inj htree
        exact named_errorTree text
      | stateless =>
        obtain rfl := Option.some.inj htree
        exact named_errorTree _
      | missing => exact absurd htree (by simp [StateProvider.layerTree])

/-- A path that starts with the name of a layer leads into what that layer gives. -/
theorem query_layer {s : SystemDiagnostics} {name path : String}
    {tree : List (String × NameTree Json)}
    (hname : NameTree.IsName name) (hlayer : s.layerProviders.get? name = some (.state tree))
    (hkernel : name ≠ "kernel") (hbus : name ≠ "eventbus") (hpath : path ≠ "") :
    s.query (name ++ "." ++ path) = resolvePath tree path := by
  have hstate : Dict.lookup name s.getState.entries = some (.dict tree) := by
    have hget := s.get?_getState name
    simp only [hkernel.symm, hbus.symm, false_and, if_false, hlayer, Option.bind_some] at hget
    exact hget
  have hsplit : (name ++ "." ++ path).splitOn "." = name :: path.splitOn "." :=
    Text.splitOn_append hname.2 path
  have hne : name ++ "." ++ path ≠ "" := by simp
  rw [query, resolvePath, if_neg hne, hsplit, NameTree.follow, hstate, Option.bind_some,
    resolvePath, if_neg hpath]

end SystemDiagnostics

/-- Where the names in what the layers give are not empty and have no dot: a report lists exactly
the values that paths lead to, each under its path, and a path below the name of a layer leads to
what that layer alone gives, whatever the others give or raise. -/
theorem report_lists_queries (s : SystemDiagnostics) (h : s.Spelled) :
    (∀ path value, (path, value) ∈ (flatten s.getState.entries).entries ↔
      s.query path = some (.leaf value)) ∧
    (∀ name path tree, s.layerProviders.get? name = some (.state tree) → name ≠ "kernel" →
      name ≠ "eventbus" → path ≠ "" → s.query (name ++ "." ++ path) = resolvePath tree path) :=
  ⟨fun _ _ => mem_flatten h.named, fun name _ _ hlayer hkernel hbus hpath =>
    SystemDiagnostics.query_layer (h.layers name _ hlayer) hlayer hkernel hbus hpath⟩

/-- One layer fails while another one counts what it keeps. -/
def halfBroken : SystemDiagnostics where
  tracer := some ⟨4, 20, 1⟩
  kernel := .state [("state", .leaf (.str "running"))]
  layerProviders := .ofList [("io", .raises "closed"),
    ("memory", .state [("episodic", .dict [("entries", .leaf (.int 3))])])]

theorem halfBroken_layer {name : String} {obj : StateProvider}
    (h : halfBroken.layerProviders.get? name = some obj) :
    (name = "io" ∧ obj = .raises "closed") ∨ (name = "memory" ∧
      obj = .state [("episodic", .dict [("entries", .leaf (.int 3))])]) := by
  have hmem := Dict.mem_entries_iff.mpr h
  rw [halfBroken, Dict.entries_ofList (by simp)] at hmem
  simpa using hmem

theorem report_lists_queries_broken :
    halfBroken.query "memory.episodic.entries" = some (.leaf (.int 3)) ∧
      halfBroken.query "io.error" = some (.leaf (.str "closed")) := by
  have hspelled : halfBroken.Spelled := by
    refine ⟨fun name obj h => ?_, fun name tree h => ?_, fun tree h => ?_⟩
    · rcases halfBroken_layer h with ⟨rfl, -⟩ | ⟨rfl, -⟩ <;> simp [NameTree.IsName]
    · rcases halfBroken_layer h with ⟨-, h⟩ | ⟨-, h⟩
      · exact absurd h (by simp)
      · obtain rfl := StateProvider.state.inj h
        simp [NameTree.Named, NameTree.EntriesNamed, NameTree.IsName]
    · obtain rfl := StateProvider.state.inj h
      simp [NameTree.Named, NameTree.EntriesNamed, NameTree.IsName]
  have hreport := (report_lists_queries halfBroken hspelled).1
  exact ⟨(hreport _ _).mp (Dict.mem_entries_iff.mpr rfl),
    (hreport _ _).mp (Dict.mem_entries_iff.mpr rfl)⟩

end IrisMind.Kernel
