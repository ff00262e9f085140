import IrisMind.Lib.Template
import IrisMind.Lib.Text

/-! # Environment references in the configuration

The strings of a configuration file may refer to environment variables. They
are resolved over the whole tree before the configuration is validated; the
keys are left as they are. -/
namespace IrisMind.Kernel
open IrisMind.Lib

abbrev Environ := String → Option String

/-- The text of the `ValueError`. -/
def notSet (name : String) : String := "Environment variable " ++ name ++ " is not set"

/-- `_replace` -/
def replaceRef (environ : Environ) : Template.Piece → Except String (List Char)
  | .char c => .ok [c]
  | .ref name =>
    match environ (.ofList name) with
    | none => .error (notSet (.ofList name))
    | some value => .ok value.toList

/-- `_ENV_REF_RE.sub(_replace, raw)` -/
def resolveText (environ : Environ) (raw : String) : Except String String := do
  let parts ← (Template.pieces raw.toList).mapM (replaceRef environ)
  return .ofList parts.flatten

mutual

def resolveEnvRefs (environ : Environ) : Json → Except String Json
  | .str raw => do return .str (← resolveText environ raw)
  | .obj fields => do return .obj (← resolveFields environ fields)
  | .arr items => do return .arr (← resolveItems environ items)
  | raw => .ok raw

def resolveItems (environ : Environ) : List Json → Except String (List Json)
  | [] => .ok []
  | v :: rest => do
    let v ← resolveEnvRefs environ v
    return v :: (← resolveItems environ rest)

def resolveFields (environ : Environ) :
    List (String × Json) → Except String (List (String × Json))
  | [] => .ok []
  | (k, v) :: rest => do
    let v ← resolveEnvRefs environ v
    return (k, v) :: (← resolveFields environ rest)

end

/-! ## What it comes to -/

/-- The names a text refers to. -/
def textRefs (raw : String) : List String := (Template.refs raw.toList).map String.ofList

/-- A text with the values of the variables in it; of one that is not set nothing is left. -/
def expandText (environ : Environ) (raw : String) : String :=
  .ofList (Template.expand (fun name => ((environ (.ofList name)).getD "").toList) raw.toList)

mutual

/-- The names a tree refers to, in the order in which it is walked. -/
def envRefs : Json → List String
  | .str raw => textRefs raw
  | .obj fields => fieldRefs fields
  | .arr items => itemRefs items
  | _ => []

def itemRefs : List Json → List String
  | [] => []
  | v :: rest => envRefs v ++ itemRefs rest

def fieldRefs : List (String × Json) → List String
  | [] => []
  | (_, v) :: rest => envRefs v ++ fieldRefs rest

end

mutual

def expandTree (environ : Environ) : Json → Json
  | .str raw => .str (expandText environ raw)
  | .obj fields => .obj (expandFields environ fields)
  | .arr items => .arr (expandItems environ items)
  | raw => raw

def expandItems (environ : Environ) : List Json → List Json
  | [] => []
  | v :: rest => expandTree environ v :: expandItems environ rest

def expandFields (environ : Environ) : List (String × Json) → List (String × Json)
  | [] => []
  | (k, v) :: rest => (k, expandTree environ v) :: expandFields environ rest

end

/-- The first of some names that is not set refuses what needs them all. -/
def needing {α : Type} (environ : Environ) (names : List String) (a : α) : Except String α :=
  match names.find? fun name => (environ name).isNone with
  | some name => .error (notSet name)
  | none => .ok a

section Needing

variable {α β γ : Type} (environ : Environ)

@[simp] theorem needing_nil (a : α) : needing environ [] a = .ok a := rfl

@[simp] theorem needing_map (names : List String) (a : α) (f : α → β) :
    f <$> needing environ names a = needing environ names (f a) := by
  unfold needing
  split <;> rfl

theorem needing_append (names names' : List String) (a : α) (b : β) (f : α → β → γ) :
    (needing environ names a >>= fun x => needing environ names' (f x b)) =
      needing environ (names ++ names') (f a b) := by
  unfold needing
  rw [List.find?_append]
  cases names.find? fun name => (environ name).isNone with
  | some name => rfl
  | none => rfl

end Needing

variable (environ : Environ)

theorem replaceRefs_eq : ∀ ps : List Template.Piece,
    ps.mapM (replaceRef environ) =
      needing environ ((ps.filterMap Template.Piece.name?).map String.ofList)
        (ps.map (Template.Piece.expand fun name => ((environ (.ofList name)).getD "").toList))
  | [] => rfl
  | .char c :: ps => by
    rw [List.mapM_cons, replaceRefs_eq ps]
    exact needing_map environ _ _ _
  | .ref name :: ps => by
    rw [List.mapM_cons, replaceRefs_eq ps]
    cases h : environ (.ofList name) with
    | none => simp [replaceRef, h, needing, Template.Piece.name?]; rfl
    | some value =>
      have hfirst : replaceRef environ (.ref name) = .ok value.toList := by simp [replaceRef, h]
      rw [hfirst]
      simp only [List.filterMap_cons, Template.Piece.name?, List.map_cons, needing,
        List.find?_cons, Template.Piece.expand, h]
      exact needing_map environ _ _ _

theorem resolveText_eq (raw : String) :
    resolveText environ raw = needing environ (textRefs raw) (expandText environ raw) := by
  rw [resolveText, replaceRefs_eq]
  exact needing_map environ _ _ fun parts : List (List Char) => String.ofList parts.flatten

mutual

/-- Resolving walks the whole tree and fails at the first name that is not set. -/
theorem resolveEnvRefs_eq : ∀ raw : Json,
    resolveEnvRefs environ raw = needing environ (envRefs raw) (expandTree environ raw)
  | .str raw => by
    rw [resolveEnvRefs, resolveText_eq]
    exact needing_map environ _ _ Json.str
  | .obj fields => by
    rw [resolveEnvRefs, resolveFields_eq fields]
    exact needing_map environ _ _ Json.obj
  | .arr items => by
    rw [resolveEnvRefs, resolveItems_eq items]
    exact needing_map environ _ _ Json.arr
  | .null => rfl
  | .bool _ => rfl
  | .int _ => rfl
  | .num _ => rfl

theorem resolveItems_eq (items : List Json) :
    resolveItems environ items = needing environ (itemRefs items) (expandItems environ items) := by
  cases items with
  | nil => rfl
  | cons v rest =>
    rw [resolveItems, resolveEnvRefs_eq v, resolveItems_eq rest]
    simp only [bind_pure_comp, needing_map]
    exact needing_append environ _ _ _ _ List.cons

theorem resolveFields_eq : ∀ fields : List (String × Json),
    resolveFields environ fields = needing environ (fieldRefs fields) (expandFields environ fields)
  | [] => rfl
  | (k, v) :: rest => by
    rw [resolveFields, resolveEnvRefs_eq v, resolveFields_eq rest]
    simp only [bind_pure_comp, needing_map]
    exact needing_append environ _ _ _ _ fun v rest => (k, v) :: rest

end

/-! ## Resolving again -/

theorem needing_eq_ok {α : Type} {names : List String} {a b : α} :
    needing environ names a = .ok b ↔ (∀ name ∈ names, (environ name).isSome) ∧ a = b := by
  unfold needing
  split
  · rename_i name h
    have hmem := List.mem_of_find?_eq_some h
    have hnone := List.find?_some h
    simp only [reduceCtorEq, false_iff]
    rintro ⟨hset, -⟩
    exact absurd (hset name hmem) (by simp [Option.isNone_iff_eq_none.mp hnone])
  · rename_i h
    refine ⟨fun hab => ⟨fun name hmem => ?_, by simpa using hab⟩, fun hab => by simp [hab.2]⟩
    have hset := List.find?_eq_none.mp h name hmem
    simpa [Option.isSome_iff_ne_none] using hset

/-- No variable is empty, has a `$` or starts with an opening brace. -/
def Environ.Inert : Prop := ∀ name value, environ name = some value → Template.Inert value.toList

variable {environ}

theorem settled_expandText (hinert : environ.Inert) {raw : String}
    (h : ∀ name ∈ textRefs raw, (environ name).isSome) :
    Template.Settled (expandText environ raw).toList := by
  let value (name : List Char) : List Char :=
    match environ (.ofList name) with
    | some value => value.toList
    | none => ['?']
  have hvalue : ∀ name, Template.Inert (value name) := by
    intro name
    simp only [value]
    split
    · rename_i v hv
      exact hinert _ _ hv
    · exact ⟨by simp, by simp, by simp⟩
  have hsame : Template.expand (fun name => ((environ (.ofList name)).getD "").toList) raw.toList =
      Template.expand value raw.toList := by
    refine Template.expand_congr fun name hname => ?_
    obtain ⟨v, hv⟩ := Option.isSome_iff_exists.mp (h _ (List.mem_map_of_mem hname))
    simp [value, hv]
  rw [expandText, String.toList_ofList, hsame]
  exact Template.settled_expand hvalue _

/-- Nothing in a tree refers to a variable, and no environment changes it. -/
def Closed (raw : Json) : Prop := envRefs raw = [] ∧ ∀ environ, expandTree environ raw = raw

mutual

theorem closed_expandTree (hinert : environ.Inert) : ∀ raw : Json,
    (∀ name ∈ envRefs raw, (environ name).isSome) → Closed (expandTree environ raw)
  | .str raw, h => by
    have hsettled := settled_expandText hinert h
    refine ⟨by simp [expandTree, envRefs, textRefs, hsettled.refs], fun environ' => ?_⟩
    rw [expandTree, expandTree, expandText, hsettled.expand, String.ofList_toList]
  | .obj fields, h => by
    obtain ⟨hrefs, hsame⟩ := closed_expandFields hinert fields h
    exact ⟨hrefs, fun environ' => congrArg Json.obj (hsame environ')⟩
  | .arr items, h => by
    obtain ⟨hrefs, hsame⟩ := closed_expandItems hinert items h
    exact ⟨hrefs, fun environ' => congrArg Json.arr (hsame environ')⟩
  | .null, _ => ⟨rfl, fun _ => rfl⟩
  | .bool _, _ => ⟨rfl, fun _ => rfl⟩
  | .int _, _ => ⟨rfl, fun _ => rfl⟩
  | .num _, _ => ⟨rfl, fun _ => rfl⟩

theorem closed_expandItems (hinert : environ.Inert) : ∀ items : List Json,
    (∀ name ∈ itemRefs items, (environ name).isSome) →
      itemRefs (expandItems environ items) = [] ∧
        ∀ environ', expandItems environ' (expandItems environ items) = expandItems environ items
  | [], _ => ⟨rfl, fun _ => rfl⟩
  | v :: rest, h => by
    have hv := closed_expandTree hinert v fun name hn => h name (List.mem_append_left _ hn)
    have hrest := closed_expandItems hinert rest fun name hn => h name (List.mem_append_right _ hn)
    refine ⟨by simp [expandItems, itemRefs, hv.1, hrest.1], fun environ' => ?_⟩
    simp only [expandItems, hv.2 environ', hrest.2 environ']

theorem closed_expandFields (hinert : environ.Inert) : ∀ fields : List (String × Json),
    (∀ name ∈ fieldRefs fields, (environ name).isSome) →
      fieldRefs (expandFields environ fields) = [] ∧ ∀ environ',
        expandFields environ' (expandFields environ fields) = expandFields environ fields
  | [], _ => ⟨rfl, fun _ => rfl⟩
  | (k, v) :: rest, h => by
    have hv := closed_expandTree hinert v fun name hn => h name (List.mem_append_left _ hn)
    have hrest := closed_expandFields hinert rest fun name hn => h name (List.mem_append_right _ hn)
    refine ⟨by simp [expandFields, fieldRefs, hv.1, hrest.1], fun environ' => ?_⟩
    simp only [expandFields, hv.2 environ', hrest.2 environ']

end

theorem resolve_again (hinert : environ.Inert) {raw tree : Json}
    (h : resolveEnvRefs environ raw = .ok tree) (environ' : Environ) :
    resolveEnvRefs environ' tree = .ok tree := by
  rw [resolveEnvRefs_eq, needing_eq_ok] at h
  obtain ⟨hset, rfl⟩ := h
  obtain ⟨hrefs, hsame⟩ := closed_expandTree hinert raw hset
  rw [resolveEnvRefs_eq, hrefs, hsame environ', needing_nil]

/-- Resolving fails at the first name in the tree that is not set, and else puts the value of every
name in its place and changes nothing else. Values are not looked at again, so a reference could
come about in what they are put together to; where no variable is empty, has a `$` or starts with
an opening brace, none does, and the resolved tree resolves to itself in any environment. -/
theorem env_refs_resolved (environ : Environ) (raw : Json) :
    resolveEnvRefs environ raw = needing environ (envRefs raw) (expandTree environ raw) ∧
      (environ.Inert → ∀ tree, resolveEnvRefs environ raw = .ok tree →
        ∀ environ', resolveEnvRefs environ' tree = .ok tree) :=
  ⟨resolveEnvRefs_eq environ raw, fun hinert _ h => resolve_again hinert h⟩

/-- One variable is set. -/
def onlyKey : Environ := fun name => if name = "KEY" then some "sk-1" else none

theorem onlyKey_inert : onlyKey.Inert := by
  intro name value h
  obtain ⟨-, rfl⟩ : name = "KEY" ∧ "sk-1" = value := by simpa [onlyKey] using h
  exact ⟨by simp, by simp, by simp⟩

theorem resolveEnvRefs_key : resolveEnvRefs onlyKey (.obj [("api_key", .str "+${KEY}")]) =
    .ok (.obj [("api_key", .str "+sk-1")]) := by
  have hpieces : Template.pieces ['+', '$', '{', 'K', 'E', 'Y', '}'] =
      [.char '+', .ref ['K', 'E', 'Y']] := by
    rw [Template.pieces_char rfl, Template.pieces_ref rfl]
    simp [Template.pieces]
  rw [resolveEnvRefs_eq]
  simp [envRefs, fieldRefs, textRefs, Template.refs, expandTree, expandFields, expandText,
    Template.expand, hpieces, Template.Piece.name?, Template.Piece.expand, needing, onlyKey]

theorem env_refs_resolved_key : ∀ environ',
    resolveEnvRefs environ' (.obj [("api_key", .str "+sk-1")]) =
      .ok (.obj [("api_key", .str "+sk-1")]) :=
  (env_refs_resolved onlyKey _).2 onlyKey_inert _ resolveEnvRefs_key

end IrisMind.Kernel
