import IrisMind.Lib.Lines
import IrisMind.Lib.PosixPath
import IrisMind.Memory.CandidateStore
import IrisMind.Memory.Records

/-! # Patches of the persona

Patches are proposed, approved or rejected in a store, and an approved one is applied to a file
below the configuration directory. What the file system does apart from that is up to it. -/
namespace IrisMind.Memory
open IrisMind.Lib

/-- A patch with all that is kept of it. -/
structure StoredPatch extends PersonaPatchCandidate where
  timestamp : String

/-- What the store relies on: JSON lines, conversions of numbers, and what is drawn for a record
without an id or a time. -/
structure PatchSetup extends JsonText where
  serialises : Json → Bool
  same : Json → Json → Bool
  conv : Conversion
  newId : String
  now : String

def PersonaPatchStatus.ofText? (s : String) : Option PersonaPatchStatus :=
  [pending, approved, rejected, applied].find? (·.text = s)

namespace StoredPatch

def fields (m : StoredPatch) : List (String × Json) :=
  [("id", .str m.id), ("timestamp", .str m.timestamp), ("target_file", .str m.targetFile),
    ("reason", .str m.reason), ("proposed_patch", .str m.proposedPatch),
    ("evidence_record_ids", .arr (m.evidenceRecordIds.map .str)), ("confidence", .num m.confidence),
    ("status", .str m.status.text), ("metadata", .obj m.metadata)]

def readStatus : Json → Option PersonaPatchStatus
  | .str s => PersonaPatchStatus.ofText? s
  | _ => none

def readObject : Json → Option (List (String × Json))
  | .obj fields => some fields
  | _ => none

def ofFields (u : PatchSetup) (get : String → Option Json) : Option StoredPatch := do
  let id ← fieldOr readText u.newId (get "id")
  let timestamp ← fieldOr readText u.now (get "timestamp")
  let targetFile ← fieldOr readText ".iris/config/iris_profile.md" (get "target_file")
  let reason ← fieldOr readText "" (get "reason")
  let proposedPatch ← fieldOr readText "" (get "proposed_patch")
  let evidenceRecordIds ← fieldOr readTexts [] (get "evidence_record_ids")
  let confidence ← fieldOr (FieldKind.number? u.conv) 0 (get "confidence")
  let status ← fieldOr readStatus .pending (get "status")
  let metadata ← fieldOr readObject [] (get "metadata")
  return { id, timestamp, targetFile, reason, proposedPatch, evidenceRecordIds, confidence,
           status, metadata }

def modelValidate (u : PatchSetup) : Json → Option StoredPatch
  | .obj fields => ofFields u fun k => Dict.lookup k fields
  | _ => none

theorem validates (u : PatchSetup) (m : StoredPatch) (es : List (String × Json))
    (h : ∀ f ∈ m.fields, Dict.lookup f.1 es = some f.2) :
    modelValidate u (.obj es) = some m := by
  have hstatus : readStatus (.str m.status.text) = some m.status := by cases m.status <;> rfl
  simp only [fields, List.forall_mem_cons] at h
  simp [modelValidate, ofFields, h, fieldOr, readText, hstatus, StoredCandidate.readTexts_map,
    FieldKind.number?, Json.number?, readObject]

end StoredPatch

def PatchSetup.store (u : PatchSetup) : RecordStore StoredPatch where
  toJsonText := u.toJsonText
  serialises := u.serialises
  same := u.same
  validate := StoredPatch.modelValidate u
  fields := StoredPatch.fields
  id m := m.id
  id_field _ := List.mem_cons_self
  nodup m := by
    show ["id", "timestamp", "target_file", "reason", "proposed_patch", "evidence_record_ids",
      "confidence", "status", "metadata"].Nodup
    decide
  validates := StoredPatch.validates u

/-! ## The file of a patch -/

def profileDir : PosixPath := .parse ".iris/config".toList

/-- The characters that the pattern allows. -/
def isProfileChar (c : Char) : Bool := c.isAlphanum || c = '_' || c = '.' || c = '/' || c = '-'

/-- `\.md$`, where the end may also be in front of a last newline. -/
def endsProfile (s : List Char) : Bool := s = ".md".toList || s = ".md\n".toList

/-- One or more of these characters, and the end. -/
def fitsProfileName : List Char → Bool
  | [] => false
  | c :: rest => isProfileChar c && (endsProfile rest || fitsProfileName rest)

/-- `_PROFILE_GLOB.match` -/
def profileGlob (s : List Char) : Bool :=
  ".iris/config/".toList.isPrefixOf s && fitsProfileName (s.drop ".iris/config/".length)

/-- `_resolve_target_path` -/
def resolveTargetPath (resolve : PosixPath → PosixPath) (targetFile : String) (base : PosixPath) :
    Except String PosixPath :=
  let raw := Text.trim targetFile.toList
  if raw = [] then .ok ((base.join profileDir).join (.parse "iris_profile.md".toList))
  else
    let candidate := PosixPath.parse raw
    if candidate.isAbsolute then
      .error ("absolute target_file is not allowed: " ++ targetFile)
    else if candidate.parts.head? ≠ some ".iris".toList then
      .error ("target_file must be under .iris/: " ++ targetFile)
    else if candidate.parts.contains "..".toList then
      .error ("target_file must not contain '..': " ++ targetFile)
    else if !profileGlob candidate.str then
      .error ("target_file must match .iris/config/**/*.md (got: " ++ targetFile ++ ")")
    else
      let resolved := resolve (base.join candidate)
      let profileRoot := resolve (base.join profileDir)
      if resolved.isRelativeTo profileRoot then .ok resolved
      else .error ("target_file resolves outside .iris/config/: " ++ targetFile)

/-! ## Applying a patch -/

/-- A text, or what cannot be read as one: a directory, or other bytes. -/
inductive FileNode where
  | text (content : List Char)
  | other

abbrev Files := PosixPath → Option FileNode

def Files.put (files : Files) (path : PosixPath) (node : Option FileNode) : Files :=
  fun q => if q = path then node else files q

/-- The operation of the file system that raises. A file that is written then may be left in any
state: as it was, without its content, with a part of the new one, or with all of it. -/
inductive ApplyStage where
  | mkdir
  | readCopied
  | copy (left : Option FileNode)
  | read
  | write (left : Option FileNode)

/-- A call of `apply_approved`, with what the file system does. -/
structure ApplyCall where
  itemId : String
  backup : Bool := true
  replace : Bool := false
  resolve : PosixPath → PosixPath
  fails : Option ApplyStage := none
  now : String
  taken : Bool

/-- `torn` is a write that raises. -/
inductive ApplyResult where
  | refused
  | raised
  | torn
  | written
deriving DecidableEq

/-- `parent.mkdir(parents=True, exist_ok=True)`; a root is always there. -/
def makeParents (files : Files) (target : PosixPath) : Files := fun q =>
  if target.parent.isRelativeTo q && q.tail ≠ [] && (files q).isNone then some .other else files q

def backupPath (target : PosixPath) : Option PosixPath :=
  target.withSuffix (target.suffix ++ ".bak".toList)

/-- The text of a file, unless it is none. -/
def readFile (files : Files) (path : PosixPath) : Option (List Char) :=
  match files path with
  | some (.text content) => some (Text.readText content)
  | _ => none

def ApplyCall.readCopied (c : ApplyCall) (files : Files) (target : PosixPath) :
    Option (List Char) :=
  match c.fails with
  | some .readCopied => none
  | _ => readFile files target

def ApplyCall.read (c : ApplyCall) (files : Files) (target : PosixPath) : Option (List Char) :=
  match c.fails with
  | some .read => none
  | _ => readFile files target

/-- Whether the copy is made or none is asked for, and the files afterwards. -/
def backUp (files : Files) (c : ApplyCall) (target : PosixPath) : Bool × Files :=
  if c.backup && (files target).isSome then
    match backupPath target with
    | none => (false, files)
    | some copy => match c.readCopied files target with
      | none => (false, files)
      | some content => match c.fails with
        | some (.copy left) => (false, files.put copy left)
        | _ => (true, files.put copy (some (.text content)))
  else (true, files)

def rstrip (s : List Char) : List Char := (Text.stripLeft s.reverse).reverse

/-- `rstrip("\n")` -/
def rstripNewlines (s : List Char) : List Char := (s.reverse.dropWhile (· = '\n')).reverse

/-- What a file holds when a patch is put behind what has been read of it. -/
def appendPatch (existing patch : List Char) : List Char :=
  let existing := if existing.getLast? = some '\n' then existing else existing ++ ['\n']
  let separator := if rstrip existing = [] then [] else ['\n']
  existing ++ separator ++ rstripNewlines patch ++ ['\n']

def writeFile (files : Files) (c : ApplyCall) (target : PosixPath) (content : List Char) :
    ApplyResult × Files :=
  match c.fails with
  | some (.write left) => (.torn, files.put target left)
  | _ => (.written, files.put target (some (.text content)))

/-- What `apply_approved` does with an item that is approved, but for the store. -/
def writePatch (base : PosixPath) (files : Files) (c : ApplyCall) (item : StoredPatch) :
    ApplyResult × Files :=
  match resolveTargetPath c.resolve item.targetFile base with
  | .error _ => (.refused, files)
  | .ok target =>
    if Text.isBlank item.proposedPatch.toList then (.refused, files)
    else if let some .mkdir := c.fails then (.raised, files)
    else match backUp (makeParents files target) c target with
      | (false, files) => (.raised, files)
      | (true, files) =>
        if c.replace || (files target).isNone then
          writeFile files c target item.proposedPatch.toList
        else match c.read files target with
          | none => (.raised, files)
          | some existing =>
            writeFile files c target (appendPatch existing item.proposedPatch.toList)

structure PatchWorld where
  store : JsonlStore
  files : Files

/-- How far the write of the file has come. -/
inductive WriteState where
  | unbegun
  | torn
  | done
deriving DecidableEq

/-- A call returns, or raises before, in or after the write of the file. -/
inductive ApplyOutcome where
  | returned (applied : Bool)
  | raised (write : WriteState)
deriving DecidableEq

namespace PatchSetup

variable (u : PatchSetup)

def approve (s : JsonlStore) (itemId now : String) (taken : Bool) :
    StoreAnswer StoredPatch × JsonlStore :=
  u.store.call s (.update itemId [("status", .str "approved")] now taken)

def reject (s : JsonlStore) (itemId reason now : String) (taken : Bool) :
    StoreAnswer StoredPatch × JsonlStore :=
  u.store.call s (.update itemId [("status", .str "rejected"),
    ("metadata", .obj [("rejection_reason", .str reason)])] now taken)

def applyApproved (base : PosixPath) (w : PatchWorld) (c : ApplyCall) :
    ApplyOutcome × PatchWorld :=
  let (answer, store) := u.store.call w.store (.find c.itemId)
  match answer with
  | .none => (.returned false, { w with store })
  | .item item =>
    if item.status ≠ .approved then (.returned false, { w with store })
    else match writePatch base w.files c item with
      | (.refused, files) => (.returned false, { store, files })
      | (.raised, files) => (.raised .unbegun, { store, files })
      | (.torn, files) => (.raised .torn, { store, files })
      | (.written, files) =>
        let (answer, store) :=
          u.store.call store (.update c.itemId [("status", .str "applied")] c.now c.taken)
        match answer with
        | .raised => (.raised .done, { store, files })
        | _ => (.returned true, { store, files })
  | _ => (.raised .unbegun, { w with store })

end PatchSetup

end IrisMind.Memory
