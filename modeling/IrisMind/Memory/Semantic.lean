import IrisMind.Memory.Jsonl
import IrisMind.Lib.Digits
import IrisMind.Lib.Machine
import IrisMind.Lib.Fields

/-! # The semantic store

The semantic memory is in two places, a file of records and a collection of
documents, which an entry is written to one after the other; the collection may
refuse what is in the file by then. An entry is named after the length of the
file, which stops growing when the oldest entries are dropped; the collection
drops nothing. -/
namespace IrisMind.Memory
open IrisMind.Lib

/-- What the collection keeps of an entry, under its id. -/
structure Doc where
  content : String
  type : Json
  accountId : String

namespace VectorStore

/-- Whether `",".join` takes the value: a text, texts, or an object, whose names are texts. -/
def joins : Json → Bool
  | .str _ | .obj _ => true
  | .arr items => items.all fun
    | .str _ => true
    | _ => false
  | _ => false

/-- The hash that an id may be made of, and the values that the collection takes as metadata, texts
among them. -/
structure Library where
  hash : String → String
  accepts : Json → Bool
  accepts_str : ∀ s, accepts (.str s) = true

/-- A collection of texts, numbers and truth values. -/
def Library.plain : Library where
  hash := id
  accepts
    | .str _ | .int _ | .num _ | .bool _ => true
    | _ => false
  accepts_str _ := rfl

/-- What is there of an entry besides its id is taken: the text, and the metadata. -/
def takes (lib : Library) (fields : List (String × Json)) : Bool :=
  let get (key : String) (default : Json) := (Dict.lookup key fields).getD default
  (match get "content" (.str "") with
    | .str _ => true
    | _ => false) &&
  joins (get "tags" (.arr [])) && lib.accepts (get "type" (.str "lesson")) &&
    lib.accepts (get "timestamp" (.str ""))

def docOf (lib : Library) (fields : List (String × Json)) (accountId : String) : Option Doc :=
  if takes lib fields then some
    { content := Fields.getText "content" "" fields
      type := (Dict.lookup "type" fields).getD (.str "lesson")
      accountId }
  else none

/-- The id, which is a hash of the content where there is none; one that is no text is refused. -/
def idOf (lib : Library) (fields : List (String × Json)) : Option String :=
  match Dict.lookup "id" fields with
  | none => some (lib.hash (Fields.getText "content" "" fields))
  | some (.str s) => some s
  | some _ => none

/-- `VectorStore.add`, unless it raises; a document under the same id is overwritten. -/
def add (lib : Library) (docs : Dict String Doc) (fields : List (String × Json))
    (accountId : String) : Option (Dict String Doc) := do
  let id ← idOf lib fields
  let doc ← docOf lib fields accountId
  return docs.set id doc

end VectorStore

structure SemanticStore where
  jsonl : JsonlStore := {}
  vector : Dict String Doc := .empty
  syncedCount : Nat := 0

namespace SemanticStore

/-- `lesson_001`, `lesson_002` and so on. -/
def lessonId (n : Nat) : String :=
  String.ofList (['l', 'e', 's', 's', 'o', 'n', '_'] ++ Digits.padded 3 n)

/-- What `add` makes of an entry. -/
def completed (id roomId accountId : String) (fields : List (String × Json)) :
    List (String × Json) :=
  let fields := Dict.write "id" (.str id) fields
  let fields := Fields.setDefault "timestamp" (.str "") fields
  let fields := Fields.setDefault "tags" (.arr []) fields
  let fields := Fields.setDefault "type" (.str "lesson") fields
  Dict.write "account_id" (.str accountId) (Dict.write "room_id" (.str roomId) fields)

/-- Whether there is an entry with the content, a text; a line that is no object ends the search. -/
def isDuplicate (content : String) : List Json → Option Bool
  | [] => some false
  | .obj fields :: es =>
    match Dict.lookup "content" fields with
    | some (.str s) => if s = content then some true else isDuplicate content es
    | _ => isDuplicate content es
  | _ :: _ => none

section Text

variable (o : JsonText) (lib : VectorStore.Library)

/-- The loop of `sync`, and whether it comes to its end. -/
def syncEntries : List Json → Dict String Doc → Bool × Dict String Doc
  | [], docs => (true, docs)
  | .obj fields :: es, docs =>
    match VectorStore.add lib docs fields (Fields.getText "account_id" "" fields) with
    | some docs => syncEntries es docs
    | none => (false, docs)
  | _ :: _, docs => (false, docs)

def sync (s : SemanticStore) : SemanticStore :=
  let (entries, jsonl) := s.jsonl.loadAll o
  if entries.length ≤ s.syncedCount then { s with jsonl }
  else
    let (ended, vector) := syncEntries lib (entries.drop s.syncedCount) s.vector
    { jsonl, vector, syncedCount := if ended then entries.length else s.syncedCount }

/-- `SemanticStore.add` of an entry whose content, if there is one, is a text; where the collection
raises, the file has been written. -/
def add (maxEntries : Nat) (s : SemanticStore) (fields : List (String × Json))
    (roomId accountId : String) : SemanticStore :=
  let (entries, jsonl) := s.jsonl.loadAll o
  match isDuplicate (Fields.getText "content" "" fields) entries with
  | none | some true => { s with jsonl }
  | some false =>
    let fields := completed (lessonId (entries.length + 1)) roomId accountId fields
    let entries := JsonlStore.lastEntries maxEntries (entries ++ [.obj fields])
    match JsonlStore.flush o { jsonl with cache := some entries } with
    | none => { s with jsonl }
    | some jsonl => match VectorStore.add lib s.vector fields accountId with
      | none => { s with jsonl }
      | some vector => { jsonl, vector, syncedCount := entries.length }

end Text

def clear (_ : SemanticStore) : SemanticStore := {}

inductive Call where
  | add (fields : List (String × Json)) (roomId accountId : String)
  | sync
  | clear

variable (o : JsonText) (lib : VectorStore.Library) (maxEntries : Nat)

def step (s : SemanticStore) : Call → SemanticStore
  | .add fields roomId accountId => s.add o lib maxEntries fields roomId accountId
  | .sync => s.sync o lib
  | .clear => s.clear

/-- The entries of the file. -/
def entries (s : SemanticStore) : List Json := (s.jsonl.loadAll o).1

/-- The id of an entry, if it is a record with one. -/
def entryId (e : Json) : Option String :=
  match e.field? "id" with
  | some (.str s) => some s
  | _ => none

/-- No two entries of the file have the same id, and the collection holds the entries of the file
with their contents and no others. -/
structure Consistent (s : SemanticStore) : Prop where
  distinct : ((s.entries o).map entryId).Nodup
  same : ∀ id content, (s.vector.get? id).map (·.content) = some content ↔
    ∃ e ∈ s.entries o, entryId e = some id ∧ e.textAt "content" = content

/-- The content is a text that is there already; or there is room for one more entry, which is read
as it is written, and which the collection takes. -/
def Fits (s : SemanticStore) : Call → Prop
  | .add fields roomId accountId =>
    (∃ content, Dict.lookup "content" fields = some (.str content) ∧
      isDuplicate content (s.entries o) = some true) ∨
    VectorStore.takes lib fields = true ∧ (s.entries o).length < maxEntries ∧
      IsRecord o
        (.obj (completed (lessonId ((s.entries o).length + 1)) roomId accountId fields)) ∧
      (Json.obj
        (completed (lessonId ((s.entries o).length + 1)) roomId accountId fields)).Unbroken
  | _ => True

/-! ## Entries that are numbered -/

section Numbered

variable {o : JsonText} {lib : VectorStore.Library} {maxEntries : Nat} {s : SemanticStore}

theorem lessonId_injective : Function.Injective lessonId := fun n m h => by
  have hlist := String.ofList_inj.mp h
  exact Digits.padded_injective 3 (List.append_cancel_left hlist)

/-- The document of an entry, if it has one. -/
def docOfEntry (lib : VectorStore.Library) : Json → Option Doc
  | .obj fields => VectorStore.docOf lib fields (Fields.getText "account_id" "" fields)
  | _ => none

theorem content_docOfEntry {e : Json} {doc : Doc} (h : docOfEntry lib e = some doc) :
    doc.content = e.textAt "content" := by
  cases e with
  | obj fields =>
    obtain ⟨_, hdoc⟩ := Option.ite_none_right_eq_some.mp h
    cases hdoc
    rfl
  | _ => cases h

theorem entryId_iff {fields : List (String × Json)} {id : String} :
    entryId (.obj fields) = some id ↔ Dict.lookup "id" fields = some (.str id) := by
  have hfield : (Json.obj fields).field? "id" = Dict.lookup "id" fields := rfl
  rw [entryId, hfield]
  split
  · next s hs => rw [hs, Option.some.injEq, Option.some.injEq, Json.str.injEq]
  · next hno => exact iff_of_false (Option.some_ne_none id).symm (hno id)

theorem lookup_completed (id roomId accountId : String) (fields : List (String × Json)) :
    Dict.lookup "id" (completed id roomId accountId fields) = some (.str id) ∧
      Dict.lookup "account_id" (completed id roomId accountId fields) = some (.str accountId) := by
  unfold completed
  dsimp only
  constructor
  · rw [Dict.lookup_write, if_neg (by decide), Dict.lookup_write, if_neg (by decide),
      Fields.lookup_setDefault (by decide), Fields.lookup_setDefault (by decide),
      Fields.lookup_setDefault (by decide), Dict.lookup_write, if_pos rfl]
  · rw [Dict.lookup_write, if_pos rfl]

theorem entryId_completed (id roomId accountId : String) (fields : List (String × Json)) :
    entryId (.obj (completed id roomId accountId fields)) = some id :=
  entryId_iff.mpr (lookup_completed id roomId accountId fields).1

theorem lookup_setDefault_self (key : String) (value : Json) (fields : List (String × Json)) :
    Dict.lookup key (Fields.setDefault key value fields) =
      some ((Dict.lookup key fields).getD value) := by
  unfold Fields.setDefault
  cases h : Dict.lookup key fields with
  | none => simp [Dict.lookup_write]
  | some j => simp [h]

/-- The collection takes what an entry becomes if it takes the entry. -/
theorem takes_completed (id roomId accountId : String) (fields : List (String × Json)) :
    VectorStore.takes lib (completed id roomId accountId fields) =
      VectorStore.takes lib fields := by
  unfold VectorStore.takes completed
  simp [Dict.lookup_write, Fields.lookup_setDefault, lookup_setDefault_self]

theorem docOfEntry_completed {fields : List (String × Json)}
    (h : VectorStore.takes lib fields = true) (id roomId accountId : String) :
    ∃ doc, docOfEntry lib (.obj (completed id roomId accountId fields)) = some doc := by
  rw [docOfEntry, VectorStore.docOf, takes_completed, if_pos h]
  exact ⟨_, rfl⟩

theorem add_completed (docs : Dict String Doc) (id roomId accountId : String)
    (fields : List (String × Json)) :
    VectorStore.add lib docs (completed id roomId accountId fields) accountId =
      (docOfEntry lib (.obj (completed id roomId accountId fields))).map (docs.set id) := by
  obtain ⟨hid, haccount⟩ := lookup_completed id roomId accountId fields
  have haccount' : Fields.getText "account_id" "" (completed id roomId accountId fields) =
      accountId := by rw [Fields.getText, haccount]
  rw [VectorStore.add, docOfEntry, VectorStore.idOf, hid, haccount']
  cases VectorStore.docOf lib (completed id roomId accountId fields) accountId <;> rfl

/-- The entries are numbered from one on, and the collection has their documents. -/
structure Numbered (o : JsonText) (lib : VectorStore.Library) (s : SemanticStore) : Prop where
  ids : (s.entries o).map entryId =
    (List.range (s.entries o).length).map fun n => some (lessonId (n + 1))
  docs : ∀ id, s.vector.get? id =
    ((s.entries o).find? fun e => entryId e = some id).bind (docOfEntry lib)
  whole : ∀ e ∈ s.entries o, IsRecord o e ∧ e.Unbroken ∧ ∃ doc, docOfEntry lib e = some doc

theorem Numbered.nodup (h : Numbered o lib s) : ((s.entries o).map entryId).Nodup := by
  rw [h.ids]
  refine List.Nodup.map (fun n m hnm => ?_) List.nodup_range
  exact Nat.succ.inj (lessonId_injective (Option.some.inj hnm))

/-- The entry with an id is found by it. -/
theorem find?_entryId {es : List Json} (h : (es.map entryId).Nodup) {e : Json} {id : String} :
    es.find? (fun e => entryId e = some id) = some e ↔ e ∈ es ∧ entryId e = some id := by
  refine ⟨fun hfind => ⟨List.mem_of_find?_eq_some hfind,
    of_decide_eq_true (List.find?_some (p := fun e => decide (entryId e = some id)) hfind)⟩, ?_⟩
  rintro ⟨hmem, hid⟩
  have hsome : (es.find? fun e => decide (entryId e = some id)).isSome := by
    rw [List.find?_isSome]
    exact ⟨e, hmem, decide_eq_true hid⟩
  obtain ⟨e', he'⟩ := Option.isSome_iff_exists.mp hsome
  have hid' : entryId e' = some id :=
    of_decide_eq_true (List.find?_some (p := fun e => decide (entryId e = some id)) he')
  rw [he', List.inj_on_of_nodup_map h (List.mem_of_find?_eq_some he') hmem (hid'.trans hid.symm)]

theorem Numbered.consistent (h : Numbered o lib s) : Consistent o s where
  distinct := h.nodup
  same id content := by
    rw [h.docs, Option.map_eq_some_iff]
    constructor
    · rintro ⟨doc, hfound, hcontent⟩
      obtain ⟨e, hfind, hdoc⟩ := Option.bind_eq_some_iff.mp hfound
      obtain ⟨hmem, hid⟩ := (find?_entryId h.nodup).mp hfind
      exact ⟨e, hmem, hid, content_docOfEntry hdoc ▸ hcontent⟩
    · rintro ⟨e, hmem, hid, hcontent⟩
      obtain ⟨doc, hdoc⟩ := (h.whole e hmem).2.2
      refine ⟨doc, ?_, (content_docOfEntry hdoc).trans hcontent⟩
      rw [(find?_entryId h.nodup).mpr ⟨hmem, hid⟩, Option.bind_some, hdoc]

theorem numbered_empty : Numbered o lib {} where
  ids := rfl
  docs _ := rfl
  whole _ he := absurd he List.not_mem_nil

/-- Entries that are in the collection are added to it without effect. -/
theorem get?_syncEntries {es : List Json} {docs : Dict String Doc}
    (h : ∀ e ∈ es, ∃ fields id, e = .obj fields ∧ entryId e = some id ∧
      ∃ doc, docOfEntry lib e = some doc ∧ docs.get? id = some doc) (k : String) :
    (syncEntries lib es docs).2.get? k = docs.get? k := by
  induction es generalizing docs with
  | nil => rfl
  | cons e es ih =>
    obtain ⟨fields, id, rfl, hid, doc, hdoc, hthere⟩ := h _ List.mem_cons_self
    have hadd : VectorStore.add lib docs fields (Fields.getText "account_id" "" fields) =
        some (docs.set id doc) := by
      have hown : VectorStore.docOf lib fields (Fields.getText "account_id" "" fields) = some doc :=
        hdoc
      rw [VectorStore.add, VectorStore.idOf, entryId_iff.mp hid, hown]
      rfl
    have hsame : ∀ k, (docs.set id doc).get? k = docs.get? k := by
      intro k
      rw [Dict.get?_set]
      split
      · next hk => rw [← hk, hthere]
      · rfl
    rw [syncEntries, hadd]
    refine (ih fun e he => ?_).trans (hsame k)
    obtain ⟨fields', id', heq, hid', doc', hdoc', hthere'⟩ := h e (List.mem_cons_of_mem _ he)
    exact ⟨fields', id', heq, hid', doc', hdoc', (hsame id').trans hthere'⟩

theorem entries_loadAll (j : JsonlStore) (vector : Dict String Doc) (n : Nat) :
    entries o ⟨(j.loadAll o).2, vector, n⟩ = (j.loadAll o).1 := by
  unfold entries JsonlStore.loadAll
  cases hcache : j.cache with
  | some es => simp only [hcache]
  | none => rfl

theorem Numbered.sync (h : Numbered o lib s) : Numbered o lib (s.sync o lib) := by
  have hentries : (s.sync o lib).entries o = s.entries o := by
    unfold SemanticStore.sync
    dsimp only
    split
    · exact entries_loadAll _ _ _
    · exact entries_loadAll _ _ _
  refine ⟨hentries ▸ h.ids, fun id => ?_, hentries ▸ h.whole⟩
  rw [hentries, ← h.docs]
  unfold SemanticStore.sync
  dsimp only
  split
  · rfl
  · refine get?_syncEntries (fun e he => ?_) id
    have hmem : e ∈ s.entries o := List.mem_of_mem_drop he
    obtain ⟨fields, rfl⟩ := (h.whole e hmem).1.object
    obtain ⟨id, hid⟩ : ∃ id, entryId (.obj fields) = some id := by
      have hnumber := List.mem_map_of_mem (f := entryId) hmem
      rw [h.ids] at hnumber
      obtain ⟨n, _, hn⟩ := List.mem_map.mp hnumber
      exact ⟨_, hn.symm⟩
    obtain ⟨doc, hdoc⟩ := (h.whole _ hmem).2.2
    refine ⟨fields, id, rfl, hid, doc, hdoc, ?_⟩
    rw [h.docs, (find?_entryId h.nodup).mpr ⟨hmem, hid⟩, Option.bind_some, hdoc]

/-- A file that has been written with one entry more, and the collection with its document. -/
theorem Numbered.appended (h : Numbered o lib s) {fields : List (String × Json)}
    (hid : entryId (.obj fields) = some (lessonId ((s.entries o).length + 1)))
    (hfields : IsRecord o (.obj fields) ∧ (Json.obj fields).Unbroken) {doc : Doc}
    (hdoc : docOfEntry lib (.obj fields) = some doc) (n : Nat) :
    Numbered o lib ⟨⟨none, some (joinRecords o (s.entries o ++ [.obj fields]))⟩,
      s.vector.set (lessonId ((s.entries o).length + 1)) doc, n⟩ := by
  have hwhole : ∀ e ∈ s.entries o ++ [.obj fields],
      IsRecord o e ∧ e.Unbroken ∧ ∃ doc, docOfEntry lib e = some doc := by
    intro e he
    rcases List.mem_append.mp he with he | he
    · exact h.whole e he
    · exact List.mem_singleton.mp he ▸ ⟨hfields.1, hfields.2, doc, hdoc⟩
  have hentries : ∀ vector n, entries o
      ⟨⟨none, some (joinRecords o (s.entries o ++ [.obj fields]))⟩, vector, n⟩ =
        s.entries o ++ [.obj fields] := by
    intro vector n
    refine (load_joinRecords _).trans (flatMap_pieces (fun e he => (hwhole e he).1) fun e he => ?_)
    exact (hwhole e he).2.1
  have hfresh : ∀ e ∈ s.entries o, entryId e ≠ some (lessonId ((s.entries o).length + 1)) := by
    intro e he heq
    have hnumber := List.mem_map_of_mem (f := entryId) he
    rw [h.ids, heq] at hnumber
    obtain ⟨k, hk, hlesson⟩ := List.mem_map.mp hnumber
    have hkey : k + 1 = (s.entries o).length + 1 := lessonId_injective (Option.some.inj hlesson)
    exact absurd (List.mem_range.mp hk) (by omega)
  refine ⟨?_, fun id => ?_, by rw [hentries]; exact hwhole⟩
  · rw [hentries, List.map_append, h.ids, List.length_append, List.length_singleton,
      List.range_succ, List.map_append, List.map_singleton, List.map_singleton, hid]
  · rw [hentries, Dict.get?_set, List.find?_append]
    split
    · next heq =>
      subst heq
      rw [List.find?_eq_none.mpr fun e he hsame => hfresh e he (of_decide_eq_true hsame),
        Option.none_or, List.find?_singleton, if_pos (decide_eq_true hid), Option.bind_some, hdoc]
    · next hne =>
      have hother : decide (entryId (.obj fields) = some id) = false :=
        decide_eq_false fun heq => hne (Option.some.inj (hid.symm.trans heq))
      rw [List.find?_singleton, hother, if_neg Bool.false_ne_true, Option.or_none]
      exact h.docs id

theorem Numbered.added (h : Numbered o lib s) {fields : List (String × Json)}
    {roomId accountId : String}
    (hfits : Fits o lib maxEntries s (.add fields roomId accountId)) :
    Numbered o lib (s.add o lib maxEntries fields roomId accountId) := by
  have hload : (s.jsonl.loadAll o).1 = s.entries o := rfl
  unfold SemanticStore.add
  dsimp only
  rw [hload]
  have hsame : Numbered o lib { s with jsonl := (s.jsonl.loadAll o).2 } := by
    have hentries := entries_loadAll (o := o) s.jsonl s.vector s.syncedCount
    exact ⟨hentries ▸ h.ids, hentries ▸ h.docs, hentries ▸ h.whole⟩
  rcases hfits with ⟨content, hcontent, hdup⟩ | ⟨htakes, hroom, hfields⟩
  · have htext : Fields.getText "content" "" fields = content := by rw [Fields.getText, hcontent]
    rw [htext, hdup]
    exact hsame
  · split
    · exact hsame
    · exact hsame
    · obtain ⟨doc, hdoc⟩ :=
        docOfEntry_completed htakes (lessonId ((s.entries o).length + 1)) roomId accountId
      rw [JsonlStore.lastEntries, if_neg (by rw [List.length_append, List.length_singleton]; omega),
        add_completed, hdoc]
      exact h.appended (entryId_completed _ _ _ _) hfields hdoc _

end Numbered

/-- As long as every entry that is added fits, the file and the collection agree. -/
theorem run_consistent (o : JsonText) (lib : VectorStore.Library) (maxEntries : Nat)
    (calls : List Call)
    (hfits : Machine.Guarded (step o lib maxEntries) (Fits o lib maxEntries) {} calls) :
    ∀ before, before <+: calls →
      Consistent o (Machine.run (step o lib maxEntries) {} before) := by
  intro before hprefix
  suffices hnumbered : Numbered o lib (Machine.run (step o lib maxEntries) {} before) from
    hnumbered.consistent
  refine (hfits.of_prefix hprefix).inv (Numbered o lib) (fun s c h hc => ?_) numbered_empty
  cases c with
  | add fields roomId accountId => exact h.added hc
  | sync => exact h.sync
  | clear => exact numbered_empty

/-- A lesson, and the entry it becomes as the first. -/
def lesson (content : String) : List (String × Json) := [("content", .str content)]

def lessonEntry (n : Nat) (content : String) : Json :=
  .obj (completed (lessonId n) "" "" (lesson content))

theorem one_lesson_consistent :
    Consistent (.ofTable plainWriter [lessonEntry 1 "tea"])
      (Machine.run (step (.ofTable plainWriter [lessonEntry 1 "tea"]) .plain 1) {}
        [.add (lesson "tea") "" "", .sync]) := by
  refine run_consistent (.ofTable plainWriter [lessonEntry 1 "tea"]) .plain 1
    [.add (lesson "tea") "" "", .sync]
    ⟨.inr ⟨rfl, Nat.one_pos, isRecord_ofTable rfl, ?_⟩, trivial, trivial⟩ _ (List.prefix_refl _)
  exact unbroken_of_all rfl

/-- The lesson that a second one drops from the file stays in the collection. -/
theorem dropped_lesson_kept :
    ¬ ∀ (o : JsonText) (lib : VectorStore.Library) (maxEntries : Nat) (calls : List Call),
      1 ≤ maxEntries → Consistent o (Machine.run (step o lib maxEntries) {} calls) := by
  intro h
  have hsame := (h (.ofTable plainWriter [lessonEntry 1 "tea", lessonEntry 2 "cake"]) .plain 1
    [.add (lesson "tea") "" "", .add (lesson "cake") "" ""] (Nat.le_refl 1)).same
    (lessonId 1) "tea"
  obtain ⟨e, he, hid, _⟩ := hsame.mp rfl
  have hentries : entries (.ofTable plainWriter [lessonEntry 1 "tea", lessonEntry 2 "cake"])
      (Machine.run
        (step (.ofTable plainWriter [lessonEntry 1 "tea", lessonEntry 2 "cake"]) .plain 1) {}
        [.add (lesson "tea") "" "", .add (lesson "cake") "" ""]) = [lessonEntry 2 "cake"] := rfl
  rw [hentries, List.mem_singleton] at he
  rw [he, lessonEntry, entryId_completed, Option.some.injEq] at hid
  exact absurd (lessonId_injective hid) (by decide)

end SemanticStore

end IrisMind.Memory
