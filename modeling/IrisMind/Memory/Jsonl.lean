import Mathlib.Data.List.Nodup
import IrisMind.Lib.JsonText

/-! # One record a line

The memory stores and the conversation archive keep their records as JSON, one a
line, and read them back line by line. They end a record with a newline and look
for every line boundary there is, so a record that has another one in a text
falls to pieces, of which none is the record. -/
namespace IrisMind.Memory
open IrisMind.Lib

section Stores

variable (o : JsonText)

/-- The loop of the `load_all`s: what is blank or no JSON is skipped. -/
def readLines (lines : List (List Char)) : List Json :=
  lines.filterMap fun line => if Text.isBlank line then none else o.loads line

/-- The records, with newlines between them. -/
def joinRecords (entries : List Json) : List Char := ['\n'].intercalate (entries.map o.dumps)

/-- A `_JsonlStore`: its cache and its file. -/
structure JsonlStore where
  cache : Option (List Json) := none
  file : Option (List Char) := none

namespace JsonlStore

def loadAll (s : JsonlStore) : List Json × JsonlStore :=
  match s.cache with
  | some entries => (entries, s)
  | none =>
    let entries := match s.file with
      | none => []
      | some text => readLines o (Text.splitlines (Text.readText text))
    (entries, { s with cache := some entries })

/-- Nothing is left when the assertion fails that there is a cache. -/
def flush (s : JsonlStore) : Option JsonlStore :=
  s.cache.map fun entries => { cache := none, file := some (joinRecords o entries) }

/-- The slice that is kept of a list with more than `maxEntries` entries. -/
def lastEntries (maxEntries : Nat) (entries : List Json) : List Json :=
  if maxEntries < entries.length then
    if maxEntries = 0 then entries else entries.drop (entries.length - maxEntries)
  else entries

def addEntry (s : JsonlStore) (entry : Json) (maxEntries : Nat) : Option JsonlStore :=
  let (entries, s) := s.loadAll o
  flush o { s with cache := some (lastEntries maxEntries (entries ++ [entry])) }

end JsonlStore

namespace RawConversationArchiveStore

/-- The text an append leaves in the file it selects. -/
def appendLocked (file : List Char) (payload : Json) : List Char :=
  file ++ o.dumps payload ++ ['\n']

/-- What is read of the files, in the order of their names. -/
def loadAll (files : List (List Char)) : List Json :=
  files.flatMap fun text => readLines o (Text.splitlines (Text.readText text))

end RawConversationArchiveStore

/-- A record: an object that is read as it was written. -/
structure IsRecord (r : Json) : Prop where
  object : ∃ fields, r = .obj fields
  reads : o.loads (o.dumps r) = some r

end Stores

/-! ## Pieces of records -/

/-- What is read of a record that is cut at its line boundaries. -/
def pieces (o : JsonText) (r : Json) : List Json :=
  readLines o ((o.dumps r).splitOnP Text.isBoundary)

variable {o : JsonText} {r : Json} {rs : List Json}

theorem readLines_append (ls ls' : List (List Char)) :
    readLines o (ls ++ ls') = readLines o ls ++ readLines o ls' := List.filterMap_append

theorem readLines_blank : readLines o [[]] = [] := rfl

theorem not_mem_dumps {c : Char} (hline : Text.isBoundary c = true)
    (hbreak : Text.isBreak c = false) (r : Json) : c ∉ o.dumps r := fun hc => by
  cases (JsonWriter.boundary_of_mem_dumps hc hline).1.symm.trans hbreak

/-- A file without carriage returns is cut at its line boundaries. -/
theorem readLines_splitlines {text : List Char} (h : '\r' ∉ text) :
    readLines o (Text.splitlines (Text.readText text)) =
      readLines o (text.splitOnP Text.isBoundary) := by
  rw [Text.readText_eq h]
  rcases Text.splitlines_or h with hsame | hmore
  · rw [hsame]
  · rw [hmore, readLines_append, readLines_blank, List.append_nil]

theorem joinRecords_one (r : Json) : joinRecords o [r] = o.dumps r := by
  simp [joinRecords, List.intercalate]

theorem joinRecords_cons (r r' : Json) (rs : List Json) :
    joinRecords o (r :: r' :: rs) = o.dumps r ++ '\n' :: joinRecords o (r' :: rs) := by
  simp [joinRecords, List.intercalate]

theorem no_return_joinRecords (rs : List Json) : '\r' ∉ joinRecords o rs := by
  have hone : ∀ r, '\r' ∉ o.dumps r := not_mem_dumps (by decide) (by decide)
  induction rs with
  | nil => exact List.not_mem_nil
  | cons r rs ih =>
    cases rs with
    | nil =>
      rw [joinRecords_one]
      exact hone r
    | cons r' rs =>
      rw [joinRecords_cons]
      simp [hone, ih]

theorem readLines_joinRecords (rs : List Json) :
    readLines o ((joinRecords o rs).splitOnP Text.isBoundary) = rs.flatMap (pieces o) := by
  induction rs with
  | nil => rfl
  | cons r rs ih =>
    cases rs with
    | nil =>
      rw [joinRecords_one, List.flatMap_singleton]
      rfl
    | cons r' rs =>
      rw [joinRecords_cons, List.splitOnP_append_cons _ _ Text.isBoundary_newline,
        readLines_append, ih]
      rfl

theorem load_joinRecords (rs : List Json) :
    readLines o (Text.splitlines (Text.readText (joinRecords o rs))) = rs.flatMap (pieces o) := by
  rw [readLines_splitlines (no_return_joinRecords rs), readLines_joinRecords]

/-- The text of a file that only appends have written. -/
def appended (o : JsonText) (rs : List Json) : List Char :=
  rs.flatMap fun r => o.dumps r ++ ['\n']

theorem foldl_appendLocked (rs : List Json) (file : List Char) :
    rs.foldl (RawConversationArchiveStore.appendLocked o) file = file ++ appended o rs := by
  induction rs generalizing file with
  | nil => exact (List.append_nil file).symm
  | cons r rs ih =>
    rw [List.foldl_cons, ih, RawConversationArchiveStore.appendLocked, appended, appended,
      List.flatMap_cons, List.append_assoc, List.append_assoc, List.append_assoc]

theorem readLines_appended : ∀ rs : List Json,
    '\r' ∉ appended o rs ∧
      readLines o ((appended o rs).splitOnP Text.isBoundary) = rs.flatMap (pieces o)
  | [] => ⟨List.not_mem_nil, rfl⟩
  | r :: rs => by
    obtain ⟨hreturn, ih⟩ := readLines_appended rs
    have hcons : appended o (r :: rs) = o.dumps r ++ '\n' :: appended o rs := by
      simp [appended]
    rw [hcons]
    constructor
    · simp [not_mem_dumps (o := o) (c := '\r') (by decide) (by decide) r, hreturn]
    · rw [List.splitOnP_append_cons _ _ Text.isBoundary_newline, readLines_append, ih]
      rfl

theorem loadAll_appended (rs : List Json) :
    RawConversationArchiveStore.loadAll o
      [rs.foldl (RawConversationArchiveStore.appendLocked o) []] = rs.flatMap (pieces o) := by
  obtain ⟨hreturn, hlines⟩ := readLines_appended (o := o) rs
  rw [foldl_appendLocked, List.nil_append, RawConversationArchiveStore.loadAll,
    List.flatMap_singleton, readLines_splitlines hreturn, hlines]

theorem loadAll_flush (s : JsonlStore) (rs : List Json) :
    (JsonlStore.flush o { s with cache := some rs }).map (fun t => (t.loadAll o).1) =
      some (rs.flatMap (pieces o)) := congrArg some (load_joinRecords rs)

/-! ## Records that are lost -/

theorem mem_readLines {v : Json} {lines : List (List Char)} :
    v ∈ readLines o lines → ∃ line ∈ lines, o.loads line = some v := by
  intro h
  obtain ⟨line, hline, hv⟩ := List.mem_filterMap.mp h
  split at hv
  · cases hv
  · exact ⟨line, hline, hv⟩

theorem IsRecord.not_blank (h : IsRecord o r) : Text.isBlank (o.dumps r) = false := by
  obtain ⟨fields, rfl⟩ := h.object
  exact Text.isBlank_of_head (c := '{') (by decide) _

theorem IsRecord.readLine (h : IsRecord o r) : readLines o [o.dumps r] = [r] := by
  simp [readLines, h.not_blank, h.reads]

theorem IsRecord.pieces_eq (h : IsRecord o r) (hu : r.Unbroken) : pieces o r = [r] := by
  rw [pieces, List.splitOnP_eq_singleton (JsonWriter.unbroken_iff.mp hu)]
  exact h.readLine

/-- What is read of a value is whole, and can be written and read again. -/
theorem mem_pieces {v : Json} (hr : o.loads (o.dumps r) = some r) (hv : v ∈ pieces o r) :
    v.Unbroken ∧ o.loads (o.dumps v) = some v := by
  obtain ⟨piece, hpiece, hloads⟩ := mem_readLines hv
  exact ⟨JsonText.unbroken_of_piece hr hpiece hloads, o.loads_again hloads⟩

theorem flatMap_pieces (h : ∀ r ∈ rs, IsRecord o r) (hu : ∀ r ∈ rs, r.Unbroken) :
    rs.flatMap (pieces o) = rs := by
  induction rs with
  | nil => rfl
  | cons r rs ih =>
    rw [List.flatMap_cons, (h r List.mem_cons_self).pieces_eq (hu r List.mem_cons_self),
      ih (fun r hr => h r (List.mem_cons_of_mem _ hr)) fun r hr => hu r (List.mem_cons_of_mem _ hr)]
    rfl

theorem unbroken_of_mem_flatMap (h : ∀ r ∈ rs, o.loads (o.dumps r) = some r) {v : Json}
    (hv : v ∈ rs.flatMap (pieces o)) : v.Unbroken ∧ o.loads (o.dumps v) = some v := by
  obtain ⟨r, hr, hv⟩ := List.mem_flatMap.mp hv
  exact mem_pieces (h r hr) hv

/-- Records come back exactly if none of them has a line boundary beyond ASCII in a text. -/
theorem flatMap_pieces_iff (h : ∀ r ∈ rs, IsRecord o r) :
    rs.flatMap (pieces o) = rs ↔ ∀ r ∈ rs, r.Unbroken := by
  refine ⟨fun hsame r hr => ?_, flatMap_pieces h⟩
  rw [← hsame] at hr
  exact (unbroken_of_mem_flatMap (fun r hr => (h r hr).reads) hr).1

theorem mem_lastEntries {n : Nat} {entries : List Json} {v : Json}
    (h : v ∈ JsonlStore.lastEntries n entries) : v ∈ entries := by
  unfold JsonlStore.lastEntries at h
  split at h
  · split at h
    · exact h
    · exact List.mem_of_mem_drop h
  · exact h

/-- A later write keeps the records and adds its own exactly if all of them are whole. -/
theorem addEntry_iff (h : ∀ r ∈ rs, IsRecord o r) {entry : Json} (hentry : IsRecord o entry)
    {maxEntries : Nat} (hmax : rs.length < maxEntries) (s : JsonlStore) :
    ((JsonlStore.flush o { s with cache := some rs }).bind fun t =>
        (t.addEntry o entry maxEntries).map fun u => (u.loadAll o).1) = some (rs ++ [entry]) ↔
      ∀ r ∈ rs ++ [entry], r.Unbroken := by
  have hrecords : ∀ r ∈ rs ++ [entry], IsRecord o r := by
    intro r hr
    rcases List.mem_append.mp hr with hr | hr
    · exact h r hr
    · rw [List.mem_singleton.mp hr]
      exact hentry
  have hload : ((JsonlStore.flush o { s with cache := some rs }).bind fun t =>
      (t.addEntry o entry maxEntries).map fun u => (u.loadAll o).1) =
      some ((JsonlStore.lastEntries maxEntries (rs.flatMap (pieces o) ++ [entry])).flatMap
        (pieces o)) := by
    have hread := load_joinRecords (o := o) rs
    have hagain := load_joinRecords (o := o)
      (JsonlStore.lastEntries maxEntries (rs.flatMap (pieces o) ++ [entry]))
    rw [← hread] at hagain ⊢
    exact congrArg some hagain
  rw [hload, Option.some.injEq]
  constructor
  · intro hsame r hr
    rw [← hsame] at hr
    refine (unbroken_of_mem_flatMap (fun v hv => ?_) hr).1
    rcases List.mem_append.mp (mem_lastEntries hv) with hv | hv
    · exact (unbroken_of_mem_flatMap (fun r hr => (h r hr).reads) hv).2
    · rw [List.mem_singleton.mp hv]
      exact hentry.reads
  · intro hu
    have hall : JsonlStore.lastEntries maxEntries (rs ++ [entry]) = rs ++ [entry] := by
      refine if_neg ?_
      rw [List.length_append, List.length_singleton]
      omega
    rw [flatMap_pieces h fun r hr => hu r (List.mem_append_left _ hr), hall]
    exact flatMap_pieces hrecords hu

/-- What a `_JsonlStore` has flushed, what an archive has appended, and what is there after a
later write, is read as it was written exactly if no text of a record has a line boundary beyond
ASCII. -/
theorem read_as_written_iff (o : JsonText) (rs : List Json) (h : ∀ r ∈ rs, IsRecord o r)
    (s : JsonlStore) :
    ((JsonlStore.flush o { s with cache := some rs }).map (fun t => (t.loadAll o).1) = some rs ↔
      ∀ r ∈ rs, r.Unbroken) ∧
    (RawConversationArchiveStore.loadAll o
        [rs.foldl (RawConversationArchiveStore.appendLocked o) []] = rs ↔
      ∀ r ∈ rs, r.Unbroken) ∧
    ∀ entry maxEntries, IsRecord o entry → rs.length < maxEntries →
      (((JsonlStore.flush o { s with cache := some rs }).bind fun t =>
          (t.addEntry o entry maxEntries).map fun u => (u.loadAll o).1) = some (rs ++ [entry]) ↔
        ∀ r ∈ rs ++ [entry], r.Unbroken) := by
  rw [loadAll_flush, loadAll_appended, Option.some.injEq]
  exact ⟨flatMap_pieces_iff h, flatMap_pieces_iff h, fun _ _ he hmax => addEntry_iff h he hmax s⟩

def plainWriter : JsonWriter where
  float _ := ['0']
  float_plain _ c hc := by
    rw [List.mem_singleton.mp hc]
    decide

/-- A record of a memory. -/
def memo : Json := .obj [("content", .str "tea at five")]

/-- The same with a line separator in its text. -/
def brokenMemo : Json := .obj [("content", .str "tea\u2028at five")]

theorem isRecord_ofTable {r : Json} {fields : List (String × Json)} (h : r = .obj fields) :
    IsRecord (.ofTable plainWriter [r]) r where
  object := ⟨fields, h⟩
  reads := by simp [JsonText.ofTable]

/-- Records that are written in different lines are told apart. -/
theorem isRecord_of_mem_table {table : List Json} (h : (table.map plainWriter.dumps).Nodup)
    {r : Json} {fields : List (String × Json)} (hr : r ∈ table) (hobject : r = .obj fields) :
    IsRecord (.ofTable plainWriter table) r where
  object := ⟨fields, hobject⟩
  reads := by
    have hsome : (table.find? fun j => plainWriter.dumps j = plainWriter.dumps r).isSome = true :=
      List.find?_isSome.mpr ⟨r, hr, by simp⟩
    obtain ⟨j, hj⟩ := Option.isSome_iff_exists.mp hsome
    have hsame : plainWriter.dumps j = plainWriter.dumps r := by simpa using List.find?_some hj
    exact hj.trans (congrArg some
      (List.inj_on_of_nodup_map h (List.mem_of_find?_eq_some hj) hr hsame))

theorem unbroken_of_all {j : Json}
    (h : (j.texts.all fun s => s.toList.all fun c => !Text.isBreak c) = true) : j.Unbroken := by
  intro s hs c hc
  have hs := List.all_eq_true.mp h s hs
  exact Bool.not_eq_true' _ ▸ List.all_eq_true.mp hs c hc

theorem memo_unbroken : memo.Unbroken := unbroken_of_all rfl

/-- A record without such a line boundary is read as it was written, also after a later write. -/
theorem memo_read_as_written :
    RawConversationArchiveStore.loadAll (.ofTable plainWriter [memo])
      [[memo].foldl (RawConversationArchiveStore.appendLocked (.ofTable plainWriter [memo])) []] =
        [memo] ∧
    ((JsonlStore.flush (.ofTable plainWriter [memo]) { cache := some [memo] }).bind fun t =>
      (t.addEntry (.ofTable plainWriter [memo]) memo 2).map fun u =>
        (u.loadAll (.ofTable plainWriter [memo])).1) = some [memo, memo] := by
  have hrecord : IsRecord (.ofTable plainWriter [memo]) memo := isRecord_ofTable rfl
  have hrecords : ∀ r ∈ [memo], IsRecord (.ofTable plainWriter [memo]) r := by
    intro r hr
    rw [List.mem_singleton.mp hr]
    exact hrecord
  have hunbroken : ∀ r ∈ [memo, memo], r.Unbroken := by
    intro r hr
    rw [show r = memo by simpa using hr]
    exact memo_unbroken
  obtain ⟨_, happended, hlater⟩ := read_as_written_iff (.ofTable plainWriter [memo]) [memo]
    hrecords {}
  refine ⟨happended.mpr fun r hr => hunbroken r (List.mem_cons_of_mem _ hr), ?_⟩
  exact (hlater memo 2 hrecord (by decide)).mpr hunbroken

/-- The lines of the record are no JSON, so nothing is read. -/
theorem brokenMemo_lost :
    ¬ ∀ (o : JsonText) (rs : List Json) (s : JsonlStore), (∀ r ∈ rs, IsRecord o r) →
      (JsonlStore.flush o { s with cache := some rs }).map (fun t => (t.loadAll o).1) = some rs ∧
      RawConversationArchiveStore.loadAll o
        [rs.foldl (RawConversationArchiveStore.appendLocked o) []] = rs := by
  intro h
  have hflushed : (JsonlStore.flush (.ofTable plainWriter [brokenMemo])
      { cache := some [brokenMemo] }).map
        (fun t => (t.loadAll (.ofTable plainWriter [brokenMemo])).1) = some [] := rfl
  have hsame := (h (.ofTable plainWriter [brokenMemo]) [brokenMemo] {} fun r hr => by
    rw [List.mem_singleton.mp hr]
    exact isRecord_ofTable rfl).1
  cases hflushed.symm.trans hsame

/-! ## The account store -/

theorem dumps_ends (h : IsRecord o r) :
    (∃ rest, o.dumps r = '{' :: rest) ∧ ∃ front, o.dumps r = front ++ ['}'] := by
  obtain ⟨fields, rfl⟩ := h.object
  refine ⟨⟨_, rfl⟩, '{' :: (Json.fieldTokens o.float fields).flatMap JsonToken.write, ?_⟩
  simp [JsonWriter.dumps, Json.tokens, JsonToken.write]

theorem joinRecords_ends : ∀ {rs : List Json}, rs ≠ [] → (∀ r ∈ rs, IsRecord o r) →
    (∃ rest, joinRecords o rs = '{' :: rest) ∧ ∃ front, joinRecords o rs = front ++ ['}']
  | [], hne, _ => absurd rfl hne
  | [r], _, h => by
    rw [joinRecords_one]
    exact dumps_ends (h r List.mem_cons_self)
  | r :: r' :: rs, _, h => by
    obtain ⟨⟨rest, hrest⟩, _⟩ := dumps_ends (h r List.mem_cons_self)
    obtain ⟨_, front, hfront⟩ := joinRecords_ends (List.cons_ne_nil r' rs)
      fun r hr => h r (List.mem_cons_of_mem _ hr)
    rw [joinRecords_cons]
    refine ⟨⟨rest ++ '\n' :: joinRecords o (r' :: rs), by rw [hrest]; rfl⟩,
      o.dumps r ++ '\n' :: front, ?_⟩
    rw [hfront, List.append_assoc]
    rfl

theorem splitOn_joinRecords : ∀ {rs : List Json}, rs ≠ [] →
    (joinRecords o rs).splitOn '\n' = rs.map o.dumps
  | [], hne => absurd rfl hne
  | r :: rs, _ => by
    have hnone : ∀ c ∈ o.dumps r, (c == '\n') = false := by
      intro c hc
      refine beq_eq_false_iff_ne.mpr ?_
      rintro rfl
      exact not_mem_dumps (by decide) (by decide) r hc
    rw [List.splitOn_eq_splitOnP]
    cases rs with
    | nil =>
      rw [joinRecords_one]
      exact List.splitOnP_eq_singleton hnone
    | cons r' rs =>
      have ih := splitOn_joinRecords (List.cons_ne_nil r' rs)
      have hsplit := List.splitOnP_append_cons_of_forall_mem hnone '\n' rfl
        (joinRecords o (r' :: rs))
      rw [joinRecords_cons, hsplit]
      exact congrArg (List.cons (o.dumps r)) ih

end IrisMind.Memory
