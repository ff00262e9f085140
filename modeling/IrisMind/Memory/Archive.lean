import IrisMind.Memory.Jsonl
import IrisMind.Lib.Digits
import IrisMind.Lib.Machine
import Mathlib.Algebra.GroupWithZero.Nat
import Mathlib.Data.List.Sort

/-! # The conversation archive

The archive appends to files that are named after the day, with a counter for
the files of a day after the first. Which file is the latest, which are the
oldest and in which order they are read is decided by the order of the names as
text; it is the order in which the files were made as long as the counter has
two digits. -/
namespace IrisMind.Memory
open IrisMind.Lib IrisMind.Lib.Digits

/-- A date as `%Y-%m-%d` writes it. -/
structure Date where
  year : Nat
  month : Nat
  day : Nat
  year_lt : year < 10 ^ 4
  month_lt : month < 10 ^ 2
  day_lt : day < 10 ^ 2
deriving DecidableEq

namespace Date

def number (d : Date) : Nat := d.year * 10000 + d.month * 100 + d.day

instance : LE Date := ⟨fun d e => d.number ≤ e.number⟩

theorem le_refl (d : Date) : d ≤ d := Nat.le_refl d.number

def text (d : Date) : List Char :=
  padded 4 d.year ++ '-' :: (padded 2 d.month ++ '-' :: padded 2 d.day)

theorem eq_of_number {d e : Date} (h : d.number = e.number) : d = e := by
  obtain ⟨y, m, k, hy, hm, hk⟩ := d
  obtain ⟨y', m', k', hy', hm', hk'⟩ := e
  simp only [number] at h
  obtain ⟨rfl, rfl, rfl⟩ : y = y' ∧ m = m' ∧ k = k' := by omega
  rfl

theorem length_text (d : Date) : d.text.length = 10 := by
  rw [text, List.length_append, List.length_cons, List.length_append, List.length_cons,
    length_padded (by decide) d.year_lt, length_padded (by decide) d.month_lt,
    length_padded (by decide) d.day_lt]

theorem text_lt {d e : Date} (h : d.number < e.number) : d.text < e.text := by
  have hyears : (padded 4 d.year).length = (padded 4 e.year).length := by
    rw [length_padded (by decide) d.year_lt, length_padded (by decide) e.year_lt]
  have hmonths : (padded 2 d.month).length = (padded 2 e.month).length := by
    rw [length_padded (by decide) d.month_lt, length_padded (by decide) e.month_lt]
  have hdays := d.day_lt
  have hdays' := e.day_lt
  have hm := d.month_lt
  have hm' := e.month_lt
  have hcases : d.year < e.year ∨ d.year = e.year ∧
      (d.month < e.month ∨ d.month = e.month ∧ d.day < e.day) := by
    simp only [number] at h
    omega
  rw [text, text, append_lt_append hyears, List.cons_lt_cons_iff, append_lt_append hmonths,
    List.cons_lt_cons_iff]
  rcases hcases with hyear | ⟨hyear, hmonth | ⟨hmonth, hday⟩⟩
  · exact .inl (padded_lt_padded (by decide) e.year_lt hyear)
  · exact .inr ⟨congrArg _ hyear, .inr ⟨rfl, .inl (padded_lt_padded (by decide) e.month_lt hmonth)⟩⟩
  · exact .inr ⟨congrArg _ hyear, .inr ⟨rfl, .inr ⟨congrArg _ hmonth,
      .inr ⟨rfl, padded_lt_padded (by decide) e.day_lt hday⟩⟩⟩⟩

theorem text_injective {d e : Date} (h : d.text = e.text) : d = e := by
  refine eq_of_number (Nat.le_antisymm (Nat.not_lt.mp fun hlt => ?_) (Nat.not_lt.mp fun hlt => ?_))
  · exact List.lt_irrefl d.text (by simpa only [h] using text_lt hlt)
  · exact List.lt_irrefl d.text (by simpa only [h] using text_lt hlt)

end Date

/-- `2026-03-01.jsonl`, or `2026-03-01_02.jsonl` with a counter. -/
structure FileName where
  date : Date
  counter : Option Nat
deriving DecidableEq

namespace FileName

def suffix : Option Nat → List Char
  | none => ['.', 'j', 's', 'o', 'n', 'l']
  | some n => '_' :: (padded 2 n ++ ['.', 'j', 's', 'o', 'n', 'l'])

def text (name : FileName) : List Char := name.date.text ++ suffix name.counter

/-- The number of a file among those of its day. -/
def rank (name : FileName) : Nat := name.counter.getD 0

/-- A file that is made before another one. -/
def Before (m n : FileName) : Prop :=
  m.date.number < n.date.number ∨ m.date = n.date ∧ m.rank < n.rank

variable {m n k : FileName}

theorem Before.trans (h : m.Before n) (h' : n.Before k) : m.Before k := by
  rcases h with h | ⟨hdate, h⟩ <;> rcases h' with h' | ⟨hdate', h'⟩
  · exact .inl (Nat.lt_trans h h')
  · exact .inl (hdate' ▸ h)
  · exact .inl (hdate ▸ h')
  · exact .inr ⟨hdate.trans hdate', Nat.lt_trans h h'⟩

theorem Before.ne (h : m.Before n) : m ≠ n := by
  rintro rfl
  rcases h with h | ⟨_, h⟩ <;> exact Nat.lt_irrefl _ h

theorem Before.date_le (h : m.Before n) : m.date ≤ n.date := by
  rcases h with h | ⟨hdate, _⟩
  · exact Nat.le_of_lt h
  · exact hdate ▸ Nat.le_refl m.date.number

/-- With counters of two digits the names are ordered as the files are made. -/
theorem Before.text_lt (h : m.Before n) (hn : n.rank < 100) : m.text < n.text := by
  rw [text, text, append_lt_append (by rw [Date.length_text, Date.length_text])]
  rcases h with h | ⟨hdate, h⟩
  · exact .inl (Date.text_lt h)
  · refine .inr ⟨congrArg _ hdate, ?_⟩
    obtain ⟨_, _ | i⟩ := m <;> obtain ⟨_, _ | j⟩ := n
    · exact absurd h (Nat.lt_irrefl _)
    · exact List.cons_lt_cons_iff.mpr (.inl (by decide))
    · exact absurd h (Nat.not_lt_zero _)
    · have hi : i < 10 ^ 2 := Nat.lt_trans h hn
      refine List.cons_lt_cons_iff.mpr (.inr ⟨rfl, ?_⟩)
      rw [append_lt_append (by rw [length_padded (by decide) hi, length_padded (by decide) hn])]
      exact .inl (padded_lt_padded (by decide) hn h)

/-- The files of a day are those whose names start with it. -/
theorem isPrefixOf_iff {d : Date} : d.text.isPrefixOf n.text = true ↔ n.date = d := by
  rw [List.isPrefixOf_iff_prefix, text]
  constructor
  · intro h
    have hprefix : d.text <+: n.date.text := by
      refine List.prefix_of_prefix_length_le h (List.prefix_append _ _) ?_
      rw [Date.length_text, Date.length_text]
    have hsame := hprefix.eq_of_length (by rw [Date.length_text, Date.length_text])
    exact (Date.text_injective hsame).symm
  · rintro rfl
    exact List.prefix_append _ _

end FileName

structure ArchivePolicy where
  maxPerFileBytes : Int := 4000000
  keepRecentFiles : Nat := 30

structure ArchiveFile where
  name : FileName
  text : List Char

/-- A call of `append`: the date its clock reads, the record, and how many of the files it is to
remove the file system lets it remove. -/
structure Append where
  date : Date
  payload : Json
  unlinked : Nat

/-- The directory, its files as they were made; and, of which the code keeps nothing, where each
record was written. -/
structure Archive where
  files : List ArchiveFile := []
  history : List (FileName × Json) := []

namespace RawConversationArchiveStore

/-- `sorted(self._root.glob("*.jsonl"))` -/
def sortedFiles (files : List ArchiveFile) : List ArchiveFile :=
  files.insertionSort fun f g => f.name.text ≤ g.name.text

/-- The size of a file in bytes. -/
def size (text : List Char) : Nat := (text.map Char.utf8Size).sum

/-- The counter that is to follow the one of a file. -/
def nextCounter (idx : Nat) (name : FileName) : Nat :=
  match name.counter with
  | some n => max idx (n + 1)
  | none => idx

def selectFile (policy : ArchivePolicy) (date : Date) (files : List ArchiveFile) : FileName :=
  let candidates := (sortedFiles files).filter fun f => date.text.isPrefixOf f.name.text
  match candidates.getLast? with
  | none => ⟨date, none⟩
  | some latest =>
    if policy.maxPerFileBytes ≤ size latest.text then
      ⟨date, some (candidates.foldl (fun idx f => nextCounter idx f.name) 1)⟩
    else latest.name

section Text

variable (o : JsonText)

/-- The file that is opened for appending is made when it is not there. -/
def writeFile (name : FileName) (payload : Json) (files : List ArchiveFile) : List ArchiveFile :=
  if files.any (·.name = name) then
    files.map fun f => if f.name = name then { f with text := appendLocked o f.text payload } else f
  else files ++ [⟨name, appendLocked o [] payload⟩]

/-- `files[:-n]`, which is empty for zero. -/
def allButLast (n : Nat) (files : List ArchiveFile) : List ArchiveFile :=
  if n = 0 then [] else files.take (files.length - n)

def evictOldFiles (policy : ArchivePolicy) (unlinked : Nat) (files : List ArchiveFile) :
    List ArchiveFile :=
  let sorted := sortedFiles files
  if sorted.length ≤ policy.keepRecentFiles then files
  else
    let old := (allButLast policy.keepRecentFiles sorted).take unlinked
    files.filter fun f => f.name ∉ old.map (·.name)

def append (policy : ArchivePolicy) (a : Archive) (i : Append) : Archive :=
  let name := selectFile policy i.date a.files
  { files := evictOldFiles policy i.unlinked (writeFile o name i.payload a.files)
    history := a.history ++ [(name, i.payload)] }

/-- What `load_all` reads. -/
def loadFiles (a : Archive) : List Json := loadAll o ((sortedFiles a.files).map (·.text))

end Text

/-! ## What the archive is for -/

/-- The records whose files are still there. -/
def retained (a : Archive) : List (FileName × Json) :=
  a.history.filter fun h => a.files.any (·.name = h.1)

/-- The retained records are read in the order in which they were appended; what has been removed
is older than any of them, and the newest file is there. -/
structure Faithful (o : JsonText) (a : Archive) : Prop where
  loads : loadFiles o a = (retained a).map Prod.snd
  oldest : retained a <:+ a.history
  newest : ∀ h, a.history.getLast? = some h → h ∈ retained a

/-- No record is put into a file that has reached the limit. -/
def HasRoom (policy : ArchivePolicy) (a : Archive) (date : Date) : Prop :=
  ∀ f ∈ a.files, f.name = selectFile policy date a.files → size f.text < policy.maxPerFileBytes

/-- No full file of the day has the last counter of two digits, and no text of the record has a
line boundary beyond ASCII. -/
def Fits (policy : ArchivePolicy) (a : Archive) (i : Append) : Prop :=
  (∀ f ∈ a.files, f.name.date = i.date → policy.maxPerFileBytes ≤ size f.text →
    f.name.rank < 99) ∧ i.payload.Unbroken

/-! ## Files in order -/

section Order

variable {policy : ArchivePolicy} {files : List ArchiveFile} {date : Date}

/-- Names in the order in which their files are made, with counters of two digits. -/
structure InOrder (names : List FileName) : Prop where
  before : names.Pairwise FileName.Before
  digits : ∀ n ∈ names, n.rank < 100

theorem InOrder.sorted (h : InOrder (files.map (·.name))) : sortedFiles files = files := by
  refine List.Pairwise.insertionSort_eq
    ((List.pairwise_map.mp h.before).imp_of_mem fun _ hg hlt => ?_)
  exact le_of_lt (hlt.text_lt (h.digits _ (List.mem_map_of_mem hg)))

theorem InOrder.nodup {names : List FileName} (h : InOrder names) : names.Nodup :=
  h.before.imp fun hbefore => hbefore.ne

theorem candidates_eq (h : InOrder (files.map (·.name))) :
    (sortedFiles files).filter (fun f => date.text.isPrefixOf f.name.text) =
      files.filter fun f => f.name.date = date := by
  rw [h.sorted]
  refine List.filter_congr fun f _ => ?_
  rw [Bool.eq_iff_iff, FileName.isPrefixOf_iff, decide_eq_true_eq]

theorem le_nextCounter (idx : Nat) (name : FileName) : idx ≤ nextCounter idx name := by
  unfold nextCounter
  split
  · exact Nat.le_max_left _ _
  · exact Nat.le_refl _

theorem nextCounter_le {idx k : Nat} {name : FileName} (hidx : idx ≤ k) (h : name.rank < k) :
    nextCounter idx name ≤ k := by
  unfold nextCounter
  split
  · next n hn =>
    rw [FileName.rank, hn] at h
    exact Nat.max_le.mpr ⟨hidx, h⟩
  · exact hidx

/-- The counter that follows those of all files. -/
def nextOf (fs : List ArchiveFile) (idx : Nat) : Nat :=
  fs.foldl (fun idx f => nextCounter idx f.name) idx

theorem nextOf_le {k : Nat} (fs : List ArchiveFile) (h : ∀ f ∈ fs, f.name.rank < k) {idx : Nat}
    (hidx : idx ≤ k) : nextOf fs idx ≤ k := by
  induction fs generalizing idx with
  | nil => exact hidx
  | cons f fs ih =>
    exact ih (fun g hg => h g (List.mem_cons_of_mem _ hg))
      (nextCounter_le hidx (h f List.mem_cons_self))

theorem le_nextOf (fs : List ArchiveFile) (idx : Nat) : idx ≤ nextOf fs idx := by
  induction fs generalizing idx with
  | nil => exact Nat.le_refl idx
  | cons f fs ih => exact Nat.le_trans (le_nextCounter idx f.name) (ih _)

theorem lt_nextOf {fs : List ArchiveFile} {f : ArchiveFile} {n : Nat} (hf : f ∈ fs)
    (hn : f.name.counter = some n) (idx : Nat) : n < nextOf fs idx := by
  induction fs generalizing idx with
  | nil => cases hf
  | cons g fs ih =>
    rcases List.mem_cons.mp hf with rfl | hf
    · have hnext : n < nextCounter idx f.name := by
        rw [nextCounter, hn]
        exact Nat.lt_of_lt_of_le (Nat.lt_succ_self n) (Nat.le_max_right _ _)
      exact Nat.lt_of_lt_of_le hnext (le_nextOf fs _)
    · exact ih hf _

/-- The counter that follows those of a day is one more than that of the latest file. -/
theorem nextOf_latest {front : List ArchiveFile} {last : ArchiveFile}
    (hbefore : ∀ f ∈ front, f.name.Before last.name) (hday : last.name.date = date) :
    nextOf (front.filter (fun f => f.name.date = date) ++ [last]) 1 = last.name.rank + 1 := by
  refine Nat.le_antisymm (nextOf_le _ (fun f hf => ?_) (Nat.succ_le_succ (Nat.zero_le _))) ?_
  · rcases List.mem_append.mp hf with hf | hf
    · obtain ⟨hf, hdate⟩ := List.mem_filter.mp hf
      rcases hbefore f hf with hlt | ⟨_, hlt⟩
      · rw [of_decide_eq_true hdate, hday] at hlt
        exact absurd hlt (Nat.lt_irrefl _)
      · exact Nat.lt_succ_of_lt hlt
    · rw [List.mem_singleton.mp hf]
      exact Nat.lt_succ_self _
  · have hmem : last ∈ front.filter (fun f => f.name.date = date) ++ [last] :=
      List.mem_append_right _ (List.mem_singleton_self last)
    unfold FileName.rank
    cases hcounter : last.name.counter with
    | none => exact le_nextOf _ 1
    | some n => exact lt_nextOf hmem hcounter 1

/-- A file that is selected is new or below the limit. -/
theorem selectFile_hasRoom (hnames : (files.map (·.name)).Nodup) {f : ArchiveFile} (hf : f ∈ files)
    (h : f.name = selectFile policy date files) : size f.text < policy.maxPerFileBytes := by
  have hcandidate : f.name.date = date →
      f ∈ (sortedFiles files).filter fun f => date.text.isPrefixOf f.name.text := fun hdate =>
    List.mem_filter.mpr ⟨(List.mem_insertionSort _).mpr hf, FileName.isPrefixOf_iff.mpr hdate⟩
  unfold selectFile at h
  dsimp only at h
  split at h
  · next hnone =>
    rw [List.getLast?_eq_none_iff] at hnone
    exact absurd (hcandidate (congrArg FileName.date h)) (hnone ▸ List.not_mem_nil)
  · next latest hlatest =>
    split at h
    · have hless :=
        lt_nextOf (hcandidate (congrArg FileName.date h)) (congrArg FileName.counter h) 1
      exact absurd hless (Nat.lt_irrefl _)
    · next hsmall =>
      have hmem := List.mem_of_getLast? hlatest
      have hlatest := (List.mem_insertionSort _).mp (List.mem_filter.mp hmem).1
      rw [List.inj_on_of_nodup_map hnames hf hlatest h]
      exact not_le.mp hsmall

variable (policy) in
/-- The file that is selected is the first of a new day, the latest one, or the next. -/
theorem selectFile_cases (h : InOrder (files.map (·.name)))
    (hclock : ∀ f ∈ files, f.name.date ≤ date) :
    (∀ f ∈ files, f.name.date.number < date.number) ∧
        selectFile policy date files = ⟨date, none⟩ ∨
      ∃ front last, files = front ++ [last] ∧ last.name.date = date ∧
        (selectFile policy date files = last.name ∨ policy.maxPerFileBytes ≤ size last.text ∧
          selectFile policy date files = ⟨date, some (last.name.rank + 1)⟩) := by
  unfold selectFile
  rw [candidates_eq h]
  rcases List.eq_nil_or_concat' files with rfl | ⟨front, last, rfl⟩
  · exact .inl ⟨fun _ hf => absurd hf List.not_mem_nil, rfl⟩
  · obtain ⟨_, _, hpairs⟩ := List.pairwise_append.mp (List.pairwise_map.mp h.before)
    have hbefore : ∀ f ∈ front, f.name.Before last.name := fun f hf =>
      hpairs f hf last (List.mem_singleton_self last)
    by_cases hday : last.name.date = date
    · refine .inr ⟨front, last, rfl, hday, ?_⟩
      have hcandidates : (front ++ [last]).filter (fun f => f.name.date = date) =
          front.filter (fun f => f.name.date = date) ++ [last] := by
        rw [List.filter_append, List.filter_singleton, decide_eq_true hday, Bool.cond_true]
      rw [hcandidates]
      dsimp only
      rw [List.getLast?_concat]
      by_cases hfull : policy.maxPerFileBytes ≤ size last.text
      · refine .inr ⟨hfull, ?_⟩
        dsimp only
        rw [if_pos hfull, ← nextOf_latest hbefore hday]
        rfl
      · refine .inl ?_
        dsimp only
        rw [if_neg hfull]
    · have hearlier : last.name.date.number < date.number :=
        Nat.lt_of_le_of_ne (hclock last (List.mem_append_right _ (List.mem_singleton_self last)))
          fun heq => hday (Date.eq_of_number heq)
      have hall : ∀ f ∈ front ++ [last], f.name.date.number < date.number := by
        intro f hf
        rcases List.mem_append.mp hf with hf | hf
        · exact Nat.lt_of_le_of_lt (hbefore f hf).date_le hearlier
        · exact (List.mem_singleton.mp hf) ▸ hearlier
      have hnone : (front ++ [last]).filter (fun f => f.name.date = date) = [] := by
        refine List.filter_eq_nil_iff.mpr fun f hf hdate => ?_
        exact absurd (hall f hf) (of_decide_eq_true hdate ▸ Nat.lt_irrefl _)
      rw [hnone]
      exact .inl ⟨hall, rfl⟩

variable (policy) in
/-- Only oldest files are removed, and not all of them. -/
theorem evictOldFiles_eq (h : InOrder (files.map (·.name))) (unlinked : Nat) :
    ∃ n, (n = 0 ∨ n < files.length) ∧
      evictOldFiles policy unlinked files = files.drop n := by
  unfold evictOldFiles allButLast
  rw [h.sorted]
  dsimp only
  split_ifs with hfew hzero
  · exact ⟨0, .inl rfl, rfl⟩
  · exact ⟨0, .inl rfl, by simp⟩
  · refine ⟨min unlinked (files.length - policy.keepRecentFiles), .inr (by omega), ?_⟩
    rw [List.take_take]
    have hnames := h.nodup
    generalize min unlinked (files.length - policy.keepRecentFiles) = n at *
    rw [← List.take_append_drop n files, List.map_append, List.nodup_append] at hnames
    have hsplit : files.filter (fun f => decide (f.name ∉ (files.take n).map (·.name))) =
        (files.take n ++ files.drop n).filter fun f =>
          decide (f.name ∉ (files.take n).map (·.name)) := by
      rw [List.take_append_drop]
    rw [hsplit, List.filter_append, List.filter_eq_nil_iff.mpr fun f hf hnot => ?_, List.nil_append]
    · refine List.filter_eq_self.mpr fun f hf => decide_eq_true fun hmem => ?_
      exact hnames.2.2 _ hmem _ (List.mem_map_of_mem hf) rfl
    · exact of_decide_eq_true hnot (List.mem_map_of_mem hf)

end Order

/-! ## Records in order -/

section Records

variable {o : JsonText} {policy : ArchivePolicy} {a : Archive}
  {old : List (FileName × Json)} {blocks : List (FileName × List Json)}

def fileOf (o : JsonText) (b : FileName × List Json) : ArchiveFile := ⟨b.1, appended o b.2⟩

def logOf (b : FileName × List Json) : List (FileName × Json) := b.2.map (b.1, ·)

/-- The records that were appended: those of files that have been removed, and those of the files
that are there, each of which holds some. -/
structure Orderly (o : JsonText) (a : Archive) (old : List (FileName × Json))
    (blocks : List (FileName × List Json)) : Prop where
  files : a.files = blocks.map (fileOf o)
  history : a.history = old ++ blocks.flatMap logOf
  order : InOrder (blocks.map Prod.fst)
  gone : ∀ h ∈ old, ∀ b ∈ blocks, h.1.Before b.1
  filled : ∀ b ∈ blocks, b.2 ≠ []
  whole : ∀ b ∈ blocks, ∀ r ∈ b.2, IsRecord o r ∧ r.Unbroken
  kept : blocks = [] → old = []

theorem Orderly.names (h : Orderly o a old blocks) :
    a.files.map (·.name) = blocks.map Prod.fst := by
  rw [h.files, List.map_map]
  rfl

theorem appended_append (rs : List Json) (r : Json) :
    appended o (rs ++ [r]) = appendLocked o (appended o rs) r := by
  simp [appended, appendLocked]

/-- A record in a file of its own. -/
theorem Orderly.written_new (h : Orderly o a old blocks) {name : FileName} {r : Json}
    (hnew : ∀ b ∈ blocks, b.1.Before name) (hrank : name.rank < 100)
    (hr : IsRecord o r ∧ r.Unbroken) :
    Orderly o ⟨writeFile o name r a.files, a.history ++ [(name, r)]⟩ old
      (blocks ++ [(name, [r])]) := by
  have habsent : a.files.any (·.name = name) = false := by
    rw [h.files, List.any_map]
    refine List.any_eq_false.mpr fun b hb hname => ?_
    exact (hnew b hb).ne (of_decide_eq_true hname)
  refine ⟨?_, ?_, ?_, ?_, ?_, ?_, fun hnil => absurd hnil (by simp)⟩
  · rw [writeFile, habsent, if_neg Bool.false_ne_true, h.files, List.map_append, List.map_singleton,
      fileOf, ← List.nil_append [r], appended_append]
    rfl
  · rw [h.history, List.flatMap_append, List.append_assoc]
    rfl
  · rw [List.map_append]
    refine ⟨List.pairwise_append.mpr ⟨h.order.before, List.pairwise_singleton _ _, ?_⟩, ?_⟩
    · intro m hm n hn
      obtain ⟨b, hb, rfl⟩ := List.mem_map.mp hm
      exact List.mem_singleton.mp hn ▸ hnew b hb
    · intro n hn
      rcases List.mem_append.mp hn with hn | hn
      · exact h.order.digits n hn
      · exact List.mem_singleton.mp hn ▸ hrank
  · intro e he b hb
    rcases List.mem_append.mp hb with hb | hb
    · exact h.gone e he b hb
    · rw [List.mem_singleton.mp hb]
      cases blocks with
      | nil =>
        rw [h.kept rfl] at he
        cases he
      | cons c cs =>
        exact (h.gone e he c List.mem_cons_self).trans (hnew c List.mem_cons_self)
  · intro b hb
    rcases List.mem_append.mp hb with hb | hb
    · exact h.filled b hb
    · exact List.mem_singleton.mp hb ▸ List.cons_ne_nil _ _
  · intro b hb
    rcases List.mem_append.mp hb with hb | hb
    · exact h.whole b hb
    · rw [List.mem_singleton.mp hb]
      exact fun r' hr' => List.mem_singleton.mp hr' ▸ hr

/-- A record in the latest file. -/
theorem Orderly.written_last {b : FileName × List Json} (h : Orderly o a old (blocks ++ [b]))
    {r : Json} (hr : IsRecord o r ∧ r.Unbroken) :
    Orderly o ⟨writeFile o b.1 r a.files, a.history ++ [(b.1, r)]⟩ old
      (blocks ++ [(b.1, b.2 ++ [r])]) := by
  have hnames : (blocks ++ [(b.1, b.2 ++ [r])]).map Prod.fst = (blocks ++ [b]).map Prod.fst := by
    rw [List.map_append, List.map_append]
    rfl
  have hothers : ∀ c ∈ blocks, c.1 ≠ b.1 := by
    have hnodup := h.order.nodup
    rw [List.map_append, List.nodup_append] at hnodup
    exact fun c hc => hnodup.2.2 _ (List.mem_map_of_mem hc) _ (List.mem_singleton_self _)
  have hlast : b ∈ blocks ++ [b] := List.mem_append_right _ (List.mem_singleton_self b)
  refine ⟨?_, ?_, hnames ▸ h.order, ?_, ?_, ?_, fun hnil => absurd hnil (by simp)⟩
  · have hany : a.files.any (·.name = b.1) = true := by
      rw [h.files]
      exact List.any_eq_true.mpr ⟨_, List.mem_map_of_mem hlast, decide_eq_true rfl⟩
    rw [writeFile, hany, if_pos rfl, h.files, List.map_map, List.map_append, List.map_append]
    refine congrArg₂ _ (List.map_congr_left fun c hc => if_neg (hothers c hc)) ?_
    have hname : (fileOf o b).name = b.1 := rfl
    rw [List.map_singleton, List.map_singleton, Function.comp_apply, if_pos hname, fileOf, fileOf,
      appended_append]
  · rw [h.history, List.flatMap_append, List.flatMap_append, List.append_assoc, List.append_assoc]
    simp [logOf]
  · intro e he c hc
    rcases List.mem_append.mp hc with hc | hc
    · exact h.gone e he c (List.mem_append_left _ hc)
    · rw [List.mem_singleton.mp hc]
      exact h.gone e he b hlast
  · intro c hc
    rcases List.mem_append.mp hc with hc | hc
    · exact h.filled c (List.mem_append_left _ hc)
    · rw [List.mem_singleton.mp hc]
      exact List.append_ne_nil_of_right_ne_nil _ (List.cons_ne_nil _ _)
  · intro c hc
    rcases List.mem_append.mp hc with hc | hc
    · exact h.whole c (List.mem_append_left _ hc)
    · rw [List.mem_singleton.mp hc]
      intro r' hr'
      rcases List.mem_append.mp hr' with hr' | hr'
      · exact h.whole b hlast r' hr'
      · exact List.mem_singleton.mp hr' ▸ hr

/-- The oldest files are removed. -/
theorem Orderly.evicted (h : Orderly o a old blocks) {n : Nat} (hn : n = 0 ∨ n < blocks.length) :
    Orderly o { a with files := a.files.drop n } (old ++ (blocks.take n).flatMap logOf)
      (blocks.drop n) := by
  have hsplit := h.order.before
  rw [← List.take_append_drop n blocks, List.map_append, List.pairwise_append] at hsplit
  refine ⟨?_, ?_, ?_, ?_, fun b hb => h.filled b (List.mem_of_mem_drop hb),
    fun b hb => h.whole b (List.mem_of_mem_drop hb), fun hnil => ?_⟩
  · rw [h.files, List.map_drop]
  · rw [List.append_assoc, ← List.flatMap_append, List.take_append_drop]
    exact h.history
  · exact ⟨hsplit.2.1, fun m hm => h.order.digits m (by
      rw [List.map_drop] at hm
      exact List.mem_of_mem_drop hm)⟩
  · intro e he b hb
    rcases List.mem_append.mp he with he | he
    · exact h.gone e he b (List.mem_of_mem_drop hb)
    · obtain ⟨c, hc, he⟩ := List.mem_flatMap.mp he
      obtain ⟨r, _, rfl⟩ := List.mem_map.mp he
      exact hsplit.2.2 _ (List.mem_map_of_mem hc) _ (List.mem_map_of_mem hb)
  · have hlength : blocks.length ≤ n := List.drop_eq_nil_iff.mp hnil
    have hzero : n = 0 := hn.resolve_right (Nat.not_lt.mpr hlength)
    subst hzero
    rw [h.kept hnil]
    rfl

/-- A record that fits keeps the files in order. -/
theorem Orderly.written (h : Orderly o a old blocks) {i : Append}
    (hclock : ∀ b ∈ blocks, b.1.date ≤ i.date) (hrecord : IsRecord o i.payload)
    (hfits : Fits policy a i) :
    ∃ blocks', (∀ b ∈ blocks', b.1.date ≤ i.date) ∧
      Orderly o ⟨writeFile o (selectFile policy i.date a.files) i.payload a.files,
        a.history ++ [(selectFile policy i.date a.files, i.payload)]⟩ old blocks' := by
  have hdates : ∀ {bs : List (FileName × List Json)} (name : FileName) (rs : List Json),
      (∀ b ∈ bs, b.1.date ≤ i.date) → name.date ≤ i.date →
        ∀ c ∈ bs ++ [(name, rs)], c.1.date ≤ i.date := by
    intro bs name rs hbs hname c hc
    rcases List.mem_append.mp hc with hc | hc
    · exact hbs c hc
    · exact List.mem_singleton.mp hc ▸ hname
  have hclockFiles : ∀ f ∈ a.files, f.name.date ≤ i.date := by
    intro f hf
    rw [h.files] at hf
    obtain ⟨b, hb, rfl⟩ := List.mem_map.mp hf
    exact hclock b hb
  rcases selectFile_cases policy (h.names ▸ h.order) hclockFiles with
    ⟨hday, hselect⟩ | ⟨front, last, hfiles, hday, hselect⟩
  · rw [hselect]
    have hrank : (⟨i.date, none⟩ : FileName).rank < 100 := Nat.zero_lt_succ _
    refine ⟨blocks ++ [(⟨i.date, none⟩, [i.payload])],
      hdates ⟨i.date, none⟩ _ hclock (Date.le_refl i.date),
      h.written_new (fun b hb => .inl ?_) hrank ⟨hrecord, hfits.2⟩⟩
    exact hday (fileOf o b) (h.files ▸ List.mem_map_of_mem hb)
  · rw [h.files] at hfiles
    obtain ⟨bs, ls, rfl, hfront, hlast⟩ := List.map_eq_append_iff.mp hfiles
    obtain ⟨b, rfl, rfl⟩ := List.map_eq_singleton_iff.mp hlast
    have hmem : b ∈ bs ++ [b] := List.mem_append_right _ (List.mem_singleton_self b)
    rcases hselect with hselect | ⟨hfull, hselect⟩
    · rw [hselect]
      exact ⟨bs ++ [(b.1, b.2 ++ [i.payload])],
        hdates b.1 _ (fun c hc => hclock c (List.mem_append_left _ hc)) (hclock b hmem),
        h.written_last ⟨hrecord, hfits.2⟩⟩
    · have hfew : b.1.rank < 99 :=
        hfits.1 (fileOf o b) (h.files ▸ List.mem_map_of_mem hmem) hday hfull
      obtain ⟨name, hname⟩ : ∃ name : FileName, name = ⟨i.date, some (b.1.rank + 1)⟩ := ⟨_, rfl⟩
      have hdate : name.date = i.date := congrArg FileName.date hname
      have hrank : name.rank = b.1.rank + 1 := congrArg FileName.rank hname
      have hlatest : b.1.Before name := .inr ⟨hday.trans hdate.symm, hrank ▸ Nat.lt_succ_self _⟩
      have hnext : ∀ c ∈ bs ++ [b], c.1.Before name := by
        have hpairs := h.order.before
        rw [List.map_append, List.pairwise_append] at hpairs
        intro c hc
        rcases List.mem_append.mp hc with hc | hc
        · exact (hpairs.2.2 _ (List.mem_map_of_mem hc) _ (List.mem_singleton_self _)).trans hlatest
        · exact List.mem_singleton.mp hc ▸ hlatest
      rw [hselect.trans hname.symm]
      exact ⟨bs ++ [b] ++ [(name, [i.payload])],
        hdates name _ hclock (hdate ▸ Date.le_refl name.date),
        h.written_new hnext (hrank ▸ Nat.succ_lt_succ hfew) ⟨hrecord, hfits.2⟩⟩

theorem Orderly.append (h : Orderly o a old blocks) {i : Append}
    (hclock : ∀ b ∈ blocks, b.1.date ≤ i.date) (hrecord : IsRecord o i.payload)
    (hfits : Fits policy a i) :
    ∃ old' blocks', Orderly o (append o policy a i) old' blocks' ∧
      ∀ b ∈ blocks', b.1.date ≤ i.date := by
  obtain ⟨blocks', hdates, hwritten⟩ := h.written hclock hrecord hfits
  obtain ⟨n, hn, hevict⟩ := evictOldFiles_eq policy (hwritten.names ▸ hwritten.order) i.unlinked
  have hlength := congrArg List.length hwritten.names
  rw [List.length_map, List.length_map] at hlength
  have hevicted := hwritten.evicted (hlength ▸ hn)
  dsimp only at hevicted hevict
  rw [← hevict] at hevicted
  exact ⟨_, _, hevicted, fun b hb => hdates b (List.mem_of_mem_drop hb)⟩

/-- Files in order are read as their records were appended. -/
theorem Orderly.faithful (h : Orderly o a old blocks) : Faithful o a := by
  have hold : old.filter (fun e => a.files.any (·.name = e.1)) = [] := by
    refine List.filter_eq_nil_iff.mpr fun e he hany => ?_
    rw [h.files, List.any_map] at hany
    obtain ⟨b, hb, hname⟩ := List.any_eq_true.mp hany
    exact (h.gone e he b hb).ne (of_decide_eq_true hname).symm
  have hthere : (blocks.flatMap logOf).filter (fun e => a.files.any (·.name = e.1)) =
      blocks.flatMap logOf := by
    refine List.filter_eq_self.mpr fun e he => ?_
    obtain ⟨b, hb, he⟩ := List.mem_flatMap.mp he
    obtain ⟨r, _, rfl⟩ := List.mem_map.mp he
    rw [h.files]
    exact List.any_eq_true.mpr ⟨_, List.mem_map_of_mem hb, decide_eq_true rfl⟩
  have hretained : retained a = blocks.flatMap logOf := by
    rw [retained, h.history, List.filter_append, hold, hthere, List.nil_append]
  refine ⟨?_, ?_, fun e he => ?_⟩
  · have hread : ∀ b ∈ blocks,
        readLines o (Text.splitlines (Text.readText (appended o b.2))) = b.2 := by
      intro b hb
      obtain ⟨hreturn, hlines⟩ := readLines_appended (o := o) b.2
      rw [readLines_splitlines hreturn, hlines]
      exact flatMap_pieces (fun r hr => (h.whole b hb r hr).1) fun r hr => (h.whole b hb r hr).2
    have hrecords : (blocks.flatMap logOf).map Prod.snd = blocks.flatMap Prod.snd := by
      simp [logOf, List.map_flatMap, Function.comp_def]
    rw [hretained, hrecords, loadFiles, (h.names ▸ h.order : InOrder _).sorted, h.files, loadAll,
      List.map_map, List.flatMap_map]
    exact List.flatMap_congr hread
  · rw [hretained, h.history]
    exact List.suffix_append _ _
  · rw [hretained]
    rw [h.history] at he
    cases hblocks : blocks.flatMap logOf with
    | nil =>
      have hnil : blocks = [] := by
        cases blocks with
        | nil => rfl
        | cons b bs =>
          have hlog := List.flatMap_eq_nil_iff.mp hblocks b List.mem_cons_self
          exact absurd (List.map_eq_nil_iff.mp hlog) (h.filled b List.mem_cons_self)
      rw [h.kept hnil, hblocks] at he
      cases he
    | cons x xs =>
      rw [hblocks, List.getLast?_append_of_ne_nil _ (List.cons_ne_nil x xs)] at he
      exact List.mem_of_getLast? he

end Records

/-- As long as every append fits, the archive is faithful and never puts a record into a file that
is full. -/
theorem run_faithful (o : JsonText) (policy : ArchivePolicy) (is : List Append)
    (hclock : (is.map (·.date)).Pairwise (· ≤ ·))
    (hrecords : ∀ i ∈ is, IsRecord o i.payload)
    (hfits : Machine.Guarded (append o policy) (Fits policy) {} is) :
    ∀ js, js <+: is → Faithful o (Machine.run (append o policy) {} js) ∧
      ∀ date, HasRoom policy (Machine.run (append o policy) {} js) date := by
  have hreached : ∀ {a : Archive} {old : List (FileName × Json)}
      {blocks : List (FileName × List Json)} (js : List Append), Orderly o a old blocks →
      (∀ b ∈ blocks, ∀ i ∈ js, b.1.date ≤ i.date) → (js.map (·.date)).Pairwise (· ≤ ·) →
      (∀ i ∈ js, IsRecord o i.payload) → Machine.Guarded (append o policy) (Fits policy) a js →
      ∃ old' blocks', Orderly o (Machine.run (append o policy) a js) old' blocks' := by
    intro a old blocks js
    induction js generalizing a old blocks with
    | nil => exact fun h _ _ _ _ => ⟨old, blocks, h⟩
    | cons i js ih =>
      intro h hdates hclock hrecords hfits
      obtain ⟨hfirst, hrest⟩ := List.pairwise_cons.mp hclock
      obtain ⟨_, blocks', hnext, hdates'⟩ := h.append
        (fun b hb => hdates b hb i List.mem_cons_self) (hrecords i List.mem_cons_self) hfits.1
      refine ih hnext (fun b hb j hj => ?_) hrest
        (fun j hj => hrecords j (List.mem_cons_of_mem _ hj)) hfits.2
      exact Nat.le_trans (hdates' b hb) (hfirst _ (List.mem_map_of_mem hj))
  intro js hpre
  have hempty : Orderly o {} [] [] := ⟨rfl, rfl, ⟨.nil, fun _ hn => absurd hn List.not_mem_nil⟩,
    fun _ he => absurd he List.not_mem_nil, fun _ hb => absurd hb List.not_mem_nil,
    fun _ hb => absurd hb List.not_mem_nil, fun _ => rfl⟩
  obtain ⟨old, blocks, horderly⟩ := hreached js hempty (fun _ hb => absurd hb List.not_mem_nil)
    (hclock.sublist (hpre.sublist.map _)) (fun i hi => hrecords i (hpre.subset hi))
    (hfits.of_prefix hpre)
  refine ⟨horderly.faithful, fun date f hf hname => selectFile_hasRoom ?_ hf hname⟩
  exact horderly.names ▸ horderly.order.nodup

/-- The first of March. -/
def firstOfMarch : Date := ⟨2026, 3, 1, by decide, by decide, by decide⟩

/-- One record a file, and one file kept. -/
def smallPolicy : ArchivePolicy := { maxPerFileBytes := 1, keepRecentFiles := 1 }

/-- Two appends, of which the second takes a file of its own and removes the first. -/
theorem two_appends_faithful :
    Faithful (.ofTable plainWriter [memo]) (Machine.run (append (.ofTable plainWriter [memo])
      smallPolicy) {} [⟨firstOfMarch, memo, 1⟩, ⟨firstOfMarch, memo, 1⟩]) := by
  have hdates : ([⟨firstOfMarch, memo, 1⟩, ⟨firstOfMarch, memo, 1⟩] : List Append).map (·.date) =
      List.replicate 2 firstOfMarch := rfl
  refine (run_faithful (.ofTable plainWriter [memo]) smallPolicy
    [⟨firstOfMarch, memo, 1⟩, ⟨firstOfMarch, memo, 1⟩] ?_ ?_ ?_ _ (List.prefix_refl _)).1
  · rw [hdates]
    exact List.pairwise_replicate.mpr (.inr (Date.le_refl _))
  · intro i hi
    rw [show i = ⟨firstOfMarch, memo, 1⟩ by simpa using hi]
    exact isRecord_ofTable rfl
  · refine ⟨⟨fun f hf => absurd hf List.not_mem_nil, memo_unbroken⟩,
      ⟨fun f hf _ _ => ?_, memo_unbroken⟩, trivial⟩
    have hnames : (append (.ofTable plainWriter [memo]) smallPolicy {}
        ⟨firstOfMarch, memo, 1⟩).files.map (·.name) = [⟨firstOfMarch, none⟩] := by decide +kernel
    have hname : f.name ∈ [⟨firstOfMarch, none⟩] := hnames ▸ List.mem_map_of_mem hf
    rw [List.mem_singleton.mp hname]
    exact Nat.zero_lt_succ _

/-- After the ninety-ninth rollover of a day the archive removes the file it has just written. -/
theorem hundredth_rollover_lost :
    ¬ ∀ (o : JsonText) (policy : ArchivePolicy) (is : List Append), 1 ≤ policy.keepRecentFiles →
      (is.map (·.date)).Pairwise (· ≤ ·) → (∀ i ∈ is, IsRecord o i.payload) →
      Faithful o (Machine.run (append o policy) {} is) := by
  intro h
  have hlost : ((Machine.run (append (.ofTable plainWriter [memo]) smallPolicy) {}
      (List.replicate 101 ⟨firstOfMarch, memo, 1⟩)).history.getLast?.map fun e =>
        (Machine.run (append (.ofTable plainWriter [memo]) smallPolicy) {}
          (List.replicate 101 ⟨firstOfMarch, memo, 1⟩)).files.any (·.name = e.1)) =
      some false := by decide +kernel
  obtain ⟨e, he, hgone⟩ := Option.map_eq_some_iff.mp hlost
  have hfaithful := h (.ofTable plainWriter [memo]) smallPolicy
    (List.replicate 101 ⟨firstOfMarch, memo, 1⟩) (Nat.le_refl 1)
    (by rw [List.map_replicate]; exact List.pairwise_replicate.mpr (.inr (Date.le_refl _)))
    fun i hi => by
      rw [(List.mem_replicate.mp hi).2]
      exact isRecord_ofTable rfl
  have hthere := (List.mem_filter.mp (hfaithful.newest e he)).2
  rw [hgone] at hthere
  cases hthere

end RawConversationArchiveStore

end IrisMind.Memory
