import IrisMind.Lib.Splitting
import Mathlib.Algebra.GroupWithZero.Nat
import Mathlib.Algebra.BigOperators.Group.List.Basic

/-! # The profile file

The text of the profile is kept below a number of bytes. What is too long loses lines from its
end, one by one, and each line counts with a newline, the last one too. -/
namespace IrisMind.Memory
open IrisMind.Lib

/-- The file with its text and the time it was written, and the text that was read last. -/
structure AgentsMdStore where
  maxBytes : Nat := 2048
  file : Option (String × Int) := none
  cache : Option String := none
  cacheMtime : Option Int := none

namespace AgentsMdStore

variable (s : AgentsMdStore)

def lineSize (line : String) : Nat := line.utf8ByteSize + 1

/-- The loop of `_truncate`. The lines are given from the last one on. -/
def popLines (maxBytes : Nat) : Nat → List String → List String
  | total, last :: line :: lines =>
    if maxBytes < total then popLines maxBytes (total - lineSize last) (line :: lines)
    else last :: line :: lines
  | _, lines => lines

def truncate (content : String) : String :=
  let lines := content.splitOn "\n"
  "\n".intercalate (popLines s.maxBytes (lines.map lineSize).sum lines.reverse).reverse

/-- What `update` writes. -/
def written (content : String) : String :=
  if s.maxBytes < content.utf8ByteSize then s.truncate content else content

/-- The file is written at a time; it may be that its time cannot be read. -/
def update (content : String) (now : Int) (statOk : Bool) : AgentsMdStore :=
  { s with file := some (s.written content, now)
           cache := some (s.written content)
           cacheMtime := if statOk then some now else none }

/-- What is read, and what is kept of it; reading may fail. -/
def load (statOk : Bool) (readText : String → Option String) : String × AgentsMdStore :=
  match s.file with
  | none => ("", s)
  | some (text, time) =>
    let mtime := if statOk then some time else none
    if s.cache ≠ none ∧ s.cacheMtime = mtime then (s.cache.getD "", s)
    else match readText text with
      | some text => (text, { s with cache := some text, cacheMtime := mtime })
      | none => (s.cache.getD "", s)

/-! ## The lines a text begins with -/

def firstLines (content : String) (k : Nat) : String :=
  "\n".intercalate ((content.splitOn "\n").take k)

/-- The longest text that is below the limit, of those that are the first lines of a text. -/
structure Truncated (maxBytes : Nat) (content text : String) : Prop where
  bounded : text.utf8ByteSize ≤ maxBytes
  begins : text.toList <+: content.toList
  lines : ∃ k, text = firstLines content k
  whole : content.utf8ByteSize ≤ maxBytes → text = content
  longest : ∀ k, (firstLines content k).utf8ByteSize ≤ maxBytes →
    (firstLines content k).toList <+: text.toList

variable {s} {content : String} {j k : Nat}

theorem splitOn_newline (content : String) :
    content.splitOn "\n" = (content.toList.splitOn '\n').map String.ofList :=
  Text.splitOn_char content '\n'

theorem splitOn_ne_nil (content : String) : content.splitOn "\n" ≠ [] := by
  rw [splitOn_newline, Ne, List.map_eq_nil_iff]
  exact List.splitOn_ne_nil _ _

theorem firstLines_all (h : (content.splitOn "\n").length ≤ k) :
    firstLines content k = content := by
  rw [firstLines, List.take_of_length_le h, splitOn_newline, ← String.toList_inj,
    String.toList_intercalate, List.map_map]
  simp [Function.comp_def, List.intercalate_splitOn]

theorem intercalate_prefix (sep : String) (l m : List String) :
    (sep.intercalate l).toList <+: (sep.intercalate (l ++ m)).toList := by
  by_cases hl : l = []
  · simp [hl]
  · by_cases hm : m = []
    · simp [hm]
    · rw [String.intercalate_append_of_ne_nil hl hm, String.toList_append, String.toList_append,
        List.append_assoc]
      exact List.prefix_append _ _

theorem firstLines_isPrefix (content : String) (h : j ≤ k) :
    (firstLines content j).toList <+: (firstLines content k).toList := by
  obtain ⟨rest, hrest⟩ := List.take_prefix_take_left (l := content.splitOn "\n") h
  rw [firstLines, firstLines, ← hrest]
  exact intercalate_prefix _ _ _

theorem size_le_of_prefix {s t : String} (h : s.toList <+: t.toList) :
    s.utf8ByteSize ≤ t.utf8ByteSize := by
  obtain ⟨rest, hrest⟩ := h
  have ht : t = s ++ String.ofList rest := by
    rw [← String.toList_inj, String.toList_append, String.toList_ofList, hrest]
  rw [ht, String.utf8ByteSize_append]
  exact Nat.le_add_right _ _

/-- Joined lines have one newline less than there are lines. -/
theorem size_intercalate {lines : List String} (h : lines ≠ []) :
    ("\n".intercalate lines).utf8ByteSize + 1 = (lines.map lineSize).sum := by
  induction lines with
  | nil => exact absurd rfl h
  | cons line lines ih =>
    cases lines with
    | nil => simp [lineSize]
    | cons next lines =>
      have hnewline : ("\n" : String).utf8ByteSize = 1 := by decide
      have hrest := ih (List.cons_ne_nil _ _)
      rw [String.intercalate_cons_cons, String.utf8ByteSize_append, String.utf8ByteSize_append,
        List.map_cons, List.sum_cons, ← hrest, hnewline, lineSize]
      omega

theorem size_firstLines (content : String) (hk : 1 ≤ k) : (firstLines content k).utf8ByteSize + 1 =
    (((content.splitOn "\n").take k).map lineSize).sum := by
  refine size_intercalate ?_
  rw [Ne, List.take_eq_nil_iff, not_or]
  exact ⟨by omega, splitOn_ne_nil content⟩

theorem size_firstLines_lt (content : String) (hj : 1 ≤ j) (hjk : j < k)
    (hk : k ≤ (content.splitOn "\n").length) :
    (firstLines content j).utf8ByteSize < (firstLines content k).utf8ByteSize := by
  have hsizej := size_firstLines content hj
  have hsizek := size_firstLines content (k := k) (by omega)
  -- one more line is one more newline
  have hnext : (((content.splitOn "\n").take (j + 1)).map lineSize).sum =
      (((content.splitOn "\n").take j).map lineSize).sum + lineSize (content.splitOn "\n")[j] := by
    rw [List.take_succ_eq_append_getElem (by omega), List.map_append, List.sum_append]
    simp
  have hsize := size_firstLines content (k := j + 1) (by omega)
  have hle := size_le_of_prefix (firstLines_isPrefix content (show j + 1 ≤ k from hjk))
  have hline : 0 < lineSize (content.splitOn "\n")[j] := Nat.succ_pos _
  omega

/-! ## What is kept -/

/-- Lines go until one is left or the lines and their newlines are below the limit. -/
theorem popLines_spec (maxBytes : Nat) {lines : List String} (h : lines ≠ []) :
    ∃ j < lines.length, popLines maxBytes (lines.map lineSize).sum lines = lines.drop j ∧
      (j + 1 = lines.length ∨ ((lines.drop j).map lineSize).sum ≤ maxBytes) ∧
      ∀ i < j, maxBytes < ((lines.drop i).map lineSize).sum := by
  induction lines with
  | nil => exact absurd rfl h
  | cons last lines ih =>
    cases lines with
    | nil => exact ⟨0, by simp [popLines]⟩
    | cons line lines =>
      by_cases hover : maxBytes < ((last :: line :: lines).map lineSize).sum
      · obtain ⟨j, hj, hpop, hstop, hgone⟩ := ih (List.cons_ne_nil _ _)
        have hrest : ((last :: line :: lines).map lineSize).sum - lineSize last =
            ((line :: lines).map lineSize).sum := by
          rw [List.map_cons, List.sum_cons, Nat.add_sub_cancel_left]
        refine ⟨j + 1, Nat.succ_lt_succ hj, ?_, ?_, ?_⟩
        · rw [popLines, if_pos hover, hrest, hpop, List.drop_succ_cons]
        · rw [List.drop_succ_cons, List.length_cons]
          omega
        · intro i hi
          cases i with
          | zero => exact hover
          | succ i => exact hgone i (Nat.lt_of_succ_lt_succ hi)
      · refine ⟨0, Nat.succ_pos _, ?_, .inr (Nat.le_of_not_lt hover), fun i hi => by omega⟩
        rw [popLines, if_neg hover, List.drop_zero]

theorem truncate_spec (s : AgentsMdStore) (content : String) :
    ∃ k, 1 ≤ k ∧ k ≤ (content.splitOn "\n").length ∧ s.truncate content = firstLines content k ∧
      (k = 1 ∨ (firstLines content k).utf8ByteSize < s.maxBytes) ∧
      ∀ i, k < i → i ≤ (content.splitOn "\n").length →
        s.maxBytes ≤ (firstLines content i).utf8ByteSize := by
  have hne := splitOn_ne_nil content
  obtain ⟨j, hj, hpop, hstop, hgone⟩ := popLines_spec s.maxBytes
    (List.reverse_eq_nil_iff.not.mpr hne)
  rw [List.length_reverse] at hj hstop
  have hsum (i : Nat) (hi : 1 ≤ (content.splitOn "\n").length - i) :
      (((content.splitOn "\n").reverse.drop i).map lineSize).sum =
        (firstLines content ((content.splitOn "\n").length - i)).utf8ByteSize + 1 := by
    rw [size_firstLines content hi, List.drop_reverse, List.map_reverse, List.sum_reverse]
  refine ⟨(content.splitOn "\n").length - j, by omega, Nat.sub_le _ _, ?_, ?_, ?_⟩
  · rw [List.map_reverse, List.sum_reverse] at hpop
    rw [truncate, hpop, firstLines, List.drop_reverse, List.reverse_reverse]
  · rcases hstop with hone | hbelow
    · exact .inl (by omega)
    · rw [hsum j (by omega)] at hbelow
      exact .inr (by omega)
  · intro i hki hi
    have hover := hgone ((content.splitOn "\n").length - i) (by omega)
    rw [hsum _ (by omega), Nat.sub_sub_self hi] at hover
    omega

/-- What is written is the longest part of the text that is below the limit exactly when the text
is, or the first line is and no first lines meet the limit exactly. -/
theorem update_truncated_iff (s : AgentsMdStore) (content : String) (now : Int) (statOk : Bool) :
    (∃ text, (s.update content now statOk).file = some (text, now) ∧
        Truncated s.maxBytes content text) ↔
      content.utf8ByteSize ≤ s.maxBytes ∨ (firstLines content 1).utf8ByteSize ≤ s.maxBytes ∧
        ∀ k ≥ 2, (firstLines content k).utf8ByteSize ≠ s.maxBytes := by
  have hfile : (∃ text, (s.update content now statOk).file = some (text, now) ∧
      Truncated s.maxBytes content text) ↔ Truncated s.maxBytes content (s.written content) := by
    simp [update]
  rw [hfile, written]
  by_cases hfits : content.utf8ByteSize ≤ s.maxBytes
  · rw [if_neg (Nat.not_lt.mpr hfits)]
    refine iff_of_true ⟨hfits, List.prefix_refl _, ⟨_, (firstLines_all (Nat.le_refl _)).symm⟩,
      fun _ => rfl, fun k _ => ?_⟩ (.inl hfits)
    rcases Nat.le_total k (content.splitOn "\n").length with hk | hk
    · simpa [firstLines_all (Nat.le_refl _)] using firstLines_isPrefix content hk
    · exact congrArg String.toList (firstLines_all hk) ▸ List.prefix_refl _
  · obtain ⟨k, hk, hlen, heq, hstop, hgone⟩ := truncate_spec s content
    have hinside {i : Nat} (hi : (firstLines content i).utf8ByteSize ≤ s.maxBytes) :
        i ≤ (content.splitOn "\n").length := by
      by_contra hout
      rw [firstLines_all (by omega)] at hi
      exact hfits hi
    rw [if_pos (Nat.not_le.mp hfits), heq, or_iff_right hfits]
    constructor
    · intro h
      have hfirst := size_le_of_prefix (firstLines_isPrefix content hk)
      refine ⟨hfirst.trans h.bounded, fun i hi hmeets => ?_⟩
      have hle := size_le_of_prefix (h.longest i hmeets.le)
      rcases hstop with rfl | hbelow
      · have hlt := size_firstLines_lt content (Nat.le_refl 1) hi (hinside hmeets.le)
        have hbounded := h.bounded
        omega
      · omega
    · rintro ⟨hfirst, hmeets⟩
      refine ⟨?_, ?_, ⟨k, rfl⟩, fun h => absurd h hfits, fun i hi => ?_⟩
      · rcases hstop with rfl | hbelow
        · exact hfirst
        · exact hbelow.le
      · simpa [firstLines_all (Nat.le_refl _)] using firstLines_isPrefix content hlen
      · by_contra hlonger
        have hki : k < i := by
          by_contra hle
          exact hlonger (firstLines_isPrefix content (Nat.not_lt.mp hle))
        exact hmeets i (by omega) (hi.antisymm (hgone i hki (hinside hi)))

/-- Two lines that come to six bytes are not kept by a limit of six. -/
theorem update_drops_fitting_line :
    ¬ ∀ (s : AgentsMdStore) (content : String) (now : Int) (statOk : Bool),
      ∃ text, (s.update content now statOk).file = some (text, now) ∧
        Truncated s.maxBytes content text := by
  intro h
  obtain ⟨text, hfile, htext⟩ := h { maxBytes := 6 } "aaaa\nb\nc" 0 true
  have hlines : ("aaaa\nb\nc" : String).splitOn "\n" = ["aaaa", "b", "c"] := by
    rw [splitOn_newline]
    decide
  have hkept : ({ maxBytes := 6 } : AgentsMdStore).written "aaaa\nb\nc" = "aaaa" := by
    rw [written, truncate, hlines]
    decide
  have htwo : firstLines "aaaa\nb\nc" 2 = "aaaa\nb" := by
    rw [firstLines, hlines]
    decide
  obtain rfl : "aaaa" = text := by simpa [update, hkept] using hfile
  have hlonger := htext.longest 2 (by rw [htwo]; decide)
  rw [htwo] at hlonger
  exact absurd hlonger (by decide)

end AgentsMdStore

end IrisMind.Memory
