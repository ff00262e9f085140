import Mathlib.Data.List.Basic

/-! # POSIX paths

A path is a root and the names below it. Parsing drops empty names and dots, and keeps `..`, which
only the file system can make sense of. -/
namespace IrisMind.Lib

/-- A name that a path keeps. -/
def IsName (name : List Char) : Prop := name ≠ [] ∧ name ≠ ['.'] ∧ '/' ∉ name

instance (name : List Char) : Decidable (IsName name) :=
  inferInstanceAs (Decidable (name ≠ [] ∧ name ≠ ['.'] ∧ '/' ∉ name))

structure PosixPath where
  root : List Char
  tail : List (List Char)
  names : ∀ name ∈ tail, IsName name
deriving DecidableEq

namespace PosixPath

/-- Two slashes in front are a root of their own, more are one. -/
def leadingRoot : List Char → List Char
  | '/' :: '/' :: '/' :: _ => ['/']
  | '/' :: '/' :: _ => ['/', '/']
  | '/' :: _ => ['/']
  | _ => []

theorem not_mem_of_mem_splitOn {sep : Char} {s part : List Char} (h : part ∈ s.splitOn sep) :
    sep ∉ part := by
  induction s generalizing part with
  | nil =>
    rw [List.splitOn_nil, List.mem_singleton] at h
    rw [h]
    exact List.not_mem_nil
  | cons c s ih =>
    rw [List.splitOn_cons_eq_if_modifyHead] at h
    split at h
    · rcases List.mem_cons.mp h with rfl | h
      · exact List.not_mem_nil
      · exact ih h
    · next hc =>
      cases hsplit : s.splitOn sep with
      | nil => exact absurd hsplit (List.splitOn_ne_nil _ _)
      | cons first rest =>
        rw [hsplit] at h ih
        rcases List.mem_cons.mp h with rfl | h
        · rw [List.mem_cons, not_or]
          refine ⟨fun heq => hc ?_, ih List.mem_cons_self⟩
          rw [heq, beq_self_eq_true]
        · exact ih (List.mem_cons_of_mem _ h)

def parse (s : List Char) : PosixPath where
  root := leadingRoot s
  tail := (s.splitOn '/').filter fun name => name ≠ [] ∧ name ≠ ['.']
  names name h := by
    obtain ⟨hmem, hkept⟩ := List.mem_filter.mp h
    obtain ⟨hempty, hdot⟩ := of_decide_eq_true hkept
    exact ⟨hempty, hdot, not_mem_of_mem_splitOn hmem⟩

variable (p q : PosixPath)

def isAbsolute : Bool := p.root ≠ []

def parts : List (List Char) := if p.root = [] then p.tail else p.root :: p.tail

def str : List Char :=
  if p.root = [] ∧ p.tail = [] then ['.'] else p.root ++ ['/'].intercalate p.tail

/-- `p / q` -/
def join : PosixPath :=
  if q.isAbsolute then q
  else { p with
    tail := p.tail ++ q.tail
    names := fun name h => (List.mem_append.mp h).elim (p.names name) (q.names name) }

/-- `p.relative_to(q)` does not raise. -/
def isRelativeTo : Bool := p.root = q.root && q.tail.isPrefixOf p.tail

/-- The path lies below the other one. -/
def Below : Prop := p.isRelativeTo q = true ∧ p ≠ q

def parent : PosixPath where
  root := p.root
  tail := p.tail.dropLast
  names name h := p.names name (List.dropLast_subset _ h)

def name : List Char := p.tail.getLastD []

/-- The dot of the name that is neither its first nor its last character, with what is behind. -/
def suffix : List Char :=
  let rest := (p.name.reverse.takeWhile (· ≠ '.')).reverse
  if rest ≠ [] ∧ rest.length + 1 < p.name.length then '.' :: rest else []

def stem : List Char := p.name.take (p.name.length - p.suffix.length)

/-- Nothing comes of it where it raises. -/
def withName (name : List Char) : Option PosixPath :=
  if h : p.tail ≠ [] ∧ IsName name then
    some { p with
      tail := p.tail.dropLast ++ [name]
      names := fun n hn => (List.mem_append.mp hn).elim
        (fun hn => p.names n (List.dropLast_subset _ hn))
        (fun hn => List.mem_singleton.mp hn ▸ h.2) }
  else none

def withSuffix (suffix : List Char) : Option PosixPath :=
  if p.stem = [] ∨ suffix ≠ [] ∧ suffix.head? ≠ some '.' then none
  else p.withName (p.stem ++ suffix)

variable {p q}

theorem isRelativeTo_self (p : PosixPath) : p.isRelativeTo p = true := by
  simp [isRelativeTo]

theorem stem_append_suffix (p : PosixPath) : p.stem ++ p.suffix = p.name := by
  unfold stem suffix
  dsimp only
  split
  · next h =>
    -- The name ends at its last dot with what is behind the dot.
    have hsplit := List.takeWhile_append_dropWhile (p := (· ≠ '.')) (l := p.name.reverse)
    cases hrest : p.name.reverse.dropWhile (· ≠ '.') with
    | nil =>
      rw [hrest, List.append_nil] at hsplit
      rw [hsplit, List.reverse_reverse] at h
      omega
    | cons c front =>
      have hdot : c = '.' := by
        have hne : p.name.reverse.dropWhile (· ≠ '.') ≠ [] := by
          rw [hrest]
          exact List.cons_ne_nil _ _
        have hhead := List.head_dropWhile_not (· ≠ '.') hne
        simp only [hrest, List.head_cons] at hhead
        simpa using hhead
      have hname : p.name = front.reverse ++
          '.' :: (p.name.reverse.takeWhile (· ≠ '.')).reverse := by
        rw [hrest, hdot] at hsplit
        simpa using (congrArg List.reverse hsplit).symm
      generalize (p.name.reverse.takeWhile (· ≠ '.')).reverse = rest at hname
      rw [hname]
      simp
  · simp

/-- What is put behind the suffix is put behind the name. -/
theorem withSuffix_suffix {ext : List Char} {copy : PosixPath}
    (h : p.withSuffix (p.suffix ++ ext) = some copy) :
    copy.parent = p.parent ∧ copy.name = p.name ++ ext := by
  unfold withSuffix at h
  split at h
  · cases h
  · unfold withName at h
    split at h
    · obtain rfl := Option.some.inj h
      refine ⟨?_, ?_⟩
      · simp [parent]
      · rw [← stem_append_suffix p, List.append_assoc]
        simp [name]
    · cases h

/-- The names of a relative path are between the slashes of its text. -/
theorem splitOn_str (hroot : p.root = []) (htail : p.tail ≠ []) : p.str.splitOn '/' = p.tail := by
  rw [str, if_neg fun h => htail h.2, hroot, List.nil_append]
  exact List.splitOn_intercalate '/' (fun name h => (p.names name h).2.2) htail

end PosixPath

end IrisMind.Lib
