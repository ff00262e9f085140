import Mathlib.Data.List.Basic
import Mathlib.Data.Rat.Defs

/-! # Text and dynamic values

Strings are read as lists of code points. `strip` and `isSpace` follow the
whitespace of Unicode strings; `truthy` is the truth value a dynamic value has
as a condition. -/
namespace IrisMind.Lib

namespace Text

/-- The code points `strip` removes. -/
def isSpace (c : Char) : Bool :=
  let n := c.toNat
  (9 ≤ n && n ≤ 13) || (28 ≤ n && n ≤ 32) || n == 0x85 || n == 0xA0 || n == 0x1680 ||
    (0x2000 ≤ n && n ≤ 0x200A) || n == 0x2028 || n == 0x2029 || n == 0x202F || n == 0x205F ||
    n == 0x3000

def stripLeft (l : List Char) : List Char := l.dropWhile isSpace

def strip (s : String) : String :=
  String.ofList (stripLeft (stripLeft s.toList).reverse).reverse

def startsWith (s p : String) : Bool := p.toList.isPrefixOf s.toList

/-- The text without the prefix `p`, or as it is. -/
def removePrefix (s p : String) : String :=
  if startsWith s p then String.ofList (s.toList.drop p.toList.length) else s

/-- The first `n` code points. -/
def takeChars (s : String) (n : Nat) : String := String.ofList (s.toList.take n)

/-- ASCII letters in lower case. What is compared with the result is ASCII itself, and its letters
are the lower case of no other character. -/
def lower (s : String) : String := String.ofList (s.toList.map Char.toLower)

/-- A text splits in one way at the first occurrence of a separator. -/
theorem first_split {α : Type} {l l' r r' : List α} {c : α} (hl : c ∉ l) (hl' : c ∉ l')
    (h : l ++ c :: r = l' ++ c :: r') : l = l' ∧ r = r' := by
  induction l generalizing l' with
  | nil =>
    cases l' with
    | nil => exact ⟨rfl, (List.cons.inj h).2⟩
    | cons d l' =>
      obtain ⟨rfl, _⟩ := List.cons.inj h
      exact absurd List.mem_cons_self hl'
  | cons d l ih =>
    cases l' with
    | nil =>
      obtain ⟨rfl, _⟩ := List.cons.inj h
      exact absurd List.mem_cons_self hl
    | cons d' l' =>
      obtain ⟨rfl, hrest⟩ := List.cons.inj h
      obtain ⟨rfl, hr⟩ :=
        ih (List.not_mem_of_not_mem_cons hl) (List.not_mem_of_not_mem_cons hl') hrest
      exact ⟨rfl, hr⟩

end Text

inductive Json where
  | null
  | bool (b : Bool)
  | int (n : Int)
  | num (q : Rat)
  | str (s : String)
  | arr (items : List Json)
  | obj (fields : List (String × Json))

def Json.truthy : Json → Bool
  | .null => false
  | .bool b => b
  | .int n => n != 0
  | .num q => q != 0
  | .str s => s != ""
  | .arr l => !l.isEmpty
  | .obj l => !l.isEmpty

/-- The number a dynamic value is in a comparison; truth values count as numbers. -/
def Json.number? : Json → Option Rat
  | .bool b => some (if b then 1 else 0)
  | .int n => some n
  | .num q => some q
  | _ => none

end IrisMind.Lib
