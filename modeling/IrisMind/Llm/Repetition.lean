import Mathlib.Data.List.Dedup

/-! # Repetition detection in model output

The two regular expressions of the detector, as searches over lists of code
points: a block of 2 to 20 characters, the shortest that fits, at least four
times in a row; and one character at least ten times in a row. No block or
character is a line break. -/
namespace IrisMind.Llm.Repetition

/-- How many copies of `b` stand one after the other at the front of a text. -/
def copies (b : List Char) : Nat → List Char → Nat
  | 0, _ => 0
  | fuel + 1, t => if !b.isEmpty && b.isPrefixOf t then copies b fuel (t.drop b.length) + 1 else 0

/-- `(.{2,20}?)\1{3,}` at the front of `t`: the block and the length of the match. -/
def multiAt (t : List Char) : Option (List Char × Nat) :=
  (List.range' 2 19).findSome? fun len =>
    let b := t.take len
    let k := copies b t.length t
    if b.length = len && !b.contains '\n' && 4 ≤ k then some (b, len * k) else none

/-- `(.)\1{9,}` at the front of `t`. -/
def singleAt : List Char → Option (List Char × Nat)
  | [] => none
  | c :: rest =>
    let k := copies [c] (rest.length + 1) (c :: rest)
    if c ≠ '\n' && 10 ≤ k then some ([c], k) else none

/-- `finditer`: the positions and blocks of the matches, left to right and not overlapping. -/
def findIter (matchAt : List Char → Option (List Char × Nat)) :
    Nat → Nat → List Char → List (Nat × List Char)
  | 0, _, _ => []
  | _ + 1, _, [] => []
  | fuel + 1, pos, c :: rest => match matchAt (c :: rest) with
    | some (b, n) => (pos, b) :: findIter matchAt fuel (pos + n) ((c :: rest).drop n)
    | none => findIter matchAt fuel (pos + 1) rest

def findAll (matchAt : List Char → Option (List Char × Nat)) (t : List Char) :
    List (Nat × List Char) := findIter matchAt t.length 0 t

/-- More than one character occurs in the block. -/
def varied (b : List Char) : Bool := 1 < b.dedup.length

def detect (text : String) : Bool :=
  let t := text.toList
  let target := if 150 < t.length then t.drop (t.length - 150) else t
  (findAll multiAt target).any (fun m => varied m.2) || !(findAll singleAt target).isEmpty

def notice : String := "… [繰り返し検知により中断]"

def trim (text : String) : String :=
  let t := text.toList
  match (findAll multiAt t).find? (fun m => varied m.2) with
  | some (start, b) => String.ofList (t.take start ++ b ++ b) ++ notice
  | none => match (findAll singleAt t).head? with
    | some (start, b) => String.ofList (t.take start ++ b ++ b ++ b) ++ notice
    | none => text

end IrisMind.Llm.Repetition
