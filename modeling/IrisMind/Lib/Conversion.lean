import IrisMind.Lib.Dict
import IrisMind.Lib.Text

/-! # Values as text and as numbers

How a program prints a dynamic value, and which number it reads one as. Numbers
are exact. -/
namespace IrisMind.Lib

/-- A computation that ends well has ended well so far. -/
theorem bind_ok {α β : Type} {x : Except String α} {f : α → Except String β} {b : β}
    (h : (x >>= f) = .ok b) : ∃ a, x = .ok a ∧ f a = .ok b := by
  cases x with
  | error e => cases h
  | ok a => exact ⟨a, rfl, h⟩

structure Conversion where
  /-- How a number that is no integer, an array or an object prints. -/
  print : Json → String
  /-- The number a text is read as, or what is wrong with it. -/
  parse : String → Except String Rat
  /-- What is wrong with a value that is neither a number nor a text. -/
  refuse : Json → String

namespace Conversion

variable (v : Conversion)

def str : Json → String
  | .null => "None"
  | .bool true => "True"
  | .bool false => "False"
  | .int n => toString n
  | .str s => s
  | j => v.print j

def float : Json → Except String Rat
  | .bool b => .ok (if b then 1 else 0)
  | .int n => .ok n
  | .num q => .ok q
  | .str s => v.parse s
  | j => .error (v.refuse j)

/-- `str(fields.get(key, default))` -/
def strAt (key default : String) (fields : List (String × Json)) : String :=
  match Dict.lookup key fields with
  | some j => v.str j
  | none => default

/-- `float(fields.get(key, 0.0) or 0.0)` -/
def floatAt (key : String) (fields : List (String × Json)) : Except String Rat :=
  match Dict.lookup key fields with
  | some j => if j.truthy then v.float j else .ok 0
  | none => .ok 0

/-- What prints as nothing, and texts that are no numbers. -/
def plain : Conversion where
  print _ := ""
  parse _ := .error "no number"
  refuse _ := "no number"

theorem strAt_of_text {key default s : String} {fields : List (String × Json)}
    (h : Dict.lookup key fields = some (.str s)) : v.strAt key default fields = s := by
  rw [strAt, h]
  rfl

theorem floatAt_of_number {key : String} {j : Json} {q : Rat} {fields : List (String × Json)}
    (h : Dict.lookup key fields = some j) (hq : j.number? = some q) :
    v.floatAt key fields = .ok q := by
  rw [floatAt, h]
  dsimp only
  cases j with
  | bool b =>
    cases Option.some.inj hq
    cases b <;> rfl
  | int n =>
    cases Option.some.inj hq
    by_cases hn : n = 0
    · subst hn
      rfl
    · rw [Json.truthy, if_pos (bne_iff_ne.mpr hn)]
      rfl
  | num q' =>
    cases Option.some.inj hq
    by_cases hn : q = 0
    · subst hn
      rfl
    · rw [Json.truthy, if_pos (bne_iff_ne.mpr hn)]
      rfl
  | _ => cases hq

end Conversion

end IrisMind.Lib
