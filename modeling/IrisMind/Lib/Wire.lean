import IrisMind.Lib.Dict
import IrisMind.Lib.Text

/-! # Text on a wire

What two parties exchange is written as raw text and read back. `Textual` values
are those made of texts, truth values and objects with distinct keys; a wire is
a pair of functions that reads back what it has written of them. How the text
looks does not matter. -/
namespace IrisMind.Lib

namespace Json

/-- The value under a key of an object. -/
def field? (j : Json) (k : String) : Option Json :=
  match j with
  | .obj fields => Dict.lookup k fields
  | _ => none

inductive Textual : Json → Prop
  | null : Textual .null
  | bool (b : Bool) : Textual (.bool b)
  | str (s : String) : Textual (.str s)
  | obj (fields : List (String × Json)) (distinct : (fields.map Prod.fst).Nodup)
      (values : ∀ f ∈ fields, Textual f.2) : Textual (.obj fields)

def ofText? : Option String → Json
  | some s => .str s
  | none => .null

def ofTexts (fields : List (String × String)) : Json := .obj (fields.map fun f => (f.1, .str f.2))

theorem textual_ofText? (s : Option String) : Textual (ofText? s) := by
  cases s with
  | none => exact .null
  | some s => exact .str s

theorem textual_ofTexts {fields : List (String × String)} (h : (fields.map Prod.fst).Nodup) :
    Textual (ofTexts fields) := by
  refine .obj _ ?_ fun f hf => ?_
  · rw [List.map_map]
    exact h
  · obtain ⟨e, _, rfl⟩ := List.mem_map.mp hf
    exact .str _

/-- The text under a key of an object; nothing stands for the empty text. -/
def textAt (j : Json) (k : String) : String :=
  match j.field? k with
  | some (.str s) => s
  | _ => ""

end Json

structure Wire where
  Raw : Type
  dump : Json → Raw
  load : Raw → Option Json
  load_dump : ∀ j, j.Textual → load (dump j) = some j

/-- Values that travel as they are. -/
def Wire.plain : Wire where
  Raw := Json
  dump := id
  load := some
  load_dump := fun _ _ => rfl

end IrisMind.Lib
