import IrisMind.Lib.Wire

/-! # Fields of objects

What a program reads of an object, and writes to it, by the names of its
fields. -/
namespace IrisMind.Lib

namespace Fields

/-- `fields.get(key, default)`, where the value is a text. -/
def getText (key default : String) (fields : List (String × Json)) : String :=
  match Dict.lookup key fields with
  | some (.str s) => s
  | _ => default

/-- `fields.setdefault(key, value)` -/
def setDefault (key : String) (value : Json) (fields : List (String × Json)) :
    List (String × Json) :=
  if (Dict.lookup key fields).isSome then fields else Dict.write key value fields

theorem lookup_setDefault {key k : String} (h : key ≠ k) (value : Json)
    (fields : List (String × Json)) :
    Dict.lookup k (setDefault key value fields) = Dict.lookup k fields := by
  unfold setDefault
  split
  · rfl
  · rw [Dict.lookup_write, if_neg h]

end Fields

end IrisMind.Lib
