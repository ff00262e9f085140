import IrisMind.Lib.Text

/-! # JSON text and printed values

What a program may do to a dynamic value: read it from text, write it as text,
print it, compare it. Each of them may fail, reading on what is no JSON, the
others on what is nested deeper than they go. -/
namespace IrisMind.Lib

structure Codec where
  loads : String → Option Json
  dumps : Json → Option String
  /-- How a number that is no integer, an array or an object prints. -/
  print : Json → Option String
  same : Json → Json → Option Bool
  /-- A text as it is written in a program. -/
  repr : String → String

namespace Codec

/-- The text of a value. -/
def str (codec : Codec) : Json → Option String
  | .null => some "None"
  | .bool true => some "True"
  | .bool false => some "False"
  | .int n => some (toString n)
  | .str s => some s
  | j => codec.print j

end Codec

end IrisMind.Lib
