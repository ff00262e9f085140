import Mathlib.Data.List.Infix

/-! # Putting one part of a text in the place of another

The occurrences of a part are found from the left, none inside another. -/
namespace IrisMind.Lib.Replacing

variable {α : Type} [DecidableEq α]

/-- Every occurrence of a part that is not empty replaced; `skip` elements are gone already. -/
def replaceFrom (old new : List α) : Nat → List α → List α
  | _, [] => []
  | skip + 1, _ :: l => replaceFrom old new skip l
  | 0, c :: l =>
    if old <+: c :: l then new ++ replaceFrom old new (old.length - 1) l
    else c :: replaceFrom old new 0 l

def replaceAll (old new l : List α) : List α := replaceFrom old new 0 l

end IrisMind.Lib.Replacing
