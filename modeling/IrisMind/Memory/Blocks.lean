import IrisMind.Lib.Text

/-! # Content blocks

What is said, heard or told of comes in blocks. A memory keeps the blocks and
reads their texts. -/
namespace IrisMind.Memory
open IrisMind.Lib

/-- A block may lack any of its fields. -/
structure ContentBlock where
  type : Option String := none
  text : Option String := none
  mimeType : Option String := none
deriving DecidableEq

namespace ContentBlock

variable (b : ContentBlock)

/-- `get("text", "")` -/
def textOrEmpty : String := b.text.getD ""

/-- `block_tag` -/
def tag : String :=
  let t := b.type.getD "text"
  if t = "text" then b.textOrEmpty
  else
    let txt := b.textOrEmpty
    let mime := b.mimeType.getD ""
    let tag := if mime = "" then t else mime
    if txt = "" then "[" ++ tag ++ "]" else "[" ++ tag ++ "] " ++ txt

end ContentBlock

def textBlock (text : String) : ContentBlock := { type := some "text", text := some text }

def systemEventBlock (text : String) : ContentBlock :=
  { type := some "system_event", text := some text }

def blocksText (blocks : List ContentBlock) : String :=
  String.join ((blocks.filter (·.textOrEmpty ≠ "")).map (·.textOrEmpty))

end IrisMind.Memory
