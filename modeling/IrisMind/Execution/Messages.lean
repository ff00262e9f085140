import IrisMind.Lib.Text

/-! # Messages of a conversation

The content of a message is a text or a list of blocks; a block is a plain
string, or a record that may lack its text. -/
namespace IrisMind.Execution
open IrisMind.Lib

inductive Content where
  | text (s : String)
  | blocks (parts : List (Option String))
deriving DecidableEq, Repr

structure ToolCall where
  name : String
  args : List (String × Json) := []
  id : Option String := some "unknown"

structure AIMessage where
  content : Content
  toolCalls : List ToolCall := []

inductive Msg where
  | human (content : String)
  | ai (message : AIMessage)
  | tool (name content id : String)
  | system (content : String)

def Msg.toolCalls : Msg → List ToolCall
  | .ai m => m.toolCalls
  | _ => []

/-- The text of an answer that is a plain string; the empty text otherwise. -/
def Content.plain : Content → String
  | .text s => s
  | .blocks _ => ""

/-- `LLMBridge._extract_content`: a record without a text raises. -/
def Content.extract : Content → Option String
  | .text s => some s
  | .blocks parts => (parts.mapM id).map String.join

end IrisMind.Execution
