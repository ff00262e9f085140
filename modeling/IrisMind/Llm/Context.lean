import Mathlib.Algebra.Ring.Nat
import IrisMind.Execution.Messages
import IrisMind.Lib.Dict
import IrisMind.Lib.Words

/-! # The context window manager

It watches the tokens of a history and has a model summarise the older messages.
The last summary is stored, and is what a call answers that summarises nothing:
below the threshold, without a model, and when the model raises. -/
namespace IrisMind.Llm
open IrisMind.Lib IrisMind.Execution

/-! ## Token estimates -/

/-- The count of a tokenizer; nothing when it raises. -/
abbrev Tokenizer := String → Option Nat

/-- Without a tokenizer a character counts for 1.3 tokens. -/
def estimateTokens (tokenizer : Option Tokenizer) (text : String) : Option Nat :=
  if text = "" then some 0
  else match tokenizer with
    | some count => count text
    | none => some (text.length * 13 / 10)

def estimateMessagesTokens (tokenizer : Option Tokenizer) (texts : List String) : Option Nat :=
  (texts.mapM (estimateTokens tokenizer)).map List.sum

/-! ## The summariser -/

def sessionSummaryHeader : String := "## Session Summary"

def compactPrompt : String := "これまでの会話要約（もしあれば）と、新規の会話履歴を統合し、最新の会話要約を更新・作成してください。
作業継続に必要な情報のみを網羅し、冗長な内容は省いてください。

必須項目:
- 達成したこと / 進行中タスク
- 言及されたファイル・コード
- 次のステップ

日本語で簡潔に。"

structure SummaryRequest where
  messages : List Msg
  model : Option String
  temperature : Rat := 3 / 10
  maxTokens : Nat := 500
  numCtx : Nat := 4096

/-- What a call of the model comes to: the text of its answer, an `Exception`, or any other
`BaseException`, which is caught nowhere. -/
inductive ChatOutcome where
  | answered (content : String)
  | raised
  | exited
deriving DecidableEq

/-- `llm` is what a request to the model comes to; `blocksText` is how a list of content blocks
prints. -/
structure ContextWindowManager where
  llm : Option (SummaryRequest → ChatOutcome)
  compactModel : Option String := none
  tokenizers : Dict String Tokenizer := Dict.empty
  defaultModelName : Option String := none
  blocksText : List (Option String) → String := fun _ => ""
  summary : String := ""

/-- A summarisation that succeeded: the messages its request is made of, the request, and the text
that came back. -/
structure Summarisation where
  input : List Msg
  request : SummaryRequest
  text : String

/-- What a call of the manager leaves, what it answers, and the summarisation it made. -/
structure Compaction where
  manager : ContextWindowManager
  summary : String
  done : Option Summarisation := none

namespace ContextWindowManager

def typeOf : Msg → String
  | .human _ => "human"
  | .ai _ => "ai"
  | .tool _ _ _ => "tool"
  | .system _ => "system"

def textOf (mgr : ContextWindowManager) : Msg → String
  | .human content | .system content | .tool _ content _ => content
  | .ai m => match m.content with
    | .text s => s
    | .blocks parts => mgr.blocksText parts

def getTokenizer (mgr : ContextWindowManager) (modelName : Option String) : Option Tokenizer :=
  let named (name : Option String) := name.bind fun n =>
    if n = "" then none else mgr.tokenizers.get? n
  (named modelName).or (named mgr.defaultModelName)

/-- A summary at the head of a history, or one that a later compaction has left in it. -/
def isSummaryHead (mgr : ContextWindowManager) (m : Msg) : Bool :=
  typeOf m = "system" && Text.startsWith (mgr.textOf m) sessionSummaryHeader

def headSummary (mgr : ContextWindowManager) (m : Msg) : String :=
  let rest := (Text.removePrefix (mgr.textOf m) sessionSummaryHeader).toList
  Text.strip (String.ofList (rest.dropWhile (· == '\n')))

def extractStep (mgr : ContextWindowManager) (found : String × List Msg) (m : Msg) :
    String × List Msg :=
  if mgr.isSummaryHead m then (mgr.headSummary m, found.2) else (found.1, found.2 ++ [m])

/-- `_extract_previous_summary`: the last summary among the messages, and the other messages. -/
def extractPreviousSummary (mgr : ContextWindowManager) (messages : List Msg) :
    String × List Msg :=
  let (previous, new) := messages.foldl mgr.extractStep ("", [])
  (if previous = "" then mgr.summary else previous, new)

/-- What a request says of a message that is no summary; a long one is cut. -/
def turn (mgr : ContextWindowManager) (m : Msg) : String :=
  let content := mgr.textOf m
  typeOf m ++ ": " ++
    if 1000 < content.length then Text.takeChars content 1000 ++ "... (省略)" else content

def buildUserPrompt (mgr : ContextWindowManager) (prevSummary : String) (new : List Msg) :
    String :=
  (if prevSummary = "" then "" else "■ 以前の会話要約:\n" ++ prevSummary ++ "\n\n") ++
    "■ 新規の会話履歴:\n" ++ "\n".intercalate (new.map mgr.turn)

def summaryRequest (mgr : ContextWindowManager) (messages : List Msg) : SummaryRequest :=
  let (prevSummary, new) := mgr.extractPreviousSummary messages
  { messages := [.system compactPrompt, .human (mgr.buildUserPrompt prevSummary new)]
    model := mgr.compactModel }

/-- The messages that a request is made of: the last summary, and what is no summary. -/
def sources (mgr : ContextWindowManager) : List Msg → List Msg
  | [] => []
  | m :: rest =>
    if mgr.isSummaryHead m && rest.any mgr.isSummaryHead then mgr.sources rest
    else m :: mgr.sources rest

def summarisation (mgr : ContextWindowManager) (messages : List Msg) (text : String) :
    Summarisation where
  input := mgr.sources messages
  request := mgr.summaryRequest messages
  text := text

/-- The request says of the message what there is to say of it. -/
def TellsOf (mgr : ContextWindowManager) (request : SummaryRequest) (m : Msg) : Prop :=
  ∃ sent ∈ request.messages, Tells (mgr.textOf sent)
    (if mgr.isSummaryHead m then mgr.headSummary m else mgr.turn m)

/-- `summarize`: the stored summary again when there is no model, nothing to summarise, or the
model raises; nothing when the model exits. -/
def summarize (mgr : ContextWindowManager) (messages : List Msg) :
    Option (String × Option Summarisation) :=
  match mgr.llm with
  | none => some (mgr.summary, none)
  | some chat =>
    if messages.isEmpty then some (mgr.summary, none)
    else match chat (mgr.summaryRequest messages) with
      | .answered content =>
        some (Text.strip content, some (mgr.summarisation messages (Text.strip content)))
      | .raised => some (mgr.summary, none)
      | .exited => none

/-- All messages but the last `k`, the slice `[:-k]`. -/
def allButLast (k : Nat) (messages : List Msg) : List Msg :=
  if k = 0 then [] else messages.take (messages.length - k)

/-- `_compact`; nothing when it raises. -/
def compact (mgr : ContextWindowManager) (messages : List Msg) (preserveLast : Nat := 6) :
    Option Compaction :=
  (mgr.summarize (allButLast preserveLast messages)).map fun (summary, done) =>
    { manager := { mgr with summary }, summary, done }

/-- The history has come up to the threshold of the window; nothing when the tokenizer raises. -/
def reachesThreshold (mgr : ContextWindowManager) (contextWindow : Int)
    (modelName : Option String) (threshold : Rat) (messages : List Msg) : Option Bool :=
  (estimateMessagesTokens (mgr.getTokenizer modelName) (messages.map mgr.textOf)).map
    fun total => !decide ((total : Rat) < contextWindow * threshold)

/-- `check_and_summarize`; nothing when it raises. -/
def checkAndSummarize (mgr : ContextWindowManager) (messages : List Msg) (contextWindow : Int)
    (modelName : Option String) (threshold : Rat := 17 / 20) (preserveLast : Nat := 6) :
    Option Compaction :=
  let stored : Compaction := { manager := mgr, summary := mgr.summary }
  if contextWindow ≤ 0 then some stored
  else if messages.length ≤ preserveLast then some stored
  else match mgr.reachesThreshold contextWindow modelName threshold messages with
    | none => none
    | some false => some stored
    | some true => mgr.compact messages preserveLast

/-! ## What a request says -/

theorem sources_sublist (mgr : ContextWindowManager) (messages : List Msg) :
    (mgr.sources messages).Sublist messages := by
  induction messages with
  | nil => exact .slnil
  | cons m rest ih =>
    rw [sources]
    split
    · exact ih.cons m
    · exact ih.cons_cons m

/-- No message is left out of a request exactly if no two of them are summaries. -/
theorem sources_eq_iff (mgr : ContextWindowManager) (messages : List Msg) :
    mgr.sources messages = messages ↔ messages.countP mgr.isSummaryHead ≤ 1 := by
  induction messages with
  | nil => simp [sources]
  | cons m rest ih =>
    rw [sources]
    by_cases hm : mgr.isSummaryHead m = true
    · have hcount : (rest.any mgr.isSummaryHead) = false ↔
          rest.countP mgr.isSummaryHead = 0 := by
        rw [List.countP_eq_zero, List.any_eq_false]
      rw [List.countP_cons_of_pos hm, hm, Bool.true_and]
      cases hrest : rest.any mgr.isSummaryHead with
      | true =>
        rw [if_pos rfl]
        refine iff_of_false (fun heq => ?_) fun hle => ?_
        · have hlength := (mgr.sources_sublist rest).length_le
          rw [heq, List.length_cons] at hlength
          omega
        · rw [hcount.mpr (by omega)] at hrest
          cases hrest
      | false =>
        have hzero := hcount.mp hrest
        rw [if_neg Bool.false_ne_true, hzero]
        refine iff_of_true ?_ (by omega)
        rw [ih.mpr (by omega)]
    · have hnot : ¬ (mgr.isSummaryHead m && rest.any mgr.isSummaryHead) = true := by simp [hm]
      rw [if_neg hnot, List.countP_cons_of_neg hm, List.cons.injEq, ← ih, and_iff_right rfl]

/-- What is made a request of: the last summary, and what is no summary. -/
theorem mem_sources {mgr : ContextWindowManager} {messages : List Msg} {m : Msg}
    (h : m ∈ mgr.sources messages) :
    if mgr.isSummaryHead m then (messages.filter mgr.isSummaryHead).getLast? = some m
    else m ∈ messages := by
  induction messages with
  | nil => cases h
  | cons m' rest ih =>
    have hrest (h : m ∈ mgr.sources rest) : if mgr.isSummaryHead m then
        ((m' :: rest).filter mgr.isSummaryHead).getLast? = some m else m ∈ m' :: rest := by
      have hm := ih h
      split at hm
      · next hhead =>
        rw [if_pos hhead, List.filter_cons]
        split
        · rw [List.getLast?_cons, hm, Option.getD_some]
        · exact hm
      · next hhead =>
        rw [if_neg hhead]
        exact List.mem_cons_of_mem _ hm
    rw [sources] at h
    split at h
    · exact hrest h
    · next hlast =>
      rcases List.mem_cons.mp h with rfl | h
      · split
        · next hhead =>
          rw [hhead, Bool.true_and, Bool.not_eq_true, List.any_eq_false] at hlast
          rw [List.filter_cons_of_pos hhead, List.filter_eq_nil_iff.mpr hlast]
          rfl
        · exact List.mem_cons_self
      · exact hrest h

theorem extractPreviousSummary_eq (mgr : ContextWindowManager) (messages : List Msg) :
    mgr.extractPreviousSummary messages =
      (let previous :=
        (((messages.filter mgr.isSummaryHead).getLast?).map mgr.headSummary).getD ""
      if previous = "" then mgr.summary else previous,
        messages.filter fun m => !mgr.isSummaryHead m) := by
  have hloop (previous : String) (new : List Msg) :
      messages.foldl mgr.extractStep (previous, new) =
      ((((messages.filter mgr.isSummaryHead).getLast?).map mgr.headSummary).getD previous,
        new ++ messages.filter fun m => !mgr.isSummaryHead m) := by
    induction messages generalizing previous new with
    | nil => simp
    | cons m rest ih =>
      rw [List.foldl_cons, extractStep]
      by_cases hm : mgr.isSummaryHead m = true
      · rw [if_pos hm, ih]
        cases hlast : (rest.filter mgr.isSummaryHead).getLast? <;>
          simp [hm, List.getLast?_cons, hlast]
      · rw [if_neg hm, ih]
        simp [hm]
  rw [extractPreviousSummary, hloop "" []]
  rfl

/-- A request says of every message it is made of what there is to say. -/
theorem tellsOf_summaryRequest {mgr : ContextWindowManager} {messages : List Msg} {m : Msg}
    (h : m ∈ mgr.sources messages) : mgr.TellsOf (mgr.summaryRequest messages) m := by
  have hmem := mem_sources h
  rw [summaryRequest, extractPreviousSummary_eq]
  refine ⟨.human _, List.mem_cons_of_mem _ (List.mem_singleton_self _), ?_⟩
  dsimp only [textOf, buildUserPrompt]
  split at hmem
  · next hhead =>
    rw [if_pos hhead, hmem, Option.map_some, Option.getD_some]
    by_cases hempty : mgr.headSummary m = ""
    · rw [hempty]
      exact List.nil_infix
    · rw [if_neg hempty, if_neg hempty]
      exact ((((Tells.refl _).append_left _).append_right _).append_right _).append_right _
  · next hhead =>
    rw [if_neg hhead]
    refine (tells_intercalate (List.mem_map_of_mem ?_) (Tells.refl _)).append_left _
    exact List.mem_filter.mpr ⟨hmem, by simpa using hhead⟩

/-- What a request says of a message does not depend on the stored summary. -/
theorem tellsOf_with_summary {mgr : ContextWindowManager} {text : String}
    {request : SummaryRequest} {m : Msg} (h : mgr.TellsOf request m) :
    { mgr with summary := text }.TellsOf request m := h

/-! ## What a call answers -/

/-- What the request to summarise these messages comes to, if there is a model to ask. -/
def outcome? (mgr : ContextWindowManager) (messages : List Msg) : Option ChatOutcome :=
  mgr.llm.map fun chat => chat (mgr.summaryRequest messages)

/-- Whether a model answers the request; nothing when it exits. -/
def answers? (mgr : ContextWindowManager) (messages : List Msg) : Option Bool :=
  match mgr.outcome? messages with
  | some (.answered _) => some true
  | some .exited => none
  | _ => some false

/-- The answer is blank. -/
def AnswersBlank (mgr : ContextWindowManager) (messages : List Msg) : Prop :=
  ∃ content, mgr.outcome? messages = some (.answered content) ∧ Text.strip content = ""

/-- Whether a long history gets summarised: the window is known, the threshold reached, and the
model answers. Nothing when the tokenizer raises or the model exits. -/
def summarises? (mgr : ContextWindowManager) (messages : List Msg) (contextWindow : Int)
    (modelName : Option String) : Option Bool :=
  if contextWindow ≤ 0 then some false
  else match mgr.reachesThreshold contextWindow modelName (17 / 20) messages with
    | none => none
    | some false => some false
    | some true => mgr.answers? (allButLast 6 messages)

theorem allButLast_of_le {k : Nat} {messages : List Msg} (h : messages.length ≤ k) :
    allButLast k messages = [] := by
  unfold allButLast
  split
  · rfl
  · rw [Nat.sub_eq_zero_of_le h, List.take_zero]

theorem allButLast_append {k : Nat} (hk : k ≠ 0) (messages : List Msg) :
    allButLast k messages ++ messages.drop (messages.length - k) = messages := by
  rw [allButLast, if_neg hk, List.take_append_drop]

theorem allButLast_ne_nil {k : Nat} {messages : List Msg} (hk : k ≠ 0)
    (h : k < messages.length) : allButLast k messages ≠ [] := by
  intro hnil
  have happ := allButLast_append hk messages
  rw [hnil, List.nil_append] at happ
  have hlen := congrArg List.length happ
  rw [List.length_drop] at hlen
  omega

theorem summarize_of_answers {mgr : ContextWindowManager} {messages : List Msg}
    (hne : messages ≠ []) (h : mgr.answers? messages = some true) :
    ∃ content, mgr.outcome? messages = some (.answered content) ∧ mgr.summarize messages =
      some (Text.strip content, some (mgr.summarisation messages (Text.strip content))) := by
  unfold answers? at h
  split at h
  · next content hout =>
    obtain ⟨chat, hl, hc⟩ := Option.map_eq_some_iff.mp hout
    have hempty : messages.isEmpty = false := by simpa using hne
    exact ⟨content, hout, by simp [summarize, hl, hempty, hc]⟩
  · cases h
  · cases h

theorem summarize_of_exits {mgr : ContextWindowManager} {messages : List Msg}
    (hne : messages ≠ []) (h : mgr.answers? messages = none) : mgr.summarize messages = none := by
  unfold answers? at h
  split at h
  · cases h
  · next hout =>
    obtain ⟨chat, hl, hc⟩ := Option.map_eq_some_iff.mp hout
    have hempty : messages.isEmpty = false := by simpa using hne
    simp [summarize, hl, hempty, hc]
  · cases h

/-- A call that summarises nothing answers the stored summary, whatever it is about. -/
theorem summarize_of_not {mgr : ContextWindowManager} {messages : List Msg}
    (h : messages = [] ∨ mgr.answers? messages = some false) :
    mgr.summarize messages = some (mgr.summary, none) := by
  unfold answers? outcome? at h
  unfold summarize
  cases hl : mgr.llm with
  | none => rfl
  | some chat =>
    rw [hl, Option.map_some] at h
    rcases h with h | h
    · simp [h]
    · cases hc : chat (mgr.summaryRequest messages) with
      | answered content => simp [hc] at h
      | raised => simp [hc]
      | exited => simp [hc] at h

theorem compact_of_answers {mgr : ContextWindowManager} {messages : List Msg}
    (hlen : 6 < messages.length) (h : mgr.answers? (allButLast 6 messages) = some true) :
    ∃ content, mgr.outcome? (allButLast 6 messages) = some (.answered content) ∧
      mgr.compact messages = some ⟨{ mgr with summary := Text.strip content }, Text.strip content,
        some (mgr.summarisation (allButLast 6 messages) (Text.strip content))⟩ := by
  obtain ⟨content, hanswer, htext⟩ :=
    summarize_of_answers (allButLast_ne_nil (by decide) hlen) h
  exact ⟨content, hanswer, by rw [compact, htext, Option.map_some]⟩

theorem compact_of_exits {mgr : ContextWindowManager} {messages : List Msg}
    (hlen : 6 < messages.length) (h : mgr.answers? (allButLast 6 messages) = none) :
    mgr.compact messages = none := by
  rw [compact, summarize_of_exits (allButLast_ne_nil (by decide) hlen) h, Option.map_none]

theorem compact_of_not {mgr : ContextWindowManager} {messages : List Msg}
    (h : messages.length ≤ 6 ∨ mgr.answers? (allButLast 6 messages) = some false) :
    mgr.compact messages = some ⟨mgr, mgr.summary, none⟩ := by
  rw [compact, summarize_of_not (h.imp_left allButLast_of_le), Option.map_some]

theorem answers_of_summarises {mgr : ContextWindowManager} {messages : List Msg}
    {contextWindow : Int} {modelName : Option String}
    (h : mgr.summarises? messages contextWindow modelName = some true) :
    mgr.answers? (allButLast 6 messages) = some true := by
  unfold summarises? at h
  split at h
  · cases h
  · split at h
    · cases h
    · cases h
    · exact h

/-- The three ways a check of a long history goes: it raises, makes a new summary of what is
older than the last messages, or answers the stored one. -/
theorem checkAndSummarize_eq (mgr : ContextWindowManager) {messages : List Msg}
    (contextWindow : Int) (modelName : Option String) (hlen : 6 < messages.length) :
    mgr.checkAndSummarize messages contextWindow modelName =
      (mgr.summarises? messages contextWindow modelName).bind fun
        | true => mgr.compact messages
        | false => some ⟨mgr, mgr.summary, none⟩ := by
  unfold checkAndSummarize summarises?
  by_cases hw : contextWindow ≤ 0
  · rw [if_pos hw, if_pos hw]
    rfl
  · rw [if_neg hw, if_neg hw, if_neg (Nat.not_le.mpr hlen)]
    cases mgr.reachesThreshold contextWindow modelName (17 / 20) messages with
    | none => rfl
    | some reached =>
      cases reached with
      | false => rfl
      | true =>
        cases ha : mgr.answers? (allButLast 6 messages) with
        | none => simp [compact_of_exits hlen ha]
        | some answered =>
          cases answered with
          | true => simp
          | false => simp [compact_of_not (.inr ha)]

end ContextWindowManager

end IrisMind.Llm
