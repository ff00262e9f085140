import IrisMind.Lib.Replacing
import IrisMind.Lib.Words
import IrisMind.Planning.Strategies

/-! # The system prompt

Two messages: one says who Iris is and what she knows of whom, the other what a
node is to do. Both are put together from parts, and an empty part is left out. -/
namespace IrisMind.Execution
open IrisMind.Lib IrisMind.Planning

/-- What the memory answers; none is an exception. A search has a query, a number of results, a
room and an account. -/
structure PromptMemory where
  searchSemantic : String → Nat → String → String → Option (List Json)
  usersByRoom : String → Option (List String)

def PromptMemory.getUserPreferences (m : PromptMemory) (roomId accountId : String) :
    Option (List Json) :=
  m.searchSemantic "ユーザーの好み 興味 趣味" 2 roomId accountId

/-- What there is when a prompt is built: the profile, the memory, the file of a type of node, of
which `some none` is that there is none, the time as a text, and what is drawn. -/
structure PromptWorld where
  agentsMd : String := ""
  memory : Option PromptMemory := none
  nodeFile : String → Option (Option String) := fun _ => some none
  timeString : String := ""
  draw : ℚ := 0

/-- The name, and what `str.format` makes of the template; it raises at a field it does not know. -/
structure Personality where
  name : String
  format : String → String → Option String

namespace Personality

/-- A part under its header. -/
def sectionText (header content : String) : String :=
  if content = "" then "" else "\n\n" ++ header ++ "\n" ++ content

def sectionsText (sections : List (String × String)) : String :=
  String.join (sections.map fun s => sectionText s.1 s.2)

def fillName (p : Personality) (content : String) : String :=
  String.ofList (Replacing.replaceAll "{name}".toList p.name.toList content.toList)

def buildSystemPrompt (p : Personality) (agentsMdContent userPreferences responseStyle
    governancePrinciples affectiveGuidance styleHints : String) : Option String := do
  let agentsMdContent := if agentsMdContent = "" then "" else p.fillName agentsMdContent
  let prompt ← p.format p.name agentsMdContent
  some (Text.strip (prompt ++ sectionsText [("## ユーザー情報", userPreferences),
    ("## 自己規律", governancePrinciples), ("## 応答スタイル", responseStyle),
    ("## 動的スタイル記憶", styleHints), ("## Irisの現在の応答傾向", affectiveGuidance)]))

/-- The default thinking prompt; nothing sets another. -/
def buildThinkingPrompt (userInput : String) : String :=
  "## 思考モード ON\n以下のタスクについて、ステップバイステップで考えてから回答してください。\n\n" ++
    "### タスク\n" ++ userInput ++ "\n"

end Personality

/-! ## The profile -/

namespace ProfileBuilder

/-- `p.get("content", "").strip()`; what is no text raises. -/
def preferenceText (row : Json) : Option String := do
  some (Text.strip (← textOf (← valueOf row "content")))

/-- The lines of what is not blank, each once. -/
def preferenceLines (contents : List String) : List String :=
  (contents.filter (· ≠ "")).eraseDups.map ("- " ++ ·)

/-- `_build_user_preferences_section` -/
def userPreferencesSection (w : PromptWorld) (roomId accountId : String) : Option String :=
  match w.memory with
  | none => some ""
  | some m => do
    let prefsList ← m.getUserPreferences roomId accountId
    let contents ← prefsList.mapM preferenceText
    some ("\n".intercalate (preferenceLines contents))

/-- `_build_participants_section`; no caller hands over active users. -/
def participantsSection (w : PromptWorld) (roomId currentDisplayName : String) : Option String := do
  let users ← match w.memory with
    | none => some []
    | some m => if roomId = "" then some [] else m.usersByRoom roomId
  some (match users with
    | [] => if currentDisplayName = "" then "" else "## 現在の会話相手\n" ++ currentDisplayName
    | [nick] => "## 現在の会話相手\n" ++ nick
    | names => "## ルームの参加者\n" ++ "\n".intercalate (names.map ("- " ++ ·)))

/-- The gateway sets no principles, and the profile no style hints. -/
def build (p : Personality) (w : PromptWorld) (responseStyle currentDisplayName roomId
    accountId : String) (modulation : ModulationState) : Option String := do
  let userPrefs ← userPreferencesSection w roomId accountId
  let base ← p.buildSystemPrompt w.agentsMd userPrefs responseStyle ""
    ("\n".intercalate modulation.promptLines) ""
  let participants ← participantsSection w roomId currentDisplayName
  some ("\n\n".intercalate ([base, "## 現在日時\n" ++ w.timeString] ++
    if participants = "" then [] else [participants]))

end ProfileBuilder

/-! ## What a node is to do -/

namespace NodePromptFactory

def responseRules : String :=
  "## 回答ルール【厳守】\n- 会話は簡潔に、1〜2文で十分。\n" ++
    "- 敬語（です・ます・ください）は絶対に使用せず、親しみやすいタメ口（〜だよ、〜じゃん、〜だね）で話すこと。"

def relaxedResponseRules : String :=
  "## 回答ルール\n- 会話の長さは自由。\n- 敬語は禁止。タメ口（〜だよ、〜じゃん、〜だね）で話すこと。"

def baseTemplate (nodeType : String) : String :=
  if nodeType = "general_chat" then "## 指示\n簡易な会話応答をおこなう。" else ""

/-- `_load_base`; the file of the type comes before the template. -/
def loadBase (w : PromptWorld) (nodeType : String) : Option String :=
  (w.nodeFile nodeType).map fun file => (file.map Text.strip).getD (baseTemplate nodeType)

def rules (w : PromptWorld) (chaosLevel : ℚ) : String :=
  if 5 / 10 ≤ chaosLevel ∧
    (ModulationState.fromChaosLevel chaosLevel).checkRelaxResponseRules w.draw = true then
    relaxedResponseRules
  else responseRules

def build (w : PromptWorld) (nodeType contextHint : String) (chaosLevel : ℚ) : Option String := do
  let base ← loadBase w nodeType
  some ("\n\n".intercalate ((if base = "" then [] else [base]) ++
    (if contextHint = "" then [] else ["## 会話コンテキスト\n" ++ contextHint]) ++
      [rules w chaosLevel]))

end NodePromptFactory

/-- `SystemPromptBuilder.build`, with the profile, which every caller includes. -/
def SystemPromptBuilder.build (p : Personality) (w : PromptWorld) (nodeType contextHint
    responseStyle currentDisplayName roomId accountId : String) (modulation : ModulationState) :
    Option (List String) := do
  let profile ← ProfileBuilder.build p w responseStyle currentDisplayName roomId accountId
    modulation
  let node ← NodePromptFactory.build w nodeType contextHint modulation.chaosLevel
  some [profile, node]

/-! ## What the profile tells -/

theorem mem_of_mapM {α β : Type} {f : α → Option β} {l : List α} {l' : List β} {a : α} {b : β}
    (hl : l.mapM f = some l') (ha : a ∈ l) (hb : f a = some b) : b ∈ l' := by
  induction l generalizing l' with
  | nil => cases ha
  | cons a' l ih =>
    rw [List.mapM_cons] at hl
    obtain ⟨c, hc, hl⟩ := Option.bind_eq_some_iff.mp hl
    obtain ⟨cs, hcs, hl⟩ := Option.bind_eq_some_iff.mp hl
    obtain rfl := Option.some.inj hl
    rcases List.mem_cons.mp ha with rfl | ha
    · rw [Option.some.inj (hb.symm.trans hc)]
      exact List.mem_cons_self
    · exact List.mem_cons_of_mem _ (ih hcs ha)

theorem tells_preferences {contents : List String} {content : String} (hmem : content ∈ contents)
    (hne : content ≠ "") :
    Tells ("\n".intercalate (ProfileBuilder.preferenceLines contents)) content := by
  have hkept : content ∈ (contents.filter (· ≠ "")).eraseDups :=
    List.mem_eraseDups.mpr (List.mem_filter.mpr ⟨hmem, by simpa using hne⟩)
  have hline : Tells ("- " ++ content) content := Tells.append_left List.infix_rfl _
  exact tells_intercalate (List.mem_map_of_mem hkept) hline

/-- The template may put the profile anywhere, or nowhere; the preferences come after it. -/
theorem tells_systemPrompt {p : Personality} {agentsMd userPreferences responseStyle
    governancePrinciples affectiveGuidance styleHints content base : String}
    (hbase : p.buildSystemPrompt agentsMd userPreferences responseStyle governancePrinciples
      affectiveGuidance styleHints = some base)
    (h : Tells userPreferences (Text.strip content)) (hne : Text.strip content ≠ "") :
    Tells base (Text.strip content) := by
  obtain ⟨prompt, -, heq⟩ := Option.bind_eq_some_iff.mp hbase
  obtain rfl := Option.some.inj heq
  have hsome : userPreferences ≠ "" := by
    rintro rfl
    exact hne (String.toList_eq_nil_iff.mp (List.infix_nil.mp h))
  refine Tells.strip (Tells.append_left ?_ _)
  rw [Personality.sectionsText, List.map_cons, String.join_cons, Personality.sectionText,
    if_neg hsome]
  exact (h.append_left _).append_right _

/-- A profile tells every preference that the memory gives for the room and the account. -/
theorem tells_profile {p : Personality} {w : PromptWorld} {m : PromptMemory}
    {responseStyle displayName roomId accountId text content : String}
    {modulation : ModulationState} {rows : List Json} {row : Json}
    (htext : ProfileBuilder.build p w responseStyle displayName roomId accountId modulation =
      some text) (hmemory : w.memory = some m)
    (hrows : m.getUserPreferences roomId accountId = some rows) (hrow : row ∈ rows)
    (hcontent : valueOf row "content" = some (.str content)) (hne : Text.strip content ≠ "") :
    Tells text (Text.strip content) := by
  obtain ⟨userPrefs, hprefs, h⟩ := Option.bind_eq_some_iff.mp htext
  obtain ⟨base, hbase, h⟩ := Option.bind_eq_some_iff.mp h
  obtain ⟨participants, -, h⟩ := Option.bind_eq_some_iff.mp h
  obtain rfl := Option.some.inj h
  simp only [ProfileBuilder.userPreferencesSection, hmemory, hrows, Option.bind_eq_bind,
    Option.bind_some] at hprefs
  obtain ⟨contents, hcontents, h⟩ := Option.bind_eq_some_iff.mp hprefs
  obtain rfl := Option.some.inj h
  have hstripped : ProfileBuilder.preferenceText row = some (Text.strip content) := by
    rw [ProfileBuilder.preferenceText, hcontent]
    rfl
  have hmem := mem_of_mapM hcontents hrow hstripped
  exact tells_intercalate (by simp) (tells_systemPrompt hbase (tells_preferences hmem hne) hne)

end IrisMind.Execution
