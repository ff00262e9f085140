import IrisMind.Memory.ShortTermContext
import IrisMind.Planning.Scorer
import Mathlib.Data.List.MinMax

/-! # The context hint of a plan

What is remembered of the room is put into a few lines. For a plan that answers
someone, what raises ends the hint where it is; for one of Iris's own it ends
the plan. Once in a while something is thrown in that has to do with nothing. -/
namespace IrisMind.Planning
open IrisMind.Lib

/-- What the providers ask besides. -/
structure PlanningMemory extends MemoryView where
  renderContext : Option String → String → Option String
  usersByRoom : String → Option (List String)

/-- What the builder is given from outside: how old a time is in seconds, where `some none` is a
text that is no time and none one without a zone, which raises; the hour; how a value that is
no text is written; and what is drawn. -/
structure HintWorld where
  age : String → Option (Option Int)
  hour : Nat
  str : Json → String
  draw : ℚ
  choice : Nat

/-- `f"{value}"` -/
def HintWorld.format (w : HintWorld) : Json → String
  | .str s => s
  | j => w.str j

/-- `format_age` -/
def formatAge (w : HintWorld) (ts : Json) : Option String :=
  if !ts.truthy then some ""
  else
    match ts with
    | .str s => (w.age s).map fun
      | none => ""
      | some secs =>
        if secs < 60 then "たった今"
        else if secs < 3600 then toString (secs / 60) ++ "分前"
        else if secs < 86400 then toString (secs / 3600) ++ "時間前"
        else if 1 < secs / 86400 then toString (secs / 86400) ++ "日前" else "昨日"
    | _ => none

/-- `row.get(key, "")` -/
def valueOf (row : Json) (key : String) : Option Json := getOf row key (.str "")

def ageOf (w : HintWorld) (row : Json) : Option String := do
  formatAge w (← valueOf row "timestamp")

/-- `f"{value[:n]}"`; what is neither text nor list raises. -/
def cut (w : HintWorld) (value : Json) (n : Nat) : Option String :=
  match value with
  | .str s => some (Text.takeChars s n)
  | .arr items => some (w.format (.arr (items.take n)))
  | _ => none

namespace Hints

variable (w : HintWorld) (m : PlanningMemory)

/-- The loop of `EpisodicProvider.build`: the first entry that says something. -/
def firstTopic : List Json → Option (Option String)
  | [] => some none
  | e :: rest => do
    let s ← valueOf e "summary"
    if s.truthy then
      let ts ← ageOf w e
      let s ← cut w s 60
      if ts = "" then some (some ("話題: " ++ s))
      else
        let label := if ts = "たった今" then "直前の話題" else "過去の話題"
        some (some (label ++ ": " ++ s ++ "（" ++ ts ++ "）"))
    else firstTopic rest

/-- `EpisodicProvider.build` -/
def episodic (roomId : String) : Option (Option String) := do
  firstTopic w (← m.recent 3 roomId).reverse

/-- What `WorkingMemoryProvider.build` raises, it answers with nothing. -/
def workingMemory (query : Option String) (roomId : String) : String :=
  ((do
    let wm ← m.renderContext query roomId
    if wm ≠ "" then return wm
    let recent ← m.recent 3 roomId
    let topics ← recent.filterMapM fun e => do
      let s ← valueOf e "summary"
      if s.truthy then return some ((← cut w s 60) ++ "（" ++ (← ageOf w e) ++ "）")
      return none
    return if topics.isEmpty then "" else "直近の話題: " ++ " | ".intercalate topics) :
      Option String).getD ""

/-- `SemanticProvider.build`: the first of the best results, when it is good enough. -/
def semantic (content roomId : String) : Option (Option String) := do
  let results ← m.searchSemantic content 2 roomId
  let scores ← results.mapM scoreOf
  match (results.zip scores).argmax Prod.snd with
  | none => some none
  | some (best, score) =>
    if score ≤ 5 / 10 then some none
    else
      let ts ← ageOf w best
      let content ← cut w (← valueOf best "content") 60
      some (some ("関連記憶: " ++ content ++ if ts = "" then "" else "（" ++ ts ++ "）"))

/-- `ParticipantsProvider.build` -/
def participants (roomId : String) : String :=
  if roomId = "" then ""
  else
    match m.usersByRoom roomId with
    | none => ""
    | some users =>
      if users.length ≤ 1 then "" else "このルームの参加者: " ++ ", ".intercalate users

/-- `UserPreferencesProvider.build`, with `get_user_preferences` -/
def userPreferences (roomId : String) : Option String := do
  let prefs ← m.searchSemantic "ユーザーの好み 興味 趣味" 2 roomId
  let first ← prefs.head?
  let content ← cut w (← valueOf first "content") 80
  some ("ユーザーの関心: " ++ content)

/-- `RandomMemoryProvider.build`, of all rooms. -/
def randomMemory : Option String := do
  let recent ← m.recent 10 ""
  let entry ← recent[w.choice % recent.length]?
  let summary ← valueOf entry "summary"
  let summary ← if summary.truthy then some summary else valueOf entry "content"
  if summary.truthy then
    let s ← cut w summary 60
    some ("ふと思い出したこと: " ++ s)
  else none

/-- The parts that say something, up to the one that raises. -/
def gather : List (Option (Option String)) → List String
  | [] => []
  | none :: _ => []
  | some part :: rest => (part.filter (· ≠ "")).toList ++ gather rest

def join (parts : List String) : String := " / ".intercalate parts

/-- Whether something is thrown in. -/
def strays (chaosLevel share : ℚ) : Bool := 0 < chaosLevel && w.draw < chaosLevel * share

def stray (chaosLevel share : ℚ) : Option (Option String) :=
  some (if strays w chaosLevel share then randomMemory w m else none)

/-- `build_user_context_hint` -/
def buildUserContextHint (content : String) (chaosLevel : ℚ) (roomId : String) : String :=
  if content = "" then ""
  else
    let wc := workingMemory w m (some content) roomId
    join (gather [if wc ≠ "" then some (some wc) else episodic w m roomId,
      semantic w m content roomId, some (some (participants m roomId)),
      stray w m chaosLevel (2 / 10)])

def buildTimeLabel : String :=
  if w.hour < 12 then "午前" else if w.hour < 17 then "午後" else "夕方以降"

/-- The name of the greatest score, the first of several. -/
def trigger (s : ProactiveScorer.Scores) : String :=
  (([("memory", s.memory), ("context", s.context), ("sensory", s.sensory),
    ("short_term", s.shortTerm), ("urgency", s.urgency)].argmax Prod.snd).map Prod.fst).getD ""

/-- `_build_general_hint` -/
def buildGeneralHint (s : ProactiveScorer.Scores) (chaosLevel : ℚ) (roomId : String) : String :=
  let wc := workingMemory w m none roomId
  join (gather [some (some ("時間帯: " ++ buildTimeLabel w)), some (some ("トリガー: " ++ trigger s)),
    some (some (if wc ≠ "" then "ワーキングメモリ:\n" ++ wc else "")),
    some (userPreferences w m roomId), stray w m chaosLevel (3 / 10)])

/-- `build_proactive_context_hint` -/
def buildProactiveContextHint (context : Dict String Json) (s : ProactiveScorer.Scores)
    (chaosLevel : ℚ) (roomId : String) : String :=
  if context.contains "system_event" then
    if ProactiveScorer.isConnected context then
      let role := w.format (context.getD "role" (.str ""))
      let offline := context.getD "offline_duration" (.str "")
      if offline.truthy then
        "システムイベント: ロール " ++ role ++ " が " ++ w.format offline ++
          " の切断期間を経て再接続しました。"
      else "システムイベント: ロール " ++ role ++ " が接続しました。"
    else ""
  else buildGeneralHint w m s chaosLevel roomId

/-! ## What a hint depends on -/

/-- Two memories that answer the same about a room. -/
structure AgreeOn (m m' : PlanningMemory) (roomId : String) : Prop where
  recent : ∀ n, m.recent n roomId = m'.recent n roomId
  semantic : ∀ query n, m.searchSemantic query n roomId = m'.searchSemantic query n roomId
  rendered : ∀ query, m.renderContext query roomId = m'.renderContext query roomId
  users : m.usersByRoom roomId = m'.usersByRoom roomId

variable {w m} {m' : PlanningMemory} {roomId : String}

theorem AgreeOn.workingMemory (h : AgreeOn m m' roomId) (query : Option String) :
    workingMemory w m query roomId = workingMemory w m' query roomId := by
  simp only [Hints.workingMemory, h.rendered, h.recent]

/-! ## When a hint keeps its room apart -/

section Isolation

variable {content : String} {chaosLevel : ℚ} {l l' : List (Option (Option String))}

theorem gather_append (h : none ∉ l) : gather (l ++ l') = gather l ++ gather l' := by
  induction l with
  | nil => rfl
  | cons part l ih =>
    cases part with
    | none => exact absurd List.mem_cons_self h
    | some part =>
      rw [List.cons_append, gather, gather, ih fun hmem => h (List.mem_cons_of_mem _ hmem),
        List.append_assoc]

theorem gather_raised (h : none ∈ l) : gather (l ++ l') = gather l := by
  induction l with
  | nil => cases h
  | cons part l ih =>
    cases part with
    | none => rfl
    | some part =>
      rw [List.cons_append, gather, gather, ih (by simpa using h)]

/-- The parts of a hint that are of its room. -/
def roomParts (w : HintWorld) (m : PlanningMemory) (content roomId : String) :
    List (Option (Option String)) :=
  let wc := workingMemory w m (some content) roomId
  [if wc ≠ "" then some (some wc) else episodic w m roomId, semantic w m content roomId,
    some (some (participants m roomId))]

theorem buildUserContextHint_eq (h : content ≠ "") :
    buildUserContextHint w m content chaosLevel roomId =
      join (gather (roomParts w m content roomId ++ [stray w m chaosLevel (2 / 10)])) := if_neg h

theorem AgreeOn.roomParts (h : AgreeOn m m' roomId) :
    roomParts w m' content roomId = roomParts w m content roomId := by
  simp only [Hints.roomParts, h.workingMemory, episodic, Hints.semantic, participants, h.recent,
    h.semantic, h.users]

/-- The same memory, but for what it answers about no room. -/
def elsewhere (m : PlanningMemory) (rows : List Json) : PlanningMemory :=
  { m with recent := fun n r => if r = "" then some rows else m.recent n r }

theorem agreeOn_elsewhere (hroom : roomId ≠ "") (rows : List Json) :
    AgreeOn m (elsewhere m rows) roomId where
  recent _ := (if_neg hroom).symm
  semantic _ _ := rfl
  rendered _ := rfl
  users := rfl

/-- A hint of a room is that of every memory that answers the same about the room, exactly when
nothing is thrown in, be it that nothing is drawn or that something has raised before. -/
theorem hint_isolated_iff (w : HintWorld) (m : PlanningMemory) (content : String) (chaosLevel : ℚ)
    (roomId : String) (hroom : roomId ≠ "") :
    (∀ m', AgreeOn m m' roomId → buildUserContextHint w m' content chaosLevel roomId =
      buildUserContextHint w m content chaosLevel roomId) ↔
    content = "" ∨ strays w chaosLevel (2 / 10) = false ∨
      none ∈ roomParts w m content roomId := by
  constructor
  · intro hisolated
    by_contra hnot
    obtain ⟨hcontent, hstrays, hraised⟩ : content ≠ "" ∧ strays w chaosLevel (2 / 10) = true ∧
      none ∉ roomParts w m content roomId := by simpa using hnot
    have hhint : ∀ rows, join (gather (roomParts w m content roomId ++
        [some (randomMemory w (elsewhere m rows))])) =
          buildUserContextHint w m content chaosLevel roomId := by
      intro rows
      have hagree := agreeOn_elsewhere (m := m) hroom rows
      rw [← hisolated _ hagree, buildUserContextHint_eq hcontent, hagree.roomParts, stray, hstrays]
      rfl
    -- with nothing to remember nothing is added, and with one thing that is
    have hnothing := hhint []
    have hthought := hhint [.obj [("summary", .str "x")]]
    rw [gather_append hraised] at hnothing hthought
    have hlonger : (join (gather (roomParts w m content roomId))).length <
        (join (gather (roomParts w m content roomId) ++ ["ふと思い出したこと: x"])).length :=
      Memory.ShortTermMemoryManager.length_intercalate_lt _ _ (by decide)
    refine absurd (congrArg String.length (hnothing.trans hthought.symm)) (Nat.ne_of_lt ?_)
    rw [show gather [some (randomMemory w (elsewhere m []))] = [] from rfl, List.append_nil]
    rw [show gather [some (randomMemory w (elsewhere m [.obj [("summary", .str "x")]]))] =
      ["ふと思い出したこと: x"] by
        simp [gather, randomMemory, elsewhere, Nat.mod_one, valueOf, getOf, Dict.lookup,
          Json.truthy, cut, Text.takeChars]]
    exact hlonger
  · rintro hkept m' hagree
    by_cases hcontent : content = ""
    · rw [buildUserContextHint, buildUserContextHint, if_pos hcontent, if_pos hcontent]
    · rw [buildUserContextHint_eq hcontent, buildUserContextHint_eq hcontent, hagree.roomParts]
      rcases hkept with h | hstrays | hraised
      · exact absurd h hcontent
      · rw [stray, stray, hstrays]
        rfl
      · rw [gather_raised hraised, gather_raised hraised]

/-- A memory that has nothing to say, and a draw that throws something in. -/
def quietMemory : PlanningMemory where
  recent _ _ := some []
  searchSemantic _ _ _ := some []
  raw _ := some false
  recentTurns _ := some 0
  renderContext _ _ := some ""
  usersByRoom _ := some []

def strayingWorld : HintWorld where
  age _ := some none
  hour := 9
  str _ := ""
  draw := 0
  choice := 0

theorem hint_isolated_iff_drawn : ¬ ∀ m', AgreeOn quietMemory m' "garden" →
    buildUserContextHint strayingWorld m' "hi" 1 "garden" =
      buildUserContextHint strayingWorld quietMemory "hi" 1 "garden" := by
  rw [hint_isolated_iff strayingWorld quietMemory "hi" 1 "garden" (by decide)]
  rintro (h | h | h)
  · exact absurd h (by decide)
  · have hdrawn : strays strayingWorld 1 (2 / 10) = true := by
      simp only [strays, strayingWorld, Bool.and_eq_true, decide_eq_true_eq]
      norm_num
    exact absurd h (by simp [hdrawn])
  · simp [roomParts, workingMemory, episodic, firstTopic, Hints.semantic, quietMemory] at h

end Isolation

end Hints

end IrisMind.Planning
