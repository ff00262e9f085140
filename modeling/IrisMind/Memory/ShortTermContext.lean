import Mathlib.Data.Rat.Defs
import Mathlib.Algebra.Order.Ring.Rat
import Mathlib.Data.Fintype.EquivFin
import IrisMind.Memory.ShortTerm

/-! # The context rendered from the short term memory

The turns and the search are those of a room and an account. The references and
the users that go with them are those of all rooms. -/
namespace IrisMind.Memory
open IrisMind.Lib

structure ShortTermSearchResult extends ShortTermTurn where
  relevance : ℚ
  index : Nat
deriving DecidableEq

/-- What is a word character and what is lower case, the order in which a set is gone over, and
a number with two decimals. -/
structure TextTools where
  isWord : Char → Bool
  lower : String → String
  order : List String → List String
  twoDecimals : ℚ → String

namespace Searcher

variable (tools : TextTools)

/-- The words `\w+` finds in the lower case of a text, each once. -/
def words (text : String) : List (List Char) :=
  (((tools.lower text).toList.splitOnP (!tools.isWord ·)).filter (· ≠ [])).dedup

def computeRelevance (query : String) (turn : ShortTermTurn) : ℚ :=
  if query = "" then 0
  else if turn.text = "" then 0
  else
    let qWords := words tools query
    let tWords := words tools turn.text
    if qWords = [] ∨ tWords = [] then 0 else (qWords.filter (· ∈ tWords)).length / qWords.length

/-- The key the results are sorted by: relevance, importance, and the later one first. -/
def before (r r' : ShortTermSearchResult) : Bool :=
  r'.relevance < r.relevance ∨ r'.relevance = r.relevance ∧
    (r'.importance < r.importance ∨ r'.importance = r.importance ∧ r'.index ≤ r.index)

/-- `search` in the turns of a scope. -/
def search (turns : List ShortTermTurn) (query : String) (maxResults : Nat) :
    List ShortTermSearchResult :=
  if query = "" then []
  else
    let scored := turns.zipIdx.filterMap fun (turn, origIdx) =>
      let relevance := computeRelevance tools query turn
      if relevance = 0 ∧ ¬ (tools.lower query).toList <:+: (tools.lower turn.text).toList then none
      else some { toShortTermTurn := turn, relevance := if 0 < relevance then relevance else 1 / 100
                  index := origIdx : ShortTermSearchResult }
    (scored.mergeSort before).take maxResults

end Searcher

namespace Renderer

/-- `s[:n]` -/
def sliceTo (s : String) (n : Int) : String :=
  if 0 ≤ n then Text.takeChars s n.toNat else Text.takeChars s (s.length - (-n).toNat)

/-- What is too long is cut, and ends in three dots. -/
def clip (maxChars : Int) (text : String) : String :=
  if maxChars < text.length then sliceTo text (maxChars - 3) ++ "..." else text

/-- The loop of `_render_blocks`. -/
def blockTags : Int → List ContentBlock → List String
  | _, [] => []
  | remaining, b :: rest =>
    if remaining ≤ 0 then []
    else
      let tag := clip remaining b.tag
      if tag = "" then blockTags remaining rest
      else tag :: blockTags (remaining - tag.length) rest

def renderBlocks (blocks : List ContentBlock) (maxChars : Int := 100) : String :=
  " ".intercalate (blockTags maxChars blocks)

/-- The line of a turn. -/
def turnLine (t : ShortTermTurn) : String :=
  let label := if t.accountId ≠ "" then t.accountId else if t.role = "user" then "User" else "Iris"
  let thought := if t.role = "thought" then "(思考) " else ""
  "- " ++ label ++ ": " ++ thought ++ "「" ++ renderBlocks t.blocks ++ "」"

def resultLine (tools : TextTools) (r : ShortTermSearchResult) : String :=
  turnLine r.toShortTermTurn ++ "(関連度 " ++ tools.twoDecimals r.relevance ++ ")"

def userLine (u : ActiveUser) : String := "- " ++ u.displayName

def userLines (users : List ActiveUser) : List String :=
  if users = [] then [] else "### 現在の参加者" :: users.map userLine

/-- The longest references, those of one length as they come. -/
def referenceLines (tools : TextTools) (references : List String) : List String :=
  if references = [] then []
  else ["### 参照エンティティ", ", ".intercalate
    (((tools.order references).mergeSort fun r r' => r'.length ≤ r.length).take 5)]

/-- The results are copies, so none of the last turns counts as shown. -/
def conversationLines (tools : TextTools) (chatTurns : List ShortTermTurn)
    (relevantResults : List ShortTermSearchResult) : List String :=
  if relevantResults = [] then []
  else "### 直近の会話（関連）" :: relevantResults.map (resultLine tools) ++
    (chatTurns.rtake 4).reverse.map turnLine

/-- The lines of the context when there are turns. -/
def contextLines (tools : TextTools) (turns : List ShortTermTurn)
    (activeReferences : List String) (relevantResults : List ShortTermSearchResult)
    (activeUsers : List ActiveUser) (roomId : String) : List String :=
  let turns := if roomId = "" then turns else turns.filter (·.roomId = roomId)
  let chatTurns := turns.filter (·.role ≠ "system")
  if chatTurns = [] ∧ relevantResults = [] then userLines activeUsers
  else conversationLines tools chatTurns relevantResults ++
    referenceLines tools activeReferences ++ userLines activeUsers

def renderShortTermContext (tools : TextTools) (turns : List ShortTermTurn)
    (activeReferences : List String) (relevantResults : List ShortTermSearchResult)
    (maxChars : Int) (activeUsers : List ActiveUser) (roomId : String) : String :=
  if turns = [] then ""
  else
    let parts := contextLines tools turns activeReferences relevantResults activeUsers roomId
    if parts = [] then "" else clip maxChars ("\n".intercalate parts)

end Renderer

namespace ShortTermMemoryManager

variable (tools : TextTools) (m : ShortTermMemoryManager)

/-- The turns of a scope, as they are read. -/
def turnsIn (scope : ShortTermScope) : List ShortTermTurn :=
  (m.store.scopeTurns scope).map (·.toShortTermTurn)

def relevantResults (query : Option String) (scope : ShortTermScope) :
    List ShortTermSearchResult :=
  match query with
  | some query => Searcher.search tools (m.turnsIn scope) query 3
  | none => []

def renderContext (maxChars : Int) (query : Option String) (roomId accountId : String) : String :=
  Renderer.renderShortTermContext tools (m.turnsIn { roomId, accountId })
    m.store.activeReferences (m.relevantResults tools query { roomId, accountId }) maxChars
    m.presence.getActiveUsers roomId

/-! ## What is promised -/

/-- What was said in a room, and the references found in it. -/
def saidIn (roomId : String) : List (ShortTermTurn × List String) :=
  (m.store.turns.filter (·.roomId = roomId)).map fun t => (t.toShortTermTurn, t.references)

/-- The memories agree on what was said in the room, and on who is there. -/
structure AgreesIn (roomId : String) (m m' : ShortTermMemoryManager) : Prop where
  said : m.saidIn roomId = m'.saidIn roomId
  users : m.presence.getUsersByRoom roomId = m'.presence.getUsersByRoom roomId

/-- The context of the room is that of every memory that agrees with this one on the room. -/
def Isolated (query : Option String) (roomId accountId : String) : Prop :=
  ∀ m', AgreesIn roomId m m' → ∀ maxChars,
    m.renderContext tools maxChars query roomId accountId =
      m'.renderContext tools maxChars query roomId accountId

/-! ## The turns are those of the room -/

variable {tools m} {m' : ShortTermMemoryManager} {query : Option String} {roomId accountId : String}

theorem turnsIn_eq (hroom : roomId ≠ "") : m.turnsIn { roomId, accountId } =
    ((m.saidIn roomId).map Prod.fst).filter fun t => accountId = "" ∨ t.accountId = accountId := by
  rw [turnsIn, ShortTermStore.scopeTurns_eq, saidIn, List.map_map, List.filter_map,
    List.filter_filter]
  refine congrArg (List.map _) (List.filter_congr fun t _ => ?_)
  simp [ShortTermScope.admits, ShortTermScope.admitsAccount, ShortTermScope.admitsRoom, hroom]

theorem AgreesIn.turnsIn (h : AgreesIn roomId m m') (hroom : roomId ≠ "") :
    m.turnsIn { roomId, accountId } = m'.turnsIn { roomId, accountId } := by
  rw [turnsIn_eq hroom, turnsIn_eq hroom, h.said]

/-- What the context depends on beside the room: all references there are, and all users. -/
theorem AgreesIn.renderContext (h : AgreesIn roomId m m') (hroom : roomId ≠ "")
    (hreferences : m.store.activeReferences = m'.store.activeReferences)
    (husers : m.presence.getActiveUsers = m'.presence.getActiveUsers) (maxChars : Int) :
    m.renderContext tools maxChars query roomId accountId =
      m'.renderContext tools maxChars query roomId accountId := by
  unfold ShortTermMemoryManager.renderContext relevantResults
  rw [h.turnsIn hroom, hreferences, husers]

theorem renderContext_of_silent (h : m.turnsIn { roomId, accountId } = []) (maxChars : Int) :
    m.renderContext tools maxChars query roomId accountId = "" := by
  unfold ShortTermMemoryManager.renderContext
  rw [h]
  exact if_pos rfl

/-! ## The users are not -/

theorem length_intercalate_lt (sep : String) (l : List String) {ext : List String}
    (h : sep.intercalate ext ≠ "") :
    (sep.intercalate l).length < (sep.intercalate (l ++ ext)).length := by
  have hext : 0 < (sep.intercalate ext).length := by
    rw [Nat.pos_iff_ne_zero]
    exact fun hzero => h (String.length_eq_zero_iff.mp hzero)
  by_cases hl : l = []
  · simpa [hl] using hext
  · have hne : ext ≠ [] := by
      rintro rfl
      exact h String.intercalate_nil
    rw [String.intercalate_append_of_ne_nil hl hne, String.length_append, String.length_append]
    omega

/-- One more user is one more line, the last one. -/
theorem contextLines_append (tools : TextTools) (turns : List ShortTermTurn)
    (references : List String) (relevant : List ShortTermSearchResult) (users : List ActiveUser)
    (roomId : String) (u : ActiveUser) : ∃ ext, "\n".intercalate ext ≠ "" ∧
    Renderer.contextLines tools turns references relevant (users ++ [u]) roomId =
      Renderer.contextLines tools turns references relevant users roomId ++ ext := by
  obtain ⟨ext, hext, hlines⟩ : ∃ ext, "\n".intercalate ext ≠ "" ∧
      Renderer.userLines (users ++ [u]) = Renderer.userLines users ++ ext := by
    cases users with
    | nil => exact ⟨_, by simp, rfl⟩
    | cons v rest =>
      refine ⟨[Renderer.userLine u], ?_, ?_⟩
      · simp [Renderer.userLine]
      · simp [Renderer.userLines]
  refine ⟨ext, hext, ?_⟩
  unfold Renderer.contextLines
  dsimp only
  generalize (if roomId = "" then turns else turns.filter (·.roomId = roomId)) = said
  split
  · exact hlines
  · rw [hlines, List.append_assoc _ (Renderer.userLines users)]

theorem renderShortTermContext_whole {turns : List ShortTermTurn} (hturns : turns ≠ [])
    {references : List String} {relevant : List ShortTermSearchResult} {users : List ActiveUser}
    {roomId : String} {maxChars : Int} (hmax : ("\n".intercalate
      (Renderer.contextLines tools turns references relevant users roomId)).length ≤ maxChars) :
    Renderer.renderShortTermContext tools turns references relevant maxChars users roomId =
      "\n".intercalate (Renderer.contextLines tools turns references relevant users roomId) := by
  unfold Renderer.renderShortTermContext
  rw [if_neg hturns]
  dsimp only
  split
  · next hnone => rw [hnone, String.intercalate_nil]
  · rw [Renderer.clip, if_neg (Int.not_lt.mpr hmax)]

/-- With one more user the context of a scope in which something was said is a longer one. -/
theorem renderShortTermContext_lt (tools : TextTools) {turns : List ShortTermTurn}
    (hturns : turns ≠ []) (references : List String) (relevant : List ShortTermSearchResult)
    (users : List ActiveUser) (roomId : String) (u : ActiveUser) : ∃ maxChars : Int,
    (Renderer.renderShortTermContext tools turns references relevant maxChars users
      roomId).length <
    (Renderer.renderShortTermContext tools turns references relevant maxChars (users ++ [u])
      roomId).length := by
  obtain ⟨ext, hext, hlines⟩ := contextLines_append tools turns references relevant users roomId u
  have hlonger := length_intercalate_lt "\n"
    (Renderer.contextLines tools turns references relevant users roomId) hext
  rw [← hlines] at hlonger
  -- there is room for both
  refine ⟨("\n".intercalate
    (Renderer.contextLines tools turns references relevant (users ++ [u]) roomId)).length, ?_⟩
  rw [renderShortTermContext_whole hturns (Int.ofNat_le.mpr (Nat.le_of_lt hlonger)),
    renderShortTermContext_whole hturns (Int.le_refl _)]
  exact hlonger

/-- A user nobody has heard of joins another room. -/
theorem exists_newcomer (p : PresenceTracker) (roomId : String) :
    ∃ (p' : PresenceTracker) (u : ActiveUser),
      p'.getUsersByRoom roomId = p.getUsersByRoom roomId ∧
        p'.getActiveUsers = p.getActiveUsers ++ [u] := by
  obtain ⟨a, ha⟩ := Infinite.exists_notMem_finset
    (p.activeUsers.entries.map Prod.fst ++ p.roomUsers.getD roomId []).toFinset
  obtain ⟨other, hother⟩ := exists_ne roomId
  rw [List.mem_toFinset, List.mem_append, not_or] at ha
  refine ⟨p.addUser a "Bob" other, ⟨a, "Bob"⟩, ?_, ?_⟩
  · have hlist : (p.addUser a "Bob" other).roomUsers.getD roomId [] =
        p.roomUsers.getD roomId [] := by
      unfold PresenceTracker.addUser
      dsimp only
      split
      · rfl
      · rw [PresenceTracker.getD_addRoomUser, if_neg fun h => hother h.1]
    have hget : ∀ uid ∈ p.roomUsers.getD roomId [],
        (p.activeUsers.set a "Bob").get? uid = p.activeUsers.get? uid := by
      intro uid hm
      rw [Dict.get?_set, if_neg]
      rintro rfl
      exact ha.2 hm
    rw [PresenceTracker.getUsersByRoom, PresenceTracker.getUsersByRoom, hlist]
    have hfilter : (p.roomUsers.getD roomId []).filter (p.activeUsers.set a "Bob").contains =
        (p.roomUsers.getD roomId []).filter p.activeUsers.contains :=
      List.filter_congr fun uid hm => by rw [Dict.contains, Dict.contains, hget uid hm]
    show List.map _ (List.filter (p.activeUsers.set a "Bob").contains _) = _
    rw [hfilter]
    refine List.map_congr_left fun uid hm => ?_
    show (⟨uid, (p.activeUsers.set a "Bob").getD uid uid⟩ : ActiveUser) = _
    rw [Dict.getD, Dict.getD, hget uid (List.mem_filter.mp hm).1]
  · show List.map _ (Dict.write a "Bob" p.activeUsers.entries) = _
    rw [Dict.write_of_absent ha.1, List.map_append]
    rfl

/-- A context keeps its room apart exactly when it is that of a room, and there is nothing to
render of it. -/
theorem context_isolated_iff (tools : TextTools) (m : ShortTermMemoryManager)
    (query : Option String) (roomId accountId : String) : Isolated tools m query roomId accountId ↔
      roomId ≠ "" ∧ m.store.scopeTurns { roomId, accountId } = [] := by
  have hsilent : m.turnsIn { roomId, accountId } = [] ↔
      m.store.scopeTurns { roomId, accountId } = [] := List.map_eq_nil_iff
  obtain ⟨p, u, hroom, hactive⟩ := exists_newcomer m.presence roomId
  constructor
  · intro hisolated
    have hnone : m.turnsIn { roomId, accountId } = [] := by
      by_contra hsome
      obtain ⟨maxChars, hlonger⟩ := renderShortTermContext_lt tools hsome m.store.activeReferences
        (m.relevantResults tools query { roomId, accountId }) m.presence.getActiveUsers roomId u
      rw [← hactive] at hlonger
      have hsame := hisolated { m with presence := p } ⟨rfl, hroom.symm⟩ maxChars
      exact absurd (congrArg String.length hsame) (Nat.ne_of_lt hlonger)
    refine ⟨?_, hsilent.mp hnone⟩
    rintro rfl
    -- without a room, what is said in any room is rendered
    let elsewhere : StoredTurn := { role := "user", blocks := [textBlock "hi"], importance := 0
                                    accountId, roomId := "elsewhere", turn := m.store.added
                                    references := [] }
    let m' : ShortTermMemoryManager :=
      { store := { m.store with turns := m.store.turns ++ [elsewhere]
                                maxTurns := m.store.maxTurns + 1
                                added := m.store.added + 1 }
        presence := p }
    have hagree : AgreesIn "" m m' := by
      refine ⟨?_, hroom.symm⟩
      simp [saidIn, m', elsewhere]
    have hsome : m'.turnsIn { roomId := "", accountId } ≠ [] := by
      simp [turnsIn, ShortTermStore.scopeTurns_eq, m', elsewhere, ShortTermScope.admits,
        ShortTermScope.admitsAccount, ShortTermScope.admitsRoom]
    obtain ⟨maxChars, hlonger⟩ := renderShortTermContext_lt tools hsome m'.store.activeReferences
      (m'.relevantResults tools query { roomId := "", accountId }) m.presence.getActiveUsers "" u
    rw [← hactive] at hlonger
    have hempty : (m'.renderContext tools maxChars query "" accountId).length = 0 := by
      rw [← hisolated m' hagree maxChars, renderContext_of_silent hnone]
      rfl
    exact absurd hempty (Nat.ne_of_gt (Nat.zero_lt_of_lt hlonger))
  · rintro ⟨hnamed, hnone⟩ m' hagree maxChars
    have hnone := hsilent.mpr hnone
    rw [renderContext_of_silent hnone,
      renderContext_of_silent ((hagree.turnsIn hnamed).symm.trans hnone)]

/-- Somebody who is in another room only is rendered as a participant. -/
theorem participant_of_another_room_is_rendered :
    ¬ ∀ (tools : TextTools) (m m' : ShortTermMemoryManager) (maxChars : Int)
      (query : Option String) (roomId accountId : String), AgreesIn roomId m m' →
      m.renderContext tools maxChars query roomId accountId =
        m'.renderContext tools maxChars query roomId accountId := by
  intro h
  let m := ({} : ShortTermMemoryManager).addTurn ⟨fun _ => 0, fun _ => []⟩ "user" [textBlock "hi"]
    "a" "r"
  have hsame := h ⟨fun _ => true, id, id, fun _ => ""⟩ m
    { m with presence := m.presence.addUser "b" "Bob" "q" } 600 none "r" "a" ⟨rfl, by decide⟩
  exact absurd hsame (by decide)

end ShortTermMemoryManager

end IrisMind.Memory
