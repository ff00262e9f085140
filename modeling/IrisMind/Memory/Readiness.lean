import Mathlib.Tactic.NormNum
import IrisMind.Lib.Words
import IrisMind.Memory.Assembler

/-! # When fragments are complete

Fragments are judged by how many there are, by the mark at the end of the last
one and by whether there is anything in them. What waits for the timer is
never what would be judged complete. -/
namespace IrisMind.Memory
open IrisMind.Lib

structure ReadinessEvaluator where
  minFragments : Int := 2
  questionDetect : Bool := true
  confidenceThreshold : ℚ := 6 / 10

namespace ReadinessEvaluator

/-- `[？?]$`; the end is also before a last line break. -/
def endsInQuestion (text : String) : Bool :=
  match text.toList.reverse with
  | '\n' :: c :: _ => c = '?' || c = '？'
  | c :: _ => c = '?' || c = '？'
  | [] => false

variable (ev : ReadinessEvaluator) (fragments : List String)

/-- `_tier1_score` -/
def tier1Score : ℚ :=
  let enough : ℚ := if ev.minFragments ≤ fragments.length then 4 / 10 else 0
  let question : ℚ :=
    if ev.questionDetect && endsInQuestion (fragments.getLastD "") then 4 / 10 else 0
  let said : ℚ := if fragments.any (Text.strip · ≠ "") then 2 / 10 else 0
  min (enough + question + said) 1

def evaluate (isFinal : Bool) : Bool :=
  if isFinal then true
  else if fragments.length < ev.minFragments then false
  else ev.confidenceThreshold ≤ ev.tier1Score fragments

variable {ev fragments}

theorem strip_ne_empty {text : String} {c : Char} (hc : c ∈ text.toList)
    (hspace : Text.isSpace c = false) : Text.strip text ≠ "" := by
  intro hstrip
  have hinfix : [c] <:+: Words.strip Text.isSpace text.toList :=
    (Words.infix_strip (by simpa using hspace)).mpr (by
      obtain ⟨before, after, heq⟩ := List.append_of_mem hc
      exact ⟨before, after, by simp [heq]⟩)
  have hnil : Words.strip Text.isSpace text.toList = [] := String.ofList_eq_empty_iff.mp hstrip
  rw [hnil] at hinfix
  cases List.infix_nil.mp hinfix

/-- A text that ends in a question mark is not blank. -/
theorem strip_of_endsInQuestion {text : String} (h : endsInQuestion text = true) :
    Text.strip text ≠ "" := by
  have hmark : ∀ c : Char, (c = '?' || c = '？') = true → c ∈ text.toList.reverse →
      Text.strip text ≠ "" := by
    intro c hc hmem
    refine strip_ne_empty (List.mem_reverse.mp hmem) ?_
    rcases (Bool.or_eq_true _ _).mp hc with hc | hc
    · rw [of_decide_eq_true hc]
      rfl
    · rw [of_decide_eq_true hc]
      rfl
  unfold endsInQuestion at h
  split at h
  · next c _ hrev => exact hmark c h (by rw [hrev]; simp)
  · next c _ _ hrev => exact hmark c h (by rw [hrev]; simp)
  · cases h

theorem exists_of_endsInQuestion (h : endsInQuestion (fragments.getLastD "") = true) :
    ∃ f ∈ fragments, Text.strip f ≠ "" := by
  have hstrip := strip_of_endsInQuestion h
  rw [List.getLastD_eq_getLast?] at hstrip
  cases hlast : fragments.getLast? with
  | none =>
    rw [hlast] at hstrip
    exact absurd (by decide) hstrip
  | some f =>
    rw [hlast] at hstrip
    exact ⟨f, List.mem_of_getLast? hlast, hstrip⟩

/-- The score once there are enough: what a question adds is on top of what its text adds. -/
theorem tier1Score_of_enough (h : ev.minFragments ≤ fragments.length) :
    ev.tier1Score fragments =
      if ev.questionDetect = true ∧ endsInQuestion (fragments.getLastD "") = true then 1
      else if ∃ f ∈ fragments, Text.strip f ≠ "" then 6 / 10
      else 4 / 10 := by
  have hsaid : (fragments.any (Text.strip · ≠ "")) = true ↔ ∃ f ∈ fragments, Text.strip f ≠ "" := by
    simp
  unfold tier1Score
  rw [if_pos h]
  by_cases hquestion : ev.questionDetect = true ∧ endsInQuestion (fragments.getLastD "") = true
  · have hsome := exists_of_endsInQuestion hquestion.2
    simp only [hquestion, hsaid.mpr hsome, and_self, Bool.and_self, if_true]
    norm_num
  · have hnot : (ev.questionDetect && endsInQuestion (fragments.getLastD "")) = false := by
      simpa using hquestion
    rw [if_neg hquestion]
    simp only [hnot, Bool.false_eq_true, if_false]
    by_cases hsome : ∃ f ∈ fragments, Text.strip f ≠ ""
    · rw [if_pos hsome, if_pos (hsaid.mpr hsome)]
      norm_num
    · rw [if_neg hsome, if_neg fun h => hsome (hsaid.mp h)]
      norm_num

/-- What a judgement comes to: below the threshold of the number alone, the texts have to say
something, and above that the last has to be a question. -/
theorem evaluate_iff : ev.evaluate fragments false = true ↔
    ev.minFragments ≤ fragments.length ∧ (ev.confidenceThreshold ≤ 4 / 10 ∨
      ev.confidenceThreshold ≤ 6 / 10 ∧ (∃ f ∈ fragments, Text.strip f ≠ "") ∨
      ev.confidenceThreshold ≤ 1 ∧ ev.questionDetect = true ∧
        endsInQuestion (fragments.getLastD "") = true) := by
  unfold evaluate
  rw [if_neg Bool.false_ne_true]
  by_cases hlen : ev.minFragments ≤ fragments.length
  · rw [if_neg (not_lt.mpr hlen), decide_eq_true_iff, tier1Score_of_enough hlen, and_iff_right hlen]
    split
    · next hquestion =>
      refine ⟨fun h => .inr (.inr ⟨h, hquestion⟩), ?_⟩
      rintro (h | ⟨h, -⟩ | ⟨h, -⟩)
      · exact h.trans (by norm_num)
      · exact h.trans (by norm_num)
      · exact h
    · next hquestion =>
      split
      · next hsome =>
        refine ⟨fun h => .inr (.inl ⟨h, hsome⟩), ?_⟩
        rintro (h | ⟨h, -⟩ | ⟨-, h⟩)
        · exact h.trans (by norm_num)
        · exact h
        · exact absurd h hquestion
      · next hblank =>
        refine ⟨fun h => .inl h, ?_⟩
        rintro (h | ⟨-, h⟩ | ⟨-, h⟩)
        · exact h
        · exact absurd h hblank
        · exact absurd h hquestion
  · rw [if_pos (not_le.mp hlen)]
    exact ⟨fun h => absurd h Bool.false_ne_true, fun h => absurd h.1 hlen⟩

/-- Where a text alone can meet the threshold, a question adds nothing: it is a text. -/
theorem evaluate_low_iff (h : ev.confidenceThreshold ≤ 6 / 10) :
    ev.evaluate fragments false = true ↔ ev.minFragments ≤ fragments.length ∧
      (ev.confidenceThreshold ≤ 4 / 10 ∨ ∃ f ∈ fragments, Text.strip f ≠ "") := by
  rw [evaluate_iff]
  refine and_congr_right fun _ => ?_
  constructor
  · rintro (hlow | ⟨-, hsome⟩ | ⟨-, -, hquestion⟩)
    · exact .inl hlow
    · exact .inr hsome
    · exact .inr (exists_of_endsInQuestion hquestion)
  · rintro (hlow | hsome)
    · exact .inl hlow
    · exact .inr (.inl ⟨h, hsome⟩)

end ReadinessEvaluator

/-! ## What waits -/

namespace SensoryMemoryAssembler

/-- The texts of the fragments that wait for the timer of a room. -/
def waitingTexts (s : SensoryMemoryAssembler) (roomId : String) : List String :=
  ((s.fragments roomId).filter (·.type = some "text")).map (·.textOrEmpty)

/-- A fragment is judged by the evaluator. -/
def Step.JudgedBy (ev : ReadinessEvaluator) : Step → Prop
  | .addFragmentBlock _ _ _ readiness => readiness = some (ev.evaluate · false)
  | _ => True

/-- No room has something that waits although it is complete. -/
def Unready (ev : ReadinessEvaluator) (s : SensoryMemoryAssembler) : Prop :=
  ∀ room, s.fragments room ≠ [] → ev.evaluate (s.waitingTexts room) false = false

variable {ev : ReadinessEvaluator} {s : SensoryMemoryAssembler}

/-- Nothing is told of a room that nothing waits in. -/
theorem Unready.of_fragments {t : SensoryMemoryAssembler} (h : s.Unready ev)
    (hsame : ∀ room, t.fragments room = [] ∨ t.fragments room = s.fragments room) :
    t.Unready ev := by
  intro room hfull
  rcases hsame room with hnone | hroom
  · exact absurd hnone hfull
  · rw [waitingTexts, hroom]
    exact h room (hroom ▸ hfull)

theorem fragments_flushLocked (roomId room : String) :
    (s.flushLocked roomId).fragments room = if room = roomId then [] else s.fragments room := by
  rw [(s.flushLocked_spec roomId).1, fragments, (s.cancelTimer_frame roomId).1]
  rfl

theorem fragments_resetTimer (roomId room : String) :
    (s.resetTimer roomId).fragments room = s.fragments room := by
  have hcancel : (s.cancelTimer roomId).fragments room = s.fragments room := by
    rw [fragments, (s.cancelTimer_frame roomId).1]
    rfl
  rw [resetTimer]
  split
  · exact hcancel
  · exact hcancel

theorem Unready.flushLocked (h : s.Unready ev) (roomId : String) :
    (s.flushLocked roomId).Unready ev := by
  refine h.of_fragments fun room => ?_
  rw [fragments_flushLocked]
  exact ite_eq_or_eq _ _ _

/-- What is flushed with a new fragment was of its room alone. -/
theorem unready_flush_withFragment (h : s.Unready ev) (block : ContentBlock) (roomId : String) :
    ((s.withFragment block roomId).flushLocked roomId).Unready ev := by
  refine h.of_fragments fun room => ?_
  rw [fragments_flushLocked, fragments_withFragment]
  by_cases hroom : room = roomId
  · exact .inl (if_pos hroom)
  · rw [if_neg hroom, if_neg hroom, List.append_nil]
    exact .inr rfl

theorem Unready.addFragmentBlock (h : s.Unready ev) (block : ContentBlock) (isFinal : Bool)
    (roomId : String) :
    (s.addFragmentBlock block isFinal roomId (some (ev.evaluate · false))).Unready ev := by
  change (if s.maxFragments ≤ ((s.withFragment block roomId).fragments roomId).length
    then (s.withFragment block roomId).flushLocked roomId
    else if isFinal then (s.withFragment block roomId).flushLocked roomId
    else if ev.evaluate ((s.withFragment block roomId).waitingTexts roomId) false
    then (s.withFragment block roomId).flushLocked roomId
    else (s.withFragment block roomId).resetTimer roomId).Unready ev
  split
  · exact unready_flush_withFragment h block roomId
  · split
    · exact unready_flush_withFragment h block roomId
    · split
      · exact unready_flush_withFragment h block roomId
      · next hunready =>
        -- the fragment stays, and so does the verdict it got
        intro room hfull
        rw [fragments_resetTimer] at hfull
        rw [waitingTexts, fragments_resetTimer]
        by_cases hroom : room = roomId
        · subst hroom
          exact Bool.eq_false_iff.mpr hunready
        · rw [fragments_withFragment, if_neg hroom, List.append_nil] at hfull ⊢
          exact h room hfull

theorem Unready.step (h : s.Unready ev) {i : Step} (hi : i.JudgedBy ev) :
    (s.step i).Unready ev := by
  cases i with
  | addFragmentBlock block isFinal roomId readiness =>
    obtain rfl : readiness = some (ev.evaluate · false) := hi
    exact h.addFragmentBlock block isFinal roomId
  | expire timer =>
    rw [SensoryMemoryAssembler.step]
    split
    · exact h
    · exact h
  | onTimeout timer =>
    rw [SensoryMemoryAssembler.step]
    split
    · have hdue : ({ s with due := s.due.filter (· ≠ timer) } :
          SensoryMemoryAssembler).Unready ev := h
      exact hdue.flushLocked timer.2
    · exact h
  | flush roomId => exact h.flushLocked roomId

theorem Unready.run (h : s.Unready ev) {is : List Step} (hjudged : ∀ i ∈ is, i.JudgedBy ev) :
    (Machine.run SensoryMemoryAssembler.step s is).Unready ev := by
  induction is generalizing s with
  | nil => exact h
  | cons i is ih =>
    exact ih (h.step (hjudged i List.mem_cons_self)) fun j hj =>
      hjudged j (List.mem_cons_of_mem _ hj)

/-- Whatever is added, expires and is flushed: what waits in a room would not be judged complete.
As long as a text alone can meet the threshold, fewer than enough wait there or none says anything,
and whether questions are detected makes no difference to any verdict. -/
theorem waiting_unready (ev : ReadinessEvaluator) (timeoutMs : Int) (maxFragments : Nat)
    (is : List Step) (hjudged : ∀ i ∈ is, i.JudgedBy ev) :
    (∀ room, let s := Machine.run step (start timeoutMs maxFragments) is
      s.fragments room ≠ [] → ev.evaluate (s.waitingTexts room) false = false ∧
        (ev.confidenceThreshold ≤ 6 / 10 → (s.waitingTexts room).length < ev.minFragments ∨
          ∀ text ∈ s.waitingTexts room, Text.strip text = "")) ∧
    (ev.confidenceThreshold ≤ 6 / 10 → ∀ (detect : Bool) (texts : List String) (isFinal : Bool),
      ReadinessEvaluator.evaluate { ev with questionDetect := detect } texts isFinal =
        ev.evaluate texts isFinal) := by
  have hstart : (start timeoutMs maxFragments).Unready ev := fun _ hfull => absurd rfl hfull
  constructor
  · intro room s hfull
    have hunready : ev.evaluate (s.waitingTexts room) false = false :=
      hstart.run hjudged room hfull
    refine ⟨hunready, fun hlow => ?_⟩
    by_contra hnot
    push Not at hnot
    obtain ⟨henough, text, hmem, hsaid⟩ := hnot
    have hready := (ReadinessEvaluator.evaluate_low_iff hlow).mpr
      ⟨henough, .inr ⟨text, hmem, hsaid⟩⟩
    exact Bool.false_ne_true (hunready.symm.trans hready)
  · intro hlow detect texts isFinal
    cases isFinal with
    | true => rfl
    | false =>
      have hdetect : ({ ev with questionDetect := detect } :
          ReadinessEvaluator).confidenceThreshold ≤ 6 / 10 := hlow
      rw [Bool.eq_iff_iff, ReadinessEvaluator.evaluate_low_iff hdetect,
        ReadinessEvaluator.evaluate_low_iff hlow]

/-- One fragment waits, and a blank one besides makes no difference to it. -/
theorem waiting_unready_greeting :
    let s := Machine.run step (start 800 10)
      [.addFragmentBlock (textBlock "hi?") false "r"
        (some (ReadinessEvaluator.evaluate {} · false))]
    s.fragments "r" = [textBlock "hi?"] ∧
      ReadinessEvaluator.evaluate {} (s.waitingTexts "r") false = false := by
  refine ⟨rfl, ?_⟩
  exact ((waiting_unready {} 800 10 [.addFragmentBlock (textBlock "hi?") false "r"
    (some (ReadinessEvaluator.evaluate {} · false))] (by simp [Step.JudgedBy])).1 "r"
      (by decide)).1

end SensoryMemoryAssembler

end IrisMind.Memory
