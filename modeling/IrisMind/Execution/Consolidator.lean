import IrisMind.Llm.Context
import IrisMind.Llm.ModelConfig

/-! # Compacting the history

Both ways of compacting put one summary before the last messages and drop the
rest. Neither looks at whether the summary is a new one: a stored summary, given
back by a call that summarised nothing, replaces messages no summary covers. And
of the summaries among what is dropped, a new one is told the last only. -/
namespace IrisMind.Execution
open IrisMind.Lib IrisMind.Llm

structure Consolidator where
  contextWindowMgr : Option ContextWindowManager
  modelConfig : Option ModelConfig := none
  contextWindow : Int := 0

/-- What a compaction leaves: the consolidator, the history, and the summarisation that
succeeded in the call, if one did. -/
structure CompactionRun where
  consolidator : Consolidator
  messages : List Msg
  done : Option Summarisation := none

def summaryMessage (summary : String) : Msg := .system ("## Session Summary\n" ++ summary)

def keep : Nat := 6

/-- The summary, then the last messages. -/
def compacted (summary : String) (messages : List Msg) : List Msg :=
  summaryMessage summary :: messages.drop (messages.length - keep)

namespace Consolidator

def modelName (c : Consolidator) : Option String := c.modelConfig.map (·.getModel "medium")

def effectiveContextWindow (c : Consolidator) : Int :=
  match c.modelConfig with
  | some config => config.getEffectiveContextWindow "medium"
  | none => c.contextWindow

/-- `run_compression`; an `Exception` of `_compact_messages` is logged and swallowed. Whatever it
raises, it has changed nothing. -/
def runCompression (c : Consolidator) (messages : List Msg) : CompactionRun :=
  match c.contextWindowMgr with
  | none => { consolidator := c, messages }
  | some mgr => match mgr.checkAndSummarize messages c.effectiveContextWindow c.modelName with
    | none => { consolidator := c, messages }
    | some r =>
      let c := { c with contextWindowMgr := some r.manager }
      if r.summary = "" || messages.length ≤ 6 then { consolidator := c, messages, done := r.done }
      else { consolidator := c, messages := compacted r.summary messages, done := r.done }

/-- `compact_context`, with the text it answers unless it raises. -/
def compactContext (c : Consolidator) (messages : List Msg) : CompactionRun × Option String :=
  match c.contextWindowMgr with
  | none => ({ consolidator := c, messages }, some "Context manager not available")
  | some mgr =>
    if messages.length < 2 then
      ({ consolidator := c, messages }, some "Not enough messages to compact")
    else match mgr.compact messages with
      | none => ({ consolidator := c, messages }, none)
      | some r =>
        ({ consolidator := { c with contextWindowMgr := some r.manager }
           messages := compacted r.summary messages
           done := r.done },
          some ("Compacted: " ++ toString r.summary.length ++ " chars summary, kept last " ++
            toString keep ++ " messages"))

end Consolidator

/-! ## What a compaction may lose -/

namespace CompactionRun

/-- The messages removed are among those that a summarisation of the call is made of, its request
says of each of them what there is to say, and its text is the head of the history. -/
def Summarised (r : CompactionRun) (before : List Msg) : Prop :=
  ∃ mgr s removed kept, r.consolidator.contextWindowMgr = some mgr ∧ r.done = some s ∧
    before = removed ++ kept ∧ removed.Sublist s.input ∧ (∀ m ∈ removed, mgr.TellsOf s.request m) ∧
    r.messages = summaryMessage s.text :: kept

/-- The history is as it was, or what is removed is summarised. -/
def Faithful (r : CompactionRun) (before : List Msg) : Prop :=
  r.messages = before ∨ r.Summarised before

/-- No message is lost unsummarised; a head may have been put before the history. -/
def LosesNothing (r : CompactionRun) (before : List Msg) : Prop :=
  r.Faithful before ∨ r.messages.tail = before

end CompactionRun

/-- The history is a head with this summary and the messages every compaction keeps. -/
def HeadedBy (summary : String) (messages : List Msg) : Prop :=
  messages.length = 7 ∧ messages.head? = some (summaryMessage summary)

theorem compacted_eq_self_iff {summary : String} {messages : List Msg} :
    compacted summary messages = messages ↔ HeadedBy summary messages := by
  unfold compacted HeadedBy keep
  cases messages with
  | nil => simp
  | cons m rest =>
    simp only [List.length_cons, List.head?_cons, Option.some.injEq]
    constructor
    · intro h
      have hlen := congrArg List.length h
      simp only [List.length_cons, List.length_drop] at hlen
      obtain ⟨hm, hrest⟩ := List.cons.inj h
      refine ⟨?_, hm.symm⟩
      by_contra hne
      rcases Nat.lt_or_ge rest.length 6 with hlt | hge
      · omega
      · omega
    · rintro ⟨hlen, hm⟩
      have hone : rest.length + 1 - 6 = 1 := by omega
      rw [hone, List.drop_one, List.tail_cons, hm]

theorem compacted_tail_eq_iff {summary : String} {messages : List Msg} :
    (compacted summary messages).tail = messages ↔ messages.length ≤ 6 := by
  unfold compacted keep
  rw [List.tail_cons]
  constructor
  · intro h
    have hlen := congrArg List.length h
    rw [List.length_drop] at hlen
    omega
  · intro h
    rw [Nat.sub_eq_zero_of_le h, List.drop_zero]

/-- No two of the messages that are to be removed are summaries. -/
def OneSummary (mgr : ContextWindowManager) (messages : List Msg) : Prop :=
  (ContextWindowManager.allButLast keep messages).countP mgr.isSummaryHead ≤ 1

/-- What a compaction leaves that has made a summary. -/
def made (c : Consolidator) (mgr : ContextWindowManager) (text : String) (messages : List Msg) :
    CompactionRun where
  consolidator := { c with contextWindowMgr := some { mgr with summary := text } }
  messages := compacted text messages
  done := some (mgr.summarisation (ContextWindowManager.allButLast keep messages) text)

/-- A compaction has summarised what it drops exactly if there is one summary at most in that. -/
theorem summarised_made {c : Consolidator} {mgr : ContextWindowManager} {text : String}
    {messages : List Msg} : (made c mgr text messages).Summarised messages ↔
      OneSummary mgr messages := by
  have hsplit := ContextWindowManager.allButLast_append (show keep ≠ 0 by decide) messages
  rw [OneSummary, ← ContextWindowManager.sources_eq_iff]
  constructor
  · rintro ⟨_, _, removed, kept, -, hs, hbefore, hsub, -, hmessages⟩
    cases hs
    obtain ⟨-, hkept⟩ := List.cons.inj hmessages
    rw [← hkept] at hbefore
    rw [List.append_cancel_right (hbefore.symm.trans hsplit.symm)] at hsub
    exact (ContextWindowManager.sources_sublist mgr _).antisymm hsub
  · intro hall
    refine ⟨_, _, _, _, rfl, rfl, hsplit.symm, ?_, fun m hm => ?_, rfl⟩
    · show List.Sublist _ (mgr.sources _)
      rw [hall]
    · rw [← hall] at hm
      exact ContextWindowManager.tellsOf_with_summary
        (ContextWindowManager.tellsOf_summaryRequest hm)

/-- Where a history stays as it is, it loses its head for the same one. -/
theorem HeadedBy.oneSummary {summary : String} {messages : List Msg}
    (h : HeadedBy summary messages) (mgr : ContextWindowManager) : OneSummary mgr messages := by
  refine List.countP_le_length.trans ?_
  rw [ContextWindowManager.allButLast, if_neg (by decide), List.length_take, h.1]
  decide

theorem faithful_made {c : Consolidator} {mgr : ContextWindowManager} {text : String}
    {messages : List Msg} : (made c mgr text messages).Faithful messages ↔
      OneSummary mgr messages := by
  refine ⟨fun h => ?_, fun h => .inr (summarised_made.mpr h)⟩
  rcases h with hsame | hsummarised
  · exact (compacted_eq_self_iff.mp hsame).oneSummary mgr
  · exact summarised_made.mp hsummarised

theorem losesNothing_made {c : Consolidator} {mgr : ContextWindowManager} {text : String}
    {messages : List Msg} (hlen : 6 < messages.length) :
    (made c mgr text messages).LosesNothing messages ↔ OneSummary mgr messages := by
  rw [CompactionRun.LosesNothing, faithful_made]
  exact or_iff_left fun htail => absurd (compacted_tail_eq_iff.mp htail) (Nat.not_le.mpr hlen)

/-- A compaction without a summarisation is faithful only where it changes nothing. -/
theorem faithful_of_stored {c : Consolidator} {summary : String} {messages : List Msg} :
    CompactionRun.Faithful ⟨c, compacted summary messages, none⟩ messages ↔
      HeadedBy summary messages := by
  constructor
  · rintro (h | ⟨_, _, _, _, _, hdone, _⟩)
    · exact compacted_eq_self_iff.mp h
    · cases hdone
  · intro h
    exact .inl (compacted_eq_self_iff.mpr h)

theorem losesNothing_of_stored {c : Consolidator} {summary : String} {messages : List Msg} :
    CompactionRun.LosesNothing ⟨c, compacted summary messages, none⟩ messages ↔
      messages.length ≤ 6 ∨ HeadedBy summary messages := by
  rw [CompactionRun.LosesNothing, faithful_of_stored, compacted_tail_eq_iff, or_comm]

/-! ## When a compaction loses nothing -/

namespace Consolidator

/-- `run_compression` has nothing to drop, or raises on the way; without a new summary it has
nothing to drop it for, and with one, which may be blank, it has it summarised. -/
def CompressesSafely (c : Consolidator) (messages : List Msg) : Prop :=
  ∀ mgr, c.contextWindowMgr = some mgr →
    messages.length ≤ 6 ∨
    mgr.summarises? messages c.effectiveContextWindow c.modelName = none ∨
    mgr.summarises? messages c.effectiveContextWindow c.modelName = some false ∧
      (mgr.summary = "" ∨ HeadedBy mgr.summary messages) ∨
    mgr.summarises? messages c.effectiveContextWindow c.modelName = some true ∧
      (mgr.AnswersBlank (ContextWindowManager.allButLast keep messages) ∨ OneSummary mgr messages)

/-- The model exits, or summarises all that is to be removed. -/
def ExitsOrSummarises (mgr : ContextWindowManager) (messages : List Msg) : Prop :=
  mgr.answers? (ContextWindowManager.allButLast keep messages) = none ∨
    mgr.answers? (ContextWindowManager.allButLast keep messages) = some true ∧
      OneSummary mgr messages

/-- `compact_context` does nothing, or nothing anew, or summarises what it drops. -/
def CompactsFaithfully (c : Consolidator) (messages : List Msg) : Prop :=
  ∀ mgr, c.contextWindowMgr = some mgr →
    messages.length < 2 ∨ HeadedBy mgr.summary messages ∨
      6 < messages.length ∧ ExitsOrSummarises mgr messages

/-- `compact_context` drops messages of long histories only, and has those summarised. -/
def CompactsSafely (c : Consolidator) (messages : List Msg) : Prop :=
  ∀ mgr, c.contextWindowMgr = some mgr →
    messages.length ≤ 6 ∨ HeadedBy mgr.summary messages ∨ ExitsOrSummarises mgr messages

theorem runCompression_short {c : Consolidator} {messages : List Msg}
    (h : messages.length ≤ 6) : (c.runCompression messages).messages = messages := by
  unfold runCompression
  split
  · rfl
  · split
    · rfl
    · simp [h]

theorem runCompression_of_check {c : Consolidator} {mgr : ContextWindowManager}
    {messages : List Msg} {r : Compaction} (hc : c.contextWindowMgr = some mgr)
    (hlen : 6 < messages.length)
    (hr : mgr.checkAndSummarize messages c.effectiveContextWindow c.modelName = some r) :
    c.runCompression messages =
      ⟨{ c with contextWindowMgr := some r.manager },
        if r.summary = "" then messages else compacted r.summary messages, r.done⟩ := by
  by_cases hs : r.summary = ""
  · simp [runCompression, hc, hr, hs]
  · simp [runCompression, hc, hr, hs, Nat.not_le.mpr hlen]

/-- The stored summary, handed back, stands for what it may never have seen. -/
theorem runCompression_of_stored {c : Consolidator} {mgr : ContextWindowManager}
    {messages : List Msg} (hc : c.contextWindowMgr = some mgr) (hlen : 6 < messages.length)
    (hs : mgr.summarises? messages c.effectiveContextWindow c.modelName = some false) :
    c.runCompression messages =
      ⟨{ c with contextWindowMgr := some mgr },
        if mgr.summary = "" then messages else compacted mgr.summary messages, none⟩ := by
  have hcheck := ContextWindowManager.checkAndSummarize_eq mgr
    c.effectiveContextWindow c.modelName hlen
  rw [hs, Option.bind_some] at hcheck
  exact runCompression_of_check hc hlen hcheck

/-- A new summary takes the place of what is older than the last messages, unless it is blank. -/
theorem runCompression_of_made {c : Consolidator} {mgr : ContextWindowManager}
    {messages : List Msg} (hc : c.contextWindowMgr = some mgr) (hlen : 6 < messages.length)
    (hs : mgr.summarises? messages c.effectiveContextWindow c.modelName = some true) :
    ∃ content, mgr.outcome? (ContextWindowManager.allButLast keep messages) =
        some (.answered content) ∧
      c.runCompression messages =
        if Text.strip content = "" then { made c mgr (Text.strip content) messages with messages }
        else made c mgr (Text.strip content) messages := by
  obtain ⟨content, hanswer, htext⟩ := ContextWindowManager.compact_of_answers hlen
    (ContextWindowManager.answers_of_summarises hs)
  have hcheck := ContextWindowManager.checkAndSummarize_eq mgr
    c.effectiveContextWindow c.modelName hlen
  rw [hs, Option.bind_some, htext] at hcheck
  refine ⟨content, hanswer, ?_⟩
  rw [runCompression_of_check hc hlen hcheck]
  by_cases hblank : Text.strip content = ""
  · rw [if_pos hblank, if_pos hblank]
    rfl
  · rw [if_neg hblank, if_neg hblank]
    rfl

/-- Whether the answer is blank is read off any answer. -/
theorem answersBlank_iff {mgr : ContextWindowManager} {messages : List Msg} {content : String}
    (h : mgr.outcome? messages = some (.answered content)) :
    mgr.AnswersBlank messages ↔ Text.strip content = "" := by
  constructor
  · rintro ⟨content', h', hblank⟩
    rw [h, Option.some.injEq, ChatOutcome.answered.injEq] at h'
    rw [h']
    exact hblank
  · intro hblank
    exact ⟨content, h, hblank⟩

theorem runCompression_faithful {c : Consolidator} {messages : List Msg}
    (h : c.CompressesSafely messages) : (c.runCompression messages).Faithful messages := by
  by_cases hlen : messages.length ≤ 6
  · exact .inl (runCompression_short hlen)
  have hlong : 6 < messages.length := Nat.not_le.mp hlen
  cases hc : c.contextWindowMgr with
  | none => exact .inl (by simp [runCompression, hc])
  | some mgr =>
    rcases (h mgr hc).resolve_left hlen with hs | ⟨hs, h⟩ | ⟨hs, h⟩
    · have hcheck := ContextWindowManager.checkAndSummarize_eq mgr
        c.effectiveContextWindow c.modelName hlong
      rw [hs, Option.bind_none] at hcheck
      exact .inl (by simp [runCompression, hc, hcheck])
    · rw [runCompression_of_stored hc hlong hs]
      rcases h with hnone | hhead
      · exact .inl (if_pos hnone)
      · by_cases hnone : mgr.summary = ""
        · exact .inl (if_pos hnone)
        · rw [if_neg hnone, faithful_of_stored]
          exact hhead
    · obtain ⟨content, hanswer, hrun⟩ := runCompression_of_made hc hlong hs
      rw [answersBlank_iff hanswer] at h
      rw [hrun]
      split
      · exact .inl rfl
      · next hblank => exact faithful_made.mpr (h.resolve_left hblank)

theorem safe_of_runCompression {c : Consolidator} {messages : List Msg}
    (h : (c.runCompression messages).LosesNothing messages) : c.CompressesSafely messages := by
  intro mgr hc
  by_cases hlen : messages.length ≤ 6
  · exact .inl hlen
  have hlong : 6 < messages.length := Nat.not_le.mp hlen
  refine .inr ?_
  cases hs : mgr.summarises? messages c.effectiveContextWindow c.modelName with
  | none => exact .inl rfl
  | some new =>
    refine .inr ?_
    cases new with
    | false =>
      refine .inl ⟨rfl, ?_⟩
      by_cases hnone : mgr.summary = ""
      · exact .inl hnone
      · rw [runCompression_of_stored hc hlong hs, if_neg hnone, losesNothing_of_stored] at h
        exact .inr (h.resolve_left hlen)
    | true =>
      refine .inr ⟨rfl, ?_⟩
      obtain ⟨content, hanswer, hrun⟩ := runCompression_of_made hc hlong hs
      rw [answersBlank_iff hanswer]
      by_cases hblank : Text.strip content = ""
      · exact .inl hblank
      · rw [hrun, if_neg hblank, losesNothing_made hlong] at h
        exact .inr h

theorem compactContext_of_mgr {c : Consolidator} {mgr : ContextWindowManager}
    {messages : List Msg} {r : Compaction} (hc : c.contextWindowMgr = some mgr)
    (hlen : ¬ messages.length < 2) (hr : mgr.compact messages = some r) :
    (c.compactContext messages).1 = ⟨{ c with contextWindowMgr := some r.manager },
      compacted r.summary messages, r.done⟩ := by
  simp [compactContext, hc, hlen, hr]

theorem compactContext_of_answers {c : Consolidator} {mgr : ContextWindowManager}
    {messages : List Msg} (hc : c.contextWindowMgr = some mgr) (hlen : 6 < messages.length)
    (ha : mgr.answers? (ContextWindowManager.allButLast keep messages) = some true) :
    ∃ text, (c.compactContext messages).1 = made c mgr text messages := by
  obtain ⟨content, _, htext⟩ := ContextWindowManager.compact_of_answers hlen ha
  exact ⟨Text.strip content, compactContext_of_mgr hc (by omega) htext⟩

theorem compactContext_of_stored {c : Consolidator} {mgr : ContextWindowManager}
    {messages : List Msg} (hc : c.contextWindowMgr = some mgr) (hlen : ¬ messages.length < 2)
    (h : messages.length ≤ 6 ∨
      mgr.answers? (ContextWindowManager.allButLast keep messages) = some false) :
    (c.compactContext messages).1 =
      ⟨{ c with contextWindowMgr := some mgr }, compacted mgr.summary messages, none⟩ :=
  compactContext_of_mgr hc hlen (ContextWindowManager.compact_of_not h)

theorem compactContext_untouched {c : Consolidator} {messages : List Msg}
    (h : c.contextWindowMgr = none ∨ messages.length < 2) :
    (c.compactContext messages).1.messages = messages := by
  unfold compactContext
  cases hc : c.contextWindowMgr with
  | none => rfl
  | some mgr =>
    have hlen : messages.length < 2 := h.resolve_left (by simp [hc])
    simp [hlen]

theorem compactContext_of_exits {c : Consolidator} {mgr : ContextWindowManager}
    {messages : List Msg} (hc : c.contextWindowMgr = some mgr) (hlen : 6 < messages.length)
    (ha : mgr.answers? (ContextWindowManager.allButLast keep messages) = none) :
    (c.compactContext messages).1.messages = messages := by
  have htwo : ¬ messages.length < 2 := by omega
  simp [compactContext, hc, htwo, ContextWindowManager.compact_of_exits hlen ha]

/-- What becomes of a long history, by what the model makes of it. -/
theorem compactContext_long_iff {c : Consolidator} {mgr : ContextWindowManager}
    {messages : List Msg} (hc : c.contextWindowMgr = some mgr) (hlen : 6 < messages.length) :
    ((c.compactContext messages).1.Faithful messages ↔
        HeadedBy mgr.summary messages ∨ ExitsOrSummarises mgr messages) ∧
      ((c.compactContext messages).1.LosesNothing messages ↔
        HeadedBy mgr.summary messages ∨ ExitsOrSummarises mgr messages) := by
  cases ha : mgr.answers? (ContextWindowManager.allButLast keep messages) with
  | none =>
    have hsame := compactContext_of_exits hc hlen ha
    exact ⟨iff_of_true (.inl hsame) (.inr (.inl ha)),
      iff_of_true (.inl (.inl hsame)) (.inr (.inl ha))⟩
  | some answered =>
    cases answered with
    | true =>
      obtain ⟨text, hrun⟩ := compactContext_of_answers hc hlen ha
      have hone : HeadedBy mgr.summary messages ∨ ExitsOrSummarises mgr messages ↔
          OneSummary mgr messages := by
        unfold ExitsOrSummarises
        rw [ha, and_iff_right rfl, or_iff_right (Option.some_ne_none true)]
        exact or_iff_right_of_imp fun hhead => hhead.oneSummary mgr
      rw [hrun, hone]
      exact ⟨faithful_made, losesNothing_made hlen⟩
    | false =>
      have hhead : HeadedBy mgr.summary messages ∨ ExitsOrSummarises mgr messages ↔
          HeadedBy mgr.summary messages := by
        refine or_iff_left fun h => ?_
        unfold ExitsOrSummarises at h
        simp [ha] at h
      rw [compactContext_of_stored hc (by omega) (.inr ha), hhead]
      exact ⟨faithful_of_stored, losesNothing_of_stored.trans
        (or_iff_right (Nat.not_le.mpr hlen))⟩

theorem compactContext_faithful_iff (c : Consolidator) (messages : List Msg) :
    (c.compactContext messages).1.Faithful messages ↔ c.CompactsFaithfully messages := by
  cases hc : c.contextWindowMgr with
  | none =>
    refine iff_of_true (.inl (compactContext_untouched (.inl hc))) fun mgr h => ?_
    rw [hc] at h
    cases h
  | some mgr =>
    rw [CompactsFaithfully, hc]
    simp only [Option.some.injEq, forall_eq']
    by_cases htwo : messages.length < 2
    · exact iff_of_true (.inl (compactContext_untouched (.inr htwo))) (.inl htwo)
    rw [or_iff_right htwo]
    by_cases hlen : messages.length ≤ 6
    · rw [compactContext_of_stored hc htwo (.inl hlen), faithful_of_stored]
      exact (or_iff_left fun h => Nat.not_lt.mpr hlen h.1).symm
    · rw [(compactContext_long_iff hc (Nat.not_le.mp hlen)).1,
        and_iff_right (Nat.not_le.mp hlen)]

theorem compactContext_losesNothing_iff (c : Consolidator) (messages : List Msg) :
    (c.compactContext messages).1.LosesNothing messages ↔ c.CompactsSafely messages := by
  cases hc : c.contextWindowMgr with
  | none =>
    refine iff_of_true (.inl (.inl (compactContext_untouched (.inl hc)))) fun mgr h => ?_
    rw [hc] at h
    cases h
  | some mgr =>
    rw [CompactsSafely, hc]
    simp only [Option.some.injEq, forall_eq']
    by_cases hlen : messages.length ≤ 6
    · refine iff_of_true ?_ (.inl hlen)
      by_cases htwo : messages.length < 2
      · exact .inl (.inl (compactContext_untouched (.inr htwo)))
      · rw [compactContext_of_stored hc htwo (.inl hlen), losesNothing_of_stored]
        exact .inl hlen
    · rw [or_iff_right hlen]
      exact (compactContext_long_iff hc (Nat.not_le.mp hlen)).2

end Consolidator

/-- When the two compactions keep the history or replace what one summarisation of the call has been
told by its text, and when they at least lose no message unsummarised: `compact_context` puts a
head before a short history without summarising anything. -/
theorem compaction_faithful_iff (c : Consolidator) (messages : List Msg) :
    ((c.runCompression messages).Faithful messages ↔ c.CompressesSafely messages) ∧
      ((c.runCompression messages).LosesNothing messages ↔ c.CompressesSafely messages) ∧
      ((c.compactContext messages).1.Faithful messages ↔ c.CompactsFaithfully messages) ∧
      ((c.compactContext messages).1.LosesNothing messages ↔ c.CompactsSafely messages) :=
  ⟨⟨fun h => Consolidator.safe_of_runCompression (.inl h), Consolidator.runCompression_faithful⟩,
    ⟨Consolidator.safe_of_runCompression, fun h => .inl (Consolidator.runCompression_faithful h)⟩,
    c.compactContext_faithful_iff messages, c.compactContext_losesNothing_iff messages⟩

/-- Below the threshold a summary from earlier takes the place of two messages it has not seen;
with a model that raises, `compact_context` drops them for nothing. -/
theorem stale_summary_drops :
    (¬ ∀ (c : Consolidator) (messages : List Msg),
        (c.runCompression messages).LosesNothing messages) ∧
      ¬ ∀ (c : Consolidator) (messages : List Msg),
        (c.compactContext messages).1.LosesNothing messages := by
  let mgr : ContextWindowManager := { llm := some fun _ => .raised, summary := "earlier" }
  let c : Consolidator := { contextWindowMgr := some mgr, contextWindow := 8192 }
  let messages : List Msg := List.replicate 8 (.human "hi")
  have hlost : ∀ r : CompactionRun, r.done.isNone = true → r.messages.length = 7 →
      ¬ r.LosesNothing messages := by
    rintro r hdone hlen ((h | ⟨_, s, _, _, _, hs, _⟩) | h)
    · rw [h] at hlen
      cases hlen
    · rw [hs] at hdone
      cases hdone
    · have htail := congrArg List.length h
      rw [List.length_tail, hlen] at htail
      cases htail
  exact ⟨fun h => hlost _ (by decide +kernel) (by decide +kernel) (h c messages),
    fun h => hlost _ (by decide) (by decide) (h c messages)⟩

end IrisMind.Execution
