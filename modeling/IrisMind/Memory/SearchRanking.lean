import IrisMind.Memory.ShortTermContext
import Mathlib.Algebra.Order.Field.Basic
import Mathlib.Data.Finset.Card

/-! # How a search ranks the turns

A turn is found when it shares a word with the query or has the query in its text. What is found
is ranked by the share of the query's words, then by importance, then the latest first, and the
best of it is what a search returns. -/
namespace IrisMind.Memory
open IrisMind.Lib

namespace Searcher

variable (tools : TextTools)

/-- The turn shares a word with the query, or has it in its text, in lower case. -/
def Found (query : String) (turn : ShortTermTurn) : Prop :=
  (∃ word ∈ words tools query, word ∈ words tools turn.text) ∨
    (tools.lower query).toList <:+: (tools.lower turn.text).toList

instance (query : String) (turn : ShortTermTurn) : Decidable (Found tools query turn) :=
  inferInstanceAs (Decidable (_ ∨ _))

/-- The share of the words of the query that the turn has. -/
def overlap (query : String) (turn : ShortTermTurn) : ℚ :=
  ((words tools query).toFinset ∩ (words tools turn.text).toFinset).card /
    (words tools query).toFinset.card

/-- What a turn that is found comes to, with its position among the turns of the scope. -/
def hit (query : String) (turn : ShortTermTurn) (index : Nat) : ShortTermSearchResult where
  toShortTermTurn := turn
  relevance := if 0 < overlap tools query turn then overlap tools query turn else 1 / 100
  index

def hits (turns : List ShortTermTurn) (query : String) : List ShortTermSearchResult :=
  (turns.zipIdx.filter fun t => Found tools query t.1).map fun t => hit tools query t.1 t.2

variable {tools} {query : String} {turn : ShortTermTurn}

/-! ## Relevance -/

theorem words_nodup (text : String) : (words tools text).Nodup := List.nodup_dedup _

theorem words_of_lower_eq {text : String} (h : tools.lower text = "") : words tools text = [] := by
  rw [words, h]
  rfl

theorem shared_eq (query text : String) :
    ((words tools query).filter (· ∈ words tools text)).length =
      ((words tools query).toFinset ∩ (words tools text).toFinset).card := by
  have hfinset : ((words tools query).filter (· ∈ words tools text)).toFinset =
      (words tools query).toFinset ∩ (words tools text).toFinset := by
    ext word
    simp
  rw [← hfinset, List.toFinset_card_of_nodup ((words_nodup query).filter _)]

theorem computeRelevance_eq (hempty : tools.lower "" = "") (hquery : query ≠ "") :
    computeRelevance tools query turn = overlap tools query turn := by
  unfold computeRelevance overlap
  rw [if_neg hquery, ← shared_eq, List.toFinset_card_of_nodup (words_nodup query)]
  by_cases htext : turn.text = ""
  · have hnone : words tools "" = [] := words_of_lower_eq hempty
    simp [htext, hnone]
  · rw [if_neg htext]
    dsimp only
    split
    · next hnone => rcases hnone with hnone | hnone <;> simp [hnone]
    · rfl

theorem overlap_nonneg (query : String) (turn : ShortTermTurn) :
    0 ≤ overlap tools query turn :=
  div_nonneg (Nat.cast_nonneg _) (Nat.cast_nonneg _)

theorem overlap_pos_iff : 0 < overlap tools query turn ↔
    ∃ word ∈ words tools query, word ∈ words tools turn.text := by
  constructor
  · intro h
    by_contra hno
    have hinter : (words tools query).toFinset ∩ (words tools turn.text).toFinset = ∅ := by
      refine Finset.eq_empty_of_forall_notMem fun word hword => hno ⟨word, ?_⟩
      simpa using hword
    rw [overlap, hinter] at h
    simp at h
  · rintro ⟨word, hquery, htext⟩
    have hshared : 0 < ((words tools query).toFinset ∩ (words tools turn.text).toFinset).card :=
      Finset.card_pos.mpr ⟨word, by simp [hquery, htext]⟩
    have hwords : 0 < (words tools query).toFinset.card :=
      Finset.card_pos.mpr ⟨word, by simp [hquery]⟩
    exact div_pos (Nat.cast_pos.mpr hshared) (Nat.cast_pos.mpr hwords)

/-- Nothing is scored that is not found, and everything that is. -/
theorem found_iff (hempty : tools.lower "" = "") (hquery : query ≠ "") :
    Found tools query turn ↔ ¬ (computeRelevance tools query turn = 0 ∧
      ¬ (tools.lower query).toList <:+: (tools.lower turn.text).toList) := by
  rw [computeRelevance_eq hempty hquery, Found, ← overlap_pos_iff, not_and, not_not,
    or_iff_not_imp_left, not_lt, (overlap_nonneg query turn).ge_iff_eq']

/-! ## Ranking -/

/-- The hits in the order of a search. -/
def ranked (tools : TextTools) (turns : List ShortTermTurn) (query : String) :
    List ShortTermSearchResult := (hits tools turns query).mergeSort before

end Searcher

namespace ShortTermMemoryManager

variable (tools : TextTools) (m : ShortTermMemoryManager)

def search (query : String) (scope : ShortTermScope) (maxResults : Nat) :
    List ShortTermSearchResult := Searcher.search tools (m.turnsIn scope) query maxResults

variable {tools} {m}

end ShortTermMemoryManager

end IrisMind.Memory
