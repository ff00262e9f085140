import IrisMind.Llm.Context

/-! # Counting tokens with a cache

A tokenizer is loaded once, from a file or else from the hub. What it counts is
kept, up to a number of texts; then everything kept is dropped. The counts are
those of the tokenizer itself, whatever was asked before. -/
namespace IrisMind.Llm
open IrisMind.Lib

structure TokenizerManager where
  tokenizer : Option Tokenizer
  tokenCache : Dict String Nat := .empty

namespace TokenizerManager

def tokenCacheMaxsize : Nat := 2048

/-- `_load`, with the tokenizers that a path and a repository give when they give one. -/
def load (fromFile hub : String → Option Tokenizer) (repoId localPath : String) :
    TokenizerManager :=
  let tokenizer := if localPath ≠ "" then fromFile localPath else none
  { tokenizer := if tokenizer.isNone && repoId ≠ "" then hub repoId else tokenizer }

/-- The count of a text that is not kept; a tokenizer that raises leaves the cache as it is. -/
def estimateNew (m : TokenizerManager) (text : String) : Option Nat × TokenizerManager :=
  let counted := match m.tokenizer with
    | some count => count text
    | none => some (text.length * 13 / 10)
  match counted with
  | none => (none, m)
  | some result =>
    let cache := if tokenCacheMaxsize ≤ m.tokenCache.entries.length then .empty else m.tokenCache
    (some result, { m with tokenCache := cache.set text result })

def estimateTokens (m : TokenizerManager) (text : String) : Option Nat × TokenizerManager :=
  if text = "" then (some 0, m)
  else match m.tokenCache.get? text with
    | some result => (some result, m)
    | none => m.estimateNew text

/-- The texts of a run of calls, one after the other. -/
def estimateAll (m : TokenizerManager) : List String → List (Option Nat) × TokenizerManager
  | [] => ([], m)
  | text :: rest =>
    let (result, m) := m.estimateTokens text
    let (results, m) := m.estimateAll rest
    (result :: results, m)

/-- What is kept are counts of the tokenizer, and there are not too many of them. -/
structure Sound (m : TokenizerManager) : Prop where
  counts : ∀ text n, m.tokenCache.get? text = some n →
    Llm.estimateTokens m.tokenizer text = some n
  size : m.tokenCache.entries.length ≤ tokenCacheMaxsize

theorem length_write_le {κ ν : Type} [DecidableEq κ] (k : κ) (v : ν) : ∀ l : List (κ × ν),
    (Dict.write k v l).length ≤ l.length + 1
  | [] => Nat.le_refl _
  | e :: rest => by
    simp only [Dict.write]
    split
    · exact Nat.le_succ _
    · exact Nat.succ_le_succ (length_write_le k v rest)

theorem load_sound (fromFile hub : String → Option Tokenizer) (repoId localPath : String) :
    (load fromFile hub repoId localPath).Sound :=
  ⟨fun _ _ h => absurd h (by simp [load, Dict.get?, Dict.empty, Dict.lookup]), Nat.zero_le _⟩

theorem estimateNew_spec {m : TokenizerManager} (h : m.Sound) {text : String} (hne : text ≠ "") :
    (m.estimateNew text).1 = Llm.estimateTokens m.tokenizer text ∧ (m.estimateNew text).2.Sound ∧
      (m.estimateNew text).2.tokenizer = m.tokenizer := by
  have hplain : Llm.estimateTokens m.tokenizer text = match m.tokenizer with
      | some count => count text
      | none => some (text.length * 13 / 10) := if_neg hne
  unfold estimateNew
  simp only [← hplain]
  cases hcount : Llm.estimateTokens m.tokenizer text with
  | none => exact ⟨rfl, h, rfl⟩
  | some result =>
    refine ⟨rfl, ⟨fun x n hx => ?_, ?_⟩, rfl⟩
    · -- the new entry is the count, and the others are of the old cache if of any
      rw [Dict.get?_set] at hx
      split at hx
      · next heq => rw [← heq, hcount, Option.some.inj hx]
      · split at hx
        · exact absurd hx (by simp [Dict.get?, Dict.empty, Dict.lookup])
        · exact h.counts x n hx
    · refine Nat.le_trans (length_write_le _ _ _) ?_
      split
      · decide
      · omega

theorem estimateTokens_spec {m : TokenizerManager} (h : m.Sound) (text : String) :
    (m.estimateTokens text).1 = Llm.estimateTokens m.tokenizer text ∧
      (m.estimateTokens text).2.Sound ∧ (m.estimateTokens text).2.tokenizer = m.tokenizer := by
  unfold estimateTokens
  split
  · next hempty => exact ⟨by rw [hempty]; rfl, h, rfl⟩
  · next hne =>
    cases hkept : m.tokenCache.get? text with
    | some result => exact ⟨(h.counts text result hkept).symm, h, rfl⟩
    | none => exact estimateNew_spec h hne

theorem estimateAll_spec : ∀ (texts : List String) {m : TokenizerManager}, m.Sound →
    (m.estimateAll texts).1 = texts.map (Llm.estimateTokens m.tokenizer) ∧
      (m.estimateAll texts).2.Sound
  | [], _, h => ⟨rfl, h⟩
  | text :: rest, m, h => by
    obtain ⟨hfirst, hsound, hsame⟩ := estimateTokens_spec h text
    obtain ⟨hrest, hend⟩ := estimateAll_spec rest hsound
    refine ⟨?_, hend⟩
    rw [estimateAll, List.map_cons, ← hfirst, ← hsame]
    exact congrArg (List.cons _) hrest

end TokenizerManager

/-- However many texts are counted and in whatever order, the answers are those of the tokenizer
asked about each text alone, also where it raises, and the cache never grows past its limit. -/
theorem token_cache_agrees (fromFile hub : String → Option Tokenizer) (repoId localPath : String)
    (texts : List String) :
    let m := TokenizerManager.load fromFile hub repoId localPath
    (m.estimateAll texts).1 = texts.map (estimateTokens m.tokenizer) ∧
      (m.estimateAll texts).2.tokenCache.entries.length ≤ TokenizerManager.tokenCacheMaxsize := by
  intro m
  obtain ⟨hcounts, hsound⟩ := TokenizerManager.estimateAll_spec texts
    (TokenizerManager.load_sound fromFile hub repoId localPath)
  exact ⟨hcounts, hsound.size⟩

end IrisMind.Llm
