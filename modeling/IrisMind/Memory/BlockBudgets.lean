import IrisMind.Lib.Truncation
import IrisMind.Memory.Consolidation
import IrisMind.Memory.ShortTermContext
import Mathlib.Algebra.GroupWithZero.Nat

/-! # What a budget leaves of blocks

Blocks are stored up to a number of characters of their texts, and rendered up to a number of
characters of their tags. -/
namespace IrisMind.Memory
open IrisMind.Lib

/-! ## Stored blocks -/

namespace ContentBlock

def chars (b : ContentBlock) : List Char := b.textOrEmpty.toList

/-- The block that is stored for a block that is too long. -/
def cut (n : Nat) (b : ContentBlock) : ContentBlock :=
  { type := some (b.type.getD "text"), text := some (Text.takeChars b.textOrEmpty n) }

theorem chars_cut (n : Nat) (b : ContentBlock) : (cut n b).chars = b.chars.take n := by
  simp [cut, chars, textOrEmpty, Text.takeChars]

end ContentBlock

theorem toList_blocksText (blocks : List ContentBlock) :
    (blocksText blocks).toList = blocks.flatMap ContentBlock.chars := by
  rw [blocksText, String.toList_join, List.flatMap_map]
  induction blocks with
  | nil => rfl
  | cons b rest ih =>
    rw [List.flatMap_cons, ← ih, ContentBlock.chars]
    by_cases hempty : b.textOrEmpty = ""
    · simp [hempty]
    · simp [hempty]

/-- The loop takes away from the room what the total has come to. -/
theorem truncateBlocks_eq (maxChars total : Nat) (blocks : List ContentBlock) :
    truncateBlocks maxChars total blocks =
      Truncation.truncate ContentBlock.chars ContentBlock.cut (maxChars - total) blocks := by
  induction blocks generalizing total with
  | nil => rfl
  | cons b rest ih =>
    have hlength : b.chars.length = b.textOrEmpty.length := String.length_toList
    rw [truncateBlocks, Truncation.truncate, hlength, ih, ih, Nat.sub_self, Nat.sub_add_eq,
      Truncation.truncate_zero]
    by_cases hroom : maxChars ≤ total
    · rw [if_pos hroom, if_pos (Nat.sub_eq_zero_of_le hroom)]
    · rw [if_neg hroom, if_neg (Nat.sub_ne_zero_of_lt (Nat.not_le.mp hroom))]
      rfl

theorem blocksText_truncateBlocks (blocks : List ContentBlock) (maxChars : Nat) :
    blocksText (truncateBlocks maxChars 0 blocks) =
      Text.takeChars (blocksText blocks) maxChars := by
  rw [← String.toList_inj, Text.takeChars, String.toList_ofList, toList_blocksText,
    toList_blocksText, truncateBlocks_eq]
  exact Truncation.text_truncate ContentBlock.chars_cut _ _

theorem truncateBlocks_truncateBlocks (blocks : List ContentBlock) (maxChars : Nat) :
    truncateBlocks maxChars 0 (truncateBlocks maxChars 0 blocks) =
      truncateBlocks maxChars 0 blocks := by
  simp only [truncateBlocks_eq]
  exact Truncation.truncate_truncate ContentBlock.chars_cut _ _

/-- The text of the blocks is cut, all blocks but the last are as they came, and what was cut once
stays. -/
theorem truncateBlocks_cuts_text (blocks : List ContentBlock) (maxChars : Nat) :
    blocksText (truncateBlocks maxChars 0 blocks) = Text.takeChars (blocksText blocks) maxChars ∧
      (truncateBlocks maxChars 0 blocks).dropLast <+: blocks ∧
      truncateBlocks maxChars 0 (truncateBlocks maxChars 0 blocks) =
        truncateBlocks maxChars 0 blocks := by
  refine ⟨blocksText_truncateBlocks blocks maxChars, ?_,
    truncateBlocks_truncateBlocks blocks maxChars⟩
  rw [truncateBlocks_eq]
  exact Truncation.dropLast_truncate _ _

/-! ## The turns of a memory -/

namespace MemoryManager

/-- Every turn is stored as it would be stored again. -/
def Stored (m : MemoryManager) : Prop :=
  ∀ t ∈ m.store.turns, truncateBlocks maxTurnLength 0 t.blocks = t.blocks

variable {m : MemoryManager}

theorem Stored.addTurn (h : Stored m) (reader : TurnReader) (role : String)
    (blocks : List ContentBlock) (accountId roomId : String) :
    Stored (m.step (.addTurn reader role blocks accountId roomId)) := by
  rcases m.shortTerm.addTurn_turns reader role blocks accountId roomId with heq | ⟨hsub, -⟩
  · rw [show m.step (.addTurn reader role blocks accountId roomId) = m by rw [step, heq]]
    exact h
  · intro t ht
    rcases List.mem_append.mp (hsub.subset ht) with ht | ht
    · exact h t ht
    · cases List.mem_singleton.mp ht
      exact truncateBlocks_truncateBlocks blocks maxTurnLength

theorem Stored.flush (h : Stored m) (scope : ShortTermScope) : Stored (m.flush scope) := by
  by_cases hnone : m.unconsolidated scope = []
  · rw [flush_of_none hnone]
    exact h
  · intro t ht
    obtain ⟨t', ht', rfl⟩ := (mem_flush hnone).mp ht
    have hblocks : (marked scope t').blocks = t'.blocks := by
      unfold marked
      split <;> rfl
    rw [hblocks]
    exact h t' ht'

theorem Stored.step (h : Stored m) (i : Step) : Stored (m.step i) := by
  cases i with
  | addTurn reader role blocks accountId roomId => exact h.addTurn reader role blocks _ _
  | flush roomId accountId => exact h.flush _

/-- No turn of any reachable memory has a longer text than a turn may have. -/
theorem run_turns_within (maxTurns maxTopics : Nat) (steps : List Step) :
    ∀ t ∈ (Machine.run step (start maxTurns maxTopics) steps).store.turns,
      t.text.length ≤ maxTurnLength := by
  have hstored : Stored (Machine.run step (start maxTurns maxTopics) steps) :=
    Machine.run_inv Stored (fun _ i h => h.step i) (fun _ ht => by cases ht) steps
  intro t ht
  rw [ShortTermTurn.text, ← hstored t ht, blocksText_truncateBlocks, Text.takeChars,
    String.length_ofList]
  exact List.length_take_le _ _

end MemoryManager

/-! ## Rendered blocks -/

namespace Renderer

/-- The tags that can be shown. -/
def shownTags (blocks : List ContentBlock) : List String :=
  (blocks.map ContentBlock.tag).filter (· ≠ "")

/-- What is shown of the tags while there is room. -/
def keepTags : Int → List String → List String
  | _, [] => []
  | room, tag :: rest =>
    if room ≤ 0 then [] else clip room tag :: keepTags (room - (clip room tag).length) rest

/-- The characters of the tags. -/
def tagChars (tags : List String) : Nat := (tags.map String.length).sum

/-- There is no room at all; or the tags fit with a space between each two; or the first tag takes
all the room, which holds three dots if the tag has to be cut. -/
def Fits (maxChars : Nat) (tags : List String) : Prop :=
  maxChars = 0 ∨ (" ".intercalate tags).length ≤ maxChars ∨
    ∃ first rest, tags = first :: rest ∧ maxChars ≤ first.length ∧
      (maxChars = first.length ∨ 3 ≤ maxChars)

/-- Rendered blocks keep to their budget, and so does the context. -/
structure Bounded (tools : TextTools) (blocks : List ContentBlock) (maxChars : Nat) : Prop where
  blocks : (renderBlocks blocks maxChars).length ≤ maxChars
  context : ∀ turns references relevant users roomId (contextChars : Int), 3 ≤ contextChars →
    (renderShortTermContext tools turns references relevant contextChars users roomId).length ≤
      contextChars

variable {tag : String} {tags rest : List String} {room : Int}

/-! ### One tag -/

theorem clip_fits (h : tag.length ≤ room) : clip room tag = tag := if_neg (Int.not_lt.mpr h)

/-- What is cut is as long as there is room, or longer where three dots have no room. -/
theorem length_clip (hroom : 0 < room) (h : room < tag.length) :
    ((clip room tag).length : Int) = if 3 ≤ room then room else tag.length + room := by
  have hdots : "...".length = 3 := rfl
  rw [clip, if_pos h, String.length_append, hdots, sliceTo]
  split
  · rw [if_pos (by omega), Text.takeChars, String.length_ofList, List.length_take,
      String.length_toList]
    omega
  · rw [if_neg (by omega), Text.takeChars, String.length_ofList, List.length_take,
      String.length_toList]
    omega

theorem clip_eq_empty (tag : String) (hroom : 0 < room) : clip room tag = "" ↔ tag = "" := by
  rcases lt_or_ge room (tag.length : Int) with hlong | hfits
  · have hlength := length_clip hroom hlong
    have htag : tag ≠ "" := by
      rintro rfl
      simp only [String.length_empty] at hlong
      omega
    refine iff_of_false (fun hempty => ?_) htag
    rw [hempty, String.length_empty] at hlength
    split at hlength <;> omega
  · rw [clip_fits hfits]

/-! ### All tags -/

theorem keepTags_none (hroom : room ≤ 0) : keepTags room tags = [] := by
  cases tags with
  | nil => rfl
  | cons tag rest => rw [keepTags, if_pos hroom]

theorem blockTags_eq (room : Int) (blocks : List ContentBlock) :
    blockTags room blocks = keepTags room (shownTags blocks) := by
  induction blocks generalizing room with
  | nil => rfl
  | cons b rest ih =>
    rw [blockTags]
    split
    · next hroom => rw [keepTags_none hroom]
    · next hroom =>
      have hempty := clip_eq_empty b.tag (Int.not_le.mp hroom)
      dsimp only
      split
      · next htag =>
        rw [ih, shownTags, shownTags, List.map_cons, List.filter_cons_of_neg]
        simpa using hempty.mp htag
      · next htag =>
        rw [ih, shownTags, shownTags, List.map_cons, List.filter_cons_of_pos, keepTags,
          if_neg hroom]
        simpa using hempty.not.mp htag

theorem tagChars_cons : tagChars (tag :: rest) = tag.length + tagChars rest := rfl

/-- Behind every tag but the last one stands a space. -/
theorem length_joined (tag : String) (rest : List String) :
    (" ".intercalate (tag :: rest)).length = tagChars (tag :: rest) + rest.length := by
  induction rest generalizing tag with
  | nil => simp [tagChars]
  | cons next rest ih =>
    have hspace : " ".length = 1 := rfl
    rw [String.intercalate_cons_cons, String.length_append, String.length_append, hspace, ih]
    simp only [tagChars_cons, List.length_cons]
    omega

/-- All tags are shown as they are, or there is no room left. -/
theorem keepTags_cases (room : Int) (tags : List String) :
    keepTags room tags = tags ∨ room ≤ tagChars (keepTags room tags) := by
  induction tags generalizing room with
  | nil => exact .inl rfl
  | cons tag rest ih =>
    rcases le_or_gt room 0 with hnone | hroom
    · refine .inr ?_
      rw [keepTags_none hnone]
      exact hnone
    · rw [keepTags, if_neg (Int.not_le.mpr hroom), tagChars_cons, Nat.cast_add]
      rcases lt_or_ge room (tag.length : Int) with hlong | hfits
      · have hlength := length_clip hroom hlong
        refine .inr ?_
        split at hlength <;> omega
      · rw [clip_fits hfits]
        rcases ih (room - tag.length) with hall | hfull
        · exact .inl (by rw [hall])
        · exact .inr (by omega)

theorem keepTags_all (htags : ∀ tag ∈ tags, tag ≠ "")
    (h : (tagChars tags + tags.length : Int) ≤ room + 1) : keepTags room tags = tags := by
  induction tags generalizing room with
  | nil => rfl
  | cons tag rest ih =>
    have htag : tag.length ≠ 0 := fun hzero =>
      htags tag List.mem_cons_self (String.length_eq_zero_iff.mp hzero)
    rw [tagChars_cons, List.length_cons, Nat.cast_add, Nat.cast_add, Nat.cast_one] at h
    have hfits : clip room tag = tag := clip_fits (by omega)
    rw [keepTags, if_neg (by omega), hfits]
    exact congrArg (tag :: ·) (ih (fun t ht => htags t (List.mem_cons_of_mem _ ht)) (by omega))

/-- Behind a first tag that leaves some room another one is shown, with a space in front of it. -/
theorem keepTags_more {n : Nat} (h : tag.length < n)
    (hshown : (" ".intercalate (keepTags n (tag :: rest))).length ≤ n) :
    keepTags n (tag :: rest) = tag :: rest := by
  rcases keepTags_cases n (tag :: rest) with hall | hfull
  · exact hall
  · have hkept : keepTags n (tag :: rest) = tag :: keepTags (n - tag.length) rest := by
      rw [keepTags, if_neg (by omega), clip_fits (by omega)]
    rw [hkept, length_joined] at hshown
    rw [hkept, tagChars_cons] at hfull
    have hnone : keepTags (n - tag.length) rest = [] := by
      refine List.eq_nil_of_length_eq_zero ?_
      rw [tagChars_cons] at hshown
      omega
    rw [hnone, tagChars, List.map_nil, List.sum_nil] at hfull
    omega

/-- A first tag that takes all the room is all that is shown. -/
theorem keepTags_first {n : Nat} (rest : List String) (hroom : 0 < n) (h : n ≤ tag.length) :
    keepTags n (tag :: rest) = [clip n tag] ∧
      ((clip n tag).length ≤ n ↔ n = tag.length ∨ 3 ≤ n) := by
  have hlength : (clip n tag).length = if n = tag.length ∨ 3 ≤ n then n else tag.length + n := by
    rcases Nat.eq_or_lt_of_le h with hsame | hlong
    · rw [clip_fits (Int.ofNat_le.mpr hsame.ge), if_pos (.inl hsame), hsame]
    · have hlength := length_clip (Int.natCast_pos.mpr hroom) (Int.ofNat_lt.mpr hlong)
      split at hlength <;> split <;> omega
  constructor
  · rw [keepTags, if_neg (by omega), keepTags_none]
    split at hlength <;> omega
  · split at hlength <;> omega

theorem keepTags_fits_iff (htags : ∀ tag ∈ tags, tag ≠ "") (n : Nat) :
    (" ".intercalate (keepTags n tags)).length ≤ n ↔ Fits n tags := by
  rcases Nat.eq_zero_or_pos n with rfl | hroom
  · have hnone : keepTags ((0 : Nat) : Int) tags = [] := keepTags_none le_rfl
    rw [hnone]
    exact iff_of_true (by simp) (.inl rfl)
  cases tags with
  | nil => exact iff_of_true (by simp [keepTags]) (.inr (.inl (by simp)))
  | cons tag rest =>
    rcases Nat.lt_or_ge tag.length n with hsome | htakes
    · constructor
      · intro hshown
        rw [keepTags_more hsome hshown] at hshown
        exact .inr (.inl hshown)
      · rintro (hzero | hall | ⟨first, _, hcons, hle, -⟩)
        · omega
        · rwa [keepTags_all htags]
          rw [length_joined] at hall
          rw [List.length_cons]
          omega
        · obtain ⟨rfl, -⟩ := List.cons.inj hcons
          omega
    · obtain ⟨hkept, hclip⟩ := keepTags_first rest hroom htakes
      rw [hkept, String.intercalate_singleton, hclip]
      constructor
      · exact fun h => .inr (.inr ⟨tag, rest, rfl, htakes, h⟩)
      · rintro (hzero | hall | ⟨first, _, hcons, -, h⟩)
        · omega
        · rw [length_joined, tagChars_cons] at hall
          exact .inl (by omega)
        · obtain ⟨rfl, -⟩ := List.cons.inj hcons
          exact h

/-! ### The budget -/

theorem renderShortTermContext_within (tools : TextTools) (turns : List ShortTermTurn)
    (references : List String) (relevant : List ShortTermSearchResult) (users : List ActiveUser)
    (roomId : String) {contextChars : Int} (h : 3 ≤ contextChars) :
    (renderShortTermContext tools turns references relevant contextChars users roomId).length ≤
      contextChars := by
  have hclip (text : String) : ((clip contextChars text).length : Int) ≤ contextChars := by
    rcases lt_or_ge contextChars (text.length : Int) with hlong | hfits
    · rw [length_clip (by omega) hlong, if_pos h]
    · rwa [clip_fits hfits]
  unfold renderShortTermContext
  split
  · rw [String.length_empty]
    omega
  · dsimp only
    split
    · rw [String.length_empty]
      omega
    · exact hclip _

theorem bounded_iff (tools : TextTools) (blocks : List ContentBlock) (maxChars : Nat) :
    Bounded tools blocks maxChars ↔ Fits maxChars (shownTags blocks) := by
  have htags : ∀ tag ∈ shownTags blocks, tag ≠ "" := fun tag htag =>
    of_decide_eq_true (List.mem_filter.mp htag).2
  rw [← keepTags_fits_iff htags, ← blockTags_eq]
  exact ⟨fun h => h.blocks, fun h => ⟨h, fun turns references relevant users roomId _ =>
    renderShortTermContext_within tools turns references relevant users roomId⟩⟩

/-- The space between two tags is not counted. -/
theorem budget_overrun : ¬ ∀ (tools : TextTools) (blocks : List ContentBlock) (maxChars : Nat),
    Bounded tools blocks maxChars := by
  intro h
  have hbounded := (h ⟨fun _ => true, id, id, fun _ => ""⟩
    [textBlock (String.ofList (List.replicate 50 'a')),
      textBlock (String.ofList (List.replicate 50 'b'))] 100).blocks
  exact absurd hbounded (by decide +kernel)

end Renderer

end IrisMind.Memory
