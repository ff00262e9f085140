import Mathlib.Data.List.Basic

/-! # Cutting a list of pieces

Every piece has a text. Pieces are kept while there is room for their texts, one that does not fit
is cut to the room that is left, and nothing is kept behind it. With that the text of all pieces is
cut, and cutting it again changes nothing. -/
namespace IrisMind.Lib.Truncation

variable {α β : Type} (text : β → List α) (cut : Nat → β → β)

def truncate : Nat → List β → List β
  | _, [] => []
  | room, b :: rest =>
    if room = 0 then []
    else if (text b).length ≤ room then b :: truncate (room - (text b).length) rest
    else [cut room b]

variable {text cut}

@[simp] theorem truncate_zero (bs : List β) : truncate text cut 0 bs = [] := by
  cases bs with
  | nil => rfl
  | cons b rest => rw [truncate, if_pos rfl]

theorem truncate_fits {room : Nat} {b : β} (hroom : 0 < room) (h : (text b).length ≤ room)
    (rest : List β) : truncate text cut room (b :: rest) =
      b :: truncate text cut (room - (text b).length) rest := by
  rw [truncate, if_neg (Nat.ne_of_gt hroom), if_pos h]

theorem truncate_cut {room : Nat} {b : β} (hroom : 0 < room) (h : room < (text b).length)
    (rest : List β) : truncate text cut room (b :: rest) = [cut room b] := by
  rw [truncate, if_neg (Nat.ne_of_gt hroom), if_neg (Nat.not_le.mpr h)]

/-- What is kept before the last piece is what the list begins with. -/
theorem dropLast_truncate (room : Nat) (bs : List β) :
    (truncate text cut room bs).dropLast <+: bs := by
  induction bs generalizing room with
  | nil => exact List.nil_prefix
  | cons b rest ih =>
    rcases Nat.eq_zero_or_pos room with rfl | hroom
    · rw [truncate_zero]
      exact List.nil_prefix
    · rcases Nat.lt_or_ge room (text b).length with hlong | hfits
      · rw [truncate_cut hroom hlong]
        exact List.nil_prefix
      · rw [truncate_fits hroom hfits]
        cases hrest : truncate text cut (room - (text b).length) rest with
        | nil => exact List.nil_prefix
        | cons kept more =>
          rw [List.dropLast_cons_of_ne_nil (List.cons_ne_nil _ _), ← hrest]
          exact List.cons_prefix_cons.mpr ⟨rfl, ih _⟩

section
variable (hcut : ∀ n b, text (cut n b) = (text b).take n)
include hcut

theorem text_truncate (room : Nat) (bs : List β) :
    (truncate text cut room bs).flatMap text = (bs.flatMap text).take room := by
  induction bs generalizing room with
  | nil => simp [truncate]
  | cons b rest ih =>
    rcases Nat.eq_zero_or_pos room with rfl | hroom
    · simp
    · rw [List.flatMap_cons, List.take_append]
      rcases Nat.lt_or_ge room (text b).length with hlong | hfits
      · have hnone : room - (text b).length = 0 := Nat.sub_eq_zero_of_le (Nat.le_of_lt hlong)
        rw [truncate_cut hroom hlong, List.flatMap_singleton, hcut, hnone, List.take_zero,
          List.append_nil]
      · rw [truncate_fits hroom hfits, List.flatMap_cons, ih, List.take_of_length_le hfits]

/-- What is kept fits, so that it is kept again. -/
theorem truncate_truncate (room : Nat) (bs : List β) :
    truncate text cut room (truncate text cut room bs) = truncate text cut room bs := by
  induction bs generalizing room with
  | nil => rfl
  | cons b rest ih =>
    rcases Nat.eq_zero_or_pos room with rfl | hroom
    · rw [truncate_zero, truncate_zero]
    · rcases Nat.lt_or_ge room (text b).length with hlong | hfits
      · have hfits : (text (cut room b)).length ≤ room := by
          rw [hcut]
          exact List.length_take_le room (text b)
        rw [truncate_cut hroom hlong, truncate_fits hroom hfits, truncate]
      · rw [truncate_fits hroom hfits, truncate_fits hroom hfits, ih]

end

end IrisMind.Lib.Truncation
