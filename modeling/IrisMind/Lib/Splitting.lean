import Mathlib.Data.String.Basic

/-! # Splitting a string at a character

A string falls apart at every occurrence of a separator of one character. So
parts that do not have the separator come back from the string they are joined
to. -/
namespace IrisMind.Lib.Text
open String

/-- The scan has kept `m` since the last separator, and `r` is to come. -/
theorem splitOnAux_char (sep : Char) (l m r : List Char) (acc : List String) :
    splitOnAux (ofList (l ++ m ++ r)) (singleton sep) ⟨utf8Len l⟩ ⟨utf8Len l + utf8Len m⟩ 0 acc =
      acc.reverse ++ (List.splitOnPPrepend (· == sep) r m.reverse).map ofList := by
  have hget : (0 : Pos.Raw).get (singleton sep) = sep := get_of_valid [] [sep]
  have hnext : (0 : Pos.Raw).next (singleton sep) = ⟨sep.utf8Size⟩ := by
    simpa using next_of_valid [] sep []
  have hend : (⟨sep.utf8Size⟩ : Pos.Raw).atEnd (singleton sep) = true := by
    simp [atEnd_iff, Pos.Raw.le_iff]
  induction r generalizing l m acc with
  | nil =>
    have hstop : (⟨utf8Len l + utf8Len m⟩ : Pos.Raw).atEnd (ofList (l ++ m ++ [])) = true := by
      simp only [atEnd_iff, rawEndPos_ofList, List.append_nil, utf8Len_append, Pos.Raw.mk_le_mk,
        Nat.le_refl]
    rw [splitOnAux, if_pos hstop]
    simpa using extract_of_valid l m []
  | cons c r ih =>
    have hgo : ¬ (⟨utf8Len l + utf8Len m⟩ : Pos.Raw).atEnd (ofList (l ++ m ++ c :: r)) = true := by
      have hsize := c.utf8Size_pos
      simp only [atEnd_iff, rawEndPos_ofList, utf8Len_append, utf8Len_cons, Pos.Raw.mk_le_mk]
      omega
    have hchar := get_of_valid (l ++ m) (c :: r)
    have hstep := next_of_valid (l ++ m) c r
    simp only [utf8Len_append, List.headD_cons] at hchar hstep
    rw [splitOnAux, if_neg hgo, hchar, hget]
    by_cases h : c = sep
    · subst h
      have hback : Pos.Raw.unoffsetBy ⟨utf8Len l + utf8Len m + c.utf8Size⟩ ⟨c.utf8Size⟩ =
          ⟨utf8Len l + utf8Len m⟩ := by simp [Pos.Raw.unoffsetBy]
      simp only [beq_self_eq_true, if_true, hnext, hend]
      rw [hstep, hback, extract_of_valid l m (c :: r)]
      simpa [Nat.add_assoc, List.splitOnPPrepend_cons_eq_if] using
        ih (l ++ m ++ [c]) [] (ofList m :: acc)
    · have hne : (c == sep) = false := beq_false_of_ne h
      have hback : Pos.Raw.unoffsetBy ⟨utf8Len l + utf8Len m⟩ 0 = ⟨utf8Len l + utf8Len m⟩ := by
        simp [Pos.Raw.unoffsetBy]
      simp only [hne, Bool.false_eq_true, if_false]
      rw [hback, hstep]
      simpa [Nat.add_assoc, List.splitOnPPrepend_cons_eq_if, hne] using ih l (m ++ [c]) acc

theorem splitOn_char (s : String) (sep : Char) :
    s.splitOn (singleton sep) = (s.toList.splitOn sep).map ofList := by
  have hsep : (singleton sep == "") = false := by simp
  rw [splitOn, hsep]
  simpa [List.splitOn] using splitOnAux_char sep [] [] s.toList []

theorem splitOn_of_not_mem {sep : Char} {s : String} (h : sep ∉ s.toList) :
    s.splitOn (singleton sep) = [s] := by
  rw [splitOn_char, List.splitOn_eq_singleton h]
  simp

/-- What stands before a separator is the first part, the rest is split on its own. -/
theorem splitOn_append {sep : Char} {s : String} (h : sep ∉ s.toList) (t : String) :
    (s ++ singleton sep ++ t).splitOn (singleton sep) = s :: t.splitOn (singleton sep) := by
  have hlist : (s ++ singleton sep ++ t).toList = s.toList ++ sep :: t.toList := by simp
  rw [splitOn_char, splitOn_char, hlist, List.splitOn_append_cons_self_of_not_mem h]
  simp

end IrisMind.Lib.Text
