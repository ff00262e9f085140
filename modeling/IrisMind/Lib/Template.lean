import Mathlib.Data.List.TakeWhile

/-! # Texts with references

A text in which `$`, an opening brace, a name and a closing brace stand for a
value. References are found from the left and do not overlap; what is put in
their place is not looked at again. -/
namespace IrisMind.Lib.Template

inductive Piece where
  | char (c : Char)
  | ref (name : List Char)
deriving DecidableEq, Repr

/-- The name of the reference a text starts with, and the text after it. -/
def refAt : List Char → Option (List Char × List Char)
  | '$' :: '{' :: rest =>
    match rest.takeWhile (· ≠ '}'), rest.dropWhile (· ≠ '}') with
    | c :: name, _ :: after => some (c :: name, after)
    | _, _ => none
  | _ => none

theorem refAt_eq_some {l name after : List Char} :
    refAt l = some (name, after) ↔
      l = '$' :: '{' :: (name ++ '}' :: after) ∧ name ≠ [] ∧ '}' ∉ name := by
  constructor
  · intro h
    unfold refAt at h
    split at h
    · rename_i rest
      split at h
      · rename_i c cs d ds htake hdrop
        obtain ⟨rfl, rfl⟩ : c :: cs = name ∧ ds = after := by simpa using h
        have hsplit := List.takeWhile_append_dropWhile (p := (· ≠ '}')) (l := rest)
        rw [htake, hdrop] at hsplit
        have hbrace : d = '}' := by
          have hhead := List.head?_dropWhile_not (· ≠ '}') rest
          rw [hdrop] at hhead
          simpa using hhead
        have hname : ∀ x ∈ c :: cs, x ≠ '}' := by
          intro x hx
          rw [← htake] at hx
          simpa using List.mem_takeWhile_imp hx
        exact ⟨by rw [← hsplit, hbrace], by simp, fun hmem => hname _ hmem rfl⟩
      · exact absurd h (by simp)
    · exact absurd h (by simp)
  · rintro ⟨rfl, hne, hbrace⟩
    have hall : ∀ x ∈ name, decide (x ≠ '}') = true := by
      intro x hx
      exact decide_eq_true fun h => hbrace (h ▸ hx)
    have htake : (name ++ '}' :: after).takeWhile (· ≠ '}') = name := by
      rw [List.takeWhile_append_of_pos hall]
      simp
    have hdrop : (name ++ '}' :: after).dropWhile (· ≠ '}') = '}' :: after := by
      rw [List.dropWhile_append_of_pos hall]
      simp
    cases name with
    | nil => exact absurd rfl hne
    | cons c cs =>
      simp only [refAt]
      rw [htake, hdrop]

theorem refAt_length {l name after : List Char} (h : refAt l = some (name, after)) :
    after.length < l.length := by
  rw [(refAt_eq_some.mp h).1]
  simp only [List.length_cons, List.length_append]
  omega

def pieces : List Char → List Piece
  | [] => []
  | c :: rest =>
    match _h : refAt (c :: rest) with
    | some (name, after) => .ref name :: pieces after
    | none => .char c :: pieces rest
termination_by l => l.length
decreasing_by
  · exact refAt_length _h
  · exact Nat.lt_succ_self _

def Piece.write : Piece → List Char
  | .char c => [c]
  | .ref name => '$' :: '{' :: (name ++ ['}'])

def Piece.expand (value : List Char → List Char) : Piece → List Char
  | .char c => [c]
  | .ref name => value name

def Piece.name? : Piece → Option (List Char)
  | .char _ => none
  | .ref name => some name

/-- The names of the references of a text, from the left. -/
def refs (l : List Char) : List (List Char) := (pieces l).filterMap Piece.name?

/-- The text with a value in the place of each of its references. -/
def expand (value : List Char → List Char) (l : List Char) : List Char :=
  (pieces l).flatMap (Piece.expand value)

theorem pieces_ref {l name after : List Char} (h : refAt l = some (name, after)) :
    pieces l = .ref name :: pieces after := by
  cases l with
  | nil => exact absurd h (by simp [refAt])
  | cons c rest =>
    rw [pieces]
    split
    · rename_i name' after' h'
      obtain ⟨rfl, rfl⟩ : name' = name ∧ after' = after := by simpa using h'.symm.trans h
      rfl
    · rename_i h'
      exact absurd (h'.symm.trans h) (by simp)

theorem pieces_char {c : Char} {rest : List Char} (h : refAt (c :: rest) = none) :
    pieces (c :: rest) = .char c :: pieces rest := by
  rw [pieces]
  split
  · rename_i h'
    exact absurd (h.symm.trans h') (by simp)
  · rfl

/-! ## What is left to expand -/

/-- A value that takes part in no reference, wherever it is put. An empty one would join what stands
around it, and an opening brace would follow a `$` before it. -/
structure Inert (v : List Char) : Prop where
  nonempty : v ≠ []
  dollar : '$' ∉ v
  brace : v.head? ≠ some '{'

/-- A reference starts with `$`. -/
theorem refAt_eq_none {c : Char} (hc : c ≠ '$') (l : List Char) : refAt (c :: l) = none := by
  cases h : refAt (c :: l) with
  | none => rfl
  | some r =>
    have hl := (refAt_eq_some.mp h).1
    exact absurd (List.cons.inj hl).1 hc

variable {value : List Char → List Char}

theorem expand_congr {value' : List Char → List Char} {l : List Char}
    (h : ∀ name ∈ refs l, value name = value' name) : expand value l = expand value' l := by
  have hpieces : ∀ ps : List Piece, (∀ name ∈ ps.filterMap Piece.name?, value name = value' name) →
      ps.flatMap (Piece.expand value) = ps.flatMap (Piece.expand value') := by
    intro ps
    induction ps with
    | nil => exact fun _ => rfl
    | cons p ps ih =>
      intro hps
      cases p with
      | char c => simpa [Piece.expand] using ih hps
      | ref name =>
        have hname := hps name (by simp [Piece.name?])
        have hrest := ih fun n hn => hps n (by simp [Piece.name?, hn])
        rw [List.flatMap_cons, List.flatMap_cons, hrest]
        simp [Piece.expand, hname]
  exact hpieces _ h

theorem expand_of_ref {l name after : List Char} (h : refAt l = some (name, after)) :
    expand value l = value name ++ expand value after := by
  rw [expand, pieces_ref h, List.flatMap_cons]
  rfl

theorem expand_of_char {c : Char} {rest : List Char} (h : refAt (c :: rest) = none) :
    expand value (c :: rest) = c :: expand value rest := by
  rw [expand, pieces_char h, List.flatMap_cons]
  rfl

@[simp] theorem expand_nil : expand value [] = [] := by simp [expand, pieces]

/-- A text without a closing brace has no reference. -/
theorem expand_of_open : ∀ {l : List Char}, '}' ∉ l → expand value l = l
  | [], _ => expand_nil
  | c :: rest, h => by
    have hnone : refAt (c :: rest) = none := by
      cases hr : refAt (c :: rest) with
      | none => rfl
      | some r => exact absurd (by rw [(refAt_eq_some.mp hr).1]; simp) h
    rw [expand_of_char hnone, expand_of_open fun hmem => h (List.mem_cons_of_mem _ hmem)]

/-- After an expansion by inert values a `$` that started no reference starts none. -/
theorem refAt_expand (hvalue : ∀ name, Inert (value name)) {c : Char} {rest : List Char}
    (h : refAt (c :: rest) = none) : refAt (c :: expand value rest) = none := by
  cases hr : refAt (c :: expand value rest) with
  | none => rfl
  | some r =>
    obtain ⟨hl, hne, hbrace⟩ := refAt_eq_some.mp hr
    obtain ⟨rfl, hrest⟩ := List.cons.inj hl
    cases rest with
    | nil => exact absurd hrest (by simp)
    | cons d rest =>
      cases hd : refAt (d :: rest) with
      | some q =>
        -- what follows the `$` is a value, which is there and starts with no brace
        rw [expand_of_ref hd] at hrest
        obtain ⟨v, vs, hv⟩ := List.exists_cons_of_ne_nil (hvalue q.1).nonempty
        rw [hv] at hrest
        have hhead := (hvalue q.1).brace
        rw [hv, (List.cons.inj hrest).1] at hhead
        exact absurd rfl hhead
      | none =>
        rw [expand_of_char hd] at hrest
        obtain ⟨rfl, htail⟩ := List.cons.inj hrest
        by_cases hclose : '}' ∈ rest
        · -- a closing brace that was there already ended a reference, or came at once
          obtain ⟨as, bs, hrest, has⟩ := List.eq_append_cons_of_mem hclose
          subst hrest
          cases as with
          | nil =>
            have hnone := refAt_eq_none (c := '}') (by decide) bs
            rw [List.nil_append, expand_of_char hnone] at htail
            cases hname : r.1 with
            | nil => exact absurd hname hne
            | cons n ns =>
              rw [hname] at htail hbrace
              exact absurd (by rw [← (List.cons.inj htail).1]; simp) hbrace
          | cons a as =>
            have hsome : refAt ('$' :: '{' :: (a :: as ++ '}' :: bs)) = some (a :: as, bs) :=
              refAt_eq_some.mpr ⟨rfl, by simp, has⟩
            exact absurd (h.symm.trans hsome) (by simp)
        · rw [expand_of_open hclose] at htail
          exact absurd (by rw [htail]; simp) hclose

/-- A text in which no reference starts anywhere. -/
def Settled (l : List Char) : Prop := ∀ t, t <:+ l → refAt t = none

theorem Settled.expand {l : List Char} (h : Settled l) : Template.expand value l = l := by
  induction l with
  | nil => exact expand_nil
  | cons c rest ih =>
    rw [expand_of_char (h _ (List.suffix_refl _)),
      ih fun t ht => h t (ht.trans (List.suffix_cons _ _))]

theorem Settled.refs {l : List Char} (h : Settled l) : Template.refs l = [] := by
  induction l with
  | nil => simp [Template.refs, pieces]
  | cons c rest ih =>
    have hrest := ih fun t ht => h t (ht.trans (List.suffix_cons _ _))
    rw [Template.refs] at hrest ⊢
    rw [pieces_char (h _ (List.suffix_refl _))]
    simpa [Piece.name?] using hrest

theorem settled_append {v l : List Char} (hv : '$' ∉ v) (hl : Settled l) : Settled (v ++ l) := by
  induction v with
  | nil => exact hl
  | cons c v ih =>
    intro t ht
    rcases List.suffix_cons_iff.mp ht with rfl | ht
    · exact refAt_eq_none (fun hc => hv (by simp [hc])) _
    · exact ih (fun hmem => hv (List.mem_cons_of_mem _ hmem)) t ht

/-- Expanding by inert values leaves no reference. -/
theorem settled_expand (hvalue : ∀ name, Inert (value name)) (l : List Char) :
    Settled (expand value l) := by
  induction l using pieces.induct with
  | case1 =>
    intro t ht
    rw [expand_nil, List.suffix_nil] at ht
    rw [ht]
    rfl
  | case2 c rest name after h ih =>
    rw [expand_of_ref h]
    exact settled_append (hvalue name).dollar ih
  | case3 c rest h ih =>
    rw [expand_of_char h]
    intro t ht
    rcases List.suffix_cons_iff.mp ht with rfl | ht
    · exact refAt_expand hvalue h
    · exact ih t ht

end IrisMind.Lib.Template
