import IrisMind.Llm.Repetition
import Mathlib.Data.List.Infix

/-! # What the search for blocks finds

The two patterns read as statements about a text: which block matches at its front, what the search
has passed over when it looks at a rest of the text, and how both change when something is put
behind the text. -/
namespace IrisMind.Llm.Repetition

/-! ## Copies of a block -/

def rep (b : List Char) (k : Nat) : List Char := (List.replicate k b).flatten

@[simp] theorem rep_zero (b : List Char) : rep b 0 = [] := rfl

theorem rep_succ (b : List Char) (k : Nat) : rep b (k + 1) = b ++ rep b k := rfl

@[simp] theorem length_rep (b : List Char) (k : Nat) : (rep b k).length = k * b.length := by
  simp [rep]

theorem mem_rep {b : List Char} {k : Nat} {c : Char} (h : c ∈ rep b k) : c ∈ b := by
  simp only [rep, List.mem_flatten, List.mem_replicate] at h
  obtain ⟨_, ⟨-, rfl⟩, hc⟩ := h
  exact hc

theorem rep_starts (b : List Char) {j k : Nat} (h : j ≤ k) : rep b j <+: rep b k := by
  obtain ⟨i, rfl⟩ := Nat.exists_eq_add_of_le h
  rw [rep, rep, List.replicate_add, List.flatten_append]
  exact List.prefix_append _ _

variable {b x y t r : List Char} {m n fuel : Nat}

/-- The copies that are counted are those that a text begins with. -/
theorem le_copies_iff (hb : b ≠ []) (h : t.length ≤ fuel) :
    m ≤ copies b fuel t ↔ rep b m <+: t := by
  have hpos := List.length_pos_of_ne_nil hb
  induction fuel generalizing t m with
  | zero =>
    obtain rfl : t = [] := List.eq_nil_of_length_eq_zero (Nat.le_zero.mp h)
    cases m with
    | zero => simp [copies]
    | succ m => simp [copies, rep_succ, hb]
  | succ fuel ih =>
    cases m with
    | zero => simp
    | succ m =>
      unfold copies
      split
      · next hfirst =>
        obtain ⟨rest, rfl⟩ : b <+: t := by simpa [hb] using hfirst
        rw [Nat.add_le_add_iff_right, List.drop_left, rep_succ, List.prefix_append_right_inj]
        refine ih ?_
        rw [List.length_append] at h
        omega
      · next hnot =>
        refine iff_of_false (Nat.not_succ_le_zero m) fun hfront => hnot ?_
        have hfirst : b <+: t := (List.prefix_append b (rep b m)).trans hfront
        simpa [hb] using hfirst

theorem rep_copies (hb : b ≠ []) : rep b (copies b t.length t) <+: t :=
  (le_copies_iff hb le_rfl).mp le_rfl

/-! ## The match at the front of a text -/

/-- The block stands four times in a row at the front of the text. -/
structure Fits (b t : List Char) : Prop where
  line : '\n' ∉ b
  four : rep b 4 <+: t

theorem Fits.first (h : Fits b t) : b <+: t := by
  have hfirst : b <+: rep b 4 := List.prefix_append b (rep b 3)
  exact hfirst.trans h.four

theorem Fits.length_le (h : Fits b t) : 4 * b.length ≤ t.length := by
  have := h.four.length_le
  rwa [length_rep] at this

theorem Fits.append (h : Fits b x) (y : List Char) : Fits b (x ++ y) :=
  ⟨h.line, h.four.trans (List.prefix_append x y)⟩

theorem Fits.of_append (h : Fits b (x ++ y)) (hlen : 4 * b.length ≤ x.length) : Fits b x := by
  refine ⟨h.line, List.prefix_of_prefix_length_le h.four (List.prefix_append x y) ?_⟩
  rwa [length_rep]

/-- The shortest block that fits, as often as it is there. -/
structure Matches (t b : List Char) (n : Nat) : Prop where
  short : 2 ≤ b.length ∧ b.length ≤ 20
  fits : Fits b t
  least : ∀ b', 2 ≤ b'.length → b'.length < b.length → ¬ Fits b' t
  size : n = b.length * copies b t.length t

def blockAt (t : List Char) (len : Nat) : Option (List Char × Nat) :=
  let b := t.take len
  let k := copies b t.length t
  if b.length = len && !b.contains '\n' && 4 ≤ k then some (b, len * k) else none

theorem blockAt_eq_some {len : Nat} (hlen : 2 ≤ len) : blockAt t len = some (b, n) ↔
    b.length = len ∧ Fits b t ∧ n = len * copies b t.length t := by
  have hcopies : (t.take len).length = len →
      (4 ≤ copies (t.take len) t.length t ↔ rep (t.take len) 4 <+: t) := by
    intro htake
    have hb : t.take len ≠ [] := by
      rw [← List.length_pos_iff, htake]
      omega
    exact le_copies_iff hb le_rfl
  constructor
  · intro h
    simp only [blockAt, Option.ite_none_right_eq_some, Bool.and_eq_true, decide_eq_true_eq,
      Bool.not_eq_true', Option.some.injEq, Prod.mk.injEq] at h
    obtain ⟨⟨⟨htake, hline⟩, hfour⟩, rfl, rfl⟩ := h
    exact ⟨htake, ⟨by simpa using hline, (hcopies htake).mp hfour⟩, rfl⟩
  · rintro ⟨rfl, hfits, rfl⟩
    have htake : t.take b.length = b := (List.prefix_iff_eq_take.mp hfits.first).symm
    rw [htake] at hcopies
    simp [blockAt, htake, hfits.line, (hcopies rfl).mpr hfits.four]

theorem blockAt_eq_none {len : Nat} (hlen : 2 ≤ len) : blockAt t len = none ↔
    ∀ b, b.length = len → ¬ Fits b t := by
  rw [Option.eq_none_iff_forall_ne_some]
  constructor
  · intro h b hb hfits
    exact h _ ((blockAt_eq_some hlen).mpr ⟨hb, hfits, rfl⟩)
  · rintro h ⟨b, n⟩ hsome
    obtain ⟨hb, hfits, -⟩ := (blockAt_eq_some hlen).mp hsome
    exact h b hb hfits

theorem multiAt_eq_some : multiAt t = some (b, n) ↔ Matches t b n := by
  have hdef : multiAt t = (List.range' 2 19).findSome? (blockAt t) := rfl
  rw [hdef, List.findSome?_eq_some_iff]
  constructor
  · rintro ⟨before, len, after, hsplit, hat, hnone⟩
    obtain ⟨k, hk, rfl, hcons⟩ := List.range'_eq_append_iff.mp hsplit
    obtain ⟨hstart, hmore, -⟩ := List.range'_eq_cons_iff.mp hcons.symm
    obtain ⟨hb, hfits, hsize⟩ := (blockAt_eq_some (by omega)).mp hat
    refine ⟨by omega, hfits, ?_, by rw [hb, hsize]⟩
    intro b' htwo hless
    refine (blockAt_eq_none htwo).mp (hnone b'.length ?_) b' rfl
    rw [List.mem_range'_1]
    omega
  · intro h
    have hshort := h.short
    refine ⟨List.range' 2 (b.length - 2), b.length, List.range' (b.length + 1) (20 - b.length),
      ?_, (blockAt_eq_some hshort.1).mpr ⟨rfl, h.fits, h.size⟩, ?_⟩
    · refine List.range'_eq_append_iff.mpr ⟨b.length - 2, by omega, rfl, ?_⟩
      refine (List.range'_eq_cons_iff.mpr ⟨by omega, by omega, ?_⟩).symm
      congr 1
      omega
    · intro len hlen
      rw [List.mem_range'_1] at hlen
      exact (blockAt_eq_none hlen.1).mpr fun b' hb' => h.least b' (by omega) (by omega)

theorem multiAt_eq_none : multiAt t = none ↔
    ∀ b, 2 ≤ b.length → b.length ≤ 20 → ¬ Fits b t := by
  have hdef : multiAt t = (List.range' 2 19).findSome? (blockAt t) := rfl
  rw [hdef, List.findSome?_eq_none_iff]
  constructor
  · intro h b htwo htwenty
    refine (blockAt_eq_none htwo).mp (h b.length ?_) b rfl
    rw [List.mem_range'_1]
    omega
  · intro h len hlen
    rw [List.mem_range'_1] at hlen
    exact (blockAt_eq_none hlen.1).mpr fun b hb => h b (by omega) (by omega)

theorem Matches.ne_nil (h : Matches t b n) : b ≠ [] := by
  have := h.short
  exact List.ne_nil_of_length_pos (by omega)

theorem Matches.take_eq (h : Matches t b n) : t.take n = rep b (copies b t.length t) := by
  have hfront := rep_copies (t := t) h.ne_nil
  rw [List.prefix_iff_eq_take.mp hfront, length_rep, h.size, Nat.mul_comm]

theorem Matches.four_le (h : Matches t b n) : 4 * b.length ≤ n := by
  rw [h.size, Nat.mul_comm]
  exact Nat.mul_le_mul_left _ ((le_copies_iff h.ne_nil le_rfl).mpr h.fits.four)

theorem Matches.size_le (h : Matches t b n) : n ≤ t.length := by
  have := (rep_copies (t := t) h.ne_nil).length_le
  rwa [length_rep, Nat.mul_comm, ← h.size] at this

theorem not_matches_nil : ¬ Matches [] b n := fun h => by
  have := h.size_le
  have := h.four_le
  have := h.short
  simp only [List.length_nil] at *
  omega

theorem Matches.unique {b' : List Char} {n' : Nat} (h : Matches t b n) (h' : Matches t b' n') :
    b = b' ∧ n = n' := by
  have := (multiAt_eq_some.mpr h).symm.trans (multiAt_eq_some.mpr h')
  simpa using this

theorem multiAt_of_append (h : multiAt (x ++ y) = none) : multiAt x = none :=
  multiAt_eq_none.mpr fun b htwo htwenty hfits =>
    multiAt_eq_none.mp h b htwo htwenty (hfits.append y)

/-- A match that ends in `x` is the one that `x` has without the rest. -/
theorem Matches.of_append (h : Matches (x ++ y) b n) (hn : n ≤ x.length) : Matches x b n := by
  have hb := h.ne_nil
  refine ⟨h.short, h.fits.of_append (h.four_le.trans hn),
    fun b' htwo hless hfits => h.least b' htwo hless (hfits.append y), ?_⟩
  rw [h.size]
  congr 1
  refine eq_of_forall_le_iff fun m => ?_
  rw [le_copies_iff hb le_rfl, le_copies_iff hb le_rfl]
  constructor
  · intro hmany
    refine List.prefix_of_prefix_length_le hmany (List.prefix_append x y) ?_
    have hle := (le_copies_iff hb le_rfl).mpr hmany
    have := Nat.mul_le_mul_left b.length hle
    rw [length_rep, Nat.mul_comm]
    exact this.trans (h.size ▸ hn)
  · intro hmany
    exact hmany.trans (List.prefix_append x y)

theorem Matches.append (h : Matches x b n) (y : List Char) : ∃ n', Matches (x ++ y) b n' := by
  refine ⟨_, h.short, h.fits.append y, fun b' htwo hless hfits => h.least b' htwo hless ?_, rfl⟩
  have := h.fits.length_le
  exact hfits.of_append (by omega)

/-- A match that needs what is behind `x` is not there without it. -/
theorem Matches.none_of_append (h : Matches (x ++ y) b n) (hlong : x.length < 4 * b.length) :
    multiAt x = none := by
  refine multiAt_eq_none.mpr fun b' htwo htwenty hfits => h.least b' htwo ?_ (hfits.append y)
  have := hfits.length_le
  omega

/-! ## Blocks of one character -/

theorem varied_iff : varied b = true ↔ ∃ c ∈ b, ∃ d ∈ b, c ≠ d := by
  rw [varied, decide_eq_true_eq]
  constructor
  · intro h
    match hd : b.dedup with
    | [] => simp [hd] at h
    | [_] => simp [hd] at h
    | c :: d :: rest =>
      have hnodup := hd ▸ b.nodup_dedup
      refine ⟨c, List.mem_dedup.mp (hd ▸ by simp), d, List.mem_dedup.mp (hd ▸ by simp), ?_⟩
      rintro rfl
      simp at hnodup
  · rintro ⟨c, hc, d, hd, hne⟩
    by_contra hshort
    match hb : b.dedup with
    | [] =>
      rw [← List.mem_dedup, hb] at hc
      exact (List.not_mem_nil hc).elim
    | [e] =>
      rw [← List.mem_dedup, hb, List.mem_singleton] at hc hd
      exact hne (hc.trans hd.symm)
    | c :: d :: rest => simp [hb] at hshort

theorem varied_eq_false : varied b = false ↔ ∀ c ∈ b, ∀ d ∈ b, c = d := by
  rw [← Bool.not_eq_true, varied_iff]
  push Not
  rfl

theorem two_le_length (h : varied b = true) : 2 ≤ b.length := by
  rw [varied, decide_eq_true_eq] at h
  exact h.trans_le b.dedup_sublist.length_le

/-- A block of one character goes over that character only. -/
theorem Matches.uniform (h : Matches t b n) (hsame : varied b = false) :
    ∀ c ∈ t.take n, ∀ d ∈ t.take n, c = d := by
  rw [h.take_eq]
  intro c hc d hd
  exact varied_eq_false.mp hsame c (mem_rep hc) d (mem_rep hd)

/-- Where such a block goes beyond `x`, all of `x` and what comes next is its character. -/
theorem Matches.across (h : Matches (x ++ y) b n) (hsame : varied b = false)
    (hn : x.length < n) : ∀ c ∈ x ++ y.take 1, ∀ d ∈ x ++ y.take 1, c = d := by
  have hfront : x ++ y.take 1 <+: (x ++ y).take n := by
    refine List.prefix_take_iff.mpr ⟨?_, ?_⟩
    · exact (List.prefix_append_right_inj x).mpr (List.take_prefix 1 y)
    · have := List.length_take_le 1 y
      rw [List.length_append]
      omega
  exact fun c hc d hd => h.uniform hsame c (hfront.subset hc) d (hfront.subset hd)

/-! ## What the search passes over -/

/-- The search looks at the rest `r` of the text and has passed over blocks of one character. -/
inductive Scanned : List Char → List Char → Prop
  | here (t : List Char) : Scanned t t
  | skip {c : Char} {t r : List Char} : multiAt (c :: t) = none → Scanned t r → Scanned (c :: t) r
  | jump {t b r : List Char} {n : Nat} :
      Matches t b n → varied b = false → Scanned (t.drop n) r → Scanned t r

theorem Scanned.suffix (h : Scanned t r) : r <:+ t := by
  induction h with
  | here t => exact List.suffix_rfl
  | skip hnone hscan ih => exact ih.trans (List.suffix_cons _ _)
  | jump hm hsame hscan ih => exact ih.trans (List.drop_suffix _ _)

/-- The search passes over what is in front of `r`, and matches the varied block `b` there. -/
structure First (t r b : List Char) : Prop where
  scanned : Scanned t r
  matched : ∃ n, Matches r b n
  varied : varied b = true

theorem not_first_nil : ¬ First [] r b := fun h => by
  obtain rfl := List.suffix_nil.mp h.scanned.suffix
  obtain ⟨n, hm⟩ := h.matched
  exact not_matches_nil hm

theorem first_none {c : Char} (hnone : multiAt (c :: t) = none) :
    First (c :: t) r b ↔ First t r b := by
  constructor
  · rintro ⟨hscan, ⟨n, hm⟩, hvaried⟩
    cases hscan with
    | here => exact absurd (multiAt_eq_some.mpr hm) (by simp [hnone])
    | skip _ hscan => exact ⟨hscan, ⟨n, hm⟩, hvaried⟩
    | jump hm' hsame hscan => exact absurd (multiAt_eq_some.mpr hm') (by simp [hnone])
  · rintro ⟨hscan, hm, hvaried⟩
    exact ⟨.skip hnone hscan, hm, hvaried⟩

theorem first_same (hm : Matches t b n) (hsame : varied b = false) {b' : List Char} :
    First t r b' ↔ First (t.drop n) r b' := by
  constructor
  · rintro ⟨hscan, ⟨n', hm'⟩, hvaried⟩
    cases hscan with
    | here =>
      obtain ⟨rfl, -⟩ := hm.unique hm'
      exact absurd hvaried (by simp [hsame])
    | skip hnone hscan => exact absurd (multiAt_eq_some.mpr hm) (by simp [hnone])
    | jump hm'' hsame' hscan =>
      obtain ⟨rfl, rfl⟩ := hm.unique hm''
      exact ⟨hscan, ⟨n', hm'⟩, hvaried⟩
  · rintro ⟨hscan, hm', hvaried⟩
    exact ⟨.jump hm hsame hscan, hm', hvaried⟩

theorem first_varied (hm : Matches t b n) (hvaried : varied b = true) {b' : List Char} :
    First t r b' ↔ r = t ∧ b = b' := by
  constructor
  · rintro ⟨hscan, ⟨n', hm'⟩, hvaried'⟩
    cases hscan with
    | here => exact ⟨rfl, (hm.unique hm').1⟩
    | skip hnone hscan => exact absurd (multiAt_eq_some.mpr hm) (by simp [hnone])
    | jump hm'' hsame hscan =>
      obtain ⟨rfl, -⟩ := hm.unique hm''
      exact absurd hvaried (by simp [hsame])
  · rintro ⟨rfl, rfl⟩
    exact ⟨.here _, ⟨n, hm⟩, hvaried⟩

theorem find_varied {pos start : Nat} (hfuel : t.length ≤ fuel) :
    (findIter multiAt fuel pos t).find? (fun m => varied m.2) = some (start, b) ↔
      ∃ r, First t r b ∧ start + r.length = pos + t.length := by
  induction fuel generalizing pos t with
  | zero =>
    obtain rfl := List.eq_nil_of_length_eq_zero (Nat.le_zero.mp hfuel)
    simp [findIter, not_first_nil]
  | succ fuel ih =>
    cases t with
    | nil => simp [findIter, not_first_nil]
    | cons c rest =>
      rw [List.length_cons] at hfuel
      cases hat : multiAt (c :: rest) with
      | none =>
        simp only [findIter, hat, first_none hat, List.length_cons]
        rw [ih (by omega)]
        refine exists_congr fun r => and_congr_right fun _ => ?_
        omega
      | some m =>
        obtain ⟨b', n⟩ := m
        have hm := multiAt_eq_some.mp hat
        have hsize := hm.size_le
        have hfour := hm.four_le
        have hshort := hm.short
        rw [List.length_cons] at hsize
        simp only [findIter, hat, List.find?_cons]
        cases hvaried : varied b' with
        | true =>
          simp only [first_varied hm hvaried, Option.some.injEq, Prod.mk.injEq]
          constructor
          · rintro ⟨rfl, rfl⟩
            exact ⟨_, ⟨rfl, rfl⟩, rfl⟩
          · rintro ⟨_, ⟨rfl, rfl⟩, hpos⟩
            exact ⟨(Nat.add_right_cancel hpos).symm, rfl⟩
        | false =>
          have hrest : ((c :: rest).drop n).length = rest.length + 1 - n := by simp
          simp only [first_same hm hvaried, List.length_cons]
          rw [ih (by omega), hrest]
          refine exists_congr fun r => and_congr_right fun _ => ?_
          omega

/-- What ends in `x` is passed over in `x` as it is with the rest behind. -/
theorem Scanned.of_append (h : Scanned (x ++ y) (r ++ y)) : Scanned x r := by
  generalize hx : x ++ y = t at h
  generalize hr : r ++ y = u at h
  have hlength := congrArg List.length hx
  have hrest := congrArg List.length hr
  simp only [List.length_append] at hlength hrest
  induction h generalizing x with
  | here t =>
    obtain rfl := List.append_cancel_right (hx.trans hr.symm)
    exact .here x
  | @skip c t u hnone hscan ih =>
    have hle := hscan.suffix.length_le
    simp only [List.length_cons] at hlength
    cases x with
    | nil =>
      simp only [List.length_nil] at hlength
      omega
    | cons d x =>
      rw [List.cons_append, List.cons.injEq] at hx
      obtain ⟨rfl, rfl⟩ := hx
      refine .skip (multiAt_of_append (y := y) hnone) (ih rfl hr ?_ hrest)
      simp
  | @jump t b u n hm hsame hscan ih =>
    have hle := hscan.suffix.length_le
    have hsize := hm.size_le
    rw [List.length_drop] at hle
    subst hx
    have hn : n ≤ x.length := by omega
    refine .jump (hm.of_append hn) hsame (ih (List.drop_append_of_le_length hn).symm hr ?_ hrest)
    simp only [List.length_drop, List.length_append]
    omega

/-! ## Texts with a varied block -/

/-- The search finds a block with more than one character. -/
def found (t : List Char) : Bool := (findAll multiAt t).any fun m => varied m.2

theorem found_eq : found t = ((findAll multiAt t).find? fun m => varied m.2).isSome := by
  rw [Bool.eq_iff_iff, found, List.any_eq_true, List.find?_isSome]

theorem found_iff : found t = true ↔ ∃ r b, First t r b := by
  rw [found_eq, Option.isSome_iff_exists]
  constructor
  · rintro ⟨⟨start, b⟩, h⟩
    obtain ⟨r, hfirst, -⟩ := (find_varied le_rfl).mp h
    exact ⟨r, b, hfirst⟩
  · rintro ⟨r, b, hfirst⟩
    refine ⟨(t.length - r.length, b), (find_varied le_rfl).mpr ⟨r, hfirst, ?_⟩⟩
    have := hfirst.scanned.suffix.length_le
    omega

theorem found_varied (hm : Matches t b n) (hvaried : varied b = true) : found t = true :=
  found_iff.mpr ⟨t, b, (first_varied hm hvaried).mpr ⟨rfl, rfl⟩⟩

theorem found_none {c : Char} (hnone : multiAt (c :: t) = none) :
    found (c :: t) = true ↔ found t = true := by
  simp only [found_iff, first_none hnone]

theorem found_same (hm : Matches t b n) (hsame : varied b = false) :
    found t = true ↔ found (t.drop n) = true := by
  simp only [found_iff, first_same hm hsame]

theorem found_scanned (h : Scanned t r) : found t = true ↔ found r = true := by
  induction h with
  | here t => rfl
  | skip hnone hscan ih => exact (found_none hnone).trans ih
  | jump hm hsame hscan ih => exact (found_same hm hsame).trans ih

/-- Where one character stands alone there is no varied block. -/
theorem not_found_of_uniform (h : ∀ c ∈ t, ∀ d ∈ t, c = d) : ¬ found t = true := by
  intro hfound
  obtain ⟨r, b, hscan, ⟨n, hm⟩, hvaried⟩ := found_iff.mp hfound
  obtain ⟨c, hc, d, hd, hne⟩ := varied_iff.mp hvaried
  have hsub : ∀ e ∈ b, e ∈ t := fun e he => hscan.suffix.subset (hm.fits.first.subset he)
  exact hne (h c (hsub c hc) d (hsub d hd))

/-- What is found stays so with more text behind. -/
theorem found_append (y : List Char) (h : found x = true) : found (x ++ y) = true := by
  induction hlen : x.length using Nat.strong_induction_on generalizing x with
  | _ len ih =>
    cases x with
    | nil => exact absurd h (by decide)
    | cons c x =>
      cases hat : multiAt (c :: x ++ y) with
      | none =>
        refine (found_none hat).mpr ?_
        refine ih x.length ?_ ((found_none (multiAt_of_append (y := y) hat)).mp h) rfl
        simp [← hlen]
      | some m =>
        obtain ⟨b, n⟩ := m
        have hm := multiAt_eq_some.mp hat
        cases hvaried : varied b with
        | true => exact found_varied hm hvaried
        | false =>
          by_cases hn : n ≤ (c :: x).length
          · have hpos := hm.four_le
            have hshort := hm.short
            rw [found_same hm hvaried, List.drop_append_of_le_length hn]
            refine ih _ ?_ ((found_same (hm.of_append hn) hvaried).mp h) rfl
            rw [← hlen, List.length_drop]
            omega
          · refine absurd h (not_found_of_uniform ?_)
            have hsame := hm.across hvaried (by omega)
            exact fun e he d hd =>
              hsame e (List.mem_append_left _ he) d (List.mem_append_left _ hd)

/-- What is found in two texts one after the other is found in the first one, or reaches from the
first into the second, or lies in the second. -/
theorem found_append_cases (h : found (x ++ y) = true) : found x = true ∨
    (∃ r b n, Scanned x r ∧ multiAt r = none ∧ Matches (r ++ y) b n ∧ varied b = true) ∨
    ∃ r b n, r <:+ y ∧ Matches r b n := by
  obtain ⟨rest, b, hscan, ⟨n, hm⟩, hvaried⟩ := found_iff.mp h
  by_cases hlen : rest.length < y.length
  · refine .inr (.inr ⟨rest, b, n, ?_, hm⟩)
    exact List.suffix_of_suffix_length_le hscan.suffix (List.suffix_append x y) (by omega)
  · obtain ⟨r, rfl⟩ : y <:+ rest :=
      List.suffix_of_suffix_length_le (List.suffix_append x y) hscan.suffix (by omega)
    by_cases hlong : r.length < 4 * b.length
    · exact .inr (.inl ⟨r, b, n, hscan.of_append, hm.none_of_append hlong, hm, hvaried⟩)
    · refine .inl (found_iff.mpr ?_)
      refine ⟨r, b, hscan.of_append, ⟨_, hm.short, hm.fits.of_append (by omega), ?_, rfl⟩, hvaried⟩
      exact fun b' htwo hless hfits => hm.least b' htwo hless (hfits.append y)

end IrisMind.Llm.Repetition
