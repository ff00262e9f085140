import IrisMind.Llm.Matches

/-! # What is left of a repetition

A text that is trimmed keeps what is in front of a repetition and two copies of its block, or three
of its character, and the notice is put behind. The scan for blocks goes over what it has matched,
so a block of one character can hide another one that begins within it. -/
namespace IrisMind.Llm.Repetition

variable {b k p q t r x : List Char} {c d : Char} {n start : Nat}

/-! ## Runs of one character -/

/-- Ten times the character `c` in a row, behind `q`. -/
structure Run (t q : List Char) (c : Char) : Prop where
  line : c ≠ '\n'
  ten : q ++ List.replicate 10 c <+: t

/-- The search finds one character ten times in a row. -/
def single (t : List Char) : Bool := !(findAll singleAt t).isEmpty

theorem rep_singleton (c : Char) (k : Nat) : rep [c] k = List.replicate k c := by
  simp [rep]

theorem Run.first (h : Run (d :: t) [] c) : c = d := by
  have hten := h.ten
  rw [List.nil_append, List.replicate_succ, List.cons_prefix_cons] at hten
  exact hten.1

theorem run_cons {e : Char} : Run (c :: t) (d :: q) e ↔ d = c ∧ Run t q e := by
  constructor
  · rintro ⟨hline, hten⟩
    rw [List.cons_append, List.cons_prefix_cons] at hten
    exact ⟨hten.1, hline, hten.2⟩
  · rintro ⟨rfl, hline, hten⟩
    refine ⟨hline, ?_⟩
    rw [List.cons_append, List.cons_prefix_cons]
    exact ⟨rfl, hten⟩

theorem not_run_nil : ¬ Run [] q c := fun h => by
  have := h.ten.length_le
  simp at this

theorem run_front_iff : Run (c :: t) [] c ↔
    c ≠ '\n' ∧ 10 ≤ copies [c] (t.length + 1) (c :: t) := by
  have hten := le_copies_iff (b := [c]) (t := c :: t) (m := 10) (by simp) (le_refl _)
  rw [rep_singleton, List.length_cons] at hten
  rw [hten]
  exact ⟨fun h => ⟨h.line, h.ten⟩, fun h => ⟨h.1, h.2⟩⟩

theorem singleAt_eq_some (h : singleAt t = some (b, n)) : ∃ c, b = [c] ∧ Run t [] c := by
  cases t with
  | nil => exact (nomatch h)
  | cons c t =>
    simp only [singleAt, Option.ite_none_right_eq_some, Bool.and_eq_true, decide_eq_true_eq,
      Option.some.injEq, Prod.mk.injEq] at h
    exact ⟨c, h.2.1.symm, run_front_iff.mpr h.1⟩

theorem singleAt_eq_none (h : singleAt t = none) : ¬ Run t [] c := by
  cases t with
  | nil => exact not_run_nil
  | cons d t =>
    intro hrun
    obtain rfl := hrun.first
    simp only [singleAt, Bool.and_eq_true, decide_eq_true_eq, ite_eq_right_iff, reduceCtorEq,
      imp_false] at h
    exact h (run_front_iff.mp hrun)

/-- The run behind `p`, and none begins before it. -/
structure Leftmost (t p : List Char) (c : Char) : Prop where
  run : Run t p c
  earlier : ∀ q d, q.length < p.length → ¬ Run t q d

theorem Leftmost.cons (h : Leftmost t p c) (hnone : singleAt (d :: t) = none) :
    Leftmost (d :: t) (d :: p) c := by
  refine ⟨run_cons.mpr ⟨rfl, h.run⟩, fun q e hq hrun => ?_⟩
  cases q with
  | nil => exact singleAt_eq_none hnone hrun
  | cons a q => exact h.earlier q e (Nat.lt_of_succ_lt_succ hq) (run_cons.mp hrun).2

/-- The first match is the leftmost run. -/
theorem head_single (pos : Nat) {fuel : Nat} (hfuel : t.length ≤ fuel) :
    match (findIter singleAt fuel pos t).head? with
    | some (start, b) => ∃ p c, b = [c] ∧ start = pos + p.length ∧ Leftmost t p c
    | none => ∀ q d, ¬ Run t q d := by
  induction fuel generalizing pos t with
  | zero =>
    obtain rfl := List.eq_nil_of_length_eq_zero (Nat.le_zero.mp hfuel)
    exact fun q d => not_run_nil
  | succ fuel ih =>
    cases t with
    | nil => exact fun q d => not_run_nil
    | cons c rest =>
      rw [List.length_cons, Nat.add_le_add_iff_right] at hfuel
      cases hat : singleAt (c :: rest) with
      | some m =>
        obtain ⟨b, n⟩ := m
        obtain ⟨e, hb, hrun⟩ := singleAt_eq_some hat
        simp only [findIter, hat, List.head?_cons]
        exact ⟨[], e, hb, rfl, hrun, fun q d hq => absurd hq (Nat.not_lt_zero _)⟩
      | none =>
        have ih := ih (pos + 1) hfuel
        simp only [findIter, hat]
        split at ih
        · obtain ⟨p, e, hb, hstart, hfirst⟩ := ih
          refine ⟨c :: p, e, hb, ?_, hfirst.cons hat⟩
          rw [hstart, List.length_cons]
          omega
        · intro q d hrun
          cases q with
          | nil => exact singleAt_eq_none hat hrun
          | cons a q => exact ih q d (run_cons.mp hrun).2

theorem single_iff : single t = true ↔ ∃ q c, Run t q c := by
  have hhead := head_single 0 (le_refl t.length)
  have hempty : single t = true ↔ (findAll singleAt t).head? ≠ none := by
    simp [single]
  rw [hempty, findAll]
  split at hhead
  · next h =>
    obtain ⟨p, c, -, -, hfirst⟩ := hhead
    simp only [h, ne_eq, reduceCtorEq, not_false_eq_true, true_iff]
    exact ⟨p, c, hfirst.run⟩
  · next h =>
    simp only [h, ne_eq, not_true_eq_false, false_iff]
    rintro ⟨q, c, hrun⟩
    exact hhead q c hrun

theorem Run.append (h : Run x q c) (y : List Char) : Run (x ++ y) q c :=
  ⟨h.line, h.ten.trans (List.prefix_append x y)⟩

theorem Run.getElem? (h : Run t q c) {i : Nat} (hi : i < 10) : t[q.length + i]? = some c := by
  obtain ⟨rest, rfl⟩ := h.ten
  rw [List.append_assoc, List.getElem?_append_right (Nat.le_add_right _ _),
    Nat.add_sub_cancel_left, List.getElem?_append_left (by simpa using hi),
    List.getElem?_replicate_of_lt hi]

theorem single_suffix (hsuffix : r <:+ t) (h : single r = true) : single t = true := by
  obtain ⟨q, c, hrun⟩ := single_iff.mp h
  obtain ⟨p, rfl⟩ := hsuffix
  refine single_iff.mpr ⟨p ++ q, c, hrun.line, ?_⟩
  rw [List.append_assoc]
  exact (List.prefix_append_right_inj p).mpr hrun.ten

/-! ## The notice -/

def mark : List Char := notice.toList

theorem mark_eq : mark =
    ['…', ' ', '[', '繰', 'り', '返', 'し', '検', '知', 'に', 'よ', 'り', '中', '断', ']'] := by
  decide

theorem length_mark : mark.length = 15 := by
  rw [mark_eq]
  rfl

/-- No character of the notice stands beside itself. -/
theorem mark_step : ∀ i < 14, mark[i]? ≠ mark[i + 1]? := by
  rw [mark_eq]
  decide

/-- The notice begins with a character that is not in it again. -/
theorem mark_once (i : Nat) : mark[i + 1]? ≠ some '…' := by
  rw [mark_eq, List.getElem?_cons_succ]
  intro h
  exact absurd (List.mem_of_getElem? h) (by decide)

/-- There is no repetition in the notice. -/
theorem mark_none (h : r <:+ mark) : multiAt r = none := by
  rw [mark_eq] at h
  have hall : ∀ s ∈ List.tails ['…', ' ', '[', '繰', 'り', '返', 'し', '検', '知', 'に', 'よ', 'り',
      '中', '断', ']'], multiAt s = none := by
    decide +kernel
  exact hall r ((List.mem_tails _ _).mpr h)

/-! ## What the notice adds -/

/-- A run in the kept text and the notice is in the kept text, or the notice makes it ten. -/
theorem single_mark : single (k ++ mark) = true ↔
    single k = true ∨ List.replicate 9 '…' <:+ k := by
  constructor
  · intro h
    obtain ⟨q, c, hrun⟩ := single_iff.mp h
    have hlength := hrun.ten.length_le
    simp only [List.length_append, List.length_replicate, length_mark] at hlength
    by_cases hin : q.length + 10 ≤ k.length
    · refine .inl (single_iff.mpr ⟨q, c, hrun.line, ?_⟩)
      refine List.prefix_of_prefix_length_le hrun.ten (List.prefix_append k mark) ?_
      simpa using hin
    · have hmark : ∀ i < 10, k.length ≤ q.length + i →
          mark[q.length + i - k.length]? = some c := by
        intro i hi hle
        rw [← List.getElem?_append_right hle]
        exact hrun.getElem? hi
      by_cases htwo : k.length ≤ q.length + 8
      · -- two of the ten lie in the notice
        refine absurd ?_ (mark_step (q.length + 8 - k.length) (by omega))
        have height := hmark 8 (by decide) htwo
        have hnine := hmark 9 (by decide) (by omega)
        rw [height, ← hnine]
        congr 1
        omega
      · have hk : k.length = q.length + 9 := by omega
        have hc : c = '…' := by
          have := hmark 9 (by decide) (by omega)
          rw [hk, Nat.sub_self, mark_eq] at this
          simpa using this.symm
        refine .inr ⟨q, ?_⟩
        rw [← hc]
        refine List.IsPrefix.eq_of_length ?_ (by simp [hk])
        refine List.prefix_of_prefix_length_le ?_ (List.prefix_append k mark) (by simp [hk])
        refine List.IsPrefix.trans ?_ hrun.ten
        refine (List.prefix_append_right_inj q).mpr ?_
        exact ⟨[c], rfl⟩
  · rintro (h | ⟨q, rfl⟩)
    · obtain ⟨q, c, hrun⟩ := single_iff.mp h
      exact single_iff.mpr ⟨q, c, hrun.append mark⟩
    · refine single_iff.mpr ⟨q, '…', by decide, ?_⟩
      rw [List.append_assoc, List.prefix_append_right_inj, mark_eq]
      exact ⟨_, rfl⟩

/-- The text is three copies of a block and the start of a fourth one, and the notice begins with
the rest of it. -/
def Broken (r : List Char) : Prop :=
  ∃ u v, v ≠ [] ∧ v <+: mark ∧ varied (u ++ v) = true ∧ (u ++ v).length ≤ 20 ∧ '\n' ∉ u ∧
    r = rep (u ++ v) 3 ++ u

/-- The search comes to such a rest of the text and finds nothing there. -/
def Completed (x : List Char) : Prop := ∃ r, Scanned x r ∧ multiAt r = none ∧ Broken r

/-- No match of one character goes from such a text into the notice. -/
theorem Broken.not_across (h : Broken r) (hsuffix : r <:+ t) :
    ¬ ∀ c ∈ t ++ mark.take 1, ∀ d ∈ t ++ mark.take 1, c = d := by
  obtain ⟨u, v, -, -, hvaried, -, -, rfl⟩ := h
  intro hsame
  obtain ⟨c, hc, d, hd, hne⟩ := varied_iff.mp hvaried
  have hsub : ∀ e ∈ u ++ v, e ∈ t ++ mark.take 1 := by
    intro e he
    refine List.mem_append_left _ (hsuffix.subset (List.mem_append_left _ ?_))
    rw [rep_succ]
    exact List.mem_append_left _ he
  exact hne (hsame c (hsub c hc) d (hsub d hd))

theorem Broken.found_mark (h : Broken r) (hnone : multiAt r = none) :
    found (r ++ mark) = true := by
  have hnot := h.not_across List.suffix_rfl
  obtain ⟨u, v, hv, hmark, hvaried, hshort, hline, hr⟩ := h
  have hfits : Fits (u ++ v) (r ++ mark) := by
    refine ⟨?_, ?_⟩
    · rw [List.mem_append]
      rintro (hu | hv)
      · exact hline hu
      · exact absurd (hmark.subset hv) (by rw [mark_eq]; decide)
    · obtain ⟨rest, hrest⟩ := hmark
      refine ⟨rest, ?_⟩
      rw [hr, ← hrest]
      simp [rep, List.replicate_succ]
  have htwo := two_le_length hvaried
  cases hat : multiAt (r ++ mark) with
  | none => exact absurd hfits (multiAt_eq_none.mp hat _ htwo hshort)
  | some m =>
    obtain ⟨b, n⟩ := m
    have hm := multiAt_eq_some.mp hat
    cases hb : varied b with
    | true => exact found_varied hm hb
    | false =>
      by_cases hn : n ≤ r.length
      · exact absurd (multiAt_eq_some.mpr (hm.of_append hn)) (by simp [hnone])
      · exact absurd (hm.across hb (by omega)) hnot

/-- What a block has in common with itself, one copy further. -/
theorem rep_period {i j : Nat} (hi : i < j * b.length) :
    (rep b (j + 1))[i + b.length]? = (rep b (j + 1))[i]? := by
  have hlast : rep b (j + 1) = rep b j ++ b := by
    simp [rep, List.replicate_succ']
  have hfirst : (rep b (j + 1))[i + b.length]? = (rep b j)[i]? := by
    rw [rep_succ, List.getElem?_append_right (Nat.le_add_left _ _), Nat.add_sub_cancel]
  rw [hfirst, hlast, List.getElem?_append_left (by simpa using hi)]

/-- Of four copies that reach into the notice three are in front of it: the first character of the
notice is not in it again. -/
theorem three_copies (hfour : rep b 4 <+: r ++ mark) (hlong : r.length < 4 * b.length) :
    rep b 3 <+: r := by
  have hat : ∀ i < 4 * b.length, (rep b 4)[i]? = (r ++ mark)[i]? := by
    intro i hi
    obtain ⟨rest, hrest⟩ := hfour
    rw [← hrest, List.getElem?_append_left (by simpa using hi)]
  have hthree : 3 * b.length ≤ r.length := by
    by_contra hless
    have hperiod := rep_period (b := b) (i := r.length) (j := 3) (Nat.not_le.mp hless)
    rw [hat _ (by omega), hat _ (by omega), List.getElem?_append_right (Nat.le_add_right _ _),
      Nat.add_sub_cancel_left, List.getElem?_append_right le_rfl, Nat.sub_self] at hperiod
    refine mark_once (b.length - 1) ?_
    rw [Nat.sub_add_cancel (by omega), hperiod, mark_eq]
    rfl
  refine List.prefix_of_prefix_length_le ((rep_starts b (by decide)).trans hfour)
    (List.prefix_append r mark) ?_
  rwa [length_rep]

/-- A match that needs the notice is a block that is there three times and once more in part. -/
theorem Matches.broken (hm : Matches (r ++ mark) b n) (hnone : multiAt r = none)
    (hvaried : varied b = true) : Broken r := by
  have hshort := hm.short
  have hfour : rep b 4 <+: r ++ mark := hm.fits.four
  have hlong : r.length < 4 * b.length := by
    by_contra hle
    have hfits := hm.fits.of_append (Nat.not_lt.mp hle)
    exact multiAt_eq_none.mp hnone b hshort.1 hshort.2 hfits
  obtain ⟨u, rfl⟩ := three_copies hfour hlong
  have hlast : b <+: u ++ mark := by
    have hsplit : rep b 4 = rep b 3 ++ b := by simp [rep, List.replicate_succ]
    rwa [hsplit, List.append_assoc, List.prefix_append_right_inj] at hfour
  simp only [List.length_append, length_rep] at hlong
  obtain ⟨v, rfl⟩ : u <+: b :=
    List.prefix_of_prefix_length_le (List.prefix_append u mark) hlast (by omega)
  refine ⟨u, v, ?_, (List.prefix_append_right_inj u).mp hlast, hvaried, hshort.2, ?_, rfl⟩
  · rintro rfl
    simp only [List.append_nil] at hlong
    omega
  · exact fun hu => hm.fits.line (List.mem_append_left v hu)

/-- What completes a block behind `r` completes it behind the whole text. -/
theorem Scanned.found_mark (hscan : Scanned x r) (hnone : multiAt r = none) (hr : Broken r) :
    found (x ++ mark) = true := by
  induction hscan with
  | here t => exact hr.found_mark hnone
  | @skip c t r hskip hscan ih =>
    cases hat : multiAt (c :: t ++ mark) with
    | none => exact (found_none hat).mpr (ih hnone hr)
    | some m =>
      obtain ⟨b, n⟩ := m
      have hm := multiAt_eq_some.mp hat
      cases hb : varied b with
      | true => exact found_varied hm hb
      | false =>
        by_cases hn : n ≤ (c :: t).length
        · exact absurd (multiAt_eq_some.mpr (hm.of_append hn)) (by simp [hskip])
        · refine absurd (hm.across hb (by omega)) (hr.not_across ?_)
          exact hscan.suffix.trans (List.suffix_cons c t)
  | @jump t b r n hm hb hscan ih =>
    obtain ⟨n', hm'⟩ := hm.append mark
    by_cases hn : n' ≤ t.length
    · obtain ⟨-, rfl⟩ := hm.unique (hm'.of_append hn)
      rw [found_same hm' hb, List.drop_append_of_le_length hn]
      exact ih hnone hr
    · refine absurd (hm'.across hb (by omega)) (hr.not_across ?_)
      exact hscan.suffix.trans (List.drop_suffix n t)

/-- The notice adds a varied block where it completes one, and only there. -/
theorem found_mark : found (x ++ mark) = true ↔ found x = true ∨ Completed x := by
  constructor
  · intro h
    obtain hx | ⟨r, b, n, hscan, hnone, hm, hvaried⟩ | ⟨r, b, n, hsuffix, hm⟩ :=
      found_append_cases h
    · exact .inl hx
    · exact .inr ⟨r, hscan, hnone, hm.broken hnone hvaried⟩
    · exact absurd (multiAt_eq_some.mpr hm) (by simp [mark_none hsuffix])
  · rintro (hx | ⟨r, hscan, hnone, hr⟩)
    · exact found_append mark hx
    · exact hscan.found_mark hnone hr

/-! ## The two searches of a trimming -/

/-- The first varied block of a text: two copies of it are kept, and more stand behind them. -/
theorem block_found (h : (findAll multiAt t).find? (fun m => varied m.2) = some (start, b)) :
    ∃ p z n, t = p ++ (b ++ b) ++ (b ++ b ++ z) ∧ t.take start = p ∧
      t.take (start + 2 * b.length) = p ++ (b ++ b) ∧
      Scanned t (b ++ b ++ (b ++ b ++ z)) ∧ Matches (b ++ b ++ (b ++ b ++ z)) b n := by
  obtain ⟨r, ⟨hscan, ⟨n, hm⟩, -⟩, hpos⟩ := (find_varied le_rfl).mp h
  obtain ⟨p, rfl⟩ := hscan.suffix
  obtain ⟨z, rfl⟩ := hm.fits.four
  have hfour : rep b 4 ++ z = b ++ b ++ (b ++ b ++ z) := by simp [rep, List.replicate_succ]
  have hstart : p.length = start := by
    simp only [List.length_append] at hpos
    omega
  rw [hfour] at hscan hm ⊢
  refine ⟨p, z, n, (List.append_assoc _ _ _).symm, List.take_left' hstart, ?_, hscan, hm⟩
  rw [← List.append_assoc]
  refine List.take_left' ?_
  rw [List.length_append, List.length_append, hstart]
  omega

/-- The leftmost run of a text: three of its characters are kept. -/
theorem run_found (h : (findAll singleAt t).head? = some (start, b)) :
    ∃ p c z, b = [c] ∧ t = p ++ [c, c, c] ++ (List.replicate 7 c ++ z) ∧ t.take start = p ∧
      t.take (start + 3) = p ++ [c, c, c] ∧ Leftmost t p c := by
  have hhead := head_single 0 (le_refl t.length)
  rw [findAll] at h
  rw [h] at hhead
  obtain ⟨p, c, hb, hstart, hfirst⟩ := hhead
  rw [Nat.zero_add] at hstart
  obtain ⟨z, hz⟩ := hfirst.run.ten
  have ht : t = p ++ [c, c, c] ++ (List.replicate 7 c ++ z) := by
    rw [← hz]
    simp [List.replicate_succ]
  refine ⟨p, c, z, hb, ht, ?_, ?_, hfirst⟩
  · rw [ht, List.append_assoc]
    exact List.take_left' hstart.symm
  · rw [ht]
    exact List.take_left' (by simp [hstart])

theorem trim_block {text : String}
    (h : (findAll multiAt text.toList).find? (fun m => varied m.2) = some (start, b)) :
    (trim text).toList = text.toList.take (start + 2 * b.length) ++ mark := by
  obtain ⟨p, z, n, -, hp, hkept, -⟩ := block_found h
  simp [trim, h, hp, hkept, mark]

theorem trim_run {text : String}
    (hnone : (findAll multiAt text.toList).find? (fun m => varied m.2) = none)
    (h : (findAll singleAt text.toList).head? = some (start, b)) :
    (trim text).toList = text.toList.take (start + 3) ++ mark := by
  obtain ⟨p, c, z, rfl, -, hp, hkept, -⟩ := run_found h
  simp [trim, hnone, h, hp, hkept, mark]

/-- A text stays as it is exactly where neither search finds anything: the notice does not begin
with two copies of a block, nor with one character twice. -/
theorem trim_eq_self {text : String} :
    trim text = text ↔ found text.toList = false ∧ single text.toList = false := by
  rw [found_eq, single, Bool.not_eq_false', List.isEmpty_iff, ← List.head?_eq_none_iff]
  cases hblock : (findAll multiAt text.toList).find? (fun m => varied m.2) with
  | some m =>
    obtain ⟨start, b⟩ := m
    refine iff_of_false (fun hself => ?_) (by simp)
    have htrim := trim_block hblock
    obtain ⟨p, z, n, ht, -, hkept, -, hm⟩ := block_found hblock
    have hshort := hm.short
    rw [hself, hkept, ht, List.append_cancel_left_eq] at htrim
    have hfirst : b[0]? = some '…' := by
      have := congrArg (fun l => l[0]?) htrim
      simpa [mark_eq, List.getElem?_append_left, show 0 < b.length by omega] using this
    refine mark_once (b.length - 1) ?_
    rw [Nat.sub_add_cancel (by omega), ← htrim, List.append_assoc,
      List.getElem?_append_right le_rfl, Nat.sub_self,
      List.getElem?_append_left (by omega), hfirst]
  | none =>
    cases hrun : (findAll singleAt text.toList).head? with
    | some m =>
      obtain ⟨start, b⟩ := m
      refine iff_of_false (fun hself => ?_) (by simp)
      have htrim := trim_run hblock hrun
      obtain ⟨p, c, z, rfl, ht, -, hkept, -⟩ := run_found hrun
      rw [hself, hkept, ht, List.append_cancel_left_eq] at htrim
      refine mark_step 0 (by decide) ?_
      rw [← htrim]
      simp [List.replicate_succ]
    | none => simp [trim, hblock, hrun]

/-! ## What a trimmed text has left -/

def lastChars (n : Nat) (t : List Char) : List Char := t.drop (t.length - n)

theorem detect_eq (text : String) : detect text =
    (found (lastChars 150 text.toList) || single (lastChars 150 text.toList)) := by
  have hlast : lastChars 150 text.toList = if 150 < text.toList.length then
      text.toList.drop (text.toList.length - 150) else text.toList := by
    rw [lastChars]
    split
    · rfl
    · rw [Nat.sub_eq_zero_of_le (by omega), List.drop_zero]
  rw [hlast]
  rfl

theorem lastChars_mark (k : List Char) : lastChars 150 (k ++ mark) = lastChars 135 k ++ mark := by
  have hdrop : (k ++ mark).length - 150 = k.length - 135 := by
    rw [List.length_append, length_mark]
    omega
  rw [lastChars, hdrop, List.drop_append_of_le_length (Nat.sub_le _ _)]
  rfl

/-- Neither in the last part of the kept text nor with the notice behind it is a block found. -/
structure Tail (k : List Char) : Prop where
  last : found (lastChars 135 k) = false
  whole : ¬ Completed k
  window : ¬ Completed (lastChars 135 k)

/-- The condition under which one trimming is enough: `k` is what is kept of the text. -/
def Settles (t : List Char) : Prop :=
  match (findAll multiAt t).find? (fun m => varied m.2) with
  | some (start, b) =>
    let k := t.take (start + 2 * b.length)
    found (b ++ b) = false ∧ single k = false ∧ ¬ List.replicate 9 '…' <:+ k ∧ Tail k
  | none => match (findAll singleAt t).head? with
    | some (start, _) => Tail (t.take (start + 3))
    | none => found (lastChars 150 t) = false

theorem settled_iff {text : String} (h : text.toList = k ++ mark) :
    (detect text = false ∧ trim text = text) ↔
      found k = false ∧ single k = false ∧ ¬ List.replicate 9 '…' <:+ k ∧ Tail k := by
  have hfound : ∀ x, found (x ++ mark) = false ↔ found x = false ∧ ¬ Completed x := by
    intro x
    rw [← Bool.not_eq_true, found_mark, not_or, Bool.not_eq_true]
  have hsingle : single (k ++ mark) = false ↔
      single k = false ∧ ¬ List.replicate 9 '…' <:+ k := by
    rw [← Bool.not_eq_true, single_mark, not_or, Bool.not_eq_true]
  have hwindow : single (k ++ mark) = false → single (lastChars 135 k ++ mark) = false := by
    intro hnone
    rw [← Bool.not_eq_true] at hnone ⊢
    refine fun hsome => hnone (single_suffix ?_ hsome)
    rw [← lastChars_mark]
    exact List.drop_suffix _ _
  rw [detect_eq, trim_eq_self, h, lastChars_mark, Bool.or_eq_false_iff, hfound, hfound]
  constructor
  · rintro ⟨⟨⟨hlast, hlate⟩, -⟩, ⟨hk, hwhole⟩, hs⟩
    obtain ⟨hsk, hnine⟩ := hsingle.mp hs
    exact ⟨hk, hsk, hnine, hlast, hwhole, hlate⟩
  · rintro ⟨hk, hsk, hnine, hlast, hwhole, hlate⟩
    have hs := hsingle.mpr ⟨hsk, hnine⟩
    exact ⟨⟨⟨hlast, hlate⟩, hwindow hs⟩, ⟨hk, hwhole⟩, hs⟩

/-- What is found up to the second copy of the first block is found in the two copies. -/
theorem found_kept (h : (findAll multiAt t).find? (fun m => varied m.2) = some (start, b)) :
    found (t.take (start + 2 * b.length)) = found (b ++ b) := by
  obtain ⟨p, z, n, ht, -, hkept, hscan, -⟩ := block_found h
  rw [ht] at hscan
  rw [hkept, Bool.eq_iff_iff]
  exact found_scanned hscan.of_append

/-- The three characters that are kept of the leftmost run belong to no other one. -/
theorem no_run_kept (h : (findAll singleAt t).head? = some (start, b)) :
    single (t.take (start + 3)) = false ∧ ¬ List.replicate 9 '…' <:+ t.take (start + 3) := by
  obtain ⟨p, c, z, rfl, ht, -, hkept, hfirst⟩ := run_found h
  rw [hkept]
  constructor
  · rw [← Bool.not_eq_true, single_iff]
    rintro ⟨q, d, hrun⟩
    have hlength := hrun.ten.length_le
    simp only [List.length_append, List.length_replicate, List.length_cons, List.length_nil]
      at hlength
    exact hfirst.earlier q d (by omega) (ht ▸ hrun.append _)
  · rintro ⟨q, hq⟩
    have hlength := congrArg List.length hq
    simp only [List.length_append, List.length_replicate, List.length_cons, List.length_nil]
      at hlength
    have hc : c = '…' := by
      have := congrArg List.getLast? hq
      simpa using this.symm
    refine hfirst.earlier q '…' (by omega) ⟨by decide, ?_⟩
    rw [ht, ← hq, hc]
    refine ⟨List.replicate 6 '…' ++ z, ?_⟩
    simp [List.replicate_succ]

/-- Nothing is detected in a trimmed text, and trimming it again changes nothing, exactly where the
text settles. -/
theorem trim_settles_iff (text : String) :
    (detect (trim text) = false ∧ trim (trim text) = trim text) ↔ Settles text.toList := by
  rw [Settles]
  cases hblock : (findAll multiAt text.toList).find? (fun m => varied m.2) with
  | some m =>
    obtain ⟨start, b⟩ := m
    rw [settled_iff (trim_block hblock), found_kept hblock]
  | none =>
    have hnone : found text.toList = false := by rw [found_eq, hblock]; rfl
    cases hrun : (findAll singleAt text.toList).head? with
    | some m =>
      obtain ⟨start, b⟩ := m
      obtain ⟨p, c, z, -, ht, -, hkept, -⟩ := run_found hrun
      obtain ⟨hsingle, hnine⟩ := no_run_kept hrun
      have hk : found (text.toList.take (start + 3)) = false := by
        rw [← Bool.not_eq_true] at hnone ⊢
        rw [hkept]
        exact fun hsome => hnone (ht ▸ found_append _ hsome)
      rw [settled_iff (trim_run hblock hrun)]
      exact ⟨fun h => h.2.2.2, fun h => ⟨hk, hsingle, hnine, h⟩⟩
    | none =>
      have hself : trim text = text := by simp [trim, hblock, hrun]
      have hsingle : single text.toList = false := by
        rw [single, Bool.not_eq_false', List.isEmpty_iff, ← List.head?_eq_none_iff, hrun]
      have hwindow : single (lastChars 150 text.toList) = false := by
        rw [← Bool.not_eq_true] at hsingle ⊢
        exact fun hsome => hsingle (single_suffix (List.drop_suffix _ _) hsome)
      rw [hself, detect_eq, hwindow, Bool.or_false]
      exact and_iff_left hself

/-- A run in front of the first block is kept: it is detected and trimmed once more. -/
theorem run_before_block_kept :
    detect (trim "aaaaaaaaaaaaabababab") = true ∧
      trim (trim "aaaaaaaaaaaaabababab") ≠ trim "aaaaaaaaaaaaabababab" := by
  decide +kernel

end IrisMind.Llm.Repetition
