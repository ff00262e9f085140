import Mathlib.Data.List.Infix

/-! # Machines driven by inputs

A machine is a total function from a state and an input to the next state; the
input carries everything the environment decides in that step. A run is the
left fold over a list of inputs, so a statement about every list of inputs is a
statement about every state any run reaches.

`Guarded` says that every input of a run meets a condition in the state that
reads it. It is the form of "in every run whose steps all meet the condition":
`Guarded.inv` turns a step lemma into a run lemma, and `guarded_iff` says when
the condition is exact. -/
namespace IrisMind.Lib.Machine

variable {σ ι : Type}

def run (step : σ → ι → σ) (s : σ) (is : List ι) : σ := is.foldl step s

variable {step : σ → ι → σ}

@[simp] theorem run_nil (s : σ) : run step s [] = s := rfl

@[simp] theorem run_cons (s : σ) (i : ι) (is : List ι) :
    run step s (i :: is) = run step (step s i) is := rfl

@[simp] theorem run_append (s : σ) (is js : List ι) :
    run step s (is ++ js) = run step (run step s is) js := List.foldl_append

/-- A state the machine never leaves ends every run that starts in it. -/
theorem run_of_fixed {s : σ} (h : ∀ i, step s i = s) : ∀ is, run step s is = s
  | [] => rfl
  | i :: is => by rw [run_cons, h]; exact run_of_fixed h is

/-- What one step preserves, a run preserves. -/
theorem run_inv (I : σ → Prop) (hs : ∀ s i, I s → I (step s i)) {s : σ} (h : I s) :
    ∀ is, I (run step s is) := by
  intro is
  induction is generalizing s with
  | nil => exact h
  | cons i is ih => exact ih (hs s i h)

/-! ## Guarded runs -/

def Guarded (step : σ → ι → σ) (ok : σ → ι → Prop) : σ → List ι → Prop
  | _, [] => True
  | s, i :: is => ok s i ∧ Guarded step ok (step s i) is

variable {ok : σ → ι → Prop}

theorem guarded_append {s : σ} : ∀ {is js : List ι},
    Guarded step ok s (is ++ js) ↔ Guarded step ok s is ∧ Guarded step ok (run step s is) js
  | [], js => by simp [Guarded]
  | i :: is, js => by simp [Guarded, guarded_append, and_assoc]

theorem Guarded.of_prefix {s : σ} {is js : List ι} (h : Guarded step ok s js) (hp : is <+: js) :
    Guarded step ok s is := by
  obtain ⟨t, rfl⟩ := hp
  exact (guarded_append.mp h).1

/-- What every step that meets the condition preserves holds in every state a
guarded run reaches. -/
theorem Guarded.inv (I : σ → Prop) (hs : ∀ s i, I s → ok s i → I (step s i)) {s : σ} (h : I s)
    {is : List ι} (hg : Guarded step ok s is) : I (run step s is) := by
  induction is generalizing s with
  | nil => exact h
  | cons i is ih => exact ih (hs s i h hg.1) hg.2

/-- A condition met at every step of a run gives another one that follows from it and from what
the steps keep. -/
theorem Guarded.imp {good : σ → ι → Prop} (I : σ → Prop)
    (hs : ∀ s i, I s → ok s i → I (step s i) ∧ good s i) {s : σ} (h : I s) {is : List ι}
    (hg : Guarded step ok s is) : Guarded step good s is := by
  induction is generalizing s with
  | nil => trivial
  | cons i is ih =>
    obtain ⟨hnext, hgood⟩ := hs s i h hg.1
    exact ⟨hgood, ih hnext hg.2⟩

/-- Leaving out the inputs of a party changes nothing another one can tell, when a step of the
party keeps the two runs alike and so does every step both runs take. -/
theorem Guarded.run_filter (R : σ → σ → Prop) (keep : ι → Bool)
    (hkeep : ∀ s t i, R s t → ok s i → keep i = true → R (step s i) (step t i))
    (hdrop : ∀ s t i, R s t → ok s i → keep i = false → R (step s i) t) {s t : σ} (h : R s t)
    {is : List ι} (hg : Guarded step ok s is) :
    R (run step s is) (run step t (is.filter keep)) := by
  induction is generalizing s t with
  | nil => exact h
  | cons i is ih =>
    cases hi : keep i with
    | true =>
      rw [List.filter_cons_of_pos hi]
      exact ih (hkeep s t i h hg.1 hi) hg.2
    | false =>
      rw [List.filter_cons_of_neg (by simp [hi])]
      exact ih (hdrop s t i h hg.1 hi) hg.2

/-- The condition is exact when it decides, step by step, whether the property
survives: then the property holds in every state a run reaches if and only if
every step of the run meets the condition. `J` is what holds anyway. -/
theorem guarded_iff (J I : σ → Prop) (hJ : ∀ s i, J s → J (step s i))
    (hI : ∀ s i, J s → I s → (I (step s i) ↔ ok s i)) {s : σ} (hj : J s) (hi : I s)
    (is : List ι) : (∀ js, js <+: is → I (run step s js)) ↔ Guarded step ok s is := by
  induction is generalizing s with
  | nil =>
    refine ⟨fun _ => trivial, fun _ js hp => ?_⟩
    rw [List.prefix_nil.mp hp]; exact hi
  | cons i is ih =>
    constructor
    · intro h
      have h1 : I (step s i) := h [i] (by simp)
      refine ⟨(hI s i hj hi).mp h1, (ih (hJ s i hj) h1).mp fun js hp => ?_⟩
      exact h (i :: js) ((List.prefix_cons_inj i).mpr hp)
    · rintro ⟨hok, hg⟩ js hp
      have h1 : I (step s i) := (hI s i hj hi).mpr hok
      cases js with
      | nil => exact hi
      | cons j js =>
        obtain ⟨rfl, hq⟩ := List.cons_prefix_cons.mp hp
        exact (ih (hJ s j hj) h1).mpr hg js hq

/-- Where a step that does not meet the condition spoils the run for good, a run meets it all
along and ends well, or does neither. -/
theorem guarded_or_spoilt (J I B : σ → Prop) (hJ : ∀ s i, J s → J (step s i))
    (hI : ∀ s i, J s → I s → ok s i ∧ I (step s i) ∨ ¬ ok s i ∧ B (step s i))
    (hB : ∀ s i, J s → B s → B (step s i)) {s : σ} (hj : J s) (hi : I s) (is : List ι) :
    Guarded step ok s is ∧ I (run step s is) ∨ ¬ Guarded step ok s is ∧ B (run step s is) := by
  induction is generalizing s with
  | nil => exact .inl ⟨trivial, hi⟩
  | cons i is ih =>
    rcases hI s i hj hi with ⟨hok, hnext⟩ | ⟨hno, hspoilt⟩
    · exact (ih (hJ s i hj) hnext).imp (fun hall => ⟨⟨hok, hall.1⟩, hall.2⟩)
        fun hnot => ⟨fun hg => hnot.1 hg.2, hnot.2⟩
    · refine .inr ⟨fun hg => hno hg.1, ?_⟩
      exact (run_inv (fun t => J t ∧ B t) (fun t j ht => ⟨hJ t j ht.1, hB t j ht.1 ht.2⟩)
        ⟨hJ s i hj, hspoilt⟩ is).2

/-- A run is guarded when the condition is met at each of its steps. -/
theorem guarded_iff_forall {s : σ} {is : List ι} :
    Guarded step ok s is ↔ ∀ js i, js ++ [i] <+: is → ok (run step s js) i := by
  induction is generalizing s with
  | nil =>
    refine ⟨fun _ js i hp => ?_, fun _ => trivial⟩
    have hn := List.prefix_nil.mp hp
    simp at hn
  | cons i is ih =>
    constructor
    · rintro ⟨hok, hg⟩ js j hp
      cases js with
      | nil =>
        obtain ⟨rfl, _⟩ := List.cons_prefix_cons.mp hp
        exact hok
      | cons k js =>
        obtain ⟨rfl, hq⟩ := List.cons_prefix_cons.mp hp
        exact ih.mp hg js j hq
    · intro h
      refine ⟨h [] i (by simp), ih.mpr fun js j hp => ?_⟩
      exact h (i :: js) j ((List.prefix_cons_inj i).mpr hp)

theorem guarded_true (s : σ) (is : List ι) : Guarded step (fun _ _ => True) s is :=
  guarded_iff_forall.mpr fun _ _ _ => trivial

/-! ## What a party sees of a run -/

section Observed

variable {ο : Type} (step) (own : ι → Bool)

/-- What the inputs of one party are looked at with, in order. -/
def observed (look : σ → ι → ο) : σ → List ι → List ο
  | _, [] => []
  | s, i :: is =>
    if own i then look s i :: observed look (step s i) is else observed look (step s i) is

variable {step own}

theorem observed_own {look : σ → ι → ο} {s : σ} {i : ι} (h : own i = true) (is : List ι) :
    observed step own look s (i :: is) = look s i :: observed step own look (step s i) is :=
  if_pos h

theorem observed_other {look : σ → ι → ο} {s : σ} {i : ι} (h : own i = false) (is : List ι) :
    observed step own look s (i :: is) = observed step own look (step s i) is := by
  rw [observed, h]
  rfl

/-- Two runs that ask the same of a party, whatever is interleaved, show it the same by one
look exactly when they do by another, provided the looks agree on every single question. -/
theorem observed_eq_iff {ο' α : Type} {look : σ → ι → ο} {look' : σ → ι → ο'} {ask : ι → α}
    (h : ∀ s t i j, own i = true → own j = true → ask i = ask j →
      (look s i = look t j ↔ look' s i = look' t j)) {s t : σ} {is js : List ι}
    (ha : (is.filter own).map ask = (js.filter own).map ask) :
    observed step own look s is = observed step own look t js ↔
      observed step own look' s is = observed step own look' t js := by
  induction is generalizing s t js with
  | nil =>
    induction js generalizing t with
    | nil => exact iff_of_true rfl rfl
    | cons j js ihj =>
      cases hj : own j with
      | true => simp [List.filter_cons_of_pos hj] at ha
      | false =>
        rw [List.filter_cons_of_neg (by simp [hj])] at ha
        rw [observed_other hj, observed_other hj]
        exact ihj ha
  | cons i is ih =>
    cases hi : own i with
    | false =>
      rw [List.filter_cons_of_neg (by simp [hi])] at ha
      rw [observed_other hi, observed_other hi]
      exact ih ha
    | true =>
      induction js generalizing t with
      | nil => simp [List.filter_cons_of_pos hi] at ha
      | cons j js ihj =>
        cases hj : own j with
        | false =>
          rw [List.filter_cons_of_neg (a := j) (by simp [hj])] at ha
          rw [observed_other hj, observed_other hj]
          exact ihj ha
        | true =>
          rw [List.filter_cons_of_pos hi, List.filter_cons_of_pos hj, List.map_cons,
            List.map_cons] at ha
          obtain ⟨hask, hrest⟩ := List.cons.inj ha
          rw [observed_own hi, observed_own hj, observed_own hi, observed_own hj,
            List.cons.injEq, List.cons.injEq, h s t i j hi hj hask, ih hrest]

end Observed

/-! ## Counting steps -/

/-- How many steps of a run meet `p`. -/
def count (step : σ → ι → σ) (p : σ → ι → Bool) : σ → List ι → Nat
  | _, [] => 0
  | s, i :: is => (p s i).toNat + count step p (step s i) is

theorem count_append {p : σ → ι → Bool} {s : σ} : ∀ {is js : List ι},
    count step p s (is ++ js) = count step p s is + count step p (run step s is) js
  | [], js => by simp [count]
  | i :: is, js => by simp [count, count_append, Nat.add_assoc]

theorem count_mono {p q : σ → ι → Bool} (h : ∀ s i, p s i = true → q s i = true) (s : σ)
    (is : List ι) : count step p s is ≤ count step q s is := by
  induction is generalizing s with
  | nil => exact Nat.le_refl _
  | cons i is ih =>
    have hi := ih (step s i)
    have hpq : (p s i).toNat ≤ (q s i).toNat := by
      cases hp : p s i with
      | false => exact Nat.zero_le _
      | true => rw [h s i hp]
    simp only [count]
    omega

/-- A run pays for its costly steps out of a potential; only the steps counted by
`refill` may raise it, each by at most `B`. -/
theorem amortized (I : σ → Prop) (hI : ∀ s i, I s → ok s i → I (step s i))
    (cost refill : σ → ι → Bool) (potential : σ → Nat) (B : Nat)
    (hpay : ∀ s i, I s → ok s i →
      (cost s i).toNat + potential (step s i) ≤ potential s + B * (refill s i).toNat)
    {s : σ} (h : I s) {is : List ι} (hg : Guarded step ok s is) :
    count step cost s is + potential (run step s is) ≤
      potential s + B * count step refill s is := by
  induction is generalizing s with
  | nil => simp [count]
  | cons i is ih =>
    have h1 := hpay s i h hg.1
    have h2 := ih (hI s i h hg.1) hg.2
    simp only [count, run_cons, Nat.mul_add]
    omega

end IrisMind.Lib.Machine
