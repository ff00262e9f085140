import IrisMind.Lib.Lines

/-! # JSON text

A value is written as a row of tokens: single characters, and quoted texts whose
quotes, backslashes and control characters are escaped. So the only line
boundaries in what is written are those of the texts in the value that lie
beyond ASCII, and each of them is inside a quoted text. -/
namespace IrisMind.Lib

inductive JsonToken where
  | raw (c : Char)
  | text (s : String)

/-! ## Writing -/

namespace JsonToken

/-- The letter after the backslash of a short escape. -/
def short? : Char → Option Char
  | '"' => some '"'
  | '\\' => some '\\'
  | '\x08' => some 'b'
  | '\t' => some 't'
  | '\n' => some 'n'
  | '\x0c' => some 'f'
  | '\r' => some 'r'
  | _ => none

def escape (c : Char) : List Char :=
  match short? c with
  | some d => ['\\', d]
  | none =>
    if c.toNat < 32 then
      ['\\', 'u', '0', '0', Nat.digitChar (c.toNat / 16), Nat.digitChar (c.toNat % 16)]
    else [c]

def write : JsonToken → List Char
  | raw c => [c]
  | text s => '"' :: s.toList.flatMap escape ++ ['"']

/-- A character that may stand outside a quoted text. -/
def isPlain (c : Char) : Bool := c ≠ '"' && c ≠ '\\' && !Text.isBoundary c

end JsonToken

namespace Json
open JsonToken

section Tokens

variable (float : Rat → List Char)

mutual

def tokens : Json → List JsonToken
  | .null => ['n', 'u', 'l', 'l'].map raw
  | .bool true => ['t', 'r', 'u', 'e'].map raw
  | .bool false => ['f', 'a', 'l', 's', 'e'].map raw
  | .int n => (toString n).toList.map raw
  | .num q => (float q).map raw
  | .str s => [text s]
  | .arr items => raw '[' :: itemTokens items ++ [raw ']']
  | .obj fields => raw '{' :: fieldTokens fields ++ [raw '}']

def itemTokens : List Json → List JsonToken
  | [] => []
  | [j] => tokens j
  | j :: next :: rest => tokens j ++ raw ',' :: itemTokens (next :: rest)

def fieldTokens : List (String × Json) → List JsonToken
  | [] => []
  | [(k, j)] => text k :: raw ':' :: tokens j
  | (k, j) :: next :: rest =>
    text k :: raw ':' :: tokens j ++ raw ',' :: fieldTokens (next :: rest)

end

end Tokens

mutual

/-- The texts in a value, its keys among them. -/
def texts : Json → List String
  | .str s => [s]
  | .arr items => itemTexts items
  | .obj fields => fieldTexts fields
  | _ => []

def itemTexts : List Json → List String
  | [] => []
  | j :: rest => texts j ++ itemTexts rest

def fieldTexts : List (String × Json) → List String
  | [] => []
  | (k, j) :: rest => k :: texts j ++ fieldTexts rest

end

/-- No text in the value has a line boundary beyond ASCII. -/
def Unbroken (j : Json) : Prop := ∀ s ∈ j.texts, ∀ c ∈ s.toList, Text.isBreak c = false

end Json

/-! ## Quotes -/

/-- Where a reader of JSON text is. -/
inductive Quoting where
  | outside
  | inside
  | escaped
deriving DecidableEq

namespace Quoting

/-- Outside a quoted text there is no backslash, and no line boundary beyond ASCII. -/
def next : Quoting → Char → Option Quoting
  | outside, c =>
    if c = '"' then some inside else if c = '\\' || Text.isBreak c then none else some outside
  | inside, c => some (if c = '"' then outside else if c = '\\' then escaped else inside)
  | escaped, c => if Text.isBreak c then none else some inside

def scan (q : Quoting) (l : List Char) : Option Quoting := l.foldlM next q

end Quoting

/-! ## What is written -/

namespace JsonToken

theorem isPlain_digit {c : Char} (h : c.isDigit = true) : isPlain c = true := by
  have hn : 48 ≤ c.toNat ∧ c.toNat ≤ 57 := Char.isDigit_iff_toNat.mp h
  have hquote : c ≠ '"' := fun hc => absurd hn (by rw [hc]; decide)
  have hslash : c ≠ '\\' := fun hc => absurd hn (by rw [hc]; decide)
  have hline : Text.isBoundary c = false := by
    simp only [Text.isBoundary, Text.isBreak, Bool.or_eq_false_iff, Bool.and_eq_false_iff,
      decide_eq_false_iff_not, beq_eq_false_iff_ne]
    omega
  simp [isPlain, hquote, hslash, hline]

theorem isPlain_int (n : Int) : ∀ c ∈ (toString n).toList, isPlain c = true := by
  have hnat : ∀ m : Nat, ∀ c ∈ (Nat.repr m).toList, isPlain c = true := by
    intro m c hc
    rw [Nat.repr, String.toList_ofList] at hc
    exact isPlain_digit (Nat.isDigit_of_mem_toDigits (by decide) (by decide) hc)
  intro c hc
  rw [Int.toString_eq_repr, Int.repr_eq_if] at hc
  split at hc
  · exact hnat _ c hc
  · rw [String.toList_append] at hc
    rcases List.mem_append.mp hc with hsign | hdigit
    · have hminus : c = '-' := by simpa using hsign
      rw [hminus]
      decide
    · exact hnat _ c hdigit

theorem isPlain_digitChar : ∀ n < 16, isPlain (Nat.digitChar n) = true := by decide

theorem short?_eq_some {c d : Char} (h : short? c = some d) :
    Text.isBreak c = false ∧ Text.isBoundary d = false := by
  unfold short? at h
  split at h <;> cases h <;> exact ⟨by decide, by decide⟩

/-- A character is written as it is, or as a backslash with a character and plain ones after it. -/
theorem escape_cases (c : Char) :
    escape c = [c] ∧ c ≠ '"' ∧ c ≠ '\\' ∧ (Text.isBoundary c = true → Text.isBreak c = true) ∨
      Text.isBreak c = false ∧ ∃ d rest, escape c = '\\' :: d :: rest ∧
        Text.isBoundary d = false ∧ ∀ x ∈ rest, isPlain x = true := by
  unfold escape
  cases hshort : short? c with
  | some d =>
    obtain ⟨hbreak, hd⟩ := short?_eq_some hshort
    exact .inr ⟨hbreak, d, [], rfl, hd, (fun _ h => by cases h)⟩
  | none =>
    dsimp only
    split
    · next hcontrol =>
      have hbreak : Text.isBreak c = false := by
        simp only [Text.isBreak, Bool.or_eq_false_iff, beq_eq_false_iff_ne]
        omega
      refine .inr ⟨hbreak, 'u', _, rfl, by decide, ?_⟩
      intro x hx
      simp only [List.mem_cons, List.not_mem_nil, or_false] at hx
      rcases hx with rfl | rfl | rfl | rfl
      · decide
      · decide
      · exact isPlain_digitChar _ (by omega)
      · exact isPlain_digitChar _ (by omega)
    · next hcontrol =>
      refine .inl ⟨rfl, ?_, ?_, fun hline => ?_⟩
      · rintro rfl
        cases hshort
      · rintro rfl
        cases hshort
      · rcases Bool.or_eq_true_iff.mp hline with hascii | hbreak
        · simp only [Bool.or_eq_true, Bool.and_eq_true, decide_eq_true_eq] at hascii
          omega
        · exact hbreak

theorem isBoundary_of_isBreak {c : Char} (h : Text.isBreak c = true) : Text.isBoundary c = true :=
  Bool.or_eq_true_iff.mpr (.inr h)

/-- The only line boundaries that are written are those of the text that lie beyond ASCII. -/
theorem boundary_of_mem_escape {c x : Char} (hx : x ∈ escape c) (hline : Text.isBoundary x = true) :
    x = c ∧ Text.isBreak c = true := by
  rcases escape_cases c with ⟨he, _, _, hbreak⟩ | ⟨_, d, rest, he, hd, hrest⟩
  · rw [he, List.mem_singleton] at hx
    subst hx
    exact ⟨rfl, hbreak hline⟩
  · rw [he] at hx
    rcases List.mem_cons.mp hx with rfl | hx
    · exact absurd hline (by decide)
    rcases List.mem_cons.mp hx with rfl | hx
    · exact absurd hline (by rw [hd]; decide)
    · have hplain := hrest x hx
      simp [isPlain, hline] at hplain

theorem mem_escape_of_isBreak {c : Char} (h : Text.isBreak c = true) : c ∈ escape c := by
  rcases escape_cases c with ⟨he, _⟩ | ⟨hnot, _⟩
  · rw [he]
    exact List.mem_singleton.mpr rfl
  · cases h.symm.trans hnot

theorem mem_escape_or (c : Char) : c ∈ escape c ∨ '\\' ∈ escape c := by
  rcases escape_cases c with ⟨he, _⟩ | ⟨_, d, rest, he, _⟩
  · rw [he]
    exact .inl (List.mem_singleton.mpr rfl)
  · rw [he]
    exact .inr List.mem_cons_self

end JsonToken

namespace Quoting
open JsonToken

@[simp] theorem scan_nil (q : Quoting) : scan q [] = some q := rfl

@[simp] theorem scan_cons (q : Quoting) (c : Char) (l : List Char) :
    scan q (c :: l) = (next q c).bind (scan · l) := List.foldlM_cons

theorem scan_append (q : Quoting) (l l' : List Char) :
    scan q (l ++ l') = (scan q l).bind (scan · l') := List.foldlM_append

theorem scan_plain {q : Quoting} (hq : q ≠ .escaped) :
    ∀ {l : List Char}, (∀ c ∈ l, isPlain c = true) → scan q l = some q
  | [], _ => rfl
  | c :: l, h => by
    have hc : c ≠ '"' ∧ c ≠ '\\' ∧ Text.isBreak c = false := by
      have hplain := h c List.mem_cons_self
      simp only [isPlain, Bool.and_eq_true, decide_eq_true_eq, Bool.not_eq_true'] at hplain
      refine ⟨hplain.1.1, hplain.1.2, Bool.eq_false_iff.mpr fun hbreak => ?_⟩
      rw [isBoundary_of_isBreak hbreak] at hplain
      cases hplain.2
    have hnext : next q c = some q := by
      cases q with
      | outside => simp [next, hc]
      | inside => simp [next, hc]
      | escaped => exact absurd rfl hq
    rw [scan_cons, hnext]
    exact scan_plain hq fun c hc => h c (List.mem_cons_of_mem _ hc)

theorem scan_escape (c : Char) : scan .inside (escape c) = some .inside := by
  rcases escape_cases c with ⟨he, hquote, hslash, _⟩ | ⟨_, d, rest, he, hd, hrest⟩
  · rw [he]
    simp [next, hquote, hslash]
  · have hbreak : Text.isBreak d = false :=
      Bool.eq_false_iff.mpr fun h => by rw [isBoundary_of_isBreak h] at hd; cases hd
    have hslash : next .inside '\\' = some .escaped := rfl
    have hescaped : next .escaped d = some .inside := by simp [next, hbreak]
    rw [he, scan_cons, hslash, Option.bind_some, scan_cons, hescaped, Option.bind_some]
    exact scan_plain (by decide) hrest

/-- A quoted text is closed where it ends. -/
theorem scan_write {t : JsonToken} (h : ∀ c, t = .raw c → isPlain c = true) :
    scan .outside t.write = some .outside := by
  cases t with
  | raw c =>
    refine scan_plain (by decide) fun x hx => ?_
    rw [List.mem_singleton.mp hx]
    exact h c rfl
  | text s =>
    have hbody : ∀ l : List Char, scan .inside (l.flatMap escape) = some .inside := by
      intro l
      induction l with
      | nil => rfl
      | cons c l ih => rw [List.flatMap_cons, scan_append, scan_escape, Option.bind_some, ih]
    have hopen : next .outside '"' = some .inside := rfl
    rw [write, List.cons_append, scan_cons, hopen, Option.bind_some, scan_append, hbody]
    rfl

end Quoting

namespace Json
open JsonToken

section Tokens

variable {float : Rat → List Char}

theorem raw_mem_map {l : List Char} {c : Char} : raw c ∈ l.map raw ↔ c ∈ l := by simp

theorem text_mem_map {l : List Char} {s : String} : text s ∉ l.map raw := by simp

mutual

/-- What stands outside the quoted texts is plain. -/
theorem tokens_plain (hfloat : ∀ q, ∀ c ∈ float q, isPlain c = true) (j : Json) {c : Char}
    (hc : raw c ∈ j.tokens float) : isPlain c = true := by
  cases j with
  | null =>
    have hword : ['n', 'u', 'l', 'l'].all isPlain = true := rfl
    exact List.all_eq_true.mp hword c (raw_mem_map.mp hc)
  | bool b =>
    have htrue : ['t', 'r', 'u', 'e'].all isPlain = true := rfl
    have hfalse : ['f', 'a', 'l', 's', 'e'].all isPlain = true := rfl
    cases b with
    | true => exact List.all_eq_true.mp htrue c (raw_mem_map.mp hc)
    | false => exact List.all_eq_true.mp hfalse c (raw_mem_map.mp hc)
  | int n => exact isPlain_int n c (raw_mem_map.mp hc)
  | num q => exact hfloat q c (raw_mem_map.mp hc)
  | str s => cases List.mem_singleton.mp hc
  | arr items =>
    simp only [tokens, List.cons_append, List.mem_cons, List.mem_append, List.not_mem_nil,
      raw.injEq, or_false] at hc
    rcases hc with rfl | hc | rfl
    · decide
    · exact itemTokens_plain hfloat items hc
    · decide
  | obj fields =>
    simp only [tokens, List.cons_append, List.mem_cons, List.mem_append, List.not_mem_nil,
      raw.injEq, or_false] at hc
    rcases hc with rfl | hc | rfl
    · decide
    · exact fieldTokens_plain hfloat fields hc
    · decide

theorem itemTokens_plain (hfloat : ∀ q, ∀ c ∈ float q, isPlain c = true) (items : List Json)
    {c : Char} (hc : raw c ∈ itemTokens float items) : isPlain c = true := by
  match items with
  | [] => cases hc
  | [j] => exact tokens_plain hfloat j hc
  | j :: next :: rest =>
    simp only [itemTokens, List.mem_append, List.mem_cons, raw.injEq] at hc
    rcases hc with hc | rfl | hc
    · exact tokens_plain hfloat j hc
    · decide
    · exact itemTokens_plain hfloat (next :: rest) hc

theorem fieldTokens_plain (hfloat : ∀ q, ∀ c ∈ float q, isPlain c = true)
    (fields : List (String × Json)) {c : Char} (hc : raw c ∈ fieldTokens float fields) :
    isPlain c = true := by
  match fields with
  | [] => cases hc
  | [(k, j)] =>
    simp only [fieldTokens, List.mem_cons, reduceCtorEq, raw.injEq, false_or] at hc
    rcases hc with rfl | hc
    · decide
    · exact tokens_plain hfloat j hc
  | (k, j) :: next :: rest =>
    simp only [fieldTokens, List.cons_append, List.mem_append, List.mem_cons, reduceCtorEq,
      raw.injEq, false_or] at hc
    rcases hc with rfl | hc | rfl | hc
    · decide
    · exact tokens_plain hfloat j hc
    · decide
    · exact fieldTokens_plain hfloat (next :: rest) hc

end

mutual

/-- What is quoted is the texts of the value. -/
theorem text_mem_tokens (j : Json) {s : String} : text s ∈ j.tokens float ↔ s ∈ j.texts := by
  cases j with
  | null => exact iff_of_false text_mem_map (by simp [texts])
  | bool b =>
    cases b with
    | true => exact iff_of_false text_mem_map (by simp [texts])
    | false => exact iff_of_false text_mem_map (by simp [texts])
  | int n => exact iff_of_false text_mem_map (by simp [texts])
  | num q => exact iff_of_false text_mem_map (by simp [texts])
  | str t => simp [tokens, texts]
  | arr items => simp [tokens, texts, text_mem_itemTokens items]
  | obj fields => simp [tokens, texts, text_mem_fieldTokens fields]

theorem text_mem_itemTokens (items : List Json) {s : String} :
    text s ∈ itemTokens float items ↔ s ∈ itemTexts items := by
  match items with
  | [] => simp [itemTokens, itemTexts]
  | [j] => simp [itemTokens, itemTexts, text_mem_tokens j]
  | j :: next :: rest =>
    simp [itemTokens, itemTexts, text_mem_tokens j, text_mem_itemTokens (next :: rest)]

theorem text_mem_fieldTokens (fields : List (String × Json)) {s : String} :
    text s ∈ fieldTokens float fields ↔ s ∈ fieldTexts fields := by
  match fields with
  | [] => simp [fieldTokens, fieldTexts]
  | [(k, j)] => simp [fieldTokens, fieldTexts, text_mem_tokens j]
  | (k, j) :: next :: rest =>
    simp [fieldTokens, fieldTexts, text_mem_tokens j, text_mem_fieldTokens (next :: rest)]

end

end Tokens

end Json

/-! ## Texts of values -/

/-- How numbers are written. -/
structure JsonWriter where
  float : Rat → List Char
  float_plain : ∀ q, ∀ c ∈ float q, JsonToken.isPlain c = true

namespace JsonWriter
open JsonToken Quoting

def dumps (w : JsonWriter) (j : Json) : List Char := (j.tokens w.float).flatMap write

variable {w : JsonWriter} {j : Json} {s : String} {c : Char}

theorem scan_dumps (w : JsonWriter) (j : Json) : scan .outside (w.dumps j) = some .outside := by
  have hall : ∀ l : List JsonToken, (∀ c, raw c ∈ l → isPlain c = true) →
      scan .outside (l.flatMap write) = some .outside := by
    intro l
    induction l with
    | nil => exact fun _ => rfl
    | cons t l ih =>
      intro h
      have ht : ∀ c, t = raw c → isPlain c = true := fun c hc => h c (hc ▸ List.mem_cons_self)
      rw [List.flatMap_cons, scan_append, scan_write ht, Option.bind_some]
      exact ih fun c hc => h c (List.mem_cons_of_mem _ hc)
  exact hall _ fun _ hc => j.tokens_plain w.float_plain hc

theorem escape_subset (hs : s ∈ j.texts) (hc : c ∈ s.toList) : escape c ⊆ w.dumps j := by
  intro x hx
  refine List.mem_flatMap.mpr ⟨text s, (Json.text_mem_tokens j).mpr hs, ?_⟩
  rw [write, List.cons_append]
  exact List.mem_cons_of_mem _ (List.mem_append_left _ (List.mem_flatMap.mpr ⟨c, hc, hx⟩))

/-- A line boundary that is written is one of a text, beyond ASCII. -/
theorem boundary_of_mem_dumps (hc : c ∈ w.dumps j) (hline : Text.isBoundary c = true) :
    Text.isBreak c = true ∧ ∃ s ∈ j.texts, c ∈ s.toList := by
  obtain ⟨t, ht, hc⟩ := List.mem_flatMap.mp hc
  cases t with
  | raw x =>
    have hplain := j.tokens_plain w.float_plain ht
    rw [← List.mem_singleton.mp hc] at hplain
    simp [isPlain, hline] at hplain
  | text s =>
    rw [write, List.cons_append, List.mem_cons, List.mem_append, List.mem_singleton] at hc
    rcases hc with rfl | hc | rfl
    · exact absurd hline (by decide)
    · obtain ⟨x, hx, hc⟩ := List.mem_flatMap.mp hc
      obtain ⟨rfl, hbreak⟩ := boundary_of_mem_escape hc hline
      exact ⟨hbreak, s, (Json.text_mem_tokens j).mp ht, hx⟩
    · exact absurd hline (by decide)

theorem unbroken_iff : j.Unbroken ↔ ∀ c ∈ w.dumps j, Text.isBoundary c = false := by
  constructor
  · intro h c hc
    refine Bool.eq_false_iff.mpr fun hline => ?_
    obtain ⟨hbreak, s, hs, hmem⟩ := boundary_of_mem_dumps hc hline
    cases hbreak.symm.trans (h s hs c hmem)
  · intro h s hs c hc
    refine Bool.eq_false_iff.mpr fun hbreak => ?_
    have hmem : c ∈ w.dumps j := escape_subset hs hc (mem_escape_of_isBreak hbreak)
    cases (isBoundary_of_isBreak hbreak).symm.trans (h c hmem)

/-! ## Pieces of what is written -/

/-- Reading a row of characters from inside and from outside the quotes fails at a backslash one
way or the other. -/
theorem no_backslash : ∀ {l : List Char} {q q' a b : Quoting},
    (∀ c ∈ l, Text.isBreak c = false) →
      (q = .outside ∧ q' = .inside ∨ q = .inside ∧ q' = .outside) →
      scan q l = some a → scan q' l = some b → '\\' ∉ l
  | [], _, _, _, _, _, _, _, _ => List.not_mem_nil
  | c :: l, q, q', a, b, hbreaks, hq, ha, hb => by
    rw [scan_cons] at ha hb
    have hbreak := hbreaks c List.mem_cons_self
    have hc : c ≠ '\\' := by
      rintro rfl
      rcases hq with ⟨rfl, rfl⟩ | ⟨rfl, rfl⟩
      · cases ha
      · cases hb
    have hrest : '\\' ∉ l := by
      have hbreaks' : ∀ c ∈ l, Text.isBreak c = false := fun c h =>
        hbreaks c (List.mem_cons_of_mem _ h)
      by_cases hquote : c = '"'
      · rcases hq with ⟨rfl, rfl⟩ | ⟨rfl, rfl⟩ <;>
          simp only [next, hquote, if_true, Option.bind_some] at ha hb
        · exact no_backslash hbreaks' (.inr ⟨rfl, rfl⟩) ha hb
        · exact no_backslash hbreaks' (.inl ⟨rfl, rfl⟩) ha hb
      · rcases hq with ⟨rfl, rfl⟩ | ⟨rfl, rfl⟩ <;>
          simp [next, hquote, hc, hbreak] at ha hb
        · exact no_backslash hbreaks' (.inl ⟨rfl, rfl⟩) ha hb
        · exact no_backslash hbreaks' (.inr ⟨rfl, rfl⟩) ha hb
    exact List.not_mem_cons_of_ne_of_not_mem (Ne.symm hc) hrest

/-- Where a text is cut at its line boundaries, every cut is inside the quotes. -/
theorem scan_splitOnP : ∀ {l : List Char} {q a : Quoting},
    (∀ c ∈ l, Text.isBoundary c = true → Text.isBreak c = true) → scan q l = some a →
      ∃ first rest, l.splitOnP Text.isBoundary = first :: rest ∧
        (∃ b, scan q first = some b ∧ (rest ≠ [] → b = .inside)) ∧
        ∀ piece ∈ rest, ∃ b, scan .inside piece = some b
  | [], q, _, _, _ => ⟨[], [], rfl, ⟨q, rfl, fun h => absurd rfl h⟩, (fun _ h => by cases h)⟩
  | c :: l, q, a, hbreaks, ha => by
    rw [scan_cons, Option.bind_eq_some_iff] at ha
    obtain ⟨q', hq', ha⟩ := ha
    obtain ⟨first, rest, hsplit, ⟨b, hb, hinside⟩, hrest⟩ :=
      scan_splitOnP (fun c h => hbreaks c (List.mem_cons_of_mem _ h)) ha
    rw [List.splitOnP_cons_eq_if_modifyHead, hsplit]
    cases hline : Text.isBoundary c with
    | true =>
      have hbreak := hbreaks c List.mem_cons_self hline
      have hquote : c ≠ '"' := fun hc => by rw [hc] at hline; revert hline; decide
      have hslash : c ≠ '\\' := fun hc => by rw [hc] at hline; revert hline; decide
      have hin : q = .inside ∧ q' = .inside := by
        cases q with
        | outside => simp [next, hquote, hbreak] at hq'
        | inside => exact ⟨rfl, by simpa [next, hquote, hslash] using hq'.symm⟩
        | escaped => simp [next, hbreak] at hq'
      obtain ⟨rfl, rfl⟩ := hin
      refine ⟨[], first :: rest, if_pos rfl, ⟨.inside, rfl, fun _ => rfl⟩, fun piece hp => ?_⟩
      rcases List.mem_cons.mp hp with rfl | hp
      · exact ⟨b, hb⟩
      · exact hrest piece hp
    | false =>
      refine ⟨c :: first, rest, if_neg Bool.false_ne_true, ⟨b, ?_, hinside⟩, hrest⟩
      rw [scan_cons, hq', Option.bind_some, hb]

end JsonWriter

/-! ## A library that reads and writes JSON -/

/-- A text that is read has no open quote at its end and no backslash outside the quotes; without
a backslash the texts of its value are made of its characters; and what has been read can be
written and read again. -/
structure JsonText extends JsonWriter where
  loads : List Char → Option Json
  loads_closed : ∀ {l v}, loads l = some v → Quoting.scan .outside l = some .outside
  loads_texts : ∀ {l v}, loads l = some v → '\\' ∉ l → ∀ s ∈ v.texts, ∀ c ∈ s.toList, c ∈ l
  loads_again : ∀ {l v}, loads l = some v → loads (toJsonWriter.dumps v) = some v

namespace JsonText
open JsonToken Quoting JsonWriter

variable {o : JsonText} {j : Json}

/-- A library that reads only what it writes of the values of a table. -/
def ofTable (w : JsonWriter) (table : List Json) : JsonText where
  toJsonWriter := w
  loads l := table.find? fun j => w.dumps j = l
  loads_closed {l v} h := by
    have hl : w.dumps v = l := by simpa using List.find?_some h
    rw [← hl]
    exact w.scan_dumps v
  loads_texts {l v} h hslash s hs c hc := by
    have hl : w.dumps v = l := by simpa using List.find?_some h
    rw [← hl] at hslash ⊢
    have hsub : escape c ⊆ w.dumps v := escape_subset hs hc
    exact hsub ((mem_escape_or c).resolve_right fun h => hslash (hsub h))
  loads_again {l v} h := by
    have hl : w.dumps v = l := by simpa using List.find?_some h
    rw [hl]
    exact h

/-- Whatever is read of a value that is cut at its line boundaries has none beyond ASCII. -/
theorem unbroken_of_piece {v : Json} {piece : List Char} (hj : o.loads (o.dumps j) = some j)
    (hpiece : piece ∈ (o.dumps j).splitOnP Text.isBoundary) (hv : o.loads piece = some v) :
    v.Unbroken := by
  by_cases hu : j.Unbroken
  · rw [List.splitOnP_eq_singleton (unbroken_iff.mp hu), List.mem_singleton] at hpiece
    rw [hpiece, hj] at hv
    exact Option.some.inj hv ▸ hu
  · have hclosed := o.loads_closed hv
    obtain ⟨first, rest, hsplit, ⟨b, hb, hinside⟩, hrest⟩ := scan_splitOnP
      (fun c hc hline => (boundary_of_mem_dumps hc hline).1) (o.scan_dumps j)
    have hmore : rest ≠ [] := by
      rintro rfl
      rw [unbroken_iff (w := o.toJsonWriter)] at hu
      obtain ⟨c, hc⟩ := not_forall.mp hu
      obtain ⟨hmem, hline⟩ := Classical.not_imp.mp hc
      obtain ⟨front, back, heq⟩ := List.append_of_mem hmem
      rw [heq, List.splitOnP_append_cons _ _ (Bool.not_eq_false _ ▸ hline)] at hsplit
      have hlength := congrArg List.length hsplit
      have hfront := List.length_pos_of_ne_nil (List.splitOnP_ne_nil Text.isBoundary front)
      have hback := List.length_pos_of_ne_nil (List.splitOnP_ne_nil Text.isBoundary back)
      simp only [List.length_append, List.length_singleton] at hlength
      omega
    rw [hsplit] at hpiece
    rcases List.mem_cons.mp hpiece with rfl | hpiece
    · rw [hinside hmore, hclosed] at hb
      cases hb
    · obtain ⟨b', hb'⟩ := hrest piece hpiece
      have hlines : ∀ c ∈ piece, Text.isBoundary c = false := by
        refine Text.not_boundary_of_mem_splitOnP (l := o.dumps j) ?_
        rw [hsplit]
        exact List.mem_cons_of_mem _ hpiece
      have hbreaks : ∀ c ∈ piece, Text.isBreak c = false := fun c hc =>
        Bool.eq_false_iff.mpr fun h => by cases (isBoundary_of_isBreak h).symm.trans (hlines c hc)
      have hslash := no_backslash hbreaks (.inl ⟨rfl, rfl⟩) hclosed hb'
      exact fun s hs c hc => hbreaks c (o.loads_texts hv hslash s hs c hc)

end JsonText

end IrisMind.Lib
