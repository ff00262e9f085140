import IrisMind.Memory.Semantic
import Mathlib.Algebra.Order.Ring.Rat
import Mathlib.Data.Fintype.EquivFin
import Mathlib.Data.List.Sort
import Mathlib.Tactic.NormNum

/-! # Search in the collection

A query is answered from two lists: the nearest documents, of which a filter
leaves those of one account, and the documents that share words with it, which
nothing filters. They are merged by id, scored and cut. -/
namespace IrisMind.Memory
open IrisMind.Lib

/-- What the search relies on. How near documents are to a query, and what its words score in each
of them, is arbitrary; a search among some documents returns some of them. Scores are exact
numbers. -/
structure Engine where
  dense : List (String × Doc) → String → Nat → List ((String × Doc) × ℚ)
  dense_mem : ∀ {docs query k hit}, hit ∈ dense docs query k → hit.1 ∈ docs
  getScores : List String → String → List ℚ
  length_getScores : ∀ corpus query, (getScores corpus query).length = corpus.length

/-- An entry of `merged`, under its id. -/
structure Hit where
  content : String
  type : Json
  vectorScore : ℚ
  bm25Score : ℚ

namespace Hit

def score (h : Hit) : ℚ := h.vectorScore * (6 / 10) + h.bm25Score * (4 / 10)

/-- A row of the result. -/
def row (id : String) (h : Hit) : Json :=
  .obj [("id", .str id), ("content", .str h.content), ("type", h.type)]

end Hit

namespace VectorStore

section Search

variable (engine : Engine) (docs : Dict String Doc)

/-- The documents of an account, or all of them. -/
def ofAccount (accountId : String) : List (String × Doc) :=
  if accountId = "" then docs.entries else docs.entries.filter (·.2.accountId = accountId)

/-- `_bm25_score`; lower case leaves blanks as they are. -/
def bm25Score (query : String) : List (String × ℚ) :=
  if Text.isBlank query.toList then []
  else
    let raw := engine.getScores (docs.entries.map (·.2.content)) query
    match raw.max? with
    | none => []
    | some top =>
      if 0 < top then (docs.entries.map Prod.fst).zip (raw.map fun r => min (r / top) 1) else []

/-- The nearest documents, with the scores of their words. -/
def mergeDense (scores : List (String × ℚ)) (hits : List ((String × Doc) × ℚ)) : Dict String Hit :=
  hits.foldl (fun merged hit => merged.set hit.1.1
    { content := hit.1.2.content, type := hit.1.2.type, vectorScore := max 0 (1 - hit.2),
      bm25Score := (Dict.lookup hit.1.1 scores).getD 0 }) .empty

/-- The documents that share words with the query. -/
def mergeScores (scores : List (String × ℚ)) (merged : Dict String Hit) : Dict String Hit :=
  scores.foldl (fun merged s => merged.set s.1 (match merged.get? s.1 with
    | some h => { h with bm25Score := s.2 }
    | none => { content := "", type := .str "lesson", vectorScore := 0, bm25Score := s.2 })) merged

/-- The content of a hit that has none yet is fetched by its id. -/
def fetchOne (merged : Dict String Hit) (eid : String) : Dict String Hit :=
  match merged.get? eid, docs.get? eid with
  | some h, some doc =>
    if doc.content = "" then merged
    else merged.set eid { h with content := doc.content, type := doc.type }
  | _, _ => merged

def fetch (merged : Dict String Hit) : Dict String Hit :=
  ((merged.entries.filter (·.2.content = "")).map Prod.fst).foldl (fetchOne docs) merged

def merged (query : String) (maxResults : Nat) (accountId : String) : Dict String Hit :=
  let scores := bm25Score engine docs query
  fetch docs (mergeScores scores
    (mergeDense scores (engine.dense (ofAccount docs accountId) query (maxResults * 2))))

/-- What scores high enough, best first; what scores the same stays in order. -/
def ranked (query : String) (maxResults : Nat) (accountId : String) : List (String × Hit) :=
  if docs.entries.isEmpty then []
  else
    ((merged engine docs query maxResults accountId).entries.filter
      fun e => (2 / 10 : ℚ) ≤ e.2.score).insertionSort fun e e' => e'.2.score ≤ e.2.score

def search (query : String) (maxResults : Nat) (accountId : String) : List Json :=
  ((ranked engine docs query maxResults accountId).take maxResults).map fun e => e.2.row e.1

end Search

/-- Every hit is of the account, and whatever documents of other accounts there are, the result is
the same. -/
def Isolated (docs : Dict String Doc) (query : String) (maxResults : Nat) (accountId : String) :
    Prop :=
  ∀ (engine : Engine) (docs' : Dict String Doc),
    ofAccount docs' accountId = ofAccount docs accountId →
    (∀ row ∈ search engine docs' query maxResults accountId,
      ∃ doc, docs'.get? (row.textAt "id") = some doc ∧ doc.accountId = accountId) ∧
    search engine docs' query maxResults accountId = search engine docs query maxResults accountId

/-! ## Without words -/

section Blank

variable {engine : Engine} {docs : Dict String Doc} {query : String} {accountId : String}

theorem bm25Score_blank (h : Text.isBlank query.toList = true) : bm25Score engine docs query = [] :=
  if_pos h

/-- What is merged of the nearest documents is theirs. -/
theorem get?_mergeDense {scores : List (String × ℚ)} {hits : List ((String × Doc) × ℚ)}
    {id : String} {h : Hit} (hget : (mergeDense scores hits).get? id = some h) :
    ∃ hit ∈ hits, hit.1.1 = id ∧ h.content = hit.1.2.content := by
  have hall : ∀ (hits : List ((String × Doc) × ℚ)) (start : Dict String Hit),
      (hits.foldl (fun merged hit => merged.set hit.1.1
        { content := hit.1.2.content, type := hit.1.2.type, vectorScore := max 0 (1 - hit.2),
          bm25Score := (Dict.lookup hit.1.1 scores).getD 0 }) start).get? id = some h →
      start.get? id = some h ∨ ∃ hit ∈ hits, hit.1.1 = id ∧ h.content = hit.1.2.content := by
    intro hits
    induction hits with
    | nil => exact fun _ h => .inl h
    | cons hit hits ih =>
      intro start hstart
      rcases ih _ hstart with hfirst | ⟨hit', hmem, hrest⟩
      · rw [Dict.get?_set] at hfirst
        split at hfirst
        · next hid => exact .inr ⟨hit, List.mem_cons_self, hid, Option.some.inj hfirst ▸ rfl⟩
        · exact .inl hfirst
      · exact .inr ⟨hit', List.mem_cons_of_mem _ hmem, hrest⟩
  refine (hall hits .empty hget).resolve_left fun hempty => ?_
  rw [Dict.get?_empty] at hempty
  cases hempty

/-- There is nothing to fetch when every hit has the content of its document. -/
theorem fetch_eq {merged : Dict String Hit}
    (h : ∀ id hit, merged.get? id = some hit →
      ∃ doc, docs.get? id = some doc ∧ hit.content = doc.content) :
    fetch docs merged = merged := by
  have hall : ∀ ids : List String, (∀ id ∈ ids, fetchOne docs merged id = merged) →
      ids.foldl (fetchOne docs) merged = merged := by
    intro ids
    induction ids with
    | nil => exact fun _ => rfl
    | cons id ids ih =>
      intro hids
      rw [List.foldl_cons, hids id List.mem_cons_self]
      exact ih fun id hid => hids id (List.mem_cons_of_mem _ hid)
  refine hall _ fun id hid => ?_
  obtain ⟨e, he, rfl⟩ := List.mem_map.mp hid
  obtain ⟨hmem, hblank⟩ := List.mem_filter.mp he
  have hget : merged.get? e.1 = some e.2 := Dict.mem_entries_iff.mp hmem
  obtain ⟨doc, hdoc, hcontent⟩ := h e.1 e.2 hget
  rw [fetchOne, hget, hdoc]
  exact if_pos (hcontent.symm.trans (of_decide_eq_true hblank))

theorem mem_ofAccount {hit : String × Doc} (h : hit ∈ ofAccount docs accountId) :
    docs.get? hit.1 = some hit.2 ∧ (accountId ≠ "" → hit.2.accountId = accountId) := by
  unfold ofAccount at h
  split at h
  · next hall => exact ⟨Dict.mem_entries_iff.mp h, fun hne => absurd hall hne⟩
  · obtain ⟨hmem, haccount⟩ := List.mem_filter.mp h
    exact ⟨Dict.mem_entries_iff.mp hmem, fun _ => of_decide_eq_true haccount⟩

/-- A query without words is answered from the documents of the account alone. -/
theorem merged_blank (h : Text.isBlank query.toList = true) (maxResults : Nat) :
    merged engine docs query maxResults accountId =
      mergeDense [] (engine.dense (ofAccount docs accountId) query (maxResults * 2)) := by
  rw [merged, bm25Score_blank h]
  refine fetch_eq fun id hit hget => ?_
  obtain ⟨near, hnear, rfl, hcontent⟩ := get?_mergeDense hget
  exact ⟨near.1.2, (mem_ofAccount (engine.dense_mem hnear)).1, hcontent⟩

theorem ranked_blank (h : Text.isBlank query.toList = true) (maxResults : Nat) :
    ranked engine docs query maxResults accountId =
      ((mergeDense [] (engine.dense (ofAccount docs accountId) query
        (maxResults * 2))).entries.filter fun e => (2 / 10 : ℚ) ≤ e.2.score).insertionSort
          fun e e' => e'.2.score ≤ e.2.score := by
  unfold ranked
  rw [merged_blank h]
  split
  · next hempty =>
    have hnone : ofAccount docs accountId = [] := by
      rw [ofAccount, List.isEmpty_iff.mp hempty]
      split <;> rfl
    have hhits : engine.dense (ofAccount docs accountId) query (maxResults * 2) = [] := by
      refine List.eq_nil_iff_forall_not_mem.mpr fun hit hmem => ?_
      exact absurd (engine.dense_mem hmem) (hnone ▸ List.not_mem_nil)
    rw [hhits]
    rfl
  · rfl

theorem isolated_of_blank (hne : accountId ≠ "") (h : Text.isBlank query.toList = true)
    (maxResults : Nat) : Isolated docs query maxResults accountId := by
  intro engine docs' hsame
  unfold search
  rw [ranked_blank h, ranked_blank h, hsame]
  refine ⟨fun row hrow => ?_, rfl⟩
  obtain ⟨e, he, rfl⟩ := List.mem_map.mp hrow
  have hmem := (List.mem_filter.mp ((List.mem_insertionSort _).mp (List.mem_of_mem_take he))).1
  obtain ⟨near, hnear, hid, _⟩ := get?_mergeDense (Dict.mem_entries_iff.mp hmem)
  obtain ⟨hget, haccount⟩ := mem_ofAccount (hsame ▸ engine.dense_mem hnear)
  exact ⟨near.1.2, hid ▸ hget, haccount hne⟩

end Blank

/-! ## With words -/

section Words

variable {engine : Engine} {docs : Dict String Doc} {query : String} {accountId : String}

/-- An engine that finds nothing near, and words of the query in the last document only. -/
def lastMatches : Engine where
  dense _ _ _ := []
  dense_mem h := absurd h List.not_mem_nil
  getScores corpus _ := corpus.dropLast.map (fun _ => 0) ++ corpus.getLast?.toList.map fun _ => 1
  length_getScores corpus _ := by
    rcases List.eq_nil_or_concat' corpus with rfl | ⟨front, last, rfl⟩
    · rfl
    · simp

theorem mergeScores_of_absent (scores : List (String × ℚ)) (h : (scores.map Prod.fst).Nodup)
    (merged : Dict String Hit) (habsent : ∀ s ∈ scores, merged.get? s.1 = none) (id : String) :
    (mergeScores scores merged).get? id = (merged.get? id).or
      ((Dict.lookup id scores).map fun b => ⟨"", .str "lesson", 0, b⟩) := by
  induction scores generalizing merged with
  | nil => simp [mergeScores, Dict.lookup]
  | cons s scores ih =>
    obtain ⟨hnew, hrest⟩ := List.nodup_cons.mp h
    have hs : merged.get? s.1 = none := habsent s List.mem_cons_self
    have hnext := ih hrest (merged.set s.1 ⟨"", .str "lesson", 0, s.2⟩) fun s' hs' => by
      have hne : s.1 ≠ s'.1 := fun heq => hnew (heq ▸ List.mem_map_of_mem hs')
      rw [Dict.get?_set, if_neg hne]
      exact habsent s' (List.mem_cons_of_mem _ hs')
    have hstep : mergeScores (s :: scores) merged =
        mergeScores scores (merged.set s.1 ⟨"", .str "lesson", 0, s.2⟩) := by
      rw [mergeScores, List.foldl_cons, hs]
      rfl
    rw [hstep, hnext, Dict.get?_set, Dict.lookup]
    split
    · next hid => rw [← hid, hs]; rfl
    · rfl

/-- Fetching contents changes no score. -/
theorem get?_fetch (merged : Dict String Hit) (id : String) :
    ((fetch docs merged).get? id).map Hit.score = (merged.get? id).map Hit.score := by
  have hall : ∀ (ids : List String) (m : Dict String Hit),
      ((ids.foldl (fetchOne docs) m).get? id).map Hit.score = (m.get? id).map Hit.score := by
    intro ids
    induction ids with
    | nil => exact fun _ => rfl
    | cons eid ids ih =>
      intro m
      rw [List.foldl_cons, ih]
      unfold fetchOne
      split
      · next h doc hm _ =>
        split
        · rfl
        · rw [Dict.get?_set]
          split
          · next hid => rw [← hid, hm]; rfl
          · rfl
      · rfl
  exact hall _ _

/-- The scores when only the last document has words of the query. -/
theorem bm25Score_lastMatches (hwords : Text.isBlank query.toList = false) {id : String} {doc : Doc}
    {front : List (String × Doc)} (h : docs.entries = front ++ [(id, doc)]) :
    bm25Score lastMatches docs query = front.map (fun e => (e.1, 0)) ++ [(id, 1)] := by
  have hraw : lastMatches.getScores (docs.entries.map (·.2.content)) query =
      front.map (fun _ => 0) ++ [1] := by
    simp [lastMatches, h]
  have htop : (front.map (fun _ => (0 : ℚ)) ++ [1]).max? = some 1 := by
    refine List.max?_eq_some_iff.mpr
      ⟨List.mem_append_right _ (List.mem_singleton_self 1), fun b hb => ?_⟩
    rcases List.mem_append.mp hb with hb | hb
    · obtain ⟨_, _, rfl⟩ := List.mem_map.mp hb
      exact zero_le_one
    · exact (List.mem_singleton.mp hb).le
  rw [bm25Score, hwords, if_neg Bool.false_ne_true]
  dsimp only
  rw [hraw, htop, h]
  dsimp only
  rw [if_pos one_pos, List.map_append, List.map_append, List.zip_append (by simp)]
  refine congrArg₂ _ ?_ ?_
  · rw [List.map_map, List.zip_map']
    exact List.map_congr_left fun e _ => by simp
  · simp

variable (accountId) in
/-- Then a hit scores what its words score. -/
theorem score_merged_lastMatches (hwords : Text.isBlank query.toList = false) {id : String}
    {doc : Doc} {front : List (String × Doc)} (h : docs.entries = front ++ [(id, doc)])
    (maxResults : Nat) (k : String) :
    ((merged lastMatches docs query maxResults accountId).get? k).map Hit.score =
      (Dict.lookup k (bm25Score lastMatches docs query)).map fun b =>
        0 * (6 / 10) + b * (4 / 10) := by
  have hkeys : ((bm25Score lastMatches docs query).map Prod.fst).Nodup := by
    have hnodup := docs.nodup
    rw [h, List.map_append] at hnodup
    rw [bm25Score_lastMatches hwords h, List.map_append, List.map_map]
    exact hnodup
  rw [merged, get?_fetch, mergeScores_of_absent _ hkeys _ fun _ _ => rfl]
  cases Dict.lookup k (bm25Score lastMatches docs query) <;> rfl

variable (accountId) in
/-- And the last document is the result. -/
theorem ranked_lastMatches (hwords : Text.isBlank query.toList = false) {id : String} {doc : Doc}
    {front : List (String × Doc)} (h : docs.entries = front ++ [(id, doc)]) (maxResults : Nat) :
    (∀ e ∈ ranked lastMatches docs query maxResults accountId, e.1 = id) ∧
      ranked lastMatches docs query maxResults accountId ≠ [] := by
  have hranked : ∀ e, e ∈ ranked lastMatches docs query maxResults accountId ↔
      (merged lastMatches docs query maxResults accountId).get? e.1 = some e.2 ∧
        2 / 10 ≤ e.2.score := by
    intro e
    rw [ranked, if_neg (by rw [h]; simp), List.mem_insertionSort, List.mem_filter,
      Dict.mem_entries_iff, decide_eq_true_eq]
  constructor
  · intro e he
    obtain ⟨hget, hpass⟩ := (hranked e).mp he
    have hlookup := score_merged_lastMatches accountId hwords h maxResults e.1
    rw [hget, Option.map_some] at hlookup
    obtain ⟨b, hb, hbscore⟩ := Option.map_eq_some_iff.mp hlookup.symm
    rw [bm25Score_lastMatches hwords h] at hb
    rcases List.mem_append.mp (Dict.mem_of_lookup hb) with hmem | hmem
    · obtain ⟨_, _, heq⟩ := List.mem_map.mp hmem
      rw [← hbscore, ← (Prod.mk.inj heq).2] at hpass
      norm_num at hpass
    · exact (Prod.mk.inj (List.mem_singleton.mp hmem)).1
  · have hlookup := score_merged_lastMatches accountId hwords h maxResults id
    have hnodup := docs.nodup
    rw [h, List.map_append] at hnodup
    rw [bm25Score_lastMatches hwords h, Dict.lookup_of_mem
      (by rw [List.map_append, List.map_map]; exact hnodup)
      (List.mem_append_right _ (List.mem_singleton_self _)), Option.map_some] at hlookup
    obtain ⟨hit, hget, hhit⟩ := Option.map_eq_some_iff.mp hlookup
    refine List.ne_nil_of_mem ((hranked (id, hit)).mpr ⟨hget, ?_⟩)
    rw [hhit]
    norm_num

/-- A document of another account, which is the only one with words of the query, is a hit. -/
theorem not_isolated (hwords : Text.isBlank query.toList = false) {maxResults : Nat}
    (hmax : maxResults ≠ 0) (hne : accountId ≠ "") :
    ¬ Isolated docs query maxResults accountId := by
  intro h
  obtain ⟨id, hid⟩ := Infinite.exists_notMem_finset (docs.entries.map Prod.fst).toFinset
  rw [List.mem_toFinset] at hid
  have hother : accountId ++ "'" ≠ accountId := fun heq => by
    simpa using congrArg String.length heq
  obtain ⟨doc, hdoc⟩ : ∃ doc : Doc, doc = ⟨"x", .str "lesson", accountId ++ "'"⟩ := ⟨_, rfl⟩
  have hentries : (docs.set id doc).entries = docs.entries ++ [(id, doc)] :=
    Dict.write_of_absent hid
  have hsame : ofAccount (docs.set id doc) accountId = ofAccount docs accountId := by
    rw [ofAccount, ofAccount, if_neg hne, if_neg hne, hentries, List.filter_append,
      List.filter_singleton, decide_eq_false (hdoc ▸ hother), Bool.cond_false, List.append_nil]
  obtain ⟨honly, hsome⟩ :=
    ranked_lastMatches accountId hwords hentries maxResults
  obtain ⟨e, rest, hlist⟩ := List.exists_cons_of_ne_nil hsome
  obtain ⟨n, rfl⟩ := Nat.exists_eq_succ_of_ne_zero hmax
  have hrow : e.2.row e.1 ∈ search lastMatches (docs.set id doc) query (n + 1) accountId := by
    rw [search, hlist, List.take_succ_cons]
    exact List.mem_map_of_mem List.mem_cons_self
  obtain ⟨doc', hget, haccount⟩ := (h lastMatches (docs.set id doc) hsame).1 _ hrow
  have hid' : (e.2.row e.1).textAt "id" = id := honly e (hlist ▸ List.mem_cons_self)
  rw [hid', Dict.get?_set_self] at hget
  rw [← Option.some.inj hget, hdoc] at haccount
  exact hother haccount

end Words

/-- The result of a search for an account is about its own documents, however near they are and
whatever their words score, exactly if the query has no words or no result is asked for. -/
theorem isolated_search_iff (docs : Dict String Doc) (query : String) (maxResults : Nat)
    (accountId : String) (hne : accountId ≠ "") :
    Isolated docs query maxResults accountId ↔
      Text.isBlank query.toList = true ∨ maxResults = 0 := by
  constructor
  · intro h
    by_contra hnot
    obtain ⟨hwords, hmax⟩ := not_or.mp hnot
    exact not_isolated (Bool.eq_false_iff.mpr hwords) hmax hne h
  · rintro (h | rfl)
    · exact isolated_of_blank hne h maxResults
    · exact fun _ _ _ => ⟨fun row hrow => absurd hrow List.not_mem_nil, rfl⟩

theorem blank_query_isolated :
    let docs : Dict String Doc := (Dict.empty.set "lesson_001" ⟨"tea", .str "lesson", "ann"⟩).set
      "lesson_002" ⟨"bob lives in Kyoto", .str "lesson", "bob"⟩
    Isolated docs " " 3 "ann" :=
  (isolated_search_iff _ " " 3 "ann" (by decide)).mpr (.inl rfl)

/-- Where someone else lives is found by its words. -/
theorem foreign_lesson_found :
    ¬ ∀ (engine : Engine) (docs : Dict String Doc) (query : String) (maxResults : Nat)
      (accountId : String), accountId ≠ "" →
      ∀ row ∈ search engine docs query maxResults accountId,
        ∃ doc, docs.get? (row.textAt "id") = some doc ∧ doc.accountId = accountId := by
  intro h
  have hsearch : (search lastMatches
      (Dict.empty.set "lesson_001" ⟨"bob lives in Kyoto", .str "lesson", "bob"⟩) "who is in kyoto" 3
      "ann").map (fun row => row.textAt "id") = ["lesson_001"] := by
    decide +kernel
  obtain ⟨row, hrow, hid⟩ := List.mem_map.mp (hsearch ▸ List.mem_singleton_self "lesson_001")
  obtain ⟨doc, hget, haccount⟩ := h _ _ _ _ _ (by decide) row hrow
  rw [hid, Dict.get?_set_self] at hget
  rw [← Option.some.inj hget] at haccount
  exact absurd haccount (by decide)

end VectorStore

end IrisMind.Memory
