import IrisMind.Lib.Machine
import IrisMind.Memory.ShortTerm

/-! # Consolidating turns

A flush sums up the last user turns of an account that were not consolidated, in
all rooms, stores the summary and the current topics under one room and one
account, and marks the turns of these as consolidated. -/
namespace IrisMind.Memory
open IrisMind.Lib

/-- What `store_episodic` is asked to store, and the turns it is made of. -/
structure EpisodicRequest where
  content : String
  kind : String
  scope : ShortTermScope
  turns : List StoredTurn

/-- What `store_semantic` is asked to store, and the turn it comes from. -/
structure SemanticRequest where
  content : String
  type : String
  tags : List String
  scope : ShortTermScope
  turn : StoredTurn

/-- The short term memory, and what the long term memory was asked to store. -/
structure MemoryManager where
  shortTerm : ShortTermMemoryManager := {}
  episodic : List EpisodicRequest := []
  semantic : List SemanticRequest := []

def conversation (scope : ShortTermScope) (turns : List StoredTurn) : EpisodicRequest where
  content := "[conversation] " ++ " | ".intercalate (turns.map fun t => Text.takeChars t.text 100)
  kind := "conversation"
  scope
  turns

def topicRequest (scope : ShortTermScope) (topic : Topic) : SemanticRequest where
  content := topic.text
  type := "topic"
  tags := ["short_term_topic"]
  scope
  turn := topic.turn

namespace MemoryManager

variable (m : MemoryManager)

def store : ShortTermStore := m.shortTerm.store

/-- The turns a flush considers: the room is not asked for. -/
def unconsolidated (scope : ShortTermScope) : List StoredTurn :=
  m.store.getUnconsolidatedTurns { accountId := scope.accountId }

/-- The turns a flush sums up. -/
def summarised (scope : ShortTermScope) : List StoredTurn :=
  ((m.unconsolidated scope).filter (·.role = "user")).rtake 3

def flush (scope : ShortTermScope) : MemoryManager :=
  let unconsolidated := m.unconsolidated scope
  if unconsolidated = [] then m
  else
    let userTurns := unconsolidated.filter (·.role = "user")
    { shortTerm := { m.shortTerm with store := m.store.markConsolidated scope }
      episodic := if userTurns = [] then m.episodic
        else m.episodic ++ [conversation scope (userTurns.rtake 3)]
      semantic := m.semantic ++ m.store.currentTopics.map (topicRequest scope) }

inductive Step where
  | addTurn (reader : TurnReader) (role : String) (blocks : List ContentBlock)
      (accountId roomId : String)
  | flush (roomId accountId : String)

def step : Step → MemoryManager
  | .addTurn reader role blocks accountId roomId =>
    { m with shortTerm := m.shortTerm.addTurn reader role blocks accountId roomId }
  | .flush roomId accountId => m.flush { roomId, accountId }

/-- A memory of any size, with nothing in it. -/
def start (maxTurns maxTopics : Nat) : MemoryManager :=
  { shortTerm := { store := { maxTurns, maxTopics } } }

/-! ## What is promised -/

/-- The numbers of the turns that were summed up. -/
def summedUp : List Nat := m.episodic.flatMap fun r => r.turns.map (·.turn)

/-- The turns a step considers. -/
def considered : Step → List StoredTurn
  | .addTurn .. => []
  | .flush roomId accountId => m.unconsolidated { roomId, accountId }

/-- After a step no turn is summed up twice, all that is stored comes from turns of its scope,
and a turn that is consolidated was so before, or was considered. -/
structure Consolidates (i : Step) : Prop where
  once : (m.step i).summedUp.Nodup
  own : ∀ r ∈ (m.step i).episodic, ∀ t ∈ r.turns, r.scope.admits t
  ownTopics : ∀ r ∈ (m.step i).semantic, r.scope.admits r.turn
  considered : ∀ t ∈ (m.step i).store.turns, t.consolidated = true →
    (∃ t' ∈ m.store.turns, t'.turn = t.turn ∧ t'.consolidated = true) ∨
      ∃ t' ∈ m.considered i, t'.turn = t.turn

/-- At a flush that finds something to consolidate, the turns it sums up were said in its room,
and the current topics come from turns of its room and account. -/
def InScope : Step → Prop
  | .addTurn .. => True
  | .flush roomId accountId => m.unconsolidated { roomId, accountId } ≠ [] →
    (∀ t ∈ m.summarised { roomId, accountId }, roomId = "" ∨ t.roomId = roomId) ∧
      ∀ topic ∈ m.store.currentTopics,
        ({ roomId, accountId } : ShortTermScope).admits topic.turn

/-! ## What is kept -/

/-- What was summed up is consolidated, and was stored in its own scope. -/
structure Recorded : Prop where
  distinct : (m.store.turns.map (·.turn)).Nodup
  numbered : ∀ t ∈ m.store.turns, t.turn < m.store.added
  once : m.summedUp.Nodup
  past : ∀ k ∈ m.summedUp, k < m.store.added ∧
    ∀ t ∈ m.store.turns, t.turn = k → t.consolidated = true
  own : ∀ r ∈ m.episodic, ∀ t ∈ r.turns, r.scope.admits t
  ownTopics : ∀ r ∈ m.semantic, r.scope.admits r.turn

theorem recorded_start (maxTurns maxTopics : Nat) : Recorded (start maxTurns maxTopics) where
  distinct := List.nodup_nil
  numbered _ h := by cases h
  once := List.nodup_nil
  past _ h := by cases h
  own _ h := by cases h
  ownTopics _ h := by cases h

variable {m}

theorem Recorded.addTurn (h : Recorded m) (reader : TurnReader) (role : String)
    (blocks : List ContentBlock) (accountId roomId : String) :
    Recorded (m.step (.addTurn reader role blocks accountId roomId)) := by
  rcases m.shortTerm.addTurn_turns reader role blocks accountId roomId with heq | ⟨hsub, hadded⟩
  · rw [show m.step (.addTurn reader role blocks accountId roomId) = m by rw [step, heq]]
    exact h
  have hnext : (m.step (.addTurn reader role blocks accountId roomId)).store.added =
    m.store.added + 1 := hadded
  -- a turn of the new memory is an old one, or the one that was added
  have hmem : ∀ t ∈ (m.step (.addTurn reader role blocks accountId roomId)).store.turns,
      t ∈ m.store.turns ∨ t.turn = m.store.added := by
    intro t ht
    rcases List.mem_append.mp (hsub.subset ht) with ht | ht
    · exact .inl ht
    · cases List.mem_singleton.mp ht
      exact .inr rfl
  refine ⟨?_, fun t ht => ?_, h.once, fun k hk => ⟨?_, fun t ht htk => ?_⟩, h.own, h.ownTopics⟩
  · refine (hsub.map (·.turn)).nodup ?_
    rw [List.map_append, List.nodup_append']
    refine ⟨h.distinct, List.nodup_singleton _, fun k hk hk' => ?_⟩
    obtain ⟨t, ht, rfl⟩ := List.mem_map.mp hk
    exact Nat.ne_of_lt (h.numbered t ht) (List.mem_singleton.mp hk')
  · rw [hnext]
    rcases hmem t ht with ht | ht
    · exact Nat.lt_succ_of_lt (h.numbered t ht)
    · exact ht ▸ Nat.lt_succ_self _
  · rw [hnext]
    exact Nat.lt_succ_of_lt (h.past k hk).1
  · rcases hmem t ht with ht | ht
    · exact (h.past k hk).2 t ht htk
    · exact absurd (htk.symm.trans ht) (Nat.ne_of_lt (h.past k hk).1)

section Flush

variable (m) (scope : ShortTermScope)

theorem mem_unconsolidated {t : StoredTurn} : t ∈ m.unconsolidated scope ↔
    t ∈ m.store.turns ∧ scope.admitsAccount t.accountId = true ∧ t.consolidated = false := by
  simp [unconsolidated, ShortTermStore.getUnconsolidatedTurns, ShortTermStore.scopeTurns_eq,
    ShortTermScope.admits, ShortTermScope.admitsAccount, ShortTermScope.admitsRoom, and_comm]

theorem summarised_sublist : (m.summarised scope).Sublist m.store.turns := by
  refine (List.drop_sublist _ _).trans (List.filter_sublist.trans (List.filter_sublist.trans ?_))
  rw [ShortTermStore.scopeTurns_eq]
  exact List.filter_sublist

theorem mem_of_summarised {t : StoredTurn} (h : t ∈ m.summarised scope) :
    t ∈ m.unconsolidated scope :=
  (List.mem_filter.mp ((List.drop_sublist _ _).subset h)).1

variable {m scope}

theorem flush_of_none (h : m.unconsolidated scope = []) : m.flush scope = m := if_pos h

/-- A flush that finds something adds a summary, of no turn when no user said anything. -/
theorem flush_of_some (h : m.unconsolidated scope ≠ []) :
    (m.flush scope).shortTerm.store = m.store.markConsolidated scope ∧
    (m.flush scope).summedUp = m.summedUp ++ (m.summarised scope).map (·.turn) ∧
    (∀ r, r ∈ (m.flush scope).episodic ↔
      r ∈ m.episodic ∨ m.summarised scope ≠ [] ∧ r = conversation scope (m.summarised scope)) ∧
    (m.flush scope).semantic = m.semantic ++ m.store.currentTopics.map (topicRequest scope) := by
  have hflush : m.flush scope = _ := if_neg h
  rw [hflush, summedUp, summarised]
  refine ⟨rfl, ?_, fun r => ?_, rfl⟩
  · dsimp only
    split
    · next hnone =>
      rw [hnone]
      exact (List.append_nil _).symm
    · rw [List.flatMap_append]
      simp [summedUp, conversation]
  · dsimp only
    split
    · next hnone => simp [hnone]
    · next hsome =>
      have hlast : ((m.unconsolidated scope).filter (·.role = "user")).rtake 3 ≠ [] := by
        intro hnil
        have hlength := List.drop_eq_nil_iff.mp hnil
        exact hsome (List.length_eq_zero_iff.mp (by omega))
      simp [hlast]

/-- The turn a flush leaves where `t` was. -/
def marked (scope : ShortTermScope) (t : StoredTurn) : StoredTurn :=
  if scope.admits t then { t with consolidated := true } else t

theorem marked_turn (t : StoredTurn) : (marked scope t).turn = t.turn := by
  unfold marked
  split <;> rfl

theorem mem_flush (h : m.unconsolidated scope ≠ []) {t : StoredTurn} :
    t ∈ (m.flush scope).store.turns ↔ ∃ t' ∈ m.store.turns, marked scope t' = t := by
  rw [store, (flush_of_some h).1]
  exact List.mem_map

/-- The scope of a flush admits the turns it sums up as soon as their room is right. -/
theorem admits_of_summarised {t : StoredTurn} (h : t ∈ m.summarised scope) :
    scope.admits t ↔ scope.roomId = "" ∨ t.roomId = scope.roomId := by
  have haccount := ((mem_unconsolidated m scope).mp (mem_of_summarised m scope h)).2.1
  rw [ShortTermScope.admits, haccount, Bool.true_and, ShortTermScope.admitsRoom, decide_eq_true_iff]

theorem added_flush (m : MemoryManager) (scope : ShortTermScope) :
    (m.flush scope).store.added = m.store.added := by
  unfold flush
  dsimp only
  split <;> rfl

/-- Where the scope admits what a flush sums up, it marks all of it. -/
theorem Recorded.past_flush (h : Recorded m) (hsome : m.unconsolidated scope ≠ [])
    (hroom : ∀ t ∈ m.summarised scope, scope.admits t) : ∀ k ∈ (m.flush scope).summedUp,
    k < m.store.added ∧ ∀ t ∈ (m.flush scope).store.turns, t.turn = k → t.consolidated = true := by
  intro k hk
  have hsub := summarised_sublist m scope
  rw [(flush_of_some hsome).2.1, List.mem_append] at hk
  rcases hk with hk | hk
  · refine ⟨(h.past k hk).1, fun t ht htk => ?_⟩
    obtain ⟨t', ht', rfl⟩ := (mem_flush hsome).mp ht
    rw [marked_turn] at htk
    unfold marked
    split
    · rfl
    · exact (h.past k hk).2 t' ht' htk
  · obtain ⟨t₀, ht₀, rfl⟩ := List.mem_map.mp hk
    refine ⟨h.numbered t₀ (hsub.subset ht₀), fun t ht htk => ?_⟩
    obtain ⟨t', ht', rfl⟩ := (mem_flush hsome).mp ht
    rw [marked_turn] at htk
    obtain rfl := List.inj_on_of_nodup_map h.distinct ht' (hsub.subset ht₀) htk
    rw [marked, if_pos (hroom t' ht₀)]

theorem Recorded.flush (h : Recorded m) (hroom : ∀ t ∈ m.summarised scope, scope.admits t)
    (htopics : ∀ topic ∈ m.store.currentTopics, scope.admits topic.turn) :
    Recorded (m.flush scope) := by
  by_cases hnone : m.unconsolidated scope = []
  · rw [flush_of_none hnone]
    exact h
  obtain ⟨hstore, hsummed, hepisodic, hsemantic⟩ := flush_of_some hnone
  have hturns : (m.flush scope).store.turns.map (·.turn) = m.store.turns.map (·.turn) := by
    rw [store, hstore, ShortTermStore.markConsolidated, List.map_map]
    exact List.map_congr_left fun t _ => marked_turn t
  refine ⟨hturns ▸ h.distinct, fun t ht => ?_, ?_, added_flush m scope ▸ h.past_flush hnone hroom,
    fun r hr t ht => ?_, fun r hr => ?_⟩
  · obtain ⟨t', ht', rfl⟩ := (mem_flush hnone).mp ht
    rw [marked_turn, added_flush]
    exact h.numbered t' ht'
  · rw [hsummed]
    have hsub := summarised_sublist m scope
    refine List.nodup_append'.mpr ⟨h.once, (hsub.map _).nodup h.distinct, fun k hk hk' => ?_⟩
    obtain ⟨t, ht, rfl⟩ := List.mem_map.mp hk'
    have hyes := (h.past _ hk).2 t (hsub.subset ht) rfl
    rw [((mem_unconsolidated m scope).mp (mem_of_summarised m scope ht)).2.2] at hyes
    cases hyes
  · rcases (hepisodic r).mp hr with hr | ⟨_, rfl⟩
    · exact h.own r hr t ht
    · exact hroom t ht
  · rw [hsemantic, List.mem_append] at hr
    rcases hr with hr | hr
    · exact h.ownTopics r hr
    · obtain ⟨topic, htopic, rfl⟩ := List.mem_map.mp hr
      exact htopics topic htopic

end Flush

/-! ## The guard is exact -/

theorem Recorded.step (h : Recorded m) (i : Step) (hi : m.InScope i) : Recorded (m.step i) := by
  cases i with
  | addTurn reader role blocks accountId roomId => exact h.addTurn _ _ _ _ _
  | flush roomId accountId =>
    by_cases hnone : m.unconsolidated { roomId, accountId } = []
    · rw [MemoryManager.step, flush_of_none hnone]
      exact h
    · obtain ⟨hroom, htopics⟩ := hi hnone
      exact h.flush (fun t ht => (admits_of_summarised ht).mpr (hroom t ht)) htopics

/-- A flush marks what it considered, even where it sums up something else. -/
theorem considered_step (m : MemoryManager) (i : Step) : ∀ t ∈ (m.step i).store.turns,
    t.consolidated = true → (∃ t' ∈ m.store.turns, t'.turn = t.turn ∧ t'.consolidated = true) ∨
      ∃ t' ∈ m.considered i, t'.turn = t.turn := by
  intro t ht hyes
  cases i with
  | addTurn reader role blocks accountId roomId =>
    rcases m.shortTerm.addTurn_turns reader role blocks accountId roomId with heq | ⟨hsub, _⟩
    · rw [MemoryManager.step, heq] at ht
      exact .inl ⟨t, ht, rfl, hyes⟩
    · rcases List.mem_append.mp (hsub.subset ht) with ht | ht
      · exact .inl ⟨t, ht, rfl, hyes⟩
      · cases List.mem_singleton.mp ht
        cases hyes
  | flush roomId accountId =>
    by_cases hnone : m.unconsolidated { roomId, accountId } = []
    · rw [MemoryManager.step, flush_of_none hnone] at ht
      exact .inl ⟨t, ht, rfl, hyes⟩
    · obtain ⟨t', ht', rfl⟩ := (mem_flush hnone).mp ht
      cases hold : t'.consolidated with
      | true => exact .inl ⟨t', ht', (marked_turn t').symm, hold⟩
      | false =>
        have hadmits : ({ roomId, accountId } : ShortTermScope).admits t' = true := by
          by_contra hnot
          rw [marked, if_neg hnot, hold] at hyes
          cases hyes
        refine .inr ⟨t', (mem_unconsolidated _ _).mpr ⟨ht', ?_, hold⟩, (marked_turn t').symm⟩
        exact (Bool.and_eq_true_iff.mp hadmits).1

theorem consolidates_iff (h : Recorded m) (i : Step) : m.Consolidates i ↔ m.InScope i := by
  constructor
  · intro hgood
    cases i with
    | addTurn reader role blocks accountId roomId => trivial
    | flush roomId accountId =>
      intro hsome
      obtain ⟨_, _, hepisodic, hsemantic⟩ := flush_of_some hsome
      refine ⟨fun t ht => (admits_of_summarised ht).mp ?_, fun topic htopic => ?_⟩
      · exact hgood.own _ ((hepisodic _).mpr (.inr ⟨List.ne_nil_of_mem ht, rfl⟩)) t ht
      · refine hgood.ownTopics (topicRequest _ topic) ?_
        rw [MemoryManager.step, hsemantic]
        exact List.mem_append_right _ (List.mem_map_of_mem htopic)
  · intro hi
    have hnext := h.step i hi
    exact ⟨hnext.once, hnext.own, hnext.ownTopics, considered_step m i⟩

/-- Each turn is consolidated once and in its own scope, all along a run, exactly when what each
flush finds in its account comes from its room. -/
theorem consolidated_once_iff (maxTurns maxTopics : Nat) (steps : List Step) :
    Machine.Guarded step Consolidates (start maxTurns maxTopics) steps ↔
      Machine.Guarded step InScope (start maxTurns maxTopics) steps :=
  ⟨fun h => h.imp Recorded (fun _ i hr hgood =>
      have hi := (consolidates_iff hr i).mp hgood
      ⟨hr.step i hi, hi⟩) (recorded_start _ _),
    fun h => h.imp Recorded (fun _ i hr hi => ⟨hr.step i hi, (consolidates_iff hr i).mpr hi⟩)
      (recorded_start _ _)⟩

/-- Flushes of everything, as the executor asks for them, consolidate each turn once. -/
theorem consolidated_once_of_whole (maxTurns maxTopics : Nat) {steps : List Step}
    (h : ∀ roomId accountId, .flush roomId accountId ∈ steps → roomId = "" ∧ accountId = "") :
    Machine.Guarded step Consolidates (start maxTurns maxTopics) steps := by
  refine (consolidated_once_iff _ _ _).mpr (Machine.guarded_iff_forall.mpr fun js i hp => ?_)
  cases i with
  | addTurn reader role blocks accountId roomId => trivial
  | flush roomId accountId =>
    obtain ⟨rfl, rfl⟩ := h roomId accountId
      (hp.subset (List.mem_append_right _ List.mem_cons_self))
    exact fun _ => ⟨fun _ _ => .inl rfl, fun _ _ => rfl⟩

/-- What was said in one room is summed up under another, and once more under its own. -/
theorem said_elsewhere_summed_up_twice : ¬ ∀ maxTurns maxTopics steps,
    Machine.Guarded step Consolidates (start maxTurns maxTopics) steps := by
  intro h
  have hflush := (h 30 5 [.addTurn ⟨fun _ => 0, fun _ => []⟩ "user" [textBlock "hi"] "a" "q",
    .flush "r" "a", .flush "q" "a"]).2.2.1
  exact absurd hflush.once (by decide)

end MemoryManager

end IrisMind.Memory
