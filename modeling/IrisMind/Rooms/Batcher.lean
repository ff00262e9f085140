import IrisMind.Lib.Dict
import IrisMind.Rooms.Announcements

/-! # The join batcher

Joins are kept back for a while and published by another thread, those of a room
together; leaves are published at once. What is published of an account in a
room is to follow what happened to it. -/
namespace IrisMind.Rooms
open IrisMind.Lib IrisMind.Events

/-- What goes onto the event bus. -/
inductive Notice where
  | joined (e : RoomJoinedEvent)
  | joinedBatch (roomId : String) (joins : List RoomJoinedEvent)
  | left (e : RoomLeftEvent)
deriving DecidableEq, Repr

inductive Passage where
  | joined
  | left
deriving DecidableEq, Repr

/-- The event is of the account in the room. -/
def joinedOf (roomId accountId : String) (e : RoomJoinedEvent) : Bool :=
  e.roomId == roomId && e.accountId == accountId

def leftOf (roomId accountId : String) (e : RoomLeftEvent) : Bool :=
  e.roomId == roomId && e.accountId == accountId

theorem joinedOf_iff {r a : String} {e : RoomJoinedEvent} :
    joinedOf r a e = true ↔ (r, a) = (e.roomId, e.accountId) := by
  rw [joinedOf, Bool.and_eq_true, beq_iff_eq, beq_iff_eq, Prod.mk.injEq, @eq_comm _ r,
    @eq_comm _ a]

theorem leftOf_iff {r a : String} {e : RoomLeftEvent} :
    leftOf r a e = true ↔ (r, a) = (e.roomId, e.accountId) := by
  rw [leftOf, Bool.and_eq_true, beq_iff_eq, beq_iff_eq, Prod.mk.injEq, @eq_comm _ r,
    @eq_comm _ a]

namespace Notice

/-- The joined events a notice carries. -/
def joins : Notice → List RoomJoinedEvent
  | .joined e => [e]
  | .joinedBatch _ joins => joins
  | .left _ => []

/-- What a notice says about an account in a room, in order. -/
def passages (roomId accountId : String) : Notice → List Passage
  | .joined e => if joinedOf roomId accountId e then [.joined] else []
  | .joinedBatch _ joins => (joins.filter (joinedOf roomId accountId)).map fun _ => .joined
  | .left e => if leftOf roomId accountId e then [.left] else []

end Notice

/-- The events of one room, taken from the buffer. -/
abbrev Batch := String × List RoomJoinedEvent

namespace RoomJoinBatcher

/-- `add`: the event goes to the end of its room's list. -/
def add (pending : Dict String (List RoomJoinedEvent)) (e : RoomJoinedEvent) :
    Dict String (List RoomJoinedEvent) :=
  pending.set e.roomId (pending.getD e.roomId [] ++ [e])

/-- An event on its own is published as it is. -/
def notice : Batch → Notice
  | (_, [e]) => .joined e
  | (roomId, joins) => .joinedBatch roomId joins

end RoomJoinBatcher

/-- The room manager with its batcher: `flushing` has, for every thread in `_flush`, what it has
taken from the buffer and not published yet. `happened` is the history of the operations. -/
structure Lobby where
  store : RoomStore
  pending : Dict String (List RoomJoinedEvent) := .empty
  flushing : List (List Batch) := []
  published : List Notice := []
  happened : List Notice := []

namespace Lobby
open RoomManager

inductive Step where
  | join (displayName : String → String) (now roomId accountId sessionId role : String)
  | leave (displayName : String → String) (now roomId accountId sessionId : String)
  | delete (roomId : String)
  | flush
  | publish (thread : Nat)

def join (s : Lobby) (run : JoinRun) : Lobby :=
  match run.event with
  | none => { s with store := run.store }
  | some e =>
    { s with
      store := run.store
      pending := RoomJoinBatcher.add s.pending e
      happened := s.happened ++ [.joined e] }

def leave (s : Lobby) (run : LeaveRun) : Lobby :=
  match run.event with
  | none => { s with store := run.store }
  | some e =>
    { s with
      store := run.store
      published := s.published ++ [.left e]
      happened := s.happened ++ [.left e] }

/-- The part of `_flush` under the lock. -/
def flush (s : Lobby) : Lobby :=
  { s with pending := .empty, flushing := s.flushing ++ [s.pending.entries] }

/-- A thread publishes the events of the next room. -/
def publish (s : Lobby) (thread : Nat) : Lobby :=
  match s.flushing[thread]? with
  | some (batch :: rest) =>
    { s with
      flushing := s.flushing.set thread rest
      published := s.published ++ [RoomJoinBatcher.notice batch] }
  | _ => s

def step (s : Lobby) : Step → Lobby
  | .join displayName now roomId accountId sessionId role =>
    s.join (joinRoom displayName now s.store roomId accountId sessionId role)
  | .leave displayName now roomId accountId sessionId =>
    s.leave (leaveRoom displayName now s.store roomId accountId sessionId)
  | .delete roomId => { s with store := deleteRoom s.store roomId }
  | .flush => s.flush
  | .publish thread => s.publish thread

/-- `stop`: the calling thread flushes, and is back when it has published all it took. -/
def stop (s : Lobby) : Lobby :=
  (List.replicate s.pending.entries.length s.flushing.length).foldl publish s.flush

/-- Rooms with nobody in them. -/
def start (rooms : List Room) : Lobby := { store := { rooms } }

/-! ## Nothing is lost -/

def joins (notices : List Notice) : List RoomJoinedEvent := notices.flatMap Notice.joins

/-- The joined events on their way to the bus. -/
def inFlight (s : Lobby) : List RoomJoinedEvent :=
  s.pending.entries.flatMap Prod.snd ++ s.flushing.flatMap fun batches => batches.flatMap Prod.snd

theorem joins_notice (batch : Batch) : (RoomJoinBatcher.notice batch).joins = batch.2 := by
  obtain ⟨roomId, events⟩ := batch
  match events with
  | [] => rfl
  | [e] => rfl
  | e :: e' :: rest => rfl

/-- Every joined event was published once, or is on its way. -/
def Conserved (s : Lobby) : Prop :=
  (joins s.happened).Perm (joins s.published ++ s.inFlight)

theorem flatMap_write_perm {κ α : Type} [DecidableEq κ] (k : κ) (x : α) :
    ∀ l : List (κ × List α), (Dict.write k ((Dict.lookup k l).getD [] ++ [x]) l).flatMap Prod.snd
      |>.Perm (l.flatMap Prod.snd ++ [x])
  | [] => by simp [Dict.write, Dict.lookup]
  | e :: rest => by
    unfold Dict.write Dict.lookup
    split
    · simp only [List.flatMap_cons, Option.getD_some, List.append_assoc]
      exact (List.perm_append_comm.append_left e.2)
    · simp only [List.flatMap_cons, List.append_assoc]
      exact (flatMap_write_perm k x rest).append_left e.2

theorem add_perm (pending : Dict String (List RoomJoinedEvent)) (e : RoomJoinedEvent) :
    ((RoomJoinBatcher.add pending e).entries.flatMap Prod.snd).Perm
      (pending.entries.flatMap Prod.snd ++ [e]) :=
  flatMap_write_perm e.roomId e pending.entries

theorem flatMap_set_perm {α β : Type} {f : α → List β} {x y : α} {z : List β}
    (hxy : f x = z ++ f y) : ∀ {l : List α} {i : Nat}, l[i]? = some x →
      (l.flatMap f).Perm (z ++ (l.set i y).flatMap f)
  | a :: l, 0, h => by
    cases Option.some.inj h
    simp [hxy]
  | a :: l, i + 1, h => by
    simp only [List.getElem?_cons_succ] at h
    simp only [List.flatMap_cons, List.set_cons_succ]
    have ih := (flatMap_set_perm hxy h).append_left (f a)
    refine ih.trans ?_
    rw [← List.append_assoc, ← List.append_assoc]
    exact List.perm_append_comm.append_right _

theorem joins_append (a b : List Notice) : joins (a ++ b) = joins a ++ joins b :=
  List.flatMap_append

/-- An announced join puts one more event on its way. -/
theorem join_inFlight (s : Lobby) (run : JoinRun) :
    (s.join run).inFlight.Perm (s.inFlight ++ run.event.toList) := by
  unfold Lobby.join
  split
  · next hnone => simp [hnone, inFlight]
  · next e he =>
    rw [he]
    unfold inFlight
    refine ((add_perm s.pending e).append_right _).trans ?_
    rw [List.append_assoc, List.append_assoc]
    exact List.perm_append_comm.append_left _

theorem flush_inFlight (s : Lobby) : s.flush.inFlight.Perm s.inFlight := by
  unfold inFlight Lobby.flush
  simp only [List.flatMap_append, List.flatMap_cons, List.flatMap_nil, List.append_nil]
  exact (List.nil_append _).symm ▸ List.perm_append_comm

/-- A thread publishes what it takes off its way, and nothing else happens. -/
theorem publish_cases (s : Lobby) (thread : Nat) : s.publish thread = s ∨
    ∃ batch rest, s.flushing[thread]? = some (batch :: rest) ∧
      s.publish thread =
        { s with
          flushing := s.flushing.set thread rest
          published := s.published ++ [RoomJoinBatcher.notice batch] } ∧
      s.inFlight.Perm (batch.2 ++ (s.publish thread).inFlight) := by
  unfold Lobby.publish
  split
  · next batch rest hbatch =>
    refine .inr ⟨batch, rest, hbatch, rfl, ?_⟩
    unfold inFlight
    refine ((flatMap_set_perm (y := rest) (z := batch.2) (by simp) hbatch).append_left _).trans ?_
    rw [← List.append_assoc, ← List.append_assoc]
    exact List.perm_append_comm.append_right _
  · exact .inl rfl

theorem conserved_step (s : Lobby) (i : Step) (h : s.Conserved) : (s.step i).Conserved := by
  have hnone : ∀ e, joins [Notice.left e] = [] := fun _ => rfl
  cases i with
  | join displayName now roomId accountId sessionId role =>
    show (s.join (joinRoom displayName now s.store roomId accountId sessionId role)).Conserved
    generalize joinRoom displayName now s.store roomId accountId sessionId role = run
    refine List.Perm.trans ?_ ((s.join_inFlight run).symm.append_left _)
    unfold Lobby.join
    split
    · next he =>
      rw [he, Option.toList_none, List.append_nil]
      exact h
    · next e he =>
      rw [he, joins_append, ← List.append_assoc]
      exact h.append_right _
  | leave displayName now roomId accountId sessionId =>
    show (s.leave (leaveRoom displayName now s.store roomId accountId sessionId)).Conserved
    unfold Lobby.leave
    split
    · exact h
    · unfold Conserved
      simp only [joins_append]
      rw [hnone, List.append_nil, List.append_nil]
      exact h
  | delete roomId => exact h
  | flush => exact h.trans (s.flush_inFlight.symm.append_left _)
  | publish thread =>
    rcases s.publish_cases thread with heq | ⟨batch, rest, _, heq, hperm⟩
    · show (s.publish thread).Conserved
      rw [heq]
      exact h
    · have hone : joins [RoomJoinBatcher.notice batch] = batch.2 := by
        simp [joins, joins_notice]
      have hgone := h.trans (hperm.append_left _)
      rw [← List.append_assoc, ← hone, ← joins_append] at hgone
      show (s.publish thread).Conserved
      rw [heq] at hgone ⊢
      exact hgone

/-! ## Stopping -/

theorem foldl_publish (batches : List Batch) : ∀ (s : Lobby) (threads : List (List Batch)),
    s.flushing = threads ++ [batches] →
      (List.replicate batches.length threads.length).foldl publish s =
        { s with
          flushing := threads ++ [[]]
          published := s.published ++ batches.map RoomJoinBatcher.notice } := by
  induction batches with
  | nil =>
    intro s threads h
    simp [← h]
  | cons batch rest ih =>
    intro s threads h
    have hget : s.flushing[threads.length]? = some (batch :: rest) := by
      rw [h]
      simp
    have hset : s.flushing.set threads.length rest = threads ++ [rest] := by
      rw [h]
      simp
    have hstep : s.publish threads.length =
        { s with
          flushing := threads ++ [rest]
          published := s.published ++ [RoomJoinBatcher.notice batch] } := by
      unfold Lobby.publish
      rw [hget]
      dsimp only
      rw [hset]
    rw [List.length_cons, List.replicate_succ, List.foldl_cons, hstep, ih _ threads rfl]
    simp

/-- Stopping publishes everything that is in the buffer, each event once. -/
theorem stop_eq (s : Lobby) : s.stop =
    { s with
      pending := .empty
      flushing := s.flushing ++ [[]]
      published := s.published ++ s.pending.entries.map RoomJoinBatcher.notice } :=
  foldl_publish s.pending.entries s.flush s.flushing rfl

theorem joins_stop (s : Lobby) :
    joins s.stop.published = joins s.published ++ s.pending.entries.flatMap Prod.snd := by
  rw [stop_eq, joins_append]
  congr 1
  rw [joins, List.flatMap_map]
  exact List.flatMap_congr fun batch _ => joins_notice batch

/-! ## The order of an account's events in a room -/

def passages (roomId accountId : String) (notices : List Notice) : List Passage :=
  notices.flatMap (Notice.passages roomId accountId)

end Lobby

namespace Passage

def other : Passage → Passage
  | joined => left
  | left => joined

/-- The list takes turns, and begins with `p`. -/
def AlternatesFrom : Passage → List Passage → Prop
  | _, [] => True
  | p, q :: rest => q = p ∧ AlternatesFrom p.other rest

/-- What comes next where the list takes turns from `p` on. -/
def next (p : Passage) (l : List Passage) : Passage :=
  match l.getLast? with
  | none => p
  | some q => q.other

theorem alternatesFrom_append {p x : Passage} : ∀ {l : List Passage},
    AlternatesFrom p (l ++ [x]) ↔ AlternatesFrom p l ∧ x = next p l := by
  intro l
  induction l generalizing p with
  | nil => simp [AlternatesFrom, next]
  | cons q rest ih =>
    rw [List.cons_append, AlternatesFrom, AlternatesFrom, ih, and_assoc]
    refine and_congr_right fun hq => ?_
    refine and_congr_right fun _ => ?_
    cases hrest : rest.getLast? with
    | none =>
      obtain rfl := List.getLast?_eq_none_iff.mp hrest
      simp [next, hq]
    | some y =>
      have hlast : (q :: rest).getLast? = some y := by
        rw [List.getLast?_cons, hrest]
        rfl
      simp [next, hrest, hlast]

theorem AlternatesFrom.of_prefix {p : Passage} {l m : List Passage} (h : AlternatesFrom p m)
    (hp : l <+: m) : AlternatesFrom p l := by
  induction l generalizing p m with
  | nil => trivial
  | cons q rest ih =>
    cases m with
    | nil => exact absurd (List.prefix_nil.mp hp) (List.cons_ne_nil _ _)
    | cons y m =>
      obtain ⟨rfl, hrest⟩ := List.cons_prefix_cons.mp hp
      exact ⟨h.1, ih h.2 hrest⟩

/-- Where a list takes turns, no two of a kind stand side by side. -/
theorem AlternatesFrom.length_le_one {p q : Passage} {l m : List Passage}
    (h : AlternatesFrom p (l ++ m)) (hm : ∀ x ∈ m, x = q) : m.length ≤ 1 := by
  induction l generalizing p with
  | nil =>
    match m with
    | [] => simp
    | [_] => simp
    | x :: y :: rest =>
      obtain ⟨hx, hy, _⟩ := h
      have hxq := hm x List.mem_cons_self
      have hyq := hm y (List.mem_cons_of_mem _ List.mem_cons_self)
      subst hx
      rw [hy, ← hxq] at hyq
      cases x <;> cases hyq
  | cons y l ih => exact ih h.2

end Passage

namespace Lobby
open RoomManager RoomStore Passage

theorem passages_append (r a : String) (m n : List Notice) :
    passages r a (m ++ n) = passages r a m ++ passages r a n := List.flatMap_append

theorem passages_singleton (r a : String) (n : Notice) : passages r a [n] = n.passages r a :=
  List.append_nil _

theorem passages_notice (r a : String) (batch : Batch) :
    (RoomJoinBatcher.notice batch).passages r a =
      (batch.2.filter (joinedOf r a)).map fun _ => .joined := by
  obtain ⟨roomId, events⟩ := batch
  match events with
  | [] => rfl
  | [e] =>
    show (if joinedOf r a e then [Passage.joined] else []) = _
    by_cases h : joinedOf r a e = true
    · simp [h]
    · simp [h]
  | e :: e' :: rest => rfl

/-- As many joined events of the account are in a notice as its passages say. -/
theorem count_joined_notice (r a : String) (n : Notice) :
    (n.passages r a).count .joined = (n.joins.filter (joinedOf r a)).length := by
  cases n with
  | joined e =>
    by_cases h : joinedOf r a e = true
    · simp [Notice.passages, Notice.joins, h]
    · simp [Notice.passages, Notice.joins, h]
  | joinedBatch roomId events => simp [Notice.passages, Notice.joins]
  | left e =>
    by_cases h : leftOf r a e = true
    · simp [Notice.passages, Notice.joins, h]
    · simp [Notice.passages, Notice.joins, h]

theorem count_joined (r a : String) (notices : List Notice) :
    (passages r a notices).count .joined = ((joins notices).filter (joinedOf r a)).length := by
  induction notices with
  | nil => rfl
  | cons n rest ih =>
    have hcons : passages r a (n :: rest) = n.passages r a ++ passages r a rest := rfl
    have hjoins : joins (n :: rest) = n.joins ++ joins rest := rfl
    rw [hcons, hjoins, List.count_append, List.filter_append, List.length_append, ih,
      count_joined_notice]

/-- What holds in every interleaving: nothing is lost, the operations on an account take turns,
and whether it is active tells which one was the last. -/
structure Tracked (s : Lobby) : Prop where
  wellFormed : s.store.WellFormed
  conserved : s.Conserved
  lefts : ∀ r a, (passages r a s.published).count .left = (passages r a s.happened).count .left
  alternates : ∀ r a, AlternatesFrom .joined (passages r a s.happened)
  active : ∀ r a, s.store.ActiveIn r a → next .joined (passages r a s.happened) = .left
  inactive : ∀ r a, next .joined (passages r a s.happened) = .left →
    s.store.ActiveIn r a ∨ s.store.findRoomById r = none

theorem findRoomById_none_of_sublist {s t : RoomStore} (h : t.rooms.Sublist s.rooms) {r : String}
    (hnone : s.findRoomById r = none) : t.findRoomById r = none :=
  List.find?_eq_none.mpr fun room hroom => List.find?_eq_none.mp hnone room (h.subset hroom)

theorem joinRoom_rooms (displayName : String → String) (now : String) (s : RoomStore)
    (roomId accountId sessionId role : String) :
    (joinRoom displayName now s roomId accountId sessionId role).store.rooms.Sublist s.rooms := by
  unfold joinRoom
  dsimp only
  split
  · exact List.Sublist.refl _
  split
  · exact List.Sublist.refl _
  split
  · split
    · split
      · exact List.Sublist.refl _
      · exact List.Sublist.refl _
    · exact List.Sublist.refl _
  · exact List.Sublist.refl _

theorem leaveRoom_rooms (displayName : String → String) (now : String) (s : RoomStore)
    (roomId accountId sessionId : String) :
    (leaveRoom displayName now s roomId accountId sessionId).store.rooms.Sublist s.rooms := by
  rw [leaveRoom_store]
  split
  · exact List.Sublist.refl _
  next m _ =>
  split
  · unfold afterLeave
    split
    · exact List.Sublist.refl _
    · rcases maybeDeleteEmptyRoom_cases (s.updateMember (m.left sessionId now)) m.roomId with
        ⟨heq, _⟩ | ⟨heq, _⟩
      · rw [heq]
        exact List.Sublist.refl _
      · rw [heq]
        exact List.filter_sublist
  · exact List.Sublist.refl _

theorem next_append (p x : Passage) (l : List Passage) : next p (l ++ [x]) = x.other := by
  simp [next]

/-- The store changes, and nobody becomes active or stops being it. -/
theorem Tracked.of_store {s : Lobby} (h : s.Tracked) {store : RoomStore} (hw : store.WellFormed)
    (hactive : ∀ r a, store.ActiveIn r a ↔ s.store.ActiveIn r a)
    (hrooms : store.rooms.Sublist s.store.rooms) : Tracked { s with store } where
  wellFormed := hw
  conserved := h.conserved
  lefts := h.lefts
  alternates := h.alternates
  active r a ha := h.active r a ((hactive r a).mp ha)
  inactive r a hn := (h.inactive r a hn).imp (hactive r a).mpr (findRoomById_none_of_sublist hrooms)

/-- An announced operation on an account, in its turn. -/
theorem Tracked.turn {s : Lobby} (h : s.Tracked) {store : RoomStore} {n : Notice} {x : Passage}
    {roomId accountId : String}
    (hn : ∀ r a, n.passages r a = if (r, a) = (roomId, accountId) then [x] else [])
    (hturn : next .joined (passages roomId accountId s.happened) = x)
    (hactive : ∀ r a, store.ActiveIn r a ↔
      if (r, a) = (roomId, accountId) then x = .joined else s.store.ActiveIn r a)
    (hrooms : store.rooms.Sublist s.store.rooms) (r a : String) :
    AlternatesFrom .joined (passages r a (s.happened ++ [n])) ∧
      (store.ActiveIn r a → next .joined (passages r a (s.happened ++ [n])) = .left) ∧
      (next .joined (passages r a (s.happened ++ [n])) = .left →
        store.ActiveIn r a ∨ store.findRoomById r = none) := by
  rw [passages_append, passages_singleton, hn, hactive]
  by_cases hra : (r, a) = (roomId, accountId)
  · obtain ⟨rfl, rfl⟩ := Prod.mk.inj hra
    rw [if_pos rfl, if_pos rfl, next_append]
    refine ⟨alternatesFrom_append.mpr ⟨h.alternates r a, hturn.symm⟩, fun hx => ?_, fun hx => ?_⟩
    · rw [hx]
      rfl
    · cases x with
      | joined => exact .inl rfl
      | left => cases hx
  · rw [if_neg hra, if_neg hra, List.append_nil]
    exact ⟨h.alternates r a, h.active r a, fun hx => (h.inactive r a hx).imp id
      (findRoomById_none_of_sublist hrooms)⟩

theorem passages_of_joined (r a : String) (e : RoomJoinedEvent) :
    (Notice.joined e).passages r a =
      if (r, a) = (e.roomId, e.accountId) then [.joined] else [] :=
  if_congr joinedOf_iff rfl rfl

theorem passages_of_left (r a : String) (e : RoomLeftEvent) :
    (Notice.left e).passages r a = if (r, a) = (e.roomId, e.accountId) then [.left] else [] :=
  if_congr leftOf_iff rfl rfl

theorem joinRoom_wellFormed {s : RoomStore} (h : s.WellFormed) (displayName : String → String)
    (now roomId accountId sessionId role : String) :
    (joinRoom displayName now s roomId accountId sessionId role).store.WellFormed :=
  apply_wellFormed s (.join displayName now roomId accountId sessionId role) h

theorem leaveRoom_wellFormed {s : RoomStore} (h : s.WellFormed) (displayName : String → String)
    (now roomId accountId sessionId : String) :
    (leaveRoom displayName now s roomId accountId sessionId).store.WellFormed :=
  apply_wellFormed s (.leave displayName now roomId accountId sessionId) h

theorem Tracked.step {s : Lobby} (h : s.Tracked) (i : Step) : (s.step i).Tracked := by
  have hconserved := conserved_step s i h.conserved
  cases i with
  | join displayName now roomId accountId sessionId role =>
    have hw := joinRoom_wellFormed h.wellFormed displayName now roomId accountId sessionId role
    have hrooms := joinRoom_rooms displayName now s.store roomId accountId sessionId role
    unfold Lobby.step Lobby.join at hconserved ⊢
    dsimp only at hconserved ⊢
    rcases joinRoom_announces h.wellFormed displayName now roomId accountId sessionId role with
      ⟨hevent, hactive⟩ | ⟨hevent, hroom, hnot, hactive⟩
    · rw [hevent]
      exact h.of_store hw hactive hrooms
    · rw [hevent] at hconserved ⊢
      dsimp only at hconserved ⊢
      -- The account was not active and the room is there, so a leave was the last before.
      have hnext : next .joined (passages roomId accountId s.happened) = .joined := by
        cases hn : next .joined (passages roomId accountId s.happened) with
        | joined => rfl
        | left =>
          rcases h.inactive roomId accountId hn with hyes | hnone
          · exact absurd hyes hnot
          · rw [hnone] at hroom
            cases hroom
      have hturn := h.turn (passages_of_joined · · ⟨roomId, accountId, displayName accountId⟩) hnext
        (fun r a => by rw [hactive r a]; split <;> simp [*]) hrooms
      refine ⟨hw, hconserved, fun r a => ?_, fun r a => (hturn r a).1, fun r a => (hturn r a).2.1,
        fun r a => (hturn r a).2.2⟩
      rw [passages_append, List.count_append, h.lefts, passages_singleton, passages_of_joined]
      split <;> rfl
  | leave displayName now roomId accountId sessionId =>
    have hw := leaveRoom_wellFormed h.wellFormed displayName now roomId accountId sessionId
    have hrooms := leaveRoom_rooms displayName now s.store roomId accountId sessionId
    unfold Lobby.step Lobby.leave at hconserved ⊢
    dsimp only at hconserved ⊢
    rcases leaveRoom_announces h.wellFormed displayName now roomId accountId sessionId with
      ⟨hevent, hactive⟩ | ⟨hevent, hyes, hactive⟩
    · rw [hevent]
      exact h.of_store hw hactive hrooms
    · rw [hevent] at hconserved ⊢
      dsimp only at hconserved ⊢
      have hturn := h.turn (passages_of_left · · ⟨roomId, accountId, displayName accountId⟩)
        (h.active roomId accountId hyes)
        (fun r a => by rw [hactive r a]; split <;> simp [*]) hrooms
      refine ⟨hw, hconserved, fun r a => ?_, fun r a => (hturn r a).1, fun r a => (hturn r a).2.1,
        fun r a => (hturn r a).2.2⟩
      rw [passages_append, passages_append, List.count_append, List.count_append, h.lefts]
  | delete roomId =>
    have hrooms : (s.store.deleteRoom roomId).rooms.Sublist s.store.rooms := List.filter_sublist
    refine ⟨h.wellFormed.of_sublist (deleteRoom_members s.store roomId), hconserved, h.lefts,
      h.alternates, fun r a ha => h.active r a ((activeIn_deleteRoom _ _ _ _).mp ha).2,
      fun r a hn => ?_⟩
    by_cases hr : r = roomId
    · refine .inr (List.find?_eq_none.mpr fun room hroom => ?_)
      have hne := (List.mem_filter.mp hroom).2
      rw [hr]
      simpa using hne
    · rcases h.inactive r a hn with hyes | hnone
      · exact .inl ((activeIn_deleteRoom _ _ _ _).mpr ⟨hr, hyes⟩)
      · exact .inr (findRoomById_none_of_sublist hrooms hnone)
  | flush => exact ⟨h.wellFormed, hconserved, h.lefts, h.alternates, h.active, h.inactive⟩
  | publish thread =>
    unfold Lobby.step at hconserved ⊢
    dsimp only at hconserved ⊢
    rcases s.publish_cases thread with heq | ⟨batch, rest, _, heq, _⟩
    · rw [heq]
      exact h
    · rw [heq] at hconserved ⊢
      refine ⟨h.wellFormed, hconserved, fun r a => ?_, h.alternates, h.active, h.inactive⟩
      rw [passages_append, List.count_append, h.lefts, passages_singleton, passages_notice]
      refine (Nat.add_zero _).symm ▸ congrArg _ (List.count_eq_zero.mpr fun hl => ?_)
      obtain ⟨_, _, hx⟩ := List.mem_map.mp hl
      cases hx

/-! ## Published in order -/

/-- What is published of an account in a room is what happened to it, as far as it goes. -/
def Ordered (s : Lobby) : Prop :=
  ∀ r a, passages r a s.published <+: passages r a s.happened

/-- What is still to come of an account is one joined event at most. -/
theorem Tracked.behind {s : Lobby} (h : s.Tracked) {r a : String}
    (ho : passages r a s.published <+: passages r a s.happened) :
    ∃ missing, passages r a s.happened = passages r a s.published ++ missing ∧
      (∀ x ∈ missing, x = .joined) ∧ missing.length ≤ 1 ∧
      missing.length = (s.inFlight.filter (joinedOf r a)).length := by
  obtain ⟨missing, hm⟩ := ho
  have hlefts := h.lefts r a
  rw [← hm, List.count_append] at hlefts
  have hjoined : ∀ x ∈ missing, x = .joined := by
    intro x hx
    cases x with
    | joined => rfl
    | left => exact absurd hx (List.count_eq_zero.mp (by omega))
  have halt := h.alternates r a
  rw [← hm] at halt
  refine ⟨missing, hm.symm, hjoined, halt.length_le_one hjoined, ?_⟩
  have hcount := (h.conserved.filter (joinedOf r a)).length_eq
  rw [List.filter_append, List.length_append, ← count_joined, ← count_joined, ← hm,
    List.count_append] at hcount
  have hall : missing.count .joined = missing.length :=
    List.count_eq_length.mpr fun x hx => (hjoined x hx).symm
  omega

/-- A leave that ends a membership finds no joined event of it on its way. -/
def Admits (s : Lobby) : Step → Prop
  | .leave _ _ roomId accountId sessionId => EndsMembership s.store roomId accountId sessionId →
    ∀ e ∈ s.inFlight, joinedOf roomId accountId e = false
  | _ => True

theorem ordered_join {s : Lobby} (ho : s.Ordered) (run : JoinRun) : (s.join run).Ordered := by
  unfold Lobby.join
  split
  · exact ho
  · intro r a
    dsimp only
    rw [passages_append]
    exact (ho r a).trans (List.prefix_append _ _)

theorem ordered_publish {s : Lobby} (h : s.Tracked) (ho : s.Ordered) (thread : Nat) :
    (s.publish thread).Ordered := by
  rcases s.publish_cases thread with heq | ⟨batch, rest, _, heq, hperm⟩
  · rw [heq]
    exact ho
  · intro r a
    obtain ⟨missing, hm, hjoined, hone, hlength⟩ := h.behind (ho r a)
    -- The events of the batch are among those on their way, and of this account there is one.
    have hfew : (batch.2.filter (joinedOf r a)).length ≤ missing.length := by
      rw [hlength, (hperm.filter _).length_eq, List.filter_append, List.length_append]
      exact Nat.le_add_right _ _
    rw [heq]
    dsimp only
    rw [passages_append, passages_singleton, passages_notice, hm]
    refine (List.prefix_append_right_inj _).mpr ?_
    match missing, hone with
    | [], _ =>
      have hnil := List.eq_nil_of_length_eq_zero (Nat.le_zero.mp hfew)
      rw [hnil]
      exact List.prefix_refl _
    | [x], _ =>
      rw [hjoined x List.mem_cons_self]
      match hb : batch.2.filter (joinedOf r a), hfew with
      | [], _ => exact List.nil_prefix
      | [_], _ => exact List.prefix_refl _

theorem ordered_leave {s : Lobby} (h : s.Tracked) (ho : s.Ordered) (e : RoomLeftEvent) :
    (∀ r a, passages r a (s.published ++ [.left e]) <+: passages r a (s.happened ++ [.left e])) ↔
      ∀ x ∈ s.inFlight, joinedOf e.roomId e.accountId x = false := by
  have hself : (Notice.left e).passages e.roomId e.accountId = [.left] := by
    rw [passages_of_left, if_pos rfl]
  obtain ⟨missing, hm, hjoined, _, hlength⟩ := h.behind (ho e.roomId e.accountId)
  have hnone : (∀ x ∈ s.inFlight, joinedOf e.roomId e.accountId x = false) ↔ missing = [] := by
    rw [← List.length_eq_zero_iff, hlength, List.length_eq_zero_iff, List.filter_eq_nil_iff]
    simp only [Bool.not_eq_true]
  rw [hnone]
  constructor
  · intro hall
    have hp := hall e.roomId e.accountId
    rw [passages_append, passages_append, passages_singleton, hself, hm, List.append_assoc,
      List.prefix_append_right_inj] at hp
    cases missing with
    | nil => rfl
    | cons x rest =>
      obtain ⟨hx, _⟩ := List.cons_prefix_cons.mp hp
      rw [hjoined x List.mem_cons_self] at hx
      cases hx
  · intro hempty r a
    rw [passages_append, passages_append, passages_singleton, passages_of_left]
    by_cases hra : (r, a) = (e.roomId, e.accountId)
    · obtain ⟨rfl, rfl⟩ := Prod.mk.inj hra
      rw [hm, hempty, List.append_nil]
    · rw [if_neg hra, List.append_nil, List.append_nil]
      exact ho r a

theorem ordered_step {s : Lobby} (h : s.Tracked) (ho : s.Ordered) (i : Step) :
    (s.step i).Ordered ↔ s.Admits i := by
  cases i with
  | join displayName now roomId accountId sessionId role =>
    exact iff_of_true (ordered_join ho _) trivial
  | leave displayName now roomId accountId sessionId =>
    have hends :=
      leaveRoom_event_eq_none_iff h.wellFormed displayName now roomId accountId sessionId
    unfold Lobby.step Lobby.leave Admits
    dsimp only
    rcases leaveRoom_announces h.wellFormed displayName now roomId accountId sessionId with
      ⟨hevent, _⟩ | ⟨hevent, _⟩
    · rw [hevent]
      exact iff_of_true ho fun hyes => absurd hyes (hends.mp hevent)
    · rw [hevent]
      have hyes : EndsMembership s.store roomId accountId sessionId := by
        by_contra hno
        rw [hends.mpr hno] at hevent
        cases hevent
      exact (ordered_leave h ho _).trans ⟨fun hall _ => hall, fun hall => hall hyes⟩
  | delete roomId => exact iff_of_true ho trivial
  | flush => exact iff_of_true ho trivial
  | publish thread => exact iff_of_true (ordered_publish h ho thread) trivial

theorem start_tracked (rooms : List Room) : (start rooms).Tracked where
  wellFormed := ⟨List.nodup_nil, fun _ h => by cases h⟩
  conserved := List.Perm.refl _
  lefts _ _ := rfl
  alternates _ _ := trivial
  active r a h := by
    obtain ⟨_, hm, _⟩ := h
    cases hm
  inactive r a h := by cases h

/-- Every joined event is published once or on its way; stopping publishes all that is in the
buffer; and what is published of an account in a room takes turns, beginning with joined, in the
order in which it happened. -/
structure Announced (s : Lobby) : Prop where
  once : (joins s.happened).Perm (joins s.published ++ s.inFlight)
  stopped : s.stop.pending = .empty ∧ s.stop.flushing = s.flushing ++ [[]] ∧
    joins s.stop.published = joins s.published ++ s.pending.entries.flatMap Prod.snd
  turns : ∀ r a, AlternatesFrom .joined (passages r a s.published)
  ordered : s.Ordered

theorem announced_iff {s : Lobby} (h : s.Tracked) : s.Announced ↔ s.Ordered := by
  refine ⟨fun ha => ha.ordered, fun ho => ⟨h.conserved, ⟨?_, ?_, s.joins_stop⟩,
    fun r a => AlternatesFrom.of_prefix (h.alternates r a) (ho r a), ho⟩⟩
  · rw [stop_eq]
  · rw [stop_eq]

/-- Joins and leaves are announced properly all along a run exactly when no leave of it ends a
membership whose joined event has not been published. -/
theorem announced_all_along_iff (rooms : List Room) (steps : List Step) :
    (∀ before, before <+: steps → (Machine.run step (start rooms) before).Announced) ↔
      Machine.Guarded step Admits (start rooms) steps := by
  have htracked : ∀ before, (Machine.run step (start rooms) before).Tracked := fun before =>
    Machine.run_inv Tracked (fun _ i h => h.step i) (start_tracked rooms) before
  rw [← Machine.guarded_iff Tracked Ordered (fun _ i h => h.step i)
    (fun _ i h ho => ordered_step h ho i) (start_tracked rooms)
    (fun _ _ => List.prefix_refl _) steps]
  exact forall₂_congr fun before _ => announced_iff (htracked before)

/-- An account looks in and leaves before the batcher has got round to its joined event. -/
theorem left_before_joined :
    ¬ ∀ (rooms : List Room) (steps : List Step),
      (Machine.run step (start rooms) steps).Announced := by
  intro h
  have hturns := (h [{ roomId := "r", name := "general" }]
    [.join id "" "r" "a" "s" "member", .leave id "" "r" "a" "s"]).turns "r" "a"
  obtain ⟨hfirst, _⟩ := hturns
  cases hfirst

end Lobby

end IrisMind.Rooms
