import IrisMind.Memory.Jsonl
import IrisMind.Lib.Wire
import Mathlib.Algebra.Group.Int.Defs

/-! # Writes that fail

A store changes its list of records before it writes it, and keeps the changed
list when the writing fails; `update` asks the model about a record only after
the record is in the file. What a call that raises leaves behind is compared
with what was there, through the answers of every later call: they depend on the
list of records alone, whether it is in the cache or in the file. -/
namespace IrisMind.Memory
open IrisMind.Lib

/-- What a store relies on: which records can be written, how values compare, and which records
its model accepts. -/
structure Backend (M : Type) extends JsonText where
  serialises : Json → Bool
  same : Json → Json → Bool
  validate : Json → Option M

/-- The calls of a `_JsonlStore` and an `_IdIndexedJsonlStore`. The file system decides whether it
takes the file that a call writes. -/
inductive StoreCall where
  | loadAll
  | find (itemId : String)
  | listAll
  | listFiltered (filters : List (String × Json))
  | addEntry (entry : Json) (maxEntries : Nat) (taken : Bool)
  | add (data : Json) (taken : Bool)
  | update (itemId : String) (changes : List (String × Json)) (now : String) (taken : Bool)

inductive StoreAnswer (M : Type) where
  | raised
  | none
  | rows (entries : List Json)
  | item (m : M)
  | items (ms : List M)

/-- Where the record with an id is in a list. -/
inductive Located where
  | absent
  /-- A line before it is no object, which has no `get`. -/
  | broken
  | found (front : List Json) (fields : List (String × Json)) (back : List Json)

def Located.behind (e : Json) : Located → Located
  | .found front fields back => .found (e :: front) fields back
  | place => place

/-- `fields.get("id") == item_id` -/
def idIs (itemId : String) (fields : List (String × Json)) : Bool :=
  match Dict.lookup "id" fields with
  | some (.str s) => s == itemId
  | _ => false

def locate (itemId : String) : List Json → Located
  | [] => .absent
  | .obj fields :: es =>
    if idIs itemId fields then .found [] fields es else (locate itemId es).behind (.obj fields)
  | _ :: _ => .broken

/-- `entry.update(changes)` and the time of the update. -/
def changed (changes : List (String × Json)) (now : String) (fields : List (String × Json)) :
    List (String × Json) :=
  Dict.write "updated_at" (.str now)
    (changes.foldl (fun fields c => Dict.write c.1 c.2 fields) fields)

namespace Backend

variable {M : Type} (b : Backend M)

/-- `_flush` with a list in the cache, which stays there when the list is not written. -/
def flushed (s : JsonlStore) (entries : List Json) (taken : Bool) : Bool × JsonlStore :=
  let s := { s with cache := some entries }
  if taken && entries.all b.serialises then
    match s.flush b.toJsonText with
    | some s => (true, s)
    | none => (false, s)
  else (false, s)

/-- Whether an entry has the values of the filters; what is no object cannot be asked for one. -/
def fits (filters : List (String × Json)) : Json → Option Bool
  | .obj fields =>
    some (filters.all fun f => b.same ((Dict.lookup f.1 fields).getD .null) f.2)
  | _ => if filters.isEmpty then some true else none

def filtered (filters : List (String × Json)) : List Json → Option (List M)
  | [] => some []
  | e :: es => do
    if ← b.fits filters e then
      let m ← b.validate e
      return m :: (← filtered filters es)
    else filtered filters es

def call (s : JsonlStore) (c : StoreCall) : StoreAnswer M × JsonlStore :=
  let (entries, s) := s.loadAll b.toJsonText
  match c with
  | .loadAll => (.rows entries, s)
  | .find itemId => match locate itemId entries with
    | .absent => (.none, s)
    | .broken => (.raised, s)
    | .found _ fields _ => (((b.validate (.obj fields)).map .item).getD .raised, s)
  | .listAll => (((entries.mapM b.validate).map .items).getD .raised, s)
  | .listFiltered filters => (((b.filtered filters entries).map .items).getD .raised, s)
  | .addEntry entry maxEntries taken =>
    let (written, s) := b.flushed s (JsonlStore.lastEntries maxEntries (entries ++ [entry])) taken
    (if written then .none else .raised, s)
  | .add data taken =>
    let (written, s) := b.flushed s (entries ++ [data]) taken
    (if written then .none else .raised, s)
  | .update itemId changes now taken => match locate itemId entries with
    | .absent => (.none, s)
    | .broken => (.raised, s)
    | .found front fields back =>
      let entry := .obj (changed changes now fields)
      let (written, s) := b.flushed s (front ++ entry :: back) taken
      (if written then ((b.validate entry).map .item).getD .raised else .raised, s)

def answers : JsonlStore → List StoreCall → List (StoreAnswer M)
  | _, [] => []
  | s, c :: cs => (b.call s c).1 :: answers (b.call s c).2 cs

/-! ## Only the records matter -/

/-- What `load_all` returns. -/
def records (s : JsonlStore) : List Json := (s.loadAll b.toJsonText).1

/-- What is left of a list that is flushed. -/
def kept (entries : List Json) (taken : Bool) : Bool × List Json :=
  if taken && entries.all b.serialises then (true, entries.flatMap (pieces b.toJsonText))
  else (false, entries)

/-- The calls on a list of records that is nowhere else. -/
def onRecords (entries : List Json) (c : StoreCall) : StoreAnswer M × List Json :=
  match c with
  | .loadAll => (.rows entries, entries)
  | .find itemId => match locate itemId entries with
    | .absent => (.none, entries)
    | .broken => (.raised, entries)
    | .found _ fields _ => (((b.validate (.obj fields)).map .item).getD .raised, entries)
  | .listAll => (((entries.mapM b.validate).map .items).getD .raised, entries)
  | .listFiltered filters => (((b.filtered filters entries).map .items).getD .raised, entries)
  | .addEntry entry maxEntries taken =>
    let (written, entries) := b.kept (JsonlStore.lastEntries maxEntries (entries ++ [entry])) taken
    (if written then .none else .raised, entries)
  | .add data taken =>
    let (written, entries) := b.kept (entries ++ [data]) taken
    (if written then .none else .raised, entries)
  | .update itemId changes now taken => match locate itemId entries with
    | .absent => (.none, entries)
    | .broken => (.raised, entries)
    | .found front fields back =>
      let entry := .obj (changed changes now fields)
      let (written, entries) := b.kept (front ++ entry :: back) taken
      (if written then ((b.validate entry).map .item).getD .raised else .raised, entries)

variable {b} {s t : JsonlStore}

theorem records_loadAll : b.records (s.loadAll b.toJsonText).2 = b.records s := by
  unfold records JsonlStore.loadAll
  cases hcache : s.cache with
  | some entries => simp only [hcache]
  | none => rfl

theorem records_flushed (s : JsonlStore) (entries : List Json) (taken : Bool) :
    (b.flushed s entries taken).1 = (b.kept entries taken).1 ∧
      b.records (b.flushed s entries taken).2 = (b.kept entries taken).2 := by
  unfold flushed kept
  dsimp only
  split
  · exact ⟨rfl, load_joinRecords entries⟩
  · exact ⟨rfl, rfl⟩

/-- A store behaves as its list of records does. -/
theorem call_records (s : JsonlStore) (c : StoreCall) :
    (b.call s c).1 = (b.onRecords (b.records s) c).1 ∧
      b.records (b.call s c).2 = (b.onRecords (b.records s) c).2 := by
  have hload : b.records (s.loadAll b.toJsonText).2 = b.records s := records_loadAll
  have hentries : (s.loadAll b.toJsonText).1 = b.records s := rfl
  cases c with
  | loadAll => exact ⟨rfl, hload⟩
  | listAll => exact ⟨rfl, hload⟩
  | listFiltered filters => exact ⟨rfl, hload⟩
  | find itemId =>
    simp only [call, onRecords, hentries]
    cases locate itemId (b.records s) <;> exact ⟨rfl, hload⟩
  | addEntry entry maxEntries taken =>
    obtain ⟨hwritten, hrecords⟩ := b.records_flushed (s.loadAll b.toJsonText).2
      (JsonlStore.lastEntries maxEntries (b.records s ++ [entry])) taken
    exact ⟨by simp only [call, onRecords, hentries, hwritten], hrecords⟩
  | add data taken =>
    obtain ⟨hwritten, hrecords⟩ := b.records_flushed (s.loadAll b.toJsonText).2
      (b.records s ++ [data]) taken
    exact ⟨by simp only [call, onRecords, hentries, hwritten], hrecords⟩
  | update itemId changes now taken =>
    simp only [call, onRecords, hentries]
    cases locate itemId (b.records s) with
    | absent => exact ⟨rfl, hload⟩
    | broken => exact ⟨rfl, hload⟩
    | found front fields back =>
      obtain ⟨hwritten, hrecords⟩ := b.records_flushed (s.loadAll b.toJsonText).2
        (front ++ .obj (changed changes now fields) :: back) taken
      exact ⟨by simp only [hwritten], hrecords⟩

/-- What later calls answer depends on the records alone. -/
theorem answers_of_records (h : b.records s = b.records t) (cs : List StoreCall) :
    b.answers s cs = b.answers t cs := by
  induction cs generalizing s t with
  | nil => rfl
  | cons c cs ih =>
    obtain ⟨hs, hsnext⟩ := b.call_records s c
    obtain ⟨ht, htnext⟩ := b.call_records t c
    have hnext : b.records (b.call s c).2 = b.records (b.call t c).2 := by rw [hsnext, htnext, h]
    rw [answers, answers, ih hnext, hs, ht, h]

/-- Two stores cannot be told apart exactly if they have the same records. -/
theorem answers_iff : (∀ cs, b.answers s cs = b.answers t cs) ↔ b.records s = b.records t := by
  refine ⟨fun h => ?_, answers_of_records⟩
  have hfirst := h [.loadAll]
  simpa [answers, call, records] using hfirst

/-! ## When a call that raises leaves no trace -/

theorem locate_found {itemId : String} {front back : List Json} {fields : List (String × Json)} :
    ∀ {entries : List Json}, locate itemId entries = .found front fields back →
      front ++ .obj fields :: back = entries := by
  intro entries h
  induction entries generalizing front with
  | nil => cases h
  | cons e es ih =>
    cases e with
    | obj found =>
      rw [locate] at h
      split at h
      · obtain ⟨rfl, rfl, rfl⟩ := Located.found.inj h
        rfl
      · cases hrest : locate itemId es with
        | found front' fields' back' =>
          rw [hrest] at h
          obtain ⟨rfl, rfl, rfl⟩ := Located.found.inj h
          rw [List.cons_append, ih hrest]
        | _ => rw [hrest] at h; cases h
    | _ => cases h

/-- A list that could not be written is what is left. -/
theorem kept_of_raised {entries : List Json} {taken : Bool}
    (h : (if (b.kept entries taken).1 then .none else .raised : StoreAnswer M) = .raised) :
    (b.kept entries taken).2 = entries := by
  unfold kept at h ⊢
  split at h
  · cases h
  · rw [if_neg ‹_›]

/-- What a call has to meet for nothing to be left of it should it raise: an entry is the very
record of which the store is full; an update stops before it finds the record, or its changes are
in the record already and, where the model refuses a record that has been written, the file is
read as the list was. -/
def Harmless (entries : List Json) : StoreCall → Prop
  | .addEntry entry maxEntries _ => 0 < maxEntries ∧ entries = List.replicate maxEntries entry
  | .add .. => False
  | .update itemId changes now taken => match locate itemId entries with
    | .found front fields back =>
      let entries' := front ++ .obj (changed changes now fields) :: back
      if taken && entries'.all b.serialises then entries'.flatMap (pieces b.toJsonText) = entries
      else changed changes now fields = fields
    | _ => True
  | _ => True

theorem append_eq_cons_iff {e : Json} {l : List Json} : ∀ {a : Json},
    l ++ [e] = a :: l ↔ a :: l = List.replicate (l.length + 1) e := by
  induction l with
  | nil => simp [eq_comm]
  | cons x l ih =>
    intro a
    rw [List.cons_append, List.cons.injEq, ih, List.length_cons,
      List.replicate_succ (n := l.length + 1), List.cons.injEq]
    constructor
    · rintro ⟨rfl, h⟩
      exact ⟨(List.cons.inj h).1, h⟩
    · rintro ⟨rfl, h⟩
      exact ⟨(List.cons.inj h).1, h⟩

/-- The last records of a list to which one has been added are the list itself exactly if the list
is full of that record. -/
theorem lastEntries_append_iff {entries : List Json} {entry : Json} {maxEntries : Nat} :
    JsonlStore.lastEntries maxEntries (entries ++ [entry]) = entries ↔
      0 < maxEntries ∧ entries = List.replicate maxEntries entry := by
  have hmore : entries ++ [entry] ≠ entries := fun h => by simpa using congrArg List.length h
  unfold JsonlStore.lastEntries
  rw [List.length_append, List.length_singleton]
  by_cases hlong : maxEntries < entries.length + 1
  · rw [if_pos hlong]
    by_cases hzero : maxEntries = 0
    · rw [if_pos hzero]
      exact ⟨fun h => absurd h hmore, fun h => absurd hzero h.1.ne'⟩
    · rw [if_neg hzero]
      cases entries with
      | nil => exact absurd (Nat.lt_one_iff.mp hlong) hzero
      | cons a l =>
        have hdrop : maxEntries = l.length + 1 →
            ((a :: l ++ [entry]).drop ((a :: l).length + 1 - maxEntries) = a :: l ↔
              a :: l = List.replicate maxEntries entry) := by
          rintro rfl
          rw [List.length_cons, Nat.add_sub_cancel_left, List.cons_append, List.drop_one,
            List.tail_cons]
          exact append_eq_cons_iff
        constructor
        · intro h
          have hlength := congrArg List.length h
          simp only [List.length_drop, List.length_append, List.length_cons, List.length_nil]
            at hlength hlong
          exact ⟨Nat.pos_of_ne_zero hzero, (hdrop (by omega)).mp h⟩
        · rintro ⟨_, h⟩
          have hlength := congrArg List.length h
          rw [List.length_cons, List.length_replicate] at hlength
          exact (hdrop hlength.symm).mpr h
  · rw [if_neg hlong]
    refine ⟨fun h => absurd h hmore, fun h => ?_⟩
    have hlength := congrArg List.length h.2
    rw [List.length_replicate] at hlength
    omega

/-- A call that raises has changed what later calls answer, unless it was harmless. -/
theorem raised_unseen_iff (b : Backend M) (s : JsonlStore) (c : StoreCall)
    (h : (b.call s c).1 = .raised) :
    (∀ later, b.answers (b.call s c).2 later = b.answers s later) ↔
      b.Harmless (b.records s) c := by
  obtain ⟨hanswer, hrecords⟩ := b.call_records s c
  rw [hanswer] at h
  rw [answers_iff, hrecords]
  cases c with
  | loadAll => exact ⟨fun _ => trivial, fun _ => rfl⟩
  | listAll => exact ⟨fun _ => trivial, fun _ => rfl⟩
  | listFiltered filters => exact ⟨fun _ => trivial, fun _ => rfl⟩
  | find itemId =>
    refine ⟨fun _ => trivial, fun _ => ?_⟩
    simp only [onRecords]
    cases locate itemId (b.records s) <;> rfl
  | addEntry entry maxEntries taken =>
    have hkept : (b.kept (JsonlStore.lastEntries maxEntries (b.records s ++ [entry])) taken).2 =
        JsonlStore.lastEntries maxEntries (b.records s ++ [entry]) := kept_of_raised h
    simp only [onRecords, hkept]
    exact lastEntries_append_iff
  | add data taken =>
    have hkept : (b.kept (b.records s ++ [data]) taken).2 = b.records s ++ [data] :=
      kept_of_raised h
    simp only [onRecords, hkept]
    exact ⟨fun hsame => by simpa using congrArg List.length hsame, False.elim⟩
  | update itemId changes now taken =>
    simp only [onRecords, Harmless]
    cases hplace : locate itemId (b.records s) with
    | absent => exact ⟨fun _ => trivial, fun _ => rfl⟩
    | broken => exact ⟨fun _ => trivial, fun _ => rfl⟩
    | found front fields back =>
      have hlist : front ++ .obj fields :: back = b.records s := locate_found hplace
      simp only [kept]
      split
      · exact Iff.rfl
      · rw [← hlist]
        simp

end Backend

/-- A library that knows one record and does not write integers beyond 64 bits. -/
def memoBackend : Backend Json where
  toJsonText := .ofTable plainWriter [memo]
  serialises
    | .obj fields => fields.all fun
      | (_, .int n) => -2 ^ 63 ≤ n && n < 2 ^ 64
      | _ => true
    | _ => true
  same
    | .str s, .str s' => s == s'
    | _, _ => false
  validate := some

/-- A store that is full of copies of a record does not show that another one was lost. -/
theorem full_store_unseen :
    memoBackend.answers (memoBackend.call { cache := some [memo] } (.addEntry memo 1 false)).2
      [.loadAll, .find "m"] =
        memoBackend.answers { cache := some [memo] } [.loadAll, .find "m"] :=
  (memoBackend.raised_unseen_iff { cache := some [memo] } (.addEntry memo 1 false) rfl).mpr
    ⟨Nat.one_pos, rfl⟩ [.loadAll, .find "m"]

/-- A record with an integer of 65 bits. -/
def bigMemo : Json := .obj [("content", .str "tea at five"), ("stamp", .int (2 ^ 64))]

/-- The record is not written and is there all the same, and no later record can be written. -/
theorem bigMemo_seen :
    ¬ ∀ (b : Backend Json) (s : JsonlStore) (c : StoreCall), (b.call s c).1 = .raised →
      ∀ later, b.answers (b.call s c).2 later = b.answers s later := by
  intro h
  have hsame := h memoBackend {} (.addEntry bigMemo 30 true) rfl
    [.loadAll, .addEntry memo 30 true]
  have hafter : memoBackend.answers (memoBackend.call {} (.addEntry bigMemo 30 true)).2
      [.loadAll, .addEntry memo 30 true] = [.rows [bigMemo], .raised] := rfl
  have hbefore : memoBackend.answers {} [.loadAll, .addEntry memo 30 true] =
      [.rows [], .none] := rfl
  rw [hafter, hbefore] at hsame
  cases hsame

end IrisMind.Memory
