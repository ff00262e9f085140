import IrisMind.Lib.FirstSeen
import IrisMind.Lib.Machine
import IrisMind.Memory.CandidateStore
import IrisMind.Memory.Records

/-! # Snapshots of relationships

For each account and room one snapshot is kept, under an id that is made of the two. Another save
replaces the snapshot and adds its source records; an account is loaded from its global snapshot,
or else from the first one there is. -/
namespace IrisMind.Limbic
open IrisMind.Lib IrisMind.Memory

/-- A snapshot of a state. -/
structure RelationshipSnapshot (σ : Type) where
  id : String
  accountId : String
  roomId : String
  state : σ
  updatedAt : String
  sourceRecordIds : List String
  allSourceRecordIds : List String := []

/-- What the store relies on: JSON lines, states that are read as they are dumped, and what is
there for a record without an id, a time or a state. -/
structure SnapshotSetup (σ : Type) extends JsonText where
  serialises : Json → Bool
  same : Json → Json → Bool
  dumpState : σ → Json
  readState : Json → Option σ
  readState_dumpState : ∀ x, readState (dumpState x) = some x
  newId : String
  now : String
  initial : σ

/-- A call of `save_snapshot`. The snapshot is made at one time and written at another. -/
structure SnapshotSave (σ : Type) where
  accountId : String
  state : σ
  roomId : String := ""
  sourceRecordIds : List String := []
  madeAt : String
  now : String
  taken : Bool

def SnapshotSave.pair {σ : Type} (v : SnapshotSave σ) : String × String := (v.accountId, v.roomId)

/-- The store, and what has been saved, in order. -/
structure SnapshotWorld (σ : Type) where
  store : JsonlStore
  saves : List (SnapshotSave σ) := []

namespace RelationshipSnapshot

variable {σ : Type}

/-- `_compose_id` -/
def composeId (accountId roomId : String) : String :=
  if roomId ≠ "" then accountId ++ "::" ++ roomId else accountId ++ "::__global__"

def make (v : SnapshotSave σ) : RelationshipSnapshot σ where
  id := composeId v.accountId v.roomId
  accountId := v.accountId
  roomId := v.roomId
  state := v.state
  updatedAt := v.madeAt
  sourceRecordIds := v.sourceRecordIds

def pair (m : RelationshipSnapshot σ) : String × String := (m.accountId, m.roomId)

variable (u : SnapshotSetup σ)

def fields (m : RelationshipSnapshot σ) : List (String × Json) :=
  [("id", .str m.id), ("account_id", .str m.accountId), ("room_id", .str m.roomId),
    ("state", u.dumpState m.state), ("updated_at", .str m.updatedAt),
    ("source_record_ids", .arr (m.sourceRecordIds.map .str)),
    ("all_source_record_ids", .arr (m.allSourceRecordIds.map .str))]

def ofFields (get : String → Option Json) : Option (RelationshipSnapshot σ) := do
  let id ← fieldOr readText u.newId (get "id")
  let accountId ← fieldOr readText "" (get "account_id")
  let roomId ← fieldOr readText "" (get "room_id")
  let state ← fieldOr u.readState u.initial (get "state")
  let updatedAt ← fieldOr readText u.now (get "updated_at")
  let sourceRecordIds ← fieldOr readTexts [] (get "source_record_ids")
  let allSourceRecordIds ← fieldOr readTexts [] (get "all_source_record_ids")
  return { id, accountId, roomId, state, updatedAt, sourceRecordIds, allSourceRecordIds }

def modelValidate : Json → Option (RelationshipSnapshot σ)
  | .obj fields => ofFields u fun k => Dict.lookup k fields
  | _ => none

theorem validates (m : RelationshipSnapshot σ) (es : List (String × Json))
    (h : ∀ f ∈ m.fields u, Dict.lookup f.1 es = some f.2) :
    modelValidate u (.obj es) = some m := by
  simp only [fields, List.forall_mem_cons] at h
  simp [modelValidate, ofFields, h, fieldOr, readText, u.readState_dumpState,
    StoredCandidate.readTexts_map]

end RelationshipSnapshot
open RelationshipSnapshot

namespace SnapshotSetup

variable {σ : Type} (u : SnapshotSetup σ)

def store : RecordStore (RelationshipSnapshot σ) where
  toJsonText := u.toJsonText
  serialises := u.serialises
  same := u.same
  validate := modelValidate u
  fields := fields u
  id m := m.id
  id_field _ := List.mem_cons_self
  nodup m := by
    show ["id", "account_id", "room_id", "state", "updated_at", "source_record_ids",
      "all_source_record_ids"].Nodup
    decide
  validates := validates u

/-- How a save writes, with what it has found under the id. -/
def writeOf (s : JsonlStore) (v : SnapshotSave σ) : Option StoreCall :=
  let snap := make v
  match (u.store.call s (.find snap.id)).1 with
  | .item existing =>
    let merged := (existing.allSourceRecordIds ++ snap.sourceRecordIds).eraseDups
    let changes := fields u { snap with allSourceRecordIds := merged }
    some (.update snap.id changes v.now v.taken)
  | .none =>
    let snap := if snap.sourceRecordIds = [] then snap
      else { snap with allSourceRecordIds := snap.sourceRecordIds }
    some (.add (u.store.modelDump snap) v.taken)
  | _ => none

def saveSnapshot (s : JsonlStore) (v : SnapshotSave σ) : JsonlStore :=
  let (_, found) := u.store.call s (.find (RelationshipSnapshot.composeId v.accountId v.roomId))
  match u.writeOf s v with
  | some write => (u.store.call found write).2
  | none => found

/-- Nothing comes of it where a listing raises. -/
def loadForAccount (s : JsonlStore) (accountId : String) :
    Option (Option (RelationshipSnapshot σ)) :=
  match (u.store.call s .listAll).1 with
  | .items found => some ((found.find? (·.id = accountId ++ "::__global__")).or
      (found.find? (·.accountId = accountId)))
  | _ => none

def step (w : SnapshotWorld σ) (v : SnapshotSave σ) : SnapshotWorld σ where
  store := u.saveSnapshot w.store v
  saves := w.saves ++ [v]

/-! ## What is promised -/

def savesOf (saves : List (SnapshotSave σ)) (p : String × String) : List (SnapshotSave σ) :=
  saves.filter (·.pair = p)

def inAccount (accountId : String) (p : String × String) : Bool := p.1 = accountId

/-- The account and the room whose snapshot an account is to be loaded from. -/
def due (saves : List (SnapshotSave σ)) (accountId : String) : Option (String × String) :=
  if (saves.map SnapshotSave.pair).contains (accountId, "") then some (accountId, "")
  else ((saves.map SnapshotSave.pair).filter (inAccount accountId)).getLast?

/-- What is promised of the snapshots that are kept. -/
structure Promised (w : SnapshotWorld σ) (ms : List (RelationshipSnapshot σ)) : Prop where
  keeps : u.store.Keeps w.store ms
  pairs : ms.map pair = (w.saves.map SnapshotSave.pair).eraseDups
  latest : ∀ m ∈ ms, ((savesOf w.saves m.pair).getLast?).map (·.state) = some m.state
  ids : ∀ m ∈ ms, m.allSourceRecordIds =
    ((savesOf w.saves m.pair).flatMap (·.sourceRecordIds)).eraseDups
  loads : ∀ accountId, ∃ found, u.loadForAccount w.store accountId = some found ∧
    found.map pair = due w.saves accountId ∧ ∀ m, found = some m → m ∈ ms

def idOf (p : String × String) : String := RelationshipSnapshot.composeId p.1 p.2

/-- A save that the store can tell from the others: no other account and room that were saved, and
no other account's global snapshot, have its id. The source records of a first save differ from each
other, and unless there is a global snapshot of the account, its first snapshot is the one. -/
structure Apart (saves : List (SnapshotSave σ)) (v : SnapshotSave σ) : Prop where
  id : ∀ p, p ∈ saves.map SnapshotSave.pair ∨ p.2 = "" ∧ p.1 ≠ v.accountId →
    idOf p = idOf v.pair → p = v.pair
  first : v.pair ∉ saves.map SnapshotSave.pair → v.sourceRecordIds.Nodup
  room : v.roomId = "" ∨ (v.accountId, "") ∈ saves.map SnapshotSave.pair ∨
    (saves.map SnapshotSave.pair ++ [v.pair]).find? (inAccount v.accountId) = some v.pair

/-- No text that is written has a line boundary beyond ASCII. -/
def Whole (v : SnapshotSave σ) : Prop :=
  (u.store.modelDump (make v)).Unbroken ∧ (Json.str v.now).Unbroken

/-- What a save writes can be read again. -/
def Reads (s : JsonlStore) (v : SnapshotSave σ) : Prop :=
  ∀ write, u.writeOf s v = some write → u.store.Reads
    (u.store.call s (.find (RelationshipSnapshot.composeId v.accountId v.roomId))).2 write

/-! ## One save -/

/-- The snapshot in place of another one. -/
def merged (v : SnapshotSave σ) (existing : RelationshipSnapshot σ) : RelationshipSnapshot σ :=
  { make v with
    updatedAt := v.now
    allSourceRecordIds := (existing.allSourceRecordIds ++ v.sourceRecordIds).eraseDups }

/-- The first snapshot of an account and a room. -/
def first (v : SnapshotSave σ) : RelationshipSnapshot σ :=
  { make v with allSourceRecordIds := v.sourceRecordIds }

def saved (v : SnapshotSave σ) (ms : List (RelationshipSnapshot σ)) :
    List (RelationshipSnapshot σ) :=
  match ms.find? (u.store.hasId (idOf v.pair)) with
  | some m => Rows.replaceFirst (u.store.hasId (idOf v.pair)) (merged v m) ms
  | none => ms ++ [first v]

variable {u} {s : JsonlStore} {ms : List (RelationshipSnapshot σ)} {v : SnapshotSave σ}

theorem unbroken_ids {ids : List String} : (Json.arr (ids.map .str)).Unbroken ↔
    ∀ id ∈ ids, (Json.str id).Unbroken := by
  unfold Json.Unbroken
  induction ids with
  | nil => simp [Json.texts, Json.itemTexts]
  | cons id ids ih =>
    simp only [Json.texts] at ih
    simp only [List.map_cons, Json.texts, Json.itemTexts, List.forall_mem_append, ih,
      List.forall_mem_cons]

/-- A snapshot with other source records is whole when they are. -/
theorem unbroken_make {m : RelationshipSnapshot σ} (h : (Json.obj (fields u m)).Unbroken)
    {ids : List String} (hids : ∀ id ∈ ids, (Json.str id).Unbroken) :
    (Json.obj (fields u { m with allSourceRecordIds := ids })).Unbroken := by
  rw [Json.unbroken_obj] at h ⊢
  simp only [fields, List.forall_mem_cons] at h ⊢
  simp only [h, unbroken_ids.mpr hids, List.not_mem_nil, false_implies, implies_true, and_self]

theorem unbroken_source {m : RelationshipSnapshot σ} (h : (Json.obj (fields u m)).Unbroken) :
    (∀ id ∈ m.sourceRecordIds, (Json.str id).Unbroken) ∧
      ∀ id ∈ m.allSourceRecordIds, (Json.str id).Unbroken := by
  rw [Json.unbroken_obj] at h
  simp only [fields, List.forall_mem_cons] at h
  exact ⟨unbroken_ids.mp h.2.2.2.2.2.1.2, unbroken_ids.mp h.2.2.2.2.2.2.1.2⟩

theorem shows_merged (m : RelationshipSnapshot σ) (es : List (String × Json)) :
    u.store.Shows (changed (fields u { make v with
      allSourceRecordIds := (m.allSourceRecordIds ++ v.sourceRecordIds).eraseDups }) v.now es)
      (merged v m) := by
  refine RecordStore.shows_rewritten (r := u.store) (u.store.nodup _) ?_ es
  show ∀ f ∈ fields u (merged v m), _
  simp only [fields, merged, List.forall_mem_cons]
  refine ⟨?_, ?_, ?_, ?_, ?_, ?_, ?_, by simp⟩
  · exact .inr ⟨by decide, rfl⟩
  · exact .inr ⟨by decide, rfl⟩
  · exact .inr ⟨by decide, rfl⟩
  · exact .inr ⟨by decide, rfl⟩
  · exact .inl ⟨trivial, trivial⟩
  · exact .inr ⟨by decide, rfl⟩
  · exact .inr ⟨by decide, rfl⟩

theorem writeOf_first (h : (u.store.call s (.find (idOf v.pair))).1 = .none) :
    u.writeOf s v = some (.add (u.store.modelDump (first v)) v.taken) := by
  have hanswer : (u.store.call s (.find (make v).id)).1 = .none := h
  rw [writeOf, hanswer]
  by_cases hempty : v.sourceRecordIds = [] <;> simp [make, first, hempty]

/-- The store keeps what a save makes of the snapshots. -/
theorem keeps_saved (h : u.store.Keeps s ms) (hreads : Reads u s v) (hwhole : Whole u v) :
    u.store.Keeps (u.saveSnapshot s v) (saved u v ms) := by
  obtain ⟨hanswer, hfound⟩ := RecordStore.call_find h (idOf v.pair)
  obtain ⟨hmake, hnow⟩ := hwhole
  have hids := (unbroken_source hmake).1
  rw [Reads] at hreads
  rw [saved, saveSnapshot]
  cases hm : ms.find? (u.store.hasId (idOf v.pair)) with
  | none =>
    rw [hm] at hanswer
    have hwrite := writeOf_first hanswer
    rw [hwrite]
    exact RecordStore.call_add hfound (hreads _ hwrite) (unbroken_make hmake hids)
  | some m =>
    rw [hm] at hanswer
    have hwrite : u.writeOf s v = some (.update (idOf v.pair) (fields u { make v with
        allSourceRecordIds := (m.allSourceRecordIds ++ v.sourceRecordIds).eraseDups })
        v.now v.taken) := by
      have hanswer' : (u.store.call s (.find (make v).id)).1 = .item m := hanswer
      rw [writeOf, hanswer']
      rfl
    rw [hwrite]
    have hchange : u.store.change (idOf v.pair) (merged v) ms =
        Rows.replaceFirst (u.store.hasId (idOf v.pair)) (merged v m) ms := by
      rw [RecordStore.change, hm]
    show u.store.Keeps (u.store.call _ _).2 (Rows.replaceFirst _ _ _)
    rw [← hchange]
    refine RecordStore.call_update hfound (hreads _ hwrite) fun es m' hm' hshows hline => ?_
    obtain rfl : m = m' := Option.some.inj (hm.symm.trans hm')
    have hall := (unbroken_source (hshows.unbroken hline)).2
    refine ⟨shows_merged m es, unbroken_changed hline (unbroken_make hmake fun id hid => ?_) hnow⟩
    exact (List.mem_append.mp (List.mem_eraseDups.mp hid)).elim (hall id) (hids id)

/-! ## The snapshots after a save -/

variable {saves : List (SnapshotSave σ)}

/-- The snapshot is that of the saves of its account and room. -/
structure UpToDate (saves : List (SnapshotSave σ)) (m : RelationshipSnapshot σ) : Prop where
  id : m.id = idOf m.pair
  latest : ((savesOf saves m.pair).getLast?).map (·.state) = some m.state
  ids : m.allSourceRecordIds = ((savesOf saves m.pair).flatMap (·.sourceRecordIds)).eraseDups

/-- What the saves keep: the snapshots are up to date, their ids differ, also from those of other
accounts' global snapshots to come, and an account without a global snapshot has one alone. -/
structure Kept (saves : List (SnapshotSave σ)) (ms : List (RelationshipSnapshot σ)) : Prop where
  pairs : ms.map pair = (saves.map SnapshotSave.pair).eraseDups
  rows : ∀ m ∈ ms, UpToDate saves m
  apart : ∀ p ∈ saves.map SnapshotSave.pair, ∀ q,
    q ∈ saves.map SnapshotSave.pair ∨ q.2 = "" ∧ q.1 ≠ p.1 → idOf q = idOf p → q = p
  room : ∀ accountId, (accountId, "") ∉ saves.map SnapshotSave.pair →
    ∀ p ∈ saves.map SnapshotSave.pair, p.1 = accountId →
      (saves.map SnapshotSave.pair).find? (inAccount accountId) = some p

theorem savesOf_concat (saves : List (SnapshotSave σ)) (v : SnapshotSave σ) :
    savesOf (saves ++ [v]) v.pair = savesOf saves v.pair ++ [v] := by
  rw [savesOf, List.filter_append, List.filter_cons_of_pos (by simp)]
  rfl

theorem savesOf_concat_of_ne {p : String × String} (h : p ≠ v.pair) :
    savesOf (saves ++ [v]) p = savesOf saves p := by
  rw [savesOf, List.filter_append, List.filter_cons_of_neg (by simpa using h.symm)]
  exact List.append_nil _

theorem savesOf_eq_nil {p : String × String} (h : p ∉ saves.map SnapshotSave.pair) :
    savesOf saves p = [] := by
  rw [savesOf, List.filter_eq_nil_iff]
  intro v hv hpair
  exact h (List.mem_map.mpr ⟨v, hv, of_decide_eq_true hpair⟩)

theorem UpToDate.other {m : RelationshipSnapshot σ} (h : UpToDate saves m)
    (hne : m.pair ≠ v.pair) : UpToDate (saves ++ [v]) m where
  id := h.id
  latest := by rw [savesOf_concat_of_ne hne, h.latest]
  ids := by rw [savesOf_concat_of_ne hne, h.ids]

theorem UpToDate.merged {m : RelationshipSnapshot σ} (h : UpToDate saves m)
    (hpair : m.pair = v.pair) : UpToDate (saves ++ [v]) (merged v m) where
  id := rfl
  latest := by
    show ((savesOf (saves ++ [v]) v.pair).getLast?).map _ = some v.state
    rw [savesOf_concat, List.getLast?_concat]
    rfl
  ids := by
    show (m.allSourceRecordIds ++ v.sourceRecordIds).eraseDups =
      ((savesOf (saves ++ [v]) v.pair).flatMap (·.sourceRecordIds)).eraseDups
    rw [h.ids, hpair, FirstSeen.eraseDups_eraseDups_append, savesOf_concat, List.flatMap_append,
      List.flatMap_singleton]

theorem upToDate_first (hnew : v.pair ∉ saves.map SnapshotSave.pair)
    (hnodup : v.sourceRecordIds.Nodup) :
    UpToDate (saves ++ [v]) (first v) where
  id := rfl
  latest := by
    show ((savesOf (saves ++ [v]) v.pair).getLast?).map _ = some v.state
    rw [savesOf_concat, List.getLast?_concat]
    rfl
  ids := by
    show v.sourceRecordIds =
      ((savesOf (saves ++ [v]) v.pair).flatMap (·.sourceRecordIds)).eraseDups
    rw [savesOf_concat, savesOf_eq_nil hnew, List.nil_append, List.flatMap_singleton,
      FirstSeen.eraseDups_of_nodup hnodup]

theorem Kept.mem_pairs (h : Kept saves ms) {p : String × String} :
    p ∈ ms.map pair ↔ p ∈ saves.map SnapshotSave.pair := by
  rw [h.pairs, List.mem_eraseDups]

/-- No two snapshots have one id. -/
theorem Kept.nodup_ids (h : Kept saves ms) : (ms.map (·.id)).Nodup := by
  have hids : ms.map (·.id) = (ms.map pair).map idOf := by
    rw [List.map_map]
    exact List.map_congr_left fun m hm => (h.rows m hm).id
  rw [hids, h.pairs]
  refine List.Nodup.map_on (fun p hp q hq heq => ?_) (FirstSeen.nodup_eraseDups _)
  exact h.apart q (List.mem_eraseDups.mp hq) p (.inl (List.mem_eraseDups.mp hp)) heq

/-- A save replaces the snapshot of its account and room, or adds the first one. -/
theorem saved_cases (h : Kept saves ms) (hv : Apart saves v) :
    (∃ m ∈ ms, m.pair = v.pair ∧ ms.find? (u.store.hasId (idOf v.pair)) = some m ∧
      saved u v ms = Rows.replaceFirst (u.store.hasId (idOf v.pair)) (merged v m) ms) ∨
    v.pair ∉ saves.map SnapshotSave.pair ∧
      saved u v ms = ms ++ [first v] := by
  unfold saved
  cases hm : ms.find? (u.store.hasId (idOf v.pair)) with
  | some m =>
    have hmem := List.mem_of_find?_eq_some hm
    have hfits : u.store.hasId (idOf v.pair) m = true := List.find?_some hm
    have hid : m.id = idOf v.pair := of_decide_eq_true hfits
    refine .inl ⟨m, hmem, ?_, rfl, rfl⟩
    refine hv.id _ (.inl (h.mem_pairs.mp (List.mem_map_of_mem hmem))) ?_
    rw [← (h.rows m hmem).id, hid]
  | none =>
    refine .inr ⟨fun hsaved => ?_, rfl⟩
    obtain ⟨m, hmem, hpair⟩ := List.mem_map.mp (h.mem_pairs.mpr hsaved)
    refine List.find?_eq_none.mp hm m hmem (decide_eq_true ?_)
    show m.id = _
    rw [(h.rows m hmem).id, hpair]

theorem pairs_concat (saves : List (SnapshotSave σ)) (v : SnapshotSave σ) :
    (saves ++ [v]).map SnapshotSave.pair = saves.map SnapshotSave.pair ++ [v.pair] :=
  List.map_append

/-- The ids stay apart. -/
theorem Kept.apart_concat (h : Kept saves ms) (hv : Apart saves v) :
    ∀ p ∈ (saves ++ [v]).map SnapshotSave.pair, ∀ q,
      q ∈ (saves ++ [v]).map SnapshotSave.pair ∨ q.2 = "" ∧ q.1 ≠ p.1 →
        idOf q = idOf p → q = p := by
  rw [pairs_concat]
  intro p hp q hq heq
  have hcases : (q ∈ saves.map SnapshotSave.pair ∨ q.2 = "" ∧ q.1 ≠ p.1) ∨ q = v.pair := by
    rcases hq with hq | hq
    · exact (List.mem_append.mp hq).imp .inl List.mem_singleton.mp
    · exact .inl (.inr hq)
  rcases List.mem_append.mp hp with hp | hp
  · rcases hcases with hq | rfl
    · exact h.apart p hp q hq heq
    · exact (hv.id p (.inl hp) heq.symm).symm
  · rw [List.mem_singleton.mp hp] at heq hcases ⊢
    rcases hcases with hq | rfl
    · exact hv.id q hq heq
    · rfl

/-- An account without a global snapshot still has one alone. -/
theorem Kept.room_concat (h : Kept saves ms) (hv : Apart saves v) {accountId : String}
    (hglobal : (accountId, "") ∉ (saves ++ [v]).map SnapshotSave.pair) :
    ∀ p ∈ (saves ++ [v]).map SnapshotSave.pair, p.1 = accountId →
      ((saves ++ [v]).map SnapshotSave.pair).find? (inAccount accountId) = some p := by
  rw [pairs_concat] at hglobal ⊢
  intro p hp haccount
  have hold : ∀ q ∈ saves.map SnapshotSave.pair, q.1 = accountId →
      (saves.map SnapshotSave.pair ++ [v.pair]).find? (inAccount accountId) = some q := by
    intro q hq hsame
    rw [List.find?_append,
      h.room accountId (fun hsaved => hglobal (List.mem_append_left _ hsaved)) q hq hsame]
    rfl
  rcases List.mem_append.mp hp with hp | hp
  · exact hold p hp haccount
  · rw [List.mem_singleton.mp hp] at haccount ⊢
    subst haccount
    refine (hv.room.resolve_left fun hroom => hglobal ?_).resolve_left fun hsaved =>
      hglobal (List.mem_append_left _ hsaved)
    refine List.mem_append_right _ (List.mem_singleton.mpr ?_)
    rw [SnapshotSave.pair, hroom]

theorem kept_saved (h : Kept saves ms) (hv : Apart saves v) :
    Kept (saves ++ [v]) (saved u v ms) := by
  rcases saved_cases h hv with ⟨m, hmem, hpair, hfind, hsaved⟩ | ⟨hnew, hsaved⟩
  · have hold : v.pair ∈ saves.map SnapshotSave.pair :=
      hpair ▸ h.mem_pairs.mp (List.mem_map_of_mem hmem)
    refine ⟨?_, fun m' hm' => ?_, h.apart_concat hv, fun _ => h.room_concat hv⟩
    · have hsame : (merged v m).pair = m.pair := hpair.symm
      rw [hsaved, Rows.map_replaceFirst_of_find hsame hfind, h.pairs, pairs_concat,
        FirstSeen.eraseDups_concat_of_mem hold]
    · rw [hsaved] at hm'
      have hfits : ∀ m : RelationshipSnapshot σ,
          u.store.hasId (idOf v.pair) m = true ↔ m.id = idOf v.pair := fun m => decide_eq_true_iff
      rcases Rows.mem_of_mem_replaceFirst hfits h.nodup_ids hm' with rfl | ⟨hm', hid⟩
      · exact (h.rows m hmem).merged hpair
      · refine (h.rows m' hm').other fun hpair' => hid ?_
        rw [(h.rows m' hm').id, hpair']
  · refine ⟨?_, fun m' hm' => ?_, h.apart_concat hv, fun _ => h.room_concat hv⟩
    · rw [hsaved, List.map_append, h.pairs, pairs_concat,
        FirstSeen.eraseDups_concat_of_not_mem hnew]
      rfl
    · rw [hsaved] at hm'
      rcases List.mem_append.mp hm' with hm' | hm'
      · refine (h.rows m' hm').other fun hpair' => hnew ?_
        rw [← hpair']
        exact h.mem_pairs.mp (List.mem_map_of_mem hm')
      · rw [List.mem_singleton.mp hm']
        exact upToDate_first hnew (hv.first hnew)

/-! ## Loading -/

/-- What was saved last for an account without a global snapshot is all there is of it. -/
theorem Kept.due_eq (h : Kept saves ms) {accountId : String}
    (hglobal : (accountId, "") ∉ saves.map SnapshotSave.pair) :
    due saves accountId = (saves.map SnapshotSave.pair).find? (inAccount accountId) := by
  rw [due, if_neg fun hsaved => hglobal (List.contains_iff_mem.mp hsaved)]
  cases hlast : ((saves.map SnapshotSave.pair).filter (inAccount accountId)).getLast? with
  | none =>
    rw [List.getLast?_eq_none_iff] at hlast
    exact (List.find?_eq_none.mpr (List.filter_eq_nil_iff.mp hlast)).symm
  | some p =>
    obtain ⟨hp, hin⟩ := List.mem_filter.mp (List.mem_of_getLast? hlast)
    exact (h.room accountId hglobal p hp (of_decide_eq_true hin)).symm

/-- An account is loaded from its global snapshot, or else from the one that was saved last. -/
theorem load_kept (h : Kept saves ms) (hkeeps : u.store.Keeps s ms) (accountId : String) :
    ∃ found, u.loadForAccount s accountId = some found ∧
      found.map pair = due saves accountId ∧ ∀ m, found = some m → m ∈ ms := by
  have hid (m : RelationshipSnapshot σ) (hm : m ∈ ms) :
      m.id = accountId ++ "::__global__" ↔ idOf (accountId, "") = idOf m.pair := by
    rw [(h.rows m hm).id, eq_comm]
    rfl
  have hpair (m : RelationshipSnapshot σ) (hm : m ∈ ms) : m.pair ∈ saves.map SnapshotSave.pair :=
    h.mem_pairs.mp (List.mem_map_of_mem hm)
  have hfirst : (ms.find? (·.accountId = accountId)).map pair =
      (saves.map SnapshotSave.pair).find? (inAccount accountId) := by
    rw [← FirstSeen.find?_eraseDups _ (saves.map SnapshotSave.pair), ← h.pairs, List.find?_map]
    rfl
  refine ⟨_, by rw [loadForAccount, (RecordStore.call_listAll hkeeps).1], ?_, fun m hm => ?_⟩
  · cases hfind : ms.find? (·.id = accountId ++ "::__global__") with
    | none =>
      have hglobal : (accountId, "") ∉ saves.map SnapshotSave.pair := by
        intro hsaved
        obtain ⟨m, hm, hsame⟩ := List.mem_map.mp (h.mem_pairs.mpr hsaved)
        exact List.find?_eq_none.mp hfind m hm (decide_eq_true ((hid m hm).mpr (by rw [hsame])))
      rw [Option.none_or, hfirst, h.due_eq hglobal]
    | some m =>
      have hmem := List.mem_of_find?_eq_some hfind
      have hfound := List.find?_some hfind
      have hsame := (hid m hmem).mp (of_decide_eq_true hfound)
      show some m.pair = _
      by_cases hsaved : (accountId, "") ∈ saves.map SnapshotSave.pair
      · rw [due, if_pos (List.contains_iff_mem.mpr hsaved),
          h.apart m.pair (hpair m hmem) (accountId, "") (.inl hsaved) hsame]
      · -- the one snapshot of the account has the id of a global one
        have haccount : m.pair.1 = accountId := by
          by_contra hother
          exact hother (congrArg Prod.fst (h.apart m.pair (hpair m hmem) (accountId, "")
            (.inr ⟨rfl, fun heq => hother heq.symm⟩) hsame)).symm
        rw [h.due_eq hsaved, h.room accountId hsaved m.pair (hpair m hmem) haccount]
  · rcases Option.or_eq_some_iff.mp hm with hm | ⟨_, hm⟩ <;> exact List.mem_of_find?_eq_some hm

end SnapshotSetup
open SnapshotSetup

/-- As long as every save can be told from the others, there is one snapshot of each account and
room, with the last state and all source records, and accounts are loaded as they should be. -/
theorem run_snapshots_promised {σ : Type} (u : SnapshotSetup σ) {s : JsonlStore}
    (hstart : u.store.Keeps s []) (saves : List (SnapshotSave σ))
    (h : Machine.Guarded u.step (fun w v => Reads u w.store v ∧ Whole u v ∧ Apart w.saves v)
      { store := s } saves) :
    ∃ ms, Promised u (Machine.run u.step { store := s } saves) ms := by
  have hbegin : ∃ ms, u.store.Keeps s ms ∧ Kept ([] : List (SnapshotSave σ)) ms := by
    refine ⟨[], hstart, rfl, fun m hm => ?_, fun p hp => ?_, fun _ _ p hp => ?_⟩
    · cases hm
    · cases hp
    · cases hp
  obtain ⟨ms, hkeeps, hkept⟩ := h.inv
    (fun w => ∃ ms, u.store.Keeps w.store ms ∧ Kept w.saves ms)
    (fun w v ⟨ms, hkeeps, hkept⟩ ⟨hreads, hwhole, hapart⟩ =>
      ⟨saved u v ms, keeps_saved hkeeps hreads hwhole, kept_saved hkept hapart⟩) hbegin
  exact ⟨ms, hkeeps, hkept.pairs, fun m hm => (hkept.rows m hm).latest,
    fun m hm => (hkept.rows m hm).ids, load_kept hkept hkeeps⟩

/-! ## One save -/

/-- A store of states that are texts, whose library reads the records of a table. -/
def tableSnapshots (table : List Json) : SnapshotSetup String where
  toJsonText := .ofTable plainWriter table
  serialises _ := true
  same _ _ := false
  dumpState := .str
  readState := readText
  readState_dumpState _ := rfl
  newId := "r2"
  now := "t2"
  initial := "new"

def friendSave (ids : List String) : SnapshotSave String where
  accountId := "a"
  state := "friend"
  sourceRecordIds := ids
  madeAt := "t0"
  now := "t1"
  taken := true

/-- The record that is added. -/
def friendRecord (ids : List String) : Json :=
  .obj (fields (tableSnapshots []) (first (friendSave ids)))

def friendSnapshots (ids : List String) : SnapshotSetup String :=
  tableSnapshots [friendRecord ids]

theorem loads_friendRecord (ids : List String) :
    (friendSnapshots ids).loads ((friendSnapshots ids).dumps (friendRecord ids)) =
      some (friendRecord ids) := by
  simp [friendSnapshots, tableSnapshots, JsonText.ofTable]

theorem keeps_nothing (ids : List String) : (friendSnapshots ids).store.Keeps {} [] := .nil

/-- Whatever its source records are, the save adds the record. -/
theorem reads_friendSave (ids : List String) : Reads (friendSnapshots ids) {} (friendSave ids) := by
  intro write hwrite e he
  have hwritten : (friendSnapshots ids).writeOf {} (friendSave ids) =
      some (.add (friendRecord ids) true) :=
    writeOf_first (RecordStore.call_find (keeps_nothing ids) _).1
  cases hwritten.symm.trans hwrite
  cases he
  exact loads_friendRecord ids

theorem run_snapshots_promised_friend : ∃ ms, Promised (friendSnapshots ["r"])
    (Machine.run (friendSnapshots ["r"]).step { store := {} } [friendSave ["r"]]) ms := by
  refine run_snapshots_promised (friendSnapshots ["r"]) (keeps_nothing ["r"])
    [friendSave ["r"]] ⟨⟨?_, ?_, ?_⟩, trivial⟩
  · exact reads_friendSave ["r"]
  · exact ⟨unbroken_of_all (by decide), unbroken_of_all (by decide)⟩
  · refine ⟨fun p hp heq => ?_, fun _ => by decide, .inl rfl⟩
    obtain ⟨accountId, roomId⟩ := p
    obtain rfl : roomId = "" := (hp.resolve_left List.not_mem_nil).1
    obtain rfl : accountId = "a" := (String.append_left_inj "::__global__").mp heq
    rfl

/-- The source records of the first save are not cleared of repetitions. -/
theorem repeated_source_kept :
    ¬ ∀ (σ : Type) (u : SnapshotSetup σ) (s : JsonlStore) (saves : List (SnapshotSave σ)),
      u.store.Keeps s [] →
      Machine.Guarded u.step (fun w v => Reads u w.store v ∧ Whole u v) { store := s } saves →
      ∃ ms, Promised u (Machine.run u.step { store := s } saves) ms := by
  intro h
  have hwhole : Whole (friendSnapshots ["r", "r"]) (friendSave ["r", "r"]) :=
    ⟨unbroken_of_all (by decide), unbroken_of_all (by decide)⟩
  obtain ⟨ms, hms⟩ := h String (friendSnapshots ["r", "r"]) {} [friendSave ["r", "r"]]
    (keeps_nothing _) ⟨⟨reads_friendSave _, hwhole⟩, trivial⟩
  have hkeeps : (friendSnapshots ["r", "r"]).store.Keeps
      ((friendSnapshots ["r", "r"]).saveSnapshot {} (friendSave ["r", "r"]))
      [first (friendSave ["r", "r"])] := keeps_saved (keeps_nothing _) (reads_friendSave _) hwhole
  have hlist := (RecordStore.call_listAll hms.keeps).1.symm.trans
    (RecordStore.call_listAll hkeeps).1
  obtain rfl : ms = [first (friendSave ["r", "r"])] := StoreAnswer.items.inj hlist
  exact absurd (hms.ids _ List.mem_cons_self) (by decide)

end IrisMind.Limbic
