import IrisMind.Lib.Rows
import IrisMind.Memory.Failures
import Mathlib.Data.List.Forall2

/-! # The records of a model

Of each item of a model a store keeps a record that has its fields, and perhaps more. As long as
every line is whole, what is kept is a list of items: a lookup finds the first one with an id, an
addition puts one at the end, and an update replaces one. -/
namespace IrisMind.Lib

namespace Dict

variable {ν : Type}

theorem of_mem_write {κ : Type} [DecidableEq κ] {k : κ} {v : ν} {e : κ × ν} :
    ∀ {l : List (κ × ν)}, e ∈ write k v l → e = (k, v) ∨ e ∈ l
  | [], h => .inl (List.mem_singleton.mp h)
  | e' :: rest, h => by
    unfold write at h
    split at h
    · exact (List.mem_cons.mp h).imp_right (List.mem_cons_of_mem _)
    · rcases List.mem_cons.mp h with rfl | h
      · exact .inr List.mem_cons_self
      · exact (of_mem_write h).imp_right (List.mem_cons_of_mem _)

/-- Of what is written key by key, the new value of a key counts. -/
theorem lookup_foldl_write {changes : List (String × ν)} (hn : (changes.map Prod.fst).Nodup)
    (k : String) (fields : List (String × ν)) :
    lookup k (changes.foldl (fun fields c => write c.1 c.2 fields) fields) =
      (lookup k changes).or (lookup k fields) := by
  induction changes generalizing fields with
  | nil => rfl
  | cons c changes ih =>
    obtain ⟨hc, hn⟩ := List.nodup_cons.mp hn
    rw [List.foldl_cons, ih hn, lookup_write, lookup]
    split
    · next hk =>
      subst hk
      rw [lookup_eq_none.mpr hc]
      rfl
    · rfl

end Dict

theorem Json.unbroken_obj {fields : List (String × Json)} : (Json.obj fields).Unbroken ↔
    ∀ f ∈ fields, (Json.str f.1).Unbroken ∧ f.2.Unbroken := by
  unfold Json.Unbroken
  induction fields with
  | nil => simp [Json.texts, Json.fieldTexts]
  | cons f fields ih =>
    simp only [Json.texts] at ih
    simp only [Json.texts, Json.fieldTexts, List.cons_append, List.forall_mem_cons,
      List.forall_mem_append, ih, List.not_mem_nil, false_implies, implies_true, true_and,
      and_assoc]

end IrisMind.Lib

namespace IrisMind.Memory
open IrisMind.Lib

/-- What an update leaves of the values of a record. -/
theorem lookup_changed {changes : List (String × Json)} (hn : (changes.map Prod.fst).Nodup)
    (now k : String) (fields : List (String × Json)) :
    Dict.lookup k (changed changes now fields) = if "updated_at" = k then some (.str now)
      else (Dict.lookup k changes).or (Dict.lookup k fields) := by
  rw [changed, Dict.lookup_write, Dict.lookup_foldl_write hn]

theorem unbroken_changed {changes fields : List (String × Json)} {now : String}
    (hfields : (Json.obj fields).Unbroken) (hchanges : (Json.obj changes).Unbroken)
    (hnow : (Json.str now).Unbroken) : (Json.obj (changed changes now fields)).Unbroken := by
  have hwritten : (Json.obj (changes.foldl (fun fields c => Dict.write c.1 c.2 fields)
      fields)).Unbroken := by
    induction changes generalizing fields with
    | nil => exact hfields
    | cons c changes ih =>
      rw [Json.unbroken_obj, List.forall_mem_cons, ← Json.unbroken_obj] at hchanges
      refine ih (Json.unbroken_obj.mpr fun f hf => ?_) hchanges.2
      rcases Dict.of_mem_write hf with rfl | hf
      · exact hchanges.1
      · exact Json.unbroken_obj.mp hfields f hf
  refine Json.unbroken_obj.mpr fun f hf => ?_
  rcases Dict.of_mem_write hf with rfl | hf
  · exact ⟨unbroken_of_all (j := .str "updated_at") (by decide), hnow⟩
  · exact Json.unbroken_obj.mp hwritten f hf

/-- A store of a model: the fields that are written of an item, its id among them. A record that
has them is read as the item, whatever else it has. -/
structure RecordStore (M : Type) extends Backend M where
  fields : M → List (String × Json)
  id : M → String
  id_field : ∀ m, ("id", .str (id m)) ∈ fields m
  nodup : ∀ m, ((fields m).map Prod.fst).Nodup
  validates : ∀ m es, (∀ f ∈ fields m, Dict.lookup f.1 es = some f.2) →
    validate (.obj es) = some m

namespace RecordStore

variable {M : Type} (r : RecordStore M)

def modelDump (m : M) : Json := .obj (r.fields m)

def hasId (itemId : String) (m : M) : Bool := r.id m = itemId

/-- The record has the fields of the item. -/
def Shows (es : List (String × Json)) (m : M) : Prop :=
  ∀ f ∈ r.fields m, Dict.lookup f.1 es = some f.2

/-- A record of the item, which comes back from its line. -/
structure Row (e : Json) (m : M) : Prop where
  shows : ∃ es, e = .obj es ∧ r.Shows es m
  reads : r.loads (r.dumps e) = some e
  whole : e.Unbroken

/-- The first item with the id is changed. -/
def change (itemId : String) (f : M → M) (ms : List M) : List M :=
  match ms.find? (r.hasId itemId) with
  | some m => Rows.replaceFirst (r.hasId itemId) (f m) ms
  | none => ms

/-- The store keeps the items, in this order. -/
def Keeps (s : JsonlStore) (ms : List M) : Prop := List.Forall₂ r.Row (r.records s) ms

/-- The record that a call writes. -/
def written? (s : JsonlStore) : StoreCall → Option Json
  | .add data _ => some data
  | .update itemId changes now _ => match locate itemId (r.records s) with
    | .found _ fields _ => some (.obj (changed changes now fields))
    | _ => none
  | _ => none

/-- What the call writes can be read again. -/
def Reads (s : JsonlStore) (c : StoreCall) : Prop :=
  ∀ e, r.written? s c = some e → r.loads (r.dumps e) = some e

variable {r} {m m' : M} {es : List (String × Json)} {entries : List Json} {ms : List M}
  {s : JsonlStore} {itemId : String}

theorem shows_fields (m : M) : r.Shows (r.fields m) m :=
  fun _ hf => Dict.lookup_of_mem (r.nodup m) hf

theorem Shows.idIs (h : r.Shows es m) : idIs itemId es = r.hasId itemId m := by
  rw [Memory.idIs, h _ (r.id_field m), hasId]
  by_cases heq : r.id m = itemId <;> simp [heq]

/-- An item that is written as a whole is there as a whole, with the time of the update. -/
theorem shows_rewritten {changes : List (String × Json)} (hn : (changes.map Prod.fst).Nodup)
    {now : String} (hnew : ∀ f ∈ r.fields m', "updated_at" = f.1 ∧ f.2 = .str now ∨
      "updated_at" ≠ f.1 ∧ Dict.lookup f.1 changes = some f.2) (es : List (String × Json)) :
    r.Shows (changed changes now es) m' := by
  intro f hf
  rw [lookup_changed hn]
  rcases hnew f hf with ⟨hkey, htime⟩ | ⟨hkey, hvalue⟩
  · rw [if_pos hkey, htime]
  · rw [if_neg hkey, hvalue]
    rfl

/-- What is not changed of an item stays. -/
theorem Shows.changed (h : r.Shows es m) {changes : List (String × Json)}
    (hn : (changes.map Prod.fst).Nodup) {now : String}
    (hnew : ∀ f ∈ r.fields m', "updated_at" ≠ f.1 ∧
      (Dict.lookup f.1 changes).or (Dict.lookup f.1 (r.fields m)) = some f.2) :
    r.Shows (changed changes now es) m' := by
  intro f hf
  obtain ⟨hkey, hvalue⟩ := hnew f hf
  rw [lookup_changed hn, if_neg hkey]
  cases hchange : Dict.lookup f.1 changes with
  | some v => rwa [hchange] at hvalue
  | none =>
    rw [hchange, Option.none_or] at hvalue
    exact h _ (Dict.mem_of_lookup hvalue)

theorem Row.object (h : r.Row e m) : ∃ es, e = .obj es ∧ r.Shows es m ∧ (Json.obj es).Unbroken := by
  obtain ⟨es, rfl, hshows⟩ := h.shows
  exact ⟨es, rfl, hshows, h.whole⟩

theorem Shows.unbroken (h : r.Shows es m) (hline : (Json.obj es).Unbroken) :
    (Json.obj (r.fields m)).Unbroken :=
  Json.unbroken_obj.mpr fun f hf =>
    Json.unbroken_obj.mp hline (f.1, f.2) (Dict.mem_of_lookup (h f hf))

theorem Row.isRecord {e : Json} (h : r.Row e m) : IsRecord r.toJsonText e :=
  ⟨h.shows.imp fun _ hes => hes.1, h.reads⟩

/-- Writing the records keeps them. -/
theorem kept_rows (h : List.Forall₂ r.Row entries ms) (taken : Bool) :
    (r.kept entries taken).2 = entries := by
  have hpieces : entries.flatMap (pieces r.toJsonText) = entries := by
    induction h with
    | nil => rfl
    | cons hrow _ ih =>
      rw [List.flatMap_cons, hrow.isRecord.pieces_eq hrow.whole, List.singleton_append, ih]
  unfold Backend.kept
  split
  · exact hpieces
  · rfl

/-- The record with an id is that of the first item with the id. -/
theorem locate_rows (h : List.Forall₂ r.Row entries ms) (itemId : String) :
    locate itemId entries = .absent ∧ ms.find? (r.hasId itemId) = none ∨
      ∃ front es back m, locate itemId entries = .found front es back ∧
        ms.find? (r.hasId itemId) = some m ∧ r.Shows es m ∧ (Json.obj es).Unbroken ∧
        ∀ e' m', r.Row e' m' → List.Forall₂ r.Row (front ++ e' :: back)
          (Rows.replaceFirst (r.hasId itemId) m' ms) := by
  induction h with
  | nil => exact .inl ⟨rfl, rfl⟩
  | @cons e m entries ms hrow hrows ih =>
    obtain ⟨es, rfl, hshows, hwhole⟩ := hrow.object
    cases hid : r.hasId itemId m with
    | true =>
      refine .inr ⟨[], es, entries, m, ?_, List.find?_cons_of_pos hid, hshows, hwhole,
        fun e' m' hnew => ?_⟩
      · rw [locate, hshows.idIs, if_pos hid]
      · rw [Rows.replaceFirst, if_pos hid]
        exact .cons hnew hrows
    | false =>
      have hlocate : locate itemId (.obj es :: entries) =
          (locate itemId entries).behind (.obj es) := by
        rw [locate, hshows.idIs, hid]
        rfl
      have hfind : (m :: ms).find? (r.hasId itemId) = ms.find? (r.hasId itemId) :=
        List.find?_cons_of_neg (by simp [hid])
      rw [hlocate, hfind]
      rcases ih with ⟨habsent, hnone⟩ | ⟨front, es', back, m', hfound, hsome, hin, hline, hput⟩
      · exact .inl ⟨by rw [habsent]; rfl, hnone⟩
      · refine .inr ⟨.obj es :: front, es', back, m', by rw [hfound]; rfl, hsome, hin, hline,
          fun e' m'' hnew => ?_⟩
        rw [Rows.replaceFirst, hid]
        exact .cons hrow (hput e' m'' hnew)

/-! ## Calls -/

/-- A lookup answers with the first item that has the id, and changes nothing. -/
theorem call_find (h : r.Keeps s ms) (itemId : String) :
    (r.call s (.find itemId)).1 = ((ms.find? (r.hasId itemId)).map .item).getD .none ∧
      r.Keeps (r.call s (.find itemId)).2 ms := by
  obtain ⟨hanswer, hrecords⟩ := r.call_records s (.find itemId)
  rw [Keeps, hanswer, hrecords]
  rcases locate_rows h itemId with ⟨habsent, hnone⟩ | ⟨_, es, _, m, hfound, hsome, hshows, _⟩
  · simp only [Backend.onRecords, habsent, hnone]
    exact ⟨rfl, h⟩
  · simp only [Backend.onRecords, hfound, hsome, r.validates m es hshows]
    exact ⟨rfl, h⟩

theorem records_find (s : JsonlStore) (itemId : String) :
    r.records (r.call s (.find itemId)).2 = r.records s := by
  rw [(r.call_records s (.find itemId)).2]
  simp only [Backend.onRecords]
  cases locate itemId (r.records s) <;> rfl

theorem mapM_rows (h : List.Forall₂ r.Row entries ms) : entries.mapM r.validate = some ms := by
  induction h with
  | nil => rfl
  | cons hrow _ ih =>
    obtain ⟨es, rfl, hshows⟩ := hrow.shows
    rw [List.mapM_cons, r.validates _ es hshows, ih]
    rfl

/-- A listing answers with the items. -/
theorem call_listAll (h : r.Keeps s ms) :
    (r.call s .listAll).1 = .items ms ∧ r.Keeps (r.call s .listAll).2 ms := by
  obtain ⟨hanswer, hrecords⟩ := r.call_records s .listAll
  have hall : (r.records s).mapM r.validate = some ms := mapM_rows h
  rw [Keeps, hanswer, hrecords]
  simp only [Backend.onRecords, hall]
  exact ⟨rfl, h⟩

/-- An item that is added is the last one. -/
theorem call_add (h : r.Keeps s ms) {m : M} {taken : Bool}
    (hreads : r.Reads s (.add (r.modelDump m) taken)) (hwhole : (r.modelDump m).Unbroken) :
    r.Keeps (r.call s (.add (r.modelDump m) taken)).2 (ms ++ [m]) := by
  have hrow : r.Row (r.modelDump m) m := ⟨⟨_, rfl, shows_fields m⟩, hreads _ rfl, hwhole⟩
  have hrows : List.Forall₂ r.Row (r.records s ++ [r.modelDump m]) (ms ++ [m]) :=
    List.rel_append h (.cons hrow .nil)
  rw [Keeps, (r.call_records s (.add (r.modelDump m) taken)).2]
  simp only [Backend.onRecords]
  rw [kept_rows hrows]
  exact hrows

/-- An update changes the first item that has the id, if there is one. -/
theorem call_update (h : r.Keeps s ms) {changes : List (String × Json)} {now : String}
    {taken : Bool} (hreads : r.Reads s (.update itemId changes now taken)) {f : M → M}
    (hf : ∀ es m, ms.find? (r.hasId itemId) = some m → r.Shows es m → (Json.obj es).Unbroken →
      r.Shows (changed changes now es) (f m) ∧
        (Json.obj (changed changes now es)).Unbroken) :
    r.Keeps (r.call s (.update itemId changes now taken)).2 (r.change itemId f ms) := by
  have hrecords := (r.call_records s (.update itemId changes now taken)).2
  rcases locate_rows h itemId with
    ⟨habsent, hnone⟩ | ⟨front, es, back, m, hfound, hsome, hshows, hline, hput⟩
  · rw [Keeps, hrecords, change, hnone]
    simp only [Backend.onRecords, habsent]
    exact h
  · have hwritten : r.written? s (.update itemId changes now taken) =
        some (.obj (changed changes now es)) := by
      simp only [written?, hfound]
    obtain ⟨hnew, hwhole⟩ := hf es m hsome hshows hline
    have hrows := hput _ (f m) ⟨⟨_, rfl, hnew⟩, hreads _ hwritten, hwhole⟩
    rw [Keeps, hrecords, change, hsome]
    simp only [Backend.onRecords, hfound]
    rw [kept_rows hrows]
    exact hrows

/-! ## Lookups after changes -/

theorem find?_change {f : M → M} (hid : ∀ m, r.id (f m) = r.id m) (itemId id : String)
    (ms : List M) : (r.change itemId f ms).find? (r.hasId id) =
      if itemId = id then (ms.find? (r.hasId id)).map f else ms.find? (r.hasId id) := by
  have hkeeps (m : M) : r.hasId id (f m) = r.hasId id m := by rw [hasId, hasId, hid]
  induction ms with
  | nil => simp [change]
  | cons m ms ih =>
    cases hm : r.hasId itemId m with
    | true =>
      have hhead : r.change itemId f (m :: ms) = f m :: ms := by
        rw [change, List.find?_cons_of_pos hm]
        exact if_pos hm
      rw [hhead]
      split
      · next hsame =>
        subst hsame
        rw [List.find?_cons_of_pos ((hkeeps m).trans hm), List.find?_cons_of_pos hm]
        rfl
      · next hne =>
        have hother : ¬ r.hasId id m = true := fun h =>
          hne ((of_decide_eq_true hm).symm.trans (of_decide_eq_true h))
        rw [List.find?_cons_of_neg (by rwa [hkeeps]), List.find?_cons_of_neg hother]
    | false =>
      have htail : r.change itemId f (m :: ms) = m :: r.change itemId f ms := by
        rw [change, change, List.find?_cons_of_neg (by simp [hm])]
        cases ms.find? (r.hasId itemId) with
        | none => rfl
        | some m' => exact if_neg (by simp [hm])
      rw [htail]
      cases hsame : r.hasId id m with
      | true =>
        have hne : itemId ≠ id := by
          rintro rfl
          rw [hm] at hsame
          cases hsame
        rw [if_neg hne, List.find?_cons_of_pos hsame, List.find?_cons_of_pos hsame]
      | false =>
        rw [List.find?_cons_of_neg (by simp [hsame]), List.find?_cons_of_neg (by simp [hsame]), ih]

end RecordStore

end IrisMind.Memory
