import IrisMind.Memory.Failures
import IrisMind.Memory.Handlers

/-! # What a handler takes for a duplicate

Before a candidate is applied its handler is asked whether the store has it
already. The check works out its key from the payload by itself: for a style it
knows neither the default of the kind nor the scope, and for a patch not what
becomes of a target file that is empty. -/
namespace IrisMind.Memory
open IrisMind.Lib

/-! ## What is in a store -/

def StyleScope.text : StyleScope → String
  | global => "global"
  | account => "account"
  | room => "room"

def PersonaPatchStatus.text : PersonaPatchStatus → String
  | pending => "pending"
  | approved => "approved"
  | rejected => "rejected"
  | applied => "applied"

theorem StyleKind.ofText?_eq_some {text : String} {kind : StyleKind} :
    ofText? text = some kind ↔ kind.text = text := by
  constructor
  · intro h
    simpa using List.find?_some h
  · rintro rfl
    cases kind <;> rfl

/-- `model_dump` of an item that has just been made. -/
def StyleMemory.dump (now : String) (m : StyleMemory) : Json :=
  .obj [("id", .str m.id), ("timestamp", .str now), ("scope", .str m.scope.text),
    ("account_id", .str m.accountId), ("room_id", .str m.roomId), ("kind", .str m.kind.text),
    ("content", .str m.content), ("evidence", .str m.evidence), ("confidence", .num m.confidence),
    ("success_count", .int 0), ("failure_count", .int 0), ("last_used_at", .str ""),
    ("enabled", .bool true), ("activation_condition", .str m.activationCondition),
    ("source_record_ids", .arr (m.sourceRecordIds.map .str))]

/-- `model_dump` -/
def PersonaPatchCandidate.dump (now : String) (m : PersonaPatchCandidate) : Json :=
  .obj [("id", .str m.id), ("timestamp", .str now), ("target_file", .str m.targetFile),
    ("reason", .str m.reason), ("proposed_patch", .str m.proposedPatch),
    ("evidence_record_ids", .arr (m.evidenceRecordIds.map .str)), ("confidence", .num m.confidence),
    ("status", .str m.status.text), ("metadata", .obj m.metadata)]

theorem PersonaPatchCandidate.fits_dump {M : Type} {b : Backend M} {now status : String}
    {m : PersonaPatchCandidate} :
    b.fits [("status", .str status)] (m.dump now) =
      some (b.same (.str m.status.text) (.str status)) := by
  have hall : ∀ x : Bool, some (x && true) = some x := fun x => by rw [Bool.and_true]
  exact hall _

/-- A store whose model accepts what it has dumped. -/
structure ModelStore (M : Type) (dump : String → M → Json) extends Backend M where
  same_text : ∀ s t, same (.str s) (.str t) = (s == t)
  validate_dump : ∀ now m, validate (dump now m) = some m

def StoreAnswer.items? {M : Type} : StoreAnswer M → Option (List M)
  | .items ms => some ms
  | .raised | .none | .rows _ | .item _ => Option.none

namespace Backend

variable {M : Type} (b : Backend M)

/-- `list_all`; nothing comes of it where it raises. -/
def listAll (s : JsonlStore) : Option (List M) := (b.call s .listAll).1.items?

/-- `list_filtered` -/
def listFiltered (filters : List (String × Json)) (s : JsonlStore) : Option (List M) :=
  (b.call s (.listFiltered filters)).1.items?

/-- The store has taken an entry and has it afterwards. -/
def Added (s : JsonlStore) (entry : Json) (taken : Bool) : Prop :=
  (b.call s (.add entry taken)).1 = .none ∧ entry ∈ b.records (b.call s (.add entry taken)).2

variable {b} {s : JsonlStore} {filters : List (String × Json)} {es : List Json} {ms : List M}

theorem fits_nil (e : Json) : b.fits [] e = some true := by
  cases e <;> rfl

theorem filtered_nil (es : List Json) : b.filtered [] es = es.mapM b.validate := by
  induction es with
  | nil => rfl
  | cons e es ih => simp [filtered, fits_nil, ih]

theorem items?_getD (found : Option (List M)) :
    ((found.map StoreAnswer.items).getD .raised).items? = found := by
  cases found <;> rfl

theorem listAll_eq (s : JsonlStore) : b.listAll s = b.filtered [] (b.records s) := by
  rw [listAll, (b.call_records s .listAll).1, filtered_nil]
  exact items?_getD _

theorem listFiltered_eq (filters : List (String × Json)) (s : JsonlStore) :
    b.listFiltered filters s = b.filtered filters (b.records s) := by
  rw [listFiltered, (b.call_records s (.listFiltered filters)).1]
  exact items?_getD _

/-- What is listed are the entries that fit, as the model has them. -/
theorem mem_filtered {m : M} (h : b.filtered filters es = some ms) :
    m ∈ ms ↔ ∃ e ∈ es, b.fits filters e = some true ∧ b.validate e = some m := by
  induction es generalizing ms with
  | nil =>
    cases h
    simp
  | cons e es ih =>
    rw [filtered, Option.bind_eq_bind, Option.bind_eq_some_iff] at h
    obtain ⟨fits, hfits, h⟩ := h
    cases fits with
    | false =>
      rw [if_neg (by simp)] at h
      rw [ih h]
      simp [hfits]
    | true =>
      rw [if_pos rfl, Option.bind_eq_bind, Option.bind_eq_some_iff] at h
      obtain ⟨m', hvalid, h⟩ := h
      obtain ⟨rest, hrest, h⟩ := Option.bind_eq_some_iff.mp h
      cases h
      rw [List.mem_cons, ih hrest]
      simp [hfits, hvalid, eq_comm]

/-- An entry without a line boundary beyond ASCII is there once it is written. -/
theorem added_of_unbroken {e : Json} (hrecord : IsRecord b.toJsonText e) (hunbroken : e.Unbroken)
    (hwritten : (b.records s ++ [e]).all b.serialises = true) : b.Added s e true := by
  obtain ⟨hanswer, hrecords⟩ := b.call_records s (.add e true)
  have hkept : b.kept (b.records s ++ [e]) true =
      (true, (b.records s ++ [e]).flatMap (pieces b.toJsonText)) := by
    rw [kept, hwritten]
    rfl
  rw [Added, hanswer, hrecords]
  simp only [onRecords, hkept]
  refine ⟨rfl, List.mem_flatMap.mpr ⟨e, by simp, ?_⟩⟩
  rw [hrecord.pieces_eq hunbroken]
  exact List.mem_singleton_self e

theorem mem_listAll {m : M} (h : b.listAll s = some ms) :
    m ∈ ms ↔ ∃ e ∈ b.records s, b.validate e = some m := by
  rw [listAll_eq] at h
  simp [mem_filtered h, fits_nil]

end Backend

/-! ## The agreement -/

/-- The check and what is stored agree: what has been added is a duplicate afterwards, and of a
duplicate the store has an entry that would be added again. -/
structure DuplicatesAgree {M : Type} (b : Backend M) (s : JsonlStore) (taken : Bool)
    (item? : Option M) (dump : M → Json) (isDuplicate? : JsonlStore → Option Bool)
    (again : M → M → Prop) : Prop where
  added : ∀ item, item? = some item → b.Added s (dump item) taken →
    isDuplicate? (b.call s (.add (dump item) taken)).2 = some true
  stored : isDuplicate? s = some true → ∃ item, item? = some item ∧
    ∃ e ∈ b.records s, ∃ m, b.validate e = some m ∧ again item m

section Handlers

variable (v : Conversion) (c : MemoryCandidate) (roomId accountId newId now : String)
  (taken : Bool) (s : JsonlStore)

/-! ## Styles -/

namespace StylePromotionHandler

variable (b : ModelStore StyleMemory StyleMemory.dump)

/-- The text of a candidate. -/
def content : String := Text.strip (v.strAt "content" "" c.payload)

/-- The kind that the payload names. -/
def namedKind : Option StyleKind := StyleKind.ofText? (v.strAt "kind" "" c.payload)

/-- What `apply` adds. -/
def item? : Option StyleMemory :=
  match apply v c roomId accountId newId with
  | .ok (some (.style item), _) => some item
  | _ => none

/-- `is_duplicate` on the store; nothing comes of it where the store cannot be listed. -/
def isDuplicate? (s : JsonlStore) : Option Bool :=
  if content v c = "" then some false else (b.listAll s).map (isDuplicate v c)

/-- The same kind and text, for an account or a room the same one. -/
def Again (item m : StyleMemory) : Prop :=
  m.kind = item.kind ∧ m.content = item.content ∧
    (item.scope = .account → m.accountId = item.accountId) ∧
    (item.scope = .room → m.roomId = item.roomId)

def Agrees : Prop :=
  DuplicatesAgree b.toBackend s taken (item? v c roomId accountId newId) (StyleMemory.dump now)
    (isDuplicate? v c b) Again

/-- The scope that the payload asks for. -/
def scope : StyleScope :=
  (StyleScope.ofText? (match Dict.lookup "scope" c.payload with
    | some j => if j.truthy then v.str j else "account"
    | none => "account")).getD .account

/-- An entry that the check takes for the candidate's. -/
def Matches (m : StyleMemory) : Prop := m.content = content v c ∧ namedKind v c = some m.kind

/-- For an account or a room the entry is of the same one. -/
def InScope (m : StyleMemory) : Prop :=
  (scope v c = .account → m.accountId = accountId) ∧ (scope v c = .room → m.roomId = roomId)

/-- When they agree: what is added names its kind, and the store can be listed then; and where an
entry matches, one in scope does, and the confidence is enough for `apply` to add another. -/
structure AgreesWhen : Prop where
  named : ∀ item, item? v c roomId accountId newId = some item →
    b.Added s (item.dump now) taken → (namedKind v c).isSome ∧
      (b.listAll (b.call s (.add (item.dump now) taken)).2).isSome
  inScope : content v c ≠ "" → ∀ ms, b.listAll s = some ms → (∃ m ∈ ms, Matches v c m) →
    6 / 10 ≤ c.confidence ∧ ∃ m ∈ ms, Matches v c m ∧ InScope v c roomId accountId m

/-- The style that `apply` makes. -/
def made : StyleMemory where
  id := newId
  scope := scope v c
  accountId := accountId
  roomId := roomId
  kind := (StyleKind.ofText? (v.strAt "kind" "successful_pattern" c.payload)).getD
    .successfulPattern
  content := content v c
  evidence := Text.strip (v.strAt "evidence" "" c.payload)
  confidence := c.confidence
  activationCondition := Text.strip (v.strAt "activation_condition" "" c.payload)
  sourceRecordIds := c.sourceRecordIds

variable {v c roomId accountId newId now taken s b}

/-- What `apply` adds of a candidate: nothing below its confidence or without a text. -/
theorem item?_eq_some {item : StyleMemory} :
    item? v c roomId accountId newId = some item ↔ 6 / 10 ≤ c.confidence ∧ content v c ≠ "" ∧
      item = made v c roomId accountId newId := by
  unfold item? apply
  by_cases hlow : c.confidence < 6 / 10
  · simp [hlow]
  · by_cases hempty : content v c = ""
    · have hstrip : Text.strip (v.strAt "content" "" c.payload) = "" := hempty
      simp [hlow, hempty, hstrip]
    · have hstrip : ¬ Text.strip (v.strAt "content" "" c.payload) = "" := hempty
      simp only [hlow, hstrip, if_false, Option.some.injEq]
      refine ⟨fun h => ⟨not_lt.mp hlow, hempty, h.symm⟩, fun h => h.2.2.symm⟩

/-- A kind that is named is the kind of what is added. -/
theorem namedKind_eq_some {kind : StyleKind} (h : namedKind v c = some kind) :
    StyleKind.ofText? (v.strAt "kind" "successful_pattern" c.payload) = some kind := by
  unfold namedKind Conversion.strAt at h
  unfold Conversion.strAt
  cases hkind : Dict.lookup "kind" c.payload with
  | some j => simpa [hkind] using h
  | none =>
    rw [hkind] at h
    cases h

theorem isDuplicate_iff {ms : List StyleMemory} (h : content v c ≠ "") :
    isDuplicate v c ms = true ↔ ∃ m ∈ ms, Matches v c m := by
  have hstrip : ¬ Text.strip (v.strAt "content" "" c.payload) = "" := h
  simp [isDuplicate, hstrip, Matches, namedKind, StyleKind.ofText?_eq_some, content]

theorem isDuplicate?_iff {t : JsonlStore} : isDuplicate? v c b t = some true ↔
    content v c ≠ "" ∧ ∃ ms, b.listAll t = some ms ∧ ∃ m ∈ ms, Matches v c m := by
  unfold isDuplicate?
  by_cases hempty : content v c = ""
  · simp [hempty]
  · rw [if_neg hempty, Option.map_eq_some_iff]
    simp only [isDuplicate_iff hempty, hempty, ne_eq, not_false_eq_true, true_and]

/-- An entry that matches would be added again where it is in scope. -/
theorem again_iff {item m : StyleMemory} (hitem : item? v c roomId accountId newId = some item)
    {kind : StyleKind} (hkind : namedKind v c = some kind) :
    Again item m ↔ Matches v c m ∧ InScope v c roomId accountId m := by
  obtain ⟨_, _, rfl⟩ := item?_eq_some.mp hitem
  simp only [Again, Matches, InScope, made, namedKind_eq_some hkind, hkind, Option.getD_some,
    Option.some.injEq]
  constructor
  · rintro ⟨rfl, hcontent, hscope⟩
    exact ⟨⟨hcontent, rfl⟩, hscope⟩
  · rintro ⟨⟨hcontent, rfl⟩, hscope⟩
    exact ⟨rfl, hcontent, hscope⟩

theorem agrees_iff : Agrees v c roomId accountId newId now taken s b ↔
    AgreesWhen v c roomId accountId newId now taken s b := by
  constructor
  · intro h
    refine ⟨fun item hitem hadded => ?_, fun hne ms hlist hmatch => ?_⟩
    · obtain ⟨_, ms, hlist, m, _, _, hkind⟩ := isDuplicate?_iff.mp (h.added item hitem hadded)
      exact ⟨Option.isSome_of_eq_some hkind, Option.isSome_of_eq_some hlist⟩
    · obtain ⟨item, hitem, e, he, m, hvalid, hagain⟩ :=
        h.stored (isDuplicate?_iff.mpr ⟨hne, ms, hlist, hmatch⟩)
      obtain ⟨m', _, _, hkind⟩ := hmatch
      exact ⟨(item?_eq_some.mp hitem).1, m, (Backend.mem_listAll hlist).mpr ⟨e, he, hvalid⟩,
        (again_iff hitem hkind).mp hagain⟩
  · intro h
    refine ⟨fun item hitem hadded => ?_, fun hdup => ?_⟩
    · obtain ⟨hnamed, hlisted⟩ := h.named item hitem hadded
      obtain ⟨kind, hkind⟩ := Option.isSome_iff_exists.mp hnamed
      obtain ⟨ms, hlist⟩ := Option.isSome_iff_exists.mp hlisted
      have hmem : item ∈ ms :=
        (Backend.mem_listAll hlist).mpr ⟨_, hadded.2, b.validate_dump now item⟩
      have hmatch : Matches v c item := ((again_iff hitem hkind).mp
        ⟨rfl, rfl, fun _ => rfl, fun _ => rfl⟩).1
      exact isDuplicate?_iff.mpr ⟨(item?_eq_some.mp hitem).2.1, ms, hlist, item, hmem, hmatch⟩
    · obtain ⟨hne, ms, hlist, hmatch⟩ := isDuplicate?_iff.mp hdup
      obtain ⟨hconfidence, m, hm, hagain⟩ := h.inScope hne ms hlist hmatch
      obtain ⟨e, he, hvalid⟩ := (Backend.mem_listAll hlist).mp hm
      have hitem : item? v c roomId accountId newId = some (made v c roomId accountId newId) :=
        item?_eq_some.mpr ⟨hconfidence, hne, rfl⟩
      exact ⟨_, hitem, e, he, m, hvalid, (again_iff hitem hagain.1.2).mpr hagain⟩

end StylePromotionHandler

/-! ## Patches of the persona -/

namespace PersonaPatchPromotionHandler

variable (b : ModelStore PersonaPatchCandidate PersonaPatchCandidate.dump)

/-- The patch and the reason of a candidate. -/
def proposed : String := Text.strip (v.strAt "proposed_patch" "" c.payload)

def reason : String := Text.strip (v.strAt "reason" "" c.payload)

/-- The target file as the check reads it, which does not take what is false for nothing. -/
def checkedFile : String := v.strAt "target_file" defaultTarget c.payload

/-- `list_pending` -/
def listPending (s : JsonlStore) : Option (List PersonaPatchCandidate) :=
  b.listFiltered [("status", .str "pending")] s

/-- What `apply` adds. -/
def item? : Option PersonaPatchCandidate :=
  match apply v c newId with
  | .ok (some (.personaPatch item), _) => some item
  | _ => none

/-- An entry with the patch, the reason and a file. -/
def Proposes (file : String) (m : PersonaPatchCandidate) : Prop :=
  m.reason = reason v c ∧ m.proposedPatch = proposed v c ∧ m.targetFile = file

instance (file : String) (m : PersonaPatchCandidate) : Decidable (Proposes v c file m) :=
  inferInstanceAs (Decidable (_ ∧ _ ∧ _))

/-- `is_duplicate` on the store; nothing comes of it where the store cannot be listed. -/
def isDuplicate? (s : JsonlStore) : Option Bool :=
  (listPending b s).map (·.any (Proposes v c (checkedFile v c)))

/-- The same target file and texts. -/
def Again (item m : PersonaPatchCandidate) : Prop :=
  m.targetFile = item.targetFile ∧ m.reason = item.reason ∧ m.proposedPatch = item.proposedPatch

def Agrees : Prop :=
  DuplicatesAgree b.toBackend s taken (item? v c newId) (PersonaPatchCandidate.dump now)
    (isDuplicate? v c b) Again

/-- When they agree: after an addition the store can be listed, and the target file is read alike,
or an entry for another file has what the check looks for; and where an entry matches, patch and
reason are no blanks, and the target file is read alike or an entry has the one of the patch. -/
structure AgreesWhen : Prop where
  alike : ∀ item, item? v c newId = some item → b.Added s (item.dump now) taken →
    ∃ ms, listPending b (b.call s (.add (item.dump now) taken)).2 = some ms ∧
      (targetFile v c.payload = checkedFile v c ∨
        ∃ m ∈ ms, m.targetFile ≠ targetFile v c.payload ∧ Proposes v c (checkedFile v c) m)
  inFile : ∀ ms, listPending b s = some ms → (∃ m ∈ ms, Proposes v c (checkedFile v c) m) →
    proposed v c ≠ "" ∧ reason v c ≠ "" ∧ (targetFile v c.payload = checkedFile v c ∨
      ∃ e ∈ b.records s, ∃ m, b.validate e = some m ∧ Proposes v c (targetFile v c.payload) m)

variable {v c newId now taken s b}

/-- The target file is read alike where it is missing, or true, or prints as nothing. -/
theorem targetFile_eq_iff : targetFile v c.payload = checkedFile v c ↔
    ∀ j, Dict.lookup "target_file" c.payload = some j → j.truthy = true ∨ v.str j = "" := by
  unfold targetFile checkedFile Conversion.strAt
  cases Dict.lookup "target_file" c.payload with
  | none => simp
  | some j =>
    cases h : j.truthy with
    | true => simp [h]
    | false => simp [h, @eq_comm _ ""]

variable (v c newId) in
/-- What `apply` adds of a candidate, whatever the confidence: nothing where the patch or the
reason is blank. -/
theorem item?_cases : (proposed v c = "" ∨ reason v c = "") ∧ item? v c newId = none ∨
    (proposed v c ≠ "" ∧ reason v c ≠ "") ∧ ∃ item, item? v c newId = some item ∧
      item.status = .pending ∧ Proposes v c (targetFile v c.payload) item := by
  unfold item? apply
  by_cases hblank : proposed v c = "" ∨ reason v c = ""
  · have hstrip : Text.strip (v.strAt "proposed_patch" "" c.payload) = "" ∨
        Text.strip (v.strAt "reason" "" c.payload) = "" := hblank
    exact .inl ⟨hblank, by simp [hstrip]⟩
  · have hstrip : ¬ (Text.strip (v.strAt "proposed_patch" "" c.payload) = "" ∨
        Text.strip (v.strAt "reason" "" c.payload) = "") := hblank
    refine .inr ⟨not_or.mp hblank, ?_⟩
    simp only [hstrip, if_false]
    split
    · next h =>
      split at h
      · cases h
        exact ⟨_, rfl, rfl, rfl, rfl, rfl⟩
      · cases h
        exact ⟨_, rfl, rfl, rfl, rfl, rfl⟩
    · next h =>
      split at h
      · exact absurd rfl (h _ _)
      · exact absurd rfl (h _ _)

theorem item?_fields {item : PersonaPatchCandidate} (h : item? v c newId = some item) :
    proposed v c ≠ "" ∧ reason v c ≠ "" ∧ item.status = .pending ∧
      Proposes v c (targetFile v c.payload) item := by
  rcases item?_cases v c newId with ⟨_, hnone⟩ |
    ⟨hfilled, item', hitem, hstatus, hproposes⟩
  · cases h.symm.trans hnone
  · cases h.symm.trans hitem
    exact ⟨hfilled.1, hfilled.2, hstatus, hproposes⟩

theorem isDuplicate?_iff {t : JsonlStore} : isDuplicate? v c b t = some true ↔
    ∃ ms, listPending b t = some ms ∧ ∃ m ∈ ms, Proposes v c (checkedFile v c) m := by
  simp [isDuplicate?, Option.map_eq_some_iff]

/-- What has been added is listed among what is pending. -/
theorem mem_listPending {t : JsonlStore} {item : PersonaPatchCandidate}
    {ms : List PersonaPatchCandidate} (hlist : listPending b t = some ms)
    (hstatus : item.status = .pending) (hmem : item.dump now ∈ b.records t) : item ∈ ms := by
  rw [listPending, Backend.listFiltered_eq] at hlist
  have hfits : b.fits [("status", .str "pending")] (item.dump now) = some true := by
    rw [PersonaPatchCandidate.fits_dump, b.same_text, hstatus]
    rfl
  exact (Backend.mem_filtered hlist).mpr ⟨_, hmem, hfits, b.validate_dump now item⟩

theorem again_iff {item m : PersonaPatchCandidate} (hitem : item? v c newId = some item) :
    Again item m ↔ Proposes v c (targetFile v c.payload) m := by
  obtain ⟨_, _, _, hreason, hpatch, hfile⟩ := item?_fields hitem
  constructor
  · rintro ⟨hfile', hreason', hpatch'⟩
    exact ⟨hreason'.trans hreason, hpatch'.trans hpatch, hfile'.trans hfile⟩
  · rintro ⟨hreason', hpatch', hfile'⟩
    exact ⟨hfile'.trans hfile.symm, hreason'.trans hreason.symm, hpatch'.trans hpatch.symm⟩

theorem agrees_iff : Agrees v c newId now taken s b ↔ AgreesWhen v c newId now taken s b := by
  constructor
  · intro h
    refine ⟨fun item hitem hadded => ?_, fun ms hlist hmatch => ?_⟩
    · obtain ⟨ms, hlist, m, hm, hproposes⟩ := isDuplicate?_iff.mp (h.added item hitem hadded)
      refine ⟨ms, hlist, ?_⟩
      by_cases hfile : m.targetFile = targetFile v c.payload
      · exact .inl (hfile.symm.trans hproposes.2.2)
      · exact .inr ⟨m, hm, hfile, hproposes⟩
    · obtain ⟨item, hitem, e, he, m, hvalid, hagain⟩ :=
        h.stored (isDuplicate?_iff.mpr ⟨ms, hlist, hmatch⟩)
      obtain ⟨hpatch, hreason, _⟩ := item?_fields hitem
      exact ⟨hpatch, hreason, .inr ⟨e, he, m, hvalid, (again_iff hitem).mp hagain⟩⟩
  · intro h
    refine ⟨fun item hitem hadded => ?_, fun hdup => ?_⟩
    · obtain ⟨ms, hlist, hfile | ⟨m, hm, _, hproposes⟩⟩ := h.alike item hitem hadded
      · obtain ⟨_, _, hstatus, hproposes⟩ := item?_fields hitem
        refine isDuplicate?_iff.mpr ⟨ms, hlist, item, ?_, hfile ▸ hproposes⟩
        exact mem_listPending hlist hstatus hadded.2
      · exact isDuplicate?_iff.mpr ⟨ms, hlist, m, hm, hproposes⟩
    · obtain ⟨ms, hlist, m, hm, hproposes⟩ := isDuplicate?_iff.mp hdup
      obtain ⟨hpatch, hreason, hfile⟩ := h.inFile ms hlist ⟨m, hm, hproposes⟩
      obtain ⟨hblank, _⟩ | ⟨_, item, hitem, _, _⟩ := item?_cases v c newId
      · exact absurd hblank (not_or.mpr ⟨hpatch, hreason⟩)
      · refine ⟨item, hitem, ?_⟩
        rcases hfile with hfile | ⟨e, he, m, hvalid, hproposes⟩
        · rw [listPending, Backend.listFiltered_eq] at hlist
          obtain ⟨e, he, _, hvalid⟩ := (Backend.mem_filtered hlist).mp hm
          exact ⟨e, he, m, hvalid, (again_iff hitem).mpr (hfile ▸ hproposes)⟩
        · exact ⟨e, he, m, hvalid, (again_iff hitem).mpr hproposes⟩

end PersonaPatchPromotionHandler

/-! ## Both handlers -/

/-- For every store, candidate and scope: the checks agree with what is stored exactly in these
cases. -/
theorem duplicates_agree_iff (styles : ModelStore StyleMemory StyleMemory.dump)
    (patches : ModelStore PersonaPatchCandidate PersonaPatchCandidate.dump) :
    (StylePromotionHandler.Agrees v c roomId accountId newId now taken s styles ↔
      StylePromotionHandler.AgreesWhen v c roomId accountId newId now taken s styles) ∧
    (PersonaPatchPromotionHandler.Agrees v c newId now taken s patches ↔
      PersonaPatchPromotionHandler.AgreesWhen v c newId now taken s patches) :=
  ⟨StylePromotionHandler.agrees_iff, PersonaPatchPromotionHandler.agrees_iff⟩

end Handlers

/-! ## Stores that read what they have dumped -/

def texts : List Json → List String
  | .str s :: items => s :: texts items
  | _ => []

theorem texts_map_str (l : List String) : texts (l.map .str) = l := by
  induction l with
  | nil => rfl
  | cons s l ih => rw [List.map_cons, texts, ih]

def StyleMemory.ofDump : Json → Option StyleMemory
  | .obj [("id", .str id), _, ("scope", .str scope), ("account_id", .str accountId),
      ("room_id", .str roomId), ("kind", .str kind), ("content", .str content),
      ("evidence", .str evidence), ("confidence", .num confidence), _, _, _, _,
      ("activation_condition", .str activationCondition),
      ("source_record_ids", .arr sourceRecordIds)] => do
    let scope ← StyleScope.ofText? scope
    let kind ← StyleKind.ofText? kind
    return { id, scope, accountId, roomId, kind, content, evidence, confidence,
             activationCondition, sourceRecordIds := texts sourceRecordIds }
  | _ => none

theorem StyleMemory.ofDump_dump (now : String) (m : StyleMemory) :
    ofDump (m.dump now) = some m := by
  have hscope : StyleScope.ofText? m.scope.text = some m.scope := by
    cases m.scope <;> rfl
  have hkind : StyleKind.ofText? m.kind.text = some m.kind := StyleKind.ofText?_eq_some.mpr rfl
  simp [ofDump, dump, hscope, hkind, texts_map_str]

def PersonaPatchCandidate.ofDump : Json → Option PersonaPatchCandidate
  | .obj [("id", .str id), _, ("target_file", .str targetFile), ("reason", .str reason),
      ("proposed_patch", .str proposedPatch), ("evidence_record_ids", .arr evidenceRecordIds),
      ("confidence", .num confidence), ("status", .str status), ("metadata", .obj metadata)] => do
    let status ← [PersonaPatchStatus.pending, .approved, .rejected, .applied].find?
      (·.text = status)
    return { id, targetFile, reason, proposedPatch, evidenceRecordIds := texts evidenceRecordIds,
             confidence, status, metadata }
  | _ => none

theorem PersonaPatchCandidate.ofDump_dump (now : String) (m : PersonaPatchCandidate) :
    ofDump (m.dump now) = some m := by
  have hstatus : [PersonaPatchStatus.pending, .approved, .rejected, .applied].find?
      (·.text = m.status.text) = some m.status := by
    cases m.status <;> rfl
  simp only [ofDump, dump, hstatus, texts_map_str]
  rfl

/-- A store whose library reads the entries of a table. -/
def tableStore {M : Type} {dump : String → M → Json} (validate : Json → Option M)
    (validate_dump : ∀ now m, validate (dump now m) = some m) (table : List Json) :
    ModelStore M dump where
  toJsonText := .ofTable plainWriter table
  serialises _ := true
  same
    | .str s, .str t => s == t
    | _, _ => false
  validate := validate
  same_text _ _ := rfl
  validate_dump := validate_dump

/-- A wish that does not name its kind. -/
def brief : MemoryCandidate where
  id := "c1"
  sourceRecordIds := ["r1"]
  targetStore := .style
  payload := [("content", .str "be brief")]
  confidence := 9 / 10
  payloadHash := "h1"

/-- The wish is added, and is no duplicate of itself. -/
theorem brief_not_duplicate :
    ¬ ∀ (v : Conversion) (c : MemoryCandidate) (roomId accountId newId now : String)
      (taken : Bool) (s : JsonlStore) (styles : ModelStore StyleMemory StyleMemory.dump)
      (patches : ModelStore PersonaPatchCandidate PersonaPatchCandidate.dump),
      StylePromotionHandler.Agrees v c roomId accountId newId now taken s styles ∧
        PersonaPatchPromotionHandler.Agrees v c newId now taken s patches := by
  intro h
  let item := StylePromotionHandler.made .plain brief "r" "a" "s1"
  let styles : ModelStore StyleMemory StyleMemory.dump :=
    tableStore StyleMemory.ofDump StyleMemory.ofDump_dump [item.dump "t"]
  have hagrees := (h .plain brief "r" "a" "s1" "t" true {} styles
    (tableStore PersonaPatchCandidate.ofDump PersonaPatchCandidate.ofDump_dump [])).1
  have hadded : styles.Added {} (item.dump "t") true :=
    Backend.added_of_unbroken (isRecord_ofTable rfl) (unbroken_of_all (by decide)) rfl
  have hitem : StylePromotionHandler.item? .plain brief "r" "a" "s1" = some item :=
    StylePromotionHandler.item?_eq_some.mpr ⟨by norm_num [brief], by decide, rfl⟩
  have hdup := hagrees.added item hitem hadded
  obtain ⟨_, _, _, _, _, _, hkind⟩ := StylePromotionHandler.isDuplicate?_iff.mp hdup
  have hnone : StylePromotionHandler.namedKind .plain brief = none := rfl
  cases hnone.symm.trans hkind

end IrisMind.Memory
