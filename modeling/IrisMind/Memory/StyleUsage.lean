import IrisMind.Lib.Machine
import IrisMind.Memory.CandidateStore
import IrisMind.Memory.Records

/-! # How often a style has been used

A use is counted in two steps: the style is read, and all its fields are written back with one of
the counts and the time of use changed. What is written between the two is written over. -/
namespace IrisMind.Memory
open IrisMind.Lib

/-- A style with all that is kept of it. -/
structure StoredStyle extends StyleMemory where
  timestamp : String
  successCount : Int := 0
  failureCount : Int := 0
  lastUsedAt : String := ""
  enabled : Bool := true

/-- What the store relies on: JSON lines, conversions of numbers and flags, and what is drawn for a
record without an id or a time. -/
structure StyleSetup extends JsonText where
  serialises : Json → Bool
  same : Json → Json → Bool
  conv : Conversion
  parseInt : String → Option Int
  parseBool : String → Option Bool
  newId : String
  now : String

/-- A field without a default. -/
def required {α : Type} (read : Json → Option α) : Option Json → Option α
  | none => none
  | some j => read j

def readScope : Json → Option StyleScope
  | .str s => StyleScope.ofText? s
  | _ => none

def readKind : Json → Option StyleKind
  | .str s => StyleKind.ofText? s
  | _ => none

namespace StyleSetup

variable (u : StyleSetup)

def readInt : Json → Option Int
  | .int n => some n
  | .bool b => some (if b then 1 else 0)
  | .num q => if q.den = 1 then some q.num else none
  | .str s => u.parseInt s
  | _ => none

def readBool : Json → Option Bool
  | .bool b => some b
  | .int n => if n = 0 then some false else if n = 1 then some true else none
  | .num q => if q = 0 then some false else if q = 1 then some true else none
  | .str s => u.parseBool s
  | _ => none

end StyleSetup

namespace StoredStyle

def fields (m : StoredStyle) : List (String × Json) :=
  [("id", .str m.id), ("timestamp", .str m.timestamp), ("scope", .str m.scope.text),
    ("account_id", .str m.accountId), ("room_id", .str m.roomId), ("kind", .str m.kind.text),
    ("content", .str m.content), ("evidence", .str m.evidence), ("confidence", .num m.confidence),
    ("success_count", .int m.successCount), ("failure_count", .int m.failureCount),
    ("last_used_at", .str m.lastUsedAt), ("enabled", .bool m.enabled),
    ("activation_condition", .str m.activationCondition),
    ("source_record_ids", .arr (m.sourceRecordIds.map .str))]

def ofFields (u : StyleSetup) (get : String → Option Json) : Option StoredStyle := do
  let id ← fieldOr readText u.newId (get "id")
  let timestamp ← fieldOr readText u.now (get "timestamp")
  let scope ← fieldOr readScope .global (get "scope")
  let accountId ← fieldOr readText "" (get "account_id")
  let roomId ← fieldOr readText "" (get "room_id")
  let kind ← required readKind (get "kind")
  let content ← required readText (get "content")
  let evidence ← fieldOr readText "" (get "evidence")
  let confidence ← fieldOr (FieldKind.number? u.conv) 0 (get "confidence")
  let successCount ← fieldOr u.readInt 0 (get "success_count")
  let failureCount ← fieldOr u.readInt 0 (get "failure_count")
  let lastUsedAt ← fieldOr readText "" (get "last_used_at")
  let enabled ← fieldOr u.readBool true (get "enabled")
  let activationCondition ← fieldOr readText "" (get "activation_condition")
  let sourceRecordIds ← fieldOr readTexts [] (get "source_record_ids")
  return { id, timestamp, scope, accountId, roomId, kind, content, evidence, confidence,
           successCount, failureCount, lastUsedAt, enabled, activationCondition, sourceRecordIds }

def modelValidate (u : StyleSetup) : Json → Option StoredStyle
  | .obj fields => ofFields u fun k => Dict.lookup k fields
  | _ => none

theorem validates (u : StyleSetup) (m : StoredStyle) (es : List (String × Json))
    (h : ∀ f ∈ m.fields, Dict.lookup f.1 es = some f.2) :
    modelValidate u (.obj es) = some m := by
  have hscope : readScope (.str m.scope.text) = some m.scope := by cases m.scope <;> rfl
  have hkind : readKind (.str m.kind.text) = some m.kind := StyleKind.ofText?_eq_some.mpr rfl
  simp only [fields, List.forall_mem_cons] at h
  simp [modelValidate, ofFields, h, fieldOr, required, readText, hscope, hkind,
    StoredCandidate.readTexts_map, FieldKind.number?, Json.number?, StyleSetup.readInt,
    StyleSetup.readBool]

/-- `record_usage` on the style that was read. -/
def used (m : StoredStyle) (success : Bool) (now : String) : StoredStyle :=
  if success then { m with successCount := m.successCount + 1, lastUsedAt := now }
  else { m with failureCount := m.failureCount + 1, lastUsedAt := now }

/-- How often the style was used. -/
def uses (m : StoredStyle) : Int := m.successCount + m.failureCount

end StoredStyle

/-- The fields that an update gives, of those that neither name a style nor count its uses. -/
structure StyleChange where
  timestamp : Option String := none
  scope : Option StyleScope := none
  accountId : Option String := none
  roomId : Option String := none
  kind : Option StyleKind := none
  content : Option String := none
  evidence : Option String := none
  confidence : Option ℚ := none
  lastUsedAt : Option String := none
  enabled : Option Bool := none
  activationCondition : Option String := none
  sourceRecordIds : Option (List String) := none

namespace StyleChange

variable (c : StyleChange)

def values : List (String × Option Json) :=
  [("timestamp", c.timestamp.map .str), ("scope", c.scope.map (.str ·.text)),
    ("account_id", c.accountId.map .str), ("room_id", c.roomId.map .str),
    ("kind", c.kind.map (.str ·.text)), ("content", c.content.map .str),
    ("evidence", c.evidence.map .str), ("confidence", c.confidence.map .num),
    ("last_used_at", c.lastUsedAt.map .str), ("enabled", c.enabled.map .bool),
    ("activation_condition", c.activationCondition.map .str),
    ("source_record_ids", c.sourceRecordIds.map fun ids => .arr (ids.map .str))]

/-- The keywords of the call. -/
def fields : List (String × Json) := c.values.filterMap fun e => e.2.map (e.1, ·)

def apply (m : StoredStyle) : StoredStyle :=
  { m with
    timestamp := c.timestamp.getD m.timestamp
    scope := c.scope.getD m.scope
    accountId := c.accountId.getD m.accountId
    roomId := c.roomId.getD m.roomId
    kind := c.kind.getD m.kind
    content := c.content.getD m.content
    evidence := c.evidence.getD m.evidence
    confidence := c.confidence.getD m.confidence
    lastUsedAt := c.lastUsedAt.getD m.lastUsedAt
    enabled := c.enabled.getD m.enabled
    activationCondition := c.activationCondition.getD m.activationCondition
    sourceRecordIds := c.sourceRecordIds.getD m.sourceRecordIds }

end StyleChange

/-- What is done to a style, all at once. -/
inductive StyleOp where
  | used (itemId : String) (success : Bool) (now : String)
  | changed (itemId : String) (change : StyleChange)

def StyleOp.isUse (itemId : String) : StyleOp → Bool
  | .used id _ _ => id = itemId
  | .changed _ _ => false

/-- A call of `record_usage`: the style it has read, and whether it is over. -/
structure UsageCall where
  itemId : String
  success : Bool
  read : Option StoredStyle
  finished : Bool := false

namespace UsageCall

/-- The style that the call is to write back. -/
def pending (c : UsageCall) : Option StoredStyle := if c.finished then none else c.read

/-- The call writes a style back. -/
def write (c : UsageCall) (m : StoredStyle) (usedAt now : String) (taken : Bool) : StoreCall :=
  .update c.itemId (m.used c.success usedAt).fields now taken

end UsageCall

/-- The store, the calls that were made, and what has been written, in order. -/
structure StyleWorld where
  store : JsonlStore
  calls : List UsageCall := []
  history : List StyleOp := []

inductive StyleInput where
  /-- A call begins: `find`. -/
  | find (itemId : String) (success : Bool)
  /-- A call that has found its style writes it back. -/
  | writeBack (call : Nat) (usedAt now : String) (taken : Bool)
  | update (itemId : String) (change : StyleChange) (now : String) (taken : Bool)

namespace StyleSetup

variable (u : StyleSetup)

def store : RecordStore StoredStyle where
  toJsonText := u.toJsonText
  serialises := u.serialises
  same := u.same
  validate := StoredStyle.modelValidate u
  fields := StoredStyle.fields
  id m := m.id
  id_field _ := List.mem_cons_self
  nodup m := by
    show ["id", "timestamp", "scope", "account_id", "room_id", "kind", "content", "evidence",
      "confidence", "success_count", "failure_count", "last_used_at", "enabled",
      "activation_condition", "source_record_ids"].Nodup
    decide
  validates := StoredStyle.validates u

/-- The style that is found under an id. -/
def found (s : JsonlStore) (itemId : String) : Option StoredStyle :=
  match (u.store.call s (.find itemId)).1 with
  | .item m => some m
  | _ => none

/-- The call that a step makes of the store. -/
def callOf (w : StyleWorld) : StyleInput → Option StoreCall
  | .find itemId _ => some (.find itemId)
  | .writeBack call usedAt now taken => do
    let c ← w.calls[call]?
    let m ← c.pending
    return c.write m usedAt now taken
  | .update itemId change now taken => some (.update itemId change.fields now taken)

def step (w : StyleWorld) : StyleInput → StyleWorld
  | .find itemId success =>
    let read := u.found w.store itemId
    let (_, store) := u.store.call w.store (.find itemId)
    { w with store, calls := w.calls ++ [{ itemId, success, read }] }
  | .writeBack call usedAt now taken =>
    match w.calls[call]? with
    | none => w
    | some c => match c.pending with
      | none => w
      | some m =>
        let (_, store) := u.store.call w.store (c.write m usedAt now taken)
        { store, calls := w.calls.set call { c with finished := true }
          history := w.history ++ [.used c.itemId c.success usedAt] }
  | .update itemId change now taken =>
    let (_, store) := u.store.call w.store (.update itemId change.fields now taken)
    { w with store, history := w.history ++ [.changed itemId change] }

/-! ## What is promised -/

/-- What becomes of the styles when an operation is done in one step. -/
def done (ms : List StoredStyle) : StyleOp → List StoredStyle
  | .used itemId success now => u.store.change itemId (·.used success now) ms
  | .changed itemId change => u.store.change itemId change.apply ms

/-- A style is written back as long as it is what the call has read. -/
def Fresh (w : StyleWorld) : StyleInput → Prop
  | .writeBack call _ _ _ => ∀ c m, w.calls[call]? = some c → c.pending = some m →
      u.found w.store c.itemId = some m
  | _ => True

/-- No text that is written has a line boundary beyond ASCII. -/
def Whole : StyleInput → Prop
  | .find _ _ => True
  | .writeBack _ usedAt now _ => (Json.str usedAt).Unbroken ∧ (Json.str now).Unbroken
  | .update _ change now _ => (Json.obj change.fields).Unbroken ∧ (Json.str now).Unbroken

/-- What a step writes can be read again. -/
def Reads (w : StyleWorld) (input : StyleInput) : Prop :=
  ∀ c, callOf w input = some c → u.store.Reads w.store c

variable {u} {w : StyleWorld} {ms : List StoredStyle}

/-! ## One operation -/

theorem used_unbroken {m : StoredStyle} (h : (Json.obj m.fields).Unbroken) (success : Bool)
    {now : String} (hnow : (Json.str now).Unbroken) :
    (Json.obj (m.used success now).fields).Unbroken := by
  have hint (n : Int) : (Json.int n).Unbroken := fun s hs => absurd hs List.not_mem_nil
  rw [Json.unbroken_obj] at h ⊢
  cases success <;>
    simp only [StoredStyle.used, StoredStyle.fields, Bool.false_eq_true, if_true, if_false,
      List.forall_mem_cons] at h ⊢ <;>
    simp only [h, hnow, hint, List.not_mem_nil, false_implies, implies_true, and_self]

theorem shows_used (m : StoredStyle) (success : Bool) (usedAt now : String)
    (es : List (String × Json)) :
    u.store.Shows (changed (m.used success usedAt).fields now es) (m.used success usedAt) := by
  have hkeys : ∀ f ∈ (m.used success usedAt).fields, "updated_at" ≠ f.1 := by
    simp [StoredStyle.fields]
  refine RecordStore.shows_rewritten (r := u.store) (u.store.nodup _) (fun f hf => ?_) es
  exact .inr ⟨hkeys f hf, RecordStore.shows_fields (r := u.store) _ f hf⟩

end StyleSetup

namespace StyleChange

variable {u : StyleSetup} (c : StyleChange)

theorem lookup_given {options : List (String × Option Json)} (hn : (options.map Prod.fst).Nodup)
    (k : String) : Dict.lookup k (options.filterMap fun e => e.2.map (e.1, ·)) =
      (Dict.lookup k options).join := by
  induction options with
  | nil => rfl
  | cons e options ih =>
    obtain ⟨he, hn⟩ := List.nodup_cons.mp hn
    have ih := ih hn
    rw [Dict.lookup, List.filterMap_cons]
    obtain ⟨key, value⟩ := e
    cases value with
    | none =>
      dsimp only [Option.map_none]
      split
      · next hk =>
        subst hk
        rw [ih, Dict.lookup_eq_none.mpr he]
        rfl
      · exact ih
    | some value =>
      dsimp only [Option.map_some]
      rw [Dict.lookup]
      split
      · rfl
      · exact ih

theorem nodup_values : (c.values.map Prod.fst).Nodup := by
  show ["timestamp", "scope", "account_id", "room_id", "kind", "content", "evidence",
    "confidence", "last_used_at", "enabled", "activation_condition", "source_record_ids"].Nodup
  decide

theorem nodup_fields : (c.fields.map Prod.fst).Nodup := by
  refine c.nodup_values.sublist ?_
  unfold fields
  generalize c.values = options
  induction options with
  | nil => exact List.Sublist.refl _
  | cons e options ih =>
    obtain ⟨key, value⟩ := e
    cases value with
    | none => exact ih.cons _
    | some value => exact ih.cons_cons _

theorem given_or {α : Type} (given : Option α) (write : α → Json) (old : α) :
    (given.map write).or (some (write old)) = some (write (given.getD old)) := by
  cases given <;> rfl

theorem shows_changed {m : StoredStyle} {es : List (String × Json)} (h : u.store.Shows es m)
    (now : String) : u.store.Shows (changed c.fields now es) (c.apply m) := by
  have hvalue (k : String) : Dict.lookup k c.fields = (Dict.lookup k c.values).join :=
    lookup_given c.nodup_values k
  refine h.changed c.nodup_fields ?_
  have hkeys : ∀ f ∈ (c.apply m).fields, "updated_at" ≠ f.1 := by
    simp [StoredStyle.fields]
  refine fun f hf => ⟨hkeys f hf, ?_⟩
  rw [hvalue]
  revert f
  show ∀ f ∈ (c.apply m).fields, (Dict.lookup f.1 c.values).join.or (Dict.lookup f.1 m.fields) =
    some f.2
  simp only [StoredStyle.fields, List.forall_mem_cons]
  refine ⟨?_, ?_, ?_, ?_, ?_, ?_, ?_, ?_, ?_, ?_, ?_, ?_, ?_, ?_, ?_, by simp⟩
  · rfl
  · exact given_or c.timestamp .str m.timestamp
  · exact given_or c.scope (.str ·.text) m.scope
  · exact given_or c.accountId .str m.accountId
  · exact given_or c.roomId .str m.roomId
  · exact given_or c.kind (.str ·.text) m.kind
  · exact given_or c.content .str m.content
  · exact given_or c.evidence .str m.evidence
  · exact given_or c.confidence .num m.confidence
  · rfl
  · rfl
  · exact given_or c.lastUsedAt .str m.lastUsedAt
  · exact given_or c.enabled .bool m.enabled
  · exact given_or c.activationCondition .str m.activationCondition
  · exact given_or c.sourceRecordIds (fun ids => .arr (ids.map .str)) m.sourceRecordIds

end StyleChange

namespace StyleSetup

variable {u : StyleSetup} {w : StyleWorld} {ms : List StoredStyle}

/-- The store keeps what is left of the styles when everything written so far is done at once. -/
def Serial (u : StyleSetup) (ms : List StoredStyle) (w : StyleWorld) : Prop :=
  u.store.Keeps w.store (w.history.foldl u.done ms)

theorem found_eq {s : JsonlStore} (h : u.store.Keeps s ms) (itemId : String) :
    u.found s itemId = ms.find? (u.store.hasId itemId) := by
  rw [found, (RecordStore.call_find h itemId).1]
  cases ms.find? (u.store.hasId itemId) <;> rfl

theorem step_find (itemId : String) (success : Bool) :
    u.step w (.find itemId success) =
      { w with
        store := (u.store.call w.store (.find itemId)).2
        calls := w.calls ++ [{ itemId, success, read := u.found w.store itemId }] } := rfl

theorem step_writeBack {call : Nat} {c : UsageCall} {m : StoredStyle}
    (hc : w.calls[call]? = some c) (hm : c.pending = some m) (usedAt now : String) (taken : Bool) :
    u.step w (.writeBack call usedAt now taken) =
      { store := (u.store.call w.store (c.write m usedAt now taken)).2
        calls := w.calls.set call { c with finished := true }
        history := w.history ++ [.used c.itemId c.success usedAt] } := by
  simp only [step, hc, hm]

theorem serial_step (h : Serial u ms w) {input : StyleInput}
    (hinput : u.Reads w input ∧ Whole input ∧ u.Fresh w input) : Serial u ms (u.step w input) := by
  obtain ⟨hreads, hwhole, hfresh⟩ := hinput
  cases input with
  | find itemId success => exact (RecordStore.call_find h itemId).2
  | writeBack call usedAt now taken =>
    cases hc : w.calls[call]? with
    | none => simpa only [step, hc] using h
    | some c =>
      cases hm : c.pending with
      | none => simpa only [step, hc, hm] using h
      | some m =>
        have hcall : callOf w (.writeBack call usedAt now taken) =
            some (c.write m usedAt now taken) := by
          simp [callOf, hc, hm]
        have hfound := hfresh c m hc hm
        rw [found_eq h] at hfound
        rw [Serial, step_writeBack hc hm, List.foldl_append]
        refine RecordStore.call_update h (hreads _ hcall) fun es m' hm' hshows hline => ?_
        obtain rfl : m = m' := Option.some.inj (hfound.symm.trans hm')
        refine ⟨shows_used m c.success usedAt now es, ?_⟩
        exact unbroken_changed hline (used_unbroken (hshows.unbroken hline) _ hwhole.1) hwhole.2
  | update itemId change now taken =>
    show u.store.Keeps _ ((w.history ++ [_]).foldl u.done ms)
    rw [List.foldl_append]
    refine RecordStore.call_update h (hreads _ rfl) fun es m _ hshows hline => ?_
    exact ⟨change.shows_changed hshows now, unbroken_changed hline hwhole.1 hwhole.2⟩

/-! ## Counts -/

/-- A use counts once, and no other operation counts. -/
theorem uses_done (op : StyleOp) {itemId : String} {m : StoredStyle}
    (h : ms.find? (u.store.hasId itemId) = some m) :
    ∃ m', (u.done ms op).find? (u.store.hasId itemId) = some m' ∧
      m'.uses = m.uses + if op.isUse itemId then 1 else 0 := by
  cases op with
  | used id success now =>
    have hid (m : StoredStyle) : u.store.id (m.used success now) = u.store.id m := by
      cases success <;> rfl
    rw [done, RecordStore.find?_change hid, h]
    simp only [StyleOp.isUse, decide_eq_true_eq]
    split
    · refine ⟨_, rfl, ?_⟩
      cases success <;> simp only [StoredStyle.uses, StoredStyle.used, Bool.false_eq_true,
        if_true, if_false] <;> omega
    · exact ⟨m, rfl, (Int.add_zero _).symm⟩
  | changed id change =>
    have hid (m : StoredStyle) : u.store.id (change.apply m) = u.store.id m := rfl
    rw [done, RecordStore.find?_change hid, h]
    split
    · exact ⟨_, rfl, (Int.add_zero _).symm⟩
    · exact ⟨m, rfl, (Int.add_zero _).symm⟩

theorem uses_foldl (history : List StyleOp) {itemId : String} {m : StoredStyle}
    (h : ms.find? (u.store.hasId itemId) = some m) :
    ∃ m', (history.foldl u.done ms).find? (u.store.hasId itemId) = some m' ∧
      m'.uses = m.uses + history.countP (StyleOp.isUse itemId) := by
  induction history generalizing ms m with
  | nil => exact ⟨m, h, by simp⟩
  | cons op history ih =>
    obtain ⟨m', hm', huses⟩ := uses_done op h
    obtain ⟨m'', hm'', hrest⟩ := ih hm'
    refine ⟨m'', hm'', ?_⟩
    rw [hrest, huses, List.countP_cons]
    split <;> push_cast <;> omega

end StyleSetup
open StyleSetup

/-- As long as every style is written back as it has been read, the store keeps what all that was
written makes of the styles when each is done at once, and every use counts. -/
theorem run_usage_counted (u : StyleSetup) {s : JsonlStore} {ms : List StoredStyle}
    (hstart : u.store.Keeps s ms) (inputs : List StyleInput)
    (h : Machine.Guarded u.step (fun w input => u.Reads w input ∧ Whole input ∧ u.Fresh w input)
      { store := s } inputs) :
    let w := Machine.run u.step { store := s } inputs
    u.store.Keeps w.store (w.history.foldl u.done ms) ∧
      ∀ itemId m, ms.find? (u.store.hasId itemId) = some m →
        ∃ m', u.found w.store itemId = some m' ∧
          m'.uses = m.uses + w.history.countP (StyleOp.isUse itemId) := by
  intro w
  have hbegin : Serial u ms { store := s } := hstart
  have hserial : Serial u ms w := h.inv (Serial u ms) (fun _ _ h => serial_step h) hbegin
  refine ⟨hserial, fun itemId m hm => ?_⟩
  rw [found_eq hserial]
  exact uses_foldl w.history hm

/-! ## One style -/

/-- A store whose library reads the records of a table. -/
def tableStyles (table : List Json) : StyleSetup where
  toJsonText := .ofTable plainWriter table
  serialises _ := true
  same _ _ := false
  conv := .plain
  parseInt _ := none
  parseBool _ := none
  newId := "s2"
  now := "t2"

def briefAnswers : StoredStyle where
  id := "s1"
  timestamp := "t0"
  scope := .global
  accountId := ""
  roomId := ""
  kind := .tonePreference
  content := "brief answers"
  evidence := ""
  confidence := 0
  activationCondition := ""
  sourceRecordIds := []

/-- The record after a use. -/
def briefAnswersUsed : Json :=
  .obj (changed (briefAnswers.used true "t1").fields "t1" briefAnswers.fields)

/-- The style after a second use. -/
def briefAnswersTwice : StoredStyle := (briefAnswers.used true "t1").used true "t2"

/-- The record after a second use. -/
def briefAnswersUsedTwice : Json :=
  .obj (changed briefAnswersTwice.fields "t2"
    (changed (briefAnswers.used true "t1").fields "t1" briefAnswers.fields))

def briefRecords : List Json := [.obj briefAnswers.fields, briefAnswersUsed, briefAnswersUsedTwice]

def briefStyles : StyleSetup := tableStyles briefRecords

def briefStore : JsonlStore := { cache := some [.obj briefAnswers.fields] }

theorem loads_brief {fields : List (String × Json)} (h : .obj fields ∈ briefRecords) :
    briefStyles.loads (briefStyles.dumps (.obj fields)) = some (.obj fields) :=
  (isRecord_of_mem_table (by decide +kernel) h rfl).reads

theorem keeps_briefStore : briefStyles.store.Keeps briefStore [briefAnswers] :=
  .cons ⟨⟨_, rfl, RecordStore.shows_fields (r := briefStyles.store) briefAnswers⟩,
    loads_brief (by simp [briefRecords]), unbroken_of_all (by decide)⟩ .nil

theorem row_briefAnswersUsed :
    briefStyles.store.Row briefAnswersUsed (briefAnswers.used true "t1") where
  shows := ⟨_, rfl, shows_used briefAnswers true "t1" "t1" _⟩
  reads := loads_brief (by simp [briefRecords, briefAnswersUsed])
  whole := unbroken_of_all (by decide)

/-- The call that writes the used style back. -/
def writeUsed : StoreCall := .update "s1" (briefAnswers.used true "t1").fields "t1" true

/-- Whether the style or the used one is there, the used one is written. -/
theorem writeUsed_spec {s : JsonlStore}
    (h : briefStyles.store.records s = [.obj briefAnswers.fields] ∨
      briefStyles.store.records s = [briefAnswersUsed]) :
    briefStyles.store.Reads s writeUsed ∧
      briefStyles.store.records (briefStyles.store.call s writeUsed).2 = [briefAnswersUsed] := by
  have hkept : (briefStyles.store.kept [briefAnswersUsed] true).2 = [briefAnswersUsed] :=
    RecordStore.kept_rows (.cons row_briefAnswersUsed .nil) true
  rw [(briefStyles.store.call_records s writeUsed).2]
  unfold RecordStore.Reads RecordStore.written? writeUsed
  rcases h with h | h <;> rw [h] <;>
  · refine ⟨fun e he => ?_, hkept⟩
    cases he
    exact row_briefAnswersUsed.reads

/-- The style is used, and used again after that. -/
def twoUses : List StyleInput :=
  [.find "s1" true, .writeBack 0 "t1" "t1" true, .find "s1" true, .writeBack 1 "t2" "t2" true]

theorem found_briefStore : briefStyles.found briefStore "s1" = some briefAnswers :=
  found_eq keeps_briefStore "s1"

/-- The call that both make. -/
def briefUse : UsageCall := { itemId := "s1", success := true, read := some briefAnswers }

theorem step_findBrief (calls : List UsageCall) :
    briefStyles.step { store := briefStore, calls } (.find "s1" true) =
      { store := briefStore, calls := calls ++ [briefUse] } := by
  have hstore : (briefStyles.store.call briefStore (.find "s1")).2 = briefStore := by
    have hlocate : locate "s1" [.obj briefAnswers.fields] = .found [] briefAnswers.fields [] := rfl
    simp only [Backend.call, JsonlStore.loadAll, briefStore, hlocate]
  rw [step_find, hstore, found_briefStore]
  rfl

/-- The call that comes after it. -/
def nextUse : UsageCall :=
  { itemId := "s1", success := true, read := some (briefAnswers.used true "t1") }

/-- The state when a first call has written the style back. -/
def usedOnce (s : JsonlStore) (next : List UsageCall) : StyleWorld where
  store := s
  calls := { briefUse with finished := true } :: next
  history := [.used "s1" true "t1"]

theorem step_writeBriefUse (next : List UsageCall) :
    briefStyles.step { store := briefStore, calls := briefUse :: next }
        (.writeBack 0 "t1" "t1" true) =
      usedOnce (briefStyles.store.call briefStore writeUsed).2 next :=
  step_writeBack (c := briefUse) rfl rfl "t1" "t1" true

section SecondUse

variable {s : JsonlStore} (h : briefStyles.store.records s = [briefAnswersUsed])
include h

theorem keeps_used : briefStyles.store.Keeps s [briefAnswers.used true "t1"] := by
  rw [RecordStore.Keeps, h]
  exact .cons row_briefAnswersUsed .nil

theorem found_used : briefStyles.found s "s1" = some (briefAnswers.used true "t1") := by
  rw [found_eq (keeps_used h)]
  rfl

theorem step_findUsed : briefStyles.step (usedOnce s []) (.find "s1" true) =
    usedOnce (briefStyles.store.call s (.find "s1")).2 [nextUse] := by
  rw [step_find, usedOnce, found_used h]
  rfl

theorem guarded_writeNextUse : Machine.Guarded briefStyles.step
    (fun w input => briefStyles.Reads w input ∧ Whole input ∧ briefStyles.Fresh w input)
    (usedOnce s [nextUse]) [.writeBack 1 "t2" "t2" true] := by
  refine ⟨⟨fun c hc e he => ?_, ⟨unbroken_of_all (by decide), unbroken_of_all (by decide)⟩,
    fun c m hc hm => ?_⟩, trivial⟩
  · have hwritten : briefStyles.store.written? s
        (nextUse.write (briefAnswers.used true "t1") "t2" "t2" true) =
          some briefAnswersUsedTwice := by
      unfold RecordStore.written? UsageCall.write
      rw [h]
      rfl
    cases hc
    cases hwritten.symm.trans he
    exact loads_brief (by simp [briefRecords, briefAnswersUsedTwice])
  · cases hc
    cases hm
    exact found_used h

end SecondUse

theorem guarded_twoUses : Machine.Guarded briefStyles.step
    (fun w input => briefStyles.Reads w input ∧ Whole input ∧ briefStyles.Fresh w input)
    { store := briefStore } twoUses := by
  have hfind (w : StyleWorld) : briefStyles.Reads w (.find "s1" true) ∧
      Whole (.find "s1" true) ∧ briefStyles.Fresh w (.find "s1" true) := by
    refine ⟨fun c hc e he => ?_, trivial, trivial⟩
    cases hc
    cases he
  obtain ⟨hreads, hrecords⟩ := writeUsed_spec (s := briefStore) (.inl rfl)
  refine ⟨hfind _, ?_⟩
  rw [step_findBrief, List.nil_append]
  refine ⟨⟨fun c hc => ?_, ⟨unbroken_of_all (by decide), unbroken_of_all (by decide)⟩,
    fun c m hc hm => ?_⟩, ?_⟩
  · cases hc
    exact hreads
  · cases hc
    cases hm
    exact found_briefStore
  rw [step_writeBriefUse]
  refine ⟨hfind _, ?_⟩
  rw [step_findUsed hrecords]
  exact guarded_writeNextUse ((RecordStore.records_find _ "s1").trans hrecords)

theorem history_twoUses :
    (Machine.run briefStyles.step { store := briefStore } twoUses).history =
      [.used "s1" true "t1", .used "s1" true "t2"] := by
  obtain ⟨-, hrecords⟩ := writeUsed_spec (s := briefStore) (.inl rfl)
  rw [twoUses, Machine.run_cons, step_findBrief, List.nil_append, Machine.run_cons,
    step_writeBriefUse, Machine.run_cons, step_findUsed hrecords, Machine.run_cons,
    Machine.run_nil, step_writeBack (c := nextUse) rfl rfl "t2" "t2" true]
  rfl

/-- Two uses, one after the other, count twice. -/
theorem run_usage_counted_brief : ∃ m',
    briefStyles.found (Machine.run briefStyles.step { store := briefStore } twoUses).store "s1" =
      some m' ∧ m'.uses = 2 := by
  obtain ⟨m', hfound, huses⟩ :=
    (run_usage_counted briefStyles keeps_briefStore twoUses guarded_twoUses).2 "s1" briefAnswers rfl
  rw [history_twoUses] at huses
  exact ⟨m', hfound, huses⟩

/-- Two calls read the style before one of them writes it back. -/
def racingUses : List StyleInput :=
  [.find "s1" true, .find "s1" true, .writeBack 0 "t1" "t1" true, .writeBack 1 "t1" "t1" true]

theorem step_writeAgain (s : JsonlStore) :
    (briefStyles.step (usedOnce s [briefUse]) (.writeBack 1 "t1" "t1" true)).store =
        (briefStyles.store.call s writeUsed).2 ∧
      (briefStyles.step (usedOnce s [briefUse]) (.writeBack 1 "t1" "t1" true)).history =
        [.used "s1" true "t1", .used "s1" true "t1"] := by
  rw [step_writeBack (c := briefUse) rfl rfl "t1" "t1" true]
  exact ⟨rfl, rfl⟩

/-- The second use is the first one again. -/
theorem use_lost :
    ¬ ∀ (u : StyleSetup) (s : JsonlStore) (ms : List StoredStyle) (inputs : List StyleInput),
      u.store.Keeps s ms →
      Machine.Guarded u.step (fun w input => u.Reads w input ∧ Whole input) { store := s } inputs →
      ∀ itemId m, ms.find? (u.store.hasId itemId) = some m →
        ∃ m', u.found (Machine.run u.step { store := s } inputs).store itemId = some m' ∧
          m'.uses = m.uses +
            (Machine.run u.step { store := s } inputs).history.countP (StyleOp.isUse itemId) := by
  intro h
  obtain ⟨hreads, hfirst⟩ := writeUsed_spec (s := briefStore) (.inl rfl)
  obtain ⟨hreads', hsecond⟩ := writeUsed_spec (.inr hfirst)
  have hwhole : Whole (.writeBack 0 "t1" "t1" true) :=
    ⟨unbroken_of_all (by decide), unbroken_of_all (by decide)⟩
  have hguarded : Machine.Guarded briefStyles.step
      (fun w input => briefStyles.Reads w input ∧ Whole input) { store := briefStore }
      racingUses := by
    have hfind (w : StyleWorld) : briefStyles.Reads w (.find "s1" true) := by
      intro c hc e he
      cases hc
      cases he
    refine ⟨⟨hfind _, trivial⟩, ⟨hfind _, trivial⟩, ?_⟩
    rw [step_findBrief, step_findBrief]
    refine ⟨⟨fun c hc => ?_, hwhole⟩, ?_⟩
    · cases hc
      exact hreads
    · show Machine.Guarded _ _ (briefStyles.step { store := briefStore, calls := _ :: _ } _) _
      rw [step_writeBriefUse]
      refine ⟨⟨fun c hc => ?_, hwhole⟩, trivial⟩
      cases hc
      exact hreads'
  obtain ⟨m', hfound, huses⟩ := h briefStyles briefStore [briefAnswers] racingUses keeps_briefStore
    hguarded "s1" briefAnswers rfl
  rw [racingUses, Machine.run_cons, step_findBrief, Machine.run_cons, step_findBrief,
    List.nil_append, List.singleton_append, Machine.run_cons, step_writeBriefUse, Machine.run_cons,
    Machine.run_nil] at hfound huses
  obtain ⟨hstore, hhistory⟩ := step_writeAgain (briefStyles.store.call briefStore writeUsed).2
  rw [hstore] at hfound
  rw [hhistory] at huses
  cases hfound.symm.trans (found_used hsecond)
  exact absurd huses (by decide)

end IrisMind.Memory
