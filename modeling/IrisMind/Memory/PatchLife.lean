import IrisMind.Lib.Machine
import IrisMind.Memory.PatchPaths

/-! # The life of a patch

Approving and rejecting set the status whatever it is, so a patch can be approved again once it has
been applied or rejected. What holds is that every write has an approval of its own. -/
namespace IrisMind.Memory
open IrisMind.Lib

/-- What happens to the patch with an id: it is approved, rejected, written to its file, or a write
of it raises on the way. -/
inductive PatchEvent where
  | granted (itemId : String)
  | revoked (itemId : String)
  | torn (itemId : String)
  | written (itemId : String)
deriving DecidableEq

namespace PatchEvent

def itemId : PatchEvent → String
  | granted itemId | revoked itemId | torn itemId | written itemId => itemId

def isTorn : PatchEvent → Bool
  | torn _ => true
  | _ => false

/-- The file is opened, whether or not the write comes to its end. -/
def isWrite : PatchEvent → Bool
  | torn _ | written _ => true
  | _ => false

end PatchEvent

inductive PatchInput where
  | add (item : StoredPatch) (taken : Bool)
  | approve (itemId now : String) (taken : Bool)
  | reject (itemId reason now : String) (taken : Bool)
  | apply (c : ApplyCall)

structure PatchHistory extends PatchWorld where
  log : List PatchEvent := []

def ApplyOutcome.write : ApplyOutcome → WriteState
  | .returned true => .done
  | .returned false => .unbegun
  | .raised write => write

namespace PatchSetup

variable (u : PatchSetup) (base : PosixPath)

/-- The patch that is found under an id. -/
def found (s : JsonlStore) (itemId : String) : Option StoredPatch :=
  match (u.store.call s (.find itemId)).1 with
  | .item m => some m
  | _ => none

/-- A patch may also be added as an approved one, which counts if its id is new. -/
def events (w : PatchWorld) : PatchInput → List PatchEvent
  | .add item _ =>
    if (u.found w.store item.id).isNone && item.status = .approved then [.granted item.id] else []
  | .approve itemId _ _ => if (u.found w.store itemId).isSome then [.granted itemId] else []
  | .reject itemId _ _ _ => if (u.found w.store itemId).isSome then [.revoked itemId] else []
  | .apply c => match (u.applyApproved base w c).1.write with
    | .unbegun => []
    | .torn => [.torn c.itemId]
    | .done => [.written c.itemId]

def step (w : PatchHistory) (input : PatchInput) : PatchHistory where
  toPatchWorld := match input with
    | .add item taken =>
      { w with store := (u.store.call w.store (.add (u.store.modelDump item) taken)).2 }
    | .approve itemId now taken => { w with store := (u.approve w.store itemId now taken).2 }
    | .reject itemId reason now taken =>
      { w with store := (u.reject w.store itemId reason now taken).2 }
    | .apply c => (u.applyApproved base w.toPatchWorld c).2
  log := w.log ++ u.events base w.toPatchWorld input

/-! ## What is promised -/

/-- What has happened last to the patch with an id; a write that raised does not count. -/
def lastOf (itemId : String) (log : List PatchEvent) : Option PatchEvent :=
  (log.filter fun e => !e.isTorn && e.itemId = itemId).getLast?

/-- Whenever a patch is being written, the last that has happened to it is an approval. -/
def Granted (log : List PatchEvent) : Prop :=
  ∀ before e after, log = before ++ e :: after → e.isWrite = true →
    lastOf e.itemId before = some (.granted e.itemId)

def closed (content : List Char) : List Char :=
  if content.getLast? = some '\n' then content else content ++ ['\n']

/-- What is promised of a call. -/
structure CallLawful (w : PatchWorld) (c : ApplyCall) : Prop where
  approved : (u.applyApproved base w c).1.write ≠ .unbegun →
    ∃ item, u.found w.store c.itemId = some item ∧ item.status = .approved
  /-- What is there of a file without carriage returns stays in front. -/
  appends : (u.applyApproved base w c).1.write = .done → c.replace = false →
    ∀ item target content, u.found w.store c.itemId = some item →
      resolveTargetPath c.resolve item.targetFile base = .ok target →
      w.files target = some (.text content) → '\r' ∉ content →
      ∃ content', (u.applyApproved base w c).2.files target = some (.text content') ∧
        closed content <+: content'
  refuses : (u.applyApproved base w c).1 = .returned false →
    (u.applyApproved base w c).2.files = w.files
  fails : (u.applyApproved base w c).1.write = .unbegun →
    ∀ item target, u.found w.store c.itemId = some item →
      resolveTargetPath c.resolve item.targetFile base = .ok target →
      (u.applyApproved base w c).2.files target = w.files target

/-- No text that is written has a line boundary beyond ASCII. -/
def WholeInput : PatchInput → Prop
  | .add item _ => (u.store.modelDump item).Unbroken
  | .approve _ now _ => (Json.str now).Unbroken
  | .reject _ reason now _ => (Json.str reason).Unbroken ∧ (Json.str now).Unbroken
  | .apply c => (Json.str c.now).Unbroken

/-- What a step writes can be read again. -/
def Reads (w : PatchWorld) : PatchInput → Prop
  | .add item taken => u.store.Reads w.store (.add (u.store.modelDump item) taken)
  | .approve itemId now taken =>
    u.store.Reads w.store (.update itemId [("status", .str "approved")] now taken)
  | .reject itemId reason now taken =>
    u.store.Reads w.store (.update itemId [("status", .str "rejected"),
      ("metadata", .obj [("rejection_reason", .str reason)])] now taken)
  | .apply c => (u.applyApproved base w c).1.write = .done →
    u.store.Reads (u.store.call w.store (.find c.itemId)).2
      (.update c.itemId [("status", .str "applied")] c.now c.taken)

variable {u base} {w : PatchWorld} {c : ApplyCall}

/-! ## One call -/

theorem closed_prefix (content patch : List Char) :
    closed content <+: appendPatch content patch :=
  (List.prefix_append _ _).trans (List.prefix_append _ _) |>.trans (List.prefix_append _ _)

theorem read_eq {files : Files} {target : PosixPath} {read content : List Char}
    (hread : c.read files target = some read) (h : files target = some (.text content)) :
    read = Text.readText content := by
  unfold ApplyCall.read at hread
  split at hread
  · cases hread
  · rw [readFile, h] at hread
    exact (Option.some.inj hread).symm

theorem writeFile_result (files : Files) (c : ApplyCall) (target : PosixPath)
    (content : List Char) :
    (∃ left, writeFile files c target content = (.torn, files.put target left)) ∨
      writeFile files c target content = (.written, files.put target (some (.text content))) := by
  unfold writeFile
  split
  · exact .inl ⟨_, rfl⟩
  · exact .inr rfl

/-- The target is neither above itself nor a copy of itself. -/
theorem backUp_target (files : Files) (c : ApplyCall) (target : PosixPath) :
    (backUp (makeParents files target) c target).2 target = files target := by
  have hcopy : ¬ IsBackup target target := by
    rintro ⟨_, hname⟩
    have hlength := congrArg List.length hname
    simp at hlength
  have habove : ¬ (target.parent.isRelativeTo target && target.tail ≠ []) = true := by
    intro h
    obtain ⟨hrel, htail⟩ := Bool.and_eq_true_iff.mp h
    have hprefix := List.isPrefixOf_iff_prefix.mp (Bool.and_eq_true_iff.mp hrel).2
    have hlength := hprefix.length_le
    have hpos := List.length_pos_of_ne_nil (of_decide_eq_true htail)
    simp only [PosixPath.parent, List.length_dropLast] at hlength
    omega
  rw [backUp_other hcopy, makeParents, if_neg]
  exact fun h => habove (Bool.and_eq_true_iff.mp h).1

variable (base) in
/-- A patch is refused before anything is done, fails before the file is opened or while it is
written, or is written. -/
theorem writePatch_cases (files : Files) (c : ApplyCall) (item : StoredPatch) :
    writePatch base files c item = (.refused, files) ∨
    (∃ files', writePatch base files c item = (.raised, files') ∧
      ∀ target, resolveTargetPath c.resolve item.targetFile base = .ok target →
        files' target = files target) ∨
    (∃ files', writePatch base files c item = (.torn, files')) ∨
    ∃ files' target content, writePatch base files c item = (.written, files') ∧
      resolveTargetPath c.resolve item.targetFile base = .ok target ∧
      files' target = some (.text content) ∧
      (c.replace = false → ∀ existing, files target = some (.text existing) → '\r' ∉ existing →
        content = appendPatch existing item.proposedPatch.toList) := by
  unfold writePatch
  cases hok : resolveTargetPath c.resolve item.targetFile base with
  | error e => exact .inl rfl
  | ok target =>
    have hput (files : Files) (content : List Char) :
        files.put target (some (.text content)) target = some (.text content) := if_pos rfl
    have hback := backUp_target files c target
    dsimp only
    split
    · exact .inl rfl
    · split
      · exact .inr (.inl ⟨files, rfl, fun _ _ => rfl⟩)
      · split
        · next files' hfiles =>
          rw [hfiles] at hback
          refine .inr (.inl ⟨files', rfl, fun target' htarget => ?_⟩)
          obtain rfl := Except.ok.inj htarget
          exact hback
        · next files' hfiles =>
          rw [hfiles] at hback
          have hback : files' target = files target := hback
          have hsame : ∀ target', (.ok target : Except String PosixPath) = .ok target' →
              files' target' = files target' := by
            intro target' htarget
            obtain rfl := Except.ok.inj htarget
            exact hback
          split
          · next hnew =>
            rcases writeFile_result files' c target item.proposedPatch.toList with ⟨_, hw⟩ | hw
            · exact .inr (.inr (.inl ⟨_, hw⟩))
            · refine .inr (.inr (.inr ⟨_, target, _, hw, rfl, hput _ _,
                fun hreplace existing hthere => ?_⟩))
              rw [hback, hthere, hreplace] at hnew
              cases hnew
          · split
            · exact .inr (.inl ⟨files', rfl, hsame⟩)
            · next existing hread =>
              rcases writeFile_result files' c target
                (appendPatch existing item.proposedPatch.toList) with ⟨_, hw⟩ | hw
              · exact .inr (.inr (.inl ⟨_, hw⟩))
              · refine .inr (.inr (.inr ⟨_, target, _, hw, rfl, hput _ _,
                  fun _ content hthere hreturn => ?_⟩))
                rw [read_eq hread (hback.trans hthere), Text.readText_eq hreturn]

/-- What a call does: it leaves the files, it fails on the way to the file or while it is written,
or it writes the file and sets the status. -/
theorem applyApproved_cases (u : PatchSetup) (base : PosixPath) (w : PatchWorld) (c : ApplyCall) :
    let (outcome, w') := u.applyApproved base w c
    (outcome.write = .unbegun ∧ w'.store = (u.store.call w.store (.find c.itemId)).2 ∧
      (w'.files = w.files ∨ outcome = .raised .unbegun ∧ ∃ item,
        u.found w.store c.itemId = some item ∧
          writePatch base w.files c item = (.raised, w'.files))) ∨
    (outcome.write = .torn ∧ outcome = .raised .torn ∧
      w'.store = (u.store.call w.store (.find c.itemId)).2 ∧
      ∃ item, u.found w.store c.itemId = some item ∧ item.status = .approved) ∨
    (outcome.write = .done ∧
      w'.store = (u.store.call (u.store.call w.store (.find c.itemId)).2
        (.update c.itemId [("status", .str "applied")] c.now c.taken)).2 ∧
      ∃ item, u.found w.store c.itemId = some item ∧ item.status = .approved ∧
        writePatch base w.files c item = (.written, w'.files)) := by
  unfold applyApproved found
  generalize u.store.call w.store (.find c.itemId) = r
  obtain ⟨answer, store⟩ := r
  cases answer with
  | item item =>
    dsimp only
    by_cases hstatus : item.status = .approved
    · rw [if_neg (not_not_intro hstatus)]
      rcases writePatch_cases base w.files c item with
        hw | ⟨files', hw, _⟩ | ⟨files', hw⟩ | hwritten
      · rw [hw]
        exact .inl ⟨rfl, rfl, .inl rfl⟩
      · rw [hw]
        exact .inl ⟨rfl, rfl, .inr ⟨rfl, item, rfl, hw⟩⟩
      · rw [hw]
        exact .inr (.inl ⟨rfl, rfl, rfl, item, rfl, hstatus⟩)
      · obtain ⟨files', _, _, hw, _⟩ := hwritten
        rw [hw]
        dsimp only
        split <;> exact .inr (.inr ⟨rfl, rfl, item, rfl, hstatus, hw⟩)
    · rw [if_pos hstatus]
      exact .inl ⟨rfl, rfl, .inl rfl⟩
  | none | raised | items _ | rows _ => exact .inl ⟨rfl, rfl, .inl rfl⟩

theorem written_of_writePatch {item : StoredPatch} {files : Files}
    (hfound : u.found w.store c.itemId = some item) (hstatus : item.status = .approved)
    (hw : writePatch base w.files c item = (.written, files)) :
    (u.applyApproved base w c).1.write = .done := by
  unfold found at hfound
  unfold applyApproved
  generalize u.store.call w.store (.find c.itemId) = r at hfound ⊢
  obtain ⟨answer, store⟩ := r
  cases answer with
  | item item' =>
    obtain rfl := Option.some.inj hfound
    dsimp only
    rw [if_neg (not_not_intro hstatus), hw]
    dsimp only
    split <;> rfl
  | none | raised | items _ | rows _ => cases hfound

theorem call_lawful (u : PatchSetup) (base : PosixPath) (w : PatchWorld) (c : ApplyCall) :
    CallLawful u base w c := by
  have hcases := applyApproved_cases u base w c
  obtain ⟨outcome, w', hcall⟩ : ∃ outcome w', u.applyApproved base w c = (outcome, w') :=
    ⟨_, _, rfl⟩
  rw [hcall] at hcases
  dsimp only at hcases
  constructor <;> rw [hcall] <;> dsimp only
  · intro hbegun
    rcases hcases with ⟨hnot, _⟩ | ⟨_, _, _, happroved⟩ | ⟨_, _, item, hfound, hstatus, _⟩
    · exact absurd hnot hbegun
    · exact happroved
    · exact ⟨item, hfound, hstatus⟩
  · intro hdone hreplace item target content hfound hok hthere hreturn
    rcases hcases with ⟨hnot, _⟩ | ⟨htorn, _⟩ | ⟨_, _, item', hfound', _, hw⟩
    · cases hdone.symm.trans hnot
    · cases hdone.symm.trans htorn
    · obtain rfl := Option.some.inj (hfound.symm.trans hfound')
      rcases writePatch_cases base w.files c item with
        hno | ⟨_, hno, _⟩ | ⟨_, hno⟩ | ⟨files', target', content', hw', hok', hcontent, happend⟩
      · cases hw.symm.trans hno
      · cases hw.symm.trans hno
      · cases hw.symm.trans hno
      · cases hw.symm.trans hw'
        obtain rfl := Except.ok.inj (hok.symm.trans hok')
        refine ⟨content', hcontent, ?_⟩
        rw [happend hreplace content hthere hreturn]
        exact closed_prefix content _
  · rintro rfl
    rcases hcases with ⟨_, _, hfiles | ⟨hraised, _⟩⟩ | ⟨htorn, _⟩ | ⟨hdone, _⟩
    · exact hfiles
    · cases hraised
    · cases htorn
    · cases hdone
  · intro hnot item target hfound hok
    rcases hcases with ⟨_, _, hfiles | ⟨_, item', hfound', hw⟩⟩ | ⟨htorn, _⟩ | ⟨hdone, _⟩
    · rw [hfiles]
    · obtain rfl := Option.some.inj (hfound.symm.trans hfound')
      rcases writePatch_cases base w.files c item with
        hno | ⟨files', hw', hsame⟩ | ⟨_, hno⟩ | ⟨_, _, _, hno, _⟩
      · cases hw.symm.trans hno
      · cases hw.symm.trans hw'
        exact hsame target hok
      · cases hw.symm.trans hno
      · cases hw.symm.trans hno
    · cases hnot.symm.trans htorn
    · cases hnot.symm.trans hdone

/-! ## One status -/

variable {s : JsonlStore} {ms : List StoredPatch} {log : List PatchEvent}

theorem found_eq (h : u.store.Keeps s ms) (itemId : String) :
    u.found s itemId = ms.find? (u.store.hasId itemId) := by
  rw [found, (RecordStore.call_find h itemId).1]
  cases ms.find? (u.store.hasId itemId) <;> rfl

def withStatus (status : PersonaPatchStatus) (m : StoredPatch) : StoredPatch := { m with status }

def rejectedFor (reason : String) (m : StoredPatch) : StoredPatch :=
  { m with status := .rejected, metadata := [("rejection_reason", .str reason)] }

theorem unbroken_status (status : PersonaPatchStatus) :
    (Json.obj [("status", .str status.text)]).Unbroken := by
  cases status <;> exact unbroken_of_all (by decide)

theorem shows_withStatus {m : StoredPatch} {es : List (String × Json)} (h : u.store.Shows es m)
    (status : PersonaPatchStatus) (now : String) :
    u.store.Shows (changed [("status", .str status.text)] now es) (withStatus status m) := by
  have hnodup : ([("status", Json.str status.text)].map Prod.fst).Nodup := List.nodup_singleton _
  refine h.changed hnodup ?_
  show ∀ f ∈ (withStatus status m).fields, "updated_at" ≠ f.1 ∧
    (Dict.lookup f.1 [("status", .str status.text)]).or (Dict.lookup f.1 m.fields) = some f.2
  simp only [withStatus, StoredPatch.fields, List.forall_mem_cons]
  refine ⟨⟨by decide, rfl⟩, ⟨by decide, rfl⟩, ⟨by decide, rfl⟩, ⟨by decide, rfl⟩, ⟨by decide, rfl⟩,
    ⟨by decide, rfl⟩, ⟨by decide, rfl⟩, ⟨by decide, rfl⟩, ⟨by decide, rfl⟩, by simp⟩

/-- Setting the status of a patch changes the first patch with the id. -/
theorem keeps_withStatus (h : u.store.Keeps s ms) {itemId now : String} {taken : Bool}
    (status : PersonaPatchStatus)
    (hreads : u.store.Reads s (.update itemId [("status", .str status.text)] now taken))
    (hnow : (Json.str now).Unbroken) :
    u.store.Keeps (u.store.call s (.update itemId [("status", .str status.text)] now taken)).2
      (u.store.change itemId (withStatus status) ms) :=
  RecordStore.call_update h hreads fun _ _ _ hshows hline =>
    ⟨shows_withStatus hshows status now, unbroken_changed hline (unbroken_status status) hnow⟩

def rejection (reason : String) : List (String × Json) :=
  [("status", .str "rejected"), ("metadata", .obj [("rejection_reason", .str reason)])]

theorem unbroken_rejection {reason : String} (h : (Json.str reason).Unbroken) :
    (Json.obj (rejection reason)).Unbroken := by
  have hkeys : (Json.obj (rejection "")).Unbroken := unbroken_of_all (by decide)
  simp only [rejection, Json.unbroken_obj, List.forall_mem_cons] at hkeys ⊢
  simp only [hkeys, h, List.not_mem_nil, false_implies, implies_true, and_self]

theorem shows_rejectedFor {m : StoredPatch} {es : List (String × Json)} (h : u.store.Shows es m)
    (reason now : String) :
    u.store.Shows (changed (rejection reason) now es) (rejectedFor reason m) := by
  have hnodup : ((rejection reason).map Prod.fst).Nodup := by
    show ["status", "metadata"].Nodup
    decide
  refine h.changed hnodup ?_
  show ∀ f ∈ (rejectedFor reason m).fields, "updated_at" ≠ f.1 ∧
    (Dict.lookup f.1 (rejection reason)).or (Dict.lookup f.1 m.fields) = some f.2
  simp only [rejectedFor, StoredPatch.fields, List.forall_mem_cons]
  refine ⟨⟨by decide, rfl⟩, ⟨by decide, rfl⟩, ⟨by decide, rfl⟩, ⟨by decide, rfl⟩, ⟨by decide, rfl⟩,
    ⟨by decide, rfl⟩, ⟨by decide, rfl⟩, ⟨by decide, rfl⟩, ⟨by decide, rfl⟩, by simp⟩

theorem keeps_rejectedFor (h : u.store.Keeps s ms) {itemId reason now : String} {taken : Bool}
    (hreads : u.store.Reads s (.update itemId (rejection reason) now taken))
    (hreason : (Json.str reason).Unbroken) (hnow : (Json.str now).Unbroken) :
    u.store.Keeps (u.reject s itemId reason now taken).2
      (u.store.change itemId (rejectedFor reason) ms) :=
  RecordStore.call_update h hreads fun _ _ _ hshows hline =>
    ⟨shows_rejectedFor hshows reason now, unbroken_changed hline (unbroken_rejection hreason) hnow⟩

/-! ## The log -/

theorem lastOf_concat (itemId : String) (log : List PatchEvent) {e : PatchEvent}
    (htorn : e.isTorn = false) :
    lastOf itemId (log ++ [e]) = if e.itemId = itemId then some e else lastOf itemId log := by
  rw [lastOf, List.filter_append]
  split
  · next h =>
    rw [List.filter_cons_of_pos (by simp [htorn, h]), List.filter_nil, List.getLast?_concat]
  · next h =>
    rw [List.filter_cons_of_neg (by simpa [htorn] using h), List.filter_nil, List.append_nil]
    rfl

theorem lastOf_torn (itemId id : String) (log : List PatchEvent) :
    lastOf itemId (log ++ [.torn id]) = lastOf itemId log := by
  simp [lastOf, PatchEvent.isTorn]

theorem Granted.concat (h : Granted log) {e : PatchEvent}
    (he : e.isWrite = true → lastOf e.itemId log = some (.granted e.itemId)) :
    Granted (log ++ [e]) := by
  intro before e' after heq
  rcases List.eq_nil_or_concat after with rfl | ⟨after, last, rfl⟩
  · obtain ⟨rfl, hlast⟩ := List.append_inj' heq rfl
    exact (List.cons.inj hlast).1 ▸ he
  · rw [List.concat_eq_append, ← List.cons_append, ← List.append_assoc] at heq
    exact h before e' after (List.append_inj' heq rfl).1

/-- A patch is approved exactly if the last that has happened to it is an approval. -/
def Tracks (u : PatchSetup) (ms : List StoredPatch) (log : List PatchEvent) : Prop :=
  ∀ itemId, (ms.find? (u.store.hasId itemId)).map (·.status) = some .approved ↔
    lastOf itemId log = some (.granted itemId)

theorem Tracks.change (h : Tracks u ms log) {f : StoredPatch → StoredPatch}
    {status : PersonaPatchStatus} (hid : ∀ m, (f m).id = m.id)
    (hstatus : ∀ m, (f m).status = status) {e : PatchEvent}
    (htorn : e.isTorn = false) (he : e = .granted e.itemId ↔ status = .approved)
    (hfound : (ms.find? (u.store.hasId e.itemId)).isSome = true) :
    Tracks u (u.store.change e.itemId f ms) (log ++ [e]) := by
  intro itemId
  rw [RecordStore.find?_change hid, lastOf_concat itemId log htorn]
  split
  · next hsame =>
    subst hsame
    obtain ⟨m, hm⟩ := Option.isSome_iff_exists.mp hfound
    rw [hm, Option.map_some, Option.map_some, hstatus, Option.some.injEq, Option.some.injEq, he]
  · exact h itemId

theorem change_of_none {itemId : String} {f : StoredPatch → StoredPatch}
    (h : ms.find? (u.store.hasId itemId) = none) : u.store.change itemId f ms = ms := by
  rw [RecordStore.change, h]

/-! ## Runs -/

/-- What the steps keep: the store has the patches, and the log tells which are approved. -/
structure Kept (u : PatchSetup) (w : PatchHistory) (ms : List StoredPatch) : Prop where
  keeps : u.store.Keeps w.store ms
  tracks : Tracks u ms w.log
  granted : Granted w.log

/-- A patch whose status is set, as it is done to the patches and put into the log. -/
theorem Kept.change {w : PatchHistory} (h : Kept u w ms) {itemId : String} {e : PatchEvent}
    {f : StoredPatch → StoredPatch} {status : PersonaPatchStatus} {w' : PatchWorld}
    (hkeeps : u.store.Keeps w'.store (u.store.change itemId f ms)) (hid : ∀ m, (f m).id = m.id)
    (hstatus : ∀ m, (f m).status = status) (hitem : e.itemId = itemId) (htorn : e.isTorn = false)
    (he : e = .granted e.itemId ↔ status = .approved)
    (hwritten : e.isWrite = true → lastOf e.itemId w.log = some (.granted e.itemId)) :
    Kept u { w' with log := w.log ++ if (u.found w.store itemId).isSome then [e] else [] }
      (u.store.change itemId f ms) := by
  subst hitem
  rw [found_eq h.keeps]
  split
  · next hfound =>
    exact ⟨hkeeps, h.tracks.change hid hstatus htorn he hfound, h.granted.concat hwritten⟩
  · next hnot =>
    have hnone := Option.not_isSome_iff_eq_none.mp hnot
    rw [change_of_none hnone] at hkeeps ⊢
    exact ⟨hkeeps, by simpa using h.tracks, by simpa using h.granted⟩

theorem Kept.add {w : PatchHistory} (h : Kept u w ms) {item : StoredPatch} {taken : Bool}
    (hreads : u.store.Reads w.store (.add (u.store.modelDump item) taken))
    (hwhole : (u.store.modelDump item).Unbroken) :
    Kept u (step u base w (.add item taken)) (ms ++ [item]) := by
  have hlog : (step u base w (.add item taken)).log = w.log ++ u.events base w.toPatchWorld
    (.add item taken) := rfl
  refine ⟨RecordStore.call_add h.keeps hreads hwhole, ?_, ?_⟩
  · intro itemId
    have htracks := h.tracks itemId
    rw [hlog, events, found_eq h.keeps, List.find?_append]
    by_cases hsame : item.id = itemId
    · subst hsame
      have hitem : [item].find? (u.store.hasId item.id) = some item :=
        List.find?_cons_of_pos (decide_eq_true rfl)
      cases hm : ms.find? (u.store.hasId item.id) with
      | some m => simpa [hm] using htracks
      | none =>
        rw [hm] at htracks
        by_cases happroved : item.status = .approved
        · have htorn : (PatchEvent.granted item.id).isTorn = false := rfl
          simp [hitem, happroved, lastOf_concat _ _ htorn, PatchEvent.itemId]
        · simpa [hitem, happroved] using htracks
    · have hitem : [item].find? (u.store.hasId itemId) = none :=
        List.find?_cons_of_neg fun hid => hsame (of_decide_eq_true hid)
      rw [hitem, Option.or_none]
      split
      · have hother : (PatchEvent.granted item.id).itemId ≠ itemId := hsame
        rw [lastOf_concat itemId _ rfl, if_neg hother]
        exact htracks
      · rw [List.append_nil]
        exact htracks
  · rw [hlog, events]
    split
    · exact h.granted.concat fun he => nomatch he
    · rw [List.append_nil]
      exact h.granted

theorem Kept.apply {w : PatchHistory} (h : Kept u w ms) {c : ApplyCall}
    (hreads : Reads u base w.toPatchWorld (.apply c)) (hnow : (Json.str c.now).Unbroken) :
    ∃ ms', Kept u (step u base w (.apply c)) ms' := by
  have hfind := (RecordStore.call_find h.keeps c.itemId).2
  have hcases := applyApproved_cases u base w.toPatchWorld c
  dsimp only at hcases
  have hlog : (step u base w (.apply c)).log = w.log ++ u.events base w.toPatchWorld
    (.apply c) := rfl
  have hlast {item : StoredPatch} (hfound : u.found w.store c.itemId = some item)
      (happroved : item.status = .approved) :
      lastOf c.itemId w.log = some (.granted c.itemId) := by
    rw [found_eq h.keeps] at hfound
    rw [← h.tracks, hfound, Option.map_some, happroved]
  rcases hcases with ⟨hnot, hstore, _⟩ | ⟨htorn, _, hstore, item, hfound, happroved⟩ |
    ⟨hdone, hstore, item, hfound, happroved, _⟩
  · have hevents : u.events base w.toPatchWorld (.apply c) = [] := by simp only [events, hnot]
    rw [hevents, List.append_nil] at hlog
    refine ⟨ms, ?_, hlog ▸ h.tracks, hlog ▸ h.granted⟩
    show u.store.Keeps (u.applyApproved base w.toPatchWorld c).2.store ms
    rwa [hstore]
  · -- the status stays, so another call may write again
    have hevents : u.events base w.toPatchWorld (.apply c) = [.torn c.itemId] := by
      simp only [events, htorn]
    rw [hevents] at hlog
    refine ⟨ms, ?_, fun itemId => ?_, hlog ▸ h.granted.concat fun _ => hlast hfound happroved⟩
    · show u.store.Keeps (u.applyApproved base w.toPatchWorld c).2.store ms
      rwa [hstore]
    · rw [hlog, lastOf_torn]
      exact h.tracks itemId
  · have hsome : (u.found w.store c.itemId).isSome = true := by
      rw [hfound]
      rfl
    have hkeeps : u.store.Keeps (u.applyApproved base w.toPatchWorld c).2.store
        (u.store.change c.itemId (withStatus .applied) ms) := by
      rw [hstore]
      exact keeps_withStatus hfind .applied (hreads hdone) hnow
    have hkept := h.change (e := .written c.itemId) hkeeps (fun _ => rfl) (fun _ => rfl) rfl rfl
      (iff_of_false (fun heq => nomatch heq) fun heq => nomatch heq)
      fun _ => hlast hfound happroved
    rw [if_pos hsome] at hkept
    have hstep : step u base w (.apply c) = { (u.applyApproved base w.toPatchWorld c).2 with
        log := w.log ++ [.written c.itemId] } := by
      simp only [step, events, hdone]
    rw [hstep]
    exact ⟨_, hkept⟩

theorem kept_step {w : PatchHistory} (h : Kept u w ms) {input : PatchInput}
    (hreads : Reads u base w.toPatchWorld input) (hwhole : WholeInput u input) :
    ∃ ms', Kept u (step u base w input) ms' := by
  cases input with
  | add item taken => exact ⟨_, h.add hreads hwhole⟩
  | approve itemId now taken =>
    refine ⟨_, h.change (keeps_withStatus h.keeps .approved hreads hwhole) (fun _ => rfl)
      (fun _ => rfl) rfl rfl (iff_of_true rfl rfl) fun he => ?_⟩
    cases he
  | reject itemId reason now taken =>
    refine ⟨_, h.change (keeps_rejectedFor h.keeps hreads hwhole.1 hwhole.2) (fun _ => rfl)
      (fun _ => rfl) rfl rfl (iff_of_false ?_ ?_) fun he => ?_⟩
    · exact fun heq => nomatch heq
    · exact fun heq => nomatch heq
    · cases he
  | apply c => exact h.apply hreads hwhole

end PatchSetup
open PatchSetup

/-- Every write of a patch has an approval of its own, which nothing has come after but writes that
raised; it is made while the patch is approved, keeps what a file has in front, and where none is
begun the file stays. -/
theorem run_patches_lawful (u : PatchSetup) (base : PosixPath) {s : JsonlStore} (files : Files)
    (hstart : u.store.Keeps s []) (inputs : List PatchInput)
    (h : Machine.Guarded (step u base)
      (fun w input => Reads u base w.toPatchWorld input ∧ WholeInput u input)
      { store := s, files } inputs) :
    let w := Machine.run (step u base) { store := s, files } inputs
    Granted w.log ∧ ∀ c, CallLawful u base w.toPatchWorld c := by
  intro w
  have hbegin : ∃ ms, Kept u { store := s, files } ms := by
    refine ⟨[], hstart, fun itemId => ?_, fun before e after heq => ?_⟩
    · simp [lastOf]
    · simp at heq
  obtain ⟨ms, hkept⟩ := h.inv (fun w => ∃ ms, Kept u w ms)
    (fun w input ⟨ms, hkept⟩ hinput => kept_step hkept hinput.1 hinput.2) hbegin
  exact ⟨hkept.granted, call_lawful u base w.toPatchWorld⟩

/-! ## One patch -/

/-- A store whose library reads the records of a table. -/
def tablePatches (table : List Json) : PatchSetup where
  toJsonText := .ofTable plainWriter table
  serialises _ := true
  same _ _ := false
  conv := .plain
  newId := "p2"
  now := "t2"

theorem loads_tablePatches {table : List Json} {e : Json}
    (hn : (table.map plainWriter.dumps).Nodup) (he : e ∈ table) :
    (tablePatches table).loads ((tablePatches table).dumps e) = some e := by
  show table.find? (fun j => plainWriter.dumps j = plainWriter.dumps e) = some e
  induction table with
  | nil => cases he
  | cons j table ih =>
    obtain ⟨hj, hn⟩ := List.nodup_cons.mp hn
    rcases List.mem_cons.mp he with rfl | he
    · exact List.find?_cons_of_pos (decide_eq_true rfl)
    · have hne : plainWriter.dumps j ≠ plainWriter.dumps e := fun heq =>
        hj (heq ▸ List.mem_map_of_mem he)
      rw [List.find?_cons_of_neg (by simpa using hne)]
      exact ih hn he

/-- A patch that is added as an approved one. -/
def tonePatch : StoredPatch where
  id := "p"
  targetFile := ""
  reason := ""
  proposedPatch := "be kind"
  evidenceRecordIds := []
  confidence := 0
  status := .approved
  metadata := []
  timestamp := "t0"

def toneRejected : List (String × Json) := changed (rejection "") "t1" tonePatch.fields

def toneApproved : List (String × Json) := changed [("status", .str "approved")] "t1" toneRejected

def toneApplied : List (String × Json) := changed [("status", .str "applied")] "t1" toneApproved

def toneRecords : List Json :=
  [.obj tonePatch.fields, .obj toneRejected, .obj toneApproved, .obj toneApplied]

def tonePatches : PatchSetup := tablePatches toneRecords

theorem loads_toneRecords {e : Json} (he : e ∈ toneRecords) :
    tonePatches.loads (tonePatches.dumps e) = some e :=
  loads_tablePatches (by decide +kernel) he

theorem unbroken_toneRecords : ∀ e ∈ toneRecords, e.Unbroken := by
  simp only [toneRecords, List.forall_mem_cons]
  exact ⟨unbroken_of_all (by decide), unbroken_of_all (by decide), unbroken_of_all (by decide),
    unbroken_of_all (by decide), fun e he => nomatch he⟩

theorem row_tone {es : List (String × Json)} {m : StoredPatch} (hes : .obj es ∈ toneRecords)
    (h : tonePatches.store.Shows es m) : tonePatches.store.Row (.obj es) m :=
  ⟨⟨es, rfl, h⟩, loads_toneRecords hes, unbroken_toneRecords _ hes⟩

theorem keeps_tone {s : JsonlStore} {es : List (String × Json)} {m : StoredPatch}
    (hs : tonePatches.store.records s = [.obj es]) (hes : .obj es ∈ toneRecords)
    (h : tonePatches.store.Shows es m) : tonePatches.store.Keeps s [m] := by
  rw [RecordStore.Keeps, hs]
  exact .cons (row_tone hes h) .nil

/-- An update of the record is read again, and takes its place. -/
theorem update_tone {s : JsonlStore} {es changes : List (String × Json)} {m m' : StoredPatch}
    (hs : tonePatches.store.records s = [.obj es]) (h : tonePatches.store.Shows es m)
    (hid : m.id = "p") (hnew : .obj (changed changes "t1" es) ∈ toneRecords)
    (hshows : tonePatches.store.Shows (changed changes "t1" es) m') :
    tonePatches.store.Reads s (.update "p" changes "t1" true) ∧
      tonePatches.store.records (tonePatches.store.call s (.update "p" changes "t1" true)).2 =
        [.obj (changed changes "t1" es)] := by
  have hlocate : locate "p" [.obj es] = .found [] es [] := by
    have hhas : tonePatches.store.hasId "p" m = true := decide_eq_true hid
    rw [locate, h.idIs, if_pos hhas]
  rw [(tonePatches.store.call_records s _).2, RecordStore.Reads, RecordStore.written?, hs, hlocate]
  refine ⟨fun e he => ?_, ?_⟩
  · obtain rfl := Option.some.inj he
    exact loads_toneRecords hnew
  · simp only [Backend.onRecords, hlocate]
    exact RecordStore.kept_rows (.cons (row_tone hnew hshows) .nil) true

def toneCall : ApplyCall := { itemId := "p", resolve := id, now := "t1", taken := true }

def toneBase : PosixPath := .parse "/srv".toList

/-- The patch is rejected, approved once more, and applied. -/
def toneRun : List PatchInput :=
  [.add tonePatch true, .reject "p" "" "t1" true, .approve "p" "t1" true, .apply toneCall]

def toneStart : PatchHistory := { store := {}, files := fun _ => none }

theorem shows_tonePatch : tonePatches.store.Shows tonePatch.fields tonePatch :=
  RecordStore.shows_fields (r := tonePatches.store) tonePatch

theorem shows_toneRejected : tonePatches.store.Shows toneRejected (rejectedFor "" tonePatch) :=
  shows_rejectedFor shows_tonePatch "" "t1"

theorem shows_toneApproved : tonePatches.store.Shows toneApproved
    (withStatus .approved (rejectedFor "" tonePatch)) :=
  shows_withStatus shows_toneRejected .approved "t1"

theorem shows_toneApplied : tonePatches.store.Shows toneApplied
    (withStatus .applied (withStatus .approved (rejectedFor "" tonePatch))) :=
  shows_withStatus shows_toneApproved .applied "t1"

theorem mem_toneRecords : .obj tonePatch.fields ∈ toneRecords ∧ .obj toneRejected ∈ toneRecords ∧
    .obj toneApproved ∈ toneRecords ∧ .obj toneApplied ∈ toneRecords := by
  simp [toneRecords]

theorem add_tone : Reads tonePatches toneBase toneStart.toPatchWorld (.add tonePatch true) ∧
    tonePatches.store.records (step tonePatches toneBase toneStart (.add tonePatch true)).store =
      [.obj tonePatch.fields] ∧
    (step tonePatches toneBase toneStart (.add tonePatch true)).log = [.granted "p"] := by
  have hempty : tonePatches.store.Keeps toneStart.store [] := .nil
  refine ⟨fun e he => ?_, ?_, ?_⟩
  · obtain rfl := Option.some.inj he
    exact loads_toneRecords mem_toneRecords.1
  · show tonePatches.store.records (tonePatches.store.call {} _).2 = _
    rw [(tonePatches.store.call_records {} _).2]
    exact RecordStore.kept_rows (.cons (row_tone mem_toneRecords.1 shows_tonePatch) .nil) true
  · show [] ++ events tonePatches toneBase toneStart.toPatchWorld (.add tonePatch true) = _
    rw [events, found_eq hempty]
    rfl

theorem reject_tone {w : PatchHistory}
    (hs : tonePatches.store.records w.store = [.obj tonePatch.fields]) :
    Reads tonePatches toneBase w.toPatchWorld (.reject "p" "" "t1" true) ∧
    tonePatches.store.records (step tonePatches toneBase w (.reject "p" "" "t1" true)).store =
      [.obj toneRejected] ∧
    (step tonePatches toneBase w (.reject "p" "" "t1" true)).log = w.log ++ [.revoked "p"] := by
  obtain ⟨hreads, hrecords⟩ :=
    update_tone hs shows_tonePatch rfl mem_toneRecords.2.1 shows_toneRejected
  refine ⟨hreads, hrecords, ?_⟩
  show w.log ++ events tonePatches toneBase w.toPatchWorld (.reject "p" "" "t1" true) = _
  rw [events, found_eq (keeps_tone hs mem_toneRecords.1 shows_tonePatch)]
  rfl

theorem approve_tone {w : PatchHistory}
    (hs : tonePatches.store.records w.store = [.obj toneRejected]) :
    Reads tonePatches toneBase w.toPatchWorld (.approve "p" "t1" true) ∧
    tonePatches.store.records (step tonePatches toneBase w (.approve "p" "t1" true)).store =
      [.obj toneApproved] ∧
    (step tonePatches toneBase w (.approve "p" "t1" true)).log = w.log ++ [.granted "p"] := by
  obtain ⟨hreads, hrecords⟩ :=
    update_tone hs shows_toneRejected rfl mem_toneRecords.2.2.1 shows_toneApproved
  refine ⟨hreads, hrecords, ?_⟩
  show w.log ++ events tonePatches toneBase w.toPatchWorld (.approve "p" "t1" true) = _
  rw [events, found_eq (keeps_tone hs mem_toneRecords.2.1 shows_toneRejected)]
  rfl

theorem apply_tone {w : PatchHistory}
    (hs : tonePatches.store.records w.store = [.obj toneApproved])
    (hfiles : w.files = fun _ => none) :
    Reads tonePatches toneBase w.toPatchWorld (.apply toneCall) ∧
    (step tonePatches toneBase w (.apply toneCall)).log = w.log ++ [.written "p"] := by
  have hkeeps := keeps_tone hs mem_toneRecords.2.2.1 shows_toneApproved
  have hfound : tonePatches.found w.store toneCall.itemId =
      some (withStatus .approved (rejectedFor "" tonePatch)) := found_eq hkeeps "p"
  obtain ⟨files, hwritten⟩ : ∃ files, writePatch toneBase w.files toneCall
      (withStatus .approved (rejectedFor "" tonePatch)) = (.written, files) := by
    rw [hfiles]
    exact ⟨_, rfl⟩
  have hcall := written_of_writePatch hfound rfl hwritten
  refine ⟨fun _ => ?_, ?_⟩
  · have hfind : tonePatches.store.records (tonePatches.store.call w.store (.find "p")).2 =
        [.obj toneApproved] := by
      rw [(tonePatches.store.call_records w.store (.find "p")).2, hs]
      simp only [Backend.onRecords]
      split <;> rfl
    exact (update_tone hfind shows_toneApproved rfl mem_toneRecords.2.2.2 shows_toneApplied).1
  · show w.log ++ events tonePatches toneBase w.toPatchWorld (.apply toneCall) = _
    simp only [events, hcall]
    rfl

theorem guarded_toneRun : Machine.Guarded (step tonePatches toneBase)
    (fun w input => Reads tonePatches toneBase w.toPatchWorld input ∧ WholeInput tonePatches input)
    toneStart toneRun ∧
    (Machine.run (step tonePatches toneBase) toneStart toneRun).log =
      [.granted "p", .revoked "p", .granted "p", .written "p"] := by
  obtain ⟨hadd, hadded, hlog⟩ := add_tone
  obtain ⟨hreject, hrejected, hlog'⟩ := reject_tone hadded
  obtain ⟨happrove, happroved, hlog''⟩ := approve_tone hrejected
  obtain ⟨happly, hlast⟩ := apply_tone happroved rfl
  have hnow : (Json.str "t1").Unbroken := unbroken_of_all (by decide)
  refine ⟨⟨⟨hadd, ?_⟩, ⟨hreject, ?_, hnow⟩, ⟨happrove, hnow⟩, ⟨happly, hnow⟩, trivial⟩, ?_⟩
  · exact unbroken_toneRecords _ mem_toneRecords.1
  · exact unbroken_of_all (by decide)
  · show (step tonePatches toneBase _ (.apply toneCall)).log = _
    rw [hlast, hlog'', hlog', hlog]
    rfl

theorem keeps_toneStart : tonePatches.store.Keeps {} [] := .nil

theorem run_patches_lawful_tone :
    Granted (Machine.run (step tonePatches toneBase) toneStart toneRun).log :=
  (run_patches_lawful tonePatches toneBase (fun _ => none) keeps_toneStart toneRun
    guarded_toneRun.1).1

/-- A patch that has been rejected is written after another approval. -/
theorem written_after_rejection :
    ¬ ∀ (u : PatchSetup) (base : PosixPath) (s : JsonlStore) (files : Files)
      (inputs : List PatchInput), u.store.Keeps s [] →
      Machine.Guarded (step u base)
        (fun w input => Reads u base w.toPatchWorld input ∧ WholeInput u input)
        { store := s, files } inputs →
      ∀ itemId before after, (Machine.run (step u base) { store := s, files } inputs).log =
        before ++ .written itemId :: after →
        .written itemId ∉ before ∧ .revoked itemId ∉ before := by
  intro h
  have hlog := h tonePatches toneBase {} (fun _ => none) toneRun keeps_toneStart
    guarded_toneRun.1 "p" [.granted "p", .revoked "p", .granted "p"] [] guarded_toneRun.2
  exact hlog.2 (by decide)

end IrisMind.Memory
