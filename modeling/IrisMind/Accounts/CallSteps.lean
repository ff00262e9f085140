import IrisMind.Accounts.Directory
import IrisMind.Lib.Threads

/-! # The steps of the account manager's calls

Each method of the account store that writes takes the lock, and each lookup is
a step of its own: a call reads a record, changes its copy and writes the whole
record back. Here two calls take their steps in any order; a call nobody comes
between does what the account manager's function does. -/
namespace IrisMind.Accounts
open IrisMind.Lib

/-- The arguments of `resolve_or_create_identity`. -/
structure Visit where
  provider : Provider
  subject : String
  providerName : String := ""
  metadata : List (String × Json) := []

inductive Call where
  | resolve (visit : Visit)
  | updateProfile (accountId : String) (fields : Dict String Json)
  | updateDisplayName (accountId displayName : String)

/-- What a call does next. A call that has written an account remembers the display name it gave
it, if it did. -/
inductive CallStage where
  | start
  | seeing (identity : AccountIdentity)
  | resolving (identity : AccountIdentity)
  | writing (account : Account) (value : Option String) (named : Option String)
  | replacing (identity : AccountIdentity)
  | relinking (identity : AccountIdentity)
  | registering
  | linking
  | checking (existing : Option AccountIdentity)
  | refreshing (identity : AccountIdentity)
  | adding (identity : AccountIdentity)
  | done (value : Option String) (named : Option String)

/-! ## The copies a call changes -/

namespace Visit

def key (v : Visit) : IdentityKey := (v.provider, v.subject)

/-- The display name of an account made for the visitor. -/
def newName (v : Visit) : String :=
  if v.providerName = "" then v.provider.value ++ ":" ++ v.subject else v.providerName

def see (v : Visit) (now : String) (i : AccountIdentity) : AccountIdentity :=
  { i with
    providerName := if v.providerName = "" then i.providerName else v.providerName
    metadata := if v.metadata.isEmpty then i.metadata else v.metadata
    lastSeen := some now }

@[simp] theorem see_accountId (v : Visit) (now : String) (i : AccountIdentity) :
    (v.see now i).accountId = i.accountId := rfl

@[simp] theorem see_key (v : Visit) (now : String) (i : AccountIdentity) :
    (v.see now i).key = i.key := rfl

def identity (v : Visit) (drawn : Drawn) : AccountIdentity :=
  { provider := v.provider, subject := v.subject, accountId := drawn.newId
    providerName := v.providerName, metadata := v.metadata
    linkedAt := drawn.now, lastSeen := some drawn.now }

end Visit

namespace Call

/-- The display name the call gives the account, where it gives one. -/
def named (c : Call) (a : Account) : Option String :=
  match c with
  | .resolve v => if v.providerName ≠ "" && a.displayName = "" then some v.providerName else none
  | .updateProfile _ _ => none
  | .updateDisplayName _ displayName => some displayName

/-- The profile fields the call writes. -/
def fields : Call → Dict String Json
  | .updateProfile _ fields => fields
  | _ => .empty

/-- The copy of the account the call writes back. -/
def revise (c : Call) (now : String) (a : Account) : Account :=
  match c with
  | .resolve v =>
    { a with
      lastSeen := some now
      displayName :=
        if v.providerName ≠ "" && a.displayName = "" then v.providerName else a.displayName }
  | .updateProfile accountId fields =>
    { a with
      profile := (fields.entries.foldl (AccountManager.setProfileField accountId) (a.profile, [])).1
      lastSeen := some now }
  | .updateDisplayName _ displayName => { a with displayName, lastSeen := some now }

end Call

@[simp] theorem AccountStore.findAccountById_updateIdentity (s : AccountStore)
    (i : AccountIdentity) (accountId : String) :
    (s.updateIdentity i).findAccountById accountId = s.findAccountById accountId := rfl

/-! ## The steps -/

section Steps
open AccountManager

variable (drawn : Drawn) (s : AccountStore)

/-- `resolve_or_create_identity`, with the `register` and `link_identity` it calls. -/
def resolveStep (v : Visit) : CallStage → AccountStore × CallStage
  | .start =>
    match s.findIdentity v.provider v.subject with
    | some i => (s, .seeing (v.see drawn.now i))
    | none => (s, .registering)
  | .seeing i => (s.updateIdentity i, .resolving i)
  | .resolving i =>
    match s.findAccountById i.accountId with
    | some a =>
      let call := Call.resolve v
      (s, .writing (call.revise drawn.now a) (some a.accountId) (call.named a))
    | none => (s, .replacing i)
  | .replacing i =>
    ((register s drawn v.newName).store, .relinking { i with accountId := drawn.newId })
  | .relinking i => (s.updateIdentity i, .done (some drawn.newId) none)
  | .registering => ((register s drawn v.newName).store, .linking)
  | .linking =>
    match s.findIdentity v.provider v.subject with
    | some i =>
      (s, if i.accountId ≠ drawn.newId then .done (some drawn.newId) none else .checking (some i))
    | none => (s, .checking none)
  | .checking existing =>
    match s.findAccountById drawn.newId, existing with
    | none, _ => (s, .done (some drawn.newId) none)
    | some _, some i => (s, .refreshing (v.see drawn.now i))
    | some _, none => (s, .adding (v.identity drawn))
  | .refreshing i => (s.updateIdentity i, .done (some drawn.newId) none)
  | .adding i => (s.addIdentity i, .done (some drawn.newId) none)
  | .writing a value named => (s.updateAccount a, .done value named)
  | .done value named => (s, .done value named)

/-- An update of an account reads it and writes it back. -/
def updateStep (call : Call) (accountId : String) : CallStage → AccountStore × CallStage
  | .start =>
    match s.findAccountById accountId with
    | none => (s, .done none none)
    | some a => (s, .writing (call.revise drawn.now a) none (call.named a))
  | .writing a value named => (s.updateAccount a, .done value named)
  | stage => (s, stage)

def callStep (call : Call) (stage : CallStage) : AccountStore × CallStage :=
  match call with
  | .resolve v => resolveStep drawn s v stage
  | .updateProfile accountId fields =>
    match stage with
    | .start =>
      if fields.entries.isEmpty then (s, .done none none)
      else updateStep drawn s call accountId stage
    | _ => updateStep drawn s call accountId stage
  | .updateDisplayName accountId _ => updateStep drawn s call accountId stage

end Steps

/-! ## One call on its own -/

section Alone
open AccountManager AccountStore

variable (drawn : Drawn) (s : AccountStore)

/-- `n` steps of a call. -/
def aloneStep (call : Call) : Nat → AccountStore × CallStage → AccountStore × CallStage :=
  Threads.alone (fun _ s stage => callStep drawn s call stage) true

theorem resolve_alone (v : Visit) :
    let run := resolveOrCreateIdentity s drawn v.provider v.subject v.providerName v.metadata
    ∃ named, aloneStep drawn (.resolve v) 5 (s, .start) =
      (run.store, .done (some run.value.accountId) named) := by
  intro run
  have hrun : run =
    resolveOrCreateIdentity s drawn v.provider v.subject v.providerName v.metadata := rfl
  unfold resolveOrCreateIdentity at hrun
  cases hfind : s.findIdentity v.provider v.subject with
  | none =>
    have hkept : (register s drawn v.newName).store.findIdentity v.provider v.subject = none :=
      hfind
    have hid : drawn.newId ∈ (register s drawn v.newName).store.directory.ids := by
      simp [directory_register]
    obtain ⟨a, ha⟩ := find_of_mem hid
    have hvalue : run.value = (register s drawn v.newName).value := by
      rw [hrun, hfind]
      rfl
    have hstore : run.store =
        (register s drawn v.newName).store.addIdentity (v.identity drawn) := by
      have hid : (register s drawn v.newName).value.accountId = drawn.newId := rfl
      rw [Visit.newName] at hkept ha hid
      simp [hrun, hfind, createNewIdentity, linkIdentity, hkept, hid, ha, Visit.newName,
        Visit.identity]
    refine ⟨none, ?_⟩
    simp [aloneStep, Threads.alone, callStep, resolveStep, hfind, hkept, ha, hvalue, hstore]
    rfl
  | some i =>
    have hsee : run = updateExistingIdentity s drawn i v.provider v.subject v.providerName
      v.metadata := by rw [hrun, hfind]
    cases haccount : s.findAccountById i.accountId with
    | none =>
      have hrelink : run.store = (register (s.updateIdentity (v.see drawn.now i)) drawn
            v.newName).store.updateIdentity { v.see drawn.now i with accountId := drawn.newId } ∧
          run.value.accountId = drawn.newId := by
        rw [hsee, updateExistingIdentity, findAccountById_updateIdentity, haccount]
        exact ⟨rfl, rfl⟩
      refine ⟨none, ?_⟩
      simp [aloneStep, Threads.alone, callStep, resolveStep, hfind, haccount, hrelink]
    | some a =>
      have hvisit : run.store = (s.updateIdentity (v.see drawn.now i)).updateAccount
            ((Call.resolve v).revise drawn.now a) ∧ run.value.accountId = a.accountId := by
        rw [hsee, updateExistingIdentity, findAccountById_updateIdentity, haccount]
        exact ⟨rfl, rfl⟩
      refine ⟨(Call.resolve v).named a, ?_⟩
      simp [aloneStep, Threads.alone, callStep, resolveStep, hfind, haccount, hvisit]

theorem updateProfile_alone (accountId : String) (fields : Dict String Json) :
    (aloneStep drawn (.updateProfile accountId fields) 5 (s, .start)).1 =
      (updateProfile s drawn accountId fields.entries).store := by
  unfold updateProfile
  cases hempty : fields.entries.isEmpty with
  | true => simp [aloneStep, Threads.alone, callStep, updateStep, hempty]
  | false =>
    cases hfind : s.findAccountById accountId with
    | none => simp [aloneStep, Threads.alone, callStep, updateStep, hempty, hfind]
    | some a => simp [aloneStep, Threads.alone, callStep, updateStep, hempty, hfind, Call.revise]

theorem updateDisplayName_alone (accountId displayName : String) :
    (aloneStep drawn (.updateDisplayName accountId displayName) 5 (s, .start)).1 =
      (updateDisplayName s drawn accountId displayName).store := by
  unfold updateDisplayName
  cases hfind : s.findAccountById accountId with
  | none => simp [aloneStep, Threads.alone, callStep, updateStep, hfind]
  | some a => simp [aloneStep, Threads.alone, callStep, updateStep, hfind, Call.revise]

/-- The store the account manager leaves. -/
def Call.result : Call → AccountStore
  | .resolve v =>
    (resolveOrCreateIdentity s drawn v.provider v.subject v.providerName v.metadata).store
  | .updateProfile accountId fields =>
    (AccountManager.updateProfile s drawn accountId fields.entries).store
  | .updateDisplayName accountId displayName =>
    (AccountManager.updateDisplayName s drawn accountId displayName).store

/-- A call that takes its steps on its own does what the account manager does. -/
theorem call_alone (call : Call) :
    (aloneStep drawn call 5 (s, .start)).1 = call.result drawn s := by
  cases call with
  | resolve v =>
    obtain ⟨named, hrun⟩ := resolve_alone drawn s v
    rw [hrun]
    rfl
  | updateProfile accountId fields => exact updateProfile_alone drawn s accountId fields
  | updateDisplayName accountId displayName =>
    exact updateDisplayName_alone drawn s accountId displayName

end Alone

/-! ## What a call writes -/

namespace Call

variable (c : Call) (now : String) (a : Account)

@[simp] theorem revise_accountId : (c.revise now a).accountId = a.accountId := by
  cases c <;> rfl

theorem foldl_setProfileField (accountId : String) (l : List (String × Json))
    (run : Dict String Json × List AccountEvent) :
    (l.foldl (AccountManager.setProfileField accountId) run).1 =
      l.foldl (fun d e => d.set e.1 e.2) run.1 := by
  induction l generalizing run with
  | nil => rfl
  | cons e rest ih =>
    rw [List.foldl_cons, List.foldl_cons, ih]
    rfl

theorem revise_profile (k : String) :
    (c.revise now a).profile.get? k = (c.fields.get? k).or (a.profile.get? k) := by
  cases c with
  | resolve v => rfl
  | updateProfile accountId fields =>
    rw [revise, foldl_setProfileField]
    exact Dict.get?_foldl_set fields.nodup a.profile k
  | updateDisplayName accountId displayName => rfl

theorem revise_displayName :
    (c.revise now a).displayName = (c.named a).getD a.displayName := by
  cases c with
  | resolve v =>
    unfold revise named
    dsimp only
    split <;> rfl
  | updateProfile accountId fields => rfl
  | updateDisplayName accountId displayName => rfl

end Call

/-! ## What a step does to an account that is there -/

namespace CallStage

/-- The call has not read the account yet. -/
def early : CallStage → Bool
  | start | seeing _ | resolving _ => true
  | _ => false

/-- It holds a copy of the account that it will write. -/
def holding : CallStage → Bool
  | writing _ _ _ => true
  | _ => false

/-- The account id a call that is done returns. -/
def value : CallStage → Option String
  | done value _ => value
  | _ => none

/-- The display name it wrote, or is about to write. -/
def named : CallStage → Option String
  | writing _ _ named | done _ named => named
  | _ => none

end CallStage

namespace Call

/-- The call is about this account. -/
def Targets (c : Call) (d : Directory) (id : String) : Prop :=
  match c with
  | .resolve v => d.Linked v.key id
  | .updateProfile accountId _ => accountId = id ∧ id ∈ d.ids
  | .updateDisplayName accountId _ => accountId = id ∧ id ∈ d.ids

/-- The call returns the account it is about, if it returns one. -/
def Returns (c : Call) (value : Option String) (id : String) : Prop :=
  ∀ v, c = .resolve v → value = some id

/-- A call that is about the account has got here. -/
def Follows (c : Call) (id : String) : CallStage → Prop
  | .start => True
  | .seeing i | .resolving i => ∃ v, c = .resolve v ∧ i.key = v.key ∧ i.accountId = id
  | .writing a value _ => a.accountId = id ∧ c.Returns value id
  | .done value _ => c.Returns value id
  | _ => False

/-- The steps of a call that is about an account: the account and the stage before, the account
and the stage after. -/
inductive Move (c : Call) (now : String) : Account → CallStage → Account → CallStage → Prop
  | think {a stage next} (h : stage.early = true) (hnext : next.early = true) :
      Move c now a stage a next
  | skip {a} (h : c.fields.entries = []) : Move c now a .start a (.done none none)
  | read {a stage value} (h : stage.early = true) :
      Move c now a stage a (.writing (c.revise now a) value (c.named a))
  | write {a copy value named} :
      Move c now a (.writing copy value named) copy (.done value named)
  | done {a value named} : Move c now a (.done value named) a (.done value named)

end Call

section About
open AccountStore

variable {drawn : Drawn} {s : AccountStore}

/-- A lookup finds the identity with the account it is linked to, or no link. -/
theorem resolveStep_start (drawn : Drawn) (s : AccountStore) (v : Visit) :
    (∃ i : AccountIdentity, i.key = v.key ∧ s.directory.owner v.key = some i.accountId ∧
      s.findIdentity v.provider v.subject = some i ∧
      resolveStep drawn s v .start = (s, .seeing (v.see drawn.now i))) ∨
    s.directory.owner v.key = none ∧ s.findIdentity v.provider v.subject = none ∧
      resolveStep drawn s v .start = (s, .registering) := by
  have howner := directory_owner s v.provider v.subject
  cases hfind : s.findIdentity v.provider v.subject with
  | none =>
    rw [hfind] at howner
    exact .inr ⟨howner, rfl, by simp [resolveStep, hfind]⟩
  | some i =>
    rw [hfind] at howner
    have hkey : i.key = v.key := Prod.ext (key_of_find hfind).1 (key_of_find hfind).2
    exact .inl ⟨i, hkey, howner, rfl, by simp [resolveStep, hfind]⟩

/-- An identity that is written as it is linked leaves the directory as it is. -/
theorem directory_rewrite {i : AccountIdentity} (h : s.directory.owner i.key = some i.accountId) :
    (s.updateIdentity i).directory = s.directory := by
  rw [AccountIdentity.key, directory_owner, Option.map_eq_some_iff] at h
  obtain ⟨old, hfind, hid⟩ := h
  obtain ⟨hprovider, hsubject⟩ := key_of_find hfind
  exact directory_updateIdentity hfind hprovider.symm hsubject.symm hid.symm

theorem writing_move (c : Call) (now : String) {id : String} {a copy : Account}
    {value named : Option String}
    (ha : s.findAccountById id = some a) (hcopy : copy.accountId = id) :
    (s.updateAccount copy).directory = s.directory ∧
      (s.updateAccount copy).findAccountById id = some copy ∧
      c.Move now a (.writing copy value named) copy (.done value named) :=
  ⟨directory_updateAccount ha (hcopy.trans (accountId_of_find ha).symm),
    findAccountById_updateAccount ha hcopy, .write⟩

theorem updateStep_move {c : Call} {id : String} {stage : CallStage} {a : Account}
    (ha : s.findAccountById id = some a) (hf : c.Follows id stage)
    (hupdate : ∀ v, c ≠ .resolve v) :
    let next := updateStep drawn s c id stage
    ∃ a', next.1.directory = s.directory ∧ next.1.findAccountById id = some a' ∧
      c.Move drawn.now a stage a' next.2 ∧ c.Follows id next.2 := by
  intro next
  have hreturns : ∀ value, c.Returns value id := fun _ v hv => absurd hv (hupdate v)
  cases stage with
  | start =>
    have hnext : next = (s, .writing (c.revise drawn.now a) none (c.named a)) := by
      simp [next, updateStep, ha]
    rw [hnext]
    refine ⟨a, rfl, ha, .read rfl, ?_, hreturns none⟩
    rw [Call.revise_accountId]
    exact accountId_of_find ha
  | writing copy value named =>
    obtain ⟨hd, hfind, hm⟩ := writing_move c drawn.now ha hf.1
    exact ⟨copy, hd, hfind, hm, hf.2⟩
  | done value named => exact ⟨a, rfl, ha, .done, hf⟩
  | seeing i | resolving i =>
    obtain ⟨v, hv, _⟩ := hf
    exact absurd hv (hupdate v)
  | _ => cases hf

theorem resolveStep_move {v : Visit} {id : String} {stage : CallStage} {a : Account}
    (hl : s.directory.owner v.key = some id) (ha : s.findAccountById id = some a)
    (hf : (Call.resolve v).Follows id stage) :
    let next := resolveStep drawn s v stage
    ∃ a', next.1.directory = s.directory ∧ next.1.findAccountById id = some a' ∧
      (Call.resolve v).Move drawn.now a stage a' next.2 ∧ (Call.resolve v).Follows id next.2 := by
  intro next
  cases stage with
  | start =>
    rcases resolveStep_start drawn s v with ⟨i, hkey, howner, _, hnext⟩ | ⟨howner, _⟩
    · have hid : i.accountId = id := Option.some.inj (howner.symm.trans hl)
      have hsee : (Call.resolve v).Follows id (.seeing (v.see drawn.now i)) :=
        ⟨v, rfl, hkey, hid⟩
      rw [show next = _ from hnext]
      exact ⟨a, rfl, ha, .think rfl rfl, hsee⟩
    · cases howner.symm.trans hl
  | seeing i =>
    obtain ⟨w, hw, hkey, hid⟩ := hf
    cases hw
    have hd : (s.updateIdentity i).directory = s.directory := by
      refine directory_rewrite ?_
      rw [hkey, hid]
      exact hl
    exact ⟨a, hd, ha, .think rfl rfl, v, rfl, hkey, hid⟩
  | resolving i =>
    obtain ⟨w, hw, _, hid⟩ := hf
    have haccount : a.accountId = id := accountId_of_find ha
    have hnext : next = (s, .writing ((Call.resolve v).revise drawn.now a) (some a.accountId)
        ((Call.resolve v).named a)) := by
      simp [next, resolveStep, hid, ha]
    rw [hnext]
    refine ⟨a, rfl, ha, .read rfl, ?_, fun _ _ => congrArg some haccount⟩
    rw [Call.revise_accountId]
    exact haccount
  | writing copy value named =>
    obtain ⟨hd, hfind, hm⟩ := writing_move (.resolve v) drawn.now ha hf.1
    exact ⟨copy, hd, hfind, hm, hf.2⟩
  | done value named => exact ⟨a, rfl, ha, .done, hf⟩
  | _ => cases hf

/-- What a step of a call does to the account it is about, which is there. -/
theorem callStep_move (drawn : Drawn) {c : Call} {id : String} {stage : CallStage}
    (ht : c.Targets s.directory id) (hf : c.Follows id stage) :
    let next := callStep drawn s c stage
    ∃ a a', s.findAccountById id = some a ∧ next.1.directory = s.directory ∧
      next.1.findAccountById id = some a' ∧ c.Move drawn.now a stage a' next.2 ∧
      c.Follows id next.2 := by
  intro next
  have hthere : id ∈ s.directory.ids := by
    cases c with
    | resolve v => exact ht.2
    | updateProfile accountId fields => exact ht.2
    | updateDisplayName accountId displayName => exact ht.2
  obtain ⟨a, ha⟩ := find_of_mem hthere
  refine ⟨a, ?_⟩
  cases c with
  | resolve v =>
    obtain ⟨a', hmove⟩ := resolveStep_move ht.1 ha hf
    exact ⟨a', ha, hmove⟩
  | updateDisplayName accountId displayName =>
    obtain ⟨rfl, _⟩ := ht
    obtain ⟨a', hmove⟩ := updateStep_move ha hf fun v hv => by cases hv
    exact ⟨a', ha, hmove⟩
  | updateProfile accountId fields =>
    obtain ⟨rfl, _⟩ := ht
    by_cases hempty : stage = .start ∧ fields.entries = []
    · obtain ⟨rfl, hempty⟩ := hempty
      have hnext : next = (s, .done none none) := by simp [next, callStep, hempty]
      rw [hnext]
      exact ⟨a, ha, rfl, ha, .skip hempty, fun v hv => by cases hv⟩
    · have hnext : next =
          updateStep drawn s (.updateProfile accountId fields) accountId stage := by
        show callStep drawn s _ stage = _
        unfold callStep
        cases stage with
        | start =>
          have hsome : ¬ fields.entries.isEmpty = true := fun h =>
            hempty ⟨rfl, List.isEmpty_iff.mp h⟩
          exact if_neg hsome
        | _ => rfl
      rw [hnext]
      obtain ⟨a', hmove⟩ := updateStep_move ha hf fun v hv => by cases hv
      exact ⟨a', ha, hmove⟩

end About

end IrisMind.Accounts
