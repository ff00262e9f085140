import IrisMind.Lib.Machine
import IrisMind.Accounts.Manager

/-! # Whose identity is whose

What the account manager promises about identities can be said of a directory:
the ids of the accounts, and the account each identity is linked to. Every
operation makes one of a few changes to the directory of its store. -/
namespace IrisMind.Accounts
open IrisMind.Lib

abbrev IdentityKey := Provider × String

def AccountIdentity.key (i : AccountIdentity) : IdentityKey := (i.provider, i.subject)

/-! ## Directories -/

structure Directory where
  ids : List String
  links : List (IdentityKey × String)

namespace Directory

/-- The account an identity is linked to. -/
def owner (d : Directory) (k : IdentityKey) : Option String := Dict.lookup k d.links

/-- The identity is linked to an account that is there. -/
def Linked (d : Directory) (k : IdentityKey) (id : String) : Prop :=
  d.owner k = some id ∧ id ∈ d.ids

/-- What one operation does: `fresh` is the id it draws for an account, `gone` the account it
deletes. -/
inductive Change (fresh gone : Option String) (d : Directory) : Directory → Prop
  | same : Change fresh gone d d
  | created {id} (hid : fresh = some id) : Change fresh gone d { d with ids := d.ids ++ [id] }
  | enrolled {id k} (hid : fresh = some id) (hfree : ∀ old, d.owner k = some old → old ∉ d.ids) :
      Change fresh gone d ⟨d.ids ++ [id], Dict.write k id d.links⟩
  | attached {id k} (hfree : d.owner k = none) (hid : id ∈ d.ids) :
      Change fresh gone d { d with links := Dict.write k id d.links }
  | deleted {id} (hid : gone = some id) :
      Change fresh gone d { d with ids := d.ids.filter (· ≠ id) }

/-- No account and no identity is there twice. -/
structure Unique (d : Directory) : Prop where
  ids : d.ids.Nodup
  keys : (d.links.map Prod.fst).Nodup

variable {fresh gone : Option String} {d d' : Directory}

theorem Change.unique (h : Change fresh gone d d') (hu : d.Unique)
    (hfresh : ∀ id, fresh = some id → id ∉ d.ids) : d'.Unique := by
  have hids : ∀ {id}, fresh = some id → (d.ids ++ [id]).Nodup := by
    intro id hid
    refine List.nodup_append.mpr ⟨hu.ids, List.nodup_singleton id, fun x hx y hy hxy => ?_⟩
    rw [hxy, List.mem_singleton.mp hy] at hx
    exact hfresh id hid hx
  cases h with
  | same => exact hu
  | created hid => exact ⟨hids hid, hu.keys⟩
  | enrolled hid => exact ⟨hids hid, Dict.write_nodup hu.keys⟩
  | attached => exact ⟨hu.ids, Dict.write_nodup hu.keys⟩
  | deleted => exact ⟨hu.ids.filter _, hu.keys⟩

/-- Only an id that is drawn becomes the id of an account. -/
theorem Change.ids_subset (h : Change fresh gone d d') :
    ∀ id ∈ d'.ids, id ∈ d.ids ∨ fresh = some id := by
  intro id hid
  have hadded : ∀ {x}, fresh = some x → id ∈ d.ids ++ [x] → id ∈ d.ids ∨ fresh = some id := by
    intro x hx hmem
    refine (List.mem_append.mp hmem).imp_right fun hself => ?_
    rw [List.mem_singleton.mp hself]
    exact hx
  cases h with
  | same => exact .inl hid
  | created hx => exact hadded hx hid
  | enrolled hx => exact hadded hx hid
  | attached => exact .inl hid
  | deleted => exact .inl (List.mem_filter.mp hid).1

/-- A link to an account that is there stays, unless the account goes. -/
theorem Change.linked (h : Change fresh gone d d') {k : IdentityKey} {id : String}
    (hl : d.Linked k id) (hgone : gone ≠ some id) : d'.Linked k id := by
  obtain ⟨howner, hid⟩ := hl
  have hwrite : ∀ {k' : IdentityKey} {x : String}, k' ≠ k →
      Dict.lookup k (Dict.write k' x d.links) = some id := by
    intro k' x hne
    rw [Dict.lookup_write, if_neg hne]
    exact howner
  cases h with
  | same => exact ⟨howner, hid⟩
  | created => exact ⟨howner, List.mem_append_left _ hid⟩
  | enrolled _ hfree =>
    refine ⟨hwrite ?_, List.mem_append_left _ hid⟩
    rintro rfl
    exact hfree id howner hid
  | attached hfree =>
    refine ⟨hwrite ?_, hid⟩
    rintro rfl
    cases howner.symm.trans hfree
  | deleted hx =>
    refine ⟨howner, List.mem_filter.mpr ⟨hid, decide_eq_true fun heq => hgone ?_⟩⟩
    rw [hx, heq]

end Directory

/-! ## The directory of a store -/

namespace AccountStore

def directory (s : AccountStore) : Directory where
  ids := s.accounts.map Account.accountId
  links := s.identities.map fun i => (i.key, i.accountId)

theorem mem_directory_ids {s : AccountStore} {accountId : String} :
    accountId ∈ s.directory.ids ↔ (s.findAccountById accountId).isSome = true := by
  rw [findAccountById, List.find?_isSome, directory, List.mem_map]
  refine exists_congr fun a => and_congr_right fun _ => ?_
  exact beq_iff_eq.symm

theorem find_of_mem {s : AccountStore} {accountId : String} (h : accountId ∈ s.directory.ids) :
    ∃ a, s.findAccountById accountId = some a :=
  Option.isSome_iff_exists.mp (mem_directory_ids.mp h)

theorem find_eq_none {s : AccountStore} {accountId : String} :
    s.findAccountById accountId = none ↔ accountId ∉ s.directory.ids := by
  rw [mem_directory_ids]
  exact Option.not_isSome_iff_eq_none.symm

theorem directory_owner (s : AccountStore) (provider : Provider) (subject : String) :
    s.directory.owner (provider, subject) =
      (s.findIdentity provider subject).map AccountIdentity.accountId := by
  unfold Directory.owner directory findIdentity
  dsimp only
  induction s.identities with
  | nil => rfl
  | cons i rest ih =>
    rw [List.map_cons, Dict.lookup, List.find?_cons]
    by_cases h : i.key = (provider, subject)
    · obtain ⟨hp, hs⟩ := Prod.mk.inj h
      simp [hp, hs, AccountIdentity.key]
    · have hno : (i.provider == provider && i.subject == subject) = false := by
        cases hof : i.provider == provider && i.subject == subject with
        | false => rfl
        | true =>
          obtain ⟨hp, hs⟩ := Bool.and_eq_true_iff.mp hof
          exact absurd (Prod.ext (eq_of_beq hp) (eq_of_beq hs)) h
      rw [if_neg h, hno]
      exact ih

theorem findIdentity_eq_none {s : AccountStore} {provider : Provider} {subject : String} :
    s.findIdentity provider subject = none ↔ s.directory.owner (provider, subject) = none := by
  rw [directory_owner]
  exact Option.map_eq_none_iff.symm

theorem directory_updateAccount {s : AccountStore} {accountId : String} {old new : Account}
    (h : s.findAccountById accountId = some old) (hid : new.accountId = old.accountId) :
    (s.updateAccount new).directory = s.directory := by
  have hnew : new.accountId = accountId := hid.trans (accountId_of_find h)
  subst hnew
  unfold directory updateAccount
  congr 1
  exact Rows.map_replaceFirst_of_find hid h

theorem links_updateIdentity {s : AccountStore} {new : AccountIdentity}
    (h : (s.findIdentity new.provider new.subject).isSome = true) :
    (s.updateIdentity new).directory =
      { s.directory with links := Dict.write new.key new.accountId s.directory.links } := by
  unfold findIdentity at h
  unfold directory updateIdentity
  dsimp only
  congr 1
  generalize s.identities = identities at h
  induction identities with
  | nil => cases h
  | cons i rest ih =>
    rw [List.find?_cons] at h
    rw [List.map_cons, Dict.write, Rows.replaceFirst]
    have hkey : (i.provider == new.provider && i.subject == new.subject) = true ↔
        i.key = new.key := by
      simp [AccountIdentity.key]
    cases hof : i.provider == new.provider && i.subject == new.subject with
    | true => rw [if_pos rfl, if_pos (hkey.mp hof), List.map_cons]
    | false =>
      rw [hof] at h
      rw [if_neg Bool.false_ne_true, List.map_cons, ih h, if_neg fun he => ?_]
      rw [hkey.mpr he] at hof
      cases hof

/-- An identity that is written with the account it had is linked as before. -/
theorem directory_updateIdentity {s : AccountStore} {provider : Provider} {subject : String}
    {old new : AccountIdentity} (h : s.findIdentity provider subject = some old)
    (hprovider : new.provider = old.provider) (hsubject : new.subject = old.subject)
    (haccount : new.accountId = old.accountId) :
    (s.updateIdentity new).directory = s.directory := by
  obtain ⟨hp, hs⟩ := key_of_find h
  have hfind : s.findIdentity new.provider new.subject = some old := by
    rw [hprovider, hsubject, hp, hs]
    exact h
  have howner : s.directory.owner new.key = some new.accountId := by
    rw [AccountIdentity.key, directory_owner, hfind, haccount]
    rfl
  rw [links_updateIdentity (by rw [hfind]; rfl)]
  exact congrArg (Directory.mk _) (Dict.write_self howner)

theorem directory_addIdentity {s : AccountStore} {new : AccountIdentity}
    (h : s.findIdentity new.provider new.subject = none) :
    (s.addIdentity new).directory =
      { s.directory with links := Dict.write new.key new.accountId s.directory.links } := by
  have howner : s.directory.owner new.key = none := by
    rw [AccountIdentity.key, directory_owner, h]
    rfl
  rw [Dict.write_of_absent (Dict.lookup_eq_none.mp howner)]
  simp [directory, addIdentity]

/-- An identity that is linked has one record. -/
theorem one_identity {s : AccountStore} (h : s.directory.Unique) {k : IdentityKey} {id : String}
    (howner : s.directory.owner k = some id) :
    (s.identities.filter (fun i => i.key = k)).length = 1 := by
  have hkeys : s.directory.links.map Prod.fst = s.identities.map AccountIdentity.key := by
    simp [directory]
  have hmem : k ∈ s.directory.links.map Prod.fst := List.mem_map_of_mem (Dict.mem_of_lookup howner)
  have hone := List.count_eq_one_of_mem h.keys hmem
  rw [hkeys, List.count, List.countP_map, List.countP_eq_length_filter] at hone
  rw [← hone]
  exact congrArg List.length (List.filter_congr fun i _ => Bool.eq_iff_iff.mpr (by simp))

theorem directory_deleteAccount (s : AccountStore) (accountId : String) :
    (s.deleteAccount accountId).directory =
      { s.directory with ids := s.directory.ids.filter (· ≠ accountId) } := by
  unfold directory deleteAccount
  congr 1
  rw [List.filter_map]
  congr 1
  exact List.filter_congr fun a _ => by rw [Function.comp, decide_not]; rfl

end AccountStore

/-! ## What the operations change -/

namespace AccountManager
open AccountStore

theorem directory_register (s : AccountStore) (drawn : Drawn) (displayName : String) :
    (register s drawn displayName).store.directory =
      { s.directory with ids := s.directory.ids ++ [drawn.newId] } := by
  simp [directory, register, addAccount]

theorem find_register {s : AccountStore} {drawn : Drawn} (h : drawn.newId ∉ s.directory.ids)
    (displayName : String) :
    (register s drawn displayName).store.findAccountById drawn.newId =
      some (register s drawn displayName).value := by
  have hnone := find_eq_none.mpr h
  unfold findAccountById at hnone
  simp [findAccountById, register, addAccount, List.find?_append, hnone]

theorem linkIdentity_of_new {s : AccountStore} {provider : Provider} {subject : String}
    (hfind : s.findIdentity provider subject = none) {accountId : String}
    (hid : accountId ∈ s.directory.ids) (drawn : Drawn) (providerName : String)
    (metadata : List (String × Json)) :
    let run := linkIdentity s drawn accountId provider subject providerName metadata
    run.store.accounts = s.accounts ∧ run.store.directory =
      { s.directory with links := Dict.write (provider, subject) accountId s.directory.links } := by
  intro run
  obtain ⟨account, haccount⟩ := find_of_mem hid
  have hrun : run.store = s.addIdentity
      { provider, subject, accountId, providerName, metadata
        linkedAt := drawn.now, lastSeen := some drawn.now } := by
    simp [run, linkIdentity, hfind, haccount]
  rw [hrun]
  exact ⟨rfl, directory_addIdentity hfind⟩

/-- A link is kept, or the identity had none. -/
theorem linkIdentity_change (s : AccountStore) (drawn : Drawn) (accountId : String)
    (provider : Provider) (subject providerName : String) (metadata : List (String × Json)) :
    let run := linkIdentity s drawn accountId provider subject providerName metadata
    run.store.directory = s.directory ∨
      s.directory.owner (provider, subject) = none ∧ accountId ∈ s.directory.ids ∧
        run.store.directory =
          { s.directory with
            links := Dict.write (provider, subject) accountId s.directory.links } := by
  intro run
  cases haccount : s.findAccountById accountId with
  | none =>
    refine .inl (congrArg AccountStore.directory ?_)
    cases hfind : s.findIdentity provider subject <;> simp [run, linkIdentity, hfind, haccount]
  | some account =>
    cases hfind : s.findIdentity provider subject with
    | none =>
      have hid : accountId ∈ s.directory.ids := by
        rw [mem_directory_ids, haccount]
        rfl
      refine .inr ⟨?_, hid, (linkIdentity_of_new hfind hid drawn providerName metadata).2⟩
      rw [directory_owner, hfind]
      rfl
    | some identity =>
      left
      by_cases hown : identity.accountId = accountId
      · have hrun : run.store = s.updateIdentity { identity with
            providerName := if providerName = "" then identity.providerName else providerName
            metadata := if metadata.isEmpty then identity.metadata else metadata
            lastSeen := some drawn.now } := by
          simp [run, linkIdentity, hfind, hown, haccount]
        rw [hrun]
        exact directory_updateIdentity hfind rfl rfl rfl
      · have hrun : run.store = s := by simp [run, linkIdentity, hfind, hown]
        rw [hrun]

/-- What resolving an identity does: the account it returns is there and has the identity, and
it is the one that had it, if that one is there. -/
structure Resolved (s : AccountStore) (fresh : String) (k : IdentityKey)
    (run : AccountRun Account) : Prop where
  change : Directory.Change (some fresh) none s.directory run.store.directory
  linked : run.store.directory.Linked k run.value.accountId
  returned : fresh ∉ s.directory.ids →
    run.store.findAccountById run.value.accountId = some run.value
  kept : ∀ id, s.directory.Linked k id → run.value.accountId = id

theorem updateExistingIdentity_resolved {s : AccountStore} {provider : Provider}
    {subject : String} {identity : AccountIdentity}
    (hfind : s.findIdentity provider subject = some identity) (drawn : Drawn)
    (providerName : String) (metadata : List (String × Json)) :
    Resolved s drawn.newId (provider, subject)
      (updateExistingIdentity s drawn identity provider subject providerName metadata) := by
  obtain ⟨hprovider, hsubject⟩ := key_of_find hfind
  have howner : s.directory.owner (provider, subject) = some identity.accountId := by
    rw [directory_owner, hfind]
    rfl
  let seen := { identity with
    providerName := if providerName = "" then identity.providerName else providerName
    metadata := if metadata.isEmpty then identity.metadata else metadata
    lastSeen := some drawn.now }
  have hseen : (s.updateIdentity seen).directory = s.directory :=
    directory_updateIdentity hfind rfl rfl rfl
  have hseenFind : (s.updateIdentity seen).findIdentity provider subject = some seen :=
    findIdentity_updateIdentity hfind hprovider hsubject
  unfold updateExistingIdentity
  dsimp only
  split
  · next account haccount =>
    have hid := accountId_of_find haccount
    have hmem : identity.accountId ∈ s.directory.ids := by
      rw [mem_directory_ids]
      exact Option.isSome_iff_exists.mpr ⟨account, haccount⟩
    let visited := { account with
      lastSeen := some drawn.now
      displayName :=
        if providerName ≠ "" && account.displayName = "" then providerName
        else account.displayName }
    have hvisited : visited.accountId = account.accountId := rfl
    have hstore : ((s.updateIdentity seen).updateAccount visited).directory = s.directory :=
      (directory_updateAccount haccount hvisited).trans hseen
    refine ⟨?_, ?_, fun _ => ?_, fun id hl => ?_⟩
    · show Directory.Change _ _ _ ((s.updateIdentity seen).updateAccount visited).directory
      rw [hstore]
      exact .same
    · show ((s.updateIdentity seen).updateAccount visited).directory.Linked _ account.accountId
      rw [hstore, hid]
      exact ⟨howner, hmem⟩
    · exact findAccountById_updateAccount (hid.symm ▸ haccount) rfl
    · exact hid.trans (Option.some.inj (howner.symm.trans hl.1))
  · next hnone =>
    have hgone : identity.accountId ∉ s.directory.ids := find_eq_none.mp hnone
    generalize hname : (if providerName = "" then provider.value ++ ":" ++ subject
      else providerName) = name
    have hregister := directory_register (s.updateIdentity seen) drawn name
    have hdirectory : ((register (s.updateIdentity seen) drawn name).store.updateIdentity
        { seen with accountId := drawn.newId }).directory =
        ⟨s.directory.ids ++ [drawn.newId],
          Dict.write (provider, subject) drawn.newId s.directory.links⟩ := by
      rw [links_updateIdentity, hregister, hseen]
      · rw [AccountIdentity.key, hprovider, hsubject]
      · rw [hprovider, hsubject]
        exact Option.isSome_iff_exists.mpr ⟨seen, hseenFind⟩
    refine ⟨?_, ?_, fun hfresh => ?_, fun id hl => ?_⟩
    · refine hdirectory ▸ .enrolled rfl fun old hold => ?_
      rwa [← Option.some.inj (howner.symm.trans hold)]
    · refine hdirectory ▸ ⟨?_, List.mem_append_right _ List.mem_cons_self⟩
      rw [Directory.owner, Dict.lookup_write, if_pos rfl]
      rfl
    · exact find_register (hseen.symm ▸ hfresh) name
    · rw [Option.some.inj (howner.symm.trans hl.1)] at hgone
      exact absurd hl.2 hgone

theorem createNewIdentity_resolved {s : AccountStore} {provider : Provider} {subject : String}
    (hfind : s.findIdentity provider subject = none) (drawn : Drawn)
    (providerName : String) (metadata : List (String × Json)) :
    Resolved s drawn.newId (provider, subject)
      (createNewIdentity s drawn provider subject providerName metadata) := by
  have howner : s.directory.owner (provider, subject) = none := by
    rw [directory_owner, hfind]
    rfl
  unfold createNewIdentity
  dsimp only
  generalize hname : (if providerName = "" then provider.value ++ ":" ++ subject
    else providerName) = name
  have hregister := directory_register s drawn name
  have hid : drawn.newId ∈ (register s drawn name).store.directory.ids := by
    rw [hregister]
    exact List.mem_append_right _ List.mem_cons_self
  obtain ⟨haccounts, hlinked⟩ := linkIdentity_of_new (s := (register s drawn name).store) hfind hid
    drawn providerName metadata
  rw [hregister] at hlinked
  refine ⟨?_, ?_, fun hfresh => ?_, fun id hl => ?_⟩
  · refine hlinked ▸ .enrolled rfl fun old hold => ?_
    cases howner.symm.trans hold
  · refine hlinked ▸ ⟨?_, List.mem_append_right _ List.mem_cons_self⟩
    rw [Directory.owner, Dict.lookup_write, if_pos rfl]
    rfl
  · rw [← find_register hfresh name]
    exact congrArg (List.find? _) haccounts
  · cases howner.symm.trans hl.1

theorem resolveOrCreateIdentity_resolved (s : AccountStore) (drawn : Drawn)
    (provider : Provider) (subject providerName : String) (metadata : List (String × Json)) :
    Resolved s drawn.newId (provider, subject)
      (resolveOrCreateIdentity s drawn provider subject providerName metadata) := by
  unfold resolveOrCreateIdentity
  split
  · next hfind => exact updateExistingIdentity_resolved hfind drawn providerName metadata
  · next hfind => exact createNewIdentity_resolved hfind drawn providerName metadata

theorem directory_updateDisplayName (s : AccountStore) (drawn : Drawn)
    (accountId displayName : String) :
    (updateDisplayName s drawn accountId displayName).store.directory = s.directory := by
  unfold updateDisplayName
  split
  · rfl
  · next account h => exact directory_updateAccount h rfl

theorem directory_updateLastSeen (s : AccountStore) (drawn : Drawn) (accountId : String) :
    (updateLastSeen s drawn accountId).store.directory = s.directory := by
  unfold updateLastSeen
  split
  · rfl
  · next account h => exact directory_updateAccount h rfl

theorem directory_updateProfile (s : AccountStore) (drawn : Drawn) (accountId : String)
    (fields : List (String × Json)) :
    (updateProfile s drawn accountId fields).store.directory = s.directory := by
  unfold updateProfile
  split
  · rfl
  split
  · rfl
  · next account h => exact directory_updateAccount h rfl

/-! ## Whole runs -/

inductive Operation where
  | register (drawn : Drawn) (displayName : String)
  | resolve (drawn : Drawn) (provider : Provider) (subject providerName : String)
      (metadata : List (String × Json))
  | link (drawn : Drawn) (accountId : String) (provider : Provider) (subject providerName : String)
      (metadata : List (String × Json))
  | updateDisplayName (drawn : Drawn) (accountId displayName : String)
  | updateLastSeen (drawn : Drawn) (accountId : String)
  | updateProfile (drawn : Drawn) (accountId : String) (fields : List (String × Json))
  | delete (accountId : String)

namespace Operation

/-- The id the operation draws, if it may need one. -/
def fresh : Operation → Option String
  | register drawn _ => some drawn.newId
  | resolve drawn _ _ _ _ => some drawn.newId
  | _ => none

/-- The account the operation deletes. -/
def gone : Operation → Option String
  | delete accountId => some accountId
  | _ => none

end Operation

def step (s : AccountStore) : Operation → AccountStore
  | .register drawn displayName => (register s drawn displayName).store
  | .resolve drawn provider subject providerName metadata =>
    (resolveOrCreateIdentity s drawn provider subject providerName metadata).store
  | .link drawn accountId provider subject providerName metadata =>
    (linkIdentity s drawn accountId provider subject providerName metadata).store
  | .updateDisplayName drawn accountId displayName =>
    (updateDisplayName s drawn accountId displayName).store
  | .updateLastSeen drawn accountId => (updateLastSeen s drawn accountId).store
  | .updateProfile drawn accountId fields => (updateProfile s drawn accountId fields).store
  | .delete accountId => (deleteAccount s accountId).store

theorem step_change (s : AccountStore) (op : Operation) :
    Directory.Change op.fresh op.gone s.directory (step s op).directory := by
  cases op with
  | register drawn displayName =>
    refine (directory_register s drawn displayName).symm ▸ ?_
    exact .created rfl
  | resolve drawn provider subject providerName metadata =>
    exact (resolveOrCreateIdentity_resolved s drawn provider subject providerName metadata).change
  | link drawn accountId provider subject providerName metadata =>
    rcases linkIdentity_change s drawn accountId provider subject providerName metadata with
      hsame | ⟨hfree, hid, hattached⟩
    · exact hsame.symm ▸ .same
    · exact hattached.symm ▸ .attached hfree hid
  | updateDisplayName drawn accountId displayName =>
    exact (directory_updateDisplayName s drawn accountId displayName).symm ▸ .same
  | updateLastSeen drawn accountId =>
    exact (directory_updateLastSeen s drawn accountId).symm ▸ .same
  | updateProfile drawn accountId fields =>
    exact (directory_updateProfile s drawn accountId fields).symm ▸ .same
  | delete accountId =>
    exact (directory_deleteAccount s accountId).symm ▸ .deleted rfl

/-- A run that draws new ids keeps everything there once. -/
theorem run_unique {ops : List Operation} (hnodup : (ops.filterMap Operation.fresh).Nodup) :
    ∀ {s : AccountStore}, s.directory.Unique →
      (∀ id ∈ ops.filterMap Operation.fresh, id ∉ s.directory.ids) →
      (Machine.run step s ops).directory.Unique ∧ ∀ id ∈ (Machine.run step s ops).directory.ids,
        id ∈ s.directory.ids ∨ id ∈ ops.filterMap Operation.fresh := by
  induction ops with
  | nil => exact fun h _ => ⟨h, fun _ hid => .inl hid⟩
  | cons op ops ih =>
    intro s hs hfresh
    have hchange := step_change s op
    have hids : ∀ id, id ∈ (op :: ops).filterMap Operation.fresh ↔
        op.fresh = some id ∨ id ∈ ops.filterMap Operation.fresh := by
      intro id
      rw [List.mem_filterMap, List.exists_mem_cons_iff, List.mem_filterMap]
    have hrest : (ops.filterMap Operation.fresh).Nodup ∧
        ∀ id, op.fresh = some id → id ∉ ops.filterMap Operation.fresh := by
      rw [List.filterMap_cons] at hnodup
      split at hnodup
      · next hnone => exact ⟨hnodup, fun id hid => by cases hnone.symm.trans hid⟩
      · next x hx =>
        obtain ⟨hout, hn⟩ := List.nodup_cons.mp hnodup
        exact ⟨hn, fun id hid => Option.some.inj (hx.symm.trans hid) ▸ hout⟩
    have hone := hchange.unique hs fun id hid => hfresh id ((hids id).mpr (.inl hid))
    obtain ⟨hunique, hsubset⟩ := ih hrest.1 hone fun id hid hin => by
      rcases hchange.ids_subset id hin with hold | hnew
      · exact hfresh id ((hids id).mpr (.inr hid)) hold
      · exact hrest.2 id hnew hid
    refine ⟨hunique, fun id hid => ?_⟩
    rw [hids]
    rcases hsubset id hid with hold | hnew
    · exact (hchange.ids_subset id hold).imp_right .inl
    · exact .inr (.inr hnew)

/-- A link to an account lasts as long as the account. -/
theorem run_linked {k : IdentityKey} {id : String} {ops : List Operation}
    (hgone : ∀ op ∈ ops, op.gone ≠ some id) :
    ∀ {s : AccountStore}, s.directory.Linked k id →
      (Machine.run step s ops).directory.Linked k id := by
  induction ops with
  | nil => exact fun h => h
  | cons op ops ih =>
    intro s h
    refine ih (fun x hx => hgone x (List.mem_cons_of_mem _ hx)) ?_
    exact (step_change s op).linked h (hgone op List.mem_cons_self)

/-- What is promised of identities after a run from the empty store. -/
structure KeepsIdentities (ops : List Operation) (s : AccountStore) : Prop where
  oneAccount : (s.accounts.map Account.accountId).Nodup
  oneIdentity : (s.identities.map AccountIdentity.key).Nodup
  resolves : ∀ (drawn : Drawn) (provider : Provider) (subject providerName : String)
    (metadata : List (String × Json)), drawn.newId ∉ ops.filterMap Operation.fresh →
      let run := resolveOrCreateIdentity s drawn provider subject providerName metadata
      run.store.findAccountById run.value.accountId = some run.value ∧
        (run.store.findIdentity provider subject).map AccountIdentity.accountId =
          some run.value.accountId ∧
        ∀ later : List Operation, (∀ op ∈ later, op.gone ≠ some run.value.accountId) →
          ∀ (drawn' : Drawn) (providerName' : String) (metadata' : List (String × Json)),
            (resolveOrCreateIdentity (Machine.run step run.store later) drawn' provider subject
              providerName' metadata').value.accountId = run.value.accountId
  links : ∀ (drawn : Drawn) (accountId : String) (provider : Provider)
    (subject providerName : String) (metadata : List (String × Json)) (k : IdentityKey)
    (identity : AccountIdentity), s.findIdentity k.1 k.2 = some identity →
      (s.findAccountById identity.accountId).isSome = true →
        ((linkIdentity s drawn accountId provider subject providerName metadata).store.findIdentity
          k.1 k.2).map AccountIdentity.accountId = some identity.accountId

/-- Accounts and identities are there once, an identity resolves to one account as long as that
exists, and no link takes it away. -/
theorem run_keepsIdentities (ops : List Operation)
    (hfresh : (ops.filterMap Operation.fresh).Nodup) :
    KeepsIdentities ops (Machine.run step {} ops) := by
  have hempty : ({} : AccountStore).directory.Unique := ⟨List.nodup_nil, List.nodup_nil⟩
  obtain ⟨hunique, hsubset⟩ := run_unique hfresh hempty fun _ _ h => by cases h
  generalize Machine.run step {} ops = s at hunique hsubset
  refine ⟨hunique.ids, ?_, fun drawn provider subject providerName metadata hnew => ?_,
    fun drawn accountId provider subject providerName metadata k identity hfind hthere => ?_⟩
  · have hkeys := hunique.keys
    rwa [directory, List.map_map] at hkeys
  · intro run
    have hresolved : Resolved s drawn.newId (provider, subject) run :=
      resolveOrCreateIdentity_resolved s drawn provider subject providerName metadata
    refine ⟨hresolved.returned fun hid => ?_, ?_,
      fun later hlater drawn' providerName' metadata' => ?_⟩
    · rcases hsubset drawn.newId hid with hin | hin
      · cases hin
      · exact hnew hin
    · rw [← directory_owner]
      exact hresolved.linked.1
    · exact
        (resolveOrCreateIdentity_resolved _ drawn' provider subject providerName' metadata').kept
        _ (run_linked hlater hresolved.linked)
  · have hlinked : s.directory.Linked k identity.accountId := by
      refine ⟨?_, mem_directory_ids.mpr hthere⟩
      rw [directory_owner, hfind]
      rfl
    rw [← directory_owner]
    refine ((step_change s (.link drawn accountId provider subject providerName metadata)).linked
      hlinked ?_).1
    exact fun h => by cases h

/-- An account that is deleted between two visits of the same identity. -/
theorem run_keepsIdentities_deleted : KeepsIdentities
    [.resolve ⟨"1", ""⟩ .discord "x" "" [], .delete "1", .resolve ⟨"2", ""⟩ .discord "x" "" []]
    (Machine.run step {} [.resolve ⟨"1", ""⟩ .discord "x" "" [], .delete "1",
      .resolve ⟨"2", ""⟩ .discord "x" "" []]) :=
  run_keepsIdentities _ (by decide)

end AccountManager

end IrisMind.Accounts
