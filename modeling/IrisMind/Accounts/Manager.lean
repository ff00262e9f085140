import IrisMind.Accounts.Account

/-! # Names, profiles and lookups

Every call that resolves or links an identity stamps it with the time, and every
change of an account stamps the account. So a lookup after such a call shows the
time of the call, whatever else the call has done. -/
namespace IrisMind.Accounts
open IrisMind.Lib

namespace AccountManager

def getAccountByIdentity (s : AccountStore) (provider : Provider) (subject : String) :
    Option Account :=
  match s.findIdentity provider subject with
  | none => none
  | some identity => s.findAccountById identity.accountId

def updateDisplayName (s : AccountStore) (drawn : Drawn) (accountId displayName : String) :
    AccountRun Unit :=
  match s.findAccountById accountId with
  | none => { value := (), store := s }
  | some account =>
    { value := ()
      store := s.updateAccount { account with displayName, lastSeen := some drawn.now }
      events := [.updated accountId "display_name" (.str account.displayName)
        (.str displayName)] }

def updateLastSeen (s : AccountStore) (drawn : Drawn) (accountId : String) : AccountRun Unit :=
  match s.findAccountById accountId with
  | none => { value := (), store := s }
  | some account =>
    { value := (), store := s.updateAccount { account with lastSeen := some drawn.now } }

def deleteAccount (s : AccountStore) (accountId : String) : AccountRun Unit :=
  { value := (), store := s.deleteAccount accountId }

/-- The body of the loop in `_apply_profile_update`. -/
def setProfileField (accountId : String) (run : Dict String Json × List AccountEvent)
    (field : String × Json) : Dict String Json × List AccountEvent :=
  let old := (run.1.get? field.1).getD .null
  (run.1.set field.1 field.2,
    run.2 ++ [.updated accountId ("profile." ++ field.1) old field.2])

/-- `update_profile`, called with keywords that are not names of its own parameters. -/
def updateProfile (s : AccountStore) (drawn : Drawn) (accountId : String)
    (fields : List (String × Json)) : AccountRun Unit :=
  if fields.isEmpty then { value := (), store := s }
  else match s.findAccountById accountId with
    | none => { value := (), store := s }
    | some account =>
      let run := fields.foldl (setProfileField accountId) (account.profile, [])
      { value := ()
        store := s.updateAccount { account with profile := run.1, lastSeen := some drawn.now }
        events := run.2 }

end AccountManager

/-! ## Lookups after a write -/

namespace AccountStore

theorem accountId_of_find {s : AccountStore} {accountId : String} {a : Account}
    (h : s.findAccountById accountId = some a) : a.accountId = accountId := by
  have hfits : (a.accountId == accountId) = true :=
    List.find?_some (p := fun a : Account => a.accountId == accountId) h
  exact beq_iff_eq.mp hfits

theorem key_of_find {s : AccountStore} {provider : Provider} {subject : String}
    {i : AccountIdentity} (h : s.findIdentity provider subject = some i) :
    i.provider = provider ∧ i.subject = subject := by
  have hfits : (i.provider == provider && i.subject == subject) = true :=
    List.find?_some
      (p := fun i : AccountIdentity => i.provider == provider && i.subject == subject) h
  obtain ⟨hprovider, hsubject⟩ := Bool.and_eq_true_iff.mp hfits
  exact ⟨beq_iff_eq.mp hprovider, beq_iff_eq.mp hsubject⟩

theorem findAccountById_updateAccount {s : AccountStore} {accountId : String} {old new : Account}
    (h : s.findAccountById accountId = some old) (hnew : new.accountId = accountId) :
    (s.updateAccount new).findAccountById accountId = some new := by
  subst hnew
  exact Rows.find?_replaceFirst (fun a : Account => a.accountId == new.accountId)
    (beq_self_eq_true _) h

theorem findIdentity_updateIdentity {s : AccountStore} {provider : Provider} {subject : String}
    {old new : AccountIdentity} (h : s.findIdentity provider subject = some old)
    (hprovider : new.provider = provider) (hsubject : new.subject = subject) :
    (s.updateIdentity new).findIdentity provider subject = some new := by
  subst hprovider hsubject
  exact Rows.find?_replaceFirst
    (fun i : AccountIdentity => i.provider == new.provider && i.subject == new.subject) (by simp) h

theorem findIdentity_addIdentity {s : AccountStore} {provider : Provider} {subject : String}
    {new : AccountIdentity} (h : s.findIdentity provider subject = none)
    (hprovider : new.provider = provider) (hsubject : new.subject = subject) :
    (s.addIdentity new).findIdentity provider subject = some new := by
  unfold findIdentity at h
  simp [findIdentity, addIdentity, List.find?_append, h, hprovider, hsubject]

/-- The identity was last seen at the time. -/
def SeenAt (s : AccountStore) (provider : Provider) (subject now : String) : Prop :=
  ∃ i, s.findIdentity provider subject = some i ∧ i.lastSeen = some now

end AccountStore

namespace AccountManager

/-- A link is refused when the identity is somebody else's or there is no such account, and then
nothing changes; otherwise the identity is seen. -/
theorem linkIdentity_cases (s : AccountStore) (drawn : Drawn) (accountId : String)
    (provider : Provider) (subject providerName : String) (metadata : List (String × Json)) :
    let free := (∀ i, s.findIdentity provider subject = some i → i.accountId = accountId) ∧
      (s.findAccountById accountId).isSome = true
    let run := linkIdentity s drawn accountId provider subject providerName metadata
    free ∧ run.value = true ∧ run.store.SeenAt provider subject drawn.now ∨
      ¬ free ∧ run.value = false ∧ run.store = s := by
  intro free run
  cases haccount : s.findAccountById accountId with
  | none =>
    right
    refine ⟨fun h => ?_, ?_⟩
    · have hsome := h.2
      rw [haccount] at hsome
      cases hsome
    · cases hfind : s.findIdentity provider subject <;> simp [run, linkIdentity, hfind, haccount]
  | some account =>
    cases hfind : s.findIdentity provider subject with
    | none =>
      left
      refine ⟨⟨fun i hi => ?_, by rw [haccount]; rfl⟩, ?_⟩
      · rw [hfind] at hi
        cases hi
      · simp only [run, linkIdentity, hfind, haccount, Bool.false_eq_true, if_false]
        exact ⟨trivial, _, AccountStore.findIdentity_addIdentity hfind rfl rfl, rfl⟩
    | some identity =>
      by_cases hown : identity.accountId = accountId
      · left
        refine ⟨⟨fun i hi => ?_, by rw [haccount]; rfl⟩, ?_⟩
        · rw [hfind] at hi
          cases hi
          exact hown
        · obtain ⟨hprovider, hsubject⟩ := AccountStore.key_of_find hfind
          simp only [run, linkIdentity, hfind, haccount, hown, ne_eq, not_true_eq_false,
            decide_false, Bool.false_eq_true, if_false]
          exact ⟨trivial, _,
            AccountStore.findIdentity_updateIdentity hfind hprovider hsubject, rfl⟩
      · right
        refine ⟨fun h => hown (h.1 identity hfind), ?_⟩
        simp [run, linkIdentity, hfind, hown]

/-- Whoever resolves an identity is seen, whether it was known or not. -/
theorem seenAt_resolveOrCreateIdentity (s : AccountStore) (drawn : Drawn) (provider : Provider)
    (subject providerName : String) (metadata : List (String × Json)) :
    (resolveOrCreateIdentity s drawn provider subject providerName metadata).store.SeenAt provider
      subject drawn.now := by
  unfold resolveOrCreateIdentity
  cases hfind : s.findIdentity provider subject with
  | none =>
    let name := if providerName = "" then provider.value ++ ":" ++ subject else providerName
    rcases linkIdentity_cases (register s drawn name).store drawn drawn.newId provider subject
      providerName metadata with ⟨_, _, hseen⟩ | ⟨hnot, _⟩
    · exact hseen
    · refine absurd ⟨fun i hi => ?_, ?_⟩ hnot
      · have hsome : s.findIdentity provider subject = some i := hi
        rw [hfind] at hsome
        cases hsome
      · simp [register, AccountStore.findAccountById, AccountStore.addAccount]
  | some identity =>
    obtain ⟨hprovider, hsubject⟩ := AccountStore.key_of_find hfind
    let seen := { identity with
      providerName := if providerName = "" then identity.providerName else providerName
      metadata := if metadata.isEmpty then identity.metadata else metadata
      lastSeen := some drawn.now }
    have hupdated : (s.updateIdentity seen).findIdentity provider subject = some seen :=
      AccountStore.findIdentity_updateIdentity hfind hprovider hsubject
    dsimp only
    unfold updateExistingIdentity
    dsimp only
    split
    · exact ⟨_, hupdated, rfl⟩
    · exact ⟨_, AccountStore.findIdentity_updateIdentity hupdated hprovider hsubject, rfl⟩

end AccountManager

end IrisMind.Accounts
