import IrisMind.Accounts.Dispatcher

/-! # Which control messages write accounts

A control message that writes an account or an identity stamps it with the time.
So the store cannot be the same after two readings of the clock, and a message
that leaves it alone whatever the clock says is one that writes nothing. -/
namespace IrisMind.Accounts
open IrisMind.Lib IrisMind.Sessions

/-- The clock may read two things. -/
theorem not_forall_stamp (stamp : Option String) : ¬ ∀ now, stamp = some now := by
  intro h
  have htwo := (h "").symm.trans (h "later")
  simp at htwo

namespace AccountStore

theorem not_forall_seenAt (s : AccountStore) (provider : Provider) (subject : String) :
    ¬ ∀ drawn : Drawn, s.SeenAt provider subject drawn.now := by
  intro h
  obtain ⟨i, hi, _⟩ := h ⟨"", ""⟩
  refine not_forall_stamp i.lastSeen fun now => ?_
  obtain ⟨j, hj, hseen⟩ := h ⟨"", now⟩
  rw [hi] at hj
  cases hj
  exact hseen

/-- The account was last seen at the time. -/
def AccountSeenAt (s : AccountStore) (accountId now : String) : Prop :=
  ∃ a, s.findAccountById accountId = some a ∧ a.lastSeen = some now

theorem not_forall_accountSeenAt (s : AccountStore) (accountId : String) :
    ¬ ∀ drawn : Drawn, s.AccountSeenAt accountId drawn.now := by
  intro h
  obtain ⟨a, ha, _⟩ := h ⟨"", ""⟩
  refine not_forall_stamp a.lastSeen fun now => ?_
  obtain ⟨b, hb, hseen⟩ := h ⟨"", now⟩
  rw [ha] at hb
  cases hb
  exact hseen

end AccountStore

namespace AccountManager

theorem accountSeenAt_updateDisplayName {s : AccountStore} {drawn : Drawn} {account : Account}
    {accountId displayName : String} (h : s.findAccountById accountId = some account) :
    (updateDisplayName s drawn accountId displayName).store.AccountSeenAt accountId
      drawn.now := by
  have hid : account.accountId = accountId := AccountStore.accountId_of_find h
  unfold updateDisplayName
  rw [h]
  exact ⟨_, AccountStore.findAccountById_updateAccount h hid, rfl⟩

theorem accountSeenAt_updateProfile {s : AccountStore} {drawn : Drawn} {account : Account}
    {accountId : String} {fields : List (String × Json)}
    (h : s.findAccountById accountId = some account) (hfields : fields ≠ []) :
    (updateProfile s drawn accountId fields).store.AccountSeenAt accountId drawn.now := by
  have hid : account.accountId = accountId := AccountStore.accountId_of_find h
  unfold updateProfile
  rw [if_neg (by simp [hfields]), h]
  exact ⟨_, AccountStore.findAccountById_updateAccount h hid, rfl⟩

end AccountManager

namespace AccountDispatcher

/-- The message writes the store, when the account it is about is there. -/
def Writes (s : AccountStore) (msg : ControlMessage) : Prop :=
  match AccountAction.ofText? msg.action with
  | some .identify => (parseIdentity msg.identity).key?.isSome = true
  | some .update => (resolveTargetAccount s msg).isSome = true ∧
      (msg.displayName ≠ "" ∨ msg.profile.entries ≠ [] ∧ takesTwice msg.profile = false)
  | some .link => ∃ account provider subject, resolveTargetAccount s msg = some account ∧
      (parseIdentity msg.identity).key? = some (provider, subject) ∧
      ∀ i, s.findIdentity provider subject = some i → i.accountId = account.accountId
  | _ => False

/-- The account a message is about is found under its own id. -/
theorem find_of_resolveTargetAccount {s : AccountStore} {msg : ControlMessage} {account : Account}
    (h : resolveTargetAccount s msg = some account) :
    s.findAccountById account.accountId = some account := by
  have hself : ∀ {accountId}, s.findAccountById accountId = some account →
      s.findAccountById account.accountId = some account := by
    intro accountId hfind
    rw [AccountStore.accountId_of_find hfind]
    exact hfind
  have hidentity : ∀ {provider subject},
      AccountManager.getAccountByIdentity s provider subject = some account →
      s.findAccountById account.accountId = some account := by
    intro provider subject hfind
    unfold AccountManager.getAccountByIdentity at hfind
    split at hfind
    · cases hfind
    · exact hself hfind
  unfold resolveTargetAccount at h
  dsimp only at h
  split at h
  · split at h
    · cases h
    · exact hidentity h
  · split at h
    · next hfind =>
      cases h
      exact hself hfind
    · split at h
      · cases h
      · exact hidentity h

theorem handleUpdate_store_of_silent {s : AccountStore} {drawn : Drawn} {msg : ControlMessage}
    (hname : msg.displayName = "")
    (hprofile : msg.profile.entries = [] ∨ takesTwice msg.profile = true) :
    (handleUpdate s drawn msg).store = s := by
  unfold handleUpdate
  split
  · rfl
  · dsimp only
    rw [if_pos hname]
    rcases hprofile with hempty | htwice
    · split
      · rfl
      · rw [hempty]
        rfl
    · rw [if_pos htwice]

theorem handleUpdate_seen {s : AccountStore} (drawn : Drawn) {msg : ControlMessage}
    {account : Account} (h : resolveTargetAccount s msg = some account)
    (hwrites : msg.displayName ≠ "" ∨
      msg.profile.entries ≠ [] ∧ takesTwice msg.profile = false) :
    (handleUpdate s drawn msg).store.AccountSeenAt account.accountId drawn.now := by
  have hfind := find_of_resolveTargetAccount h
  let named : AccountRun Unit :=
    if msg.displayName = "" then { value := (), store := s }
    else AccountManager.updateDisplayName s drawn account.accountId msg.displayName
  have hnamed : msg.displayName ≠ "" →
      named.store.AccountSeenAt account.accountId drawn.now := by
    intro hname
    have heq : named = AccountManager.updateDisplayName s drawn account.accountId
      msg.displayName := if_neg hname
    rw [heq]
    exact AccountManager.accountSeenAt_updateDisplayName hfind
  have hthere : ∃ a, named.store.findAccountById account.accountId = some a := by
    by_cases hname : msg.displayName = ""
    · have heq : named = { value := (), store := s } := if_pos hname
      rw [heq]
      exact ⟨account, hfind⟩
    · obtain ⟨a, ha, _⟩ := hnamed hname
      exact ⟨a, ha⟩
  unfold handleUpdate
  rw [h]
  dsimp only
  split
  · next htwice =>
    refine hnamed (hwrites.resolve_right fun hprofile => ?_)
    rw [htwice] at hprofile
    cases hprofile.2
  · by_cases hempty : msg.profile.entries = []
    · rw [hempty]
      exact hnamed (hwrites.resolve_right fun hprofile => hprofile.1 hempty)
    · obtain ⟨a, ha⟩ := hthere
      exact AccountManager.accountSeenAt_updateProfile ha (by simp [hempty])

/-- A link goes through when the identity is free or the account's own. -/
theorem handleLink_cases (s : AccountStore) (drawn : Drawn) (msg : ControlMessage) :
    (∃ account provider subject, resolveTargetAccount s msg = some account ∧
        (parseIdentity msg.identity).key? = some (provider, subject) ∧
        (∀ i, s.findIdentity provider subject = some i → i.accountId = account.accountId) ∧
        (handleLink s drawn msg).store.SeenAt provider subject drawn.now) ∨
      (¬ ∃ account provider subject, resolveTargetAccount s msg = some account ∧
        (parseIdentity msg.identity).key? = some (provider, subject) ∧
        ∀ i, s.findIdentity provider subject = some i → i.accountId = account.accountId) ∧
        (handleLink s drawn msg).store = s := by
  unfold handleLink
  cases ht : resolveTargetAccount s msg with
  | none => exact .inr ⟨by simp, rfl⟩
  | some account =>
    dsimp only
    cases hkey : (parseIdentity msg.identity).key? with
    | none => exact .inr ⟨by simp, rfl⟩
    | some key =>
      obtain ⟨provider, subject⟩ := key
      dsimp only
      rcases AccountManager.linkIdentity_cases s drawn account.accountId provider subject
        (parseIdentity msg.identity).providerName (parseIdentity msg.identity).metadata with
        ⟨⟨hfree, _⟩, hvalue, hseen⟩ | ⟨hnot, hvalue, hstore⟩
      · refine .inl ⟨account, provider, subject, rfl, rfl, hfree, ?_⟩
        rw [hvalue]
        exact hseen
      · refine .inr ⟨?_, ?_⟩
        · intro hlinks
          obtain ⟨_, _, _, hsame, hkeys, hfree⟩ := hlinks
          cases hsame
          cases hkeys
          exact hnot ⟨hfree, by rw [find_of_resolveTargetAccount ht]; rfl⟩
        · rw [hvalue]
          exact hstore

theorem store_of_not_writes {codec : Codec} {s : AccountStore} {drawn : Drawn}
    {msg : ControlMessage} (h : ¬ Writes s msg) :
    (handleControlMessage codec s drawn msg).store = s := by
  unfold Writes at h
  unfold handleControlMessage
  cases haction : AccountAction.ofText? msg.action with
  | none => rfl
  | some action =>
    rw [haction] at h
    cases action with
    | identify =>
      dsimp only at h ⊢
      unfold handleIdentify
      cases hkey : (parseIdentity msg.identity).key? with
      | none => simp [hkey]
      | some key =>
        rw [hkey] at h
        exact absurd rfl h
    | profile =>
      dsimp only
      unfold handleProfile
      split
      · rfl
      split
      · rfl
      · rfl
    | update =>
      dsimp only at h ⊢
      by_cases htarget : (resolveTargetAccount s msg).isSome = true
      · have hsilent := fun hw => h ⟨htarget, hw⟩
        refine handleUpdate_store_of_silent ?_ ?_
        · by_contra hname
          exact hsilent (.inl hname)
        · by_contra hprofile
          rw [not_or] at hprofile
          exact hsilent (.inr ⟨hprofile.1, Bool.eq_false_iff.mpr hprofile.2⟩)
      · unfold handleUpdate
        rw [Option.not_isSome_iff_eq_none.mp htarget]
    | link => exact ((handleLink_cases s drawn msg).resolve_left fun ⟨a, p, x, ht, hk, hf, _⟩ =>
        h ⟨a, p, x, ht, hk, hf⟩).2

theorem not_forall_store_of_writes {codec : Codec} {s : AccountStore} {msg : ControlMessage}
    (h : Writes s msg) : ¬ ∀ drawn, (handleControlMessage codec s drawn msg).store = s := by
  intro hsame
  unfold Writes at h
  unfold handleControlMessage at hsame
  cases haction : AccountAction.ofText? msg.action with
  | none =>
    rw [haction] at h
    exact h
  | some action =>
    rw [haction] at h hsame
    cases action with
    | identify =>
      obtain ⟨⟨provider, subject⟩, hkey⟩ := Option.isSome_iff_exists.mp h
      refine AccountStore.not_forall_seenAt s provider subject fun drawn => ?_
      have hseen : (handleIdentify s drawn msg).store.SeenAt provider subject drawn.now := by
        unfold handleIdentify
        simp only [hkey]
        exact AccountManager.seenAt_resolveOrCreateIdentity s drawn provider subject _ _
      have hstore : (handleIdentify s drawn msg).store = s := hsame drawn
      rw [hstore] at hseen
      exact hseen
    | profile => exact h
    | update =>
      obtain ⟨htarget, hwrites⟩ := h
      obtain ⟨account, ht⟩ := Option.isSome_iff_exists.mp htarget
      refine AccountStore.not_forall_accountSeenAt s account.accountId fun drawn => ?_
      have hseen := handleUpdate_seen drawn ht hwrites
      have hstore : (handleUpdate s drawn msg).store = s := hsame drawn
      rw [hstore] at hseen
      exact hseen
    | link =>
      obtain ⟨account, provider, subject, ht, hk, hf⟩ := h
      refine AccountStore.not_forall_seenAt s provider subject fun drawn => ?_
      rcases handleLink_cases s drawn msg with
        ⟨_, p, x, _, hk', _, hseen⟩ | ⟨hnot, _⟩
      · rw [hk] at hk'
        cases hk'
        have hstore : (handleLink s drawn msg).store = s := hsame drawn
        rw [hstore] at hseen
        exact hseen
      · exact absurd ⟨account, provider, subject, ht, hk, hf⟩ hnot

end AccountDispatcher

end IrisMind.Accounts
