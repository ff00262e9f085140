import IrisMind.Accounts.Manager
import IrisMind.Lib.Codec
import IrisMind.Lib.Wire
import IrisMind.Sessions.Control

/-! # Control messages about accounts

A client identifies itself, reads or changes its account, or links an identity
to it. The account is the one the message names, else the one its identity
belongs to. Fields of the profile are passed on as keywords. -/
namespace IrisMind.Accounts
open IrisMind.Lib IrisMind.Sessions

structure ResolvedIdentity where
  provider : Option Provider
  subject : String := ""
  providerName : String := ""
  metadata : List (String × Json) := []

/-- `parse_identity`. -/
def parseIdentity : Option TransportIdentity → ResolvedIdentity
  | none => { provider := none }
  | some i =>
    let metadata := i.metadata.map fun e => (e.1, Json.str e.2)
    match Provider.ofValue? i.provider with
    | none => { provider := none, metadata }
    | some provider =>
      { provider := some provider, subject := i.subject, providerName := i.providerName, metadata }

/-- The provider and the subject, when both are there. -/
def ResolvedIdentity.key? (r : ResolvedIdentity) : Option (Provider × String) :=
  match r.provider with
  | none => none
  | some provider => if r.subject = "" then none else some (provider, r.subject)

inductive AccountAction where
  | identify
  | profile
  | update
  | link
deriving DecidableEq, Repr

namespace AccountAction

def text : AccountAction → String
  | identify => "account.identify"
  | profile => "account.profile"
  | update => "account.update"
  | link => "account.link"

def ofText? (s : String) : Option AccountAction :=
  if s = "account.identify" then some identify
  else if s = "account.profile" then some profile
  else if s = "account.update" then some update
  else if s = "account.link" then some link
  else none

theorem text_of_ofText? {s : String} {a : AccountAction} (h : ofText? s = some a) :
    a.text = s := by
  unfold ofText? at h
  grind [text]

end AccountAction

/-! ## What a client is told about an account -/

def AccountIdentity.dump (i : AccountIdentity) : Json :=
  .obj [("provider", .str i.provider.value), ("subject", .str i.subject),
    ("account_id", .str i.accountId), ("provider_name", .str i.providerName),
    ("linked_at", .str i.linkedAt), ("last_seen", .ofText? i.lastSeen),
    ("metadata", .obj i.metadata)]

def Account.dump (a : Account) (identities : List AccountIdentity) : Json :=
  .obj [("account_id", .str a.accountId), ("display_name", .str a.displayName),
    ("created_at", .str a.createdAt), ("last_seen", .ofText? a.lastSeen),
    ("profile", .obj a.profile.entries), ("identities", .arr (identities.map (·.dump)))]

namespace AccountDispatcher

/-- `_resolve_target_account`. -/
def resolveTargetAccount (s : AccountStore) (msg : ControlMessage) : Option Account :=
  let byIdentity :=
    match (parseIdentity msg.identity).key? with
    | none => none
    | some (provider, subject) => AccountManager.getAccountByIdentity s provider subject
  if msg.accountId = "" then byIdentity
  else match s.findAccountById msg.accountId with
    | some account => some account
    | none => byIdentity

def handleIdentify (s : AccountStore) (drawn : Drawn) (msg : ControlMessage) :
    AccountRun Outcome :=
  let resolved := parseIdentity msg.identity
  match resolved.key? with
  | none =>
    { value := .error "account.identify" "identity.provider and identity.subject required"
      store := s }
  | some (provider, subject) =>
    let providerName :=
      if resolved.providerName = "" then msg.displayName else resolved.providerName
    let run := AccountManager.resolveOrCreateIdentity s drawn provider subject providerName
      resolved.metadata
    let account := run.value
    { value := .answered
        { action := "account.identified", accountId := account.accountId
          displayName := account.displayName, identity := msg.identity
          text := "Identified: " ++ account.displayName }
      store := run.store
      events := run.events }

def handleProfile (codec : Codec) (s : AccountStore) (msg : ControlMessage) :
    AccountRun Outcome :=
  match resolveTargetAccount s msg with
  | none => { value := .error "account.profile" "not identified", store := s }
  | some account =>
    match codec.dumps (account.dump (s.findIdentitiesByAccount account.accountId)) with
    | none => { value := .raised, store := s }
    | some text =>
      { value := .answered
          { action := "account.profile", accountId := account.accountId
            displayName := account.displayName, text }
        store := s }

/-- `update_profile` has parameters of its own with these names, and passing one of them again
raises. -/
def takenKeywords : List String := ["self", "account_id"]

def takesTwice (profile : Dict String String) : Bool :=
  profile.entries.any fun e => takenKeywords.contains e.1

def handleUpdate (s : AccountStore) (drawn : Drawn) (msg : ControlMessage) :
    AccountRun Outcome :=
  match resolveTargetAccount s msg with
  | none => { value := .error "account.update" "not identified", store := s }
  | some account =>
    let named : AccountRun Unit :=
      if msg.displayName = "" then { value := (), store := s }
      else AccountManager.updateDisplayName s drawn account.accountId msg.displayName
    let displayName := if msg.displayName = "" then account.displayName else msg.displayName
    if takesTwice msg.profile then
      { value := .raised, store := named.store, events := named.events }
    else
      let run := AccountManager.updateProfile named.store drawn account.accountId
        (msg.profile.entries.map fun e => (e.1, .str e.2))
      { value := .answered
          { action := "account.updated", accountId := account.accountId, displayName
            text := "Updated: " ++ displayName }
        store := run.store
        events := named.events ++ run.events }

def handleLink (s : AccountStore) (drawn : Drawn) (msg : ControlMessage) : AccountRun Outcome :=
  match resolveTargetAccount s msg with
  | none => { value := .error "account.link" "not identified", store := s }
  | some account =>
    let resolved := parseIdentity msg.identity
    match resolved.key? with
    | none =>
      { value := .error "account.link" "identity.provider and identity.subject required"
        store := s }
    | some (provider, subject) =>
      let run := AccountManager.linkIdentity s drawn account.accountId provider subject
        resolved.providerName resolved.metadata
      if !run.value then
        { value := .error "account.link" "identity already linked", store := run.store
          events := run.events }
      else
        { value := .answered
            { action := "account.linked", accountId := account.accountId
              displayName := account.displayName, identity := msg.identity
              text := "Linked identity: " ++ provider.value ++ ":" ++ subject }
          store := run.store
          events := run.events }

def handleControlMessage (codec : Codec) (s : AccountStore) (drawn : Drawn)
    (msg : ControlMessage) : AccountRun Outcome :=
  match AccountAction.ofText? msg.action with
  | some .identify => handleIdentify s drawn msg
  | some .profile => handleProfile codec s msg
  | some .update => handleUpdate s drawn msg
  | some .link => handleLink s drawn msg
  | none => { value := .unhandled, store := s }

/-! ## Exceptions -/

/-- What the dispatcher does not get through: a profile that cannot be written as text, and a
profile field that is passed twice. -/
def Breaks (codec : Codec) (s : AccountStore) (msg : ControlMessage) : Prop :=
  ∃ account, resolveTargetAccount s msg = some account ∧
    match AccountAction.ofText? msg.action with
    | some .profile =>
      codec.dumps (account.dump (s.findIdentitiesByAccount account.accountId)) = none
    | some .update => ∃ e ∈ msg.profile.entries, e.1 ∈ takenKeywords
    | _ => False

theorem takesTwice_iff {profile : Dict String String} :
    takesTwice profile = true ↔ ∃ e ∈ profile.entries, e.1 ∈ takenKeywords := by
  simp [takesTwice]

theorem handleIdentify_answered (s : AccountStore) (drawn : Drawn) (msg : ControlMessage) :
    ∃ response, (handleIdentify s drawn msg).value = .answered response := by
  unfold handleIdentify
  dsimp only
  split
  · exact ⟨_, rfl⟩
  · exact ⟨_, rfl⟩

theorem handleLink_answered (s : AccountStore) (drawn : Drawn) (msg : ControlMessage) :
    ∃ response, (handleLink s drawn msg).value = .answered response := by
  unfold handleLink
  split
  · exact ⟨_, rfl⟩
  dsimp only
  split
  · exact ⟨_, rfl⟩
  split
  · exact ⟨_, rfl⟩
  · exact ⟨_, rfl⟩

theorem raisesIff_handleControlMessage (codec : Codec) (s : AccountStore) (drawn : Drawn)
    {msg : ControlMessage} {a : AccountAction} (h : AccountAction.ofText? msg.action = some a) :
    (handleControlMessage codec s drawn msg).value.RaisesIff (Breaks codec s msg) := by
  unfold Breaks handleControlMessage
  rw [h]
  cases a with
  | identify => exact .inr ⟨fun ⟨_, _, hf⟩ => hf, handleIdentify_answered s drawn msg⟩
  | link => exact .inr ⟨fun ⟨_, _, hf⟩ => hf, handleLink_answered s drawn msg⟩
  | profile =>
    dsimp only
    unfold handleProfile
    cases ht : resolveTargetAccount s msg with
    | none => exact .inr ⟨by simp, _, rfl⟩
    | some account =>
      cases hd : codec.dumps (account.dump (s.findIdentitiesByAccount account.accountId)) with
      | none => exact .inl ⟨⟨account, rfl, hd⟩, by simp [hd]⟩
      | some text => exact .inr ⟨by simp [hd], _, by simp [hd]; rfl⟩
  | update =>
    dsimp only
    unfold handleUpdate
    cases ht : resolveTargetAccount s msg with
    | none => exact .inr ⟨by simp, _, rfl⟩
    | some account =>
      dsimp only
      split
      · next htwice => exact .inl ⟨⟨account, rfl, takesTwice_iff.mp htwice⟩, rfl⟩
      · next hfine =>
        exact .inr ⟨fun ⟨_, _, htwice⟩ => hfine (takesTwice_iff.mpr htwice), _, rfl⟩

end AccountDispatcher

end IrisMind.Accounts
