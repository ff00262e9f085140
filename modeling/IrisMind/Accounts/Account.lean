import IrisMind.Lib.Dict
import IrisMind.Lib.Rows
import IrisMind.Lib.Text

/-! # Accounts and their identities

An identity of an outside provider belongs to an account. Resolving an identity
that is not known creates both; a known identity whose account is gone is moved
to a new account. The store is a list of accounts and a list of identities, and
a lookup finds the first entry that fits. Ids and times are drawn outside and
come in as arguments. -/
namespace IrisMind.Accounts
open IrisMind.Lib

inductive Provider where
  | local
  | discord
deriving DecidableEq, Repr

namespace Provider

def value : Provider → String
  | .local => "local"
  | .discord => "discord"

def ofValue? (s : String) : Option Provider :=
  if s = "local" then some .local
  else if s = "discord" then some .discord
  else none

end Provider

structure Account where
  accountId : String
  displayName : String := ""
  createdAt : String := ""
  lastSeen : Option String := none
  profile : Dict String Json := .empty

structure AccountIdentity where
  provider : Provider
  subject : String
  accountId : String
  providerName : String := ""
  linkedAt : String := ""
  lastSeen : Option String := none
  metadata : List (String × Json) := []

inductive AccountEvent where
  | created (accountId displayName : String)
  | identityLinked (accountId : String) (provider : Provider) (subject providerName : String)
  | updated (accountId fieldName : String) (oldValue newValue : Json)

structure AccountStore where
  accounts : List Account := []
  identities : List AccountIdentity := []

namespace AccountStore

def addAccount (s : AccountStore) (a : Account) : AccountStore :=
  { s with accounts := s.accounts ++ [a] }

def updateAccount (s : AccountStore) (a : Account) : AccountStore :=
  { s with accounts := Rows.replaceFirst (·.accountId == a.accountId) a s.accounts }

def deleteAccount (s : AccountStore) (accountId : String) : AccountStore :=
  { s with accounts := s.accounts.filter (·.accountId != accountId) }

def addIdentity (s : AccountStore) (i : AccountIdentity) : AccountStore :=
  { s with identities := s.identities ++ [i] }

def updateIdentity (s : AccountStore) (i : AccountIdentity) : AccountStore :=
  { s with
    identities := Rows.replaceFirst
      (fun j => j.provider == i.provider && j.subject == i.subject) i s.identities }

def findAccountById (s : AccountStore) (accountId : String) : Option Account :=
  s.accounts.find? (·.accountId == accountId)

def findIdentity (s : AccountStore) (provider : Provider) (subject : String) :
    Option AccountIdentity :=
  s.identities.find? fun i => i.provider == provider && i.subject == subject

def findIdentitiesByAccount (s : AccountStore) (accountId : String) : List AccountIdentity :=
  s.identities.filter (·.accountId == accountId)

end AccountStore

/-- What a call of the account manager answers, what it leaves, and the events it publishes. -/
structure AccountRun (α : Type) where
  value : α
  store : AccountStore
  events : List AccountEvent := []

/-- The id for a new account, and the time. -/
structure Drawn where
  newId : String
  now : String

namespace AccountManager

def register (s : AccountStore) (drawn : Drawn) (displayName : String) : AccountRun Account :=
  let account : Account := { accountId := drawn.newId, displayName, createdAt := drawn.now }
  { value := account
    store := s.addAccount account
    events := [.created account.accountId account.displayName] }

def resolveDisplayName (s : AccountStore) (accountId : String) : String :=
  match s.findAccountById accountId with
  | some account => account.displayName
  | none => accountId

/-- `_update_existing_identity`. -/
def updateExistingIdentity (s : AccountStore) (drawn : Drawn) (identity : AccountIdentity)
    (provider : Provider) (subject providerName : String) (metadata : List (String × Json)) :
    AccountRun Account :=
  let identity := { identity with
    providerName := if providerName = "" then identity.providerName else providerName
    metadata := if metadata.isEmpty then identity.metadata else metadata
    lastSeen := some drawn.now }
  let s := s.updateIdentity identity
  match s.findAccountById identity.accountId with
  | some account =>
    let account := { account with
      lastSeen := some drawn.now
      displayName :=
        if providerName ≠ "" && account.displayName = "" then providerName
        else account.displayName }
    { value := account, store := s.updateAccount account }
  | none =>
    let run := register s drawn
      (if providerName = "" then provider.value ++ ":" ++ subject else providerName)
    { run with
      store := run.store.updateIdentity { identity with accountId := run.value.accountId } }

def linkIdentity (s : AccountStore) (drawn : Drawn) (accountId : String) (provider : Provider)
    (subject providerName : String) (metadata : List (String × Json)) : AccountRun Bool :=
  let existing := s.findIdentity provider subject
  let taken : Bool := match existing with
    | some identity => identity.accountId ≠ accountId
    | none => false
  if taken then { value := false, store := s }
  else match s.findAccountById accountId with
    | none => { value := false, store := s }
    | some _ =>
      let store := match existing with
        | some identity => s.updateIdentity { identity with
            providerName := if providerName = "" then identity.providerName else providerName
            metadata := if metadata.isEmpty then identity.metadata else metadata
            lastSeen := some drawn.now }
        | none => s.addIdentity
            { provider, subject, accountId, providerName, metadata
              linkedAt := drawn.now, lastSeen := some drawn.now }
      { value := true, store, events := [.identityLinked accountId provider subject providerName] }

/-- `_create_new_identity`. -/
def createNewIdentity (s : AccountStore) (drawn : Drawn) (provider : Provider)
    (subject providerName : String) (metadata : List (String × Json)) : AccountRun Account :=
  let run := register s drawn
    (if providerName = "" then provider.value ++ ":" ++ subject else providerName)
  let linked := linkIdentity run.store drawn run.value.accountId provider subject providerName
    metadata
  { value := run.value, store := linked.store, events := run.events ++ linked.events }

def resolveOrCreateIdentity (s : AccountStore) (drawn : Drawn) (provider : Provider)
    (subject providerName : String) (metadata : List (String × Json)) : AccountRun Account :=
  match s.findIdentity provider subject with
  | some identity =>
    updateExistingIdentity s drawn identity provider subject providerName metadata
  | none => createNewIdentity s drawn provider subject providerName metadata

end AccountManager

end IrisMind.Accounts
