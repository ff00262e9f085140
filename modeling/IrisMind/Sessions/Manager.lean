import IrisMind.Sessions.Router

/-! # The session manager

A client that authenticates gets a session; one that gives a tag takes the place
of the active sessions with that tag, which are closed and forgotten on the spot.
A session that is removed is announced, one that has been replaced is not. The
table files every session under its own id; `KeyedTable` carries that as a field. -/
namespace IrisMind.Sessions
open IrisMind.Lib

/-- `_INPUT_PERMISSION_MAP`. -/
def inputPermission? (msgType : String) : Option Permission :=
  if msgType ∈ ["chat", "system"] then some .sendChat
  else if msgType = "interrupt" then some .interrupt
  else if msgType = "execute_result" then some .executeAction
  else if msgType = "command" then some .sendCommand
  else if msgType = "inhibition" then some .sendInhibition
  else none

structure AuthMessage where
  accessToken : Option String := none
  role : String := "external"
  permissions : List Permission := []
  sessionTag : String := ""
deriving DecidableEq, Repr

inductive AuthResult where
  | success (sessionId : String)
  | failure (errorMessage : String)
deriving DecidableEq, Repr

structure SessionDisconnectEvent where
  sessionId : String
  sessionTag : String
deriving DecidableEq, Repr

namespace SessionManager

/-- `_replace_duplicate_session`: the sessions a tag takes the place of. -/
def replaced (sessions : SessionTable) (sessionTag : String) : List String :=
  if sessionTag = "" then []
  else (sessions.entries.filter fun e =>
    e.2.sessionTag = sessionTag && e.2.state = .active).map Prod.fst

/-- `_create_session`. -/
def createSession (sessions : SessionTable) (newId : String) (conn : Option Connection)
    (msg : AuthMessage) : SessionTable :=
  sessions.set newId
    { sessionId := newId, role := if msg.role = "" then "external" else msg.role
      permissions := msg.permissions, sessionTag := msg.sessionTag, conn }

/-- `accessToken` is the configured one, which lets everybody in when it is empty. -/
def authenticate (accessToken : String) (sessions : SessionTable) (newId : String)
    (conn : Option Connection) (msg : AuthMessage) : AuthResult × SessionTable :=
  if accessToken ≠ "" && msg.accessToken ≠ some accessToken then
    (.failure "invalid access_token", sessions)
  else
    let sessions := sessions.eraseAll (replaced sessions msg.sessionTag)
    (.success newId, createSession sessions newId conn msg)

def removeSession (sessions : SessionTable) (sessionId : String) :
    Option SessionDisconnectEvent × SessionTable :=
  match sessions.get? sessionId with
  | none => (none, sessions)
  | some s => (some ⟨sessionId, s.sessionTag⟩, sessions.erase sessionId)

def isSessionActive (sessions : SessionTable) (sessionId : String) : Bool :=
  match sessions.get? sessionId with
  | some s => s.state = .active
  | none => false

/-- A message of a type without a required permission is let through, whoever sends it. -/
def checkSendPermission (sessions : SessionTable) (sessionId msgType : String) : Bool :=
  match inputPermission? msgType with
  | none => true
  | some required => match sessions.get? sessionId with
    | none => false
    | some s => s.permissions.contains required

/-! ## Which sessions are active -/

theorem mem_replaced {sessions : SessionTable} {tag sid : String} :
    sid ∈ replaced sessions tag ↔ tag ≠ "" ∧ ∃ s, sessions.get? sid = some s ∧
      s.sessionTag = tag ∧ s.state = .active := by
  unfold replaced
  split
  · next h => simp [h]
  · next h =>
    simp only [List.mem_map, List.mem_filter, Bool.and_eq_true, decide_eq_true_eq, ne_eq, h,
      not_false_eq_true, true_and]
    constructor
    · intro hsession
      obtain ⟨⟨k, s⟩, ⟨hm, hs⟩, rfl⟩ := hsession
      exact ⟨s, Dict.mem_entries_iff.mp hm, hs⟩
    · intro hsession
      obtain ⟨s, hs, htag⟩ := hsession
      exact ⟨(sid, s), ⟨Dict.mem_entries_iff.mpr hs, htag⟩, rfl⟩

theorem isSessionActive_iff {sessions : SessionTable} {sid : String} :
    isSessionActive sessions sid = true ↔ ∃ s, sessions.get? sid = some s ∧ s.state = .active := by
  unfold isSessionActive
  cases h : sessions.get? sid with
  | none => simp
  | some s => simp

/-- A session that is active before somebody authenticates is active after, unless its place is
taken. -/
theorem isSessionActive_authenticate {accessToken newId : String} {sessions : SessionTable}
    {conn : Option Connection} {msg : AuthMessage} {sid : String}
    (h : isSessionActive sessions sid = true) (hkept : sid ∉ replaced sessions msg.sessionTag) :
    isSessionActive (authenticate accessToken sessions newId conn msg).2 sid = true := by
  obtain ⟨s, hs, hactive⟩ := isSessionActive_iff.mp h
  unfold authenticate
  split
  · exact h
  · refine isSessionActive_iff.mpr ?_
    simp only [createSession, Dict.get?_set, Dict.get?_eraseAll, if_neg hkept]
    split
    · exact ⟨_, rfl, rfl⟩
    · exact ⟨s, hs, hactive⟩

theorem isSessionActive_removeSession {sessions : SessionTable} {sid x : String}
    (h : isSessionActive sessions x = true) (hne : sid ≠ x) :
    isSessionActive (removeSession sessions sid).2 x = true := by
  obtain ⟨s, hs, hactive⟩ := isSessionActive_iff.mp h
  unfold removeSession
  cases hsid : sessions.get? sid with
  | none => exact h
  | some t =>
    refine isSessionActive_iff.mpr ⟨s, ?_, hactive⟩
    rw [Dict.get?_erase, if_neg hne]
    exact hs

end SessionManager

/-! ## Sessions under their own ids -/

def Keyed (sessions : SessionTable) : Prop := ∀ k s, sessions.get? k = some s → s.sessionId = k

/-- A session table as the manager keeps it. -/
structure KeyedTable where
  table : SessionTable
  keyed : Keyed table

namespace KeyedTable

def empty : KeyedTable := ⟨.empty, fun _ _ h => by simp at h⟩

theorem authenticate_keyed {sessions : SessionTable} (h : Keyed sessions) (accessToken : String)
    (newId : String) (conn : Option Connection) (msg : AuthMessage) :
    Keyed (SessionManager.authenticate accessToken sessions newId conn msg).2 := by
  unfold SessionManager.authenticate
  split
  · exact h
  · intro k s hs
    simp only [SessionManager.createSession, Dict.get?_set, Dict.get?_eraseAll] at hs
    split at hs
    · next hk => cases hs; exact hk
    split at hs
    · cases hs
    · exact h k s hs

theorem removeSession_keyed {sessions : SessionTable} (h : Keyed sessions) (sid : String) :
    Keyed (SessionManager.removeSession sessions sid).2 := by
  unfold SessionManager.removeSession
  split
  · exact h
  · intro k s hs
    rw [Dict.get?_erase] at hs
    split at hs
    · cases hs
    · exact h k s hs

def authenticate (t : KeyedTable) (accessToken newId : String) (conn : Option Connection)
    (msg : AuthMessage) : AuthResult × KeyedTable :=
  let run := SessionManager.authenticate accessToken t.table newId conn msg
  (run.1, ⟨run.2, authenticate_keyed t.keyed accessToken newId conn msg⟩)

def removeSession (t : KeyedTable) (sid : String) : Option SessionDisconnectEvent × KeyedTable :=
  let run := SessionManager.removeSession t.table sid
  (run.1, ⟨run.2, removeSession_keyed t.keyed sid⟩)

end KeyedTable

end IrisMind.Sessions
