import IrisMind.Inhibition.Scopes
import IrisMind.Lib.Splitting
import IrisMind.Sessions.Connections
import IrisMind.Transport.Server

/-! # Suppressions of clients that are gone

A client suppresses by a message, and its suppressions are to end with its
connection. The history of a server is followed with two records the code does
not keep: who wrote each entry last, and whose disconnect has been handled.
Nothing on the way of a disconnect touches the entries, so a session must have no
active entry left when it goes. -/
namespace IrisMind.Transport
open IrisMind.Lib IrisMind.Accounts IrisMind.Gateway IrisMind.Inhibition IrisMind.Sessions

variable {T : Type} [Clock T]

/-- `owners` names the session that wrote the entry under a key, if a client wrote it. -/
structure Suppressions (T : Type) where
  hub : Hub
  striatum : Striatum T
  now : T
  owners : Dict String String := .empty
  gone : List String := []

/-- The server suppresses on its own account too. Every step reads the clock. -/
inductive SuppressionStep (T : Type) where
  | connect (accessToken newId : String) (conn : Option Connection) (msg : AuthMessage)
  | message (reading : T) (drawn : Drawn) (sessionId sessionRole : String) (frame : MessageFrame)
  | disconnect (reading : T) (sessionId : String)
  | server (reading : T) (call : SuppressionCall T)

namespace Suppressions

/-- A call, and who made it. -/
def call (r : Suppressions T) (author? : Option String) (c : SuppressionCall T) : Suppressions T :=
  let key := Striatum.keyOf c.scope
  { r with
    striatum := r.striatum.apply c
    owners := match author?, c.opens? with
      | some sessionId, some _ => r.owners.set key sessionId
      | _, _ => r.owners.erase key }

/-- `_on_request_event`, for a request of the session. -/
def handleRequest (sessionId : String) (r : Suppressions T) (event : InhibitionRequestEvent T) :
    Suppressions T :=
  match onRequestEvent r.now event with
  | some c => r.call (some sessionId) c
  | none => r

def requests (run : HubRun T) : List (InhibitionRequestEvent T) :=
  run.events.filterMap fun
    | .inhibitionRequest event => some event
    | _ => none

/-- The clock does not run backwards. -/
def tick (r : Suppressions T) (reading : T) : Suppressions T := { r with now := max r.now reading }

def connect (r : Suppressions T) (accessToken newId : String) (conn : Option Connection)
    (msg : AuthMessage) : Suppressions T :=
  match SessionManager.authenticate accessToken r.hub.sessions newId conn msg with
  | (.success _, sessions) =>
    { r with hub := { r.hub with sessions }, gone := r.gone.filter (· ≠ newId) }
  | (.failure _, _) => r

def receive (float? : String → Option T) (r : Suppressions T) (drawn : Drawn)
    (sessionId sessionRole : String) (p : MessageFrame) : Suppressions T :=
  let run := dispatchMessage float? r.hub drawn sessionId sessionRole p
  (requests run).foldl (handleRequest sessionId) { r with hub := run.hub }

/-- The announcement of a disconnect has one subscriber, which looks after the rooms. -/
def disconnect (r : Suppressions T) (sessionId : String) : Suppressions T :=
  let (_, sessions) := SessionManager.removeSession r.hub.sessions sessionId
  { r with hub := { r.hub with sessions }, gone := sessionId :: r.gone }

def step (float? : String → Option T) (r : Suppressions T) : SuppressionStep T → Suppressions T
  | .connect accessToken newId conn msg => r.connect accessToken newId conn msg
  | .message reading drawn sessionId sessionRole frame =>
    (r.tick reading).receive float? drawn sessionId sessionRole frame
  | .disconnect reading sessionId => (r.tick reading).disconnect sessionId
  | .server reading c => (r.tick reading).call none c

def start (profiles : Option (Dict String SuppressionProfile)) (now : T) : Suppressions T :=
  { hub := {}, striatum := .fresh profiles, now }

/-- The session has an active entry. -/
def Holds (r : Suppressions T) (sessionId : String) : Prop :=
  ∃ k e, r.owners.get? k = some sessionId ∧ r.striatum.suppressions.get? k = some e ∧
    e.isActive r.now = true

/-- No session whose disconnect has been handled has an active entry. -/
def Released (r : Suppressions T) : Prop := ∀ sessionId ∈ r.gone, ¬ r.Holds sessionId

/-- A session that disconnects has lifted what it suppressed, or let it expire. -/
def ok (r : Suppressions T) : SuppressionStep T → Prop
  | .disconnect reading sessionId => ¬ (r.tick reading).Holds sessionId
  | _ => True

/-- The sessions are filed under their ids, and who is gone has none. -/
structure Settled (r : Suppressions T) : Prop where
  keyed : Keyed r.hub.sessions
  gone : ∀ sessionId ∈ r.gone, r.hub.sessions.get? sessionId = none

/-! ## What one step does to the entries -/

/-- An entry that is active later was active before. -/
theorem holds_of_tick {r : Suppressions T} {reading : T} {sid : String}
    (h : (r.tick reading).Holds sid) : r.Holds sid := by
  obtain ⟨k, e, ho, he, hactive⟩ := h
  refine ⟨k, e, ho, he, ?_⟩
  have hle : r.now ≤ max r.now reading := le_max_left _ _
  rcases Bool.or_eq_true_iff.mp hactive with hnever | hlater
  · exact Bool.or_eq_true_iff.mpr (.inl hnever)
  · have hlt : max r.now reading < e.expiry := of_decide_eq_true hlater
    exact Bool.or_eq_true_iff.mpr (.inr (decide_eq_true (lt_of_le_of_lt hle hlt)))

/-- A call gives nobody an active entry but the session that made it. -/
theorem holds_of_call {r : Suppressions T} {author? : Option String} {c : SuppressionCall T}
    {sid : String} (h : (r.call author? c).Holds sid) : author? = some sid ∨ r.Holds sid := by
  obtain ⟨k, e, ho, he, hactive⟩ := h
  have hsupp : (r.call author? c).striatum.suppressions.get? k =
      if Striatum.keyOf c.scope = k then r.striatum.written c else
        r.striatum.suppressions.get? k := Striatum.get?_apply _ _ _
  rw [hsupp] at he
  by_cases hk : Striatum.keyOf c.scope = k
  · left
    cases author? with
    | none =>
      have herased : (r.call none c).owners.get? k = none := by
        simp [call, Dict.get?_erase, hk]
      rw [herased] at ho
      cases ho
    | some x =>
      cases hopen : c.opens? with
      | none =>
        have herased : (r.call (some x) c).owners.get? k = none := by
          simp [call, hopen, Dict.get?_erase, hk]
        rw [herased] at ho
        cases ho
      | some p =>
        have hset : (r.call (some x) c).owners.get? k = some x := by
          simp [call, hopen, hk]
        rw [hset] at ho
        exact ho
  · right
    rw [if_neg hk] at he
    refine ⟨k, e, ?_, he, hactive⟩
    have hother : (r.call author? c).owners.get? k = r.owners.get? k := by
      unfold call
      dsimp only
      split
      · rw [Dict.get?_set, if_neg hk]
      · rw [Dict.get?_erase, if_neg hk]
    rw [← hother]
    exact ho

theorem holds_of_requests {sid x : String} (events : List (InhibitionRequestEvent T))
    {r : Suppressions T} (h : (events.foldl (handleRequest sid) r).Holds x) :
    x = sid ∧ events ≠ [] ∨ r.Holds x := by
  induction events generalizing r with
  | nil => exact .inr h
  | cons event rest ih =>
    have hone : (handleRequest sid r event).Holds x → x = sid ∨ r.Holds x := by
      intro h
      unfold handleRequest at h
      split at h
      · rcases holds_of_call h with hx | h
        · exact .inl (Option.some.inj hx).symm
        · exact .inr h
      · exact .inr h
    rcases ih h with ⟨hx, _⟩ | h
    · exact .inl ⟨hx, List.cons_ne_nil _ _⟩
    · rcases hone h with hx | h
      · exact .inl ⟨hx, List.cons_ne_nil _ _⟩
      · exact .inr h

theorem foldl_handleRequest (sid : String) (events : List (InhibitionRequestEvent T))
    (r : Suppressions T) : (events.foldl (handleRequest sid) r).hub = r.hub ∧
      (events.foldl (handleRequest sid) r).gone = r.gone := by
  induction events generalizing r with
  | nil => exact ⟨rfl, rfl⟩
  | cons event rest ih =>
    obtain ⟨hhub, hgone⟩ := ih (handleRequest sid r event)
    have hone : (handleRequest sid r event).hub = r.hub ∧
        (handleRequest sid r event).gone = r.gone := by
      unfold handleRequest
      split
      · exact ⟨rfl, rfl⟩
      · exact ⟨rfl, rfl⟩
    exact ⟨hhub.trans hone.1, hgone.trans hone.2⟩

/-! ## What one step keeps -/

theorem sameSessions_dispatchMessage (float? : String → Option T) {hub : Hub}
    (hk : Keyed hub.sessions) (drawn : Drawn) (sid role : String) (p : MessageFrame) :
    SameSessions hub.sessions (dispatchMessage float? hub drawn sid role p).hub.sessions := by
  unfold dispatchMessage
  split
  · exact .refl _
  split
  · exact .refl _
  dsimp only
  split
  · exact sameSessions_onGrpcMessage float? hk drawn _
  · have hrun := sameSessions_onGrpcMessage float? hk drawn
    exact (hrun _).trans (Router.sameSessions_routeMessage ((hrun _).keyed hk) _)

/-- Only an active session gets a request through. -/
theorem active_of_requests {float? : String → Option T} {hub : Hub} {drawn : Drawn}
    {sid role : String} {p : MessageFrame}
    (h : requests (dispatchMessage float? hub drawn sid role p) ≠ []) :
    SessionManager.isSessionActive hub.sessions sid = true := by
  by_contra hnot
  refine h ?_
  unfold dispatchMessage
  split
  · rfl
  · next msg _ =>
    have hinvalid : validateSession hub.sessions sid msg.msgType = false := by
      rw [validateSession, Bool.eq_false_iff.mpr hnot]
      rfl
    rw [hinvalid]
    rfl

omit [Clock T] in
theorem settled_connect {r : Suppressions T} (h : r.Settled) (accessToken newId : String)
    (conn : Option Connection) (msg : AuthMessage) :
    (r.connect accessToken newId conn msg).Settled := by
  have hkeyed := KeyedTable.authenticate_keyed h.keyed accessToken newId conn msg
  have hget : ∀ x, x ≠ newId → r.hub.sessions.get? x = none →
      (SessionManager.authenticate accessToken r.hub.sessions newId conn msg).2.get? x = none := by
    intro x hne hnone
    unfold SessionManager.authenticate
    split
    · exact hnone
    · simp [SessionManager.createSession, Dict.get?_set, Dict.get?_eraseAll, Ne.symm hne, hnone]
  unfold connect
  split
  · next hauth =>
    rw [hauth] at hkeyed hget
    refine ⟨hkeyed, fun x hx => ?_⟩
    obtain ⟨hx, hne⟩ := List.mem_filter.mp hx
    exact hget x (of_decide_eq_true hne) (h.gone x hx)
  · exact h

theorem settled_receive (float? : String → Option T) {r : Suppressions T} (h : r.Settled)
    (drawn : Drawn) (sid role : String) (p : MessageFrame) :
    (r.receive float? drawn sid role p).Settled := by
  have hsame := sameSessions_dispatchMessage float? h.keyed drawn sid role p
  unfold receive
  dsimp only
  obtain ⟨hhub, hgone⟩ := foldl_handleRequest sid
    (requests (dispatchMessage float? r.hub drawn sid role p))
    { r with hub := (dispatchMessage float? r.hub drawn sid role p).hub }
  refine ⟨?_, fun x hx => ?_⟩
  · rw [hhub]
    exact hsame.keyed h.keyed
  · rw [hhub]
    rw [hgone] at hx
    exact hsame.get?_eq_none (h.gone x hx)

omit [Clock T] in
theorem settled_disconnect {r : Suppressions T} (h : r.Settled) (sid : String) :
    (r.disconnect sid).Settled := by
  have hget : ∀ x, x = sid ∨ r.hub.sessions.get? x = none →
      (SessionManager.removeSession r.hub.sessions sid).2.get? x = none := by
    intro x hx
    unfold SessionManager.removeSession
    cases hsid : r.hub.sessions.get? sid with
    | none =>
      rcases hx with rfl | hx
      · exact hsid
      · exact hx
    | some s =>
      rw [Dict.get?_erase]
      split
      · rfl
      · next hne => exact hx.resolve_left (Ne.symm hne)
  refine ⟨KeyedTable.removeSession_keyed h.keyed sid, fun x hx => hget x ?_⟩
  rcases List.mem_cons.mp hx with hx | hx
  · exact .inl hx
  · exact .inr (h.gone x hx)

theorem settled_step (float? : String → Option T) (r : Suppressions T) (i : SuppressionStep T)
    (h : r.Settled) : (r.step float? i).Settled := by
  cases i with
  | connect accessToken newId conn msg => exact settled_connect h accessToken newId conn msg
  | message reading drawn sid role frame =>
    have ht : (r.tick reading).Settled := ⟨h.keyed, h.gone⟩
    exact settled_receive float? ht drawn sid role frame
  | disconnect reading sid =>
    have ht : (r.tick reading).Settled := ⟨h.keyed, h.gone⟩
    exact settled_disconnect ht sid
  | server reading c => exact ⟨h.keyed, h.gone⟩

/-- Whether a step leaves everybody who is gone without an active entry hangs on disconnects
alone: a request is of a session that is not gone. -/
theorem released_step_iff (float? : String → Option T) (r : Suppressions T)
    (i : SuppressionStep T) (hs : r.Settled) (h : r.Released) :
    (r.step float? i).Released ↔ r.ok i := by
  cases i with
  | connect accessToken newId conn msg =>
    refine iff_of_true (fun x hx => ?_) trivial
    change ¬ (r.connect accessToken newId conn msg).Holds x
    change x ∈ (r.connect accessToken newId conn msg).gone at hx
    unfold connect at hx ⊢
    split at hx
    · exact h x (List.mem_filter.mp hx).1
    · exact h x hx
  | message reading drawn sid role frame =>
    refine iff_of_true (fun x hx hholds => ?_) trivial
    let run := dispatchMessage float? (r.tick reading).hub drawn sid role frame
    obtain ⟨_, hfold⟩ := foldl_handleRequest sid (requests run)
      { r.tick reading with hub := run.hub }
    have hgone : x ∈ r.gone := by
      have hx : x ∈ ((requests run).foldl (handleRequest sid)
        { r.tick reading with hub := run.hub }).gone := hx
      rw [hfold] at hx
      exact hx
    rcases holds_of_requests (requests run) hholds with ⟨rfl, hrequests⟩ | hold
    · obtain ⟨s, hactive, _⟩ :=
        SessionManager.isSessionActive_iff.mp (active_of_requests hrequests)
      have hnone : (r.tick reading).hub.sessions.get? x = none := hs.gone x hgone
      rw [hnone] at hactive
      cases hactive
    · have hold : (r.tick reading).Holds x := hold
      exact h x hgone (holds_of_tick hold)
  | disconnect reading sid =>
    constructor
    · exact fun hr => hr sid List.mem_cons_self
    · intro hok x hx
      rcases List.mem_cons.mp hx with rfl | hx
      · exact hok
      · exact fun hold => h x hx (holds_of_tick hold)
  | server reading c =>
    refine iff_of_true (fun x hx hholds => ?_) trivial
    rcases holds_of_call hholds with hnone | hold
    · cases hnone
    · exact h x hx (holds_of_tick hold)

/-- In every interleaving: no session that is gone is ever left with an active entry, exactly when
each session that disconnects has none at that moment. -/
theorem run_released_iff (float? : String → Option T)
    (profiles : Option (Dict String SuppressionProfile)) (now : T)
    (steps : List (SuppressionStep T)) :
    (∀ before, before <+: steps →
        (Machine.run (step float?) (start profiles now) before).Released) ↔
      Machine.Guarded (step float?) ok (start profiles now) steps := by
  refine Machine.guarded_iff Settled Released (settled_step float?) (released_step_iff float?)
    ⟨?_, ?_⟩ ?_ steps
  · intro k s hk
    cases hk
  · intro x hx
    cases hx
  · intro x hx
    cases hx

end Suppressions

theorem splitOn_mic : "mic:1".splitOn ":" = ["mic", "1"] := by
  have hmic : ':' ∉ "mic".toList := by decide
  have hone : ':' ∉ "1".toList := by decide
  have happend := Text.splitOn_append hmic "1"
  rw [Text.splitOn_of_not_mem hone] at happend
  exact happend

theorem dispatchMessage_mic {hub : Hub} {sid role : String} {p : MessageFrame} {msg : Message}
    (hmsg : parseMessage sid role p = some msg)
    (hvalid : validateSession hub.sessions sid "inhibition" = true)
    (hack : ackRequired msg = false) (hdirection : msg.direction = .request)
    (hrole : msg.targetRole = "mind") (hspeaker : msg.speaker.isSome = true)
    (htype : msg.msgType = "inhibition") (hcontent : msg.content = "mic:1")
    (drawn : Drawn) : dispatchMessage (fun _ => (none : Option Int)) hub drawn sid role p =
      { hub, events := [.inhibitionRequest ⟨"1", "mic", 0, msg.roomId, msg.sessionId⟩] } := by
  obtain ⟨speaker, hspeaker⟩ := Option.isSome_iff_exists.mp hspeaker
  have hrequest : inhibitionRequest? (fun _ => (none : Option Int)) msg =
      some ⟨"1", "mic", 0, msg.roomId, msg.sessionId⟩ := by
    rw [inhibitionRequest?, hcontent, splitOn_mic]
  simp [dispatchMessage, hmsg, hvalid, hack, onGrpcMessage, hdirection, hrole, hspeaker, htype,
    hrequest]

/-- A client records, its connection breaks, and the suppression stays on. -/
theorem recording_outlives_client :
    ¬ ∀ (float? : String → Option Int) (profiles : Option (Dict String SuppressionProfile))
      (now : Int) (steps : List (SuppressionStep Int)),
      (Machine.run (Suppressions.step float?) (Suppressions.start profiles now)
        steps).Released := by
  intro h
  let frame : MessageFrame :=
    { targetRole := "mind", direction := 1, msgType := "inhibition", content := "mic:1"
      speaker := some { provider := "local", subject := "me" } }
  let connected : Suppressions Int := (Suppressions.start none 0).connect "" "s" (some .live)
    { permissions := [.sendInhibition] }
  let steps : List (SuppressionStep Int) :=
    [.connect "" "s" (some .live) { permissions := [.sendInhibition] },
      .message 0 ⟨"", ""⟩ "s" "external" frame, .disconnect 0 "s"]
  refine h (fun _ => none) none 0 steps "s" List.mem_cons_self ?_
  have hdispatch : dispatchMessage (fun _ => (none : Option Int)) connected.hub ⟨"", ""⟩ "s"
      "external" frame = { hub := connected.hub
                           events := [.inhibitionRequest ⟨"1", "mic", 0, "", "s"⟩] } := by
    have hvalid : validateSession connected.hub.sessions "s" "inhibition" = true := by decide
    have hmsg : parseMessage "s" "external" frame = some _ := rfl
    exact dispatchMessage_mic hmsg hvalid rfl rfl rfl rfl rfl rfl _
  have hreceive : connected.receive (fun _ => none) ⟨"", ""⟩ "s" "external" frame =
      connected.call (some "s") (.suppress 0 "mic" 0 none none) := by
    rw [Suppressions.receive, hdispatch]
    rfl
  have hrun : Machine.run (Suppressions.step fun _ => none) (Suppressions.start none 0) steps =
      (connected.call (some "s") (.suppress 0 "mic" 0 none none)).disconnect "s" := by
    have htick : ∀ r : Suppressions Int, r.now = 0 → r.tick 0 = r := by
      intro r hnow
      rw [Suppressions.tick, hnow, max_self, ← hnow]
    change (((connected.tick 0).receive _ _ "s" "external" frame).tick 0).disconnect "s" = _
    rw [htick connected rfl, hreceive, htick _ rfl]
  rw [hrun]
  exact ⟨"_global_:mic", ⟨"mic", ⟨∅, 1⟩, none, 0⟩, by decide, rfl, rfl⟩

end IrisMind.Transport
