import IrisMind.Accounts.Writes
import IrisMind.Rooms.Writes
import IrisMind.Transport.Stream

/-! # Sessions that may not send

A message or a command is only handled for a session that is active and has the
permission for it. A control message is handled for everybody: its type needs no
permission, and nobody asks whether the session is still active. So the loop of a
session that has been replaced goes on to write accounts and rooms. -/
namespace IrisMind.Transport
open IrisMind.Lib IrisMind.Accounts IrisMind.Gateway IrisMind.Inhibition IrisMind.Rooms
  IrisMind.Sessions

/-- The type by which a permission is looked up. -/
def ClientFrame.msgType : ClientFrame → String
  | .message p => p.msgType
  | .command _ => "command"
  | .control _ => "control"
  | .unset => ""

/-- The session is not active, or it has no permission to send the frame. -/
def Unentitled (sessions : SessionTable) (sessionId : String) (frame : ClientFrame) : Prop :=
  SessionManager.isSessionActive sessions sessionId = false ∨
    SessionManager.checkSendPermission sessions sessionId frame.msgType = false

variable {T : Type} [Clock T]

/-- The suppressions once what has been published is handled. -/
def inhibitionAfter (now : T) (s : Striatum T) (events : List (BusEvent T)) : Striatum T :=
  events.foldl (fun s event => match event with
    | .inhibitionRequest request => match onRequestEvent now request with
      | some call => s.apply call
      | none => s
    | _ => s) s

/-- Accounts, rooms and suppressions are as they were, and there is no input. -/
structure NoEffect (hub : Hub) (run : FrameRun T) : Prop where
  accounts : run.hub.accounts = hub.accounts
  rooms : run.hub.rooms = hub.rooms
  inhibition : ∀ (now : T) (s : Striatum T), inhibitionAfter now s run.events = s
  input : ∀ event, BusEvent.inputReady event ∉ run.events

/-- The frame is not a control message, or it is one that writes nothing where it arrives. -/
def Idle (codec : Codec) (hub : Hub) (sessionId : String) : ClientFrame → Prop
  | .control p => ∀ c, parseControl p = some c →
    ¬ (AccountDispatcher.Writes hub.accounts c ∨ RoomDispatcher.Writes codec hub.rooms c sessionId)
  | _ => True

/-- Who connects under a tag takes the right to send from the active sessions with that tag. -/
theorem unentitled_of_replaced {sessions : SessionTable} {accessToken sid newId : String}
    {conn : Option Connection} {msg : AuthMessage} {s : SessionInfo}
    (haccepted : accessToken = "" ∨ msg.accessToken = some accessToken)
    (hs : sessions.get? sid = some s) (hactive : s.state = .active)
    (htag : s.sessionTag = msg.sessionTag) (hnamed : msg.sessionTag ≠ "") (hne : newId ≠ sid)
    (frame : ClientFrame) :
    Unentitled (SessionManager.authenticate accessToken sessions newId conn msg).2 sid frame := by
  have hreplaced : sid ∈ SessionManager.replaced sessions msg.sessionTag :=
    SessionManager.mem_replaced.mpr ⟨hnamed, s, hs, htag, hactive⟩
  have hgone : (SessionManager.authenticate accessToken sessions newId conn msg).2.get? sid =
      none := by
    unfold SessionManager.authenticate
    rw [if_neg (by simpa [not_or, imp_iff_not_or] using haccepted)]
    simp [SessionManager.createSession, Dict.get?_set, Dict.get?_eraseAll, hne, hreplaced]
  left
  unfold SessionManager.isSessionActive
  rw [hgone]

/-! ## Frames that are dropped -/

theorem parseMessage_msgType {sessionId sessionRole : String} {p : MessageFrame} {msg : Message}
    (h : parseMessage sessionId sessionRole p = some msg) : msg.msgType = p.msgType := by
  obtain ⟨_, _, _, _, hmsg⟩ := parseMessage_eq_some h
  rw [hmsg]

theorem validateSession_of_unentitled {sessions : SessionTable} {sessionId : String}
    {frame : ClientFrame} (h : Unentitled sessions sessionId frame) :
    validateSession sessions sessionId frame.msgType = false :=
  Bool.and_eq_false_iff.mpr h

theorem noEffect_dropped (hub : Hub) : NoEffect hub ({ hub } : FrameRun T) :=
  ⟨rfl, rfl, fun _ _ => rfl, fun _ h => by cases h⟩

theorem dispatchMessage_of_refused (float? : String → Option T) {hub : Hub} (drawn : Drawn)
    {sessionId : String} (sessionRole : String) {p : MessageFrame}
    (h : validateSession hub.sessions sessionId p.msgType = false) :
    dispatchMessage float? hub drawn sessionId sessionRole p = { hub } := by
  unfold dispatchMessage
  cases hparse : parseMessage sessionId sessionRole p with
  | none => rfl
  | some msg =>
    dsimp only
    rw [parseMessage_msgType hparse, h]
    rfl

theorem noEffect_of_noControl (handlers : Handlers T) {hub : Hub} (drawn : Drawn)
    {sessionId : String} (sessionRole : String) {frame : ClientFrame}
    (h : Unentitled hub.sessions sessionId frame) (hframe : ∀ p, frame ≠ .control p) :
    NoEffect hub (handleFrame handlers hub drawn sessionId sessionRole frame) := by
  have hvalid := validateSession_of_unentitled h
  cases frame with
  | message p =>
    unfold handleFrame
    dsimp only
    rw [dispatchMessage_of_refused handlers.float? drawn sessionRole hvalid]
    exact noEffect_dropped hub
  | command p =>
    have hrefused : validateSession hub.sessions sessionId "command" = false := hvalid
    unfold handleFrame handleCommand
    rw [hrefused]
    exact noEffect_dropped hub
  | control p => exact absurd rfl (hframe p)
  | unset => exact noEffect_dropped hub

/-! ## Control messages -/

/-- Nobody but the dispatcher touches the stores. -/
theorem stores_onGrpcControl (T : Type) (codec : Codec) (hub : Hub) (drawn : Drawn)
    (c : ControlMessage) (sessionId : String) :
    (onGrpcControl T codec hub drawn c sessionId).hub.accounts =
        (Gateway.dispatchControl codec hub.accounts hub.rooms drawn c sessionId).accounts ∧
      (onGrpcControl T codec hub drawn c sessionId).hub.rooms =
        (Gateway.dispatchControl codec hub.accounts hub.rooms drawn c sessionId).rooms := by
  unfold onGrpcControl
  dsimp only
  split
  · exact ⟨rfl, rfl⟩
  · exact ⟨rfl, rfl⟩
  · exact ⟨rfl, rfl⟩

/-- The event is neither input nor about a suppression. -/
def Quiet : BusEvent T → Prop
  | .inputReady _ => False
  | .inhibitionRequest _ => False
  | _ => True

theorem quiet_onGrpcControl (T : Type) (codec : Codec) (hub : Hub) (drawn : Drawn)
    (c : ControlMessage) (sessionId : String) :
    ∀ event ∈ (onGrpcControl T codec hub drawn c sessionId).events, Quiet event := by
  intro event hmem
  unfold onGrpcControl at hmem
  dsimp only at hmem
  split at hmem
  · obtain ⟨a, _, rfl⟩ := List.mem_map.mp hmem
    trivial
  all_goals
    rcases List.mem_append.mp hmem with hmem | hmem
    · obtain ⟨a, _, rfl⟩ := List.mem_map.mp hmem
      trivial
    · rw [List.mem_singleton.mp hmem]
      trivial

theorem inhibitionAfter_of_quiet (now : T) (s : Striatum T) {events : List (BusEvent T)}
    (h : ∀ event ∈ events, Quiet event) : inhibitionAfter now s events = s := by
  unfold inhibitionAfter
  induction events with
  | nil => rfl
  | cons event rest ih =>
    have hquiet : Quiet event := h event List.mem_cons_self
    have hrest := ih fun e he => h e (List.mem_cons_of_mem _ he)
    rw [List.foldl_cons]
    cases event with
    | inhibitionRequest request => exact hquiet.elim
    | inputReady input => exact hquiet.elim
    | account a => exact hrest
    | control c => exact hrest

/-- What a dispatcher keeps, the gateway keeps: no control message is input, or asks for a
suppression. -/
theorem noEffect_dispatchControl_iff (handlers : Handlers T) (hub : Hub) (drawn : Drawn)
    (sessionId : String) {p : ControlFrame} {c : ControlMessage} (h : parseControl p = some c) :
    NoEffect hub (dispatchControl handlers hub drawn sessionId p) ↔
      RoomDispatcher.Keeps (Gateway.dispatchControl handlers.codec hub.accounts hub.rooms drawn c
        sessionId) hub.accounts hub.rooms := by
  have hrun : dispatchControl handlers hub drawn sessionId p =
      { hub := (onGrpcControl T handlers.codec hub drawn c sessionId).hub
        events := (onGrpcControl T handlers.codec hub drawn c sessionId).events
        sent := (onGrpcControl T handlers.codec hub drawn c sessionId).sent.map fun x =>
          (x.1, .control x.2)
        raised := (onGrpcControl T handlers.codec hub drawn c sessionId).raised } := by
    unfold dispatchControl
    rw [h]
  have hquiet := quiet_onGrpcControl T handlers.codec hub drawn c sessionId
  obtain ⟨haccounts, hrooms⟩ := stores_onGrpcControl T handlers.codec hub drawn c sessionId
  rw [hrun]
  constructor
  · intro hn
    exact ⟨haccounts.symm.trans hn.accounts, hrooms.symm.trans hn.rooms⟩
  · intro hk
    exact ⟨haccounts.trans hk.1, hrooms.trans hk.2,
      fun now s => inhibitionAfter_of_quiet now s hquiet,
      fun event hmem => hquiet _ hmem⟩

theorem keeps_dispatchControl_iff (codec : Codec) (accounts : AccountStore) (rooms : RoomStore)
    (c : ControlMessage) (sessionId : String) :
    (∀ drawn, RoomDispatcher.Keeps (Gateway.dispatchControl codec accounts rooms drawn c sessionId)
      accounts rooms) ↔
        ¬ (AccountDispatcher.Writes accounts c ∨ RoomDispatcher.Writes codec rooms c sessionId) := by
  cases hroom : RoomAction.ofText? c.action with
  | some a =>
    have haccount : ¬ AccountDispatcher.Writes accounts c := by
      intro hw
      unfold AccountDispatcher.Writes at hw
      rw [accountAction_of_roomAction hroom] at hw
      exact hw
    simp only [dispatchControl_room hroom, RoomDispatcher.keeps_iff, not_or, haccount,
      not_false_eq_true, true_and]
  | none =>
    have hrooms : ¬ RoomDispatcher.Writes codec rooms c sessionId := by
      intro hw
      unfold RoomDispatcher.Writes at hw
      rw [hroom] at hw
      exact hw
    rw [or_iff_left hrooms]
    cases haccount : AccountAction.ofText? c.action with
    | some a =>
      simp only [dispatchControl_account haccount]
      constructor
      · intro h hw
        exact AccountDispatcher.not_forall_store_of_writes hw fun drawn => (h drawn).1
      · intro h drawn
        exact ⟨AccountDispatcher.store_of_not_writes h, rfl⟩
    | none =>
      refine iff_of_true (fun drawn => ?_) fun hw => ?_
      · rw [dispatchControl_unknown hroom haccount]
        exact ⟨rfl, rfl⟩
      · unfold AccountDispatcher.Writes at hw
        rw [haccount] at hw
        exact hw

/-- For every state and every frame of a session that may not send it: handling the frame has no
effect exactly when it is idle, whatever the clock says. -/
theorem noEffect_iff (handlers : Handlers T) (hub : Hub) (sessionId sessionRole : String)
    (frame : ClientFrame) (h : Unentitled hub.sessions sessionId frame) :
    (∀ drawn, NoEffect hub (handleFrame handlers hub drawn sessionId sessionRole frame)) ↔
      Idle handlers.codec hub sessionId frame := by
  cases frame with
  | control p =>
    cases hparse : parseControl p with
    | none =>
      refine iff_of_true (fun drawn => ?_) fun c hc => ?_
      · unfold handleFrame dispatchControl
        dsimp only
        rw [hparse]
        exact noEffect_dropped hub
      · rw [hparse] at hc
        cases hc
    | some c =>
      have hkeeps := keeps_dispatchControl_iff handlers.codec hub.accounts hub.rooms c sessionId
      constructor
      · intro hn c' hc'
        rw [hparse] at hc'
        cases hc'
        exact hkeeps.mp fun drawn =>
          (noEffect_dispatchControl_iff handlers hub drawn sessionId hparse).mp (hn drawn)
      · intro hidle drawn
        exact (noEffect_dispatchControl_iff handlers hub drawn sessionId hparse).mpr
          (hkeeps.mpr (hidle c hparse) drawn)
  | message p =>
    exact iff_of_true (fun drawn => noEffect_of_noControl handlers drawn sessionRole h
      fun _ hp => by cases hp) trivial
  | command p =>
    exact iff_of_true (fun drawn => noEffect_of_noControl handlers drawn sessionRole h
      fun _ hp => by cases hp) trivial
  | unset =>
    exact iff_of_true (fun drawn => noEffect_of_noControl handlers drawn sessionRole h
      fun _ hp => by cases hp) trivial

/-- A client has connected again: its first session has been replaced. -/
def replacedSessions : SessionTable :=
  let me : AuthMessage := { permissions := [.sendChat], sessionTag := "me" }
  let first := (SessionManager.authenticate "" .empty "s1" (some .live) me).2
  (SessionManager.authenticate "" first "s2" (some .live) me).2

/-- What the first session still says is dropped. -/
theorem noEffect_iff_replaced :
    NoEffect { sessions := replacedSessions }
      (handleFrame plainHandlers { sessions := replacedSessions } ⟨"r", "t"⟩ "s1" "external"
        (.message { direction := 1, msgType := "chat", content := "hi" })) :=
  (noEffect_iff plainHandlers { sessions := replacedSessions } "s1" "external"
    (.message { direction := 1, msgType := "chat", content := "hi" }) (.inl rfl)).mpr trivial
    ⟨"r", "t"⟩

/-- But the room it creates is there. -/
theorem replaced_session_creates_room :
    ¬ ∀ (handlers : Handlers Int) (hub : Hub) (drawn : Drawn) (sessionId sessionRole : String)
      (frame : ClientFrame), Unentitled hub.sessions sessionId frame →
      NoEffect hub (handleFrame handlers hub drawn sessionId sessionRole frame) := by
  intro h
  have hnone := h plainHandlers { sessions := replacedSessions } ⟨"r", "t"⟩ "s1" "external"
    (.control { action := "room.create", text := "lobby" }) (.inl rfl)
  exact RoomStore.addRoom_ne {} _ hnone.rooms

end IrisMind.Transport
