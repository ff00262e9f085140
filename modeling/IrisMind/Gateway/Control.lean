import IrisMind.Gateway.Inbound
import IrisMind.Rooms.Dispatcher

/-! # Control messages

A control message goes to the dispatcher its action belongs to, and the answer
goes back to the session it came from. The gateway looks at neither the state of
the session nor its permissions, and it catches nothing. -/
namespace IrisMind.Gateway
open IrisMind.Lib IrisMind.Accounts IrisMind.Rooms IrisMind.Sessions

/-- `DispatcherRegistry.dispatch_control`: rooms have the higher priority. -/
def dispatchControl (codec : Codec) (accounts : AccountStore) (rooms : RoomStore) (drawn : Drawn)
    (msg : ControlMessage) (sessionId : String) : DispatchRun :=
  let byRooms :=
    if Text.startsWith msg.action "room." then
      RoomDispatcher.handleControlMessage codec accounts rooms drawn msg sessionId
    else { outcome := .unhandled, accounts, rooms }
  match byRooms.outcome with
  | .unhandled =>
    if Text.startsWith msg.action "account." then
      let run := AccountDispatcher.handleControlMessage codec accounts drawn msg
      { outcome := run.value, accounts := run.store, rooms, events := run.events }
    else byRooms
  | _ => byRooms

/-- What handling a control message leaves, and whether it ends in an exception. -/
structure ControlRun (T : Type) where
  hub : Hub
  events : List (BusEvent T) := []
  sent : List (String × ControlMessage) := []
  raised : Bool := false

/-- `_IOGateway.on_grpc_control`; `_build_control_message` copies the answer as it is. -/
def onGrpcControl (T : Type) (codec : Codec) (hub : Hub) (drawn : Drawn) (msg : ControlMessage)
    (sessionId : String) : ControlRun T :=
  let run := dispatchControl codec hub.accounts hub.rooms drawn msg sessionId
  let hub := { hub with accounts := run.accounts, rooms := run.rooms }
  let events := run.events.map BusEvent.account
  match run.outcome with
  | .raised => { hub, events, raised := true }
  | .unhandled => { hub, events := events ++ [.control { msg with sessionId }] }
  | .answered response =>
    let out := Router.routeControlMessage hub.sessions response sessionId
    { hub := { hub with sessions := out.sessions }
      events := events ++ [.control { msg with sessionId }]
      sent := out.sent }

/-! ## Which dispatcher an action reaches -/

theorem startsWith_roomAction (a : RoomAction) :
    Text.startsWith a.text "room." = true ∧ Text.startsWith a.text "account." = false := by
  cases a <;> decide

theorem startsWith_accountAction (a : AccountAction) :
    Text.startsWith a.text "account." = true ∧ Text.startsWith a.text "room." = false := by
  cases a <;> decide

variable {codec : Codec} {accounts : AccountStore} {rooms : RoomStore} {drawn : Drawn}
  {msg : ControlMessage} {sessionId : String}

theorem dispatchControl_room {a : RoomAction} (h : RoomAction.ofText? msg.action = some a) :
    dispatchControl codec accounts rooms drawn msg sessionId =
      RoomDispatcher.handleControlMessage codec accounts rooms drawn msg sessionId := by
  obtain ⟨hroom, haccount⟩ := startsWith_roomAction a
  rw [RoomAction.text_of_ofText? h] at hroom haccount
  unfold dispatchControl
  dsimp only
  rw [if_pos hroom, haccount, if_neg Bool.false_ne_true]
  split
  · rfl
  · rfl

theorem dispatchControl_account {a : AccountAction}
    (h : AccountAction.ofText? msg.action = some a) :
    dispatchControl codec accounts rooms drawn msg sessionId =
      { outcome := (AccountDispatcher.handleControlMessage codec accounts drawn msg).value
        accounts := (AccountDispatcher.handleControlMessage codec accounts drawn msg).store
        rooms
        events := (AccountDispatcher.handleControlMessage codec accounts drawn msg).events } := by
  obtain ⟨haccount, hroom⟩ := startsWith_accountAction a
  rw [AccountAction.text_of_ofText? h] at haccount hroom
  unfold dispatchControl
  dsimp only
  rw [hroom, if_neg Bool.false_ne_true]
  dsimp only
  rw [if_pos haccount]

/-- An action nobody knows changes nothing. -/
theorem dispatchControl_unknown (hroom : RoomAction.ofText? msg.action = none)
    (haccount : AccountAction.ofText? msg.action = none) :
    dispatchControl codec accounts rooms drawn msg sessionId =
      { outcome := .unhandled, accounts, rooms } := by
  simp [dispatchControl, RoomDispatcher.handleControlMessage, hroom, RoomDispatcher.answer,
    AccountDispatcher.handleControlMessage, haccount]

/-! ## Exceptions -/

/-- What the two dispatchers do not get through. -/
def ControlBreaks (codec : Codec) (accounts : AccountStore) (rooms : RoomStore)
    (msg : ControlMessage) : Prop :=
  AccountDispatcher.Breaks codec accounts msg ∨ RoomDispatcher.Breaks codec rooms msg

/-- The dispatchers know the action. -/
def KnownAction (msg : ControlMessage) : Prop :=
  (RoomAction.ofText? msg.action).isSome = true ∨
    (AccountAction.ofText? msg.action).isSome = true

theorem accountAction_of_roomAction {s : String} {a : RoomAction}
    (h : RoomAction.ofText? s = some a) : AccountAction.ofText? s = none := by
  cases haccount : AccountAction.ofText? s with
  | none => rfl
  | some b =>
    have hroom := (startsWith_roomAction a).1
    rw [RoomAction.text_of_ofText? h, ← AccountAction.text_of_ofText? haccount,
      (startsWith_accountAction b).2] at hroom
    cases hroom

theorem raisesIff_dispatchControl (h : KnownAction msg) :
    (dispatchControl codec accounts rooms drawn msg sessionId).outcome.RaisesIff
      (ControlBreaks codec accounts rooms msg) := by
  cases hroom : RoomAction.ofText? msg.action with
  | some a =>
    have haccount : ¬ AccountDispatcher.Breaks codec accounts msg := by
      intro hbreaks
      obtain ⟨account, _, hb⟩ := hbreaks
      rw [accountAction_of_roomAction hroom] at hb
      exact hb
    rw [dispatchControl_room hroom]
    exact (RoomDispatcher.raisesIff_handleControlMessage codec accounts rooms drawn sessionId
      hroom).congr ⟨.inr, fun hb => hb.resolve_left haccount⟩
  | none =>
    have hbreaks : ¬ RoomDispatcher.Breaks codec rooms msg := by
      intro hb
      unfold RoomDispatcher.Breaks at hb
      rw [hroom] at hb
      exact hb
    have hsome : (AccountAction.ofText? msg.action).isSome = true :=
      h.resolve_left (by rw [hroom]; exact Bool.false_ne_true)
    obtain ⟨a, haccount⟩ := Option.isSome_iff_exists.mp hsome
    rw [dispatchControl_account haccount]
    exact (AccountDispatcher.raisesIff_handleControlMessage codec accounts drawn haccount).congr
      ⟨.inl, fun hb => hb.resolve_right hbreaks⟩

theorem unhandled_of_unknown (h : ¬ KnownAction msg) :
    dispatchControl codec accounts rooms drawn msg sessionId =
      { outcome := .unhandled, accounts, rooms } := by
  refine dispatchControl_unknown ?_ ?_
  · exact Option.not_isSome_iff_eq_none.mp fun hroom => h (.inl hroom)
  · exact Option.not_isSome_iff_eq_none.mp fun haccount => h (.inr haccount)

theorem known_of_breaks (h : ControlBreaks codec accounts rooms msg) : KnownAction msg := by
  rcases h with ⟨account, _, hb⟩ | hb
  · right
    cases haccount : AccountAction.ofText? msg.action with
    | some a => rfl
    | none =>
      rw [haccount] at hb
      exact hb.elim
  · left
    unfold RoomDispatcher.Breaks at hb
    cases hroom : RoomAction.ofText? msg.action with
    | some a => rfl
    | none =>
      rw [hroom] at hb
      exact hb.elim

/-- Handling a control message ends in an exception exactly when a dispatcher does not get through
it, and a known action is answered otherwise. -/
theorem onGrpcControl_returns_iff (T : Type) (codec : Codec) (hub : Hub) (drawn : Drawn)
    (msg : ControlMessage) (sessionId : String) :
    (onGrpcControl T codec hub drawn msg sessionId).raised = false ↔
      ¬ ControlBreaks codec hub.accounts hub.rooms msg := by
  unfold onGrpcControl
  by_cases hknown : KnownAction msg
  · have hends :
        (dispatchControl codec hub.accounts hub.rooms drawn msg sessionId).outcome.RaisesIff
          (ControlBreaks codec hub.accounts hub.rooms msg) := raisesIff_dispatchControl hknown
    rcases hends with ⟨hb, ho⟩ | ⟨hb, response, ho⟩
    · dsimp only
      rw [ho]
      exact iff_of_false (by simp) (not_not_intro hb)
    · dsimp only
      rw [ho]
      exact iff_of_true rfl hb
  · rw [unhandled_of_unknown hknown]
    exact iff_of_true rfl fun hb => hknown (known_of_breaks hb)

end IrisMind.Gateway
