import IrisMind.Gateway.Control
import IrisMind.Transport.Server

/-! # The receive loop of a stream

The frames of a client are handled one after the other, each by its kind. The
first exception ends the loop for good, although the session goes on: what its
client sends from then on is not even read. Control messages are the ones that
can do that, by a field of a profile that is passed twice, or by values that are
nested too deep. -/
namespace IrisMind.Transport
open IrisMind.Lib IrisMind.Accounts IrisMind.Gateway IrisMind.Inhibition IrisMind.Rooms
  IrisMind.Sessions

structure CommandInput where
  id : String := ""
  sessionId : String := ""
  sourceRole : String := ""
  content : String

inductive Outgoing where
  | message (msg : Message)
  | control (msg : ControlMessage)
  | output (out : CommandOutput)

/-- What handling a frame leaves, and whether it ends in an exception. -/
structure FrameRun (T : Type) where
  hub : Hub
  events : List (BusEvent T) := []
  sent : List (String × Outgoing) := []
  raised : Bool := false

/-- What the handlers work with: how numbers are read, how values become text, and who runs the
commands. -/
structure Handlers (T : Type) where
  float? : String → Option T
  codec : Codec
  onCommand : Hub → CommandInput → FrameRun T

variable {T : Type} [Clock T]

/-- `_handle_command`. -/
def handleCommand (handlers : Handlers T) (hub : Hub) (sessionId sessionRole : String)
    (p : CommandInputFrame) : FrameRun T :=
  if !validateSession hub.sessions sessionId "command" then { hub }
  else handlers.onCommand hub
    { id := p.id, sessionId, sourceRole := sessionRole, content := p.content }

/-- `_dispatch_control`. -/
def dispatchControl (handlers : Handlers T) (hub : Hub) (drawn : Drawn) (sessionId : String)
    (p : ControlFrame) : FrameRun T :=
  match parseControl p with
  | none => { hub }
  | some c =>
    let run := onGrpcControl T handlers.codec hub drawn c sessionId
    { hub := run.hub
      events := run.events
      sent := run.sent.map fun x => (x.1, .control x.2)
      raised := run.raised }

/-- The body of `_receive_loop`. -/
def handleFrame (handlers : Handlers T) (hub : Hub) (drawn : Drawn)
    (sessionId sessionRole : String) : ClientFrame → FrameRun T
  | .message p =>
    let run := dispatchMessage handlers.float? hub drawn sessionId sessionRole p
    { hub := run.hub
      events := run.events
      sent := run.sent.map fun x => (x.1, .message x.2) }
  | .command p => handleCommand handlers hub sessionId sessionRole p
  | .control p => dispatchControl handlers hub drawn sessionId p
  | .unset => { hub }

/-! ## The loop -/

/-- The loop of one stream; it may have been ended by a frame. -/
structure Stream where
  hub : Hub
  endedBy : Option ClientFrame := none

/-- The next frame of the stream, or whatever else goes on in the server. -/
inductive StreamStep where
  | frame (drawn : Drawn) (frame : ClientFrame)
  | elsewhere (hub : Hub)

namespace Stream

def step (handlers : Handlers T) (sessionId sessionRole : String) (s : Stream) :
    StreamStep → Stream
  | .frame drawn frame =>
    if s.endedBy.isSome then s
    else
      let run := handleFrame handlers s.hub drawn sessionId sessionRole frame
      { hub := run.hub, endedBy := if run.raised then some frame else none }
  | .elsewhere hub => { s with hub }

/-- No control frame has ended the loop. -/
def SurvivesControl (s : Stream) : Prop := ∀ p, s.endedBy ≠ some (.control p)

/-- A control frame that is read is one the dispatchers get through. -/
def ok (codec : Codec) (s : Stream) : StreamStep → Prop
  | .frame _ (.control p) => s.endedBy = none → ∀ c, parseControl p = some c →
    ¬ ControlBreaks codec s.hub.accounts s.hub.rooms c
  | _ => True

omit [Clock T] in
theorem raised_dispatchControl_iff (handlers : Handlers T) (hub : Hub) (drawn : Drawn)
    (sessionId : String) (p : ControlFrame) :
    (dispatchControl handlers hub drawn sessionId p).raised = false ↔
      ∀ c, parseControl p = some c →
        ¬ ControlBreaks handlers.codec hub.accounts hub.rooms c := by
  unfold dispatchControl
  cases hc : parseControl p with
  | none => exact iff_of_true rfl fun _ h => by cases h
  | some c =>
    dsimp only
    rw [onGrpcControl_returns_iff]
    constructor
    · intro h c' hc'
      cases hc'
      exact h
    · intro h
      exact h c rfl

/-- A loop that has ended reads nothing. -/
theorem step_of_ended {handlers : Handlers T} {sessionId sessionRole : String} {s : Stream}
    {f : ClientFrame} (h : s.endedBy = some f) (drawn : Drawn) (frame : ClientFrame) :
    s.step handlers sessionId sessionRole (.frame drawn frame) = s :=
  if_pos (by rw [h]; rfl)

theorem endedBy_step {handlers : Handlers T} {sessionId sessionRole : String} {s : Stream}
    (h : s.endedBy = none) (drawn : Drawn) (frame : ClientFrame) :
    (s.step handlers sessionId sessionRole (.frame drawn frame)).endedBy =
      if (handleFrame handlers s.hub drawn sessionId sessionRole frame).raised then some frame
      else none := by
  unfold step
  dsimp only
  rw [h, if_neg (by simp)]

theorem survivesControl_step_iff (handlers : Handlers T) (sessionId sessionRole : String)
    (s : Stream) (i : StreamStep) (h : s.SurvivesControl) :
    (s.step handlers sessionId sessionRole i).SurvivesControl ↔ s.ok handlers.codec i := by
  cases i with
  | elsewhere hub => exact iff_of_true h trivial
  | frame drawn frame =>
    cases hended : s.endedBy with
    | some f =>
      rw [step_of_ended hended]
      refine iff_of_true h ?_
      cases frame with
      | control p =>
        intro hnone
        rw [hended] at hnone
        cases hnone
      | message p => trivial
      | command p => trivial
      | unset => trivial
    | none =>
      have hstep : (s.step handlers sessionId sessionRole (.frame drawn frame)).endedBy = _ :=
        endedBy_step hended drawn frame
      unfold SurvivesControl
      rw [hstep]
      cases frame with
      | control p =>
        have hraised :
            (handleFrame handlers s.hub drawn sessionId sessionRole (.control p)).raised = false ↔
              _ := raised_dispatchControl_iff handlers s.hub drawn sessionId p
        by_cases hr :
            (handleFrame handlers s.hub drawn sessionId sessionRole (.control p)).raised = true
        · rw [if_pos hr]
          refine iff_of_false (fun hs => hs p rfl) fun hok => ?_
          have hfalse := hraised.mpr (hok hended)
          rw [hr] at hfalse
          cases hfalse
        · rw [if_neg hr]
          refine iff_of_true (fun q hq => ?_) fun _ => hraised.mp (Bool.eq_false_iff.mpr hr)
          cases hq
      | message p =>
        refine iff_of_true (fun q hq => ?_) trivial
        cases hq
      | command p =>
        refine iff_of_true (fun q hq => ?_) trivial
        split at hq
        · cases hq
        · cases hq
      | unset =>
        refine iff_of_true (fun q hq => ?_) trivial
        cases hq

/-- For every state and every control message: handling it returns exactly when the dispatchers get
through it, and then a known action is answered. And on every stream, whatever else goes on: no
control frame ever ends the loop exactly when each one that is read is of that kind. -/
theorem control_survives_iff (handlers : Handlers T) (sessionId sessionRole : String) :
    (∀ (hub : Hub) (drawn : Drawn) (c : ControlMessage),
        ((onGrpcControl T handlers.codec hub drawn c sessionId).raised = false ↔
          ¬ ControlBreaks handlers.codec hub.accounts hub.rooms c) ∧
        (KnownAction c → ¬ ControlBreaks handlers.codec hub.accounts hub.rooms c →
          ∃ response, (Gateway.dispatchControl handlers.codec hub.accounts hub.rooms drawn c
            sessionId).outcome = .answered response)) ∧
      ∀ (hub : Hub) (steps : List StreamStep),
        (∀ before, before <+: steps →
            (Machine.run (step handlers sessionId sessionRole) { hub } before).SurvivesControl) ↔
          Machine.Guarded (step handlers sessionId sessionRole) (ok handlers.codec) { hub }
            steps := by
  refine ⟨fun hub drawn c => ⟨onGrpcControl_returns_iff T handlers.codec hub drawn c sessionId,
    fun hknown hfine => ?_⟩, fun hub steps => ?_⟩
  · have hends : (Gateway.dispatchControl handlers.codec hub.accounts hub.rooms drawn c
        sessionId).outcome.RaisesIff (ControlBreaks handlers.codec hub.accounts hub.rooms c) :=
      raisesIff_dispatchControl hknown
    exact (hends.resolve_left fun h => hfine h.1).2
  · exact Machine.guarded_iff (fun _ => True) SurvivesControl (fun _ _ _ => trivial)
      (fun s i _ h => survivesControl_step_iff handlers sessionId sessionRole s i h) trivial
      (fun _ hnone => by cases hnone) steps

end Stream

/-- No text is JSON, and every value becomes the empty text. -/
def plainHandlers : Handlers Int where
  float? := fun _ => none
  codec :=
    { loads := fun _ => none, dumps := fun _ => some "", print := fun _ => some ""
      same := fun _ _ => some false, repr := id }
  onCommand := fun hub _ => { hub }

/-- A client identifies itself. -/
def identifyFrame : ControlFrame where
  action := "account.identify"
  identity := some { provider := "local", subject := "me" }

/-- It sets a field of its profile that has the name of a parameter. -/
def updateFrame : ControlFrame where
  action := "account.update"
  identity := some { provider := "local", subject := "me" }
  profile := .ofList [("account_id", "x")]

theorem profile_field_ends_loop :
    ¬ ∀ (handlers : Handlers Int) (sessionId sessionRole : String) (hub : Hub)
      (steps : List StreamStep),
      (Machine.run (Stream.step handlers sessionId sessionRole) { hub } steps).SurvivesControl := by
  intro h
  let steps : List StreamStep :=
    [.frame ⟨"1", "t1"⟩ (.control identifyFrame), .frame ⟨"2", "t2"⟩ (.control updateFrame)]
  exact h plainHandlers "s" "external" {} steps updateFrame rfl

end IrisMind.Transport
