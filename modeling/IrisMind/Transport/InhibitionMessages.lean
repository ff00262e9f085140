import IrisMind.Sessions.RoomDelivery
import IrisMind.Transport.Release
import IrisMind.Transport.Validation

/-! # Inhibition messages

The protocol has a client ask for a suppression by a message that is an event and
has no speaker. The gateway looks at the direction and at the speaker before it
looks at the type: an event is refused, and so is a message without a speaker.
What the gateway takes is the same message as a request with a speaker. -/
namespace IrisMind.Transport
open IrisMind.Lib IrisMind.Accounts IrisMind.Gateway IrisMind.Inhibition IrisMind.Sessions

variable {T : Type} [Clock T]

/-- A text that reads as a positive duration, and can stand in the content of a message. -/
structure DurationText (float? : String → Option T) where
  text : String
  value : T
  reads : float? text = some value
  positive : 0 < value
  plain : ':' ∉ text.toList

/-- What a client may ask for. -/
structure Asked (float? : String → Option T) where
  reason : String
  suppress : Bool
  duration : Option (DurationText float?)
  plain : ':' ∉ reason.toList

namespace Asked
variable {float? : String → Option T}

def action (a : Asked float?) : String := if a.suppress then "true" else "false"

def content (a : Asked float?) : String :=
  match a.duration with
  | none => a.reason ++ ":" ++ a.action
  | some d => a.reason ++ ":" ++ (a.action ++ ":" ++ d.text)

def event (a : Asked float?) (roomId sessionId : String) : InhibitionRequestEvent T where
  action := a.action
  reason := a.reason
  duration := (a.duration.map DurationText.value).getD 0
  roomId := roomId
  sessionId := sessionId

/-- The message asks for it, whatever its direction, and whoever speaks. -/
structure AskedBy (a : Asked float?) (p : MessageFrame) : Prop where
  msgType : p.msgType = "inhibition"
  targetRole : p.targetRole = "mind"
  content : p.content = a.content

/-- The message as the protocol documents it. -/
structure Documented (a : Asked float?) (p : MessageFrame) : Prop extends a.AskedBy p where
  direction : p.direction = numberOf directionMap "event"
  speaker : p.speaker = none

end Asked

/-- The event is published, as the only request, and nobody is told of an error. -/
structure Accepted (run : HubRun T) (event : InhibitionRequestEvent T) : Prop where
  published : Suppressions.requests run = [event]
  noError : ∀ x ∈ run.sent, Dict.lookup "error" x.2.metadata = none

/-! ## Contents -/

theorem Asked.plain_action {float? : String → Option T} (a : Asked float?) :
    ':' ∉ a.action.toList := by
  unfold action
  cases a.suppress with
  | true => decide
  | false => decide

/-- A content reads as what was asked for. -/
theorem inhibitionRequest?_of_content {float? : String → Option T} (a : Asked float?)
    {msg : Message} (h : msg.content = a.content) :
    inhibitionRequest? float? msg = some (a.event msg.roomId msg.sessionId) := by
  unfold inhibitionRequest?
  rw [h, Asked.content]
  cases hd : a.duration with
  | none =>
    have hsplit : (a.reason ++ ":" ++ a.action).splitOn ":" = [a.reason, a.action] := by
      have happend := Text.splitOn_append a.plain a.action
      rwa [Text.splitOn_of_not_mem a.plain_action] at happend
    dsimp only
    rw [hsplit]
    simp [Asked.event, hd]
  | some d =>
    have hsplit : (a.reason ++ ":" ++ (a.action ++ ":" ++ d.text)).splitOn ":" =
        [a.reason, a.action, d.text] := by
      have houter := Text.splitOn_append a.plain (a.action ++ ":" ++ d.text)
      have hinner := Text.splitOn_append a.plain_action d.text
      rw [Text.splitOn_of_not_mem d.plain] at hinner
      exact houter.trans (congrArg (a.reason :: ·) hinner)
    dsimp only
    rw [hsplit]
    simp [Asked.event, hd, d.reads]

/-! ## What the gateway hands on -/

omit [Clock T] in
theorem requests_sendError (hub : Hub) (msg : Message) (text : String) :
    Suppressions.requests (sendError hub msg text : HubRun T) = [] := rfl

/-- The one way from a message to a request. -/
theorem requests_onGrpcMessage (float? : String → Option T) (hub : Hub) (drawn : Drawn)
    (msg : Message) : Suppressions.requests (onGrpcMessage float? hub drawn msg) =
      if msg.direction = .request ∧ msg.targetRole = "mind" ∧ msg.speaker.isSome = true ∧
          msg.msgType = "inhibition" then (inhibitionRequest? float? msg).toList
      else [] := by
  unfold onGrpcMessage
  by_cases hdirection : msg.direction = .request
  swap
  · simp [hdirection, requests_sendError]
  by_cases htarget : msg.targetRole = "mind"
  swap
  · simp [hdirection, htarget, Suppressions.requests]
  cases hspeaker : msg.speaker with
  | none => simp [hdirection, htarget, requests_sendError]
  | some speaker =>
    by_cases htype : msg.msgType = "inhibition"
    · cases hrequest : inhibitionRequest? float? msg with
      | none => simp [hdirection, htarget, htype, Suppressions.requests]
      | some event => simp [hdirection, htarget, htype, Suppressions.requests]
    · simp only [hdirection, htarget, htype, ne_eq, not_true_eq_false, if_false, and_false]
      split
      · rfl
      split
      · rfl
      cases hub.rooms.findRoomById msg.roomId <;> simp [Suppressions.requests, sendError]

theorem requests_dispatchMessage (float? : String → Option T) {hub : Hub} (drawn : Drawn)
    {sessionId sessionRole : String} {p : MessageFrame} {msg : Message}
    (hparse : parseMessage sessionId sessionRole p = some msg)
    (hvalid : validateSession hub.sessions sessionId p.msgType = true) :
    Suppressions.requests (dispatchMessage float? hub drawn sessionId sessionRole p) =
      Suppressions.requests (onGrpcMessage float? hub drawn msg) := by
  unfold dispatchMessage
  simp only [hparse, parseMessage_msgType hparse, hvalid, Bool.not_true, Bool.false_eq_true,
    if_false]
  cases ackRequired msg <;> rfl

/-- Nothing but the message itself goes out for it. -/
theorem eq_of_mem_sent_routeMessage {sessions : SessionTable} {msg : Message}
    {x : String × Message} (h : x ∈ (Router.routeMessage sessions msg).sent) : x.2 = msg := by
  unfold Router.routeMessage at h
  split at h
  · split at h
    · next s _ =>
      split at h
      · unfold Router.sendBytesToSession at h
        split at h
        · cases h
        · simpa using congrArg Prod.snd (List.mem_singleton.mp h)
        · cases h
      · cases h
    · cases h
  · obtain hnil | ⟨_, _, _, hx⟩ := Router.mem_sent_sendToTargets h
    · cases hnil
    · rw [hx]

/-! ## What is accepted -/

variable {float? : String → Option T}

theorem directionOf?_eq_request {number : Int} :
    directionOf? (parseDirection number) = some .request ↔ number = 1 := by
  unfold parseDirection nameOf? directionMap
  by_cases h1 : number = 1
  · subst h1
    simp [directionOf?]
  by_cases h2 : number = 2
  · subst h2
    simp [directionOf?]
  by_cases h3 : number = 3
  · subst h3
    simp [directionOf?]
  by_cases h4 : number = 4
  · subst h4
    simp [directionOf?]
  simp [directionOf?, h1, Ne.symm h1, Ne.symm h2, Ne.symm h3, Ne.symm h4]

/-- A request with a speaker goes through to the event bus, and only an acknowledgement is sent. -/
theorem accepted_of_request {a : Asked float?} {p : MessageFrame} (hasked : a.AskedBy p) {hub : Hub}
    (drawn : Drawn) {sessionId : String} (sessionRole : String) {msg : Message}
    (hparse : parseMessage sessionId sessionRole p = some msg)
    (hvalid : validateSession hub.sessions sessionId p.msgType = true)
    (hdirection : msg.direction = .request) (hspeaker : msg.speaker.isSome = true) :
    Accepted (dispatchMessage float? hub drawn sessionId sessionRole p)
      (a.event p.roomId sessionId) := by
  obtain ⟨speaker, hspeaker⟩ := Option.isSome_iff_exists.mp hspeaker
  obtain ⟨_, _, _, _, hmsg⟩ := parseMessage_eq_some hparse
  have htarget : msg.targetRole = "mind" := by simp [hmsg, hasked.targetRole]
  have htype : msg.msgType = "inhibition" := by rw [hmsg, ← hasked.msgType]
  have hcontent : msg.content = a.content := by rw [hmsg, ← hasked.content]
  have hrequest := inhibitionRequest?_of_content a hcontent
  have hrun : onGrpcMessage float? hub drawn msg =
      { hub, events := [.inhibitionRequest (a.event msg.roomId msg.sessionId)] } := by
    simp [onGrpcMessage, hdirection, htarget, hspeaker, htype, hrequest]
  have hroom : msg.roomId = p.roomId := by rw [hmsg]
  have hsession : msg.sessionId = sessionId := by rw [hmsg]
  refine ⟨?_, ?_⟩
  · rw [requests_dispatchMessage float? drawn hparse hvalid, hrun, ← hroom, ← hsession]
    rfl
  · intro x hx
    unfold dispatchMessage at hx
    simp only [hparse, parseMessage_msgType hparse, hvalid, hrun, Bool.not_true,
      Bool.false_eq_true, if_false] at hx
    split at hx
    · cases hx
    · rw [List.nil_append] at hx
      rw [eq_of_mem_sent_routeMessage hx]
      rfl

/-- For every message that asks for a suppression: it is accepted exactly when the session may
send it, it is a request, and it names a speaker. -/
theorem accepted_iff {a : Asked float?} {p : MessageFrame} (hasked : a.AskedBy p) (hub : Hub)
    (drawn : Drawn) (sessionId sessionRole : String) :
    Accepted (dispatchMessage float? hub drawn sessionId sessionRole p)
        (a.event p.roomId sessionId) ↔
      validateSession hub.sessions sessionId "inhibition" = true ∧ p.direction = 1 ∧
        ∃ speaker, parseIdentity (p.speaker.getD {}) = some (some speaker) := by
  rw [← hasked.msgType]
  constructor
  · intro h
    by_cases hvalid : validateSession hub.sessions sessionId p.msgType = true
    swap
    · have hrefused := (Bool.not_eq_true _).mp hvalid
      have hnone := h.published
      rw [dispatchMessage_of_refused float? drawn sessionRole hrefused] at hnone
      cases hnone
    cases hparse : parseMessage sessionId sessionRole p with
    | none =>
      have hnone := h.published
      rw [dispatchMessage, hparse] at hnone
      cases hnone
    | some msg =>
      obtain ⟨speaker, direction, hspeaker, hdirection, hmsg⟩ := parseMessage_eq_some hparse
      have hpublished := h.published
      rw [requests_dispatchMessage float? drawn hparse hvalid, requests_onGrpcMessage] at hpublished
      split at hpublished
      · next hgate =>
        rw [hmsg] at hgate
        obtain ⟨s, rfl⟩ := Option.isSome_iff_exists.mp hgate.2.2.1
        exact ⟨hvalid, directionOf?_eq_request.mp (hdirection.trans (congrArg some hgate.1)), s,
          hspeaker⟩
      · cases hpublished
  · rintro ⟨hvalid, hdirection, speaker, hspeaker⟩
    have hparse : ∃ msg, parseMessage sessionId sessionRole p = some msg ∧
        msg.direction = .request ∧ msg.speaker = some speaker := by
      simp [parseMessage, hspeaker, directionOf?_eq_request.mpr hdirection]
    obtain ⟨msg, hparse, hdirection, hspeaker⟩ := hparse
    exact accepted_of_request hasked drawn sessionRole hparse hvalid hdirection (by simp [hspeaker])

/-- For every message as the protocol documents it, and whoever sends it: it is not accepted. -/
theorem documented_not_accepted {a : Asked float?} {p : MessageFrame} (hdoc : a.Documented p)
    (hub : Hub) (drawn : Drawn) (sessionId sessionRole : String) :
    ¬ Accepted (dispatchMessage float? hub drawn sessionId sessionRole p)
      (a.event p.roomId sessionId) := by
  intro h
  obtain ⟨_, hdirection, _⟩ := (accepted_iff hdoc.toAskedBy hub drawn sessionId sessionRole).mp h
  rw [hdoc.direction] at hdirection
  exact absurd hdirection (by decide)

/-- The message a client sends when a recording starts. -/
def recordingFrame : MessageFrame where
  msgType := "inhibition"
  direction := 4
  targetRole := "mind"
  content := "voice_recording:true"

def recordingAsked : Asked (fun _ => (none : Option Int)) where
  reason := "voice_recording"
  suppress := true
  duration := none
  plain := by decide

theorem recordingAsked_documented : recordingAsked.Documented recordingFrame :=
  ⟨⟨rfl, rfl, rfl⟩, rfl, rfl⟩

theorem documented_not_accepted_recording :
    ¬ Accepted (dispatchMessage (fun _ => (none : Option Int)) {} ⟨"", ""⟩ "s" "external"
      recordingFrame) (recordingAsked.event "" "s") :=
  documented_not_accepted recordingAsked_documented {} ⟨"", ""⟩ "s" "external"

/-- A client that may send inhibition messages says that a recording starts, and gets an error. -/
theorem recording_refused :
    ¬ ∀ (float? : String → Option Int) (hub : Hub) (drawn : Drawn) (sessionId sessionRole : String)
      (a : Asked float?) (p : MessageFrame),
      validateSession hub.sessions sessionId "inhibition" = true → a.Documented p →
        Accepted (dispatchMessage float? hub drawn sessionId sessionRole p)
          (a.event p.roomId sessionId) := by
  intro h
  let hub : Hub :=
    { sessions := (KeyedTable.empty.authenticate "" "s" (some .live)
        { permissions := [.sendInhibition] }).2.table }
  have haccepted := h (fun _ => none) hub ⟨"", ""⟩ "s" "external" recordingAsked recordingFrame
    (by decide) recordingAsked_documented
  have hnone : Suppressions.requests (dispatchMessage (fun _ => (none : Option Int)) hub ⟨"", ""⟩
      "s" "external" recordingFrame) = [] := rfl
  rw [haccepted.published] at hnone
  cases hnone

end IrisMind.Transport
