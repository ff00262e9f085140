import IrisMind.Accounts.Account
import IrisMind.Limbic.Mood
import IrisMind.Rooms.Manager

/-! # The limbic pipeline

A message or a change in a room is appraised, made an emotion, and the emotion
moves the mood, which all accounts share, and the relationship with the account
it came from. What came of it is kept as the latest result and in a history of
the last results. What raises on the way is logged and goes no further. -/
namespace IrisMind.Limbic
open IrisMind.Lib IrisMind.Accounts IrisMind.Rooms
open IrisMind.Memory (RelationshipLevel)

structure EmotionResult where
  appraisal : AppraisalDimensions
  emotion : GeneratedEmotion
  mood : Mood
  relationship : RelationshipState
  reappraisalNeeded : Bool := false
  reappraisalSuggestion : String := ""

/-! ## The state of the emotions -/

structure EmotionSnapshot where
  emotion : GeneratedEmotion
  mood : Mood
  relationship : RelationshipState

structure EmotionFullState where
  current : Option EmotionSnapshot
  historyCount : Option Nat := none

def EmotionResult.snapshot (r : EmotionResult) : EmotionSnapshot where
  emotion := r.emotion
  mood := r.mood
  relationship := r.relationship

structure EmotionStateManager where
  latest : Option EmotionResult := none
  history : List EmotionSnapshot := []

namespace EmotionStateManager

def maxHistory : Nat := 50

/-- `entries[-n:]` of a list that is longer than `n`. -/
def update (s : EmotionStateManager) (result : EmotionResult) : EmotionStateManager :=
  let history := s.history ++ [result.snapshot]
  { latest := some result
    history := if maxHistory < history.length then history.drop (history.length - maxHistory)
      else history }

def getState (s : EmotionStateManager) : EmotionFullState :=
  match s.latest with
  | none => { current := none }
  | some latest => { current := some latest.snapshot, historyCount := some s.history.length }

end EmotionStateManager

/-! ## Profiles -/

def AttachmentStyle.value : AttachmentStyle → String
  | .secure => "secure"
  | .anxious => "anxious"
  | .avoidant => "avoidant"
  | .disorganized => "disorganized"

/-- `get_profile`, of the state of an account. -/
def RelationshipState.profile (state : RelationshipState) : Profile :=
  ((((Dict.empty.set "trust_level" (.json (.num state.trust))).set
    "familiarity" (.json (.num state.familiarity))).set
    "relationship_level" (.json (.int state.level.rank))).set
    "attachment_style" (.json (.str state.attachmentStyle.value))).set
    "disclosure_depth" (.json (.num state.disclosureDepth))

/-- The profile of an account, as an appraisal reads it. -/
def Profile.ofAccount (profile : Dict String Json) : Profile :=
  ⟨profile.entries.map fun e => (e.1, .json e.2), by rw [List.map_map]; exact profile.nodup⟩

/-! ## The pipeline -/

/-- What is outside at one event: the accounts and the rooms, where there is a manager of them,
and the two times the clock is read. -/
structure Moment where
  accounts : Option AccountStore
  rooms : Option RoomStore
  readAt : ℚ
  updatedAt : ℚ

def Moment.account (now : Moment) (accountId : AccountId) : Option Account :=
  if accountId.1 = "" then none else now.accounts.bind (·.findAccountById accountId.1)

def Moment.room (now : Moment) (roomId : String) : Option (RoomStore × Room) :=
  if roomId = "" then none
  else now.rooms.bind fun rooms => (rooms.findRoomById roomId).map (rooms, ·)

/-- `ctx.setdefault(key, value)` -/
def Context.withDefault (ctx : Context) (key : String) (value : Json) : Context :=
  (ctx.setDefault key value).2

/-- `_enrich_context`; the room is the one the context names. -/
def enrichContext (now : Moment) (context : Context) (accountId : AccountId) : Context :=
  let ctx := match now.account accountId with
    | none => context
    | some account =>
      (context.withDefault "display_name" (.str account.displayName)).withDefault
        "account_created" (.str account.createdAt)
  match ctx.get? "room_id" with
  | some (.str roomId) =>
    match now.room roomId with
    | none => ctx
    | some (rooms, room) =>
      ((ctx.withDefault "room_name" (.str room.name)).withDefault
        "room_topic" (.str room.topic)).withDefault
        "member_count" (.int (rooms.findMembersByRoom roomId).length)
  | _ => ctx

/-- The appraisals of `process`, one after the other. -/
def appraise (a : Appraiser) (text : String) (ctx : Context) (profile : Profile) :
    Option AppraisalDimensions := do
  let primary ← a.appraisePrimary text ctx
  let secondary ← appraiseSecondary primary profile
  some (computeDimensions primary secondary)

def checkReappraisalNeeded (d : AppraisalDimensions) (emotion : GeneratedEmotion) : Bool :=
  ([.anger, .fear, .disgust].contains emotion.primary && 6 / 10 < emotion.intensity) ||
    (7 / 10 < d.unpleasantness && d.control < 3 / 10)

/-- `_suggest_reappraisal` -/
def suggestReappraisal (emotion : GeneratedEmotion) : String :=
  match emotion.primary with
  | .anger => "相手の意図を再確認し、別の解釈を試みてみる"
  | .fear => "最悪のシナリオを具体的に書き出し、対策を立てる"
  | .disgust => "状況を一歩引いて観察し、学びとして捉え直す"
  | _ => "状況を客観的に再評価してみる"

/-- What the pipeline is given from outside. -/
structure Outside where
  exp : Exp
  appraiser : Appraiser

structure LimbicOrchestrator where
  mood : MoodDynamics
  relationship : RelationshipManager := {}
  state : EmotionStateManager := {}

namespace LimbicOrchestrator

/-- `user_profile or self._relationship.get_profile(account_id)` -/
def profileOf (o : LimbicOrchestrator) (userProfile : Option Profile) (accountId : AccountId) :
    Profile × LimbicOrchestrator :=
  match userProfile.filter (!·.entries.isEmpty) with
  | some profile => (profile, o)
  | none =>
    let (state, relationship) := o.relationship.getState accountId
    (state.profile, { o with relationship })

/-- `process`, with the result when it returns one. -/
def process (out : Outside) (o : LimbicOrchestrator) (now : Moment) (text : String)
    (context : Context) (userProfile : Option Profile) (accountId : AccountId) :
    Option EmotionResult × LimbicOrchestrator :=
  let ctx := enrichContext now context accountId
  let (profile, o) := o.profileOf userProfile accountId
  match appraise out.appraiser text ctx profile, o.mood.getMood out.exp now.readAt with
  | some appraisal, some currentMood =>
    let emotion := EmotionGenerator.generate appraisal (some currentMood)
    match o.mood.update out.exp now.updatedAt emotion with
    | (none, mood) => (none, { o with mood })
    | (some updatedMood, mood) =>
      let (relationship, manager) := o.relationship.update emotion.toCompanionEmotion accountId
        (detectContextType text) (some profile)
      let reappraisalNeeded := checkReappraisalNeeded appraisal emotion
      let result : EmotionResult :=
        { appraisal, emotion, mood := updatedMood, relationship, reappraisalNeeded
          reappraisalSuggestion := if reappraisalNeeded then suggestReappraisal emotion else "" }
      (some result, { mood, relationship := manager, state := o.state.update result })
  | _, _ => (none, o)

end LimbicOrchestrator

/-! ## The events that drive it -/

/-- Of a message the handler reads these fields. -/
structure HeardMessage where
  direction : String
  content : String
  accountId : AccountId
  roomId : String

/-- Someone has come into a room or has left it. -/
structure RoomChange where
  displayName : String
  accountId : AccountId
  roomId : String

inductive LimbicEvent where
  | message (event : HeardMessage)
  | roomJoined (event : RoomChange)
  | roomJoinedBatch
  | roomLeft (event : RoomChange)

/-- `DebugSnapshotEvent` -/
structure DebugSnapshot where
  data : EmotionFullState
  trigger : String

/-- The handler, with the orchestrator and the snapshots it has published. -/
structure LimbicHandler where
  orchestrator : LimbicOrchestrator
  published : List DebugSnapshot := []

namespace LimbicHandler

/-- `_publish_snapshot` -/
def publishSnapshot (h : LimbicHandler) (trigger : String) : LimbicHandler :=
  { h with published := h.published ++ [{ data := h.orchestrator.state.getState, trigger }] }

/-- The context of a message. -/
def messageContext (now : Moment) (event : HeardMessage) : Context :=
  let context : Context := (Dict.empty.set "account_id" (.str event.accountId.1)).set
    "room_id" (.str event.roomId)
  let context := match now.account event.accountId with
    | none => context
    | some account => context.set "display_name" (.str account.displayName)
  match now.room event.roomId with
  | none => context
  | some (_, room) => (context.set "room_name" (.str room.name)).set "room_topic" (.str room.topic)

/-- The context of a change in a room. -/
def changeContext (eventType : String) (event : RoomChange) : Context :=
  ((Dict.empty.set "event_type" (.str eventType)).set
    "display_name" (.str event.displayName)).set "room_id" (.str event.roomId)

/-- `process` and the snapshot after it, when it returns. -/
def run (out : Outside) (h : LimbicHandler) (now : Moment) (text : String) (context : Context)
    (userProfile : Option Profile) (accountId : AccountId) (trigger : String) : LimbicHandler :=
  let (result, orchestrator) := h.orchestrator.process out now text context userProfile accountId
  let h := { h with orchestrator }
  if result.isSome then h.publishSnapshot trigger else h

def onMessage (out : Outside) (h : LimbicHandler) (now : Moment) (event : HeardMessage) :
    LimbicHandler :=
  if event.direction ≠ "request" ∨ event.content = "" then h
  else
    let userProfile := (now.account event.accountId).map fun account =>
      Profile.ofAccount account.profile
    h.run out now event.content (messageContext now event) userProfile event.accountId
      "message_processed"

def onRoomJoined (out : Outside) (h : LimbicHandler) (now : Moment) (event : RoomChange) :
    LimbicHandler :=
  h.run out now ("[system] " ++ event.displayName ++ " が入室しました")
    (changeContext "room_joined" event) none event.accountId "room_joined"

def onRoomLeft (out : Outside) (h : LimbicHandler) (now : Moment) (event : RoomChange) :
    LimbicHandler :=
  h.run out now ("[system] " ++ event.displayName ++ " が退室しました")
    (changeContext "room_left" event) none event.accountId "room_left"

def step (out : Outside) (h : LimbicHandler) : Moment × LimbicEvent → LimbicHandler
  | (now, .message event) => h.onMessage out now event
  | (now, .roomJoined event) => h.onRoomJoined out now event
  | (_, .roomJoinedBatch) => h.publishSnapshot "room_joined_batch"
  | (now, .roomLeft event) => h.onRoomLeft out now event

end LimbicHandler

end IrisMind.Limbic
