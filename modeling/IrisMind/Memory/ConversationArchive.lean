import IrisMind.Execution.Streams
import IrisMind.Memory.Archive

/-! # What the archive hears

The archive listens to the message events of the bus and keeps the requests and
the responses among them. What the graph publishes of an answer are the events
of a stream, and what a client says goes over the bus as input that is ready, so
a system that only runs its graph archives nothing. -/
namespace IrisMind.Memory
open IrisMind.Lib IrisMind.Events IrisMind.Execution

namespace ConversationRecord

inductive Direction where
  | inbound
  | outbound
  | system
deriving DecidableEq

def Direction.value : Direction → String
  | inbound => "inbound"
  | outbound => "outbound"
  | system => "system"

inductive Role where
  | user
  | assistant
  | system
  | tool
deriving DecidableEq

def Role.value : Role → String
  | user => "user"
  | assistant => "assistant"
  | system => "system"
  | tool => "tool"

end ConversationRecord

/-- A record of the archive; its identifier and its time are drawn where none are given. -/
structure ConversationRecord where
  id : String
  timestamp : String
  direction : ConversationRecord.Direction := .inbound
  role : ConversationRecord.Role := .user
  content : String := ""
  roomId : String := ""
  accountId : String := ""
  sessionId : String := ""
  source : String := ""
  messageType : String := ""
  metadata : List (String × Json) := []

def ConversationRecord.toDict (r : ConversationRecord) : Json :=
  .obj [("id", .str r.id), ("timestamp", .str r.timestamp), ("direction", .str r.direction.value),
    ("role", .str r.role.value), ("content", .str r.content), ("room_id", .str r.roomId),
    ("account_id", .str r.accountId), ("session_id", .str r.sessionId), ("source", .str r.source),
    ("message_type", .str r.messageType), ("metadata", .obj r.metadata)]

/-- What a call finds around it: the identifier and the time a new record draws, those the store
has for a record without, the date its clock reads, and how many files it may remove. -/
structure Surroundings where
  id : String
  timestamp : String
  spareId : String
  spareTimestamp : String
  date : Date
  unlinked : Nat

/-- The policy with its switch. -/
structure ArchiveSettings extends ArchivePolicy where
  enabled : Bool := true

namespace RawConversationArchiveStore

/-- `_coerce`, of a record. -/
def coerce (w : Surroundings) (r : ConversationRecord) : ConversationRecord :=
  { r with
    id := if r.id = "" then w.spareId else r.id
    timestamp := if r.timestamp = "" then w.spareTimestamp else r.timestamp }

/-- `append`, where nothing raises: the archive, and the identifier of the record. -/
def appendRecord (o : JsonText) (settings : ArchiveSettings) (a : Archive) (w : Surroundings)
    (r : ConversationRecord) : Archive × Option String :=
  if settings.enabled then
    let payload := coerce w r
    (append o settings.toArchivePolicy a ⟨w.date, payload.toDict, w.unlinked⟩, some payload.id)
  else (a, none)

end RawConversationArchiveStore

structure ArchiveEventHandler where
  includeOutbound : Bool := true

namespace ArchiveEventHandler
open RawConversationArchiveStore

/-- What reaches the handler: an event with its source, or a text by the hook for answers. -/
inductive Call where
  | messageEvent (event : MessageEvent) (source : String)
  | responseText (text accountId roomId sessionId source : String)

/-- `event.source_role or event.source or default` -/
def sourceOf (event : MessageEvent) (source default : String) : String :=
  if event.sourceRole ≠ "" then event.sourceRole else if source ≠ "" then source else default

def archiveInbound (w : Surroundings) (event : MessageEvent) (source : String) :
    ConversationRecord where
  id := w.id
  timestamp := w.timestamp
  direction := .inbound
  role := .user
  content := event.content
  accountId := event.accountId
  roomId := event.roomId
  sessionId := event.sessionId
  source := sourceOf event source ""
  messageType := event.msgType

def archiveOutbound (w : Surroundings) (event : MessageEvent) (source : String) :
    ConversationRecord where
  id := w.id
  timestamp := w.timestamp
  direction := .outbound
  role := .assistant
  content := event.content
  accountId := event.accountId
  roomId := event.roomId
  sessionId := event.sessionId
  source := sourceOf event source "assistant"
  messageType := event.msgType

/-- `_on_message_event`: the record of an event, if it is to have one. -/
def onMessageEvent (h : ArchiveEventHandler) (w : Surroundings) (event : MessageEvent)
    (source : String) : Option ConversationRecord :=
  if event.content = "" then none
  else if event.direction = "request" ∧ event.msgType ∈ ["chat", "system"] then
    some (archiveInbound w event source)
  else if event.direction = "response" ∧ h.includeOutbound = true then
    some (archiveOutbound w event source)
  else none

def archiveResponseText (w : Surroundings) (text accountId roomId sessionId source : String) :
    Option ConversationRecord :=
  if text = "" then none
  else some
    { id := w.id, timestamp := w.timestamp, direction := .outbound, role := .assistant
      content := text, accountId, roomId, sessionId, source, messageType := "chat" }

def record? (h : ArchiveEventHandler) (w : Surroundings) : Call → Option ConversationRecord
  | .messageEvent event source => h.onMessageEvent w event source
  | .responseText text accountId roomId sessionId source =>
    archiveResponseText w text accountId roomId sessionId source

def step (o : JsonText) (settings : ArchiveSettings) (h : ArchiveEventHandler) (a : Archive)
    (i : Surroundings × Call) : Archive :=
  match h.record? i.1 i.2 with
  | some r => (appendRecord o settings a i.1 r).1
  | none => a

/-! ## Reading back -/

/-- What a call puts into the archive. -/
def append? (h : ArchiveEventHandler) (i : Surroundings × Call) : Option Append :=
  (h.record? i.1 i.2).map fun r => ⟨i.1.date, (coerce i.1 r).toDict, i.1.unlinked⟩

def appends (h : ArchiveEventHandler) (is : List (Surroundings × Call)) : List Append :=
  is.filterMap h.append?

section Runs

variable {o : JsonText} {settings : ArchiveSettings} {h : ArchiveEventHandler} {a : Archive}

theorem step_eq (henabled : settings.enabled = true) (i : Surroundings × Call) :
    step o settings h a i = (h.append? i).elim a (append o settings.toArchivePolicy a) := by
  unfold step append?
  cases h.record? i.1 i.2 with
  | none => rfl
  | some r => exact congrArg Prod.fst (if_pos henabled)

theorem run_eq (henabled : settings.enabled = true) (is : List (Surroundings × Call)) :
    Machine.run (step o settings h) a is =
      Machine.run (append o settings.toArchivePolicy) a (h.appends is) := by
  induction is generalizing a with
  | nil => rfl
  | cons i is ih =>
    rw [Machine.run_cons, step_eq henabled, ih]
    cases hi : h.append? i with
    | none => rw [appends, appends, List.filterMap_cons_none hi, Option.elim_none]
    | some j =>
      rw [appends, appends, List.filterMap_cons_some hi, Option.elim_some, Machine.run_cons]

end Runs

end ArchiveEventHandler

namespace RawConversationArchiveStore

section Runs

variable {o : JsonText} {policy : ArchivePolicy} {a : Archive}

/-- Appends that fit keep the files in order. -/
theorem orderly_run {old : List (FileName × Json)} {blocks : List (FileName × List Json)}
    (h : Orderly o a old blocks) {js : List Append}
    (hdates : ∀ b ∈ blocks, ∀ j ∈ js, b.1.date ≤ j.date)
    (hclock : (js.map (·.date)).Pairwise (· ≤ ·)) (hrecords : ∀ j ∈ js, IsRecord o j.payload)
    (hfits : Machine.Guarded (append o policy) (Fits policy) a js) :
    ∃ old' blocks', Orderly o (Machine.run (append o policy) a js) old' blocks' := by
  induction js generalizing a old blocks with
  | nil => exact ⟨old, blocks, h⟩
  | cons j js ih =>
    obtain ⟨hfirst, hrest⟩ := List.pairwise_cons.mp hclock
    obtain ⟨_, _, hnext, hdates'⟩ := h.append
      (fun b hb => hdates b hb j List.mem_cons_self) (hrecords j List.mem_cons_self) hfits.1
    refine ih hnext (fun b hb k hk => ?_) hrest
      (fun k hk => hrecords k (List.mem_cons_of_mem _ hk)) hfits.2
    exact Nat.le_trans (hdates' b hb) (hfirst _ (List.mem_map_of_mem hk))

theorem history_run (js : List Append) :
    (Machine.run (append o policy) a js).history.map Prod.snd =
      a.history.map Prod.snd ++ js.map (·.payload) := by
  induction js generalizing a with
  | nil => exact (List.append_nil _).symm
  | cons j js ih =>
    rw [Machine.run_cons, ih, append, List.map_append, List.map_cons, List.append_assoc]
    rfl

/-- What a faithful archive reads back is the end of what was appended, the newest included. -/
theorem Faithful.reads_back (h : Faithful o a) :
    loadFiles o a <:+ a.history.map Prod.snd ∧
      (loadFiles o a).getLast? = (a.history.map Prod.snd).getLast? := by
  have hsuffix : loadFiles o a <:+ a.history.map Prod.snd := h.loads ▸ h.oldest.map Prod.snd
  refine ⟨hsuffix, ?_⟩
  cases hlast : a.history.getLast? with
  | none =>
    rw [List.getLast?_eq_none_iff.mp hlast, List.map_nil] at hsuffix ⊢
    rw [List.suffix_nil.mp hsuffix]
  | some e =>
    have hne : loadFiles o a ≠ [] := by
      rw [h.loads]
      exact List.ne_nil_of_mem (List.mem_map_of_mem (h.newest e hlast))
    obtain ⟨gone, hgone⟩ := hsuffix
    rw [← hgone, List.getLast?_append_of_ne_nil gone hne]

end Runs

end RawConversationArchiveStore

namespace ArchiveEventHandler
open RawConversationArchiveStore

/-- What a run of the graph publishes is not kept. -/
theorem onMessageEvent_streamEvent (h : ArchiveEventHandler) (w : Surroundings)
    {plan : Planning.Plan} {state : StreamState} {content : String} (source : String) :
    h.onMessageEvent w (streamEvent plan state content) source = none := by
  have hdirection : (streamEvent plan state content).direction = "stream" := rfl
  simp [onMessageEvent, hdirection]

/-- An event that a run of the graph has published, whatever its plan and its inputs. -/
def Call.Published : Call → Prop
  | .messageEvent event _ => ∃ (env : Env) (plan : Planning.Plan) (messages : List Msg)
      (inputs : List Input), event ∈ (reach env plan messages inputs).log.filterMap Effect.event?
  | .responseText .. => False

theorem record?_of_published (h : ArchiveEventHandler) (w : Surroundings) {call : Call}
    (hcall : call.Published) : h.record? w call = none := by
  cases call with
  | messageEvent event source =>
    obtain ⟨env, plan, messages, inputs, hevent⟩ := hcall
    obtain ⟨-, state, content, rfl⟩ := mem_reach_events hevent
    exact h.onMessageEvent_streamEvent w source
  | responseText text accountId roomId sessionId source => cases hcall

theorem run_published {o : JsonText} {settings : ArchiveSettings} {a : Archive}
    (h : ArchiveEventHandler) {is : List (Surroundings × Call)}
    (his : ∀ i ∈ is, i.2.Published) : Machine.run (step o settings h) a is = a := by
  induction is with
  | nil => rfl
  | cons i is ih =>
    have hsame : step o settings h a i = a := by
      rw [step, h.record?_of_published i.1 (his i List.mem_cons_self)]
    rw [Machine.run_cons, hsame, ih fun j hj => his j (List.mem_cons_of_mem i hj)]

/-- What is read of the archive is the end of the records of the requests and responses that were
heard, in order and with the newest, as long as each fits. A system of which only the graph
publishes messages keeps nothing, whatever the runs do. -/
theorem conversation_archived (o : JsonText) (settings : ArchiveSettings)
    (h : ArchiveEventHandler) (is : List (Surroundings × Call)) :
    (settings.enabled = true →
      ((h.appends is).map (·.date)).Pairwise (· ≤ ·) →
      (∀ j ∈ h.appends is, o.loads (o.dumps j.payload) = some j.payload) →
      Machine.Guarded (append o settings.toArchivePolicy) (Fits settings.toArchivePolicy) {}
        (h.appends is) →
      let read := loadFiles o (Machine.run (step o settings h) {} is)
      read <:+ (h.appends is).map (·.payload) ∧
        read.getLast? = ((h.appends is).map (·.payload)).getLast?) ∧
    ∀ a, (∀ i ∈ is, i.2.Published) → Machine.run (step o settings h) a is = a := by
  constructor
  · intro henabled hclock hreads hfits
    have hrecords : ∀ j ∈ h.appends is, IsRecord o j.payload := by
      intro j hj
      obtain ⟨i, -, hi⟩ := List.mem_filterMap.mp hj
      obtain ⟨r, -, rfl⟩ := Option.map_eq_some_iff.mp hi
      exact ⟨⟨_, rfl⟩, hreads _ hj⟩
    have hempty : Orderly o {} [] [] := ⟨rfl, rfl, ⟨.nil, fun _ hn => absurd hn List.not_mem_nil⟩,
      fun _ he => absurd he List.not_mem_nil, fun _ hb => absurd hb List.not_mem_nil,
      fun _ hb => absurd hb List.not_mem_nil, fun _ => rfl⟩
    obtain ⟨old, blocks, horderly⟩ := orderly_run hempty
      (fun _ hb => absurd hb List.not_mem_nil) hclock hrecords hfits
    have hback := horderly.faithful.reads_back
    rw [history_run, List.map_nil, List.nil_append] at hback
    rw [run_eq henabled]
    exact hback
  · exact fun a hpublished => h.run_published hpublished

/-- A greeting in a room, on the first of March. -/
def greeting : Surroundings × Call :=
  (⟨"id", "2026-03-01T09:00:00+00:00", "spare", "2026-03-01T09:00:00+00:00", firstOfMarch, 0⟩,
    .messageEvent { direction := "request", msgType := "chat", content := "hi", roomId := "r" }
      "io")

/-- What is answered. -/
def reply : Surroundings × Call :=
  (⟨"id2", "2026-03-01T09:00:01+00:00", "spare", "2026-03-01T09:00:01+00:00", firstOfMarch, 0⟩,
    .messageEvent
      { direction := "response", msgType := "chat", content := "hello", roomId := "r" } "io")

/-- The record of the greeting, and that of the answer. -/
def exchange : List Json := (appends {} [greeting, reply]).map (·.payload)

/-- Of the two the answer is read last. -/
theorem conversation_archived_greeting :
    let read := loadFiles (.ofTable plainWriter exchange)
      (Machine.run (step (.ofTable plainWriter exchange) {} {}) {} [greeting, reply])
    read <:+ exchange ∧ read.getLast? = exchange.getLast? := by
  have hunbroken : ∀ r ∈ exchange,
      (r.texts.all fun s => s.toList.all fun c => !Text.isBreak c) = true := by decide +kernel
  have hpayload : ∀ j ∈ appends {} [greeting, reply], j.payload ∈ exchange := fun j hj =>
    List.mem_map_of_mem hj
  obtain ⟨first, second, happends⟩ : ∃ first second, appends {} [greeting, reply] =
      [⟨firstOfMarch, first, 0⟩, ⟨firstOfMarch, second, 0⟩] := ⟨_, _, rfl⟩
  refine (conversation_archived (.ofTable plainWriter exchange) {} {} [greeting, reply]).1 rfl
    ?_ (fun j hj => ?_) ?_
  · rw [happends]
    exact List.pairwise_pair.mpr (Date.le_refl firstOfMarch)
  · obtain ⟨i, -, hi⟩ := List.mem_filterMap.mp hj
    obtain ⟨r, -, rfl⟩ := Option.map_eq_some_iff.mp hi
    exact (isRecord_of_mem_table (by decide +kernel) (hpayload _ hj) rfl).reads
  · have hunbroken' : ∀ j ∈ appends {} [greeting, reply], j.payload.Unbroken := fun j hj =>
      unbroken_of_all (hunbroken _ (hpayload j hj))
    rw [happends] at hunbroken' ⊢
    refine ⟨⟨fun f hf => absurd hf List.not_mem_nil, hunbroken' _ (by simp)⟩,
      ⟨fun f hf _ _ => ?_, hunbroken' _ (by simp)⟩, trivial⟩
    have hnames : (append (.ofTable plainWriter exchange) {} {}
        ⟨firstOfMarch, first, 0⟩).files.map (·.name) = [⟨firstOfMarch, none⟩] := rfl
    have hname : f.name ∈ [⟨firstOfMarch, none⟩] := hnames ▸ List.mem_map_of_mem hf
    rw [List.mem_singleton.mp hname]
    exact Nat.zero_lt_succ _

end ArchiveEventHandler

end IrisMind.Memory
