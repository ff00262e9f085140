import IrisMind.Transport.Frames

/-! # What a relayed frame keeps

A message that is read from one frame, queued and sent comes out as another
frame. The comparison is made field by field with the frame it came from, and
with that frame after its documented defaults have been filled in. Two things are
lost beyond the defaults: the kind of frame, for a message of the type that
stands for commands, and the spelling of metadata values that read as truth
values. -/
namespace IrisMind.Transport
open IrisMind.Lib IrisMind.Accounts IrisMind.Sessions

/-- The fields a relayed frame is to have in common with the one that was sent. -/
structure Relayed (p q : MessageFrame) : Prop where
  id : q.id = p.id
  msgType : q.msgType = p.msgType
  content : q.content = p.content
  contentType : q.contentType = p.contentType
  direction : q.direction = p.direction
  state : q.state = p.state
  metadata : q.metadata = p.metadata
  speaker : q.speaker = p.speaker
  roomId : q.roomId = p.roomId

/-- What was emitted is a message frame, and it has the fields of `p`. -/
def RelaysAs (p : MessageFrame) (emitted : Option ServerFrame) : Prop :=
  ∃ q, emitted = some (.message q) ∧ Relayed p q

def IdentityFrame.isBlank (i : IdentityFrame) : Bool := i.provider = "" && i.subject = ""

/-- The frame with the documented defaults: the content type of plain text, no state for a number
that names none, and no speaker for an identity without provider and subject. -/
def MessageFrame.withDefaults (p : MessageFrame) : MessageFrame :=
  { p with
    contentType := if p.contentType = "" then "text/plain" else p.contentType
    state := if (nameOf? streamStateMap p.state).isSome then p.state else 0
    speaker := p.speaker.filter fun i => !i.isBlank }

/-- Nothing of the frame is left to the defaults. -/
structure MessageFrame.Explicit (p : MessageFrame) : Prop where
  contentType : p.contentType ≠ ""
  state : p.state = 0 ∨ (nameOf? streamStateMap p.state).isSome = true
  speaker : ∀ i, p.speaker = some i → i.isBlank = false

/-- The value is not a truth value in another spelling than the one truth values print in. -/
def KeepsText (v : String) : Prop :=
  (Text.lower v = "true" → v = "True") ∧ (Text.lower v = "false" → v = "False")

/-- The frame is not taken for a command, and no metadata value is respelled. -/
structure MessageFrame.Kept (p : MessageFrame) : Prop where
  msgType : p.msgType ≠ "command"
  metadata : ∀ e ∈ p.metadata.entries, KeepsText e.2

/-! ## Fields of what is queued -/

variable {wire : Wire} {other : Json → String}

theorem emit_eq {j : Json} (h : j.Textual) : emit wire other j = some (frameOf other j) := by
  rw [emit, wire.load_dump j h]
  rfl

theorem buildMap_ofTexts (l : List (String × String)) :
    buildMap other (some (.ofTexts l)) = .ofList l := by
  have hself : (l.map fun f => (f.1, Json.str f.2)).map (fun f => (f.1, pyStr other f.2)) = l := by
    rw [List.map_map]
    exact List.map_id l
  rw [Json.ofTexts, buildMap, hself]

/-- An identity on the wire. -/
def identityFrame (i : TransportIdentity) : IdentityFrame where
  provider := i.provider
  subject := i.subject
  providerName := i.providerName
  metadata := .ofList i.metadata

variable (other) in
theorem buildIdentity?_dump (i? : Option TransportIdentity) :
    buildIdentity? other (some (dumpIdentity? i?)) = i?.map identityFrame := by
  cases i? with
  | none => rfl
  | some i =>
    simp [buildIdentity?, dumpIdentity?, dumpIdentity, buildIdentityFrame, Json.textAt,
      Json.field?, Dict.lookup, buildMap_ofTexts, identityFrame]

theorem buildMessageFrame_dump (m : Message) :
    buildMessageFrame other (dumpMessage m) =
      { id := m.id, correlationId := m.correlationId.getD "", sessionId := m.sessionId
        sourceRole := m.sourceRole, targetRole := m.targetRole
        direction := numberOf directionMap m.direction.value, msgType := m.msgType
        content := m.content, contentType := m.contentType
        state := numberOf streamStateMap (m.state.getD "")
        metadata := .ofList (m.metadata.map fun f => (f.1, pyStr other f.2))
        speaker := m.speaker.map identityFrame, roomId := m.roomId
        accountId := m.accountId } := by
  have hspeaker := buildIdentity?_dump other m.speaker
  cases hc : m.correlationId <;> cases hs : m.state <;>
    simp [buildMessageFrame, dumpMessage, Json.textAt, Json.field?, Dict.lookup, buildMap,
      Json.ofText?, hc, hs, hspeaker]

/-! ## What is queued can be read back -/

/-- The metadata of an identity has each key once. -/
def Distinct (i? : Option TransportIdentity) : Prop :=
  ∀ i, i? = some i → (i.metadata.map Prod.fst).Nodup

theorem textual_dumpIdentity? {i? : Option TransportIdentity} (h : Distinct i?) :
    (dumpIdentity? i?).Textual := by
  cases i? with
  | none => exact .null
  | some i =>
    refine .obj _ (by simp) ?_
    simp only [List.mem_cons, List.not_mem_nil, or_false, forall_eq_or_imp, forall_eq]
    exact ⟨.str _, .str _, .str _, Json.textual_ofTexts (h i rfl)⟩

theorem textual_dumpMessage {m : Message} (hkeys : (m.metadata.map Prod.fst).Nodup)
    (hvalues : ∀ f ∈ m.metadata, f.2.Textual) (hspeaker : Distinct m.speaker) :
    (dumpMessage m).Textual := by
  refine .obj _ (by simp) ?_
  simp only [List.mem_cons, List.not_mem_nil, or_false, forall_eq_or_imp, forall_eq]
  exact ⟨.str _, Json.textual_ofText? _, .str _, .str _, .str _, .str _, .str _, .str _, .str _,
    .str _, Json.textual_ofText? _, .obj _ hkeys hvalues, textual_dumpIdentity? hspeaker, .str _⟩

/-! ## What is read from a frame -/

/-- A number that names a direction comes back from the direction. -/
theorem numberOf_direction {n : Int} {d : Direction}
    (h : directionOf? (parseDirection n) = some d) : numberOf directionMap d.value = n := by
  unfold parseDirection nameOf? directionMap at h
  by_cases h1 : n = 1
  · subst h1; cases h; rfl
  by_cases h2 : n = 2
  · subst h2; cases h; rfl
  by_cases h3 : n = 3
  · subst h3; cases h; rfl
  by_cases h4 : n = 4
  · subst h4; cases h; rfl
  simp [List.find?, Ne.symm h1, Ne.symm h2, Ne.symm h3, Ne.symm h4, directionOf?] at h

theorem numberOf_streamState (n : Int) :
    numberOf streamStateMap ((parseStreamState n).getD "") =
      if (nameOf? streamStateMap n).isSome then n else 0 := by
  unfold parseStreamState nameOf? streamStateMap
  by_cases h1 : n = 1
  · subst h1; rfl
  by_cases h2 : n = 2
  · subst h2; rfl
  by_cases h3 : n = 3
  · subst h3; rfl
  by_cases h4 : n = 4
  · subst h4; rfl
  simp [List.find?, Ne.symm h1, Ne.symm h2, Ne.symm h3, Ne.symm h4, numberOf]

theorem identityFrame_parse {i? : Option IdentityFrame} {t? : Option TransportIdentity}
    (h : parseIdentity (i?.getD {}) = some t?) :
    t?.map identityFrame = i?.filter fun i => !i.isBlank := by
  unfold parseIdentity at h
  cases i? with
  | none => cases h; rfl
  | some i =>
    rw [Option.getD_some] at h
    rw [Option.filter_some]
    split at h
    · next hblank =>
      have hblank : i.isBlank = true := hblank
      cases h
      rw [hblank]
      rfl
    · next hblank =>
      have hblank : i.isBlank = false := Bool.eq_false_iff.mpr hblank
      rw [hblank]
      simp only [Bool.not_false, if_true]
      split at h
      · cases h
        simp [identityFrame, Dict.ofList_entries]
      · cases h

theorem distinct_parse {i : IdentityFrame} {t? : Option TransportIdentity}
    (h : parseIdentity i = some t?) : Distinct t? := by
  intro t ht
  subst ht
  unfold parseIdentity at h
  split at h
  · cases h
  split at h
  · cases h
    exact i.metadata.nodup
  · cases h

/-! ## Metadata -/

/-- A metadata value as it is printed after it has been read. -/
def respelled (other : Json → String) (v : String) : String := pyStr other (parseMetadataValue v)

theorem respelled_eq_iff (v : String) : respelled other v = v ↔ KeepsText v := by
  unfold respelled parseMetadataValue KeepsText
  by_cases ht : Text.lower v = "true"
  · simp [ht, pyStr, eq_comm]
  · by_cases hf : Text.lower v = "false"
    · simp [hf, pyStr, eq_comm]
    · simp [ht, hf, pyStr]

theorem textual_parseMetadataValue (v : String) : (parseMetadataValue v).Textual := by
  unfold parseMetadataValue
  split
  · exact .bool _
  split
  · exact .bool _
  · exact .str _

variable (other) in
/-- The map of metadata comes out as it went in exactly when every value keeps its text. -/
theorem metadata_relayed_iff (d : Dict String String) :
    .ofList ((parseMessageMetadata d).map fun f => (f.1, pyStr other f.2)) = d ↔
      ∀ e ∈ d.entries, KeepsText e.2 := by
  have hmap : (parseMessageMetadata d).map (fun f => (f.1, pyStr other f.2)) =
      d.entries.map fun e => (e.1, respelled other e.2) := List.map_map
  have hnodup : ((d.entries.map fun e => (e.1, respelled other e.2)).map Prod.fst).Nodup := by
    rw [List.map_map]
    exact d.nodup
  rw [hmap]
  constructor
  · intro h e he
    have hentries := congrArg Dict.entries h
    rw [Dict.entries_ofList hnodup] at hentries
    have hself : d.entries.map (fun e => (e.1, respelled other e.2)) = d.entries.map id := by
      rw [hentries, List.map_id]
    have hpair := List.map_inj_left.mp hself e he
    exact (respelled_eq_iff e.2).mp (congrArg Prod.snd hpair)
  · intro h
    refine Dict.eq_of_entries ?_
    rw [Dict.entries_ofList hnodup]
    refine (List.map_congr_left fun e he => ?_).trans (List.map_id _)
    rw [(respelled_eq_iff e.2).mpr (h e he)]
    rfl

/-! ## The relayed frame -/

/-- What comes out for a frame that could be read, whatever its type. -/
def relayedFrame (other : Json → String) (sessionId sessionRole : String) (p : MessageFrame) :
    MessageFrame :=
  { p.withDefaults with
    sessionId, sourceRole := sessionRole
    targetRole := if p.targetRole = "" then "*" else p.targetRole
    metadata := .ofList ((parseMessageMetadata p.metadata).map fun f => (f.1, pyStr other f.2)) }

theorem emit_parsed {sessionId sessionRole : String} {p : MessageFrame} {msg : Message}
    (h : parseMessage sessionId sessionRole p = some msg) :
    emit wire other (dumpMessage msg) =
      some (if p.msgType = "command" then .command (buildCommandFrame (dumpMessage msg))
        else .message (relayedFrame other sessionId sessionRole p)) := by
  obtain ⟨speaker, direction, hspeaker, hdirection, rfl⟩ := parseMessage_eq_some h
  have hkeys : ((parseMessageMetadata p.metadata).map Prod.fst).Nodup := by
    rw [parseMessageMetadata, List.map_map]
    exact p.metadata.nodup
  have hvalues : ∀ f ∈ parseMessageMetadata p.metadata, f.2.Textual := by
    intro f hf
    obtain ⟨e, _, rfl⟩ := List.mem_map.mp hf
    exact textual_parseMetadataValue e.2
  rw [emit_eq (textual_dumpMessage hkeys hvalues (distinct_parse hspeaker)), frameOf]
  congr 1
  have htype : ∀ m : Message, (dumpMessage m).textAt "msg_type" = m.msgType := fun m => by
    simp [dumpMessage, Json.textAt, Json.field?, Dict.lookup]
  have haction : ∀ m : Message, (dumpMessage m).textAt "action" = "" := fun m => by
    simp [dumpMessage, Json.textAt, Json.field?, Dict.lookup]
  rw [htype, haction]
  congr 1
  simp only [ne_eq, not_true_eq_false, if_false]
  rw [buildMessageFrame_dump, numberOf_direction hdirection, numberOf_streamState,
    identityFrame_parse hspeaker]
  have hcorrelation : (if p.correlationId = "" then none else some p.correlationId).getD "" =
      p.correlationId := by
    split
    · next h => rw [h]; rfl
    · rfl
  rw [hcorrelation]
  rfl

theorem relaysAs_iff {sessionId sessionRole : String} {p : MessageFrame} {msg : Message}
    (h : parseMessage sessionId sessionRole p = some msg) (asked : MessageFrame) :
    RelaysAs asked (emit wire other (dumpMessage msg)) ↔ p.msgType ≠ "command" ∧
      Relayed asked (relayedFrame other sessionId sessionRole p) := by
  rw [emit_parsed h]
  constructor
  · intro hrelays
    obtain ⟨q, hq, hsame⟩ := hrelays
    split at hq
    · cases hq
    · next hne =>
      cases hq
      exact ⟨hne, hsame⟩
  · intro hrelays
    obtain ⟨hne, hsame⟩ := hrelays
    exact ⟨_, by rw [if_neg hne], hsame⟩

theorem relayed_withDefaults_iff (sessionId sessionRole : String) (p : MessageFrame) :
    Relayed p.withDefaults (relayedFrame other sessionId sessionRole p) ↔
      ∀ e ∈ p.metadata.entries, KeepsText e.2 := by
  rw [← metadata_relayed_iff other]
  constructor
  · intro h
    exact h.metadata
  · intro h
    exact ⟨rfl, rfl, rfl, rfl, rfl, rfl, h, rfl, rfl⟩

theorem MessageFrame.withDefaults_eq_iff (p : MessageFrame) :
    (p.withDefaults.contentType = p.contentType ∧ p.withDefaults.state = p.state ∧
      p.withDefaults.speaker = p.speaker) ↔ p.Explicit := by
  have htype : p.withDefaults.contentType = p.contentType ↔ p.contentType ≠ "" := by
    unfold withDefaults
    by_cases h : p.contentType = ""
    · simp [h]
    · simp [h]
  have hstate : p.withDefaults.state = p.state ↔
      p.state = 0 ∨ (nameOf? streamStateMap p.state).isSome = true := by
    unfold withDefaults
    cases (nameOf? streamStateMap p.state).isSome with
    | true => simp
    | false => simp [eq_comm]
  have hspeaker : p.withDefaults.speaker = p.speaker ↔
      ∀ i, p.speaker = some i → i.isBlank = false := by
    unfold withDefaults
    cases p.speaker with
    | none => simp
    | some i => simp [Option.filter_some]
  rw [htype, hstate, hspeaker]
  constructor
  · intro hfields
    obtain ⟨h1, h2, h3⟩ := hfields
    exact ⟨h1, h2, h3⟩
  · intro h
    exact ⟨h.contentType, h.state, h.speaker⟩

theorem relayed_iff (sessionId sessionRole : String) (p : MessageFrame) :
    Relayed p (relayedFrame other sessionId sessionRole p) ↔
      (∀ e ∈ p.metadata.entries, KeepsText e.2) ∧ p.Explicit := by
  rw [← metadata_relayed_iff other, ← MessageFrame.withDefaults_eq_iff]
  constructor
  · intro h
    exact ⟨h.metadata, h.contentType, h.state, h.speaker⟩
  · intro hfields
    obtain ⟨hmeta, htype, hstate, hspeaker⟩ := hfields
    exact ⟨rfl, rfl, rfl, htype, rfl, hstate, hmeta, hspeaker, rfl⟩

/-! ## Command output and control messages -/

structure SameCommand (c : CommandOutput) (f : CommandOutputFrame) : Prop where
  id : f.id = c.id
  correlationId : f.correlationId = c.correlationId.getD ""
  sessionId : f.sessionId = c.sessionId
  msgType : f.msgType = c.msgType
  content : f.content = c.content
  state : f.state = c.state.getD ""

structure SameControl (c : ControlMessage) (f : ControlFrame) : Prop where
  action : f.action = c.action
  displayName : f.displayName = c.displayName
  text : f.text = c.text
  accountId : f.accountId = c.accountId
  identity : f.identity = c.identity.map identityFrame
  profile : f.profile = c.profile
  roomId : f.roomId = c.roomId
  metadata : f.metadata = c.metadata

theorem emit_commandOutput (c : CommandOutput) :
    (∃ f, emit wire other (dumpCommandOutput c) = some (.command f) ∧ SameCommand c f) ↔
      c.msgType = "command" := by
  have htextual : (dumpCommandOutput c).Textual := by
    refine .obj _ (by simp) ?_
    simp only [List.mem_cons, List.not_mem_nil, or_false, forall_eq_or_imp, forall_eq]
    exact ⟨.str _, Json.textual_ofText? _, .str _, .str _, .str _, Json.textual_ofText? _⟩
  have htype : (dumpCommandOutput c).textAt "msg_type" = c.msgType := by
    simp [dumpCommandOutput, Json.textAt, Json.field?, Dict.lookup]
  have haction : (dumpCommandOutput c).textAt "action" = "" := by
    simp [dumpCommandOutput, Json.textAt, Json.field?, Dict.lookup]
  have hsame : SameCommand c (buildCommandFrame (dumpCommandOutput c)) := by
    cases hc : c.correlationId <;> cases hs : c.state <;> constructor <;>
      simp [buildCommandFrame, dumpCommandOutput, Json.textAt, Json.field?, Dict.lookup,
        Json.ofText?, hc, hs]
  rw [emit_eq htextual, frameOf, htype, haction]
  constructor
  · intro hemitted
    obtain ⟨f, hf, _⟩ := hemitted
    by_contra hne
    rw [if_neg hne] at hf
    cases hf
  · intro h
    exact ⟨_, by rw [if_pos h], hsame⟩

theorem emit_control {c : ControlMessage} (haction : c.action ≠ "") (hi : Distinct c.identity) :
    ∃ f, emit wire other (dumpControl c) = some (.control f) ∧ SameControl c f := by
  have htextual : (dumpControl c).Textual := by
    refine .obj _ (by simp) ?_
    simp only [List.mem_cons, List.not_mem_nil, or_false, forall_eq_or_imp, forall_eq]
    exact ⟨.str _, .str _, .str _, .str _, .str _, textual_dumpIdentity? hi,
      Json.textual_ofTexts c.profile.nodup, Json.textual_ofTexts c.metadata.nodup⟩
  have htype : (dumpControl c).textAt "msg_type" = "" := by
    simp [dumpControl, Json.textAt, Json.field?, Dict.lookup]
  have htext : (dumpControl c).textAt "action" = c.action := by
    simp [dumpControl, Json.textAt, Json.field?, Dict.lookup]
  have hidentity := buildIdentity?_dump other c.identity
  refine ⟨setControlFrame other (dumpControl c), ?_, ?_⟩
  · rw [emit_eq htextual, frameOf, htype, htext, if_neg (by decide), if_pos haction]
  · constructor <;>
      simp [setControlFrame, dumpControl, Json.textAt, Json.field?, Dict.lookup, hidentity,
        buildMap_ofTexts, Dict.ofList_entries]

/-- On every wire: the frame that comes out for a message frame is a message frame with the same
fields exactly when the frame is kept and leaves nothing to the defaults; it is one with the same
fields after the defaults exactly when the frame is kept. Command output comes out as a command
frame exactly when it has the type of a command, and a control message with an action always comes
out as a control frame. -/
theorem relay_faithful_iff (wire : Wire) (other : Json → String) :
    (∀ (sessionId sessionRole : String) (p : MessageFrame) (msg : Message),
      parseMessage sessionId sessionRole p = some msg →
        (RelaysAs p (emit wire other (dumpMessage msg)) ↔ p.Kept ∧ p.Explicit) ∧
          (RelaysAs p.withDefaults (emit wire other (dumpMessage msg)) ↔ p.Kept)) ∧
      (∀ c : CommandOutput,
        (∃ f, emit wire other (dumpCommandOutput c) = some (.command f) ∧ SameCommand c f) ↔
          c.msgType = "command") ∧
      ∀ c : ControlMessage, c.action ≠ "" → Distinct c.identity →
        ∃ f, emit wire other (dumpControl c) = some (.control f) ∧ SameControl c f := by
  refine ⟨fun sessionId sessionRole p msg h => ⟨?_, ?_⟩, emit_commandOutput,
    fun c haction hi => emit_control haction hi⟩
  · rw [relaysAs_iff h, relayed_iff]
    constructor
    · intro hkeeps
      obtain ⟨hne, hmeta, hexplicit⟩ := hkeeps
      exact ⟨⟨hne, hmeta⟩, hexplicit⟩
    · intro hkeeps
      obtain ⟨hkept, hexplicit⟩ := hkeeps
      exact ⟨hkept.msgType, hkept.metadata, hexplicit⟩
  · rw [relaysAs_iff h, relayed_withDefaults_iff]
    constructor
    · intro hkeeps
      obtain ⟨hne, hmeta⟩ := hkeeps
      exact ⟨hne, hmeta⟩
    · intro hkept
      exact ⟨hkept.msgType, hkept.metadata⟩

/-- A chat message to another client, with one metadata value. -/
def noteFrame (value : String) : MessageFrame where
  id := "1"
  targetRole := "ui"
  direction := 1
  msgType := "chat"
  content := "hi"
  contentType := "text/plain"
  metadata := .ofList [("note", value)]

theorem relay_faithful_note :
    RelaysAs (noteFrame "plain") (emit Wire.plain (fun _ => "")
      (dumpMessage { id := "1", sessionId := "s", sourceRole := "bot", targetRole := "ui",
                     direction := .request, msgType := "chat", content := "hi",
                     metadata := [("note", .str "plain")] })) := by
  refine ((relay_faithful_iff Wire.plain fun _ => "").1 "s" "bot" (noteFrame "plain") _ rfl).1.mpr
    ⟨⟨by decide, ?_⟩, ⟨by decide, .inl rfl, ?_⟩⟩
  · intro e he
    rw [List.mem_singleton.mp he]
    exact ⟨by decide, by decide⟩
  · intro i hi
    cases hi

/-- The text `true` in the metadata comes out as `True`. -/
theorem truth_value_respelled :
    ¬ ∀ (wire : Wire) (other : Json → String) (sessionId sessionRole : String) (p : MessageFrame)
      (msg : Message), parseMessage sessionId sessionRole p = some msg →
        RelaysAs p (emit wire other (dumpMessage msg)) := by
  intro h
  have hnote := h Wire.plain (fun _ => "") "s" "bot" (noteFrame "true") _ rfl
  have hread : parseMessage "s" "bot" (noteFrame "true") = some _ := rfl
  obtain ⟨_, hsame⟩ := (relaysAs_iff hread _).mp hnote
  have hkept := ((relayed_iff "s" "bot" (noteFrame "true")).mp hsame).1 ("note", "true")
    List.mem_cons_self
  exact absurd (hkept.1 (by decide)) (by decide)

end IrisMind.Transport
