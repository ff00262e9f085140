import IrisMind.Lib.Machine
import IrisMind.Events
import IrisMind.Memory.Sensory

/-! # Delivering inputs

A chat input is stored twice, as the last input of its room and as pending for
its account there. A tick delivers the last inputs of all rooms and forgets what
is pending. A join or a leave delivers what is pending, in all rooms, and then
clears its own. -/
namespace IrisMind.Memory
open IrisMind.Lib IrisMind.Events

/-- What has come in: a message, or the text for a join or a leave. -/
structure SensoryInput where
  content : String
  accountId : String
  roomId : String
  sessionId : String := ""
  chat : Bool
deriving DecidableEq

/-- What is published; `input` is the number of the input an `InputReady` is about. -/
inductive SensoryOutput where
  | interrupt (roomId : String)
  | inputReady (input : Nat) (e : InputReady)

/-- The sensory memory, with all that came in and all that was published. -/
structure SensoryMemoryManager where
  store : SensoryStore := {}
  inputs : List SensoryInput := []
  outputs : List SensoryOutput := []

def PendingInputEntry.outputs (entry : PendingInputEntry) : List SensoryOutput :=
  [.interrupt entry.roomId, .inputReady entry.input
    { content := entry.content, accountId := entry.accountId, roomId := entry.roomId }]

def RawInput.outputs (raw : RawInput) : List SensoryOutput :=
  [.interrupt raw.roomId, .inputReady raw.input
    { content := if raw.block.type = some "text" then raw.block.textOrEmpty else ""
      accountId := raw.accountId, roomId := raw.roomId, sessionId := raw.sessionId }]

namespace SensoryMemoryManager

variable (s : SensoryMemoryManager)

def flushPending : SensoryMemoryManager :=
  let (pending, store) := s.store.takePendingInput
  { s with store, outputs := s.outputs ++ pending.values.flatten.flatMap (·.outputs) }

def storeAndFlushPendingBlock (block : ContentBlock) (accountId roomId : String) :
    SensoryMemoryManager :=
  let input := s.inputs.length
  let s : SensoryMemoryManager := { s with
    inputs := s.inputs ++ [{ content := block.textOrEmpty, accountId, roomId, chat := false }]
    store := (s.store.storeRawBlock input block roomId accountId "").addPendingInput input
      accountId roomId block.textOrEmpty }
  let s := s.flushPending
  { s with store := s.store.clear roomId }

/-! ## The handler of events -/

def onMessageEvent (e : MessageEvent) : SensoryMemoryManager :=
  if e.content = "" then s
  else if e.direction ∉ ["request", "event"] ∨ e.msgType ∉ ["chat", "system"] then s
  else
    let input := s.inputs.length
    { s with
      inputs := s.inputs ++ [{ content := e.content, accountId := e.accountId,
                               roomId := e.roomId, sessionId := e.sessionId, chat := true }]
      store := (s.store.storeRawBlock input (textBlock e.content) e.roomId e.accountId
        e.sessionId).addPendingInput input e.accountId e.roomId e.content }

/-- The loop of `_on_timer_tick`, and whether it found an input. -/
def tickLoop : List String → SensoryMemoryManager → Bool × SensoryMemoryManager
  | [], s => (false, s)
  | roomId :: rest, s =>
    match s.store.takeRaw roomId with
    | (none, _) => tickLoop rest s
    | (some raw, store) =>
      (true, (tickLoop rest { s with store, outputs := s.outputs ++ raw.outputs }).2)

def onTimerTick (activeRooms : List String) : SensoryMemoryManager :=
  let (processed, s) := tickLoop activeRooms s
  if processed then { s with store := s.store.clearPendingInput } else s.flushPending

def onRoomJoined (e : RoomJoinedEvent) : SensoryMemoryManager :=
  s.storeAndFlushPendingBlock (systemEventBlock ("[system] " ++ e.displayName ++ " が入室しました"))
    e.accountId e.roomId

def onRoomJoinedBatch (joins : List RoomJoinedEvent) : SensoryMemoryManager :=
  match joins with
  | [] => s
  | first :: others =>
    let text := if others.length + 1 > 1
      then "[system] " ++ first.displayName ++ " 他" ++ toString others.length ++ "名が入室しました"
      else "[system] " ++ first.displayName ++ " が入室しました"
    s.storeAndFlushPendingBlock (systemEventBlock text) first.accountId first.roomId

def onRoomLeft (e : RoomLeftEvent) : SensoryMemoryManager :=
  s.storeAndFlushPendingBlock (systemEventBlock ("[system] " ++ e.displayName ++ " が退室しました"))
    e.accountId e.roomId

/-- A tick goes over the active rooms in any order, that of a set. Fragments are added and taken
by the assembler. -/
inductive Step where
  | message (e : MessageEvent)
  | joined (e : RoomJoinedEvent)
  | joinedBatch (joins : List RoomJoinedEvent)
  | left (e : RoomLeftEvent)
  | tick (activeRooms : List String)
  | addFragment (block : ContentBlock) (roomId : String)
  | takeFragments (roomId : String)

def step : Step → SensoryMemoryManager
  | .message e => s.onMessageEvent e
  | .joined e => s.onRoomJoined e
  | .joinedBatch joins => s.onRoomJoinedBatch joins
  | .left e => s.onRoomLeft e
  | .tick activeRooms =>
    if activeRooms.Perm s.store.getActiveRoomIds then s.onTimerTick activeRooms else s
  | .addFragment block roomId => { s with store := s.store.addFragment block roomId }
  | .takeFragments roomId => { s with store := (s.store.takeFragments roomId).2 }

/-- Who comes or goes, and where. -/
def Step.change : Step → Option (String × String)
  | .joined e => some (e.accountId, e.roomId)
  | .joinedBatch joins => joins.head?.map fun first => (first.accountId, first.roomId)
  | .left e => some (e.accountId, e.roomId)
  | _ => none

/-! ## What is promised -/

/-- The numbers of the inputs that were published. -/
def published : List Nat :=
  s.outputs.filterMap fun
    | .interrupt _ => none
    | .inputReady input _ => some input

def IsChat (k : Nat) (i : SensoryInput) : Prop := s.inputs[k]? = some i ∧ i.chat = true

/-- Chat input `k` is the last one of its room. -/
def Latest (k : Nat) (i : SensoryInput) : Prop :=
  s.IsChat k i ∧ ∀ l j, s.IsChat l j → j.roomId = i.roomId → l ≤ k

/-- A copy of input `k` is still there. -/
def Stored (k : Nat) : Prop :=
  (∃ room raw, s.store.rawInputs.get? room = some raw ∧ raw.input = k) ∨
    ∃ key entries, s.store.pendingInput.get? key = some entries ∧ ∃ e ∈ entries, e.input = k

end SensoryMemoryManager

namespace SensoryInput

variable (i : SensoryInput) (k : Nat)

/-- What is to be published of a message. -/
def ready : InputReady :=
  { content := i.content, accountId := i.accountId, roomId := i.roomId, sessionId := i.sessionId }

/-- What is published is what was sent, in its session or in none. -/
def Told (e : InputReady) : Prop := e = i.ready ∨ e = { i.ready with sessionId := "" }

def raw : RawInput where
  input := k
  block := textBlock i.content
  roomId := i.roomId
  accountId := i.accountId
  sessionId := i.sessionId

def key : PendingInputKey := ⟨i.accountId, i.roomId⟩

def entry : PendingInputEntry := ⟨k, i.content, i.accountId, i.roomId⟩

end SensoryInput

namespace SensoryMemoryManager

variable (s : SensoryMemoryManager)

/-- What a step does to the inputs: none is published twice or as another than it was, a tick
publishes the last one of each room in its session, and somebody who comes or goes takes nothing
away. -/
structure Delivers (i : Step) : Prop where
  once : (s.step i).published.Nodup
  told : ∀ k e input, .inputReady k e ∈ (s.step i).outputs → (s.step i).IsChat k input →
    input.Told e
  latest : ∀ rooms, i = .tick rooms → rooms.Perm s.store.getActiveRoomIds →
    ∀ k input, s.Latest k input → k ∉ s.published →
      .inputReady k input.ready ∈ (s.step i).outputs
  session : ∀ rooms, i = .tick rooms → ∀ k e input, .inputReady k e ∈ (s.step i).outputs →
    k ∉ s.published → (s.step i).IsChat k input → e = input.ready
  kept : ∀ k input, i.change.isSome → s.IsChat k input → s.Stored k →
    k ∈ (s.step i).published ∨ (s.step i).Stored k
  fragments : i.change.isSome → ∀ room,
    (s.step i).store.fragments.getD room [] = s.store.fragments.getD room []

/-- All that is pending was sent in the room, by others than the account. -/
def OthersPending (accountId roomId : String) : Prop :=
  ∀ key entries, s.store.pendingInput.get? key = some entries → ∀ e ∈ entries,
    key.roomId = roomId ∧ key.accountId ≠ accountId

/-- When somebody comes or goes, no fragment is buffered in the room, and what is pending was sent
there by others. -/
def Undisturbed (i : Step) : Prop :=
  ∀ accountId roomId, i.change = some (accountId, roomId) →
    s.store.fragments.getD roomId [] = [] ∧ s.OthersPending accountId roomId

/-! ## What is kept

An input that waits is the last one of its room, or pending, or both; and nothing is pending in
a room whose last input was taken. -/

structure Sound : Prop where
  once : s.published.Nodup
  numbered : ∀ k ∈ s.published, k < s.inputs.length
  told : ∀ k e i, .inputReady k e ∈ s.outputs → s.IsChat k i → i.Told e
  raw : ∀ room raw, s.store.rawInputs.get? room = some raw → ∃ k i, s.Latest k i ∧
    k ∉ s.published ∧ room = i.roomId ∧ raw = i.raw k ∧
    s.store.pendingInput.get? i.key = some [i.entry k]
  pending : ∀ key entries, s.store.pendingInput.get? key = some entries → ∃ k i, s.IsChat k i ∧
    k ∉ s.published ∧ key = i.key ∧ entries = [i.entry k] ∧
    (s.store.rawInputs.get? i.roomId).isSome
  latest : ∀ k i, s.Latest k i → k ∉ s.published →
    s.store.rawInputs.get? i.roomId = some (i.raw k)

theorem sound_start : Sound {} where
  once := List.nodup_nil
  numbered _ h := by cases h
  told _ _ _ h := by cases h
  raw _ _ h := by cases h
  pending _ _ h := by cases h
  latest _ _ h := by
    have hnone := h.1.1
    cases hnone

variable {s}

theorem mem_published {k : Nat} : k ∈ s.published ↔ ∃ e, .inputReady k e ∈ s.outputs := by
  rw [published, List.mem_filterMap]
  constructor
  · rintro ⟨o, ho, hk⟩
    cases o with
    | interrupt roomId => cases hk
    | inputReady input e =>
      cases hk
      exact ⟨e, ho⟩
  · rintro ⟨e, he⟩
    exact ⟨_, he, rfl⟩

/-- Each input is published under its number. -/
theorem published_flatMap {α : Type} {f : α → List SensoryOutput} {number : α → Nat}
    (hf : ∀ a, ∃ room e, f a = [.interrupt room, .inputReady (number a) e])
    (t : SensoryMemoryManager) (l : List α) (h : t.outputs = s.outputs ++ l.flatMap f) :
    t.published = s.published ++ l.map number := by
  rw [published, h, List.filterMap_append, ← published]
  congr 1
  clear h
  induction l with
  | nil => rfl
  | cons a rest ih =>
    obtain ⟨room, e, ha⟩ := hf a
    rw [List.flatMap_cons, ha, List.map_cons, ← ih]
    rfl

theorem isChat_append {t : SensoryMemoryManager} {i : SensoryInput}
    (h : t.inputs = s.inputs ++ [i]) {k : Nat} {j : SensoryInput} :
    t.IsChat k j ↔ s.IsChat k j ∨ k = s.inputs.length ∧ j = i ∧ i.chat = true := by
  rw [IsChat, IsChat, h]
  rcases Nat.lt_trichotomy k s.inputs.length with hk | hk | hk
  · rw [List.getElem?_append_left hk]
    exact ⟨.inl, fun hor => hor.resolve_right fun hnew => Nat.lt_irrefl k (hnew.1 ▸ hk)⟩
  · subst hk
    rw [List.getElem?_concat_length, List.getElem?_eq_none (Nat.le_refl _)]
    constructor
    · rintro ⟨hj, hchat⟩
      cases hj
      exact .inr ⟨rfl, rfl, hchat⟩
    · rintro (⟨hj, _⟩ | ⟨_, rfl, hchat⟩)
      · cases hj
      · exact ⟨rfl, hchat⟩
  · rw [List.getElem?_eq_none (by simp; omega), List.getElem?_eq_none (by omega)]
    constructor
    · rintro ⟨hj, _⟩
      cases hj
    · rintro (⟨hj, _⟩ | ⟨heq, _⟩)
      · cases hj
      · omega

theorem IsChat.lt {k : Nat} {i : SensoryInput} (h : s.IsChat k i) : k < s.inputs.length :=
  (List.getElem?_eq_some_iff.mp h.1).1

theorem IsChat.unique {k : Nat} {i j : SensoryInput} (hi : s.IsChat k i) (hj : s.IsChat k j) :
    i = j := Option.some.inj (hi.1.symm.trans hj.1)

theorem latest_append_self {t : SensoryMemoryManager} {i : SensoryInput}
    (h : t.inputs = s.inputs ++ [i]) (hchat : i.chat = true) : t.Latest s.inputs.length i := by
  refine ⟨(isChat_append h).mpr (.inr ⟨rfl, rfl, hchat⟩), fun l j hj _ => ?_⟩
  have hl := hj.lt
  rw [h, List.length_append, List.length_singleton] at hl
  omega

/-- In another room the last input stays the last. -/
theorem latest_append {t : SensoryMemoryManager} {i : SensoryInput}
    (h : t.inputs = s.inputs ++ [i]) {k : Nat} {j : SensoryInput} (hroom : j.roomId ≠ i.roomId) :
    t.Latest k j ↔ s.Latest k j := by
  rw [Latest, Latest, isChat_append h]
  constructor
  · rintro ⟨hor, hall⟩
    refine ⟨hor.resolve_right fun hn => hroom (hn.2.1 ▸ rfl), fun l m hm hr => ?_⟩
    exact hall l m ((isChat_append h).mpr (.inl hm)) hr
  · rintro ⟨hj, hall⟩
    refine ⟨.inl hj, fun l m hm hr => ?_⟩
    rcases (isChat_append h).mp hm with hm | ⟨_, rfl, _⟩
    · exact hall l m hm hr
    · exact absurd hr.symm hroom

namespace Sound

/-- What nobody reads of the store does not matter. -/
theorem of_eq {t : SensoryMemoryManager} (h : Sound s) (hi : t.inputs = s.inputs)
    (ho : t.outputs = s.outputs) (hr : t.store.rawInputs = s.store.rawInputs)
    (hp : t.store.pendingInput = s.store.pendingInput) : Sound t := by
  obtain ⟨⟨raws, fragments, pending⟩, inputs, outputs⟩ := t
  dsimp only at hi ho hr hp
  subst hi ho hr hp
  exact ⟨h.once, h.numbered, h.told, h.raw, h.pending, h.latest⟩

theorem new_unpublished (h : Sound s) : s.inputs.length ∉ s.published :=
  fun hk => Nat.lt_irrefl _ (h.numbered _ hk)

theorem message (h : Sound s) (i : SensoryInput) (hchat : i.chat = true)
    {t : SensoryMemoryManager} (hin : t.inputs = s.inputs ++ [i]) (hout : t.outputs = s.outputs)
    (hraw : t.store.rawInputs = s.store.rawInputs.set i.roomId (i.raw s.inputs.length))
    (hpending : t.store.pendingInput =
      s.store.pendingInput.set i.key [i.entry s.inputs.length]) : Sound t := by
  have hpub : t.published = s.published := by rw [published, hout, ← published]
  have hlast := latest_append_self hin hchat
  refine ⟨hpub ▸ h.once, fun k hk => ?_, fun k e j he hj => ?_, fun room raw hget => ?_,
    fun key entries hget => ?_, fun k j hj hk => ?_⟩
  · rw [hin, List.length_append]
    exact Nat.lt_add_right _ (h.numbered k (hpub ▸ hk))
  · rw [hout] at he
    rcases (isChat_append hin).mp hj with hj | ⟨rfl, _⟩
    · exact h.told k e j he hj
    · exact absurd (mem_published.mpr ⟨e, he⟩) h.new_unpublished
  · rw [hpub, hpending]
    rw [hraw, Dict.get?_set] at hget
    split at hget
    · next hroom =>
      cases hget
      exact ⟨_, i, hlast, h.new_unpublished, hroom.symm, rfl, Dict.get?_set_self _ _ _⟩
    · next hroom =>
      obtain ⟨k, j, hj, hk, rfl, rfl, hp⟩ := h.raw room raw hget
      refine ⟨k, j, (latest_append hin (Ne.symm hroom)).mpr hj, hk, rfl, rfl, ?_⟩
      rw [Dict.get?_set, if_neg fun heq => hroom (congrArg PendingInputKey.roomId heq)]
      exact hp
  · rw [hpub, hraw]
    rw [hpending, Dict.get?_set] at hget
    split at hget
    · next hkey =>
      cases hget
      exact ⟨_, i, hlast.1, h.new_unpublished, hkey.symm, rfl, by rw [Dict.get?_set_self]; rfl⟩
    · obtain ⟨k, j, hj, hk, rfl, rfl, hr⟩ := h.pending key entries hget
      refine ⟨k, j, (isChat_append hin).mpr (.inl hj), hk, rfl, rfl, ?_⟩
      rw [Dict.get?_set]
      split
      · rfl
      · exact hr
  · rw [hpub] at hk
    rw [hraw, Dict.get?_set]
    by_cases hroom : j.roomId = i.roomId
    · rw [if_pos hroom.symm]
      have hle := hj.2 _ i hlast.1 hroom.symm
      rcases (isChat_append hin).mp hj.1 with hold | ⟨rfl, rfl, _⟩
      · exact absurd hold.lt (by omega)
      · rfl
    · rw [if_neg (Ne.symm hroom)]
      exact h.latest k j ((latest_append hin hroom).mp hj) hk

/-- Where nothing is left to be published, all that counts is what was. -/
theorem emptied (h : Sound s) {t : SensoryMemoryManager} {new : List Nat}
    (hpub : t.published = s.published ++ new) (hnew : new.Nodup)
    (hfresh : ∀ k ∈ new, k ∉ s.published ∧ k < t.inputs.length)
    (hlength : s.inputs.length ≤ t.inputs.length)
    (htold : ∀ k e i, .inputReady k e ∈ t.outputs → t.IsChat k i → i.Told e)
    (hraw : ∀ room, t.store.rawInputs.get? room = none)
    (hpending : ∀ key, t.store.pendingInput.get? key = none)
    (hlatest : ∀ k i, t.Latest k i → k ∈ t.published) : Sound t := by
  refine ⟨?_, fun k hk => ?_, htold, fun room raw hget => ?_, fun key entries hget => ?_,
    fun k i hi hk => absurd (hlatest k i hi) hk⟩
  · rw [hpub]
    exact List.nodup_append'.mpr ⟨h.once, hnew, fun k hk hk' => (hfresh k hk').1 hk⟩
  · rcases List.mem_append.mp (hpub ▸ hk) with hk | hk
    · exact Nat.lt_of_lt_of_le (h.numbered k hk) hlength
    · exact (hfresh k hk).2
  · rw [hraw] at hget
    cases hget
  · rw [hpending] at hget
    cases hget

end Sound

/-! ## Somebody comes or goes -/

theorem step_of_change {i : Step} {accountId roomId : String}
    (h : i.change = some (accountId, roomId)) : ∃ text,
    s.step i = s.storeAndFlushPendingBlock (systemEventBlock text) accountId roomId := by
  cases i with
  | joined e =>
    cases h
    exact ⟨_, rfl⟩
  | joinedBatch joins =>
    cases joins with
    | nil => cases h
    | cons first others =>
      cases h
      exact ⟨_, rfl⟩
  | left e =>
    cases h
    exact ⟨_, rfl⟩
  | message e => cases h
  | tick rooms => cases h
  | addFragment block room => cases h
  | takeFragments room => cases h

/-- Entries that are filed under the key of their number have different numbers. -/
theorem nodup_inputs {d : Dict PendingInputKey (List PendingInputEntry)}
    (key : Nat → Option PendingInputKey) (h : ∀ x entries, d.get? x = some entries →
      ∃ e, entries = [e] ∧ key e.input = some x) :
    (d.values.flatten.map (·.input)).Nodup := by
  refine List.Nodup.of_map key ?_
  have hkeys : ∀ l : List (PendingInputKey × List PendingInputEntry),
      (∀ x ∈ l, ∃ e, x.2 = [e] ∧ key e.input = some x.1) →
      ((l.map Prod.snd).flatten.map (·.input)).map key = (l.map Prod.fst).map some := by
    intro l hl
    induction l with
    | nil => rfl
    | cons x rest ih =>
      obtain ⟨e, he, hx⟩ := hl x List.mem_cons_self
      rw [List.map_cons, List.flatten_cons, he, List.map_append, List.map_append,
        ih fun y hy => hl y (List.mem_cons_of_mem _ hy)]
      exact congrArg (· :: _) hx
  rw [Dict.values, hkeys _ fun x hx => h x.1 x.2 (Dict.mem_entries_iff.mp hx)]
  exact d.nodup.map fun _ _ => Option.some.inj

section Change

variable (s) (text accountId roomId : String)

/-- What is told of somebody who comes or goes. -/
def announcement : SensoryInput :=
  { content := text, accountId, roomId, chat := false }

/-- What is pending by the time it is flushed. -/
def flushed : Dict PendingInputKey (List PendingInputEntry) :=
  s.store.pendingInput.set (announcement text accountId roomId).key
    [(announcement text accountId roomId).entry s.inputs.length]

/-- What a flush and a clear leave. -/
structure Announced (t : SensoryMemoryManager) : Prop where
  inputs : t.inputs = s.inputs ++ [announcement text accountId roomId]
  outputs : t.outputs = s.outputs ++
    (flushed s text accountId roomId).values.flatten.flatMap (·.outputs)
  raw : ∀ room, t.store.rawInputs.get? room =
    if roomId = room then none else s.store.rawInputs.get? room
  fragments : ∀ room, t.store.fragments.getD room [] =
    if roomId = room then [] else s.store.fragments.getD room []
  pending : ∀ key, t.store.pendingInput.get? key = none

theorem storeAndFlushPendingBlock_spec : Announced s text accountId roomId
    (s.storeAndFlushPendingBlock (systemEventBlock text) accountId roomId) := by
  refine ⟨rfl, rfl, fun room => ?_, fun room => ?_, fun key => ?_⟩
  · show (Dict.erase (Dict.set _ _ _) _).get? room = _
    rw [Dict.get?_erase, Dict.get?_set]
    split <;> rfl
  · show (Dict.erase _ _).getD room [] = _
    rw [Dict.getD, Dict.get?_erase]
    split <;> rfl
  · show (Dict.eraseAll _ _).get? key = none
    rw [Dict.get?_eraseAll]
    split <;> rfl

variable {s text accountId roomId} {t : SensoryMemoryManager}

/-- An entry that is flushed is the announcement, or that of a chat input that waits. -/
theorem Sound.flushed_cases (h : Sound s) {key : PendingInputKey}
    {entries : List PendingInputEntry}
    (hget : (flushed s text accountId roomId).get? key = some entries) : ∃ e, entries = [e] ∧
      (e = (announcement text accountId roomId).entry s.inputs.length ∧
        key = (announcement text accountId roomId).key ∨
      ∃ j, s.IsChat e.input j ∧ e.input ∉ s.published ∧ key = j.key ∧ e = j.entry e.input) := by
  rw [flushed, Dict.get?_set] at hget
  split at hget
  · next hkey =>
    cases hget
    exact ⟨_, rfl, .inl ⟨rfl, hkey.symm⟩⟩
  · obtain ⟨k, j, hj, hk, rfl, rfl, _⟩ := h.pending key entries hget
    exact ⟨_, rfl, .inr ⟨j, hj, hk, rfl, rfl⟩⟩

theorem Sound.mem_flushed (h : Sound s) {e : PendingInputEntry}
    (he : e ∈ (flushed s text accountId roomId).values.flatten) :
    e = (announcement text accountId roomId).entry s.inputs.length ∨
    ∃ j, s.IsChat e.input j ∧ e.input ∉ s.published ∧ e = j.entry e.input := by
  obtain ⟨entries, hv, he⟩ := List.mem_flatten.mp he
  obtain ⟨key, hget⟩ := Dict.mem_values_iff.mp hv
  obtain ⟨e', rfl, hor⟩ := h.flushed_cases hget
  obtain rfl := List.mem_singleton.mp he
  rcases hor with ⟨he', _⟩ | ⟨j, hj, hk, _, he'⟩
  · exact .inl he'
  · exact .inr ⟨j, hj, hk, he'⟩

theorem Announced.published (ht : Announced s text accountId roomId t) : t.published =
    s.published ++ (flushed s text accountId roomId).values.flatten.map (·.input) :=
  published_flatMap (fun _ => ⟨_, _, rfl⟩) t _ ht.outputs

theorem Announced.isChat (ht : Announced s text accountId roomId t) {k : Nat} {j : SensoryInput} :
    t.IsChat k j ↔ s.IsChat k j := by
  rw [isChat_append ht.inputs]
  exact or_iff_left fun hnew => nomatch hnew.2.2

/-- What others have pending is published. -/
theorem Announced.published_pending (ht : Announced s text accountId roomId t)
    (hp : s.OthersPending accountId roomId) {key : PendingInputKey}
    {entries : List PendingInputEntry} (hget : s.store.pendingInput.get? key = some entries)
    {e : PendingInputEntry} (he : e ∈ entries) : e.input ∈ t.published := by
  have hkey : (announcement text accountId roomId).key ≠ key := by
    rintro rfl
    exact (hp _ _ hget e he).2 rfl
  rw [ht.published, List.mem_append, List.mem_map]
  refine .inr ⟨e, List.mem_flatten.mpr ⟨entries, Dict.mem_values_iff.mpr ⟨key, ?_⟩, he⟩, rfl⟩
  rw [flushed, Dict.get?_set, if_neg hkey, hget]

/-- So is every last input, and it is one of the room. -/
theorem Announced.published_raw (ht : Announced s text accountId roomId t) (h : Sound s)
    (hp : s.OthersPending accountId roomId) {room : String} {raw : RawInput}
    (hget : s.store.rawInputs.get? room = some raw) :
    room = roomId ∧ raw.input ∈ t.published := by
  obtain ⟨k, j, _, _, rfl, rfl, hpending⟩ := h.raw room raw hget
  exact ⟨(hp _ _ hpending _ List.mem_cons_self).1,
    ht.published_pending hp hpending List.mem_cons_self⟩

theorem Announced.nodup_flushed (ht : Announced s text accountId roomId t) (h : Sound s) :
    ((flushed s text accountId roomId).values.flatten.map (·.input)).Nodup := by
  refine nodup_inputs (fun k => t.inputs[k]?.map SensoryInput.key) fun key entries hget => ?_
  obtain ⟨e, rfl, ⟨rfl, rfl⟩ | ⟨j, hj, _, rfl, _⟩⟩ := h.flushed_cases hget
  · refine ⟨_, rfl, ?_⟩
    show Option.map _ t.inputs[s.inputs.length]? = _
    rw [ht.inputs, List.getElem?_concat_length]
    rfl
  · refine ⟨_, rfl, ?_⟩
    show Option.map _ t.inputs[e.input]? = _
    rw [ht.inputs, List.getElem?_append_left hj.lt, hj.1]
    rfl

theorem Announced.sound (ht : Announced s text accountId roomId t) (h : Sound s)
    (hp : s.OthersPending accountId roomId) : Sound t := by
  have hlength : t.inputs.length = s.inputs.length + 1 := by
    rw [ht.inputs, List.length_append, List.length_singleton]
  refine h.emptied ht.published (ht.nodup_flushed h) (fun k hk => ?_) (by omega)
    (fun k e j he hj => ?_) (fun room => ?_) ht.pending fun k j hj => ?_
  · obtain ⟨e, he, rfl⟩ := List.mem_map.mp hk
    rcases h.mem_flushed he with rfl | ⟨j, hj, hno, _⟩
    · exact ⟨h.new_unpublished, hlength ▸ Nat.lt_succ_self _⟩
    · exact ⟨hno, hlength ▸ Nat.lt_succ_of_lt hj.lt⟩
  · have hj := ht.isChat.mp hj
    rw [ht.outputs, List.mem_append, List.mem_flatMap] at he
    rcases he with he | ⟨entry, hentry, he⟩
    · exact h.told k e j he hj
    rcases List.mem_cons.mp he with he | he
    · cases he
    cases List.mem_singleton.mp he
    rcases h.mem_flushed hentry with rfl | ⟨j', hj', _, he⟩
    · exact absurd hj.lt (Nat.lt_irrefl _)
    · obtain rfl := hj.unique hj'
      rw [he]
      exact .inr rfl
  · rw [ht.raw]
    split
    · rfl
    next hroom =>
    cases hget : s.store.rawInputs.get? room with
    | none => rfl
    | some raw => exact absurd (ht.published_raw h hp hget).1.symm hroom
  · have hlatest : s.Latest k j :=
      ⟨ht.isChat.mp hj.1, fun l m hm hr => hj.2 l m (ht.isChat.mpr hm) hr⟩
    by_cases hyes : k ∈ s.published
    · exact ht.published ▸ List.mem_append_left _ hyes
    · exact (ht.published_raw h hp (h.latest k j hlatest hyes)).2

/-- An undisturbed change publishes what is pending, and nothing else waits in its room. -/
theorem Sound.change (h : Sound s) {i : Step} (hc : i.change = some (accountId, roomId))
    (hu : s.Undisturbed i) : Sound (s.step i) ∧ s.Delivers i := by
  obtain ⟨hfragments, hp⟩ := hu accountId roomId hc
  obtain ⟨text, hstep⟩ := step_of_change (s := s) hc
  have ht := storeAndFlushPendingBlock_spec s text accountId roomId
  rw [← hstep] at ht
  have hsound := ht.sound h hp
  refine ⟨hsound, hsound.once, hsound.told, ?_, ?_, fun k j _ _ hk => .inl ?_, fun _ room => ?_⟩
  · rintro rooms rfl
    cases hc
  · rintro rooms rfl
    cases hc
  · rcases hk with ⟨room, raw, hget, rfl⟩ | ⟨key, entries, hget, e, he, rfl⟩
    · exact (ht.published_raw h hp hget).2
    · exact ht.published_pending hp hget he
  · rw [ht.fragments]
    split
    · next hroom => rw [← hroom, hfragments]
    · rfl

end Change

/-! ## A tick -/

/-- The loop takes the last input of each room it goes over. -/
theorem tickLoop_spec {rooms : List String} (hn : rooms.Nodup) (s : SensoryMemoryManager) :
    let t := tickLoop rooms s
    (t.1 = false → rooms.filterMap s.store.rawInputs.get? = []) ∧
    t.2.inputs = s.inputs ∧ t.2.store.pendingInput = s.store.pendingInput ∧
    t.2.outputs = s.outputs ++
      (rooms.filterMap s.store.rawInputs.get?).flatMap (·.outputs) ∧
    ∀ room, t.2.store.rawInputs.get? room =
      if room ∈ rooms then none else s.store.rawInputs.get? room := by
  induction rooms generalizing s with
  | nil => exact ⟨fun _ => rfl, rfl, rfl, (List.append_nil _).symm, fun _ => rfl⟩
  | cons first rest ih =>
    obtain ⟨hfirst, hn⟩ := List.nodup_cons.mp hn
    rw [tickLoop, SensoryStore.takeRaw]
    cases hget : s.store.rawInputs.get? first with
    | none =>
      obtain ⟨hnone, hin, hpending, hout, hraw⟩ := ih hn s
      refine ⟨fun hf => ?_, hin, hpending, ?_, fun room => ?_⟩
      · rw [List.filterMap_cons_none hget]
        exact hnone hf
      · rw [List.filterMap_cons_none hget]
        exact hout
      · rw [hraw]
        by_cases hroom : room = first
        · subst hroom
          simp [hget]
        · simp [hroom]
    | some raw =>
      obtain ⟨_, hin, hpending, hout, hraw⟩ := ih hn
        { s with store := { s.store with rawInputs := s.store.rawInputs.erase first }
                 outputs := s.outputs ++ raw.outputs }
      have hsame : rest.filterMap (s.store.rawInputs.erase first).get? =
          rest.filterMap s.store.rawInputs.get? := by
        refine List.filterMap_congr fun room hm => ?_
        rw [Dict.get?_erase, if_neg]
        rintro rfl
        exact hfirst hm
      refine ⟨(fun hf => by cases hf), hin, hpending, ?_, fun room => ?_⟩
      · rw [List.filterMap_cons_some hget, List.flatMap_cons, ← List.append_assoc, ← hsame]
        exact hout
      · rw [hraw]
        dsimp only
        rw [Dict.get?_erase]
        by_cases hroom : room = first
        · simp [hroom]
        · simp [hroom, Ne.symm hroom]

theorem nodup_getActiveRoomIds (store : SensoryStore) : store.getActiveRoomIds.Nodup := by
  refine List.nodup_append'.mpr ⟨store.rawInputs.nodup, store.fragments.nodup.filter _, ?_⟩
  intro room hraw hfrag
  have hnot := (List.mem_filter.mp hfrag).2
  obtain ⟨e, he, rfl⟩ := List.mem_map.mp hraw
  rw [Dict.contains, Dict.mem_entries_iff.mp he] at hnot
  cases hnot

theorem mem_getActiveRoomIds {store : SensoryStore} {room : String} {raw : RawInput}
    (h : store.rawInputs.get? room = some raw) : room ∈ store.getActiveRoomIds :=
  List.mem_append_left _ (List.mem_map.mpr ⟨_, Dict.mem_entries_iff.mpr h, rfl⟩)

/-- When no last input was found nothing is pending either, so a tick publishes the last inputs. -/
theorem onTimerTick_spec (h : Sound s) {rooms : List String}
    (hr : rooms.Perm s.store.getActiveRoomIds) :
    (s.onTimerTick rooms).inputs = s.inputs ∧
    (s.onTimerTick rooms).outputs = s.outputs ++
      (rooms.filterMap s.store.rawInputs.get?).flatMap (·.outputs) ∧
    (∀ room, (s.onTimerTick rooms).store.rawInputs.get? room = none) ∧
    ∀ key, (s.onTimerTick rooms).store.pendingInput.get? key = none := by
  obtain ⟨hnone, hin, hpending, hout, hraw⟩ :=
    tickLoop_spec (hr.nodup_iff.mpr (nodup_getActiveRoomIds _)) s
  have hempty : ∀ room, (tickLoop rooms s).2.store.rawInputs.get? room = none := by
    intro room
    rw [hraw]
    split
    · rfl
    next hnot =>
    cases hget : s.store.rawInputs.get? room with
    | none => rfl
    | some raw => exact absurd (hr.mem_iff.mpr (mem_getActiveRoomIds hget)) hnot
  have htick : s.onTimerTick rooms = if (tickLoop rooms s).1
      then { (tickLoop rooms s).2 with store := (tickLoop rooms s).2.store.clearPendingInput }
      else (tickLoop rooms s).2.flushPending := rfl
  rw [htick]
  cases hfound : (tickLoop rooms s).1 with
  | true => exact ⟨hin, hout, hempty, fun _ => rfl⟩
  | false =>
    have hnopending : s.store.pendingInput = .empty := by
      refine Dict.eq_of_entries (List.eq_nil_iff_forall_not_mem.mpr fun e he => ?_)
      obtain ⟨_, j, _, _, _, _, hsome⟩ := h.pending _ _ (Dict.mem_entries_iff.mp he)
      obtain ⟨raw, hget⟩ := Option.isSome_iff_exists.mp hsome
      have hm : raw ∈ rooms.filterMap s.store.rawInputs.get? :=
        List.mem_filterMap.mpr ⟨_, hr.mem_iff.mpr (mem_getActiveRoomIds hget), hget⟩
      rw [hnone hfound] at hm
      cases hm
    refine ⟨hin, ?_, hempty, fun _ => rfl⟩
    refine Eq.trans ?_ hout
    show (tickLoop rooms s).2.outputs ++
      ((tickLoop rooms s).2.store.pendingInput.values.flatten.flatMap _) = _
    rw [hpending, hnopending]
    exact List.append_nil _

/-- The last inputs that are taken are chat inputs that wait. -/
theorem Sound.mem_taken (h : Sound s) {rooms : List String} {raw : RawInput}
    (hm : raw ∈ rooms.filterMap s.store.rawInputs.get?) :
    ∃ k i, s.IsChat k i ∧ k ∉ s.published ∧ raw = i.raw k := by
  obtain ⟨room, _, hget⟩ := List.mem_filterMap.mp hm
  obtain ⟨k, i, hi, hk, _, hraw, _⟩ := h.raw room raw hget
  exact ⟨k, i, hi.1, hk, hraw⟩

theorem Sound.nodup_taken (h : Sound s) {rooms : List String} (hn : rooms.Nodup) :
    ((rooms.filterMap s.store.rawInputs.get?).map (·.input)).Nodup := by
  rw [List.map_filterMap]
  refine List.Nodup.filterMap (fun room room' k hk hk' => ?_) hn
  obtain ⟨raw, hget, rfl⟩ := Option.map_eq_some_iff.mp hk
  obtain ⟨raw', hget', heq⟩ := Option.map_eq_some_iff.mp hk'
  obtain ⟨k, i, hi, _, rfl, rfl, _⟩ := h.raw room raw hget
  obtain ⟨k', i', hi', _, rfl, rfl, _⟩ := h.raw room' raw' hget'
  obtain rfl : k' = k := heq
  rw [hi.1.unique hi'.1]

/-- A tick publishes the last input of every room, as it was sent. -/
theorem Sound.tick_latest (h : Sound s) {rooms : List String}
    (hr : rooms.Perm s.store.getActiveRoomIds) {k : Nat} {i : SensoryInput} (hi : s.Latest k i)
    (hk : k ∉ s.published) : .inputReady k i.ready ∈ (s.onTimerTick rooms).outputs := by
  have hget := h.latest k i hi hk
  rw [(onTimerTick_spec h hr).2.1]
  refine List.mem_append_right _ (List.mem_flatMap.mpr ⟨i.raw k, List.mem_filterMap.mpr
    ⟨_, hr.mem_iff.mpr (mem_getActiveRoomIds hget), hget⟩, ?_⟩)
  exact List.mem_cons_of_mem _ List.mem_cons_self

/-- What a tick publishes it publishes with its session. -/
theorem Sound.tick_session (h : Sound s) {rooms : List String}
    (hr : rooms.Perm s.store.getActiveRoomIds) {k : Nat} {e : InputReady} {i : SensoryInput}
    (he : .inputReady k e ∈ (s.onTimerTick rooms).outputs) (hk : k ∉ s.published)
    (hi : s.IsChat k i) : e = i.ready := by
  rw [(onTimerTick_spec h hr).2.1, List.mem_append, List.mem_flatMap] at he
  rcases he with he | ⟨raw, hm, he⟩
  · exact absurd (mem_published.mpr ⟨e, he⟩) hk
  obtain ⟨k', j, hj, _, rfl⟩ := h.mem_taken hm
  rcases List.mem_cons.mp he with he | he
  · cases he
  cases List.mem_singleton.mp he
  rw [hi.unique hj]
  rfl

theorem Sound.tick (h : Sound s) {rooms : List String}
    (hr : rooms.Perm s.store.getActiveRoomIds) : Sound (s.onTimerTick rooms) := by
  obtain ⟨hin, hout, hraw, hnone⟩ := onTimerTick_spec h hr
  have hpub := published_flatMap (fun raw => ⟨_, _, rfl⟩) (s.onTimerTick rooms) _ hout
  have hchat : ∀ {k j}, (s.onTimerTick rooms).IsChat k j ↔ s.IsChat k j := by
    intro k j
    rw [IsChat, IsChat, hin]
  refine h.emptied hpub (h.nodup_taken (hr.nodup_iff.mpr (nodup_getActiveRoomIds _)))
    (fun k hk => ?_) (hin ▸ Nat.le_refl _) (fun k e j he hj => ?_) hraw hnone fun k j hj => ?_
  · obtain ⟨raw, hm, rfl⟩ := List.mem_map.mp hk
    obtain ⟨k, i, hi, hno, rfl⟩ := h.mem_taken hm
    exact ⟨hno, hin ▸ hi.lt⟩
  · by_cases hk : k ∈ s.published
    · rw [hout, List.mem_append] at he
      rcases he with he | he
      · exact h.told k e j he (hchat.mp hj)
      · obtain ⟨raw, hm, he⟩ := List.mem_flatMap.mp he
        obtain ⟨k', i, _, hno, rfl⟩ := h.mem_taken hm
        rcases List.mem_cons.mp he with he | he
        · cases he
        cases List.mem_singleton.mp he
        exact absurd hk hno
    · exact .inl (h.tick_session hr he hk (hchat.mp hj))
  · have hj' : s.Latest k j := ⟨hchat.mp hj.1, fun l m hm => hj.2 l m (hchat.mpr hm)⟩
    by_cases hyes : k ∈ s.published
    · exact hpub ▸ List.mem_append_left _ hyes
    · exact mem_published.mpr ⟨_, h.tick_latest hr hj' hyes⟩

/-! ## Every step -/

theorem Sound.onMessageEvent (h : Sound s) (e : MessageEvent) : Sound (s.onMessageEvent e) := by
  unfold SensoryMemoryManager.onMessageEvent
  split
  · exact h
  split
  · exact h
  · exact h.message _ rfl rfl rfl rfl rfl

/-- Where nobody comes or goes and it is no tick, soundness says it all. -/
theorem Sound.delivers {i : Step} (h : Sound (s.step i)) (hc : i.change = none)
    (htick : ∀ rooms, i ≠ .tick rooms) : Sound (s.step i) ∧ s.Delivers i where
  left := h
  right :=
    { once := h.once
      told := h.told
      latest := fun rooms hi => absurd hi (htick rooms)
      session := fun rooms hi => absurd hi (htick rooms)
      kept := fun _ _ hsome => by simp [hc] at hsome
      fragments := fun hsome => by simp [hc] at hsome }

/-- A tick delivers the last inputs if it goes over all active rooms, and nothing otherwise. -/
theorem Sound.tick_delivers (h : Sound s) (rooms : List String) :
    Sound (s.step (.tick rooms)) ∧ s.Delivers (.tick rooms) := by
  have hsound : Sound (s.step (.tick rooms)) := by
    rw [SensoryMemoryManager.step]
    split
    · next hr => exact h.tick hr
    · exact h
  refine ⟨hsound, hsound.once, hsound.told, fun rooms' heq hr k input hlatest hk => ?_,
    fun rooms' heq k e input he hk hi => ?_, nofun, nofun⟩
  · cases heq
    rw [SensoryMemoryManager.step, if_pos hr]
    exact h.tick_latest hr hlatest hk
  · cases heq
    by_cases hr : rooms.Perm s.store.getActiveRoomIds
    · rw [SensoryMemoryManager.step, if_pos hr] at he hi
      rw [IsChat, (onTimerTick_spec h hr).1] at hi
      exact h.tick_session hr he hk hi
    · rw [SensoryMemoryManager.step, if_neg hr] at he
      exact absurd (mem_published.mpr ⟨e, he⟩) hk

theorem Sound.step (h : Sound s) (i : Step) (hu : s.Undisturbed i) :
    Sound (s.step i) ∧ s.Delivers i := by
  cases hc : i.change with
  | some change => exact h.change hc hu
  | none =>
    cases i with
    | message e =>
      have hsound : Sound (s.step (.message e)) := h.onMessageEvent e
      exact hsound.delivers rfl nofun
    | tick rooms => exact h.tick_delivers rooms
    | addFragment block roomId =>
      have hsound : Sound (s.step (.addFragment block roomId)) := h.of_eq rfl rfl rfl rfl
      exact hsound.delivers rfl nofun
    | takeFragments roomId =>
      have hsound : Sound (s.step (.takeFragments roomId)) := h.of_eq rfl rfl rfl rfl
      exact hsound.delivers rfl nofun
    | joinedBatch joins =>
      cases joins with
      | nil => exact Sound.delivers (i := .joinedBatch []) h rfl nofun
      | cons first others => cases hc
    | joined e => cases hc
    | left e => cases hc

/-- Where nobody disturbs the others by coming or going, every input is delivered once, as it
was sent, and none is lost. -/
theorem delivered_once (steps : List Step)
    (h : Machine.Guarded step Undisturbed {} steps) : Machine.Guarded step Delivers {} steps :=
  h.imp Sound (fun _ i hs hu => hs.step i hu) sound_start

def chatMessage (content accountId roomId sessionId : String) : Step :=
  .message { content, accountId, roomId, sessionId, direction := "request", msgType := "chat" }

theorem delivered_once_same_room :
    Machine.Guarded step Delivers {} [chatMessage "hi" "a1" "r1" "s1",
      .joined ⟨"r1", "a2", "Bob"⟩, chatMessage "hello" "a1" "r1" "s1", .tick ["r1"]] := by
  refine delivered_once _ ⟨nofun, ?_, nofun, nofun, trivial⟩
  rintro accountId roomId ⟨⟩
  refine ⟨rfl, fun key entries hget e he => ?_⟩
  obtain ⟨rfl, rfl⟩ : key = ⟨"a1", "r1"⟩ ∧ entries = [⟨0, "hi", "a1", "r1"⟩] := by
    have hm : (key, entries) ∈
        [((⟨"a1", "r1"⟩ : PendingInputKey), [(⟨0, "hi", "a1", "r1"⟩ : PendingInputEntry)])] :=
      Dict.mem_entries_iff.mpr hget
    simpa using hm
  cases List.mem_singleton.mp he
  exact ⟨rfl, by decide⟩

/-- Somebody joins another room between a message and the tick. -/
theorem join_elsewhere_delivers_twice :
    ¬ ∀ steps, Machine.Guarded step Delivers {} steps := by
  intro h
  have htick := (h [chatMessage "hi" "a1" "r1" "", .joined ⟨"r2", "a2", "Bob"⟩, .tick ["r1"]]).2.2.1
  exact absurd htick.once (by decide)

end SensoryMemoryManager

end IrisMind.Memory
