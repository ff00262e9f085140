import IrisMind.Lib.Digits
import IrisMind.Lib.Machine
import IrisMind.Lib.Window
import IrisMind.Llm.Tokenizer

/-! # Captured prompts

While it is switched on, every call of a model is captured: it gets the next
number, and only the last captures are kept. Each one can be written to a file
of its own, at once or on demand. -/
namespace IrisMind.Kernel
open IrisMind.Lib

structure TokenCounts where
  system : Nat
  history : Nat
  tools : Nat
  response : Nat
  total : Nat
deriving DecidableEq

structure CaptureEntry where
  id : Nat
  timestamp : String
  modelName : String
  systemPrompt : String
  messages : List (String × String)
  tools : Option String
  response : String
  tokenCounts : TokenCounts
  fullPrompt : String
deriving DecidableEq

/-- One call of a model as it is to be captured; messages come with their types, and of the tools
there is the text `str` makes of them, when there are any. -/
structure ModelCall where
  timestamp : String
  modelName : String
  systemPrompt : String
  messages : List (String × String)
  response : String
  tools : Option String

structure DebugCapture where
  captures : List CaptureEntry := []
  maxEntries : Int := 10
  tokenizerMgr : Option Llm.TokenizerManager := none
  enabled : Bool := false
  autoDump : Bool := false
  nextId : Nat := 1
  /-- The files of the output directory. -/
  files : Dict (List Char) CaptureEntry := .empty

namespace ModelCall

/-- The messages that are not of the system. -/
def history (c : ModelCall) : List (String × String) := c.messages.filter fun m => m.1 ≠ "system"

/-- `build_full_prompt` -/
def fullPrompt (c : ModelCall) : String :=
  "\n\n".intercalate (c.messages.map fun m => "[" ++ m.1 ++ "]\n" ++ m.2)

def entry (c : ModelCall) (id : Nat) (tokenCounts : TokenCounts) : CaptureEntry where
  id
  timestamp := c.timestamp
  modelName := c.modelName
  systemPrompt := c.systemPrompt
  messages := c.history
  tools := c.tools
  response := c.response
  tokenCounts
  fullPrompt := c.fullPrompt

end ModelCall

namespace DebugCapture

def countTokens (d : DebugCapture) (text : String) : Option Nat × DebugCapture :=
  if text = "" then (some 0, d)
  else match d.tokenizerMgr with
    | some m =>
      let (n, m) := m.estimateTokens text
      (n, { d with tokenizerMgr := some m })
    | none => (some (text.length * 13 / 10), d)

/-- The name of the file of a capture. -/
def fileName (id : Nat) : List Char := "capture_".toList ++ Digits.padded 3 id ++ ".txt".toList

def writeFile (d : DebugCapture) (e : CaptureEntry) : DebugCapture :=
  { d with files := d.files.set (fileName e.id) e }

/-- `capture`, of an entry without its number. -/
def capture (d : DebugCapture) (entry : Nat → CaptureEntry) : DebugCapture :=
  if !d.enabled then d
  else
    let e := entry d.nextId
    let captures := d.captures ++ [e]
    let d := { d with
      nextId := d.nextId + 1
      captures := if d.maxEntries < captures.length then captures.tail else captures }
    if d.autoDump then d.writeFile e else d

/-- `capture_debug`; a tokenizer that raises ends it. -/
def captureDebug (d : DebugCapture) (c : ModelCall) : Bool × DebugCapture :=
  if !d.enabled then (true, d)
  else
    let (system, d) := d.countTokens c.systemPrompt
    match system with
    | none => (false, d)
    | some system =>
      let (history, d) := d.countTokens (" ".intercalate (c.history.map Prod.snd))
      match history with
      | none => (false, d)
      | some history =>
        let (tools, d) := d.countTokens (c.tools.getD "")
        match tools with
        | none => (false, d)
        | some tools =>
          let (response, d) := d.countTokens c.response
          match response with
          | none => (false, d)
          | some response =>
            let counts : TokenCounts :=
              ⟨system, history, tools, response, system + history + tools + response⟩
            (true, d.capture fun id => c.entry id counts)

def dumpAll (d : DebugCapture) : DebugCapture := d.captures.foldl writeFile d

/-- `show`, without the formatting. -/
def showEntry (d : DebugCapture) (entryId : Int) : Option CaptureEntry :=
  d.captures.find? fun e => e.id = entryId

inductive Step where
  | call (c : ModelCall)
  | setEnabled (value : Bool)
  | dumpAll
  /-- The tokenizer counts a text for something else. -/
  | count (text : String)

def step (d : DebugCapture) : Step → DebugCapture
  | .call c => (d.captureDebug c).2
  | .setEnabled value => { d with enabled := value }
  | .dumpAll => d.dumpAll
  | .count text => (d.countTokens text).2

/-! ## What is captured -/

/-- The tokenizer that counts, and a cache of it that is sound. -/
def Counts (tokenizer : Option Llm.Tokenizer) : Option Llm.TokenizerManager → Prop
  | none => tokenizer = none
  | some m => m.Sound ∧ m.tokenizer = tokenizer

theorem countTokens_spec {tokenizer : Option Llm.Tokenizer} {d : DebugCapture}
    (h : Counts tokenizer d.tokenizerMgr) (text : String) :
    ∃ mgr, Counts tokenizer mgr ∧ d.countTokens text =
      (Llm.estimateTokens tokenizer text, { d with tokenizerMgr := mgr }) := by
  unfold countTokens
  split
  · next hempty => exact ⟨d.tokenizerMgr, h, by rw [hempty]; rfl⟩
  · next hne =>
    split
    · next m hm =>
      rw [hm] at h
      obtain ⟨hcount, hsound, hsame⟩ := Llm.TokenizerManager.estimateTokens_spec h.1 text
      rw [h.2] at hcount
      exact ⟨some (m.estimateTokens text).2, ⟨hsound, hsame.trans h.2⟩, Prod.ext hcount rfl⟩
    · next hm =>
      rw [hm] at h
      obtain rfl : tokenizer = none := h
      exact ⟨none, rfl, by rw [Llm.estimateTokens, if_neg hne, ← hm]⟩

end DebugCapture

/-- The counts of a call, when the tokenizer raises for none of its texts. -/
def ModelCall.counts? (tokenizer : Option Llm.Tokenizer) (c : ModelCall) : Option TokenCounts := do
  let system ← Llm.estimateTokens tokenizer c.systemPrompt
  let history ← Llm.estimateTokens tokenizer (" ".intercalate (c.history.map Prod.snd))
  let tools ← Llm.estimateTokens tokenizer (c.tools.getD "")
  let response ← Llm.estimateTokens tokenizer c.response
  return ⟨system, history, tools, response, system + history + tools + response⟩

namespace DebugCapture

theorem captureDebug_spec {tokenizer : Option Llm.Tokenizer} {d : DebugCapture}
    (h : Counts tokenizer d.tokenizerMgr) (hon : d.enabled = true) (c : ModelCall) :
    ∃ mgr, Counts tokenizer mgr ∧ (d.captureDebug c).2 =
      match c.counts? tokenizer with
      | none => { d with tokenizerMgr := mgr }
      | some counts => { d with tokenizerMgr := mgr }.capture fun id => c.entry id counts := by
  have hneg : ¬ (!d.enabled) = true := by simp [hon]
  unfold captureDebug ModelCall.counts?
  rw [if_neg hneg]
  obtain ⟨m₁, h₁, hsystem⟩ := countTokens_spec h c.systemPrompt
  simp only [hsystem]
  cases Llm.estimateTokens tokenizer c.systemPrompt with
  | none => exact ⟨m₁, h₁, rfl⟩
  | some system =>
    obtain ⟨m₂, h₂, hhistory⟩ := countTokens_spec (d := { d with tokenizerMgr := m₁ }) h₁
      (" ".intercalate (c.history.map Prod.snd))
    simp only [hhistory]
    cases Llm.estimateTokens tokenizer (" ".intercalate (c.history.map Prod.snd)) with
    | none => exact ⟨m₂, h₂, rfl⟩
    | some history =>
      obtain ⟨m₃, h₃, htools⟩ := countTokens_spec (d := { d with tokenizerMgr := m₂ }) h₂
        (c.tools.getD "")
      simp only [htools]
      cases Llm.estimateTokens tokenizer (c.tools.getD "") with
      | none => exact ⟨m₃, h₃, rfl⟩
      | some tools =>
        obtain ⟨m₄, h₄, hresponse⟩ := countTokens_spec (d := { d with tokenizerMgr := m₃ }) h₃
          c.response
        simp only [hresponse]
        cases Llm.estimateTokens tokenizer c.response with
        | none => exact ⟨m₄, h₄, rfl⟩
        | some response => exact ⟨m₄, h₄, rfl⟩

/-- Everything captured so far is `log`: the last entries of it are there, and of the others what
has been written to files. -/
structure Captured (d : DebugCapture) (log : List CaptureEntry) : Prop where
  kept : d.captures = log.rtake d.maxEntries.toNat
  numbered : log.map CaptureEntry.id = List.range' 1 log.length
  next : d.nextId = log.length + 1
  written : ∀ name e, d.files.get? name = some e → e ∈ log ∧ name = fileName e.id
  dumped : d.autoDump = true → ∀ e ∈ log, d.files.get? (fileName e.id) = some e

theorem fileName_injective : Function.Injective fileName := by
  intro i j h
  have hpadded := List.append_cancel_left (List.append_cancel_right h)
  exact Digits.padded_injective 3 hpadded

variable {d : DebugCapture} {log : List CaptureEntry}

theorem Captured.id_le (h : Captured d log) {e : CaptureEntry} (he : e ∈ log) :
    1 ≤ e.id ∧ e.id ≤ log.length := by
  have hmem : e.id ∈ log.map CaptureEntry.id := List.mem_map_of_mem he
  rw [h.numbered, List.mem_range'_1] at hmem
  omega

theorem Captured.unique (h : Captured d log) {e e' : CaptureEntry} (he : e ∈ log) (he' : e' ∈ log)
    (hid : e.id = e'.id) : e = e' := by
  have hnodup : (log.map CaptureEntry.id).Nodup := h.numbered ▸ List.nodup_range'
  exact List.inj_on_of_nodup_map hnodup he he' hid

/-- A file is written twice only with the same content. -/
theorem Captured.writeFile (h : Captured d log) {e : CaptureEntry} (he : e ∈ log) :
    Captured (d.writeFile e) log where
  kept := h.kept
  numbered := h.numbered
  next := h.next
  written name x hx := by
    rw [DebugCapture.writeFile, Dict.get?_set] at hx
    split at hx
    · next hname => exact Option.some.inj hx ▸ ⟨he, hname.symm⟩
    · exact h.written name x hx
  dumped hauto x hx := by
    rw [DebugCapture.writeFile, Dict.get?_set]
    split
    · next hname => rw [h.unique he hx (fileName_injective hname)]
    · exact h.dumped hauto x hx

theorem Captured.dumpAll (h : Captured d log) : Captured d.dumpAll log := by
  have hall : ∀ e ∈ d.captures, e ∈ log := by
    intro e he
    rw [h.kept] at he
    exact (Window.rtake_suffix _ _).subset he
  have hfold : ∀ (es : List CaptureEntry) (d : DebugCapture), Captured d log → (∀ e ∈ es, e ∈ log) →
      Captured (es.foldl DebugCapture.writeFile d) log := by
    intro es
    induction es with
    | nil => exact fun _ hd _ => hd
    | cons e es ih =>
      intro d hd hes
      exact ih _ (hd.writeFile (hes e (by simp))) fun x hx => hes x (by simp [hx])
  exact hfold _ _ h hall

/-- A capture is the newest entry, and drops the oldest when there are too many. -/
theorem Captured.capture (h : Captured d log) (hon : d.enabled = true) {entry : Nat → CaptureEntry}
    (hid : ∀ n, (entry n).id = n) : Captured (d.capture entry) (log ++ [entry d.nextId]) := by
  let e := entry d.nextId
  let captures := d.captures ++ [e]
  let d' : DebugCapture := { d with
    nextId := d.nextId + 1
    captures := if d.maxEntries < captures.length then captures.tail else captures }
  have hd : d.capture entry = if d.autoDump then d'.writeFile e else d' :=
    if_neg (by simp [hon])
  have hlen : d.captures.length ≤ d.maxEntries.toNat := by
    rw [h.kept, Window.length_rtake]
    exact Nat.min_le_left _ _
  have hkept : d'.captures = (log ++ [e]).rtake d.maxEntries.toNat := by
    have hone : captures.length = d.captures.length + 1 := by simp [captures]
    have htest : d.maxEntries < captures.length ↔ d.maxEntries.toNat < captures.length := by omega
    simp only [d', htest]
    rw [Window.tail_eq_rtake (by omega)]
    simp only [captures, h.kept, Window.rtake_append_rtake]
  have hnumbered : (log ++ [e]).map CaptureEntry.id = List.range' 1 (log ++ [e]).length := by
    rw [List.map_append, h.numbered, List.length_append, List.length_singleton, List.range'_concat]
    simp [e, hid, h.next, Nat.add_comm]
  have hnew : ∀ x ∈ log, fileName e.id ≠ fileName x.id := by
    intro x hx heq
    have hle := (h.id_le hx).2
    have hsame := fileName_injective heq
    rw [hid, h.next] at hsame
    omega
  rw [hd]
  split
  · -- the new entry is written at once
    refine ⟨hkept, hnumbered, by simp [DebugCapture.writeFile, d', h.next], fun name x hx => ?_,
      fun hauto x hx => ?_⟩
    · rw [DebugCapture.writeFile, Dict.get?_set] at hx
      split at hx
      · next hname => exact Option.some.inj hx ▸ ⟨by simp [e], hname.symm⟩
      · obtain ⟨hmem, hname⟩ := h.written name x hx
        exact ⟨by simp [hmem], hname⟩
    · rw [DebugCapture.writeFile, Dict.get?_set]
      rcases List.mem_append.mp hx with hx | hx
      · rw [if_neg (hnew x hx)]
        exact h.dumped hauto x hx
      · rw [List.mem_singleton.mp hx, if_pos rfl]
  · next hauto =>
    refine ⟨hkept, hnumbered, by simp [d', h.next], fun name x hx => ?_,
      fun hdump => absurd hdump hauto⟩
    obtain ⟨hmem, hname⟩ := h.written name x hx
    exact ⟨by simp [hmem], hname⟩

/-- Neither the switch nor the cache of the tokenizer is part of what is captured. -/
theorem Captured.frame (h : Captured d log) (enabled : Bool)
    (tokenizerMgr : Option Llm.TokenizerManager) :
    Captured { d with enabled, tokenizerMgr } log :=
  ⟨h.kept, h.numbered, h.next, h.written, h.dumped⟩

/-- What a run captures: the calls while it is switched on whose texts can be counted, numbered. -/
def recorded (tokenizer : Option Llm.Tokenizer) : Bool → Nat → List Step → List CaptureEntry
  | _, _, [] => []
  | _, id, .setEnabled value :: is => recorded tokenizer value id is
  | true, id, .call c :: is =>
    match c.counts? tokenizer with
    | none => recorded tokenizer true id is
    | some counts => c.entry id counts :: recorded tokenizer true (id + 1) is
  | enabled, id, _ :: is => recorded tokenizer enabled id is

theorem capture_frame (d : DebugCapture) (entry : Nat → CaptureEntry) :
    (d.capture entry).enabled = d.enabled ∧ (d.capture entry).tokenizerMgr = d.tokenizerMgr ∧
      (d.capture entry).maxEntries = d.maxEntries ∧ (d.capture entry).autoDump = d.autoDump := by
  unfold capture
  split
  · exact ⟨rfl, rfl, rfl, rfl⟩
  · simp only
    split <;> exact ⟨rfl, rfl, rfl, rfl⟩

theorem dumpAll_frame (d : DebugCapture) : ∃ files, d.dumpAll = { d with files } := by
  have hfold : ∀ (es : List CaptureEntry) (d : DebugCapture),
      ∃ files, es.foldl DebugCapture.writeFile d = { d with files } := by
    intro es
    induction es with
    | nil => exact fun d => ⟨d.files, rfl⟩
    | cons e es ih =>
      intro d
      obtain ⟨files, hfiles⟩ := ih (d.writeFile e)
      exact ⟨files, hfiles⟩
  exact hfold _ _

variable {tokenizer : Option Llm.Tokenizer}

/-- A run captures what it should, whatever has been captured before it. -/
theorem run_captured : ∀ (is : List Step) {d : DebugCapture} {log : List CaptureEntry},
    Captured d log → Counts tokenizer d.tokenizerMgr →
    let d' := Machine.run step d is
    Captured d' (log ++ recorded tokenizer d.enabled d.nextId is) ∧
      d'.maxEntries = d.maxEntries ∧ d'.autoDump = d.autoDump
  | [], d, log, h, _ => by simpa [recorded] using h
  | .setEnabled value :: is, d, log, h, hc => by
    have hnext := run_captured is (h.frame value d.tokenizerMgr) hc
    cases hon : d.enabled <;> exact hnext
  | .dumpAll :: is, d, log, h, hc => by
    obtain ⟨files, hfiles⟩ := d.dumpAll_frame
    have hdump := h.dumpAll
    rw [hfiles] at hdump
    have hnext := run_captured is hdump hc
    rw [Machine.run_cons, step, hfiles]
    cases hon : d.enabled <;> simp only [hon] at hnext <;> exact hnext
  | .count text :: is, d, log, h, hc => by
    obtain ⟨mgr, hmgr, hcount⟩ := countTokens_spec hc text
    have hnext := run_captured is (h.frame d.enabled mgr) hmgr
    rw [Machine.run_cons, step, hcount]
    cases hon : d.enabled <;> simp only [hon] at hnext <;> exact hnext
  | .call c :: is, d, log, h, hc => by
    rw [Machine.run_cons, step]
    cases hon : d.enabled with
    | false =>
      have hsame : (d.captureDebug c).2 = d := by simp [captureDebug, hon]
      have hnext := run_captured is h hc
      rw [hon] at hnext
      rw [hsame]
      exact hnext
    | true =>
      obtain ⟨mgr, hmgr, hcall⟩ := captureDebug_spec hc hon c
      have hd := h.frame d.enabled mgr
      rw [hcall, recorded]
      cases hcounts : c.counts? tokenizer with
      | none =>
        have hnext := run_captured is hd hmgr
        simp only [hon] at hnext ⊢
        exact hnext
      | some counts =>
        let d' : DebugCapture := { d with tokenizerMgr := mgr }
        obtain ⟨henabled, hkeep, hmax, hauto⟩ := d'.capture_frame fun id => c.entry id counts
        have hcap : Captured (d'.capture fun id => c.entry id counts) _ :=
          Captured.capture (d := d') hd hon fun _ => rfl
        obtain ⟨hend, hmax', hauto'⟩ := run_captured is hcap (by rw [hkeep]; exact hmgr)
        have hid : (d'.capture fun id => c.entry id counts).nextId = d.nextId + 1 := by
          rw [hcap.next, h.next, List.length_append, List.length_singleton]
        rw [hid, henabled, show d'.enabled = true from hon, List.append_assoc] at hend
        exact ⟨hend, hmax'.trans hmax, hauto'.trans hauto⟩

/-- A capture that is not switched on, with nothing captured. -/
def start (tokenizerMgr : Option Llm.TokenizerManager) (maxEntries : Int) (autoDump : Bool) :
    DebugCapture :=
  { maxEntries, tokenizerMgr, autoDump }

theorem start_captured (tokenizerMgr : Option Llm.TokenizerManager) (maxEntries : Int)
    (autoDump : Bool) : Captured (start tokenizerMgr maxEntries autoDump) [] where
  kept := by simp [start, List.rtake]
  numbered := rfl
  next := rfl
  written name e h := absurd h (by simp [start, Dict.get?, Dict.empty, Dict.lookup])
  dumped _ e h := absurd h (by simp)

theorem Captured.id_getElem? (h : Captured d log) {i : Nat} {e : CaptureEntry}
    (he : log[i]? = some e) : e.id = i + 1 := by
  have hlt : i < log.length := (List.getElem?_eq_some_iff.mp he).1
  have hmap : (log.map CaptureEntry.id)[i]? = some e.id := by simp [he]
  rw [h.numbered, List.getElem?_range' hlt] at hmap
  have hsome := Option.some.inj hmap
  omega

/-- A number finds its entry exactly as long as that is one of the last ones. -/
theorem Captured.showEntry_eq (h : Captured d log) (i : Nat) :
    d.showEntry (i + 1) = if log.length ≤ i + d.maxEntries.toNat then log[i]? else none := by
  rw [showEntry, h.kept, List.rtake]
  cases hfind : (log.drop (log.length - d.maxEntries.toNat)).find?
      fun e => (e.id : Int) = (i : Int) + 1 with
  | some e =>
    have hid : (e.id : Int) = (i : Int) + 1 := by simpa using List.find?_some hfind
    obtain ⟨k, hk⟩ := List.mem_iff_getElem?.mp (List.mem_of_find?_eq_some hfind)
    rw [List.getElem?_drop] at hk
    have hnumber := h.id_getElem? hk
    have hi : log.length - d.maxEntries.toNat + k = i := by omega
    rw [if_pos (by omega), ← hi, hk]
  | none =>
    split
    · next hlast =>
      cases he : log[i]? with
      | none => rfl
      | some e =>
        have hmem : e ∈ log.drop (log.length - d.maxEntries.toNat) := by
          refine List.mem_of_getElem? (i := i - (log.length - d.maxEntries.toNat)) ?_
          rw [List.getElem?_drop, Nat.add_sub_cancel' (by omega), he]
        have hno := List.find?_eq_none.mp hfind e hmem
        exact absurd (by rw [h.id_getElem? he]; simp) hno
    · rfl

end DebugCapture

open DebugCapture in
/-- Whatever is switched, called, dumped and counted in whatever order: what is captured are the
calls while it is switched on, numbered from one and counted as the tokenizer alone counts. The
last ones are kept and found by their numbers, a file has the entry its name says, and with
`autoDump` no entry is without its file. -/
theorem captures_kept (fromFile hub : String → Option Llm.Tokenizer)
    (sources : Option (String × String)) (maxEntries : Int) (autoDump : Bool) (is : List Step) :
    let mgr := sources.map fun s => Llm.TokenizerManager.load fromFile hub s.1 s.2
    let log := recorded (mgr.bind Llm.TokenizerManager.tokenizer) false 1 is
    let d := Machine.run step (start mgr maxEntries autoDump) is
    d.captures = log.rtake maxEntries.toNat ∧
      (∀ i : Nat, d.showEntry (i + 1) =
        if log.length ≤ i + maxEntries.toNat then log[i]? else none) ∧
      (∀ name e, d.files.get? name = some e → e ∈ log ∧ name = fileName e.id) ∧
      (autoDump = true → ∀ e ∈ log, d.files.get? (fileName e.id) = some e) := by
  intro mgr log d
  have hcounts : Counts (mgr.bind Llm.TokenizerManager.tokenizer) mgr := by
    cases sources with
    | none => rfl
    | some s => exact ⟨Llm.TokenizerManager.load_sound fromFile hub s.1 s.2, rfl⟩
  obtain ⟨hd, hmax, hauto⟩ := run_captured is (start_captured mgr maxEntries autoDump) hcounts
  have hkept := hd.kept
  have hshow := hd.showEntry_eq
  rw [hmax] at hkept
  simp only [hmax] at hshow
  exact ⟨hkept, hshow, hd.written, fun hdump => hd.dumped (hauto.trans hdump)⟩

end IrisMind.Kernel
