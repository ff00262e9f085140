import IrisMind.Lib.KeyOrder
import IrisMind.Memory.Extraction
import Mathlib.Logic.Equiv.Basic
import Mathlib.Tactic.Tauto

/-! # The hash of a candidate

A candidate that says what another one says is to have the same hash. The order of keys is not
to count, nor is white space around a text, nor is a field that changes on its own, in the
metadata as little as beside it. The hash of two candidates is compared here with what they say
on these terms, key by key. -/
namespace IrisMind.Memory
open IrisMind.Lib

/-- What a hash is made with: how a value is written whose keys are in order, unless it cannot be,
and the hex digits of what is written. -/
structure Digests where
  encode : Json → Except String String
  sha256 : String → String

namespace Digests

def volatileTopLevelKeys : List String :=
  ["id", "created_at", "updated_at", "timestamp", "retry_count", "status", "rejection_reason"]

def keysToTrim : List String :=
  ["content", "evidence", "reason", "trigger_summary", "proposed_patch", "lesson"]

def stripVolatile (payload : List (String × Json)) : List (String × Json) :=
  payload.filter fun e => e.1 ∉ volatileTopLevelKeys

/-- What is left of the value of a key. -/
def trimmed (k : String) : Json → Json
  | .str s => if k ∈ keysToTrim then .str (Text.strip s) else .str s
  | j => j

def normalizeStringsInPayload (payload : List (String × Json)) : List (String × Json) :=
  payload.map fun e => (e.1, trimmed e.1 e.2)

variable (d : Digests)

/-- The digest of what `dumps` writes with its keys sorted. -/
def digest (j : Json) : Except String String := do
  return d.sha256 (← d.encode j.sortKeys)

/-- The metadata are signed as they are. -/
def computePayloadSignature (payload : List (String × Json)) : Except String String :=
  d.digest (.obj (normalizeStringsInPayload (stripVolatile payload)))

def blob (targetStore accountId roomId payloadSig : String) : List (String × Json) :=
  [("target_store", .str (Text.strip targetStore)), ("account_id", .str (Text.strip accountId)),
    ("room_id", .str (Text.strip roomId)), ("payload_sig", .str payloadSig)]

def computeCandidateHash (targetStore : String) (payload : List (String × Json))
    (accountId roomId : String) : Except String String := do
  d.digest (.obj (blob targetStore accountId roomId (← d.computePayloadSignature payload)))

/-- Different values are written differently, and have different digests. -/
structure Injective : Prop where
  encode : ∀ {j j' : Json} {s : String}, d.encode j = .ok s → d.encode j' = .ok s → j = j'
  sha256 : Function.Injective d.sha256

end Digests

/-- What is hashed. A dictionary has no key twice. -/
structure HashInput where
  targetStore : String
  payload : List (String × Json)
  accountId : String := ""
  roomId : String := ""
  distinct : (Json.obj payload).distinct = true

def HashInput.hash (x : HashInput) (d : Digests) : Except String String :=
  d.computeCandidateHash x.targetStore x.payload x.accountId x.roomId

/-! ## What is the same -/

/-- Dictionaries that agree on all keys but some. -/
def AgreeBut (ignored : List String) (same : String → Json → Json → Prop)
    (p q : List (String × Json)) : Prop :=
  ∀ k ∉ ignored, Option.Rel (same k) (Dict.lookup k p) (Dict.lookup k q)

theorem AgreeBut.mono {ignored : List String} {same same' : String → Json → Json → Prop}
    (himp : ∀ k j other, same k j other → same' k j other) {p q : List (String × Json)}
    (h : AgreeBut ignored same p q) : AgreeBut ignored same' p q := by
  intro k hk
  have hrel := h k hk
  revert hrel
  cases Dict.lookup k p with
  | none => cases Dict.lookup k q <;> simp
  | some j => cases Dict.lookup k q <;> simp; exact himp k j _

/-- Texts with nothing but white space around what they share. -/
def Padded (s t : String) : Prop := Text.strip s = Text.strip t

namespace HashInput

/-- The fields that change on their own. -/
def volatileKeys : List String :=
  ["id", "created_at", "updated_at", "timestamp", "retry_count", "status"]

/-- The values of a key say the same, up to the order of keys, to white space around the texts of
fields and, in the metadata, to what changes on its own. -/
def SameField (k : String) (j other : Json) : Prop :=
  Json.UpTo Padded Padded j other ∨
    k = "metadata" ∧ ∃ fields others, j = .obj fields ∧ other = .obj others ∧
      AgreeBut volatileKeys (fun _ => Json.UpTo Padded Padded) fields others

/-- The same store, account and room. -/
def SameScope (x y : HashInput) : Prop :=
  Padded x.targetStore y.targetStore ∧ Padded x.accountId y.accountId ∧ Padded x.roomId y.roomId

/-- Candidates that say the same. -/
def SameCandidate (x y : HashInput) : Prop :=
  x.SameScope y ∧ AgreeBut volatileKeys SameField x.payload y.payload

/-- The values of a key are hashed alike: they are texts, of a key whose texts are trimmed, or the
same up to the order of keys. -/
def HashedAlike (p q : List (String × Json)) (k : String) : Prop :=
  k ∈ Digests.keysToTrim ∧
      (∃ s t, Dict.lookup k p = some (.str s) ∧ Dict.lookup k q = some (.str t)) ∨
    Option.Rel (Json.UpTo Eq Eq) (Dict.lookup k p) (Dict.lookup k q)

/-- Two candidates have different scopes; or they differ in a field that is hashed, by more than
the hash is to leave out; or else, all fields that are hashed are hashed alike exactly if the
reasons for a rejection say the same, which are not hashed. -/
def Discerned (x y : HashInput) : Prop :=
  ¬ x.SameScope y ∨ ¬ AgreeBut Digests.volatileTopLevelKeys SameField x.payload y.payload ∨
    ((∀ k ∉ Digests.volatileTopLevelKeys, HashedAlike x.payload y.payload k) ↔
      Option.Rel (SameField "rejection_reason") (Dict.lookup "rejection_reason" x.payload)
        (Dict.lookup "rejection_reason" y.payload))

end HashInput

/-! ## Equal hashes -/

namespace Digests

variable {d : Digests} {h h' : String}

theorem digest_eq_iff (hd : d.Injective) {j other : Json} (hj : j.distinct = true)
    (hother : other.distinct = true) (hh : d.digest j = .ok h) (hh' : d.digest other = .ok h') :
    h = h' ↔ Json.UpTo Eq Eq j other := by
  obtain ⟨s, hs, hsum⟩ := bind_ok hh
  obtain ⟨t, ht, hsum'⟩ := bind_ok hh'
  cases hsum
  cases hsum'
  rw [hd.sha256.eq_iff, ← Json.sortKeys_eq_iff hj hother]
  constructor
  · rintro rfl
    exact hd.encode hs ht
  · intro hsame
    rw [hsame, ht] at hs
    exact (Except.ok.inj hs).symm

theorem distinct_trimmed (k : String) {j : Json} (h : j.distinct = true) :
    (trimmed k j).distinct = true := by
  cases j with
  | str s =>
    rw [trimmed]
    split <;> rfl
  | _ => exact h

theorem distinct_normalized {payload : List (String × Json)}
    (h : (Json.obj payload).distinct = true) :
    (Json.obj (normalizeStringsInPayload (stripVolatile payload))).distinct = true := by
  rw [Json.distinct_obj] at h ⊢
  have hkeys : (normalizeStringsInPayload (stripVolatile payload)).map Prod.fst =
      (stripVolatile payload).map Prod.fst := by
    rw [normalizeStringsInPayload, List.map_map]
    rfl
  refine ⟨hkeys ▸ h.1.sublist (List.filter_sublist.map _), fun e he => ?_⟩
  obtain ⟨e', he', rfl⟩ := List.mem_map.mp he
  exact distinct_trimmed _ (h.2 e' (List.mem_of_mem_filter he'))

theorem lookup_normalized (payload : List (String × Json)) (k : String) :
    Dict.lookup k (normalizeStringsInPayload (stripVolatile payload)) =
      if k ∈ volatileTopLevelKeys then none else (Dict.lookup k payload).map (trimmed k) := by
  have hstrip := Dict.lookup_filter (fun k => decide (k ∉ volatileTopLevelKeys)) k payload
  rw [normalizeStringsInPayload, Dict.lookup_map, stripVolatile, hstrip]
  by_cases hk : k ∈ volatileTopLevelKeys <;> simp [hk]

/-- Values are trimmed to the same one if both are texts to be trimmed or neither changes. -/
theorem trimmed_upTo_iff {k : String} {j other : Json} :
    Json.UpTo Eq Eq (trimmed k j) (trimmed k other) ↔
      k ∈ keysToTrim ∧ (∃ s t, j = .str s ∧ other = .str t ∧ Padded s t) ∨
        Json.UpTo Eq Eq j other := by
  by_cases hk : k ∈ keysToTrim
  · cases j with
    | str s =>
      cases other with
      | str t =>
        have hpad : s = t → Padded s t := congrArg Text.strip
        simpa [trimmed, hk, Json.upTo_str, Padded] using hpad
      | _ => simp [trimmed, hk, Json.UpTo]
    | _ => cases other <;> simp [trimmed, hk, Json.UpTo]
  · have hsame : ∀ j, trimmed k j = j := fun j => by cases j <;> simp [trimmed, hk]
    rw [hsame, hsame]
    simp [hk]

/-- The values of a key are trimmed to the same one. -/
def SameTrimmed (k : String) (j other : Json) : Prop :=
  Json.UpTo Eq Eq (trimmed k j) (trimmed k other)

theorem upTo_normalized_iff {p q : List (String × Json)} (h : (Json.obj p).distinct = true) :
    Json.UpTo Eq Eq (.obj (normalizeStringsInPayload (stripVolatile p)))
        (.obj (normalizeStringsInPayload (stripVolatile q))) ↔
      AgreeBut volatileTopLevelKeys SameTrimmed p q := by
  rw [Json.upTo_obj_iff (Json.distinct_obj.mp (distinct_normalized h)).1]
  refine forall_congr' fun k => ?_
  rw [lookup_normalized, lookup_normalized]
  by_cases hk : k ∈ volatileTopLevelKeys
  · simp only [hk, if_true, not_true_eq_false, false_implies, iff_true]
    exact .none
  · simp only [hk, if_false, not_false_eq_true, true_implies]
    cases Dict.lookup k p <;> cases Dict.lookup k q <;> simp [SameTrimmed]

theorem distinct_blob (targetStore accountId roomId payloadSig : String) :
    (Json.obj (blob targetStore accountId roomId payloadSig)).distinct = true := by
  simp [blob, Json.distinct, Json.distinctFields]

theorem upTo_blob_iff {x y : HashInput} {sig sig' : String} :
    Json.UpTo Eq Eq (.obj (blob x.targetStore x.accountId x.roomId sig))
        (.obj (blob y.targetStore y.accountId y.roomId sig')) ↔ x.SameScope y ∧ sig = sig' := by
  have hkeys : ∀ k ∈ (blob y.targetStore y.accountId y.roomId sig').map Prod.fst,
      k ∈ (blob x.targetStore x.accountId x.roomId sig).map Prod.fst := by
    intro k hk
    simpa only [blob, List.map_cons, List.map_nil] using hk
  rw [Json.upTo_obj, and_iff_right hkeys]
  simp [blob, Json.FieldsUpTo, Dict.lookup, Json.upTo_str, HashInput.SameScope, Padded, and_assoc]

/-- Two hashes are the same if the scopes are, and all that is hashed of the payloads. -/
theorem hash_eq_iff (hd : d.Injective) {x y : HashInput} (hx : x.hash d = .ok h)
    (hy : y.hash d = .ok h') : h = h' ↔
      x.SameScope y ∧ AgreeBut volatileTopLevelKeys SameTrimmed x.payload y.payload := by
  obtain ⟨sig, hsig, hblob⟩ := bind_ok hx
  obtain ⟨sig', hsig', hblob'⟩ := bind_ok hy
  rw [digest_eq_iff hd (distinct_blob ..) (distinct_blob ..) hblob hblob', upTo_blob_iff,
    digest_eq_iff hd (distinct_normalized x.distinct) (distinct_normalized y.distinct) hsig hsig',
    upTo_normalized_iff x.distinct]

end Digests

/-! ## When the hash tells what differs -/

namespace HashInput
open Digests

variable {p q : List (String × Json)} {k : String}

/-- What is trimmed to the same value says the same. -/
theorem sameField_of_trimmed {j other : Json} (h : SameTrimmed k j other) :
    SameField k j other := by
  refine .inl ?_
  rcases trimmed_upTo_iff.mp h with ⟨_, s, t, rfl, rfl, hpad⟩ | h
  · exact Json.upTo_str.mpr hpad
  · exact h.mono (fun _ _ => congrArg Text.strip) fun _ _ => congrArg Text.strip

/-- Of values that say the same, those are the same to the hash that are hashed alike. -/
theorem hashedAlike_iff (h : Option.Rel (SameField k) (Dict.lookup k p) (Dict.lookup k q)) :
    HashedAlike p q k ↔ Option.Rel (SameTrimmed k) (Dict.lookup k p) (Dict.lookup k q) := by
  unfold HashedAlike
  revert h
  cases Dict.lookup k p with
  | none => cases Dict.lookup k q <;> simp
  | some j =>
    cases Dict.lookup k q with
    | none => simp
    | some other =>
      simp only [Option.rel_some_some, Option.some.injEq]
      rw [SameTrimmed, trimmed_upTo_iff]
      intro hsame
      refine or_congr_left (and_congr_right fun _ => exists₂_congr fun s t => ?_)
      refine ⟨?_, fun ⟨hj, hother, _⟩ => ⟨hj, hother⟩⟩
      rintro ⟨rfl, rfl⟩
      rcases hsame with hsame | ⟨_, _, _, hobj, _⟩
      · exact ⟨rfl, rfl, Json.upTo_str.mp hsame⟩
      · cases hobj

/-- The reasons for a rejection aside, the hash leaves out what it is to leave out. -/
theorem sameCandidate_iff {x y : HashInput} : x.SameCandidate y ↔
    x.SameScope y ∧ AgreeBut volatileTopLevelKeys SameField x.payload y.payload ∧
      Option.Rel (SameField "rejection_reason") (Dict.lookup "rejection_reason" x.payload)
        (Dict.lookup "rejection_reason" y.payload) := by
  have hkeys : ∀ k, k ∉ volatileKeys ↔ k ∉ volatileTopLevelKeys ∨ k = "rejection_reason" := by
    intro k
    by_cases hk : k = "rejection_reason" <;> simp [volatileKeys, volatileTopLevelKeys, hk]
  simp only [SameCandidate, AgreeBut, hkeys, or_imp, forall_and, forall_eq]

end HashInput
open HashInput

/-- The hashes of two candidates are equal exactly if the candidates say the same, in just those
cases where the hash discerns what is to count. -/
theorem hash_faithful_iff {d : Digests} (hd : d.Injective) {x y : HashInput} {h h' : String}
    (hx : x.hash d = .ok h) (hy : y.hash d = .ok h') :
    (h = h' ↔ x.SameCandidate y) ↔ x.Discerned y := by
  rw [Digests.hash_eq_iff hd hx hy, sameCandidate_iff, Discerned]
  by_cases hscope : x.SameScope y
  swap
  · simp [hscope]
  by_cases hsame : AgreeBut Digests.volatileTopLevelKeys SameField x.payload y.payload
  · have halike : (∀ k ∉ Digests.volatileTopLevelKeys, HashedAlike x.payload y.payload k) ↔
        AgreeBut Digests.volatileTopLevelKeys Digests.SameTrimmed x.payload y.payload :=
      forall₂_congr fun k hk => hashedAlike_iff (hsame k hk)
    rw [halike]
    tauto
  · have htrimmed : ¬ AgreeBut Digests.volatileTopLevelKeys Digests.SameTrimmed
        x.payload y.payload :=
      mt (AgreeBut.mono fun _ _ _ => sameField_of_trimmed) hsame
    simp [hsame, htrimmed]

/-- The payload of a lesson that was learnt at a time. -/
def learnt (time : String) : List (String × Json) :=
  [("content", .str "likes trees"), ("metadata", .obj [("timestamp", .str time)])]

def learntText (time : String) : String :=
  "\x7b\"content\":\"likes trees\",\"metadata\":\x7b\"timestamp\":\"" ++ time ++ "\"\x7d\x7d"

def blobText (payloadSig : String) : String :=
  "\x7b\"account_id\":\"a\",\"payload_sig\":\"" ++ payloadSig ++
    "\",\"room_id\":\"r\",\"target_store\":\"semantic\"\x7d"

/-- Texts and their digests. -/
def sums : List (String × String) :=
  [(learntText "t1", "08fc65c3e3d0c5a5c4bf7c67d3aba974d59411a34b3a3463e4368a8a59a46aa2"),
    (learntText "t2", "2f4979684054110fc0fbddd15e86f9c4572ea4386db8b987c4ac26e13224dc0c"),
    (blobText "08fc65c3e3d0c5a5c4bf7c67d3aba974d59411a34b3a3463e4368a8a59a46aa2",
      "21823345711438864ae9a6fcb79a1c16b469a9faaccf46ae1a98e8a876ef3f06"),
    (blobText "2f4979684054110fc0fbddd15e86f9c4572ea4386db8b987c4ac26e13224dc0c",
      "3a9a8780b7547d2ceea7decb59c55e76fc778154697ab0d7c99b37dfd721d09e")]

/-- A library that writes such lessons alone. -/
def lessonDigests : Digests where
  encode
    | .obj [("content", .str "likes trees"), ("metadata", .obj [("timestamp", .str time)])] =>
      .ok (learntText time)
    | .obj [("account_id", .str "a"), ("payload_sig", .str payloadSig), ("room_id", .str "r"),
        ("target_store", .str "semantic")] => .ok (blobText payloadSig)
    | _ => .error "Type is not JSON serializable"
  sha256 s := sums.foldr (fun e sum => (Equiv.swap e.1 e.2).trans sum) (Equiv.refl String) s

theorem learntText_ne_blobText {time sig : String} : learntText time ≠ blobText sig := by
  unfold learntText blobText
  intro heq
  have hstart := congrArg (fun s => s.toList.take 3) heq
  simp only [String.toList_append, List.append_assoc] at hstart
  rw [List.take_append_of_le_length (by decide), List.take_append_of_le_length (by decide)]
    at hstart
  revert hstart
  decide

theorem lessonDigests_injective : lessonDigests.Injective where
  sha256 := Equiv.injective (sums.foldr _ _)
  encode {j j' s} h h' := by
    have hlearnt : ∀ {time time' : String}, learntText time = learntText time' → time = time' := by
      unfold learntText
      intro time time' heq
      exact (String.append_right_inj _).mp ((String.append_left_inj _).mp heq)
    have hblob : ∀ {sig sig' : String}, blobText sig = blobText sig' → sig = sig' := by
      unfold blobText
      intro sig sig' heq
      exact (String.append_right_inj _).mp ((String.append_left_inj _).mp heq)
    unfold lessonDigests at h h'
    dsimp only at h h'
    split at h
    · cases h
      split at h'
      · rw [hlearnt (Except.ok.inj h')]
      · exact absurd (Except.ok.inj h').symm learntText_ne_blobText
      · cases h'
    · cases h
      split at h'
      · exact absurd (Except.ok.inj h') learntText_ne_blobText
      · rw [hblob (Except.ok.inj h')]
      · cases h'
    · cases h

def lessonAt (time content : String) : HashInput where
  targetStore := "semantic"
  payload := [("content", .str content), ("metadata", .obj [("timestamp", .str time)])]
  accountId := "a"
  roomId := "r"
  distinct := by simp [Json.distinct, Json.distinctFields]

theorem hash_lessonAt :
    (lessonAt "t1" "likes trees").hash lessonDigests =
        .ok "21823345711438864ae9a6fcb79a1c16b469a9faaccf46ae1a98e8a876ef3f06" ∧
      (lessonAt "t1" " likes trees").hash lessonDigests =
        .ok "21823345711438864ae9a6fcb79a1c16b469a9faaccf46ae1a98e8a876ef3f06" ∧
      (lessonAt "t2" "likes trees").hash lessonDigests =
        .ok "3a9a8780b7547d2ceea7decb59c55e76fc778154697ab0d7c99b37dfd721d09e" :=
  ⟨by decide +kernel, by decide +kernel, by decide +kernel⟩

theorem hash_faithful_padded :
    (lessonAt "t1" " likes trees").SameCandidate (lessonAt "t1" "likes trees") := by
  have hreason : ∀ content,
      Dict.lookup "rejection_reason" (lessonAt "t1" content).payload = none := fun content => by
    simp [lessonAt, Dict.lookup]
  refine ((hash_faithful_iff lessonDigests_injective hash_lessonAt.2.1 hash_lessonAt.1).mpr
    (.inr (.inr ⟨fun _ => ?_, fun _ k _ => ?_⟩))).mp rfl
  · rw [hreason, hreason]
    exact .none
  by_cases hcontent : k = "content"
  · subst hcontent
    exact .inl ⟨by decide, " likes trees", "likes trees", rfl, rfl⟩
  · refine .inr ?_
    simp only [lessonAt, Dict.lookup, Ne.symm hcontent, if_false]
    split
    · simp [Json.upTo_obj, Json.upTo_str, Json.FieldsUpTo, Dict.lookup]
    · exact .none

/-- The time in the metadata changes the hash. -/
theorem time_discerned :
    ¬ ∀ (d : Digests), d.Injective → ∀ (x y : HashInput) (h h' : String), x.hash d = .ok h →
      y.hash d = .ok h' → (h = h' ↔ x.SameCandidate y) := by
  intro hall
  have hiff := hall lessonDigests lessonDigests_injective _ _ _ _ hash_lessonAt.1 hash_lessonAt.2.2
  have hne : "21823345711438864ae9a6fcb79a1c16b469a9faaccf46ae1a98e8a876ef3f06" ≠
      "3a9a8780b7547d2ceea7decb59c55e76fc778154697ab0d7c99b37dfd721d09e" := by decide
  refine hne (hiff.mpr ⟨⟨rfl, rfl, rfl⟩, fun k _ => ?_⟩)
  simp only [lessonAt, Dict.lookup]
  split
  · exact .some (.inl (Json.upTo_str.mpr rfl))
  · split
    next hmetadata =>
      refine .some (.inr ⟨hmetadata.symm, _, _, rfl, rfl, fun k hk => ?_⟩)
      have htime : "timestamp" ≠ k := fun h => hk (h ▸ by decide)
      simp [Dict.lookup, htime]
    · exact .none

end IrisMind.Memory
