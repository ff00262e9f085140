import IrisMind.Lib.Machine
import IrisMind.Memory.CandidateStore

/-! # The goals, saved and loaded

The goals are kept by their ids. They are saved as one list, and a list that is loaded replaces
them, one goal after another: what was there goes before the first one is looked at. -/
namespace IrisMind.Memory
open IrisMind.Lib

/-- A float: a number, one of the infinities, or none of these. A number is exact. -/
inductive PyFloat where
  | finite (q : ℚ)
  | infinity (negative : Bool)
  | nan
deriving DecidableEq

namespace PyFloat

def isFinite : PyFloat → Bool
  | finite _ => true
  | _ => false

def sub : PyFloat → PyFloat → PyFloat
  | finite p, finite q => finite (p - q)
  | finite _, infinity b => infinity (!b)
  | infinity b, finite _ => infinity b
  | infinity b, infinity c => if b = c then nan else infinity b
  | _, _ => nan

def lt : PyFloat → PyFloat → Bool
  | finite p, finite q => p < q
  | finite _, infinity b => !b
  | infinity b, finite _ => b
  | infinity b, infinity c => b && !c
  | _, _ => false

/-- `max(0.0, x)` -/
def atLeastZero (x : PyFloat) : PyFloat := if lt (finite 0) x then x else finite 0

/-- `min(1.0, x)` -/
def atMostOne (x : PyFloat) : PyFloat := if lt x (finite 1) then x else finite 1

/-- A float is written as a number, or as null. -/
def dumped : PyFloat → Json
  | finite q => .num q
  | _ => .null

/-- The float that a field is validated as. -/
def read (parse : String → Option PyFloat) : Json → Option PyFloat
  | .bool b => some (finite (if b then 1 else 0))
  | .int n => some (finite n)
  | .num q => some (finite q)
  | .str s => parse s
  | _ => none

end PyFloat

structure LongTermGoal where
  id : String
  description : String := ""
  weight : PyFloat := .finite 1
  createdAt : PyFloat
  updatedAt : PyFloat
deriving DecidableEq

/-- What a goal without them is given: an id, and the time. -/
structure Drawn where
  id : String
  createdAt : ℚ
  updatedAt : ℚ

/-- Files are written and read in bytes; a text may be read as a float. -/
structure GoalSetup (β : Type) where
  dumps : Json → β
  loads : β → Option Json
  parse : String → Option PyFloat

namespace LongTermGoal

variable {β : Type} (o : GoalSetup β)

def decay (g : LongTermGoal) (amount : PyFloat) (now : ℚ) : LongTermGoal :=
  { g with weight := (g.weight.sub amount).atLeastZero, updatedAt := .finite now }

def modelDump (g : LongTermGoal) : Json :=
  .obj [("id", .str g.id), ("description", .str g.description), ("weight", g.weight.dumped),
    ("created_at", g.createdAt.dumped), ("updated_at", g.updatedAt.dumped)]

def modelValidate (drawn : Drawn) : Json → Option LongTermGoal
  | .obj fields => do
    let id ← fieldOr readText drawn.id (Dict.lookup "id" fields)
    let description ← fieldOr readText "" (Dict.lookup "description" fields)
    let weight ← fieldOr (PyFloat.read o.parse) (.finite 1) (Dict.lookup "weight" fields)
    let createdAt ← fieldOr (PyFloat.read o.parse) (.finite drawn.createdAt)
      (Dict.lookup "created_at" fields)
    let updatedAt ← fieldOr (PyFloat.read o.parse) (.finite drawn.updatedAt)
      (Dict.lookup "updated_at" fields)
    return { id, description, weight, createdAt, updatedAt }
  | _ => none

/-- The item is a goal. -/
def Valid (item : Json) : Prop := ∃ drawn g, modelValidate o drawn item = some g

def isFinite (g : LongTermGoal) : Bool :=
  g.weight.isFinite && g.createdAt.isFinite && g.updatedAt.isFinite

end LongTermGoal

structure GoalStore where
  goals : Dict String LongTermGoal := .empty

namespace GoalStore

section Code

variable {β : Type} (o : GoalSetup β) (s : GoalStore)

def put (g : LongTermGoal) : GoalStore := { s with goals := s.goals.set g.id g }

def addGoal (drawn : Drawn) (description : String) (weight : PyFloat) : GoalStore :=
  s.put { id := drawn.id, description, weight := weight.atMostOne.atLeastZero
          createdAt := .finite drawn.createdAt, updatedAt := .finite drawn.updatedAt }

def removeGoal (goalId : String) : GoalStore := { s with goals := s.goals.erase goalId }

def decayGoals (decayRate removeThreshold : PyFloat) (now : ℚ) : GoalStore :=
  let goals := s.goals.mapValues fun g => g.decay decayRate now
  let toRemove := (goals.values.filter fun g => g.weight.lt removeThreshold).map (·.id)
  toRemove.foldl removeGoal { s with goals }

def clear (_ : GoalStore) : GoalStore := { goals := .empty }

/-- The content of the file that is written. -/
def save : β := o.dumps (.arr (s.goals.values.map (·.modelDump)))

/-- What a loop over a value goes over; over a number or null there is none. -/
def itemsOf : Json → Option (List Json)
  | .arr items => some items
  | .obj fields => some (fields.map fun e => .str e.1)
  | .str text => some (text.toList.map fun c => .str c.toString)
  | _ => none

/-- The loop of `load`. The first item that is no goal ends it. -/
def loadItems (draw : Nat → Drawn) : Nat → GoalStore → List Json → GoalStore
  | _, s, [] => s
  | n, s, item :: items => match LongTermGoal.modelValidate o (draw n) item with
    | some g => loadItems draw (n + 1) (s.put g) items
    | none => s

/-- The file may not be there, and it may have any content. -/
def load (draw : Nat → Drawn) (file : Option β) : GoalStore :=
  match file with
  | none => s
  | some content => match o.loads content with
    | none => s
    | some data => match itemsOf data with
      | none => s.clear
      | some items => loadItems o draw 0 s.clear items

end Code

inductive GoalCall (β : Type) where
  | add (drawn : Drawn) (description : String) (weight : PyFloat)
  | remove (goalId : String)
  | decay (decayRate removeThreshold : PyFloat) (now : ℚ)
  | clear
  | load (draw : Nat → Drawn) (file : Option β)

variable {β : Type} (o : GoalSetup β)

def step (s : GoalStore) : GoalCall β → GoalStore
  | .add drawn description weight => s.addGoal drawn description weight
  | .remove goalId => s.removeGoal goalId
  | .decay decayRate removeThreshold now => s.decayGoals decayRate removeThreshold now
  | .clear => s.clear
  | .load draw file => s.load o draw file

/-! ## What is promised -/

/-- The content is a list of goals. -/
def ValidContent (content : β) : Prop :=
  ∃ items, o.loads content = some (.arr items) ∧ ∀ item ∈ items, LongTermGoal.Valid o item

/-- The goals among the items, up to the first item that is none. -/
def validPrefix (draw : Nat → Drawn) (items : List (Json × Nat)) : List LongTermGoal :=
  ((items.map fun e => LongTermGoal.modelValidate o (draw e.2) e.1).takeWhile
    Option.isSome).filterMap id

/-- The goals that stand before the first item that is none. -/
def goalsBefore (draw : Nat → Drawn) (data : Json) : List LongTermGoal :=
  validPrefix o draw ((itemsOf data).getD []).zipIdx

/-- The goals by their ids; of two with the same id the later one counts. -/
def ofGoals (goals : List LongTermGoal) : Dict String LongTermGoal :=
  Dict.ofList (goals.map fun g => (g.id, g))

/-- A goal is kept under its id. -/
def Keyed (s : GoalStore) : Prop := ∀ e ∈ s.goals.entries, e.1 = e.2.id

variable {o} {s : GoalStore}

/-! ## Goals are kept under their ids -/

theorem keyed_put (h : s.Keyed) (g : LongTermGoal) : (s.put g).Keyed := by
  rintro ⟨k, g'⟩ he
  rw [Dict.mem_entries_iff, put, Dict.get?_set] at he
  split at he
  · next hk =>
    cases he
    exact hk.symm
  · exact h (k, g') (Dict.mem_entries_iff.mpr he)

theorem keyed_removeGoal (h : s.Keyed) (goalId : String) : (s.removeGoal goalId).Keyed :=
  fun e he => h e (List.mem_of_mem_filter he)

theorem keyed_decayGoals (h : s.Keyed) (decayRate removeThreshold : PyFloat) (now : ℚ) :
    (s.decayGoals decayRate removeThreshold now).Keyed := by
  have hremove (ids : List String) {s : GoalStore} (h : s.Keyed) :
      (ids.foldl removeGoal s).Keyed := by
    induction ids generalizing s with
    | nil => exact h
    | cons goalId ids ih => exact ih (keyed_removeGoal h goalId)
  refine hremove _ fun e he => ?_
  obtain ⟨e', he', rfl⟩ := List.mem_map.mp he
  exact h e' he'

theorem keyed_loadItems (draw : Nat → Drawn) (items : List Json) (n : Nat) (h : s.Keyed) :
    (loadItems o draw n s items).Keyed := by
  induction items generalizing n s with
  | nil => exact h
  | cons item items ih =>
    unfold loadItems
    split
    · exact ih (n + 1) (keyed_put h _)
    · exact h

theorem keyed_clear (s : GoalStore) : s.clear.Keyed := fun _ he => absurd he List.not_mem_nil

theorem keyed_load (h : s.Keyed) (draw : Nat → Drawn) (file : Option β) :
    (s.load o draw file).Keyed := by
  unfold load
  split
  · exact h
  · split
    · exact h
    · split
      · exact keyed_clear s
      · exact keyed_loadItems draw _ 0 (keyed_clear s)

theorem keyed_step (h : s.Keyed) (call : GoalCall β) : (s.step o call).Keyed := by
  cases call with
  | add drawn description weight => exact keyed_put h _
  | remove goalId => exact keyed_removeGoal h goalId
  | decay decayRate removeThreshold now => exact keyed_decayGoals h _ _ _
  | clear => exact keyed_clear s
  | load draw file => exact keyed_load h draw file

/-! ## What is loaded -/

theorem loadItems_eq (draw : Nat → Drawn) (items : List Json) (n : Nat) (s : GoalStore) :
    loadItems o draw n s items = (validPrefix o draw (items.zipIdx n)).foldl put s := by
  induction items generalizing n s with
  | nil => rfl
  | cons item items ih =>
    rw [loadItems, validPrefix, List.zipIdx_cons, List.map_cons, List.takeWhile_cons]
    cases LongTermGoal.modelValidate o (draw n) item with
    | none => rfl
    | some g => exact ih (n + 1) (s.put g)

theorem goals_putAll (goals : List LongTermGoal) (s : GoalStore) :
    (goals.foldl put s.clear).goals = ofGoals goals := by
  have hfold (goals : List LongTermGoal) (s : GoalStore) : (goals.foldl put s).goals =
      (goals.map fun g => (g.id, g)).foldl (fun d e => d.set e.1 e.2) s.goals := by
    induction goals generalizing s with
    | nil => rfl
    | cons g goals ih => exact ih (s.put g)
  exact hfold goals s.clear

/-- Whatever is parsed replaces the goals by those before the first item that is none. -/
theorem goals_load {content : β} {data : Json} (h : o.loads content = some data) (s : GoalStore)
    (draw : Nat → Drawn) :
    (s.load o draw (some content)).goals = ofGoals (goalsBefore o draw data) := by
  simp only [load, h]
  unfold goalsBefore
  cases itemsOf data with
  | none => rfl
  | some items =>
    dsimp only
    rw [loadItems_eq, goals_putAll, Option.getD_some]

/-! ## What is saved -/

theorem read_dumped (x : PyFloat) :
    PyFloat.read o.parse x.dumped = if x.isFinite then some x else none := by
  cases x <;> rfl

/-- What is written of a goal is a goal exactly when its numbers are finite. -/
theorem modelValidate_modelDump (drawn : Drawn) (g : LongTermGoal) :
    LongTermGoal.modelValidate o drawn g.modelDump = if g.isFinite then some g else none := by
  have hvalidate : LongTermGoal.modelValidate o drawn g.modelDump = do
      let weight ← PyFloat.read o.parse g.weight.dumped
      let createdAt ← PyFloat.read o.parse g.createdAt.dumped
      let updatedAt ← PyFloat.read o.parse g.updatedAt.dumped
      return { g with weight, createdAt, updatedAt } := by
    simp [LongTermGoal.modelValidate, LongTermGoal.modelDump, Dict.lookup, fieldOr, readText]
  rw [hvalidate, read_dumped, read_dumped, read_dumped, LongTermGoal.isFinite]
  cases g.weight.isFinite <;> cases g.createdAt.isFinite <;> cases g.updatedAt.isFinite <;> rfl

theorem validPrefix_modelDump (draw : Nat → Drawn) (goals : List LongTermGoal) (n : Nat) :
    validPrefix o draw ((goals.map (·.modelDump)).zipIdx n) =
      goals.takeWhile LongTermGoal.isFinite := by
  induction goals generalizing n with
  | nil => rfl
  | cons g goals ih =>
    have ih := ih (n + 1)
    rw [validPrefix] at ih ⊢
    rw [List.map_cons, List.zipIdx_cons, List.map_cons, List.takeWhile_cons, List.takeWhile_cons,
      modelValidate_modelDump]
    cases g.isFinite with
    | false => rfl
    | true =>
      exact congrArg (g :: ·) ih

theorem entries_of_keyed (h : s.Keyed) :
    s.goals.values.map (fun g => (g.id, g)) = s.goals.entries := by
  have hentry : ∀ e ∈ s.goals.entries, (e.2.id, e.2) = e := fun e he => Prod.ext (h e he).symm rfl
  rw [Dict.values, List.map_map]
  exact (List.map_congr_left hentry).trans (List.map_id _)

/-- A list that is cut is the list again only where nothing was cut off. -/
theorem ofGoals_takeWhile_iff (h : s.Keyed) (p : LongTermGoal → Bool) :
    ofGoals (s.goals.values.takeWhile p) = s.goals ↔ ∀ g ∈ s.goals.values, p g = true := by
  have hentries := entries_of_keyed h
  constructor
  · intro hsame
    have hnodup : ((s.goals.values.takeWhile p).map fun g => (g.id, g)).map Prod.fst |>.Nodup := by
      refine s.goals.nodup.sublist ?_
      rw [← hentries]
      exact ((List.takeWhile_sublist p).map _).map _
    have hcut := congrArg (fun d => (Dict.entries d).length) hsame
    rw [ofGoals, Dict.entries_ofList hnodup, List.length_map, ← hentries, List.length_map] at hcut
    exact List.takeWhile_eq_self_iff.mp
      ((List.takeWhile_prefix p).eq_of_length hcut)
  · intro hall
    rw [List.takeWhile_eq_self_iff.mpr hall, ofGoals, hentries, Dict.ofList_entries]

/-- Saved goals come back exactly when their numbers are finite. Content that is no list of goals
leaves the goals alone exactly when it cannot be parsed, or when the goals are those before the
first item that is none. -/
theorem load_atomic_iff (o : GoalSetup β) (hround : ∀ goals : List LongTermGoal,
      o.loads (o.dumps (.arr (goals.map (·.modelDump)))) =
        some (.arr (goals.map (·.modelDump)))) :
    (∀ (calls : List (GoalCall β)) (t : GoalStore) (draw : Nat → Drawn),
      let s := Machine.run (step o) {} calls
      (t.load o draw (some (s.save o))).goals = s.goals ↔
        ∀ g ∈ s.goals.values, g.isFinite = true) ∧
    ∀ (s : GoalStore) (draw : Nat → Drawn) (content : β), ¬ ValidContent o content →
      ((s.load o draw (some content)).goals = s.goals ↔ o.loads content = none ∨
        ∃ data, o.loads content = some data ∧ s.goals = ofGoals (goalsBefore o draw data)) := by
  constructor
  · intro calls t draw s
    have hkeyed : s.Keyed := Machine.run_inv Keyed (fun s call h => keyed_step h call)
      (fun e he => absurd he List.not_mem_nil) calls
    have hsaved : o.loads (s.save o) = some (.arr (s.goals.values.map (·.modelDump))) :=
      hround s.goals.values
    rw [goals_load hsaved, goalsBefore, itemsOf, Option.getD_some, validPrefix_modelDump]
    exact ofGoals_takeWhile_iff hkeyed _
  · intro s draw content _
    cases hdata : o.loads content with
    | none => simp [load, hdata]
    | some data =>
      rw [goals_load hdata]
      constructor
      · exact fun h => .inr ⟨data, rfl, h.symm⟩
      · rintro (h | ⟨_, h, hsame⟩)
        · cases h
        · cases h
          exact hsame.symm

/-- Files that are the values they hold, and texts that are no numbers. -/
def plainFiles : GoalSetup Json := ⟨id, some, fun _ => none⟩

/-- A goal that has lost half its weight is saved and comes back. -/
theorem load_atomic_iff_plain :
    let calls : List (GoalCall Json) :=
      [.add ⟨"g1", 5, 5⟩ "learn" (.finite 2), .decay (.finite (1 / 2)) (.finite 0) 6]
    let s := Machine.run (step plainFiles) {} calls
    (({} : GoalStore).load plainFiles (fun _ => ⟨"", 0, 0⟩) (some (s.save plainFiles))).goals =
      s.goals := by
  intro calls s
  exact ((load_atomic_iff plainFiles fun _ => rfl).1 calls {} _).mpr (by decide +kernel)

/-- A list whose only item is a number takes the goals that were there. -/
theorem invalid_list_clears :
    ¬ ∀ (s : GoalStore) (draw : Nat → Drawn) (content : Json), ¬ ValidContent plainFiles content →
      (s.load plainFiles draw (some content)).goals = s.goals := by
  intro h
  have hinvalid : ¬ ValidContent plainFiles (.arr [.int 5]) := by
    rintro ⟨items, hitems, hvalid⟩
    cases hitems
    obtain ⟨drawn, g, hg⟩ := hvalid (.int 5) List.mem_cons_self
    cases hg
  have hsame := h (({} : GoalStore).addGoal ⟨"g1", 5, 5⟩ "learn" (.finite 1))
    (fun _ => ⟨"", 0, 0⟩) _ hinvalid
  exact absurd (congrArg (fun d => d.entries.length) hsame) (by decide)

end GoalStore

end IrisMind.Memory
