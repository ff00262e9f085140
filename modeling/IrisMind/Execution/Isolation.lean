import IrisMind.Execution.Executor

/-! # Rooms that share an executor

What a room's plans ask the model depends on the other rooms through the list of
messages alone, and the list is the executor's. A room is on its own as long as
the list its plans begin with is. -/
namespace IrisMind.Execution
open IrisMind.Lib IrisMind.Planning IrisMind.Inhibition

variable {T : Type} [Clock T]

/-- The executor with, for each of its messages, the room whose plan put it there. -/
structure Shared (T : Type) where
  executor : FlowExecutor T
  owners : List String := []

namespace Shared

/-- How many messages a job adds. -/
def growth (env : ExecutorEnv T) (s : Shared T) (job : Job T) : Nat :=
  (s.executor.process env job).messages.length - s.executor.messages.length

def process (env : ExecutorEnv T) (s : Shared T) (job : Job T) : Shared T where
  executor := s.executor.process env job
  owners := s.owners ++ List.replicate (s.growth env job) job.plan.roomId

/-- Every message has its owner. -/
def Owned (s : Shared T) : Prop := s.owners.length = s.executor.messages.length

theorem Owned.process {env : ExecutorEnv T} {s : Shared T} (h : s.Owned) (job : Job T) :
    (s.process env job).Owned := by
  have hlen := s.executor.process_length env job
  unfold Owned at h ⊢
  show (s.owners ++ List.replicate (s.growth env job) job.plan.roomId).length = _
  rw [List.length_append, List.length_replicate, growth, h]
  show _ = (s.executor.process env job).messages.length
  omega

theorem Owned.run {env : ExecutorEnv T} {s : Shared T} (h : s.Owned) (jobs : List (Job T)) :
    (Machine.run (Shared.process env) s jobs).Owned :=
  Machine.run_inv Owned (fun _ job hs => hs.process job) h jobs

/-- All messages are a room's own just as long as no plan of another room adds one. -/
theorem owners_iff {env : ExecutorEnv T} {room : String} {s : Shared T} {jobs : List (Job T)} :
    (∀ o ∈ (Machine.run (process env) s jobs).owners, o = room) ↔
      (∀ o ∈ s.owners, o = room) ∧ Machine.Guarded (process env)
        (fun s job => job.plan.roomId ≠ room → s.growth env job = 0) s jobs := by
  induction jobs generalizing s with
  | nil => exact ⟨fun h => ⟨h, trivial⟩, fun h => h.1⟩
  | cons job jobs ih =>
    have hstep : (∀ o ∈ (s.process env job).owners, o = room) ↔
        (∀ o ∈ s.owners, o = room) ∧ (job.plan.roomId ≠ room → s.growth env job = 0) := by
      constructor
      · intro h
        refine ⟨fun o ho => h o (List.mem_append_left _ ho), fun hne => ?_⟩
        by_contra hpos
        exact hne (h _ (List.mem_append_right _ (List.mem_replicate.mpr ⟨hpos, rfl⟩)))
      · rintro ⟨hs, hgrow⟩ o ho
        rcases List.mem_append.mp ho with ho | ho
        · exact hs o ho
        · obtain ⟨hpos, rfl⟩ := List.mem_replicate.mp ho
          by_contra hne
          exact hpos (hgrow hne)
    rw [Machine.run_cons, ih, hstep, and_assoc]
    rfl

end Shared

/-! ## Runs of the executor -/

/-- The jobs a new executor processes; the state of the inhibition layer is whatever it is. -/
structure ExecutorRun (T : Type) where
  inhibition : Option (InhibitionManager T)
  jobs : List (Job T)

namespace ExecutorRun

def start (run : ExecutorRun T) : Shared T := { executor := { inhibition := run.inhibition } }

/-- What is asked in a room, in order. -/
def asks (run : ExecutorRun T) (room : String) : List Ask :=
  (run.jobs.filter fun job => job.plan.roomId == room).map Job.ask

/-- The requests for each plan of a room. -/
def requestsFor (env : ExecutorEnv T) (run : ExecutorRun T) (room : String) :
    List (List (List Msg)) :=
  Machine.observed (Shared.process env) (fun job => job.plan.roomId == room)
    (fun s job => s.executor.requests env job) run.start run.jobs

/-- The messages each plan of a room begins with, where it gets as far as the model. -/
def startsFor (env : ExecutorEnv T) (run : ExecutorRun T) (room : String) :
    List (Option (List Msg)) :=
  Machine.observed (Shared.process env) (fun job => job.plan.roomId == room)
    (fun s job => s.executor.start? env job) run.start run.jobs

/-- No message of another room is there when a plan of the room asks the model. -/
def OwnOnly (env : ExecutorEnv T) (run : ExecutorRun T) (room : String) : Prop :=
  Machine.Guarded (Shared.process env)
    (fun s job => job.plan.roomId = room → s.executor.requests env job ≠ [] →
      ∀ o ∈ s.owners, o = room) run.start run.jobs

/-- No plan of another room that is processed before a plan of the room gets to the model leaves
a message. -/
def Undisturbed (env : ExecutorEnv T) (run : ExecutorRun T) (room : String) : Prop :=
  ∀ jobs job, jobs ++ [job] <+: run.jobs → job.plan.roomId = room →
    (Machine.run (Shared.process env) run.start jobs).executor.start? env job ≠ none →
      Machine.Guarded (Shared.process env)
        (fun s other => other.plan.roomId ≠ room → s.growth env other = 0) run.start jobs

theorem ownOnly_iff (env : ExecutorEnv T) (run : ExecutorRun T) (room : String) :
    run.OwnOnly env room ↔ run.Undisturbed env room := by
  rw [OwnOnly, Machine.guarded_iff_forall]
  refine forall_congr' fun jobs => forall_congr' fun job => forall_congr' fun _ =>
    forall_congr' fun _ => ?_
  rw [Ne, FlowExecutor.requests_eq_nil_iff, Shared.owners_iff]
  exact imp_congr_right fun _ => ⟨fun h => h.2, fun h => ⟨nofun, h⟩⟩

end ExecutorRun

/-- Two runs in which a room is asked the same, whatever is asked in the other rooms. -/
structure RunPair (T : Type) where
  room : String
  left : ExecutorRun T
  right : ExecutorRun T
  same : left.asks room = right.asks room

namespace RunPair

/-- The room's requests are the same in both runs, and no message of another room is in them. -/
def Isolated (env : ExecutorEnv T) (p : RunPair T) : Prop :=
  p.left.requestsFor env p.room = p.right.requestsFor env p.room ∧
    p.left.OwnOnly env p.room ∧ p.right.OwnOnly env p.room

/-- The requests are the same when what they begin with is. -/
theorem requestsFor_eq_iff (env : ExecutorEnv T) (p : RunPair T) :
    p.left.requestsFor env p.room = p.right.requestsFor env p.room ↔
      p.left.startsFor env p.room = p.right.startsFor env p.room :=
  Machine.observed_eq_iff (fun _ _ _ _ _ _ hask => FlowExecutor.requests_eq_iff hask) p.same

end RunPair

/-- What an ask makes of a list that is its room's own; the flag says whether it is granted. -/
def ownStep (env : ExecutorEnv T) (messages : List Msg) (ask : Ask × Bool) : List Msg :=
  if ask.2 then FlowExecutor.messagesAfter env { inhibition := none, messages } ask.1 else messages

/-- What it begins with, where it gets as far as the model. -/
def ownStart? (messages : List Msg) (ask : Ask × Bool) : Option (List Msg) :=
  if ask.2 && callsModel ask.1.plan ask.1.padded then some messages else none

namespace ExecutorRun

/-- Which plans of a room the gate grants. -/
def grantsFor (env : ExecutorEnv T) (run : ExecutorRun T) (room : String) : List Bool :=
  Machine.observed (Shared.process env) (fun job => job.plan.roomId == room)
    (fun s job => s.executor.granted env job) run.start run.jobs

/-- The plans of the other rooms leave the list as it is. -/
def Quiet (env : ExecutorEnv T) (run : ExecutorRun T) (room : String) : Prop :=
  Machine.Guarded (Shared.process env) (fun s job => job.plan.roomId ≠ room →
    (s.executor.process env job).messages = s.executor.messages) run.start run.jobs

theorem observed_of_quiet {env : ExecutorEnv T} {own : Job T → Bool} {s : Shared T}
    {jobs : List (Job T)} (h : Machine.Guarded (Shared.process env) (fun s job => own job = false →
      (s.executor.process env job).messages = s.executor.messages) s jobs) :
    Machine.observed (Shared.process env) own (fun s job => s.executor.start? env job) s jobs =
      Machine.observed (ownStep env) (fun _ => true) ownStart? s.executor.messages
        (((jobs.filter own).map Job.ask).zip (Machine.observed (Shared.process env) own
          (fun s job => s.executor.granted env job) s jobs)) := by
  induction jobs generalizing s with
  | nil => rfl
  | cons job jobs ih =>
    obtain ⟨hother, hrest⟩ := h
    have hnext := ih hrest
    cases hown : own job with
    | true =>
      have hlist : (s.process env job).executor.messages =
          ownStep env s.executor.messages (job.ask, s.executor.granted env job) :=
        s.executor.process_messages env job
      rw [Machine.observed_own hown, Machine.observed_own hown, List.filter_cons_of_pos hown,
        List.map_cons, List.zip_cons_cons, Machine.observed_own rfl, ← hlist, hnext]
      rfl
    | false =>
      have hlist : (s.process env job).executor.messages = s.executor.messages := hother hown
      rw [Machine.observed_other hown, Machine.observed_other hown,
        List.filter_cons_of_neg (ne_true_of_eq_false hown), hnext, hlist]

theorem Quiet.starts {env : ExecutorEnv T} {run : ExecutorRun T} {room : String}
    (h : run.Quiet env room) : run.startsFor env room =
      Machine.observed (ownStep env) (fun _ => true) ownStart? []
        ((run.asks room).zip (run.grantsFor env room)) := by
  refine observed_of_quiet (s := run.start)
    (h.imp (fun _ => True) (fun s job _ hother => ?_) trivial)
  exact ⟨trivial, fun hown => hother (by simpa using hown)⟩

theorem Quiet.undisturbed {env : ExecutorEnv T} {run : ExecutorRun T} {room : String}
    (h : run.Quiet env room) : run.Undisturbed env room := by
  intro jobs job hprefix _ _
  have hquiet := (Machine.guarded_append.mp (h.of_prefix hprefix)).1
  refine hquiet.imp (fun _ => True) (fun s other _ hother => ⟨trivial, fun hroom => ?_⟩) trivial
  show (s.executor.process env other).messages.length - s.executor.messages.length = 0
  rw [hother hroom, Nat.sub_self]

end ExecutorRun

/-- So a room is isolated as long as the others leave the list as it is, and the gate grants it the
same in both runs. -/
theorem isolated_of_quiet (env : ExecutorEnv T) (p : RunPair T)
    (hleft : p.left.Quiet env p.room) (hright : p.right.Quiet env p.room)
    (hgrants : p.left.grantsFor env p.room = p.right.grantsFor env p.room) : p.Isolated env := by
  refine ⟨(p.requestsFor_eq_iff env).mpr ?_, (p.left.ownOnly_iff env p.room).mpr
    hleft.undisturbed, (p.right.ownOnly_iff env p.room).mpr hright.undisturbed⟩
  rw [hleft.starts, hright.starts, p.same, hgrants]

end IrisMind.Execution
