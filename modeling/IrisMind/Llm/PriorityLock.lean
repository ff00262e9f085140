import IrisMind.Lib.Machine
import IrisMind.Lib.PriorityQueue
import IrisMind.Lib.Rows
import Mathlib.Data.Prod.Lex
import Mathlib.Data.Int.Order.Basic
import Mathlib.Tactic.Common

/-! # The lock of the language model

`acquire` takes a free lock or queues an event and waits for it; `release` sets
the event of the first in the queue, which is then the owner, although it has
not run yet. A task that is cancelled while it waits leaves its entry behind,
and one that is cancelled between the event and its next run takes the lock
with it. Tasks run one at a time, from one suspension to the next. -/
namespace IrisMind.Llm
open IrisMind.Lib

/-- `(priority, sequence_number)`; the number also stands for the event. -/
abbrev Waiter := Int ×ₗ Nat

structure PriorityLock where
  locked : Bool := false
  waiters : PriorityQueue Waiter := .empty
  seq : Nat := 0

namespace PriorityLock

/-- Up to `event.wait()`: without an entry to wait for, the lock is acquired. -/
def acquire (l : PriorityLock) (priority : Int) : PriorityLock × Option Waiter :=
  if !l.locked && l.waiters.isEmpty then ({ l with locked := true }, none)
  else
    let w : Waiter := toLex (priority, l.seq + 1)
    ({ l with seq := l.seq + 1, waiters := l.waiters.put w }, some w)

/-- With the entry whose event is set. -/
def release (l : PriorityLock) : Except String (PriorityLock × Option Waiter) :=
  if !l.locked then .error "Lock is not acquired."
  else match l.waiters.getNowait with
    | none => .ok ({ l with locked := false }, none)
    | some (w, waiters) => .ok ({ l with waiters }, some w)

end PriorityLock

/-! ## Tasks around a lock -/

/-- `waiting` are suspended on an event that is not set, `granted` on one that is set: they have
not run since. -/
structure LockTasks (τ : Type) where
  lock : PriorityLock := {}
  holders : List τ := []
  waiting : List (τ × Waiter) := []
  granted : List (τ × Waiter) := []

inductive LockStep (τ : Type) where
  | acquire (t : τ) (priority : Int)
  | resume (t : τ)
  | release (t : τ)
  | cancel (t : τ)

namespace LockTasks

variable {τ : Type}

def Suspended (s : LockTasks τ) (t : τ) : Prop :=
  t ∈ s.waiting.map Prod.fst ∨ t ∈ s.granted.map Prod.fst

def acquire (s : LockTasks τ) (t : τ) (priority : Int) : LockTasks τ :=
  match s.lock.acquire priority with
  | (lock, none) => { s with lock, holders := t :: s.holders }
  | (lock, some w) => { s with lock, waiting := s.waiting ++ [(t, w)] }

section

variable [DecidableEq τ]

instance (s : LockTasks τ) (t : τ) : Decidable (s.Suspended t) :=
  inferInstanceAs (Decidable (_ ∨ _))

/-- A suspended task runs only when its event is set, and only a holder releases. -/
def Enabled (s : LockTasks τ) : LockStep τ → Prop
  | .acquire t _ => ¬ s.Suspended t
  | .resume t => t ∈ s.granted.map Prod.fst
  | .release t => t ∈ s.holders ∧ ¬ s.Suspended t
  | .cancel t => s.Suspended t

instance (s : LockTasks τ) : ∀ i, Decidable (s.Enabled i)
  | .acquire _ _ => inferInstanceAs (Decidable (¬ _))
  | .resume _ => inferInstanceAs (Decidable (_ ∈ _))
  | .release _ => inferInstanceAs (Decidable (_ ∧ _))
  | .cancel t => inferInstanceAs (Decidable (s.Suspended t))

def resume (s : LockTasks τ) (t : τ) : LockTasks τ :=
  { s with holders := t :: s.holders, granted := s.granted.filter (·.1 ≠ t) }

/-- The event that is set may be one that nobody waits for any more. -/
def release (s : LockTasks τ) (t : τ) : LockTasks τ :=
  let s := { s with holders := s.holders.erase t }
  match s.lock.release with
  | .error _ => s
  | .ok (lock, none) => { s with lock }
  | .ok (lock, some w) =>
    { s with lock, waiting := s.waiting.filter (·.2 ≠ w),
             granted := s.granted ++ s.waiting.filter (·.2 = w) }

/-- `CancelledError` is raised in `event.wait()`, where nothing handles it. -/
def cancel (s : LockTasks τ) (t : τ) : LockTasks τ :=
  { s with waiting := s.waiting.filter (·.1 ≠ t), granted := s.granted.filter (·.1 ≠ t) }

def move (s : LockTasks τ) : LockStep τ → LockTasks τ
  | .acquire t priority => s.acquire t priority
  | .resume t => s.resume t
  | .release t => s.release t
  | .cancel t => s.cancel t

def step (s : LockTasks τ) (i : LockStep τ) : LockTasks τ :=
  if s.Enabled i then s.move i else s

end

/-! ## What a step does -/

/-- The fast path, and the queue. -/
theorem acquire_cases (s : LockTasks τ) (t : τ) (p : Int) :
    (s.lock.locked = false ∧ s.lock.waiters.items = [] ∧
      s.acquire t p =
        { s with lock := { s.lock with locked := true }, holders := t :: s.holders }) ∨
    ((s.lock.locked = true ∨ s.lock.waiters.items ≠ []) ∧
      ∃ w : Waiter, (ofLex w).2 = s.lock.seq + 1 ∧
      s.acquire t p = { s with
        lock := { s.lock with seq := s.lock.seq + 1, waiters := s.lock.waiters.put w }
        waiting := s.waiting ++ [(t, w)] }) := by
  by_cases hfree : s.lock.locked = false ∧ s.lock.waiters.items = []
  · refine .inl ⟨hfree.1, hfree.2, ?_⟩
    have hc : (!s.lock.locked && s.lock.waiters.isEmpty) = true := by simp [hfree]
    rw [acquire, PriorityLock.acquire, if_pos hc]
  · refine .inr ⟨?_, toLex (p, s.lock.seq + 1), rfl, ?_⟩
    · cases hl : s.lock.locked with
      | true => exact .inl rfl
      | false => exact .inr fun he => hfree ⟨hl, he⟩
    · have hc : ¬ (!s.lock.locked && s.lock.waiters.isEmpty) = true := by simpa using hfree
      rw [acquire, PriorityLock.acquire, if_neg hc]

section

variable [DecidableEq τ]

theorem step_of_enabled {s : LockTasks τ} {i : LockStep τ} (h : s.Enabled i) :
    s.step i = s.move i := if_pos h

theorem step_of_not_enabled {s : LockTasks τ} {i : LockStep τ} (h : ¬ s.Enabled i) :
    s.step i = s := if_neg h

theorem release_cases {s : LockTasks τ} (h : s.lock.locked = true) (t : τ) :
    (s.lock.waiters.items = [] ∧
      s.release t = { s with lock := { s.lock with locked := false },
                             holders := s.holders.erase t }) ∨
    ∃ w rest, s.lock.waiters.getNowait = some (w, rest) ∧
      s.release t = { lock := { s.lock with waiters := rest }
                      holders := s.holders.erase t
                      waiting := s.waiting.filter (·.2 ≠ w)
                      granted := s.granted ++ s.waiting.filter (·.2 = w) } := by
  cases hq : s.lock.waiters.getNowait with
  | none =>
    refine .inl ⟨PriorityQueue.getNowait_eq_none.mp hq, ?_⟩
    simp [release, PriorityLock.release, h, hq]
  | some first =>
    obtain ⟨w, rest⟩ := first
    refine .inr ⟨w, rest, rfl, ?_⟩
    simp [release, PriorityLock.release, h, hq]

end

/-! ## What holds in every state -/

structure Consistent (s : LockTasks τ) : Prop where
  /-- The lock is free only if nobody has anything to do with it. -/
  free : s.lock.locked = false →
    s.lock.waiters.items = [] ∧ s.holders = [] ∧ s.granted = []
  owners : s.holders.length + s.granted.length ≤ 1
  queued : ∀ w ∈ s.waiting, w.2 ∈ s.lock.waiters.items
  numbered : ∀ w ∈ s.lock.waiters.items, (ofLex w).2 ≤ s.lock.seq
  distinct : s.lock.waiters.items.Nodup
  apart : (s.waiting.map Prod.snd).Nodup

namespace Consistent

theorem init : Consistent ({} : LockTasks τ) :=
  ⟨fun _ => ⟨rfl, rfl, rfl⟩, by simp, by simp, by simp, by simp, by simp⟩

variable {s : LockTasks τ}

theorem locked_of_holder (h : s.Consistent) {t : τ} (ht : t ∈ s.holders) :
    s.lock.locked = true := by
  rw [← Bool.not_eq_false]
  intro hf
  rw [(h.free hf).2.1] at ht
  exact List.not_mem_nil ht

/-- While a task holds the lock it is the only owner. -/
theorem only_holder (h : s.Consistent) {t : τ} (ht : t ∈ s.holders) :
    s.holders = [t] ∧ s.granted = [] := by
  have ho := h.owners
  have hpos := List.length_pos_of_mem ht
  have hg : s.granted = [] := List.length_eq_zero_iff.mp (by omega)
  obtain ⟨u, hu⟩ := List.length_eq_one_iff.mp (show s.holders.length = 1 by omega)
  rw [hu, List.mem_singleton] at ht
  exact ⟨ht ▸ hu, hg⟩

theorem only_granted (h : s.Consistent) {t : τ} (ht : t ∈ s.granted.map Prod.fst) :
    s.holders = [] ∧ ∃ w, s.granted = [(t, w)] := by
  have ho := h.owners
  obtain ⟨g, hg, rfl⟩ := List.mem_map.mp ht
  have hpos := List.length_pos_of_mem hg
  obtain ⟨u, hu⟩ := List.length_eq_one_iff.mp (show s.granted.length = 1 by omega)
  rw [hu, List.mem_singleton] at hg
  exact ⟨List.length_eq_zero_iff.mp (by omega), g.2, by rw [hu, hg]⟩

theorem nobody_waits (h : s.Consistent) (hq : s.lock.waiters.items = []) : s.waiting = [] := by
  rw [List.eq_nil_iff_forall_not_mem]
  intro g hmem
  have hqueued := h.queued g hmem
  rw [hq] at hqueued
  exact List.not_mem_nil hqueued

/-- The path that does not wait is taken only when nobody has anything to do with the lock. -/
theorem fast_path (h : s.Consistent) {p : Int} (hfast : (s.lock.acquire p).2 = none) :
    s.waiting = [] ∧ s.granted = [] ∧ s.holders = [] := by
  rw [PriorityLock.acquire] at hfast
  split at hfast
  · next hc =>
    rw [Bool.and_eq_true, Bool.not_eq_true', PriorityQueue.isEmpty_eq_true] at hc
    exact ⟨h.nobody_waits hc.2, (h.free hc.1).2.2, (h.free hc.1).2.1⟩
  · exact nomatch hfast

protected theorem acquire (h : s.Consistent) (t : τ) (p : Int) : (s.acquire t p).Consistent := by
  obtain ⟨hl, hq, he⟩ | ⟨hbusy, w, hw, he⟩ := s.acquire_cases t p
  · obtain ⟨-, hh, hg⟩ := h.free hl
    rw [he]
    exact ⟨(nomatch ·), by simp [hh, hg], h.queued, h.numbered, h.distinct, h.apart⟩
  · have hlocked : s.lock.locked = true := by
      rw [← Bool.not_eq_false]
      exact fun hf => hbusy.elim (fun hl => by simp [hf] at hl) fun hne => hne (h.free hf).1
    have hfresh : w ∉ s.lock.waiters.items := fun hm => by
      have := h.numbered w hm
      omega
    have hperm := s.lock.waiters.perm_put w
    rw [he]
    refine ⟨fun hf => ?_, h.owners, ?_, ?_, ?_, ?_⟩
    · simp [hlocked] at hf
    · intro v hv
      rw [PriorityQueue.mem_put]
      rcases List.mem_append.mp hv with hv | hv
      · exact .inr (h.queued v hv)
      · rw [List.mem_singleton.mp hv]
        exact .inl rfl
    · intro v hv
      rcases PriorityQueue.mem_put.mp hv with rfl | hv
      · exact hw.le
      · exact Nat.le_succ_of_le (h.numbered v hv)
    · exact hperm.nodup_iff.mpr (List.nodup_cons.mpr ⟨hfresh, h.distinct⟩)
    · rw [List.map_append]
      refine h.apart.append (List.nodup_singleton w) ?_
      rw [List.map_singleton, List.disjoint_singleton]
      intro hm
      obtain ⟨v, hv, rfl⟩ := List.mem_map.mp hm
      exact hfresh (h.queued v hv)

/-- The first in the queue has an entry that the others do not have. -/
theorem not_mem_rest (h : s.Consistent) {w : Waiter} {rest : PriorityQueue Waiter}
    (hq : s.lock.waiters.getNowait = some (w, rest)) :
    w ∉ rest.items ∧ rest.items.Nodup := by
  have hd := h.distinct
  rw [PriorityQueue.getNowait_eq_some.mp hq] at hd
  exact List.nodup_cons.mp hd

variable [DecidableEq τ]

protected theorem resume (h : s.Consistent) {t : τ} (ht : t ∈ s.granted.map Prod.fst) :
    (s.resume t).Consistent := by
  obtain ⟨hh, w, hg⟩ := h.only_granted ht
  refine ⟨fun hf => ?_, ?_, h.queued, h.numbered, h.distinct, h.apart⟩
  · have hnone := (h.free hf).2.2
    simp [hg] at hnone
  · simp [resume, hh, hg]

protected theorem release (h : s.Consistent) {t : τ} (ht : t ∈ s.holders) :
    (s.release t).Consistent := by
  obtain ⟨hh, hg⟩ := h.only_holder ht
  obtain ⟨hq, he⟩ | ⟨w, rest, hq, he⟩ := release_cases (h.locked_of_holder ht) t
  · rw [he]
    exact ⟨fun _ => ⟨hq, by simp [hh], hg⟩, by simp [hh, hg], h.queued, h.numbered, h.distinct,
      h.apart⟩
  · have hitems := PriorityQueue.getNowait_eq_some.mp hq
    have hone : (s.waiting.filter (·.2 = w)).length ≤ 1 := by
      cases hf : s.waiting.filter (·.2 = w) with
      | nil => exact Nat.zero_le 1
      | cons g gs =>
        obtain ⟨hmem, hgw⟩ := List.mem_filter.mp (hf ▸ List.mem_cons_self : g ∈ s.waiting.filter _)
        have hgw : g.2 = w := of_decide_eq_true hgw
        rw [← hf, ← hgw, Rows.filter_key_eq h.apart hmem]
        exact Nat.le_refl 1
    rw [he]
    refine ⟨fun hf => ?_, ?_, ?_, ?_, (h.not_mem_rest hq).2, ?_⟩
    · simp [h.locked_of_holder ht] at hf
    · simpa [hh, hg] using hone
    · intro v hv
      obtain ⟨hmem, hne⟩ := List.mem_filter.mp hv
      have hv := h.queued v hmem
      rw [hitems] at hv
      exact (List.mem_cons.mp hv).resolve_left (of_decide_eq_true hne)
    · intro v hv
      exact h.numbered v (hitems ▸ List.mem_cons_of_mem w hv)
    · exact h.apart.sublist (List.filter_sublist.map _)

protected theorem cancel (h : s.Consistent) (t : τ) : (s.cancel t).Consistent := by
  refine ⟨fun hf => ?_, ?_, ?_, h.numbered, h.distinct, ?_⟩
  · obtain ⟨hq, hh, hg⟩ := h.free hf
    exact ⟨hq, hh, by simp [cancel, hg]⟩
  · have hle := List.length_filter_le (fun g : τ × Waiter => g.1 ≠ t) s.granted
    exact Nat.le_trans (Nat.add_le_add_left hle _) h.owners
  · exact fun w hw => h.queued w (List.mem_of_mem_filter hw)
  · exact h.apart.sublist (List.filter_sublist.map _)

protected theorem step (h : s.Consistent) (i : LockStep τ) : (s.step i).Consistent := by
  by_cases hi : s.Enabled i
  · rw [step_of_enabled hi]
    cases i with
    | acquire t p => exact h.acquire t p
    | resume t => exact h.resume hi
    | release t => exact h.release hi.1
    | cancel t => exact h.cancel t
  · rwa [step_of_not_enabled hi]

protected theorem run (is : List (LockStep τ)) :
    (Machine.run step ({} : LockTasks τ) is).Consistent :=
  Machine.run_inv Consistent (fun _ i h => h.step i) .init is

end Consistent

/-! ## Handing over -/

/-- A lock that is locked has an owner, or one that will find out. -/
def Owned (s : LockTasks τ) : Prop := s.lock.locked = true → s.holders ≠ [] ∨ s.granted ≠ []

section

variable [DecidableEq τ]

/-- The release sets the event of the first of those that wait, and the others move up. -/
def HandsOver (s : LockTasks τ) (t : τ) : Prop :=
  s.waiting ≠ [] → ∃ g ∈ s.waiting, (∀ v ∈ s.waiting, g.2 ≤ v.2) ∧
    (s.step (.release t)).granted = [g] ∧ ∀ v ∈ s.waiting, v ≠ g →
      v ∈ (s.step (.release t)).waiting ∧
        (s.step (.release t)).lock.waiters.ahead v.2 + 1 = s.lock.waiters.ahead v.2

/-- Whoever is cancelled has not been granted the lock, and whoever is first in the queue when
the lock is released is still waiting. -/
def Spared (s : LockTasks τ) (i : LockStep τ) : Prop :=
  match i with
  | .cancel t => t ∉ s.granted.map Prod.fst
  | .release t => s.Enabled (.release t) → ∀ w rest,
      s.lock.waiters.getNowait = some (w, rest) → w ∈ s.waiting.map Prod.snd
  | _ => True

variable {s : LockTasks τ}

theorem Consistent.release_live (h : s.Consistent) {t : τ} (ht : s.Enabled (.release t))
    {w : Waiter} {rest : PriorityQueue Waiter} (hq : s.lock.waiters.getNowait = some (w, rest))
    (hw : w ∈ s.waiting.map Prod.snd) :
    ∃ g ∈ s.waiting, g.2 = w ∧ s.step (.release t) =
      { lock := { s.lock with waiters := rest }, holders := [],
        waiting := s.waiting.filter (·.2 ≠ w), granted := [g] } := by
  obtain ⟨g, hg, rfl⟩ := List.mem_map.mp hw
  obtain ⟨hh, hgranted⟩ := h.only_holder ht.1
  refine ⟨g, hg, rfl, ?_⟩
  rw [step_of_enabled ht, move]
  obtain ⟨hnil, -⟩ | ⟨w', rest', hq', he⟩ := release_cases (h.locked_of_holder ht.1) t
  · rw [PriorityQueue.getNowait_eq_none.mpr hnil] at hq
    simp at hq
  · rw [hq, Option.some.injEq, Prod.mk.injEq] at hq'
    obtain ⟨rfl, rfl⟩ := hq'
    rw [he, Rows.filter_key_eq h.apart hg, hh, hgranted, List.erase_cons_head, List.nil_append]

theorem Consistent.handsOver (h : s.Consistent) {t : τ} (ht : s.Enabled (.release t))
    (hlive : s.Spared (.release t)) : s.HandsOver t := by
  intro hwait
  cases hq : s.lock.waiters.getNowait with
  | none => exact absurd (h.nobody_waits (PriorityQueue.getNowait_eq_none.mp hq)) hwait
  | some first =>
    obtain ⟨w, rest⟩ := first
    obtain ⟨g, hg, rfl, he⟩ := h.release_live ht hq (hlive ht w rest hq)
    refine ⟨g, hg, fun v hv => ?_, by rw [he], fun v hv hne => ?_⟩
    · exact PriorityQueue.getNowait_least hq v.2 (h.queued v hv)
    · have hentry : v.2 ≠ g.2 := fun heq =>
        hne (List.inj_on_of_nodup_map h.apart hv hg heq)
      rw [he]
      refine ⟨List.mem_filter.mpr ⟨hv, by simpa using hentry⟩, ?_⟩
      exact (PriorityQueue.ahead_getNowait hq (h.queued v hv) hentry).symm

theorem Consistent.owned_release (h : s.Consistent) {t : τ} (ht : s.Enabled (.release t)) :
    (s.step (.release t)).Owned ↔ s.Spared (.release t) := by
  obtain ⟨hh, hg⟩ := h.only_holder ht.1
  have hlocked := h.locked_of_holder ht.1
  obtain ⟨hnil, he⟩ | ⟨w, rest, hq, he⟩ := release_cases hlocked t
  · have hnone := PriorityQueue.getNowait_eq_none.mpr hnil
    refine iff_of_true ?_ fun _ w rest hq => ?_
    · rw [step_of_enabled ht, move, he]
      exact fun hl => nomatch hl
    · rw [hnone] at hq
      simp at hq
  · constructor
    · intro ho _ w' rest' hq'
      rw [hq, Option.some.injEq, Prod.mk.injEq] at hq'
      obtain ⟨rfl, rfl⟩ := hq'
      rw [step_of_enabled ht, move, he, Owned, hh, hg] at ho
      have hne := (ho hlocked).resolve_left (by simp)
      obtain ⟨g, hmem⟩ := List.exists_mem_of_ne_nil _ hne
      obtain ⟨hmem, hw⟩ := List.mem_filter.mp hmem
      exact List.mem_map.mpr ⟨g, hmem, of_decide_eq_true hw⟩
    · intro hspared _
      obtain ⟨g, -, -, hstep⟩ := h.release_live ht hq (hspared ht w rest hq)
      rw [hstep]
      exact .inr (List.cons_ne_nil g [])

theorem Consistent.owned_cancel (h : s.Consistent) (ho : s.Owned) {t : τ}
    (ht : s.Enabled (.cancel t)) : (s.step (.cancel t)).Owned ↔ s.Spared (.cancel t) := by
  rw [step_of_enabled ht, move]
  by_cases hg : t ∈ s.granted.map Prod.fst
  · refine iff_of_false (fun hnext => ?_) (not_not_intro hg)
    obtain ⟨hh, w, hone⟩ := h.only_granted hg
    have hlocked : s.lock.locked = true := by
      rw [← Bool.not_eq_false]
      intro hf
      simp [(h.free hf).2.2] at hone
    rcases hnext hlocked with hne | hne
    · exact hne hh
    · simp [cancel, hone] at hne
  · refine iff_of_true (fun hl => ?_) hg
    have hkeep : s.granted.filter (·.1 ≠ t) = s.granted := by
      rw [List.filter_eq_self]
      intro g hmem
      have hne : g.1 ≠ t := fun he => hg (he ▸ List.mem_map_of_mem hmem)
      simpa using hne
    rw [cancel, hkeep]
    exact ho hl

/-- A step leaves the lock with an owner exactly when it spares those it must not miss. -/
theorem Consistent.owned_step (h : s.Consistent) (ho : s.Owned) (i : LockStep τ) :
    (s.step i).Owned ↔ s.Spared i := by
  by_cases hi : s.Enabled i
  · cases i with
    | acquire t p =>
      refine iff_of_true ?_ trivial
      rw [step_of_enabled hi, move]
      obtain ⟨-, -, he⟩ | ⟨-, w, -, he⟩ := s.acquire_cases t p
      · rw [he]
        exact fun _ => .inl (List.cons_ne_nil t _)
      · rw [he]
        exact ho
    | resume t =>
      rw [step_of_enabled hi]
      exact iff_of_true (fun _ => .inl (List.cons_ne_nil t _)) trivial
    | release t => exact h.owned_release hi
    | cancel t => exact h.owned_cancel ho hi
  · rw [step_of_not_enabled hi]
    refine iff_of_true ho ?_
    cases i with
    | acquire t p => exact trivial
    | resume t => exact trivial
    | release t => exact fun he => absurd he hi
    | cancel t => exact fun hg => hi (.inr hg)

/-! ## With cancellation -/

/-- In every state of the run a locked lock has an owner, and every release of the run hands the
lock to the first of those that wait. -/
def Survives (is : List (LockStep τ)) : Prop :=
  (∀ js, js <+: is → (Machine.run step ({} : LockTasks τ) js).Owned) ∧
  ∀ js t, js ++ [.release t] <+: is →
    (Machine.run step ({} : LockTasks τ) js).Enabled (.release t) →
    (Machine.run step ({} : LockTasks τ) js).HandsOver t

theorem survives_cancellation_iff (is : List (LockStep τ)) :
    Survives is ↔ Machine.Guarded step Spared ({} : LockTasks τ) is := by
  have howned : (∀ js, js <+: is → (Machine.run step ({} : LockTasks τ) js).Owned) ↔
      Machine.Guarded step Spared ({} : LockTasks τ) is :=
    Machine.guarded_iff Consistent Owned (fun _ i h => h.step i)
      (fun _ i h ho => h.owned_step ho i) .init (fun hl => nomatch hl) is
  refine ⟨fun h => howned.mp h.1, fun hg => ⟨howned.mpr hg, fun js t hp ht => ?_⟩⟩
  exact (Consistent.run js).handsOver ht (Machine.guarded_iff_forall.mp hg js _ hp)

/-- The entry of a cancelled task takes the event of a release, and a task that is cancelled
between its event and its next run takes the lock with it. -/
theorem cancellation_blocks :
    ¬ Survives ([.acquire 0 0, .acquire 1 0, .acquire 2 0, .cancel 1, .release 0] :
      List (LockStep Nat)) ∧
    ¬ Survives ([.acquire 0 0, .acquire 1 0, .release 0, .cancel 1] : List (LockStep Nat)) := by
  constructor
  · intro h
    exact (h.1 _ (List.prefix_refl _) rfl).elim (· rfl) (· rfl)
  · intro h
    exact (h.1 _ (List.prefix_refl _) rfl).elim (· rfl) (· rfl)

/-! ## Without cancellation -/

/-- Every entry of the queue is that of a task that waits. -/
def Live (s : LockTasks τ) : Prop := ∀ w ∈ s.lock.waiters.items, w ∈ s.waiting.map Prod.snd

theorem Consistent.live_step (h : s.Consistent) (hl : s.Live) {i : LockStep τ}
    (hi : ∀ t, i ≠ .cancel t) : (s.step i).Live := by
  by_cases he : s.Enabled i
  · rw [step_of_enabled he]
    cases i with
    | acquire t p =>
      obtain ⟨-, -, heq⟩ | ⟨-, w, -, heq⟩ := s.acquire_cases t p
      · rw [move, heq]
        exact hl
      · rw [move, heq]
        intro v hv
        rw [List.map_append, List.mem_append]
        rcases PriorityQueue.mem_put.mp hv with rfl | hv
        · exact .inr List.mem_cons_self
        · exact .inl (hl v hv)
    | resume t => exact hl
    | release t =>
      obtain ⟨hnil, heq⟩ | ⟨w, rest, hq, heq⟩ := release_cases (h.locked_of_holder he.1) t
      · rw [move, heq]
        exact hl
      · rw [move, heq]
        intro v hv
        have hitems := PriorityQueue.getNowait_eq_some.mp hq
        obtain ⟨g, hg, rfl⟩ := List.mem_map.mp (hl v (hitems ▸ List.mem_cons_of_mem w hv))
        have hne : g.2 ≠ w := fun heq => (h.not_mem_rest hq).1 (heq ▸ hv)
        exact List.mem_map_of_mem (List.mem_filter.mpr ⟨hg, by simpa using hne⟩)
    | cancel t => exact absurd rfl (hi t)
  · rwa [step_of_not_enabled he]

omit [DecidableEq τ] in
theorem Live.spared (hl : s.Live) {i : LockStep τ} (hi : ∀ t, i ≠ .cancel t) : s.Spared i := by
  cases i with
  | acquire t p => exact trivial
  | resume t => exact trivial
  | release t =>
    intro _ w rest hq
    exact hl w (PriorityQueue.getNowait_eq_some.mp hq ▸ List.mem_cons_self)
  | cancel t => exact absurd rfl (hi t)

/-- Without cancellation at most one task owns the lock, a free lock has nobody waiting for it,
a release hands over to the least that waits, and the fast path overtakes nobody. -/
theorem lock_safe_without_cancellation (is : List (LockStep τ)) (hc : ∀ t, .cancel t ∉ is) :
    let s := Machine.run step ({} : LockTasks τ) is
    s.holders.length + s.granted.length ≤ 1 ∧
    (s.lock.locked = false → s.waiting = [] ∧ s.lock.waiters.items = []) ∧
    (∀ t, s.Enabled (.release t) → s.HandsOver t) ∧
    ∀ p, (s.lock.acquire p).2 = none → s.waiting = [] ∧ s.granted = [] ∧ s.holders = [] := by
  intro s
  have hs : s.Consistent := .run is
  have hlive : s.Live := by
    have hguard : Machine.Guarded step (fun _ i => ∀ t, i ≠ .cancel t) ({} : LockTasks τ) is :=
      Machine.guarded_iff_forall.mpr fun js i hp t ht =>
        hc t (hp.subset (by simp [ht]))
    exact (hguard.inv (fun s => s.Consistent ∧ s.Live)
      (fun s i h hi => ⟨h.1.step i, h.1.live_step h.2 hi⟩) ⟨.init, fun w hw => nomatch hw⟩).2
  refine ⟨hs.owners, fun hf => ?_, fun t ht => ?_, fun p => hs.fast_path⟩
  · exact ⟨hs.nobody_waits (hs.free hf).1, (hs.free hf).1⟩
  · exact hs.handsOver ht (hlive.spared (fun _ => by simp))

theorem lock_safe_handing_over :
    (Machine.run step ({} : LockTasks Nat)
      [.acquire 0 1, .acquire 1 1, .acquire 2 0]).HandsOver 0 :=
  (lock_safe_without_cancellation _ (by simp)).2.2.1 0 (by decide)

end

end LockTasks

end IrisMind.Llm
