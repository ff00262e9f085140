import IrisMind.Rooms.JoinSteps

/-! # Two joins at once

As long as the steps of two calls are in order, one of them leads: it makes the
account a member, and the other one finds it active and adds its session. A step
out of order spoils the joins for good, with two events or a session lost. -/
namespace IrisMind.Rooms
open IrisMind.Lib IrisMind.Events

/-! ## Who leads -/

namespace Stage

/-- The call has not looked for the member yet. -/
def early : Stage → Bool
  | room | find => true
  | _ => false

/-- Nor has it read whether the member is active. -/
def unread : Stage → Bool
  | room | find | check true => true
  | _ => false

/-- Its session is not in the list yet, and it may still find the member active. -/
def before : Stage → Bool
  | room | find | check true | contains | append => true
  | _ => false

/-- It found the member active, and is through with it. -/
def through : Stage → Bool
  | updateActive | done true => true
  | _ => false

/-- It found no member, and adds one. -/
def adding : Stage → Bool
  | check false | decide false | add => true
  | _ => false

/-- It found the member inactive, and has not written that it is active. -/
def reviving : Stage → Bool
  | decide true | revive => true
  | _ => false

/-- It has written that the member is active and has its own session. -/
def written : Stage → Bool
  | stamp | assign | update | announce | done true => true
  | _ => false

/-- It has not found the account missing. -/
def calm : Stage → Bool
  | room | find | check true | contains | append | updateActive | done _ => true
  | _ => false

/-- It will send an event. -/
def announcing : Stage → Bool
  | check false | decide _ | revive | rebind | stamp | assign | update | add | announce => true
  | _ => false

theorem unread_of_early : ∀ {s : Stage}, s.early = true → s.unread = true
  | room, _ => rfl
  | find, _ => rfl

theorem before_of_unread : ∀ {s : Stage}, s.unread = true → s.before = true
  | room, _ => rfl
  | find, _ => rfl
  | check true, _ => rfl

theorem idle_of_unread : ∀ {s : Stage}, s.unread = true → s.adding = false ∧ s.reviving = false
  | room, _ => ⟨rfl, rfl⟩
  | find, _ => ⟨rfl, rfl⟩
  | check true, _ => ⟨rfl, rfl⟩

theorem past_of_written : ∀ {s : Stage}, s.written = true →
    s.adding = false ∧ s.reviving = false ∧ s ≠ rebind
  | stamp, _ | assign, _ | update, _ | announce, _ | done true, _ =>
    ⟨rfl, rfl, fun h => by cases h⟩

theorem announcing_of_adding : ∀ {s : Stage}, s.adding = true → s.announcing = true
  | check false, _ => rfl
  | decide false, _ => rfl
  | add, _ => rfl

theorem announcing_of_reviving : ∀ {s : Stage}, s.reviving = true → s.announcing = true
  | decide true, _ => rfl
  | revive, _ => rfl

end Stage

namespace TwoJoins
variable (p : TwoJoins)

/-- The events when one call announces and is at this stage. -/
def sent : Stage → List RoomJoinedEvent
  | .done _ => [p.event]
  | _ => []

/-- One call, `l`, makes the account a member, and the other one finds it active. -/
inductive Led (l : Bool) : Stage → Stage → List RoomMember → List RoomJoinedEvent → Prop
  | adding {mine other} (hmine : mine.adding = true) (hother : other.early = true) :
      Led l mine other [] []
  | reviving {mine other x} (hmine : mine.reviving = true) (hother : other.unread = true)
      (hdead : x.isActive = false) : Led l mine other [x] []
  | rebinding {other x} (hother : other.before = true) (hlive : x.isActive = true) :
      Led l .rebind other [x] []
  | first {mine other x} (hmine : mine.written = true) (hother : other.before = true)
      (hlive : x.isActive = true) (hids : x.sessionIds = [p.sessionId l]) :
      Led l mine other [x] (p.sent mine)
  | both {mine other x} (hmine : mine.written = true) (hother : other.through = true)
      (hlive : x.isActive = true) (hids : x.sessionIds = [p.sessionId l, p.sessionId (!l)]) :
      Led l mine other [x] (p.sent mine)

/-- The other call was through with the member before `l` replaced its sessions. -/
inductive Lost (l : Bool) : Stage → Stage → List RoomMember → Prop
  | rebinding {other x} (hother : other.through = true) : Lost l .rebind other [x]
  | replaced {mine other x} (hmine : mine.written = true) (hother : other.through = true)
      (hids : x.sessionIds = [p.sessionId l]) : Lost l mine other [x]

/-- A call that finds no member finds the other one not adding it; a call that finds the member
inactive finds the other one not about to revive it; and no session is appended, or left out
because it is in the list, before the other call has replaced the list. -/
def OrderlyAt (j : Bool) (existing : Option RoomMember) (mine other : Stage) : Prop :=
  match mine with
  | .find => existing = none → other.adding = false
  | .check _ => existing.any RoomMember.isActive = false → other.reviving = false
  | .contains =>
    existing.any (·.sessionIds.contains (p.sessionId j)) = true → other ≠ .rebind
  | .append => other ≠ .rebind
  | _ => True

variable {p} {l : Bool} {mine other mine' other' : Stage} {rows rows' : List RoomMember}
  {events new : List RoomJoinedEvent}

theorem Led.own (h : p.Led l mine other rows events) (hm : p.Move l rows mine rows' mine' new) :
    p.OrderlyAt l rows.head? mine other ∧ p.Led l mine' other rows' (events ++ new) := by
  cases h with
  | adding hmine hother =>
    cases hm with
    | checkNone =>
      exact ⟨fun _ => (Stage.idle_of_unread (Stage.unread_of_early hother)).2, .adding rfl hother⟩
    | decideNone => exact ⟨trivial, .adding rfl hother⟩
    | add =>
      have hbefore := Stage.before_of_unread (Stage.unread_of_early hother)
      exact ⟨trivial, .first rfl hbefore rfl (if_neg (p.named l))⟩
    | _ => cases hmine
  | reviving hmine hother hdead =>
    cases hm with
    | decideActive hlive => cases hlive.symm.trans hdead
    | decideInactive => exact ⟨trivial, .reviving rfl hother hdead⟩
    | revive => exact ⟨trivial, .rebinding (Stage.before_of_unread hother) rfl⟩
    | _ => cases hmine
  | rebinding hother hlive =>
    cases hm with
    | rebind => exact ⟨trivial, .first rfl hother hlive rfl⟩
  | first hmine hother hlive hids =>
    cases hm with
    | stamp => exact ⟨trivial, .first rfl hother hlive hids⟩
    | assign => exact ⟨trivial, .first rfl hother hlive hids⟩
    | update => exact ⟨trivial, .first rfl hother hlive hids⟩
    | announce => exact ⟨trivial, .first rfl hother hlive hids⟩
    | done =>
      rw [List.append_nil]
      exact ⟨trivial, .first hmine hother hlive hids⟩
    | _ => cases hmine
  | both hmine hother hlive hids =>
    cases hm with
    | stamp => exact ⟨trivial, .both rfl hother hlive hids⟩
    | assign => exact ⟨trivial, .both rfl hother hlive hids⟩
    | update => exact ⟨trivial, .both rfl hother hlive hids⟩
    | announce => exact ⟨trivial, .both rfl hother hlive hids⟩
    | done =>
      rw [List.append_nil]
      exact ⟨trivial, .both hmine hother hlive hids⟩
    | _ => cases hmine

/-- A step of the other call keeps it behind, or is out of order and spoils the joins for good. -/
theorem Led.follow (h : p.Led l mine other rows events)
    (hm : p.Move (!l) rows other rows' other' new) :
    p.OrderlyAt (!l) rows.head? other mine ∧ p.Led l mine other' rows' (events ++ new) ∨
      ¬ p.OrderlyAt (!l) rows.head? other mine ∧
        (p.Lost l mine other' rows' ∨ mine.announcing = true ∧ other'.announcing = true) := by
  have hevents : ∀ {rows}, p.Led l mine other' rows events →
      p.Led l mine other' rows (events ++ []) := fun hl => by rwa [List.append_nil]
  cases h with
  | adding hmine hother =>
    cases hm with
    | room => exact .inl ⟨trivial, .adding hmine rfl⟩
    | findNone =>
      refine .inr ⟨fun hok => ?_, .inr ⟨Stage.announcing_of_adding hmine, rfl⟩⟩
      cases hmine.symm.trans (hok rfl)
    | _ => cases hother
  | reviving hmine hother hdead =>
    cases hm with
    | room => exact .inl ⟨trivial, .reviving hmine rfl hdead⟩
    | findSome => exact .inl ⟨(fun hnone => by cases hnone), .reviving hmine rfl hdead⟩
    | checkActive hlive => cases hlive.symm.trans hdead
    | checkInactive =>
      refine .inr ⟨fun hok => ?_, .inr ⟨Stage.announcing_of_reviving hmine, rfl⟩⟩
      cases hmine.symm.trans (hok hdead)
    | _ => cases hother
  | rebinding hother hlive =>
    cases hm with
    | room => exact .inl ⟨trivial, .rebinding rfl hlive⟩
    | findSome => exact .inl ⟨(fun hnone => by cases hnone), .rebinding rfl hlive⟩
    | checkActive =>
      exact .inl ⟨(fun hdead => by cases hlive.symm.trans hdead), .rebinding rfl hlive⟩
    | checkInactive hdead => cases hlive.symm.trans hdead
    | containsThere hin =>
      refine .inr ⟨fun hok => ?_, .inl (.rebinding rfl)⟩
      exact hok (List.contains_iff_mem.mpr hin) rfl
    | containsNot hin =>
      exact .inl ⟨fun hc => absurd (List.contains_iff_mem.mp hc) hin, .rebinding rfl hlive⟩
    | append => exact .inr ⟨fun hok => hok rfl, .inl (.rebinding rfl)⟩
    | _ => cases hother
  | first hmine hother hlive hids =>
    have hout := Stage.past_of_written hmine
    refine .inl ?_
    cases hm with
    | room => exact ⟨trivial, hevents (.first hmine rfl hlive hids)⟩
    | findSome => exact ⟨fun _ => hout.1, hevents (.first hmine rfl hlive hids)⟩
    | checkActive => exact ⟨fun _ => hout.2.1, hevents (.first hmine rfl hlive hids)⟩
    | checkInactive hdead => cases hlive.symm.trans hdead
    | containsThere hin =>
      rw [hids, List.mem_singleton] at hin
      exact absurd hin (p.distinct l)
    | containsNot => exact ⟨fun _ => hout.2.2, hevents (.first hmine rfl hlive hids)⟩
    | append =>
      refine ⟨hout.2.2, hevents (.both hmine rfl hlive ?_)⟩
      rw [RoomMember.append, hids]
      rfl
    | _ => cases hother
  | both hmine hother hlive hids =>
    refine .inl ?_
    cases hm with
    | updateActive => exact ⟨trivial, hevents (.both hmine rfl hlive hids)⟩
    | done => exact ⟨trivial, hevents (.both hmine hother hlive hids)⟩
    | _ => cases hother

theorem Lost.own (h : p.Lost l mine other rows) (hm : p.Move l rows mine rows' mine' new) :
    p.Lost l mine' other rows' := by
  cases h with
  | rebinding hother =>
    cases hm with
    | rebind => exact .replaced rfl hother rfl
  | replaced hmine hother hids =>
    cases hm with
    | stamp => exact .replaced rfl hother hids
    | assign => exact .replaced rfl hother hids
    | update => exact .replaced rfl hother hids
    | announce => exact .replaced rfl hother hids
    | done => exact .replaced hmine hother hids
    | _ => cases hmine

theorem Lost.follow (h : p.Lost l mine other rows) (hm : p.Move (!l) rows other rows' other' new) :
    p.Lost l mine other' rows' := by
  cases h with
  | rebinding hother =>
    cases hm with
    | updateActive => exact .rebinding rfl
    | done => exact .rebinding hother
    | _ => cases hother
  | replaced hmine hother hids =>
    cases hm with
    | updateActive => exact .replaced hmine rfl hids
    | done => exact .replaced hmine hother hids
    | _ => cases hother

/-- What a call is going to announce it announces. -/
theorem Move.announcing {j : Bool} (hm : p.Move j rows mine rows' mine' new) :
    mine.announcing.toNat ≤ mine'.announcing.toNat + new.length := by
  cases hm <;> first | exact Nat.le_refl _ | exact Nat.zero_le _

theorem Move.rows_ne_nil {j : Bool} (hm : p.Move j rows mine rows' mine' new) (h : rows ≠ []) :
    rows' ≠ [] := by
  cases hm <;> simp_all

theorem Move.holds {j : Bool} (hm : p.Move j rows mine rows' mine' new)
    (h : mine.holds = true → rows ≠ []) (hholds : mine'.holds = true) : rows' ≠ [] := by
  cases hm <;> first | exact List.cons_ne_nil _ _ | cases hholds

/-! ## Whole interleavings -/

/-- The step of call `j` is in order. -/
def Orderly (p : TwoJoins) (s : JoinState) (j : Bool) : Prop :=
  p.OrderlyAt j (p.existing s.shared.store) (s.stage j) (s.stage !j)

/-- Both calls are back. -/
def Finished (s : JoinState) : Prop := ∀ j, ∃ joined, s.stage j = .done joined

/-- The account has one active record in the room, with both sessions, and one event was sent. -/
structure Joined (p : TwoJoins) (s : JoinState) : Prop where
  record : ∃ m, s.shared.store.members.filter (fun x =>
    x.isActive && x.isOf p.roomId p.accountId) = [m] ∧ ∀ j, p.sessionId j ∈ m.sessionIds
  event : s.shared.events = [p.event]

/-- The room is there and active, and a call that holds a row finds it. -/
structure Steady (p : TwoJoins) (s : JoinState) : Prop where
  room : p.Open s.shared.store
  holds : ∀ j, (s.stage j).holds = true → p.rows s.shared.store ≠ []

theorem act_rooms (p : TwoJoins) (j : Bool) (s : RoomStore) (stage : Stage) :
    (p.act j s stage).1.rooms = s.rooms := by
  cases stage with
  | room =>
    cases h : s.findRoomById p.roomId with
    | none => simp [act, h]
    | some room => simp [act, h]
  | _ => first | rfl | exact RoomStore.edit_rooms

/-- What a step of a call leaves: its rows, the stages of the calls, and the events. -/
theorem Steady.advance {s : JoinState} (h : p.Steady s) (j : Bool) :
    ∃ rows next new, p.Move j (p.rows s.shared.store) (s.stage j) rows next new ∧
      p.rows (p.advance s j).shared.store = rows ∧ (p.advance s j).stage j = next ∧
      (p.advance s j).stage (!j) = s.stage !j ∧
      (p.advance s j).shared.events = s.shared.events ++ new ∧ p.Steady (p.advance s j) := by
  have hm := p.act_move j h.room (h.holds j)
  have hself : (p.advance s j).stage j = (p.act j s.shared.store (s.stage j)).2.1 :=
    Threads.advance_self _ _ _
  have hother : (p.advance s j).stage (!j) = s.stage !j := Threads.advance_other _ _ _
  refine ⟨_, _, _, hm, rfl, hself, hother, rfl, ?_, fun i hi => ?_⟩
  · obtain ⟨room, hroom, hactive⟩ := h.room
    refine ⟨room, ?_, hactive⟩
    rw [← hroom]
    exact congrArg (List.find? _) (p.act_rooms j s.shared.store (s.stage j))
  · rcases Bool.eq_or_eq_not i j with rfl | rfl
    · rw [hself] at hi
      exact hm.holds (h.holds i) hi
    · rw [hother] at hi
      exact hm.rows_ne_nil (h.holds _ hi)

/-- Nobody has found out yet that the account is not a member. -/
structure Waiting (p : TwoJoins) (s : JoinState) : Prop where
  unread : ∀ j, (s.stage j).unread = true
  member : p.rows s.shared.store = [] ∧ (∀ j, (s.stage j).early = true) ∨
    ∃ x, p.rows s.shared.store = [x] ∧ x.isActive = false
  silent : s.shared.events = []

/-- The joins can still come out right. -/
def Sound (p : TwoJoins) (s : JoinState) : Prop :=
  p.Waiting s ∨ ∃ l, p.Led l (s.stage l) (s.stage !l) (p.rows s.shared.store) s.shared.events

/-- The events sent and those that will be. -/
def announced (s : JoinState) : Nat :=
  s.shared.events.length + ((s.stage true).announcing.toNat + (s.stage false).announcing.toNat)

def Spoilt (p : TwoJoins) (s : JoinState) : Prop :=
  2 ≤ announced s ∨ ∃ l, p.Lost l (s.stage l) (s.stage !l) (p.rows s.shared.store)

theorem announced_eq (s : JoinState) (j : Bool) : announced s =
    s.shared.events.length + ((s.stage j).announcing.toNat + (s.stage !j).announcing.toNat) := by
  cases j with
  | true => rfl
  | false => exact congrArg _ (Nat.add_comm _ _)

theorem Waiting.step {p : TwoJoins} {s : JoinState} (h : p.Waiting s) (hs : p.Steady s) (j : Bool) :
    p.Orderly s j ∧ p.Sound (p.advance s j) := by
  obtain ⟨rows, next, new, hm, hrows, hself, hother, hevents, _⟩ := hs.advance j
  have hidle := Stage.idle_of_unread (h.unread !j)
  have hmine := h.unread j
  have hwait : next.unread = true → (next.early = true ∨ rows ≠ []) → rows = p.rows s.shared.store →
      new = [] → p.Sound (p.advance s j) := by
    intro hnext hearly hsame hnone
    refine .inl ⟨fun i => ?_, ?_, ?_⟩
    · rcases Bool.eq_or_eq_not i j with rfl | rfl
      · rwa [hself]
      · rw [hother]
        exact h.unread _
    · rw [hrows, hsame]
      refine h.member.imp (fun hnil => ⟨hnil.1, fun i => ?_⟩) id
      rcases Bool.eq_or_eq_not i j with rfl | rfl
      · rw [hself]
        exact hearly.resolve_right (not_not.mpr (hsame.trans hnil.1))
      · rw [hother]
        exact hnil.2 _
    · rw [hevents, h.silent, hnone]
      rfl
  have hlead : p.Led j next (s.stage !j) rows (s.shared.events ++ new) →
      p.Sound (p.advance s j) := by
    intro hled
    refine .inr ⟨j, ?_⟩
    rwa [hself, hother, hrows, hevents]
  unfold Orderly
  rw [existing_eq]
  generalize hl : p.rows s.shared.store = l at hm hwait
  generalize hst : s.stage j = mine at hm hmine
  cases hm with
  | room => exact ⟨trivial, hwait rfl (.inl rfl) rfl rfl⟩
  | findNone =>
    refine ⟨fun _ => hidle.1, hlead ?_⟩
    rw [h.silent]
    rcases h.member with hnil | ⟨x, hx, _⟩
    · exact .adding rfl (hnil.2 _)
    · rw [hl] at hx
      cases hx
  | findSome => exact ⟨fun _ => hidle.1, hwait rfl (.inr (List.cons_ne_nil _ _)) rfl rfl⟩
  | checkActive hlive =>
    rcases h.member with hnil | ⟨x, hx, hdead⟩
    · rw [hl] at hnil
      cases hnil.1
    · rw [hl] at hx
      cases hx
      cases hlive.symm.trans hdead
  | checkInactive hdead =>
    refine ⟨fun _ => hidle.2, hlead ?_⟩
    rw [h.silent]
    rcases h.member with hnil | ⟨x, hx, _⟩
    · rw [hl] at hnil
      cases hnil.1
    · rw [hl] at hx
      cases hx
      exact .reviving rfl (h.unread _) hdead
  | _ => cases hmine

/-- Every step is in order and keeps the joins sound, or is not and spoils them. -/
theorem Sound.step {p : TwoJoins} {s : JoinState} (h : p.Sound s) (hs : p.Steady s) (j : Bool) :
    p.Orderly s j ∧ p.Sound (p.advance s j) ∨ ¬ p.Orderly s j ∧ p.Spoilt (p.advance s j) := by
  rcases h with hwait | ⟨l, hled⟩
  · exact .inl (hwait.step hs j)
  obtain ⟨rows, next, new, hm, hrows, hself, hother, hevents, _⟩ := hs.advance j
  unfold Orderly
  rw [existing_eq]
  rcases Bool.eq_or_eq_not j l with rfl | rfl
  · obtain ⟨hok, hnext⟩ := hled.own hm
    refine .inl ⟨hok, .inr ⟨j, ?_⟩⟩
    rwa [hself, hother, hrows, hevents]
  · rw [Bool.not_not] at hother ⊢
    rcases hled.follow hm with ⟨hok, hnext⟩ | ⟨hno, hspoilt⟩
    · refine .inl ⟨hok, .inr ⟨l, ?_⟩⟩
      rwa [hself, hother, hrows, hevents]
    · refine .inr ⟨hno, hspoilt.symm.imp (fun hboth => ?_) fun hlost => ⟨l, ?_⟩⟩
      · rw [announced_eq _ l, hself, hother, hboth.1, hboth.2]
        exact Nat.le_add_left _ _
      · rwa [hself, hother, hrows]

theorem Spoilt.step {p : TwoJoins} {s : JoinState} (h : p.Spoilt s) (hs : p.Steady s) (j : Bool) :
    p.Spoilt (p.advance s j) := by
  obtain ⟨rows, next, new, hm, hrows, hself, hother, hevents, _⟩ := hs.advance j
  refine h.imp (fun htwo => ?_) fun ⟨l, hlost⟩ => ⟨l, ?_⟩
  · have hmore := hm.announcing
    rw [announced_eq _ j] at htwo ⊢
    rw [hself, hother, hevents, List.length_append]
    omega
  · rw [hrows]
    rcases Bool.eq_or_eq_not j l with rfl | rfl
    · rw [hself, hother]
      exact hlost.own hm
    · rw [Bool.not_not] at hother
      rw [hself, hother]
      exact hlost.follow hm

/-! ## When both are back -/

theorem record_iff (p : TwoJoins) (s : JoinState) :
    s.shared.store.members.filter (fun x => x.isActive && x.isOf p.roomId p.accountId) =
      (p.rows s.shared.store).filter RoomMember.isActive := List.filter_filter.symm

theorem Sound.joined {p : TwoJoins} {s : JoinState} (h : p.Sound s) (hdone : Finished s) :
    p.Joined s := by
  rcases h with hwait | ⟨l, hled⟩
  · obtain ⟨joined, hstage⟩ := hdone true
    have hunread := hwait.unread true
    rw [hstage] at hunread
    cases hunread
  · obtain ⟨a, hmine⟩ := hdone l
    obtain ⟨b, hother⟩ := hdone !l
    rw [hmine, hother] at hled
    have hrecord := p.record_iff s
    generalize p.rows s.shared.store = rows at hled hrecord
    generalize hev : s.shared.events = events at hled
    cases hled with
    | both _ _ hlive hids =>
      refine ⟨⟨_, hrecord.trans (List.filter_cons_of_pos hlive), fun j => ?_⟩, hev⟩
      rw [hids]
      rcases Bool.eq_or_eq_not j l with rfl | rfl
      · exact List.mem_cons_self
      · exact List.mem_cons_of_mem _ List.mem_cons_self
    | adding hadding => cases hadding
    | reviving hreviving => cases hreviving
    | first _ hbefore => cases hbefore

theorem Spoilt.not_joined {p : TwoJoins} {s : JoinState} (h : p.Spoilt s) (hdone : Finished s) :
    ¬ p.Joined s := by
  intro hj
  have hquiet : ∀ j, (s.stage j).announcing = false := by
    intro j
    obtain ⟨joined, hstage⟩ := hdone j
    rw [hstage]
    rfl
  rcases h with htwo | ⟨l, hlost⟩
  · rw [announced, hquiet, hquiet, hj.event] at htwo
    exact Nat.not_succ_le_self 1 htwo
  · obtain ⟨a, hmine⟩ := hdone l
    rw [hmine] at hlost
    obtain ⟨m, hm, hsessions⟩ := hj.record
    rw [p.record_iff] at hm
    generalize p.rows s.shared.store = rows at hlost hm
    generalize s.stage (!l) = other at hlost
    cases hlost with
    | replaced _ _ hids =>
      have hmem := (List.filter_sublist (p := RoomMember.isActive)).subset (hm ▸ List.mem_cons_self)
      have hin := hsessions !l
      rw [List.mem_singleton.mp hmem, hids, List.mem_singleton] at hin
      exact p.distinct l hin

/-- A room that is not there, or not active, lets nobody in. -/
structure Closed (p : TwoJoins) (s : JoinState) : Prop where
  room : ¬ p.Open s.shared.store
  stage : ∀ j, s.stage j = .room ∨ s.stage j = .done false
  silent : s.shared.events = []

theorem Closed.step {p : TwoJoins} {s : JoinState} (h : p.Closed s) (j : Bool) :
    p.Closed (p.advance s j) := by
  have hact : (p.act j s.shared.store (s.stage j)) = (s.shared.store, .done false, none) := by
    rcases h.stage j with hstage | hstage
    · rw [hstage]
      unfold act
      cases hroom : s.shared.store.findRoomById p.roomId with
      | none => rfl
      | some room =>
        have hstate : room.state ≠ .active := fun hactive => h.room ⟨room, hroom, hactive⟩
        simp [hstate]
    · rw [hstage]
      rfl
  have hstep : p.step j s.shared (s.stage j) = (s.shared, .done false) := by
    rw [TwoJoins.step, hact]
    dsimp only
    rw [Option.toList_none, List.append_nil]
  have hshared : (p.advance s j).shared = s.shared := congrArg Prod.fst hstep
  refine ⟨hshared ▸ h.room, fun i => ?_, hshared ▸ h.silent⟩
  rcases Bool.eq_or_eq_not i j with rfl | rfl
  · exact .inr ((Threads.advance_self _ _ _).trans (congrArg Prod.snd hstep))
  · rw [show (p.advance s j).stage (!j) = s.stage !j from Threads.advance_other _ _ _]
    exact h.stage _

/-- An account that is a member already is not announced. -/
structure Inside (p : TwoJoins) (s : JoinState) : Prop where
  steady : p.Steady s
  member : ∃ x rest, p.rows s.shared.store = x :: rest ∧ x.isActive = true
  calm : ∀ j, (s.stage j).calm = true
  silent : s.shared.events = []

theorem Inside.step {p : TwoJoins} {s : JoinState} (h : p.Inside s) (j : Bool) :
    p.Inside (p.advance s j) := by
  obtain ⟨rows, next, new, hm, hrows, hself, hother, hevents, hsteady⟩ := h.steady.advance j
  obtain ⟨x, rest, hl, hlive⟩ := h.member
  have hcalm := h.calm j
  have hstep : new = [] ∧ next.calm = true ∧ ∃ x rest, rows = x :: rest ∧ x.isActive = true := by
    rw [hl] at hm
    generalize s.stage j = mine at hm hcalm
    cases hm with
    | checkInactive hdead => cases hlive.symm.trans hdead
    | room => exact ⟨rfl, rfl, x, rest, rfl, hlive⟩
    | findSome => exact ⟨rfl, rfl, x, rest, rfl, hlive⟩
    | checkActive => exact ⟨rfl, rfl, x, rest, rfl, hlive⟩
    | containsThere => exact ⟨rfl, rfl, x, rest, rfl, hlive⟩
    | containsNot => exact ⟨rfl, rfl, x, rest, rfl, hlive⟩
    | append => exact ⟨rfl, rfl, _, rest, rfl, hlive⟩
    | updateActive => exact ⟨rfl, rfl, x, rest, rfl, hlive⟩
    | done => exact ⟨rfl, rfl, x, rest, rfl, hlive⟩
    | _ => cases hcalm
  obtain ⟨hnone, hnext, hmember⟩ := hstep
  refine ⟨hsteady, by rwa [hrows], fun i => ?_, by rw [hevents, h.silent, hnone]; rfl⟩
  rcases Bool.eq_or_eq_not i j with rfl | rfl
  · rwa [hself]
  · rw [hother]
    exact h.calm _

/-- The account can become a member: the room is there and active, and the account is not an
active member of it. -/
def Opens (p : TwoJoins) : Prop := p.Open p.store ∧ ¬ p.store.ActiveIn p.roomId p.accountId

theorem rows_start (p : TwoJoins) : p.rows p.store = [] ∨ ∃ x, p.rows p.store = [x] := by
  cases hl : p.rows p.store with
  | nil => exact .inl rfl
  | cons x rest =>
    refine .inr ⟨x, ?_⟩
    have hkeys : ∀ y ∈ p.rows p.store, y.key = (p.roomId, p.accountId) := fun y hy =>
      RoomMember.isOf_iff.mp (List.mem_filter.mp hy).2
    have hnodup : ((p.rows p.store).map RoomMember.key).Nodup :=
      p.wellFormed.unique.sublist (List.filter_sublist.map _)
    rw [hl] at hkeys hnodup
    cases rest with
    | nil => rfl
    | cons y rest =>
      refine absurd ?_ (List.nodup_cons.mp hnodup).1
      rw [hkeys x List.mem_cons_self,
        ← hkeys y (List.mem_cons_of_mem _ List.mem_cons_self)]
      exact List.mem_cons_self

theorem activeIn_iff_rows (p : TwoJoins) (s : RoomStore) :
    s.ActiveIn p.roomId p.accountId ↔ ∃ x ∈ p.rows s, x.isActive = true := by
  constructor
  · rintro ⟨x, hx, hk, hyes⟩
    exact ⟨x, List.mem_filter.mpr ⟨hx, RoomMember.isOf_iff.mpr hk⟩, hyes⟩
  · rintro ⟨x, hx, hyes⟩
    obtain ⟨hmem, hof⟩ := List.mem_filter.mp hx
    exact ⟨x, hmem, RoomMember.isOf_iff.mp hof, hyes⟩

theorem start_steady {p : TwoJoins} (h : p.Open p.store) : p.Steady p.start :=
  ⟨h, fun _ hholds => by cases hholds⟩

theorem start_waiting {p : TwoJoins} (h : p.Opens) : p.Waiting p.start := by
  refine ⟨fun _ => rfl, ?_, rfl⟩
  rcases p.rows_start with hnil | ⟨x, hx⟩
  · exact .inl ⟨hnil, fun _ => rfl⟩
  · refine .inr ⟨x, hx, ?_⟩
    have hnot := h.2
    rw [activeIn_iff_rows, hx] at hnot
    simpa using hnot

theorem start_inside {p : TwoJoins} (hopen : p.Open p.store)
    (h : p.store.ActiveIn p.roomId p.accountId) : p.Inside p.start := by
  refine ⟨start_steady hopen, ?_, fun _ => rfl, rfl⟩
  rw [activeIn_iff_rows] at h
  obtain ⟨x, hx, hyes⟩ := h
  rcases p.rows_start with hnil | ⟨y, hy⟩
  · rw [hnil] at hx
    cases hx
  · rw [hy] at hx
    exact ⟨y, [], hy, List.mem_singleton.mp hx ▸ hyes⟩

/-- Two joins at once make the account a member with both sessions, announced once, exactly when
it can become one and their steps are in order. -/
theorem both_joined_iff (p : TwoJoins) (order : List Bool)
    (hdone : Finished (Machine.run p.advance p.start order)) :
    p.Joined (Machine.run p.advance p.start order) ↔
      p.Opens ∧ Machine.Guarded p.advance p.Orderly p.start order := by
  by_cases hopens : p.Opens
  · rw [and_iff_right hopens]
    have hsteady : ∀ s j, p.Steady s → p.Steady (p.advance s j) := by
      intro s j h
      obtain ⟨_, _, _, _, _, _, _, _, hnext⟩ := h.advance j
      exact hnext
    rcases Machine.guarded_or_spoilt p.Steady p.Sound p.Spoilt hsteady
        (fun _ j hs h => h.step hs j) (fun _ j hs h => h.step hs j) (start_steady hopens.1)
        (.inl (start_waiting hopens)) order with ⟨hg, hsound⟩ | ⟨hno, hspoilt⟩
    · exact iff_of_true (hsound.joined hdone) hg
    · exact iff_of_false (hspoilt.not_joined hdone) hno
  · refine iff_of_false (fun hj => ?_) fun h => hopens h.1
    have hsilent : (Machine.run p.advance p.start order).shared.events = [] := by
      by_cases hroom : p.Open p.store
      · have hactive : p.store.ActiveIn p.roomId p.accountId := by
          by_contra hno
          exact hopens ⟨hroom, hno⟩
        exact (Machine.run_inv p.Inside (fun _ j h => h.step j) (start_inside hroom hactive)
          order).silent
      · exact (Machine.run_inv p.Closed (fun _ j h => h.step j) ⟨hroom, fun _ => .inl rfl, rfl⟩
          order).silent
    rw [hj.event] at hsilent
    cases hsilent

/-- Two clients of one account, and a room with nobody in it. -/
def clients : TwoJoins where
  store := { rooms := [{ roomId := "r", name := "general" }] }
  wellFormed := ⟨List.nodup_nil, fun _ h => by cases h⟩
  roomId := "r"
  accountId := "a"
  sessionId j := if j then "s" else "t"
  named := by decide
  distinct := by decide

theorem clients_opens : clients.Opens := by
  refine ⟨⟨_, rfl, rfl⟩, fun h => ?_⟩
  obtain ⟨_, hm, _⟩ := h
  cases hm

/-- One client joins, and then the other one. -/
theorem joined_one_after_the_other :
    clients.Joined (Machine.run clients.advance clients.start
      (List.replicate 6 true ++ List.replicate 6 false)) := by
  have hdone : Finished (Machine.run clients.advance clients.start
      (List.replicate 6 true ++ List.replicate 6 false)) := by
    intro j
    cases j with
    | true => exact ⟨true, rfl⟩
    | false => exact ⟨true, rfl⟩
  refine (both_joined_iff clients _ hdone).mpr ⟨clients_opens, ?_⟩
  exact ⟨trivial, fun _ => rfl, fun _ => rfl, trivial, trivial, trivial, trivial, fun _ => rfl,
    fun _ => rfl, (fun _ h => by cases h), (fun h => by cases h), trivial, trivial⟩

/-- Both clients look for the member before either adds it. -/
theorem member_added_twice :
    ¬ ∀ (p : TwoJoins) (order : List Bool), p.Opens →
      Finished (Machine.run p.advance p.start order) →
        p.Joined (Machine.run p.advance p.start order) := by
  intro h
  have hj := h clients ([true, false, true, false] ++ List.replicate 4 true ++
    List.replicate 4 false) clients_opens fun j => by
      cases j with
      | true => exact ⟨true, rfl⟩
      | false => exact ⟨true, rfl⟩
  have htwice := hj.event
  cases htwice

end TwoJoins

end IrisMind.Rooms
