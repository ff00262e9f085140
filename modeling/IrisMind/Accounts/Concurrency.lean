import IrisMind.Accounts.CallSteps

/-! # Two calls at once

Two calls that resolve one identity agree as long as only one of them finds it
without an account. Two calls that are about one account keep each other's
values as long as neither writes the account while the other one holds a copy
that lacks them. -/
namespace IrisMind.Accounts
open IrisMind.Lib

abbrev CallsState := Threads AccountStore CallStage

/-- Two calls on a store. The ids drawn are new, and nothing is linked to them. -/
structure TwoCalls where
  store : AccountStore
  call : Bool → Call
  drawn : Bool → Drawn
  unique : store.directory.Unique
  fresh : ∀ j, (drawn j).newId ∉ store.directory.ids
  unlinked : ∀ j k, store.directory.owner k ≠ some (drawn j).newId
  distinct : (drawn true).newId ≠ (drawn false).newId

namespace TwoCalls
variable (p : TwoCalls)

def step (j : Bool) (s : AccountStore) (stage : CallStage) : AccountStore × CallStage :=
  callStep (p.drawn j) s (p.call j) stage

def start : CallsState := ⟨p.store, fun _ => .start⟩

def advance : CallsState → Bool → CallsState := Threads.advance p.step

/-- Without the other one a call leaves what the account manager leaves. -/
theorem run_alone (j : Bool) :
    (Machine.run p.advance p.start (List.replicate 5 j)).shared =
      (p.call j).result (p.drawn j) p.store := by
  have hrun := Threads.run_replicate p.step p.start j 5
  exact (congrArg Prod.fst hrun).trans (call_alone (p.drawn j) p.store (p.call j))

/-- Both calls are back. -/
def Finished (s : CallsState) : Prop := ∀ j, ∃ value named, s.stage j = .done value named

/-- Both calls are about the account. -/
def About (id : String) (s : CallsState) : Prop :=
  ∀ j, (p.call j).Targets s.shared.directory id ∧ (p.call j).Follows id (s.stage j)

theorem About.advance {p : TwoCalls} {id : String} {s : CallsState} (h : p.About id s) (j : Bool) :
    ∃ a a', s.shared.findAccountById id = some a ∧
      (p.advance s j).shared.directory = s.shared.directory ∧
      (p.advance s j).shared.findAccountById id = some a' ∧
      (p.call j).Move (p.drawn j).now a (s.stage j) a' ((p.advance s j).stage j) ∧
      (p.advance s j).stage (!j) = s.stage !j ∧ p.About id (p.advance s j) := by
  obtain ⟨a, a', ha, hd, ha', hm, hf⟩ := callStep_move (p.drawn j) (h j).1 (h j).2
  have hself : (p.advance s j).stage j = (p.step j s.shared (s.stage j)).2 :=
    Threads.advance_self _ _ _
  have hother : (p.advance s j).stage (!j) = s.stage !j := Threads.advance_other _ _ _
  refine ⟨a, a', ha, hd, ha', ?_, hother, fun i => ⟨?_, ?_⟩⟩
  · rw [hself]
    exact hm
  · show (p.call i).Targets (p.step j s.shared (s.stage j)).1.directory id
    rw [show (p.step j s.shared (s.stage j)).1.directory = _ from hd]
    exact (h i).1
  · rcases Bool.eq_or_eq_not i j with rfl | rfl
    · rw [hself]
      exact hf
    · rw [hother]
      exact (h _).2

/-! ## Resolving one identity twice -/

/-- Both calls resolve the identity. -/
def Resolves (k : IdentityKey) : Prop := ∀ j, ∃ v, p.call j = .resolve v ∧ v.key = k

/-- Both calls return one account, and there is one record for the identity. -/
def Agreed (k : IdentityKey) (s : CallsState) : Prop :=
  (∃ id, ∀ j, (s.stage j).value = some id) ∧
    (s.shared.identities.filter (fun i => i.key = k)).length = 1

/-- No account has the identity. -/
def Homeless (k : IdentityKey) (d : Directory) : Prop := ∀ id, ¬ d.Linked k id

/-- A call looks the identity up: if it has no account yet, the other call has not looked. -/
def LooksFirst (k : IdentityKey) (s : CallsState) (j : Bool) : Prop :=
  s.stage j = .start → Homeless k s.shared.directory → s.stage (!j) = .start

/-- The directory when call `l` has registered its account. -/
def enrolled (l : Bool) : Directory :=
  { p.store.directory with ids := p.store.directory.ids ++ [(p.drawn l).newId] }

/-- Call `l` makes an account for the identity, alone. -/
inductive Makes (k : IdentityKey) (l : Bool) : CallStage → Directory → Prop
  | registering (h : p.store.directory.owner k = none) : Makes k l .registering p.store.directory
  | linking (h : p.store.directory.owner k = none) : Makes k l .linking (p.enrolled l)
  | checking (h : p.store.directory.owner k = none) : Makes k l (.checking none) (p.enrolled l)
  | adding {i} (h : p.store.directory.owner k = none) (hkey : i.key = k)
      (hid : i.accountId = (p.drawn l).newId) : Makes k l (.adding i) (p.enrolled l)
  | seeing {i} (h : p.store.directory.owner i.key = some i.accountId) (hkey : i.key = k)
      (hgone : i.accountId ∉ p.store.directory.ids) : Makes k l (.seeing i) p.store.directory
  | resolving {i} (h : p.store.directory.owner i.key = some i.accountId) (hkey : i.key = k)
      (hgone : i.accountId ∉ p.store.directory.ids) : Makes k l (.resolving i) p.store.directory
  | replacing {i} (h : p.store.directory.owner i.key = some i.accountId) (hkey : i.key = k)
      (hgone : i.accountId ∉ p.store.directory.ids) : Makes k l (.replacing i) p.store.directory
  | relinking {i old} (h : p.store.directory.owner k = some old) (hkey : i.key = k)
      (hgone : old ∉ p.store.directory.ids) (hid : i.accountId = (p.drawn l).newId) :
      Makes k l (.relinking i) (p.enrolled l)

/-- The call has looked, found no account, and will return its own. -/
def Own (j : Bool) (d : Directory) : CallStage → Prop
  | .seeing i | .resolving i => i.accountId ∉ d.ids ∧ ∀ j, i.accountId ≠ (p.drawn j).newId
  | .done value _ => value = some (p.drawn j).newId
  | .start | .writing _ _ _ => False
  | _ => True

variable {p} {k : IdentityKey} {l : Bool} {s : CallsState}

theorem unique_enrolled (p : TwoCalls) (l : Bool) : (p.enrolled l).Unique := by
  have hcreated : Directory.Change (some (p.drawn l).newId) none p.store.directory
    (p.enrolled l) := .created rfl
  refine hcreated.unique p.unique fun id hid => ?_
  cases hid
  exact p.fresh l

theorem homeless_enrolled (h : Homeless k p.store.directory) (l : Bool) :
    Homeless k (p.enrolled l) := by
  rintro id ⟨howner, hid⟩
  rcases List.mem_append.mp hid with hid | hid
  · exact h id ⟨howner, hid⟩
  · rw [List.mem_singleton.mp hid] at howner
    exact p.unlinked l k howner

theorem homeless_of_none {d : Directory} (h : d.owner k = none) : Homeless k d := by
  rintro id ⟨howner, _⟩
  cases howner.symm.trans h

theorem homeless_of_gone {d : Directory} {old : String} (h : d.owner k = some old)
    (hgone : old ∉ d.ids) : Homeless k d := by
  rintro id ⟨howner, hid⟩
  rw [Option.some.inj (howner.symm.trans h)] at hid
  exact hgone hid

/-- Until the account is linked the identity has none, and its link is the one it had. -/
theorem Makes.homeless {stage : CallStage} {d : Directory} (h : p.Makes k l stage d) :
    Homeless k d ∧ d.links = p.store.directory.links := by
  cases h with
  | registering h => exact ⟨homeless_of_none h, rfl⟩
  | linking h | checking h | adding h _ _ =>
    exact ⟨homeless_enrolled (homeless_of_none h) l, rfl⟩
  | seeing h hkey hgone | resolving h hkey hgone | replacing h hkey hgone =>
    subst hkey
    exact ⟨homeless_of_gone h hgone, rfl⟩
  | relinking h _ hgone _ => exact ⟨homeless_enrolled (homeless_of_gone h hgone) l, rfl⟩

theorem Makes.own {stage : CallStage} {d : Directory} (h : p.Makes k l stage d) :
    p.Own l d stage ∧ stage ≠ .start := by
  cases h with
  | seeing h _ hgone | resolving h _ hgone =>
    refine ⟨⟨hgone, fun j hj => ?_⟩, (fun he => by cases he)⟩
    rw [hj] at h
    exact p.unlinked j _ h
  | _ => exact ⟨trivial, (fun he => by cases he)⟩

/-- The account is linked: the identity has it, and no identity is there twice. -/
theorem linked_enrolled (p : TwoCalls) (k : IdentityKey) (l : Bool) :
    let d : Directory := { p.enrolled l with
      links := Dict.write k (p.drawn l).newId p.store.directory.links }
    d.Unique ∧ d.Linked k (p.drawn l).newId := by
  refine ⟨⟨(p.unique_enrolled l).ids, Dict.write_nodup p.unique.keys⟩, ?_, ?_⟩
  · exact (Dict.lookup_write _ _ _ _).trans (if_pos rfl)
  · exact List.mem_append_right _ (List.mem_singleton.mpr rfl)

/-- A step of the call that makes the account: it goes on, or the identity has the account. -/
theorem Makes.step {v : Visit} (hv : v.key = k) {s : AccountStore} {stage : CallStage}
    (h : p.Makes k l stage s.directory) :
    let next := resolveStep (p.drawn l) s v stage
    p.Makes k l next.2 next.1.directory ∨
      next.1.directory.Unique ∧ next.1.directory.Linked k (p.drawn l).newId ∧
        next.2 = .done (some (p.drawn l).newId) none := by
  intro next
  have hregister : s.directory = p.store.directory →
      (AccountManager.register s (p.drawn l) v.newName).store.directory = p.enrolled l := by
    intro hd
    rw [AccountManager.directory_register, hd]
    rfl
  have hnone : s.directory.owner k = none → s.findIdentity v.provider v.subject = none := by
    intro hd
    rw [← hv] at hd
    exact AccountStore.findIdentity_eq_none.mpr hd
  generalize hd : s.directory = d at h
  cases h with
  | registering h =>
    left
    rw [show next.1.directory = _ from hregister hd]
    exact .linking h
  | linking h =>
    left
    have hfind := hnone (by rw [hd]; exact h)
    have hnext : next = (s, .checking none) := by simp [next, resolveStep, hfind]
    rw [hnext, hd]
    exact .checking h
  | checking h =>
    left
    have hid : (p.drawn l).newId ∈ s.directory.ids := by
      rw [hd]
      exact List.mem_append_right _ (List.mem_singleton.mpr rfl)
    obtain ⟨a, ha⟩ := AccountStore.find_of_mem hid
    have hnext : next = (s, .adding (v.identity (p.drawn l))) := by
      simp [next, resolveStep, ha]
    rw [hnext, hd]
    exact .adding h hv rfl
  | @adding i h hkey hid =>
    right
    have hfind : s.findIdentity i.provider i.subject = none := by
      obtain ⟨hp, hs⟩ := Prod.mk.inj (hkey.trans hv.symm)
      rw [hp, hs]
      exact hnone (by rw [hd]; exact h)
    have hnext : next.1.directory = { p.enrolled l with
        links := Dict.write k (p.drawn l).newId p.store.directory.links } := by
      rw [show next.1.directory = _ from AccountStore.directory_addIdentity hfind, hd, hkey, hid]
      rfl
    rw [hnext]
    obtain ⟨hunique, hlinked⟩ := p.linked_enrolled k l
    exact ⟨hunique, hlinked, rfl⟩
  | @seeing i h hkey hgone =>
    left
    have hnext : next.1.directory = p.store.directory := by
      rw [← hd]
      exact directory_rewrite (by rw [hd]; exact h)
    rw [hnext]
    exact .resolving h hkey hgone
  | @resolving i h hkey hgone =>
    left
    have hfind : s.findAccountById i.accountId = none :=
      AccountStore.find_eq_none.mpr (by rw [hd]; exact hgone)
    have hnext : next = (s, .replacing i) := by simp [next, resolveStep, hfind]
    rw [hnext, hd]
    exact .replacing h hkey hgone
  | @replacing i h hkey hgone =>
    left
    rw [show next.1.directory = _ from hregister hd]
    subst hkey
    exact .relinking h rfl hgone rfl
  | @relinking i old h hkey hgone hid =>
    right
    have hfind : (s.findIdentity i.provider i.subject).isSome = true := by
      refine Option.isSome_iff_ne_none.mpr fun hnone => ?_
      have howner : s.directory.owner i.key = none := AccountStore.findIdentity_eq_none.mp hnone
      rw [hd, hkey] at howner
      cases howner.symm.trans h
    have hnext : next.1.directory = { p.enrolled l with
        links := Dict.write k (p.drawn l).newId p.store.directory.links } := by
      rw [show next.1.directory = _ from AccountStore.links_updateIdentity hfind, hd, hkey, hid]
      rfl
    rw [hnext]
    obtain ⟨hunique, hlinked⟩ := p.linked_enrolled k l
    exact ⟨hunique, hlinked, rfl⟩

/-- A call that finds no account for the identity is going to make one. -/
theorem resolveStep_makes {v : Visit} (hv : v.key = k) {s : AccountStore}
    (h : Homeless k s.directory) (hlinks : s.directory.links = p.store.directory.links) (j : Bool) :
    p.Own j s.directory (resolveStep (p.drawn j) s v .start).2 ∧
      (resolveStep (p.drawn j) s v .start).1 = s ∧
      (s.directory = p.store.directory →
        p.Makes k j (resolveStep (p.drawn j) s v .start).2 s.directory) := by
  subst hv
  have hold : ∀ id, s.directory.owner v.key = some id →
      p.store.directory.owner v.key = some id := by
    intro id hid
    rw [Directory.owner, hlinks] at hid
    exact hid
  rcases resolveStep_start (p.drawn j) s v with ⟨i, hkey, howner, _, hnext⟩ | ⟨howner, _, hnext⟩
  · rw [hnext]
    have hgone : i.accountId ∉ s.directory.ids := fun hid => h _ ⟨howner, hid⟩
    refine ⟨⟨hgone, fun j hj => ?_⟩, rfl, fun hd => ?_⟩
    · refine p.unlinked j v.key ?_
      rw [← hj]
      exact hold _ howner
    · rw [hd] at hgone ⊢
      refine .seeing ?_ hkey hgone
      rw [Visit.see_key, hkey]
      exact hold _ howner
  · rw [hnext]
    refine ⟨trivial, rfl, fun hd => ?_⟩
    rw [hd] at howner ⊢
    exact .registering howner

/-- A step of a resolution adds no account but its own. -/
theorem resolveStep_ids (drawn : Drawn) (s : AccountStore) (v : Visit) (stage : CallStage) :
    ∀ id ∈ (resolveStep drawn s v stage).1.directory.ids,
      id ∈ s.directory.ids ∨ id = drawn.newId := by
  intro id hid
  have hregister : ∀ {name},
      id ∈ (AccountManager.register s drawn name).store.directory.ids →
        id ∈ s.directory.ids ∨ id = drawn.newId := by
    intro name hmem
    rw [AccountManager.directory_register] at hmem
    exact (List.mem_append.mp hmem).imp_right List.mem_singleton.mp
  cases stage with
  | start =>
    rcases resolveStep_start drawn s v with ⟨_, _, _, _, hnext⟩ | ⟨_, _, hnext⟩ <;>
      rw [hnext] at hid <;> exact .inl hid
  | resolving i =>
    cases hfind : s.findAccountById i.accountId <;> simp [resolveStep, hfind] at hid <;>
      exact .inl hid
  | linking =>
    cases hfind : s.findIdentity v.provider v.subject <;> simp [resolveStep, hfind] at hid <;>
      exact .inl hid
  | checking existing =>
    cases hfind : s.findAccountById drawn.newId <;> cases existing <;>
      simp [resolveStep, hfind] at hid <;> exact .inl hid
  | registering | replacing i => exact hregister hid
  | writing a value named =>
    have hids : (s.updateAccount a).directory.ids = s.directory.ids :=
      Rows.map_replaceFirst (fun x hx => beq_iff_eq.mp hx) s.accounts
    rw [← hids]
    exact .inl hid
  | seeing i | relinking i | refreshing i | adding i | done value named => exact .inl hid

theorem Own.mono {j : Bool} {d d' : Directory} {stage : CallStage} (h : p.Own j d stage)
    (hids : ∀ id ∈ d'.ids, id ∈ d.ids ∨ ∃ j, id = (p.drawn j).newId) : p.Own j d' stage := by
  cases stage with
  | seeing i | resolving i =>
    refine ⟨fun hid => ?_, h.2⟩
    rcases hids _ hid with hid | ⟨j', hj'⟩
    · exact h.1 hid
    · exact h.2 j' hj'
  | _ => exact h

/-- A call that makes an account of its own returns it, whatever the other call does. -/
theorem Own.step {v : Visit} {j : Bool} {s : AccountStore} {stage : CallStage}
    (h : p.Own j s.directory stage) :
    let next := resolveStep (p.drawn j) s v stage
    p.Own j next.1.directory next.2 := by
  intro next
  cases stage with
  | start | writing a value named => cases h
  | seeing i => exact h
  | resolving i =>
    have hfind : s.findAccountById i.accountId = none := AccountStore.find_eq_none.mpr h.1
    have hnext : next = (s, .replacing i) := by simp [next, resolveStep, hfind]
    rw [hnext]
    trivial
  | linking =>
    cases hfind : s.findIdentity v.provider v.subject with
    | none =>
      have hnext : next = (s, .checking none) := by simp [next, resolveStep, hfind]
      rw [hnext]
      trivial
    | some i =>
      by_cases hid : i.accountId = (p.drawn j).newId
      · have hnext : next = (s, .checking (some i)) := by simp [next, resolveStep, hfind, hid]
        rw [hnext]
        trivial
      · have hnext : next = (s, .done (some (p.drawn j).newId) none) := by
          simp [next, resolveStep, hfind, hid]
        rw [hnext]
        rfl
  | checking existing =>
    cases hfind : s.findAccountById (p.drawn j).newId with
    | none =>
      have hnext : next = (s, .done (some (p.drawn j).newId) none) := by
        simp [next, resolveStep, hfind]
      rw [hnext]
      rfl
    | some a =>
      cases existing with
      | none =>
        have hnext : next = (s, .adding (v.identity (p.drawn j))) := by
          simp [next, resolveStep, hfind]
        rw [hnext]
        trivial
      | some i =>
        have hnext : next = (s, .refreshing (v.see (p.drawn j).now i)) := by
          simp [next, resolveStep, hfind]
        rw [hnext]
        trivial
  | done value named => exact h
  | relinking i | refreshing i | adding i => rfl
  | registering | replacing i => trivial

/-- Each call makes an account of its own. -/
def Apart (p : TwoCalls) (s : CallsState) : Prop :=
  ∀ j, p.Own j s.shared.directory (s.stage j)

/-- The identity has an account, and both calls are going to return it. -/
def Settled (p : TwoCalls) (s : CallsState) : Prop :=
  ∃ id, s.shared.directory.Unique ∧ p.About id s

/-- The calls can still agree. -/
inductive Agreeing (p : TwoCalls) (k : IdentityKey) (s : CallsState) : Prop
  | waiting (h : Homeless k p.store.directory) (hd : s.shared.directory = p.store.directory)
      (hstart : ∀ j, s.stage j = .start)
  | making (l : Bool) (h : p.Makes k l (s.stage l) s.shared.directory)
      (hother : s.stage (!l) = .start)
  | settled (h : p.Settled s)

theorem step_resolve {j : Bool} {v : Visit} (hv : p.call j = .resolve v) (s : AccountStore)
    (stage : CallStage) : p.step j s stage = resolveStep (p.drawn j) s v stage := by
  rw [step, hv]
  rfl

theorem Settled.step (h : p.Settled s) (j : Bool) : p.Settled (p.advance s j) := by
  obtain ⟨id, hunique, habout⟩ := h
  obtain ⟨_, _, _, hd, _, _, _, hnext⟩ := habout.advance j
  exact ⟨id, hd ▸ hunique, hnext⟩

theorem Apart.step (hk : p.Resolves k) (h : p.Apart s) (j : Bool) : p.Apart (p.advance s j) := by
  obtain ⟨v, hv, _⟩ := hk j
  intro i
  rcases Bool.eq_or_eq_not i j with rfl | rfl
  · rw [advance, Threads.advance_self, Threads.advance_shared, step_resolve hv]
    exact (h i).step
  · rw [advance, Threads.advance_other, Threads.advance_shared, step_resolve hv]
    refine (h (!j)).mono fun id hid => ?_
    exact (resolveStep_ids (p.drawn j) s.shared v (s.stage j) id hid).imp_right fun heq => ⟨j, heq⟩

/-- A step of the call that makes the account keeps it ahead, or settles the matter. -/
theorem Makes.advance (hk : p.Resolves k) (h : p.Makes k l (s.stage l) s.shared.directory)
    (hother : s.stage (!l) = .start) : p.Agreeing k (p.advance s l) := by
  obtain ⟨v, hv, hkey⟩ := hk l
  have hself : (p.advance s l).stage l = (resolveStep (p.drawn l) s.shared v (s.stage l)).2 :=
    (Threads.advance_self _ _ _).trans (congrArg Prod.snd (step_resolve hv _ _))
  have hshared : (p.advance s l).shared = (resolveStep (p.drawn l) s.shared v (s.stage l)).1 :=
    congrArg Prod.fst (step_resolve hv _ _)
  have hstays : (p.advance s l).stage (!l) = .start :=
    (Threads.advance_other _ _ _).trans hother
  rcases h.step hkey with hmakes | ⟨hunique, hlinked, hdone⟩
  · refine .making l ?_ hstays
    rw [hself, hshared]
    exact hmakes
  · refine .settled ⟨(p.drawn l).newId, ?_, fun j => ?_⟩
    · rw [hshared]
      exact hunique
    · obtain ⟨w, hw, hwkey⟩ := hk j
      rw [hw, hshared]
      refine ⟨?_, ?_⟩
      · show Directory.Linked _ w.key _
        rw [hwkey]
        exact hlinked
      · rcases Bool.eq_or_eq_not j l with rfl | rfl
        · rw [hself, hdone]
          exact fun _ _ => rfl
        · rw [hstays]
          trivial

theorem agreeing_or_apart (hk : p.Resolves k) (h : p.Agreeing k s) (j : Bool) :
    LooksFirst k s j ∧ p.Agreeing k (p.advance s j) ∨
      ¬ LooksFirst k s j ∧ p.Apart (p.advance s j) := by
  cases h with
  | waiting hnone hd hstart =>
    left
    obtain ⟨v, hv, hkey⟩ := hk j
    obtain ⟨_, hsame, hmakes⟩ := resolveStep_makes (p := p) hkey (s := s.shared)
      (by rw [hd]; exact hnone) (by rw [hd]) j
    refine ⟨fun _ _ => hstart (!j), .making j ?_ ((Threads.advance_other _ _ _).trans (hstart _))⟩
    rw [advance, Threads.advance_self, Threads.advance_shared, step_resolve hv, hstart j, hsame]
    exact hmakes hd
  | making l hmakes hother =>
    obtain ⟨hhomeless, hlinks⟩ := hmakes.homeless
    obtain ⟨hown, hlooked⟩ := hmakes.own
    rcases Bool.eq_or_eq_not j l with rfl | rfl
    · exact .inl ⟨fun hstart => absurd hstart hlooked, hmakes.advance hk hother⟩
    · right
      refine ⟨fun hok => hlooked ?_, fun i => ?_⟩
      · have hstart := hok hother hhomeless
        rwa [Bool.not_not] at hstart
      obtain ⟨v, hv, hkey⟩ := hk (!l)
      obtain ⟨hfound, hsame, _⟩ := resolveStep_makes (p := p) hkey hhomeless hlinks (!l)
      have hshared : (p.advance s (!l)).shared = s.shared := by
        rw [advance, Threads.advance_shared, step_resolve hv, hother, hsame]
      rw [hshared]
      rcases Bool.eq_or_eq_not i (!l) with rfl | rfl
      · rw [advance, Threads.advance_self, step_resolve hv, hother]
        exact hfound
      · rw [advance, Threads.advance_other, Bool.not_not]
        exact hown
  | settled h =>
    refine .inl ⟨fun _ hhomeless => ?_, .settled (h.step j)⟩
    obtain ⟨id, _, habout⟩ := h
    obtain ⟨v, hv, hkey⟩ := hk j
    have ht := (habout j).1
    rw [hv] at ht
    rw [← hkey] at hhomeless
    exact absurd ht (hhomeless id)

theorem Settled.agreed (hk : p.Resolves k) (h : p.Settled s) (hdone : Finished s) :
    Agreed k s := by
  obtain ⟨id, hunique, habout⟩ := h
  refine ⟨⟨id, fun j => ?_⟩, ?_⟩
  · obtain ⟨v, hv, _⟩ := hk j
    obtain ⟨value, named, hstage⟩ := hdone j
    have hf := (habout j).2
    rw [hstage] at hf
    rw [hstage]
    exact hf v hv
  · obtain ⟨v, hv, hkey⟩ := hk true
    have ht := (habout true).1
    rw [hv] at ht
    rw [← hkey]
    exact AccountStore.one_identity hunique ht.1

/-- Where both calls are back they agree exactly if each has looked in time. -/
theorem agreed_iff (hk : p.Resolves k) {is : List Bool}
    (hdone : Finished (Machine.run p.advance p.start is)) :
    Agreed k (Machine.run p.advance p.start is) ↔
      Machine.Guarded p.advance (LooksFirst k) p.start is := by
  have hstart : p.Agreeing k p.start := by
    by_cases h : Homeless k p.store.directory
    · exact .waiting h rfl fun _ => rfl
    · obtain ⟨id, hid⟩ := not_forall.mp h
      refine .settled ⟨id, p.unique, fun j => ?_⟩
      obtain ⟨v, hv, hkey⟩ := hk j
      rw [hv]
      refine ⟨?_, trivial⟩
      show Directory.Linked _ v.key _
      rw [hkey]
      exact not_not.mp hid
  rcases Machine.guarded_or_spoilt (fun _ => True) (p.Agreeing k) p.Apart (fun _ _ _ => trivial)
    (fun _ j _ hs => agreeing_or_apart hk hs j) (fun _ j _ hs => hs.step hk j) trivial hstart is
    with ⟨hg, hs⟩ | ⟨hg, hs⟩
  · refine iff_of_true ?_ hg
    cases hs with
    | waiting _ _ hnot =>
      obtain ⟨_, _, hback⟩ := hdone true
      cases (hnot true).symm.trans hback
    | making l _ hnot =>
      obtain ⟨_, _, hback⟩ := hdone (!l)
      cases hnot.symm.trans hback
    | settled h => exact h.agreed hk hdone
  · refine iff_of_false ?_ hg
    rintro ⟨⟨id, hvalue⟩, _⟩
    have hown : ∀ j, some (p.drawn j).newId = some id := by
      intro j
      obtain ⟨value, named, hback⟩ := hdone j
      have hj := hs j
      rw [hback] at hj
      rw [← hvalue j, hback]
      exact hj.symm
    exact p.distinct (Option.some.inj ((hown true).trans (hown false).symm))

/-! ## Changing one account twice -/

/-- What call `j` writes and the other call does not is in the account. -/
structure Has (p : TwoCalls) (s : CallsState) (j : Bool) (a : Account) : Prop where
  profile : ∀ field value, (p.call j).fields.get? field = some value →
    (p.call !j).fields.get? field = none → a.profile.get? field = some value
  displayName : ∀ name, (s.stage j).named = some name → (s.stage !j).named = none →
    a.displayName = name

/-- The account has everything that only one of the calls wrote. -/
def Kept (p : TwoCalls) (id : String) (s : CallsState) : Prop :=
  ∃ a, s.shared.findAccountById id = some a ∧ ∀ j, p.Has s j a

/-- A call that writes while the other one holds a copy writes nothing of its own that the account
does not have. -/
def Harmless (p : TwoCalls) (id : String) (s : CallsState) (j : Bool) : Prop :=
  (s.stage j).holding = true → (s.stage !j).holding = true →
    ∀ a, s.shared.findAccountById id = some a → p.Has s j a

/-- The calls are about the account when they begin. -/
def Changes (p : TwoCalls) (id : String) : Prop :=
  ∀ j, (p.call j).Targets p.store.directory id

/-- The account has all that call `j` writes. -/
structure Carries (p : TwoCalls) (j : Bool) (named : Option String) (a : Account) : Prop where
  profile : ∀ field value, (p.call j).fields.get? field = some value →
    a.profile.get? field = some value
  displayName : ∀ name, named = some name → a.displayName = name

/-- The call has not written: it holds what it makes of the account, or has nothing to write. -/
inductive Pending (p : TwoCalls) (j : Bool) (a : Account) : CallStage → Prop
  | early {stage} (h : stage.early = true) : Pending p j a stage
  | holding {value} : Pending p j a
      (.writing ((p.call j).revise (p.drawn j).now a) value ((p.call j).named a))
  | idle {value} (h : (p.call j).fields.entries = []) : Pending p j a (.done value none)

/-- One call has written, and `b` is what will be left of the account. -/
inductive Left (b : Account) : Account → CallStage → CallStage → Prop
  | writing {a value named value' named'} :
      Left b a (.done value named) (.writing b value' named')
  | done {value named value' named'} : Left b b (.done value named) (.done value' named')

variable {id : String} {a b : Account} {j : Bool}

theorem carries_revise (p : TwoCalls) (j : Bool) (a : Account) :
    p.Carries j ((p.call j).named a) ((p.call j).revise (p.drawn j).now a) := by
  constructor
  · intro field value h
    rw [Call.revise_profile, h]
    rfl
  · intro name h
    rw [Call.revise_displayName, h]
    rfl

theorem carries_idle (h : (p.call j).fields.entries = []) (a : Account) : p.Carries j none a := by
  refine ⟨fun field value hv => ?_, fun name hname => by cases hname⟩
  rw [Dict.get?, h] at hv
  cases hv

theorem Carries.has (h : p.Carries j (s.stage j).named a) : p.Has s j a :=
  ⟨fun field value hv _ => h.profile field value hv, fun name hname _ => h.displayName name hname⟩

/-- What the other call writes is not what only this one does. -/
theorem has_revise (h : (s.stage !j).named = (p.call !j).named a) (now : String) :
    p.Has s j ((p.call !j).revise now a) ↔ p.Has s j a := by
  have hprofile : ∀ field, (p.call !j).fields.get? field = none →
      ((p.call !j).revise now a).profile.get? field = a.profile.get? field := by
    intro field hnone
    rw [Call.revise_profile, hnone]
    rfl
  have hname : (s.stage !j).named = none → ((p.call !j).revise now a).displayName =
      a.displayName := by
    intro hnone
    rw [Call.revise_displayName, ← h, hnone]
    rfl
  constructor
  · intro hhas
    refine ⟨fun field value hv hnone => ?_, fun name hn hnone => ?_⟩
    · rw [← hprofile field hnone]
      exact hhas.profile field value hv hnone
    · rw [← hname hnone]
      exact hhas.displayName name hn hnone
  · intro hhas
    refine ⟨fun field value hv hnone => ?_, fun name hn hnone => ?_⟩
    · rw [hprofile field hnone]
      exact hhas.profile field value hv hnone
    · rw [hname hnone]
      exact hhas.displayName name hn hnone

theorem has_congr {t : CallsState} (h : ∀ i, (t.stage i).named = (s.stage i).named) :
    p.Has t j a ↔ p.Has s j a := by
  constructor
  · intro hhas
    refine ⟨hhas.profile, ?_⟩
    rw [← h j, ← h !j]
    exact hhas.displayName
  · intro hhas
    refine ⟨hhas.profile, ?_⟩
    rw [h j, h !j]
    exact hhas.displayName

/-- Nothing is lost yet. -/
inductive Intact (p : TwoCalls) (s : CallsState) (a : Account) : Prop
  | pending (h : ∀ j, p.Pending j a (s.stage j))
  | written (l : Bool) {value named} (h : s.stage l = .done value named)
      (hcarries : p.Carries l named a) (hother : (s.stage !l).early = true)
  | left (l : Bool) {b} (h : Left b a (s.stage l) (s.stage !l)) (hhas : ∀ j, p.Has s j b)

/-- Something is lost for good. -/
def Broken (p : TwoCalls) (s : CallsState) (a : Account) : Prop :=
  ∃ l b, Left b a (s.stage l) (s.stage !l) ∧ ¬ ∀ j, p.Has s j b

theorem holding_of_early {stage : CallStage} (h : stage.early = true) : stage.holding = false := by
  cases stage <;> first | rfl | cases h

theorem Left.of_done {mine : CallStage} {value named : Option String}
    (h : Left b a mine (.done value named)) : b = a := by
  cases h
  rfl

section Moves

variable {t : CallsState} {a' : Account} {now : String}

theorem Left.step (hleft : Left b a (s.stage l) (s.stage !l))
    (hm : (p.call j).Move now a (s.stage j) a' (t.stage j))
    (hother : t.stage (!j) = s.stage !j) :
    Left b a' (t.stage l) (t.stage !l) ∧ (∀ i, (t.stage i).named = (s.stage i).named) ∧
      ¬ ((s.stage j).holding = true ∧ (s.stage !j).holding = true) := by
  generalize hl : s.stage l = mine at hleft
  generalize hr : s.stage (!l) = other at hleft
  generalize hnext : t.stage j = next at hm
  have hnamed : next.named = (s.stage j).named → ∀ i, (t.stage i).named = (s.stage i).named := by
    intro hsame i
    rcases Bool.eq_or_eq_not i j with rfl | rfl
    · rw [hnext, hsame]
    · rw [hother]
  rcases Bool.eq_or_eq_not j l with rfl | rfl
  · have hfree : ¬ ((s.stage j).holding = true ∧ (s.stage !j).holding = true) := by
      rw [hl]
      cases hleft <;> exact fun h => absurd h.1 Bool.false_ne_true
    have hgoes : Left b a' next other ∧ next.named = mine.named := by
      rw [hl] at hm
      cases hleft with
      | writing =>
        cases hm with
        | done => exact ⟨.writing, rfl⟩
        | think h | read h => cases h
      | done =>
        cases hm with
        | done => exact ⟨.done, rfl⟩
        | think h | read h => cases h
    refine ⟨?_, hnamed (by rw [hl]; exact hgoes.2), hfree⟩
    rw [hnext, hother, hr]
    exact hgoes.1
  · have hfree : ¬ ((s.stage !l).holding = true ∧ (s.stage !!l).holding = true) := by
      rw [Bool.not_not, hl]
      cases hleft <;> exact fun h => absurd h.2 Bool.false_ne_true
    have hgoes : Left b a' mine next ∧ next.named = other.named := by
      rw [hr] at hm
      cases hleft with
      | writing =>
        cases hm with
        | write => exact ⟨.done, rfl⟩
        | think h | read h => cases h
      | done =>
        cases hm with
        | done => exact ⟨.done, rfl⟩
        | think h | read h => cases h
    refine ⟨?_, hnamed (by rw [hr]; exact hgoes.2), hfree⟩
    rw [Bool.not_not] at hother
    rw [hnext, hother, hl]
    exact hgoes.1

/-- Once one call has written, the other one reads what it wrote. -/
theorem follow_written {value named : Option String} (hl : s.stage l = .done value named)
    (hcarries : p.Carries l named a) (hearly : (s.stage !l).early = true)
    (hm : (p.call j).Move (p.drawn j).now a (s.stage j) a' (t.stage j))
    (hother : t.stage (!j) = s.stage !j) : p.Intact t a' := by
  generalize hnext : t.stage j = next at hm
  rcases Bool.eq_or_eq_not j l with rfl | rfl
  · rw [hl] at hm
    cases hm with
    | done => exact .written j hnext hcarries (by rw [hother]; exact hearly)
    | think h | read h => cases h
  · rw [Bool.not_not] at hother
    have hdone : t.stage l = _ := hother.trans hl
    have hhas : ∀ {b}, p.Carries l named b → p.Has t l b := fun h =>
      Carries.has (by rw [hdone]; exact h)
    generalize s.stage (!l) = stage at hm hearly
    cases hm with
    | think _ hstill => exact .written l hdone hcarries (by rw [hnext]; exact hstill)
    | skip hnone =>
      refine .left l (by rw [hdone, hnext]; exact .done) fun i => ?_
      rcases Bool.eq_or_eq_not i l with rfl | rfl
      · exact hhas hcarries
      · exact Carries.has (by rw [hnext]; exact carries_idle hnone _)
    | read =>
      refine .left l (by rw [hdone, hnext]; exact .writing) fun i => ?_
      rcases Bool.eq_or_eq_not i l with rfl | rfl
      · exact (has_revise (by rw [hnext]; rfl) _).mpr (hhas hcarries)
      · exact Carries.has (by rw [hnext]; exact p.carries_revise _ a)
    | write | done => cases hearly

/-- Where both calls hold a copy of the account, the one that writes last leaves its own. -/
theorem write_before {value value' : Option String}
    (hj : s.stage j = .writing ((p.call j).revise (p.drawn j).now a) value ((p.call j).named a))
    (ho : s.stage (!j) =
      .writing ((p.call !j).revise (p.drawn !j).now a) value' ((p.call !j).named a))
    (hnext : t.stage j = .done value ((p.call j).named a)) (hother : t.stage (!j) = s.stage !j) :
    p.Has s j a ∧ p.Intact t ((p.call j).revise (p.drawn j).now a) ∨
      ¬ p.Has s j a ∧ p.Broken t ((p.call j).revise (p.drawn j).now a) := by
  rw [ho] at hother
  have hleft : Left ((p.call !j).revise (p.drawn !j).now a)
      ((p.call j).revise (p.drawn j).now a) (t.stage j) (t.stage !j) := by
    rw [hnext, hother]
    exact .writing
  have htheir : p.Has t (!j) ((p.call !j).revise (p.drawn !j).now a) :=
    Carries.has (by rw [hother]; exact p.carries_revise _ a)
  have hnamed : ∀ i, (t.stage i).named = (s.stage i).named := by
    intro i
    rcases Bool.eq_or_eq_not i j with rfl | rfl
    · rw [hnext, hj]
      rfl
    · rw [hother, ho]
  have hmine : p.Has t j ((p.call !j).revise (p.drawn !j).now a) ↔ p.Has s j a :=
    (has_revise (by rw [hother]; rfl) _).trans (has_congr hnamed)
  by_cases hok : p.Has s j a
  · refine .inl ⟨hok, .left j hleft fun i => ?_⟩
    rcases Bool.eq_or_eq_not i j with rfl | rfl
    · exact hmine.mpr hok
    · exact htheir
  · exact .inr ⟨hok, j, _, hleft, fun hall => hok (hmine.mp (hall j))⟩

theorem Pending.step (h : ∀ i, p.Pending i a (s.stage i))
    (hm : (p.call j).Move (p.drawn j).now a (s.stage j) a' (t.stage j))
    (hother : t.stage (!j) = s.stage !j) :
    let ok := (s.stage j).holding = true → (s.stage !j).holding = true → p.Has s j a
    ok ∧ p.Intact t a' ∨ ¬ ok ∧ p.Broken t a' := by
  intro ok
  have hmine := h j
  have htheirs := h !j
  generalize hj : s.stage j = stage at hm hmine
  generalize hnext : t.stage j = next at hm
  -- a call that does not write stays pending
  have hstays : p.Pending j a next → stage.holding = false → a' = a → ok ∧ p.Intact t a' := by
    rintro hp hno rfl
    refine ⟨fun hyes => ?_, .pending fun i => ?_⟩
    · rw [hj, hno] at hyes
      cases hyes
    · rcases Bool.eq_or_eq_not i j with rfl | rfl
      · rw [hnext]
        exact hp
      · rw [hother]
        exact htheirs
  cases hm with
  | think h hstill => exact .inl (hstays (.early hstill) (holding_of_early h) rfl)
  | skip hnone => exact .inl (hstays (.idle hnone) rfl rfl)
  | read h => exact .inl (hstays .holding (holding_of_early h) rfl)
  | done =>
    cases hmine with
    | early h => cases h
    | idle h => exact .inl (hstays (.idle h) rfl rfl)
  | write =>
    cases hmine with
    | early h => cases h
    | holding =>
      have hcarries := p.carries_revise j a
      generalize ho : s.stage (!j) = other at htheirs hother
      cases htheirs with
      | early h =>
        refine .inl ⟨fun _ hyes => ?_, .written j hnext hcarries (by rw [hother]; exact h)⟩
        rw [ho, holding_of_early h] at hyes
        cases hyes
      | idle h =>
        refine .inl ⟨fun _ hyes => ?_, .left j (by rw [hnext, hother]; exact .done) fun i => ?_⟩
        · rw [ho] at hyes
          cases hyes
        · rcases Bool.eq_or_eq_not i j with rfl | rfl
          · exact Carries.has (by rw [hnext]; exact hcarries)
          · exact Carries.has (by rw [hother]; exact carries_idle h _)
      | holding =>
        refine (write_before hj ho hnext (hother.trans ho.symm)).imp
          (fun hok => ⟨fun _ _ => hok.1, hok.2⟩) fun hno => ⟨fun hok => hno.1 ?_, hno.2⟩
        exact hok (by rw [hj]; rfl) (by rw [ho]; rfl)

/-- A step keeps everything, or it is a write that loses something for good. -/
theorem Intact.step (h : p.Intact s a)
    (hm : (p.call j).Move (p.drawn j).now a (s.stage j) a' (t.stage j))
    (hother : t.stage (!j) = s.stage !j) :
    let ok := (s.stage j).holding = true → (s.stage !j).holding = true → p.Has s j a
    ok ∧ p.Intact t a' ∨ ¬ ok ∧ p.Broken t a' := by
  intro ok
  cases h with
  | pending hpending => exact Pending.step hpending hm hother
  | written l hl hcarries hearly =>
    refine .inl ⟨fun hj ho => ?_, follow_written hl hcarries hearly hm hother⟩
    have hnot := holding_of_early hearly
    rcases Bool.eq_or_eq_not j l with rfl | rfl
    · cases ho.symm.trans hnot
    · cases hj.symm.trans hnot
  | left l hleft hhas =>
    obtain ⟨hnext, hnamed, hfree⟩ := hleft.step hm hother
    exact .inl ⟨fun hj ho => absurd ⟨hj, ho⟩ hfree,
      .left l hnext fun i => (has_congr hnamed).mpr (hhas i)⟩

theorem Broken.step (h : p.Broken s a)
    (hm : (p.call j).Move now a (s.stage j) a' (t.stage j))
    (hother : t.stage (!j) = s.stage !j) : p.Broken t a' := by
  obtain ⟨l, b, hleft, hlost⟩ := h
  obtain ⟨hnext, hnamed, _⟩ := hleft.step hm hother
  exact ⟨l, b, hnext, fun hall => hlost fun i => (has_congr hnamed).mp (hall i)⟩

end Moves

/-- Where both calls are back the account has everything that one of them wrote exactly if each
write was harmless. -/
theorem kept_iff (hid : p.Changes id) {is : List Bool}
    (hdone : Finished (Machine.run p.advance p.start is)) :
    p.Kept id (Machine.run p.advance p.start is) ↔
      Machine.Guarded p.advance (p.Harmless id) p.start is := by
  have habout : ∀ s j, p.About id s → p.About id (p.advance s j) := by
    intro s j hs
    obtain ⟨_, _, _, _, _, _, _, hnext⟩ := hs.advance j
    exact hnext
  have hintact : ∀ s j, p.About id s →
      (∃ a, s.shared.findAccountById id = some a ∧ p.Intact s a) →
      p.Harmless id s j ∧ (∃ a, (p.advance s j).shared.findAccountById id = some a ∧
        p.Intact (p.advance s j) a) ∨
      ¬ p.Harmless id s j ∧ ∃ a, (p.advance s j).shared.findAccountById id = some a ∧
        p.Broken (p.advance s j) a := by
    rintro s j hs ⟨a, ha, h⟩
    obtain ⟨x, a', hx, _, ha', hm, hother, _⟩ := hs.advance j
    cases ha.symm.trans hx
    rcases h.step hm hother with ⟨hok, hnext⟩ | ⟨hno, hnext⟩
    · refine .inl ⟨fun hj ho b hb => ?_, a', ha', hnext⟩
      cases ha.symm.trans hb
      exact hok hj ho
    · exact .inr ⟨fun hok => hno fun hj ho => hok hj ho a ha, a', ha', hnext⟩
  have hbroken : ∀ s j, p.About id s →
      (∃ a, s.shared.findAccountById id = some a ∧ p.Broken s a) →
      ∃ a, (p.advance s j).shared.findAccountById id = some a ∧ p.Broken (p.advance s j) a := by
    rintro s j hs ⟨a, ha, h⟩
    obtain ⟨x, a', hx, _, ha', hm, hother, _⟩ := hs.advance j
    cases ha.symm.trans hx
    exact ⟨a', ha', h.step hm hother⟩
  have hbegin : p.About id p.start := fun j => ⟨hid j, trivial⟩
  obtain ⟨a, _, ha, _⟩ := hbegin.advance true
  rcases Machine.guarded_or_spoilt (p.About id) _ _ habout hintact hbroken hbegin
    ⟨a, ha, .pending fun _ => .early rfl⟩ is with ⟨hg, x, hx, hs⟩ | ⟨hg, x, hx, l, b, hleft, hlost⟩
  · refine iff_of_true ⟨x, hx, ?_⟩ hg
    cases hs with
    | pending h =>
      intro j
      obtain ⟨value, named, hback⟩ := hdone j
      have hj := h j
      rw [hback] at hj
      cases hj with
      | early h => cases h
      | idle h => exact Carries.has (by rw [hback]; exact carries_idle h x)
    | written l _ _ hearly =>
      obtain ⟨value, named, hback⟩ := hdone !l
      rw [hback] at hearly
      cases hearly
    | left l hleft hhas =>
      obtain ⟨value, named, hback⟩ := hdone !l
      rw [hback] at hleft
      rw [← hleft.of_done]
      exact hhas
  · refine iff_of_false ?_ hg
    rintro ⟨y, hy, hhas⟩
    cases hx.symm.trans hy
    obtain ⟨value, named, hback⟩ := hdone !l
    rw [hback] at hleft
    rw [← hleft.of_done] at hhas
    exact hlost hhas

/-- Two calls at once: where they resolve one identity they agree exactly when no call looks it up
while the other one makes its account, and where they are about one account it keeps what each of
them wrote exactly when neither writes over what the other one has not seen. -/
theorem agreed_and_kept_iff (p : TwoCalls) (order : List Bool)
    (hdone : Finished (Machine.run p.advance p.start order)) :
    (∀ k, p.Resolves k →
      (Agreed k (Machine.run p.advance p.start order) ↔
        Machine.Guarded p.advance (LooksFirst k) p.start order)) ∧
    ∀ id, p.Changes id →
      (p.Kept id (Machine.run p.advance p.start order) ↔
        Machine.Guarded p.advance (p.Harmless id) p.start order) :=
  ⟨fun _ hk => agreed_iff hk hdone, fun _ hid => kept_iff hid hdone⟩

/-- Two frames of a visitor nobody knows. -/
def newcomers : TwoCalls where
  store := {}
  call _ := .resolve { provider := .discord, subject := "42", providerName := "ann" }
  drawn j := { newId := if j then "a" else "b", now := "now" }
  unique := ⟨List.nodup_nil, List.nodup_nil⟩
  fresh _ h := by cases h
  unlinked _ _ h := by cases h
  distinct := by decide

/-- A frame that sets a field of a profile, and one that changes the name. -/
def editors : TwoCalls where
  store := { accounts := [{ accountId := "a", displayName := "ann" }] }
  call j := if j then .updateProfile "a" (.ofList [("mood", .str "good")])
    else .updateDisplayName "a" "bob"
  drawn j := { newId := if j then "b" else "c", now := "now" }
  unique := ⟨List.nodup_singleton _, List.nodup_nil⟩
  fresh j := by cases j <;> decide
  unlinked _ _ h := by cases h
  distinct := by decide

theorem newcomers_resolve : newcomers.Resolves (.discord, "42") := fun _ => ⟨_, rfl, rfl⟩

theorem editors_change : editors.Changes "a" := by
  intro j
  cases j with
  | true => exact ⟨rfl, List.mem_singleton.mpr rfl⟩
  | false => exact ⟨rfl, List.mem_singleton.mpr rfl⟩

/-- One frame makes the account, and the other one finds it. -/
theorem agreed_one_after_the_other :
    Agreed (.discord, "42") (Machine.run newcomers.advance newcomers.start
      (List.replicate 5 true ++ List.replicate 4 false)) := by
  refine ((agreed_and_kept_iff newcomers _ fun j => ?_).1 _ newcomers_resolve).mpr ?_
  · cases j with
    | true => exact ⟨_, _, rfl⟩
    | false => exact ⟨_, _, rfl⟩
  · exact ⟨fun _ _ => rfl, (fun h => by cases h), (fun h => by cases h), (fun h => by cases h),
      (fun h => by cases h), fun _ h => absurd ⟨rfl, by decide⟩ (h "a"), (fun h => by cases h),
      (fun h => by cases h), (fun h => by cases h), trivial⟩

/-- Both frames look the identity up before either links it; and the new name is written over the
new profile. -/
theorem account_made_twice_and_update_lost :
    (¬ ∀ (p : TwoCalls) (order : List Bool) (k : IdentityKey), p.Resolves k →
      Finished (Machine.run p.advance p.start order) →
        Agreed k (Machine.run p.advance p.start order)) ∧
    ¬ ∀ (p : TwoCalls) (order : List Bool) (id : String), p.Changes id →
      Finished (Machine.run p.advance p.start order) →
        p.Kept id (Machine.run p.advance p.start order) := by
  constructor
  · intro h
    have hagreed := h newcomers ([true, false] ++ List.replicate 4 true ++ List.replicate 4 false)
      _ newcomers_resolve fun j => by
        cases j with
        | true => exact ⟨_, _, rfl⟩
        | false => exact ⟨_, _, rfl⟩
    obtain ⟨id, hid⟩ := hagreed.1
    have hsame := (hid true).trans (hid false).symm
    revert hsame
    decide
  · intro h
    obtain ⟨a, ha, hhas⟩ := h editors [true, false, true, false] "a" editors_change fun j => by
        cases j with
        | true => exact ⟨_, _, rfl⟩
        | false => exact ⟨_, _, rfl⟩
    have hmood := (hhas true).profile "mood" (.str "good") rfl rfl
    cases ha
    cases hmood

end TwoCalls

end IrisMind.Accounts
