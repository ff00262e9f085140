import IrisMind.Memory.PersonaPatch

/-! # Where a patch may be written

A target file has to name a Markdown file below the configuration directory, before and after links
are followed. The pattern also fits a name that ends in a newline, and the check of what is resolved
lets the directory itself pass. -/
namespace IrisMind.Memory
open IrisMind.Lib

/-- `.iris/config/` with characters of the pattern and `.md` behind it. -/
def ProfileForm (s : List Char) : Prop :=
  ∃ x, s = ".iris/config/".toList ++ x ++ ".md".toList ∧ x ≠ [] ∧ ∀ c ∈ x, isProfileChar c = true

/-! ## The pattern -/

theorem fitsProfileName_iff {s : List Char} : fitsProfileName s = true ↔
    ∃ x rest, s = x ++ rest ∧ x ≠ [] ∧ (∀ c ∈ x, isProfileChar c = true) ∧
      (rest = ".md".toList ∨ rest = ".md\n".toList) := by
  induction s with
  | nil =>
    refine iff_of_false Bool.false_ne_true ?_
    rintro ⟨x, rest, hs, hx, _⟩
    exact hx (List.append_eq_nil_iff.mp hs.symm).1
  | cons c s ih =>
    rw [fitsProfileName, Bool.and_eq_true, Bool.or_eq_true, ih]
    constructor
    · rintro ⟨hc, hend | ⟨x, rest, rfl, _, hchars, hrest⟩⟩
      · refine ⟨[c], s, rfl, List.cons_ne_nil _ _, ?_, ?_⟩
        · exact fun d hd => List.mem_singleton.mp hd ▸ hc
        · simpa [endsProfile] using hend
      · refine ⟨c :: x, rest, rfl, List.cons_ne_nil _ _, ?_, hrest⟩
        exact List.forall_mem_cons.mpr ⟨hc, hchars⟩
    · rintro ⟨x, rest, hs, hx, hchars, hrest⟩
      obtain ⟨d, x, rfl⟩ := List.exists_cons_of_ne_nil hx
      obtain ⟨rfl, rfl⟩ := List.cons.inj hs
      obtain ⟨hc, hchars⟩ := List.forall_mem_cons.mp hchars
      refine ⟨hc, ?_⟩
      by_cases hempty : x = []
      · subst hempty
        exact .inl (by simpa [endsProfile] using hrest)
      · exact .inr ⟨x, rest, rfl, hempty, hchars, hrest⟩

/-- The pattern fits the form, and the form with a newline behind it. -/
theorem profileGlob_iff {s : List Char} : profileGlob s = true ↔
    ProfileForm s ∨ ∃ form, s = form ++ ['\n'] ∧ ProfileForm form := by
  rw [profileGlob, Bool.and_eq_true, List.isPrefixOf_iff_prefix, fitsProfileName_iff]
  constructor
  · rintro ⟨⟨rest, rfl⟩, x, tail, hx, hne, hchars, hend⟩
    have hdrop : (".iris/config/".toList ++ rest).drop ".iris/config/".length = rest :=
      List.drop_left' rfl
    rw [hdrop] at hx
    subst hx
    rcases hend with rfl | rfl
    · exact .inl ⟨x, by rw [List.append_assoc], hne, hchars⟩
    · refine .inr ⟨".iris/config/".toList ++ x ++ ".md".toList, ?_, x, rfl, hne, hchars⟩
      simp
  · have hfits {x rest : List Char} :
        (".iris/config/".toList ++ x ++ rest).drop ".iris/config/".length = x ++ rest := by
      rw [List.append_assoc]
      exact List.drop_left' rfl
    rintro (⟨x, rfl, hne, hchars⟩ | ⟨_, rfl, x, rfl, hne, hchars⟩)
    · exact ⟨⟨x ++ ".md".toList, by simp⟩, x, _, hfits, hne, hchars, .inl rfl⟩
    · have hend : ".md".toList ++ ['\n'] = ".md\n".toList := by decide
      rw [List.append_assoc _ ".md".toList, hend]
      exact ⟨⟨x ++ ".md\n".toList, by simp⟩, x, _, hfits, hne, hchars, .inr rfl⟩

theorem ProfileForm.ne_newline {s form : List Char} (h : ProfileForm s) : s ≠ form ++ ['\n'] := by
  obtain ⟨x, rfl, _⟩ := h
  intro heq
  have hend : ".md".toList = ['.', 'm'] ++ ['d'] := by decide
  rw [hend, ← List.append_assoc] at heq
  have hlast : ['d'] = ['\n'] := List.append_inj_right' heq rfl
  exact absurd hlast (by decide)

/-- What the pattern fits lies in `.iris`. -/
theorem head?_of_profileGlob {p : PosixPath} (habs : p.isAbsolute = false)
    (h : profileGlob p.str = true) : p.parts.head? = some ".iris".toList := by
  have hroot : p.root = [] := by simpa [PosixPath.isAbsolute] using habs
  obtain ⟨rest, hstr⟩ : ∃ rest, p.str = ".iris".toList ++ '/' :: rest := by
    rw [profileGlob, Bool.and_eq_true, List.isPrefixOf_iff_prefix] at h
    obtain ⟨⟨rest, hrest⟩, _⟩ := h
    exact ⟨"config/".toList ++ rest, hrest.symm⟩
  have htail : p.tail ≠ [] := by
    intro hnil
    rw [PosixPath.str, if_pos ⟨hroot, hnil⟩] at hstr
    cases hstr
  have hsplit := PosixPath.splitOn_str hroot htail
  rw [hstr, List.splitOn_append_cons_self_of_not_mem (by decide)] at hsplit
  rw [PosixPath.parts, if_pos hroot, ← hsplit]
  rfl

/-! ## What is promised -/

section Confined

variable (resolve : PosixPath → PosixPath) (base : PosixPath)

def defaultTarget : PosixPath := (base.join profileDir).join (.parse "iris_profile.md".toList)

/-- A path that the patch may be written to. -/
def Allowed (targetFile : String) (target : PosixPath) : Prop :=
  Text.trim targetFile.toList = [] ∧ target = defaultTarget base ∨
  Text.trim targetFile.toList ≠ [] ∧
    target = resolve (base.join (.parse (Text.trim targetFile.toList))) ∧
    target.Below (resolve (base.join profileDir))

/-- A path that is to be accepted. -/
structure Accepted (p : PosixPath) : Prop where
  relative : p.isAbsolute = false
  plain : "..".toList ∉ p.parts
  form : ProfileForm p.str
  below : (resolve (base.join p)).Below (resolve (base.join profileDir))

def IsBackup (target copy : PosixPath) : Prop :=
  copy.parent = target.parent ∧ copy.name = target.name ++ ".bak".toList

/-- What is promised of a target file. -/
structure Confined (targetFile : String) : Prop where
  returns : ∀ target, resolveTargetPath resolve targetFile base = .ok target →
    Allowed resolve base targetFile target
  accepts : Text.trim targetFile.toList ≠ [] →
    ((∃ target, resolveTargetPath resolve targetFile base = .ok target) ↔
      Accepted resolve base (.parse (Text.trim targetFile.toList)))
  /-- Apart from directories above the target, nothing but the target and its copy changes. -/
  writes : ∀ (u : PatchSetup) (w : PatchWorld) (c : ApplyCall) (item : StoredPatch),
    c.resolve = resolve → (u.store.call w.store (.find c.itemId)).1 = .item item →
    item.targetFile = targetFile → ∀ path, (u.applyApproved base w c).2.files path ≠ w.files path →
      ∃ target, Allowed resolve base targetFile target ∧
        (path = target ∨ IsBackup target path ∨ target.parent.isRelativeTo path = true ∧
          w.files path = none ∧ (u.applyApproved base w c).2.files path = some .other)

/-- The name ends in a newline, or the path is resolved to the directory itself. -/
structure Slips (p : PosixPath) : Prop where
  relative : p.isAbsolute = false
  plain : "..".toList ∉ p.parts
  slip : ProfileForm p.str ∧ resolve (base.join p) = resolve (base.join profileDir) ∨
    (∃ form, p.str = form ++ ['\n'] ∧ ProfileForm form) ∧
      (resolve (base.join p)).isRelativeTo (resolve (base.join profileDir)) = true

variable {resolve base} {targetFile : String}

/-- When a target file that is not blank is accepted. -/
theorem resolveTargetPath_ok (hraw : Text.trim targetFile.toList ≠ []) {target : PosixPath} :
    resolveTargetPath resolve targetFile base = .ok target ↔
      let p := PosixPath.parse (Text.trim targetFile.toList)
      p.isAbsolute = false ∧ "..".toList ∉ p.parts ∧ profileGlob p.str = true ∧
        (resolve (base.join p)).isRelativeTo (resolve (base.join profileDir)) = true ∧
        target = resolve (base.join p) := by
  unfold resolveTargetPath
  rw [if_neg hraw]
  simp only [List.contains_iff_mem]
  generalize PosixPath.parse (Text.trim targetFile.toList) = p
  constructor
  · intro h
    split at h
    · cases h
    · next habs =>
      split at h
      · cases h
      · split at h
        · cases h
        · next hplain =>
          split at h
          · cases h
          · next hglob =>
            split at h
            · next hrel =>
              have htarget := (Except.ok.inj h).symm
              exact ⟨by simpa using habs, hplain, by simpa using hglob, hrel, htarget⟩
            · cases h
  · rintro ⟨habs, hplain, hglob, hrel, rfl⟩
    have hhead : ¬ p.parts.head? ≠ some ".iris".toList :=
      not_not_intro (head?_of_profileGlob habs hglob)
    rw [if_neg (by simp [habs]), if_neg hhead, if_neg hplain, if_neg (by simp [hglob]), if_pos hrel]

/-! ## What a call writes -/

theorem put_ne {files : Files} {q path : PosixPath} {node : Option FileNode} (h : q ≠ path) :
    files.put path node q = files q := if_neg h

/-- Making directories changes what is above the target only. -/
theorem makeParents_ne {files : Files} {target q : PosixPath}
    (h : makeParents files target q ≠ files q) : target.parent.isRelativeTo q = true ∧
      files q = none ∧ makeParents files target q = some .other := by
  unfold makeParents at h ⊢
  split at h
  · next hnew =>
    obtain ⟨habove, hnone⟩ := Bool.and_eq_true_iff.mp hnew
    rw [if_pos hnew]
    exact ⟨(Bool.and_eq_true_iff.mp habove).1, Option.isNone_iff_eq_none.mp hnone, rfl⟩
  · exact absurd rfl h

theorem backUp_other {files : Files} {c : ApplyCall} {target q : PosixPath}
    (h : ¬ IsBackup target q) : (backUp files c target).2 q = files q := by
  unfold backUp
  split
  · cases hcopy : backupPath target with
    | none => rfl
    | some copy =>
      have hne : q ≠ copy := by
        rintro rfl
        exact h (PosixPath.withSuffix_suffix hcopy)
      dsimp only
      split
      · rfl
      · split <;> exact put_ne hne
  · rfl

theorem writeFile_other {files : Files} {c : ApplyCall} {target q : PosixPath}
    {content : List Char} (h : q ≠ target) : (writeFile files c target content).2 q = files q := by
  unfold writeFile
  split
  · exact put_ne h
  · exact put_ne h

/-- What is neither the target nor a copy of it stays, but for the directories that are made. -/
theorem writePatch_other {files : Files} {c : ApplyCall} {item : StoredPatch}
    {target q : PosixPath} (h : resolveTargetPath c.resolve item.targetFile base = .ok target)
    (htarget : q ≠ target) (hcopy : ¬ IsBackup target q) :
    (writePatch base files c item).2 q = files q ∨
      (writePatch base files c item).2 q = makeParents files target q := by
  have hback : (backUp (makeParents files target) c target).2 q = makeParents files target q :=
    backUp_other hcopy
  unfold writePatch
  simp only [h]
  split
  · exact .inl rfl
  · split
    · exact .inl rfl
    · refine .inr ?_
      split
      · next hfiles => rwa [hfiles] at hback
      · next hfiles =>
        rw [hfiles] at hback
        split
        · exact (writeFile_other htarget).trans hback
        · split
          · exact hback
          · exact (writeFile_other htarget).trans hback

/-- A call changes its target, the copy of it, and makes directories above it. -/
theorem writePatch_ne {files : Files} {c : ApplyCall} {item : StoredPatch} {q : PosixPath}
    (h : (writePatch base files c item).2 q ≠ files q) :
    ∃ target, resolveTargetPath c.resolve item.targetFile base = .ok target ∧
      (q = target ∨ IsBackup target q ∨ target.parent.isRelativeTo q = true ∧
        files q = none ∧ (writePatch base files c item).2 q = some .other) := by
  cases hok : resolveTargetPath c.resolve item.targetFile base with
  | error e =>
    refine absurd ?_ h
    simp only [writePatch, hok]
  | ok target =>
    refine ⟨target, rfl, ?_⟩
    by_cases htarget : q = target
    · exact .inl htarget
    by_cases hcopy : IsBackup target q
    · exact .inr (.inl hcopy)
    refine .inr (.inr ?_)
    have hmade := (writePatch_other hok htarget hcopy).resolve_left h
    rw [hmade] at h ⊢
    exact makeParents_ne h

variable (base) in
theorem applyApproved_files (u : PatchSetup) {w : PatchWorld} {c : ApplyCall} {item : StoredPatch}
    (h : (u.store.call w.store (.find c.itemId)).1 = .item item) :
    (u.applyApproved base w c).2.files = w.files ∨
      (u.applyApproved base w c).2.files = (writePatch base w.files c item).2 := by
  unfold PatchSetup.applyApproved
  simp only [h]
  split
  · exact .inl rfl
  · split
    · next hfiles => exact .inr (by rw [hfiles])
    · next hfiles => exact .inr (by rw [hfiles])
    · next hfiles => exact .inr (by rw [hfiles])
    · next hfiles =>
      refine .inr ?_
      rw [hfiles]
      split <;> rfl

theorem Slips.glob {p : PosixPath} (h : Slips resolve base p) : profileGlob p.str = true :=
  profileGlob_iff.mpr (h.slip.imp And.left And.left)

/-- A blank target file makes no path that fits the pattern. -/
theorem not_slips_blank : ¬ Slips resolve base (.parse []) :=
  fun h => absurd h.glob (by decide)

theorem Slips.not_confined (h : Slips resolve base (.parse (Text.trim targetFile.toList))) :
    ¬ Confined resolve base targetFile := by
  intro hconfined
  have hraw : Text.trim targetFile.toList ≠ [] := by
    intro hempty
    rw [hempty] at h
    exact not_slips_blank h
  have hrel : (resolve (base.join (.parse (Text.trim targetFile.toList)))).isRelativeTo
      (resolve (base.join profileDir)) = true := by
    rcases h.slip with ⟨_, hsame⟩ | ⟨_, hrel⟩
    · rw [hsame]
      exact PosixPath.isRelativeTo_self _
    · exact hrel
  have haccepted := (hconfined.accepts hraw).mp
    ⟨_, (resolveTargetPath_ok hraw).mpr ⟨h.relative, h.plain, h.glob, hrel, rfl⟩⟩
  rcases h.slip with ⟨_, hsame⟩ | ⟨⟨form, hnewline, _⟩, _⟩
  · exact haccepted.below.2 hsame
  · exact haccepted.form.ne_newline hnewline

/-- Where nothing slips, a target file that is not blank is accepted as it should be. -/
theorem resolveTargetPath_accepted
    (h : ¬ Slips resolve base (.parse (Text.trim targetFile.toList)))
    (hraw : Text.trim targetFile.toList ≠ []) {target : PosixPath} :
    resolveTargetPath resolve targetFile base = .ok target ↔
      Accepted resolve base (.parse (Text.trim targetFile.toList)) ∧
        target = resolve (base.join (.parse (Text.trim targetFile.toList))) := by
  rw [resolveTargetPath_ok hraw]
  constructor
  · rintro ⟨habs, hplain, hglob, hrel, htarget⟩
    have hform := (profileGlob_iff.mp hglob).resolve_right fun hnewline =>
      h ⟨habs, hplain, .inr ⟨hnewline, hrel⟩⟩
    exact ⟨⟨habs, hplain, hform, hrel, fun hsame =>
      h ⟨habs, hplain, .inl ⟨hform, hsame⟩⟩⟩, htarget⟩
  · rintro ⟨⟨habs, hplain, hform, hbelow⟩, htarget⟩
    exact ⟨habs, hplain, profileGlob_iff.mpr (.inl hform), hbelow.1, htarget⟩

theorem allowed_of_ok (h : ¬ Slips resolve base (.parse (Text.trim targetFile.toList)))
    {target : PosixPath} (hok : resolveTargetPath resolve targetFile base = .ok target) :
    Allowed resolve base targetFile target := by
  by_cases hraw : Text.trim targetFile.toList = []
  · rw [resolveTargetPath, if_pos hraw] at hok
    exact .inl ⟨hraw, (Except.ok.inj hok).symm⟩
  · obtain ⟨haccepted, rfl⟩ := (resolveTargetPath_accepted h hraw).mp hok
    exact .inr ⟨hraw, rfl, haccepted.below⟩

/-- A target file is confined unless its name ends in a newline or it is resolved to the
configuration directory itself. -/
theorem confined_iff (targetFile : String) : Confined resolve base targetFile ↔
    ¬ Slips resolve base (.parse (Text.trim targetFile.toList)) := by
  refine ⟨fun hconfined hslips => hslips.not_confined hconfined, fun h => ⟨?_, ?_, ?_⟩⟩
  · exact fun target hok => allowed_of_ok h hok
  · intro hraw
    constructor
    · rintro ⟨target, hok⟩
      exact ((resolveTargetPath_accepted h hraw).mp hok).1
    · intro haccepted
      exact ⟨_, (resolveTargetPath_accepted h hraw).mpr ⟨haccepted, rfl⟩⟩
  · rintro u w c item rfl hfound rfl q hq
    rcases applyApproved_files base u hfound with hfiles | hfiles
    · exact absurd (congrFun hfiles q) hq
    · rw [hfiles] at hq ⊢
      obtain ⟨target, hok, hchanged⟩ := writePatch_ne hq
      exact ⟨target, allowed_of_ok h hok, hchanged⟩

end Confined

/-- A newline before a last slash is not trimmed. -/
theorem newline_accepted :
    ¬ ∀ (resolve : PosixPath → PosixPath) (base : PosixPath) (targetFile : String),
      Confined resolve base targetFile := by
  intro h
  have hslips : Slips id (.parse "/srv".toList)
      (.parse (Text.trim ".iris/config/a.md\n/".toList)) := by
    refine ⟨by decide, by decide, .inr ⟨⟨".iris/config/a.md".toList, by decide, ?_⟩, by decide⟩⟩
    refine ⟨"a".toList, by decide, by decide, fun c hc => ?_⟩
    rw [List.mem_singleton.mp hc]
    rfl
  exact hslips.not_confined (h id (.parse "/srv".toList) ".iris/config/a.md\n/")

end IrisMind.Memory
