import WireModel.Proofs.Storage.Leaves
import WireModel.Storage.Staging

/-!
# Staging — nothing is replaced before everything is staged

Whatever befalls the operations of a run, a file that is staged has all its
content in a temporary file, and a file that is not has none (`stage_progress`).
So a run stays in progress through staging (`stageAll_progress`) and renaming
(`replaceAll_leaves`), and ends as `Ends` says (`writeFiles_ends`).
Seen from the regular files: a run that fails while it stages has changed none,
and one that succeeds has changed those it was to write
(`writeFiles_stages_first`).
-/

namespace WireModel

/-- **A fault of staging** one of some files. -/
def StagingFault (files : List OutputFile) (e : Fault) : Prop :=
  ∃ f ∈ files, ∃ detail ∈ stagingDetails, e = writeFault f detail

/-- Circumstances in which some operations fail, a write that fails
has written nothing, and fresh names are drawn in their order. -/
def Circumstances.failing (avoid : List Place) (fails : Nat → FileOp → Place → Bool) :
    Circumstances avoid where
  fails
  written _ := 0
  number _ t dir name := t.freshNumber avoid dir name
  fresh _ _ _ _ := FileTree.freshName_not_mem

/-- The content of the regular file at a place. -/
def FileTree.content? (t : FileTree) (p : Place) : Option Text :=
  match t.entry? p with
  | some (.file text) => some text
  | _ => none

namespace Writing

variable {dir p : Place} {files placed : List OutputFile} {before : FileTree} {f : OutputFile}
  {staged : List Staged} {c : Circumstances (dir.onTheWay files)} {w w' : Writing} {ok : Bool}

/-! ## Operations -/

/-- **An operation is carried out or fails.** -/
theorem of_attempt {op : FileOp} {done failed : FileTree → FileTree}
    (h : w.attempt c op p done failed = (w', ok)) :
    ok = true ∧ w'.tree = done w.tree ∨ ok = false ∧ w'.tree = failed w.tree := by
  unfold attempt at h
  split at h
  · obtain ⟨rfl, rfl⟩ := Prod.mk.inj h
    exact .inr ⟨rfl, rfl⟩
  · obtain ⟨rfl, rfl⟩ := Prod.mk.inj h
    exact .inl ⟨rfl, rfl⟩

/-- **Making directories** changes nothing else, also where it fails. -/
theorem grows_makeDirs {ps : List Place} (h : w.makeDirs c ps = (w', ok)) :
    w.tree.Grows w'.tree ps := by
  induction ps generalizing w with
  | nil =>
    obtain ⟨rfl, -⟩ := Prod.mk.inj h
    exact .refl
  | cons p ps ih =>
    unfold makeDirs at h
    split at h
    next => exact (ih h).mono (List.subset_cons_self p ps)
    next =>
      obtain ⟨rfl, -⟩ := Prod.mk.inj h
      exact .refl
    next hnone =>
      cases hmake : w.attempt c .makeDir p (·.put p .dir) id with
      | mk w₁ made =>
        rw [hmake] at h
        obtain ⟨rfl, htree⟩ | ⟨rfl, htree⟩ := of_attempt hmake
        · have hput : w.tree.Grows w₁.tree (p :: ps) := by
            rw [htree]
            exact FileTree.grows_put hnone List.mem_cons_self
          exact hput.trans ((ih h).mono (List.subset_cons_self p ps))
        · obtain ⟨rfl, -⟩ := Prod.mk.inj h
          rw [htree]
          exact .refl

/-- **Filling a temporary file** leaves some text there, and all of it if nothing
fails. -/
theorem of_fill {target temp : Place} {text : Text} (h : w.fill c target temp text = (w', ok)) :
    ∃ left, w'.tree = w.tree.put temp (.file left) ∧ (ok = true → left = text) := by
  unfold fill at h
  dsimp only at h
  generalize hwrite : w.attempt c .write target _ _ = r₁ at h
  obtain ⟨w₁, wrote⟩ := r₁
  dsimp only at h
  generalize hclose : w₁.attempt c .close target _ _ = r₂ at h
  obtain ⟨w₂, closed⟩ := r₂
  -- closing changes nothing, and neither does setting the mode
  have hkept : w₂.tree = w₁.tree := by
    obtain ⟨-, htree⟩ | ⟨-, htree⟩ := of_attempt hclose <;> exact htree
  have hlast : w'.tree = w₂.tree ∧ (ok = true → wrote = true) := by
    dsimp only at h
    split at h
    next hboth =>
      rw [Bool.and_eq_true] at hboth
      obtain ⟨-, htree⟩ | ⟨-, htree⟩ := of_attempt h <;> exact ⟨htree, fun _ => hboth.1⟩
    next =>
      obtain ⟨rfl, rfl⟩ := Prod.mk.inj h
      exact ⟨rfl, nofun⟩
  rw [hlast.1, hkept]
  obtain ⟨-, htree⟩ | ⟨rfl, htree⟩ := of_attempt hwrite
  · exact ⟨text, htree, fun _ => rfl⟩
  · exact ⟨_, htree, fun hok => absurd (hlast.2 hok) (by decide)⟩

/-! ## Steps -/

/-- **Staging one file** keeps a run in progress, whether or not it succeeds. -/
theorem stage_progress {r : Except Fault Staged}
    (h : Progress dir files placed before w.tree staged) (hf : f ∈ files)
    (hrun : w.stage c dir f = (w', r)) :
    match r with
    | .ok s => s.file = f ∧ Progress dir files placed before w'.tree (staged ++ [s])
    | .error e => StagingFault files e ∧ Progress dir files placed before w'.tree staged := by
  have hfault : ∀ detail ∈ stagingDetails, StagingFault files (writeFault f detail) :=
    fun detail hdetail => ⟨f, hf, detail, hdetail, rfl⟩
  unfold stage at hrun
  dsimp only at hrun
  split at hrun
  next w₁ hmake =>
    obtain ⟨rfl, rfl⟩ := Prod.mk.inj hrun
    exact ⟨hfault _ (by simp [stagingDetails]), h.grow hf (grows_makeDirs hmake)⟩
  next w₁ hmake =>
  have hgrown := h.grow hf (grows_makeDirs hmake)
  -- nothing stands at the name that is drawn, so what is put there can be taken back
  generalize htemp : FileTree.tempName _ _ _ = temp at hrun
  have hfresh : temp ∉ w₁.tree.entries.map (·.1) ++ dir.onTheWay files := htemp ▸ c.fresh _ _ _ _
  have hne : temp ≠ [] := htemp ▸ FileTree.tempName_ne_nil
  rw [List.mem_append, not_or] at hfresh
  split at hrun
  next w₂ hcreate =>
    obtain ⟨rfl, rfl⟩ := Prod.mk.inj hrun
    obtain ⟨hok, -⟩ | ⟨-, htree⟩ := of_attempt hcreate
    · cases hok
    · rw [htree]
      exact ⟨hfault _ (by simp [stagingDetails]), hgrown⟩
  next w₂ hcreate =>
  have hempty : w₂.tree = w₁.tree.put temp (.file []) := by
    obtain ⟨-, htree⟩ | ⟨hok, -⟩ := of_attempt hcreate
    · exact htree
    · cases hok
  -- only the last text that is put there counts
  have hfilled : ∀ {w₃ ok}, w₂.fill c (dir.follow f.path) temp f.content = (w₃, ok) →
      ∃ left, w₃.tree = w₁.tree.put temp (.file left) ∧ (ok = true → left = f.content) := by
    intro w₃ ok hfill
    obtain ⟨left, htree, hall⟩ := of_fill hfill
    rw [hempty, FileTree.put_put_of_not_mem hfresh.1 hne] at htree
    exact ⟨left, htree, hall⟩
  split at hrun
  next w₃ hfill =>
    obtain ⟨rfl, rfl⟩ := Prod.mk.inj hrun
    obtain ⟨left, htree, -⟩ := hfilled hfill
    have hback : w₃.tree.erase temp = w₁.tree := by
      rw [htree, FileTree.erase_put_of_not_mem hfresh.1 hne]
    refine ⟨hfault _ (by simp [stagingDetails]), ?_⟩
    rw [hback]
    exact hgrown
  next w₃ hfill =>
    obtain ⟨rfl, rfl⟩ := Prod.mk.inj hrun
    obtain ⟨left, htree, hall⟩ := hfilled hfill
    rw [htree, hall rfl]
    exact ⟨rfl, hgrown.stage hf hne hfresh.2 (FileTree.entry?_eq_none_iff.mpr ⟨hne, hfresh.1⟩)⟩

/-! ## Runs -/

/-- **Staging files** puts none in place, up to where it stops. -/
theorem stageAll_progress {fs : List OutputFile} {before' : List Staged} {e : Option Fault}
    (h : Progress dir files placed before w.tree before') (hfs : fs ⊆ files)
    (hrun : w.stageAll c dir fs = (w', staged, e)) :
    Progress dir files placed before w'.tree (before' ++ staged) ∧
      (e = none → staged.map (·.file) = fs) ∧ ∀ e', e = some e' → StagingFault files e' := by
  induction fs generalizing w before' staged with
  | nil =>
    obtain ⟨rfl, hrest⟩ := Prod.mk.inj hrun
    obtain ⟨rfl, rfl⟩ := Prod.mk.inj hrest
    rw [List.append_nil]
    exact ⟨h, fun _ => rfl, nofun⟩
  | cons f fs ih =>
    obtain ⟨hf, hfs⟩ := List.cons_subset.mp hfs
    unfold stageAll at hrun
    split at hrun
    next w₁ e' hstage =>
      obtain ⟨hfault, hone⟩ := stage_progress h hf hstage
      obtain ⟨rfl, hrest⟩ := Prod.mk.inj hrun
      obtain ⟨rfl, rfl⟩ := Prod.mk.inj hrest
      rw [List.append_nil]
      refine ⟨hone, nofun, fun e'' he => ?_⟩
      rw [← Option.some.inj he]
      exact hfault
    next w₁ s hstage =>
      obtain ⟨hfile, hone⟩ := stage_progress h hf hstage
      split at hrun
      next w₂ later e' hall =>
      obtain ⟨rfl, hrest⟩ := Prod.mk.inj hrun
      obtain ⟨rfl, rfl⟩ := Prod.mk.inj hrest
      obtain ⟨hprogress, hfiles, hfault⟩ := ih hone hfs hall
      rw [List.append_assoc] at hprogress
      exact ⟨hprogress, fun he => congrArg₂ List.cons hfile (hfiles he), hfault⟩

/-- **Renaming staged files** puts them in place one after the other, up to
where it stops. -/
theorem replaceAll_leaves {e : Option Fault} (h : Progress dir files placed before w.tree staged)
    (hrun : w.replaceAll c staged = (w', e)) :
    (e = none → Leaves dir files (placed ++ staged.map (·.file)) before w'.tree) ∧
    ∀ e', e = some e' → ∃ moved s rest, staged = moved ++ s :: rest ∧
      e' = writeFault s.file "replace file" ∧
      Leaves dir files (placed ++ moved.map (·.file)) before w'.tree := by
  induction staged generalizing w placed with
  | nil =>
    obtain ⟨rfl, rfl⟩ := Prod.mk.inj hrun
    rw [List.map_nil, List.append_nil]
    exact ⟨fun _ => h.leaves, nofun⟩
  | cons s staged ih =>
    -- where a file cannot be renamed, its temporary file and the later ones are removed
    have hstop : ∀ {w₁ : Writing}, w₁.tree = w.tree →
        (w₁.cleanUp (s :: staged), some (writeFault s.file "replace file")) = (w', e) →
        (e = none → Leaves dir files (placed ++ (s :: staged).map (·.file)) before w'.tree) ∧
        ∀ e', e = some e' → ∃ moved s' rest, s :: staged = moved ++ s' :: rest ∧
          e' = writeFault s'.file "replace file" ∧
          Leaves dir files (placed ++ moved.map (·.file)) before w'.tree := by
      intro w₁ htree heq
      obtain ⟨rfl, rfl⟩ := Prod.mk.inj heq
      have hclean : (w₁.cleanUp (s :: staged)).tree = w.tree.discard (s :: staged) :=
        congrArg (·.discard (s :: staged)) htree
      refine ⟨nofun, fun e' he => ⟨[], s, staged, rfl, (Option.some.inj he).symm, ?_⟩⟩
      rw [List.map_nil, List.append_nil, hclean]
      exact h.leaves
    unfold replaceAll at hrun
    split at hrun
    next => exact hstop rfl hrun
    next hdir =>
    split at hrun
    next w₁ hrename =>
      obtain ⟨hok, -⟩ | ⟨-, htree⟩ := of_attempt hrename
      · cases hok
      · exact hstop htree hrun
    next w₁ hrename =>
      obtain ⟨-, htree⟩ | ⟨hok, -⟩ := of_attempt hrename
      · have hmoved := h.replace (Bool.not_eq_true _ ▸ hdir)
        obtain ⟨hdone, hfault⟩ := ih (htree ▸ hmoved) hrun
        simp only [List.append_assoc] at hdone hfault
        refine ⟨hdone, fun e' he => ?_⟩
        obtain ⟨moved, s', rest, rfl, he', hleaves⟩ := hfault e' he
        exact ⟨s :: moved, s', rest, rfl, he', hleaves⟩
      · cases hok

/-- **How writing ends**: with all files in place, with none because one could not
be staged, or with those before the first that could not be renamed. -/
inductive Ends (dir : Place) (files : List OutputFile) (before after : FileTree) :
    Option Fault → Prop
  | done (h : Leaves dir files files before after) : Ends dir files before after none
  | unstaged {e : Fault} (he : StagingFault files e) (h : Leaves dir files [] before after) :
    Ends dir files before after (some e)
  | stopped {placed rest : List OutputFile} {f : OutputFile} (hfiles : files = placed ++ f :: rest)
    (h : Leaves dir files placed before after) :
    Ends dir files before after (some (writeFault f "replace file"))

theorem writeFiles_ends {e : Option Fault} (h : w.writeFiles c dir files = (w', e)) :
    Ends dir files w.tree w'.tree e := by
  unfold writeFiles at h
  split at h
  next w₁ staged e' hstage =>
    obtain ⟨rfl, rfl⟩ := Prod.mk.inj h
    obtain ⟨hprogress, -, hfault⟩ := stageAll_progress .start (List.Subset.refl files) hstage
    exact .unstaged (hfault e' rfl) hprogress.leaves
  next w₁ staged hstage =>
    obtain ⟨hprogress, hfiles, -⟩ := stageAll_progress .start (List.Subset.refl files) hstage
    obtain ⟨hdone, hfault⟩ := replaceAll_leaves hprogress h
    have hall : staged.map (·.file) = files := hfiles rfl
    simp only [List.nil_append] at hdone hfault
    cases e with
    | none => exact .done (hall ▸ hdone rfl)
    | some e =>
      obtain ⟨moved, s, rest, rfl, rfl, hleaves⟩ := hfault e rfl
      have hsplit : files = moved.map (·.file) ++ s.file :: rest.map (·.file) := by
        rw [← hall, List.map_append, List.map_cons]
      exact .stopped hsplit hleaves

end Writing

/-! ## Regular files -/

namespace FileTree

variable {t : FileTree} {p : Place} {text : Text}

theorem content?_eq_some_iff : t.content? p = some text ↔ t.entry? p = some (.file text) := by
  unfold content?
  split <;> simp_all

theorem content?_of_entry?_ne (h : ∀ text, t.entry? p ≠ some (.file text)) : t.content? p = none :=
  Option.eq_none_iff_forall_ne_some.mpr fun text ht => h text (content?_eq_some_iff.mp ht)

end FileTree

/-- **Every regular file** is one that was put in place, or one that was there. -/
theorem Leaves.content?_eq {dir : Place} {files placed : List OutputFile} {before after : FileTree}
    (h : Leaves dir files placed before after) (p : Place) :
    after.content? p = (contentAt? dir placed p).or (before.content? p) := by
  cases hp : contentAt? dir placed p with
  | some text => exact FileTree.content?_eq_some_iff.mpr (h.inPlace p text hp)
  | none =>
    rw [Option.none_or]
    cases hb : before.entry? p with
    | some e => rw [FileTree.content?, FileTree.content?, hb, h.kept p e hb (.inr hp)]
    | none =>
      have hbefore : before.content? p = none := by rw [FileTree.content?, hb]
      rw [hbefore]
      refine FileTree.content?_of_entry?_ne fun text ht => ?_
      rcases h.made p hb hp with hnone | ⟨hdir, -⟩
      · rw [hnone] at ht
        cases ht
      · rw [hdir] at ht
        cases ht

/-- A fault of renaming is none of staging. -/
theorem not_stagingFault {files : List OutputFile} {f : OutputFile} :
    ¬ StagingFault files (writeFault f "replace file") := by
  rintro ⟨g, -, detail, hdetail, heq⟩
  have hreplace : Text.ofString "replace file" = detail := by
    injection heq
  rw [← hreplace] at hdetail
  exact absurd hdetail (by decide)

namespace Writing

/-- **Everything is staged before anything is replaced.** Whatever fails in a run,
and wherever, a fault is one of staging or one of renaming. If staging has
failed, each regular file of the tree is as it was, and there is no other. If
nothing has failed, the regular files are those that were written, each with the
content of the last file of its place, and all others as they were. In both cases
no temporary file is left, as there are no other regular files. -/
theorem writeFiles_stages_first {dir : Place} {files : List OutputFile}
    (c : Circumstances (dir.onTheWay files)) {w w' : Writing} {e : Option Fault}
    (h : w.writeFiles c dir files = (w', e)) :
    (∀ e', e = some e' → StagingFault files e' ∨ ∃ f ∈ files, e' = writeFault f "replace file") ∧
    (∀ e', e = some e' → StagingFault files e' → ∀ p, w'.tree.content? p = w.tree.content? p) ∧
    (e = none → ∀ p, w'.tree.content? p = (contentAt? dir files p).or (w.tree.content? p)) := by
  cases writeFiles_ends h with
  | done hleaves => exact ⟨nofun, nofun, fun _ => hleaves.content?_eq⟩
  | unstaged he hleaves =>
    refine ⟨fun e' heq => .inl (Option.some.inj heq ▸ he), fun e' _ _ p => ?_, nofun⟩
    exact (hleaves.content?_eq p).trans Option.none_or
  | stopped hfiles hleaves =>
    refine ⟨fun e' heq => .inr ⟨_, ?_, (Option.some.inj heq).symm⟩, fun e' heq he => ?_, nofun⟩
    · rw [hfiles]
      exact List.mem_append_right _ List.mem_cons_self
    · exact absurd (Option.some.inj heq ▸ he) not_stagingFault

end Writing

namespace Sample

/-- A directory with a file, and files of which the first one is to replace it. -/
def desk : FileTree := ⟨[(["a"], .file "old")]⟩

def deskFiles : List OutputFile :=
  [{ path := "a", content := "new" }, { path := "d/b", content := "text" }]

/-- The temporary file of the second file cannot be closed. -/
def jammed : Circumstances (Place.onTheWay [] deskFiles) :=
  .failing _ fun _ op p => op == .close && p == [Text.ofString "d", "b"]

/-- Nothing fails. -/
def smooth : Circumstances (Place.onTheWay [] deskFiles) := .failing _ fun _ _ _ => false

/-- What is left when the second file cannot be staged. -/
def jammedDesk : FileTree := ⟨[(["a"], .file "old"), (["d"], .dir)]⟩

/-- What is left when nothing fails. -/
def filledDesk : FileTree :=
  ⟨[(["a"], .file "new"), (["d"], .dir), (["d", "b"], .file "text")]⟩

/-- **A file that cannot be closed** changes nothing, and without a fault all files
are written. -/
theorem writeFiles_desk :
    (∃ n, Writing.writeFiles jammed ⟨desk, 0⟩ [] deskFiles =
      (⟨jammedDesk, n⟩, some (writeFault ⟨"d/b", "text"⟩ "write file"))) ∧
    (∀ p, jammedDesk.content? p = desk.content? p) ∧
    (∃ n, Writing.writeFiles smooth ⟨desk, 0⟩ [] deskFiles = (⟨filledDesk, n⟩, none)) ∧
    ∀ p, filledDesk.content? p = (contentAt? [] deskFiles p).or (desk.content? p) := by
  have hjammed : Writing.writeFiles jammed ⟨desk, 0⟩ [] deskFiles =
      (⟨jammedDesk, 8⟩, some (writeFault ⟨"d/b", "text"⟩ "write file")) := rfl
  have hsmooth : Writing.writeFiles smooth ⟨desk, 0⟩ [] deskFiles = (⟨filledDesk, 11⟩, none) :=
    rfl
  obtain ⟨-, hkept, -⟩ := Writing.writeFiles_stages_first jammed hjammed
  obtain ⟨-, -, hwritten⟩ := Writing.writeFiles_stages_first smooth hsmooth
  have hfault : StagingFault deskFiles (writeFault ⟨"d/b", "text"⟩ "write file") :=
    ⟨_, List.mem_cons_of_mem _ List.mem_cons_self, "write file", by decide, rfl⟩
  exact ⟨⟨8, hjammed⟩, hkept _ rfl hfault, ⟨11, hsmooth⟩, hwritten rfl⟩

end Sample

end WireModel
