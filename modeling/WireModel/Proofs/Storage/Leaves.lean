import Mathlib
import WireModel.Proofs.Number.Decimal
import WireModel.Proofs.Storage.Tree
import WireModel.Storage.Write

/-!
# What writing files leaves behind

Files are staged under names that nothing else has, so the tree without
the temporary files is at any time the old tree with some files put in
place and some directories made on the way to others (`Leaves`). Staging
puts nothing in place, a move puts one file in place, and both keep this
(`Progress`).
-/

namespace WireModel

namespace FileTree

variable {t : FileTree} {avoid : List Place} {dir p q : Place} {name : Text} {e : Entry}

/-! ## Fresh names -/

theorem tempName_injective : Function.Injective (tempName dir name) := by
  intro m n h
  have hseg := List.append_cancel_left h
  have htext := List.append_cancel_left (List.singleton_inj.mp hseg)
  rw [← Text.digitsValue_ofNat m, htext, Text.digitsValue_ofNat]

theorem tempName_ne_nil {n : Nat} : tempName dir name n ≠ [] := by
  unfold tempName
  simp

/-- The least number that makes the name of a temporary file a fresh one. -/
def freshNumber (t : FileTree) (avoid : List Place) (dir : Place) (name : Text) : Nat :=
  let taken := t.entries.map (·.1) ++ avoid
  ((List.range (taken.length + 1)).find? fun n => !taken.contains (tempName dir name n)).getD 0

/-- **A fresh name is not taken**: there are more numbers to try than names
that are taken. -/
theorem freshName_not_mem : t.freshName avoid dir name ∉ t.entries.map (·.1) ++ avoid := by
  unfold freshName
  generalize t.entries.map (·.1) ++ avoid = taken
  dsimp only
  cases hfind : (List.range (taken.length + 1)).find?
      fun n => !taken.contains (tempName dir name n) with
  | some n =>
    have hfree := List.find?_some hfind
    rw [Option.getD_some]
    simpa using hfree
  | none =>
    -- otherwise each of these names is taken, and there are too many of them
    exfalso
    have hall : (List.range (taken.length + 1)).map (tempName dir name) ⊆ taken := by
      intro p hp
      obtain ⟨n, hn, rfl⟩ := List.mem_map.mp hp
      simpa using List.find?_eq_none.mp hfind n hn
    have hnd : ((List.range (taken.length + 1)).map (tempName dir name)).Nodup :=
      List.nodup_range.map tempName_injective
    have hle := (hnd.subperm hall).length_le
    rw [List.length_map, List.length_range] at hle
    omega

/-! ## Moving and discarding -/

/-- **A move** takes what stands at a place to another. -/
theorem entry?_move {r : Place} (hp : p ≠ []) (hq : q ≠ []) (h : t.entry? p = some e) :
    entry? (t.move p q) r =
      if r = q then some e else if r = p then none else t.entry? r := by
  unfold move
  rw [h, entry?_put hq, entry?_erase hp]

theorem entry?_discard {staged : List Staged} (h : ∀ s ∈ staged, s.temp ≠ []) :
    entry? (t.discard staged) p =
      if p ∈ staged.map (·.temp) then none else t.entry? p := by
  induction staged generalizing t with
  | nil => simp [discard]
  | cons s staged ih =>
    obtain ⟨hs, hrest⟩ := List.forall_mem_cons.mp h
    have hstep : t.discard (s :: staged) = (t.erase s.temp).discard staged := rfl
    rw [hstep, ih hrest, entry?_erase hs]
    by_cases hmem : p ∈ staged.map (·.temp)
    · simp [hmem]
    · by_cases hps : p = s.temp <;> simp [hmem, hps]

/-! ## Making directories -/

/-- A tree grows at places if directories are made at some of them where
nothing stood. -/
def Grows (t t' : FileTree) (ways : List Place) : Prop :=
  ∀ p, t'.entry? p = t.entry? p ∨
    t.entry? p = none ∧ t'.entry? p = some .dir ∧ p ∈ ways

variable {t' t'' : FileTree} {ways ways' : List Place}

theorem Grows.refl : t.Grows t ways := fun _ => Or.inl rfl

theorem Grows.mono (h : t.Grows t' ways) (hsub : ways ⊆ ways') : t.Grows t' ways' := by
  intro p
  rcases h p with heq | ⟨hnone, hdir, hmem⟩
  · exact Or.inl heq
  · exact Or.inr ⟨hnone, hdir, hsub hmem⟩

theorem Grows.trans (h : t.Grows t' ways) (h' : t'.Grows t'' ways) : t.Grows t'' ways := by
  intro p
  rcases h' p with heq' | ⟨hnone', hdir', hmem'⟩
  · rw [heq']
    exact h p
  · rcases h p with heq | ⟨-, hdir, -⟩
    · exact Or.inr ⟨heq ▸ hnone', hdir', hmem'⟩
    · rw [hdir] at hnone'
      cases hnone'

theorem grows_put (h : t.entry? p = none) (hp : p ∈ ways) : t.Grows (t.put p .dir) ways := by
  intro q
  rw [entry?_put (entry?_eq_none_iff.mp h).1]
  by_cases hq : q = p
  · rw [if_pos hq]
    exact Or.inr ⟨hq ▸ h, rfl, hq ▸ hp⟩
  · rw [if_neg hq]
    exact Or.inl rfl

/-- What stands in a tree stays when the tree grows. -/
theorem Grows.keeps (h : t.Grows t' ways) (hp : t.entry? p = some e) : t'.entry? p = some e := by
  rcases h p with heq | ⟨hnone, -⟩
  · rw [heq, hp]
  · rw [hp] at hnone
    cases hnone

end FileTree

/-! ## What writing leaves -/

/-- The content of the last of the files that belong at a place. -/
def contentAt? (dir : Place) (files : List OutputFile) (p : Place) : Option Text :=
  (files.reverse.find? fun f => dir.follow f.path == p).map (·.content)

/-- What is left of a tree when some files are `placed`, and directories
are made for others of the `files`. -/
structure Leaves (dir : Place) (files placed : List OutputFile) (before after : FileTree) :
    Prop where
  /-- The files that were put in place are there. -/
  inPlace : ∀ p c, contentAt? dir placed p = some c → after.entry? p = some (.file c)
  /-- Every directory stays, and every file that none was put in place of. -/
  kept : ∀ p e, before.entry? p = some e → e = .dir ∨ contentAt? dir placed p = none →
    after.entry? p = some e
  /-- What else is new is a directory on the way to a file. -/
  made : ∀ p, before.entry? p = none → contentAt? dir placed p = none →
    after.entry? p = none ∨
      after.entry? p = some .dir ∧ ∃ f ∈ files, p ∈ Place.steps (dir.follow f.path).dropLast

variable {dir p : Place} {files placed : List OutputFile} {before t t' : FileTree} {f : OutputFile}

@[simp] theorem contentAt?_nil : contentAt? dir [] p = none := rfl

theorem contentAt?_concat : contentAt? dir (placed ++ [f]) p =
    if dir.follow f.path = p then some f.content else contentAt? dir placed p := by
  unfold contentAt?
  rw [List.reverse_concat, List.find?_cons]
  by_cases h : dir.follow f.path = p
  · simp [h]
  · rw [beq_eq_false_iff_ne.mpr h, if_neg h]

theorem Leaves.congr (h : Leaves dir files placed before t)
    (heq : ∀ p, t'.entry? p = t.entry? p) : Leaves dir files placed before t' where
  inPlace p c hc := by rw [heq, h.inPlace p c hc]
  kept p e he hkept := by rw [heq, h.kept p e he hkept]
  made p hp hc := by
    rw [heq]
    exact h.made p hp hc

theorem Leaves.grow (h : Leaves dir files placed before t) (hf : f ∈ files)
    (hgrow : t.Grows t' (Place.steps (dir.follow f.path).dropLast)) :
    Leaves dir files placed before t' where
  inPlace p c hc := hgrow.keeps (h.inPlace p c hc)
  kept p e he hkept := hgrow.keeps (h.kept p e he hkept)
  made p hp hc := by
    rcases hgrow p with heq | ⟨-, hdir, hmem⟩
    · rw [heq]
      exact h.made p hp hc
    · exact Or.inr ⟨hdir, f, hf, hmem⟩

/-- A file in place of what is not a directory. -/
theorem Leaves.place (h : Leaves dir files placed before t)
    (hdir : t.entry? (dir.follow f.path) ≠ some .dir)
    (hput : ∀ p, t'.entry? p =
      if p = dir.follow f.path then some (.file f.content) else t.entry? p) :
    Leaves dir files (placed ++ [f]) before t' where
  inPlace p c hc := by
    rw [contentAt?_concat] at hc
    rw [hput]
    by_cases hp : dir.follow f.path = p
    · rw [if_pos hp, Option.some.injEq] at hc
      rw [if_pos hp.symm, hc]
    · rw [if_neg hp] at hc
      rw [if_neg (Ne.symm hp), h.inPlace p c hc]
  kept p e he hkept := by
    rw [contentAt?_concat] at hkept
    by_cases hp : dir.follow f.path = p
    · -- a directory at the target would still be there, and moving there would have failed
      rw [if_pos hp] at hkept
      have hedir := hkept.resolve_right (by simp)
      exact absurd (hp ▸ hedir ▸ h.kept p e he (Or.inl hedir)) hdir
    · rw [if_neg hp] at hkept
      rw [hput, if_neg (Ne.symm hp), h.kept p e he hkept]
  made p hbefore hc := by
    rw [contentAt?_concat] at hc
    by_cases hp : dir.follow f.path = p
    · rw [if_pos hp] at hc
      cases hc
    · rw [if_neg hp] at hc
      rw [hput, if_neg (Ne.symm hp)]
      exact h.made p hbefore hc

/-! ## A run in progress -/

/-- A run that has put files in place and has others staged. The tree
without the temporary files is what writing leaves. -/
structure Progress (dir : Place) (files placed : List OutputFile) (before t : FileTree)
    (staged : List Staged) : Prop where
  target : ∀ s ∈ staged, s.file ∈ files ∧ s.target = dir.follow s.file.path
  holds : ∀ s ∈ staged, t.entry? s.temp = some (.file s.file.content)
  nodup : (staged.map (·.temp)).Nodup
  apart : ∀ s ∈ staged, s.temp ≠ [] ∧ s.temp ∉ dir.onTheWay files
  leaves : Leaves dir files placed before (t.discard staged)

namespace Progress

variable {staged : List Staged} {s : Staged}

theorem start : Progress dir files [] t t [] where
  target := by simp
  holds := by simp
  nodup := List.nodup_nil
  apart := by simp
  leaves := {
    inPlace := by simp
    kept := fun _ _ he _ => he
    made := fun _ hp _ => Or.inl hp }

theorem temp_ne_nil (h : Progress dir files placed before t staged) :
    ∀ s ∈ staged, s.temp ≠ [] := fun s hs => (h.apart s hs).1

/-- Making directories for a file keeps a run in progress. -/
theorem grow (h : Progress dir files placed before t staged) (hf : f ∈ files)
    (hgrow : t.Grows t' (Place.steps (dir.follow f.path).dropLast)) :
    Progress dir files placed before t' staged where
  target := h.target
  holds s hs := hgrow.keeps (h.holds s hs)
  nodup := h.nodup
  apart := h.apart
  leaves := by
    refine h.leaves.grow hf fun p => ?_
    rw [FileTree.entry?_discard h.temp_ne_nil, FileTree.entry?_discard h.temp_ne_nil]
    by_cases hp : p ∈ staged.map (·.temp)
    · rw [if_pos hp, if_pos hp]
      exact Or.inl rfl
    · rw [if_neg hp, if_neg hp]
      exact hgrow p

/-- So does staging one more file where nothing stood. -/
theorem stage (h : Progress dir files placed before t staged) (hf : f ∈ files) (hne : p ≠ [])
    (hway : p ∉ dir.onTheWay files) (hnone : t.entry? p = none) :
    Progress dir files placed before (t.put p (.file f.content))
      (staged ++ [{ file := f, temp := p, target := dir.follow f.path }]) := by
  have hother : ∀ s ∈ staged, s.temp ≠ p := by
    intro s hs heq
    have hholds := h.holds s hs
    rw [heq, hnone] at hholds
    cases hholds
  refine ⟨?_, ?_, ?_, ?_, ?_⟩
  · exact List.forall_mem_append.mpr ⟨h.target, List.forall_mem_singleton.mpr ⟨hf, rfl⟩⟩
  · refine List.forall_mem_append.mpr ⟨fun s hs => ?_, List.forall_mem_singleton.mpr ?_⟩
    · rw [FileTree.entry?_put hne, if_neg (hother s hs), h.holds s hs]
    · rw [FileTree.entry?_put hne, if_pos rfl]
  · rw [List.map_append, List.nodup_append]
    refine ⟨h.nodup, List.nodup_singleton _, ?_⟩
    intro q hq r hr
    obtain ⟨s, hs, rfl⟩ := List.mem_map.mp hq
    rw [List.mem_singleton.mp hr]
    exact hother s hs
  · exact List.forall_mem_append.mpr ⟨h.apart, List.forall_mem_singleton.mpr ⟨hne, hway⟩⟩
  · have hne' : ∀ s ∈ staged ++ [{ file := f, temp := p, target := dir.follow f.path }],
        s.temp ≠ [] :=
      List.forall_mem_append.mpr ⟨h.temp_ne_nil, List.forall_mem_singleton.mpr hne⟩
    refine h.leaves.congr fun q => ?_
    rw [FileTree.entry?_discard hne', FileTree.entry?_discard h.temp_ne_nil,
      FileTree.entry?_put hne]
    by_cases hq : q = p
    · simp [hq, hnone]
    · simp [hq]

/-- **A move keeps a run in progress**: the file is in place now. -/
theorem replace (h : Progress dir files placed before t (s :: staged))
    (hdir : t.isDir s.target = false) :
    Progress dir files (placed ++ [s.file]) before (t.move s.temp s.target) staged := by
  obtain ⟨⟨hf, htarget⟩, htargets⟩ := List.forall_mem_cons.mp h.target
  obtain ⟨hs, hholds⟩ := List.forall_mem_cons.mp h.holds
  obtain ⟨⟨hne, hway⟩, hapart⟩ := List.forall_mem_cons.mp h.apart
  obtain ⟨hfirst, hnodup⟩ := List.nodup_cons.mp h.nodup
  have hrest : ∀ s' ∈ staged, s'.temp ≠ [] := fun s' hs' => (hapart s' hs').1
  have hnotDir := FileTree.isDir_eq_false_iff.mp hdir
  have hroot : s.target ≠ [] := by
    intro hnil
    rw [hnil] at hnotDir
    exact hnotDir FileTree.entry?_root
  -- no temporary name is a target, as targets are on the way to themselves
  have hmem : s.target ∈ dir.onTheWay files := by
    rw [Place.onTheWay, List.mem_flatMap]
    refine ⟨s.file, hf, ?_⟩
    rw [← htarget]
    exact Place.mem_steps_iff.mpr ⟨hroot, List.prefix_rfl⟩
  have hmove : ∀ r, FileTree.entry? (t.move s.temp s.target) r = _ :=
    fun r => FileTree.entry?_move hne hroot hs
  refine ⟨htargets, ?_, hnodup, hapart, ?_⟩
  · intro s' hs'
    have htemp : s'.temp ≠ s.temp := fun heq =>
      hfirst (List.mem_map.mpr ⟨s', hs', heq⟩)
    have hplace : s'.temp ≠ s.target := fun heq => (hapart s' hs').2 (heq ▸ hmem)
    rw [hmove, if_neg hplace, if_neg htemp, hholds s' hs']
  · have hdiscard : ∀ p, FileTree.entry? (t.discard (s :: staged)) p = _ :=
      fun p => FileTree.entry?_discard h.temp_ne_nil
    have hstays : s.target ∉ (s :: staged).map (·.temp) := by
      intro hin
      obtain ⟨s', hs', heq⟩ := List.mem_map.mp hin
      exact (h.apart s' hs').2 (heq ▸ hmem)
    refine h.leaves.place ?_ fun p => ?_
    · rw [← htarget, hdiscard, if_neg hstays]
      exact hnotDir
    · rw [← htarget, hdiscard, FileTree.entry?_discard hrest, hmove]
      rw [List.map_cons, List.mem_cons, not_or] at hstays
      by_cases hp : p = s.target
      · rw [if_pos hp, if_pos hp, hp, if_neg hstays.2]
      · by_cases hps : p = s.temp
        · simp [hps, Ne.symm hstays.1]
        · simp [hp, hps]

end Progress

/-- What can be wrong with a file while it is staged. -/
def stagingDetails : List Text := ["create directory", "create file", "write file"]

end WireModel
