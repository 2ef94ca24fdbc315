import Mathlib.Data.List.Perm.Subperm
import WireModel.Loader
import WireModel.Proofs.Storage.Walk
import WireModel.Proofs.Text.Entries

/-!
# Termination — loading comes to an end

Includes may go in circles, and a path may be written in many ways, so it
takes an argument that loading ends. A loader only ever asks for paths from
the root that are in normal form, or that stand in a file as they are
(`Surroundings.Addresses`). Those of them that can be read are among the
known paths of the tree (`Addresses.mem_knownPaths`). While a file is
loaded it is on the stack and not loaded again, so the stack holds distinct
known paths, and the fuel that a stack leaves is always enough
(`loadFile_ne_unworded`). More fuel changes nothing then
(`loadFile_eq_of_le`).
-/

namespace WireModel

open Path

namespace Surroundings

variable {s : Surroundings} {file : Text} {f : SpecFile}

/-- The format of a file goes by its name alone. -/
theorem decode_eq_of_splitOn {path name content : Text} {parts : List Text}
    (h : path.splitOn slash = parts ++ [name]) :
    SpecFile.decode path content = SpecFile.decode name content := by
  rw [SpecFile.decode, SpecFile.decode, ext_of_splitOn h]

/-- **What can be read is known**, by its normal path and with all absolute
paths it includes. -/
theorem mem_knownPaths_of_read (habs : isAbs file = true) (h : s.read file = .ok f) :
    clean file ∈ s.knownPaths ∧ ∀ path ∈ f.absoluteIncludes, path ∈ s.knownPaths := by
  rw [read] at h
  cases hcontent : s.tree.readFile s.cwd [] file with
  | error e =>
    rw [hcontent] at h
    cases h
  | ok content =>
    rw [hcontent] at h
    obtain ⟨p, hp, hplace, parts, hparts⟩ := FileTree.exists_of_readFile habs hcontent
    have hdecode : SpecFile.decode (p.getLastD []) content = .ok f :=
      (decode_eq_of_splitOn hparts).symm.trans h
    have hknown : ∀ path, path ∈ p.toPath :: f.absoluteIncludes → path ∈ s.knownPaths := by
      intro path hpath
      refine List.mem_flatMap.mpr ⟨_, hp, ?_⟩
      simpa only [hdecode] using hpath
    rw [← hplace]
    exact ⟨hknown _ List.mem_cons_self,
      fun path hpath => hknown path (List.mem_cons_of_mem _ hpath)⟩

/-- **A path that files are loaded by**: it starts at the root, and it is in
normal form or stands in a file. -/
structure Addresses (s : Surroundings) (file : Text) : Prop where
  rooted : isAbs file = true
  normal_or_known : clean file = file ∨ file ∈ s.knownPaths

theorem Addresses.of_isNormal (h : IsNormal file) : s.Addresses file where
  rooted := h.rooted
  normal_or_known := .inl h.normal

theorem addresses_absolute (s : Surroundings) (path : Text) : s.Addresses (s.absolute path) := by
  unfold absolute Path.absolute
  split
  next habs => exact .of_isNormal (isNormal_clean habs)
  next => exact .of_isNormal (isNormal_join rfl)

/-- If such a file can be read, its path is a known one. -/
theorem Addresses.mem_knownPaths (h : s.Addresses file) (hread : s.read file = .ok f) :
    file ∈ s.knownPaths := by
  rcases h.normal_or_known with hnormal | hknown
  · rw [← hnormal]
    exact (mem_knownPaths_of_read h.rooted hread).1
  · exact hknown

/-- **The includes of a file lead on to such paths.** -/
theorem Addresses.includePath {i : IncludeEntry} (h : s.Addresses file)
    (hread : s.read file = .ok f) (hi : some i ∈ f.includes) :
    s.Addresses (Loader.includePath file i.path) := by
  unfold Loader.includePath
  split
  next habs =>
    have hmem : i.path ∈ f.absoluteIncludes :=
      List.mem_filter.mpr ⟨List.mem_filterMap.mpr ⟨_, hi, rfl⟩, habs⟩
    exact ⟨habs, .inr ((mem_knownPaths_of_read h.rooted hread).2 _ hmem)⟩
  next => exact .of_isNormal (isNormal_join (isAbs_dir.trans h.rooted))

end Surroundings

namespace Loader

variable {s : Surroundings} {file : Text} {l : Loader} {stack : List (Text × Text)}
  {load load' : Loader → Text → Loader × Except Fault Text} {is : List (Option IncludeEntry)}

/-! ## Fuel that does not run out

Out of fuel, a load ends with a fault that has no words and nothing around
it. No other load does. -/

theorem enter_ne_unworded {name : Text} {content : SpecFile} {imports : List Import} :
    (l.enter file name content imports).2 ≠ .error .unworded := by
  unfold enter
  dsimp only
  split <;> exact nofun

/-- Includes run out of fuel only if one of them does. -/
theorem loadIncludes_ne_unworded
    (h : ∀ l, ∀ i, some i ∈ is → (load l (includePath file i.path)).2 ≠ .error .unworded) :
    (loadIncludes load file l is).2 ≠ .error .unworded := by
  fun_induction loadIncludes load file l is with
  | case1 | case2 | case3 => exact nofun
  | case4 l i rest hns l' f hload =>
    have hi := h l i List.mem_cons_self
    rw [hload] at hi
    simpa using hi
  | case5 l i rest hns l' path hload l'' f hrest ih =>
    rw [hrest] at ih
    simpa using ih fun l j hj => h l j (List.mem_cons_of_mem _ hj)
  | case6 => exact nofun

/-- **Fuel for all known paths but those on the stack is enough.** Every
file that is read goes onto the stack, and it was not there. -/
theorem loadFile_ne_unworded {fuel : Nat} (hfile : s.Addresses file)
    (hnodup : (stack.map (·.1)).Nodup) (hknown : ∀ x ∈ stack, x.1 ∈ s.knownPaths)
    (hfuel : s.knownPaths.length < fuel + stack.length) :
    (loadFile s fuel stack l file).2 ≠ .error .unworded := by
  induction fuel generalizing stack l file with
  | zero =>
    have hle : (stack.map (·.1)).length ≤ s.knownPaths.length :=
      (List.subperm_of_subset hnodup (List.forall_mem_map.mpr hknown)).length_le
    rw [List.length_map] at hle
    omega
  | succ fuel ih =>
    unfold loadFile
    split
    next => exact nofun
    next => exact nofun
    next _ hnew =>
    split
    next => exact nofun
    next name _ =>
    split
    next => exact nofun
    next content hread =>
    have hincludes : (loadIncludes (loadFile s fuel ((file, name) :: stack)) file l
        content.includes).2 ≠ .error .unworded := by
      refine loadIncludes_ne_unworded fun l i hi => ih (hfile.includePath hread hi) ?_ ?_ ?_
      · rw [List.map_cons, List.nodup_cons]
        exact ⟨Text.lookup?_eq_none_iff.mp hnew, hnodup⟩
      · exact List.forall_mem_cons.mpr ⟨hfile.mem_knownPaths hread, hknown⟩
      · rw [List.length_cons]
        omega
    split
    next l' f hload =>
      rw [hload] at hincludes
      simpa using hincludes
    next => exact enter_ne_unworded

/-! ## More fuel -/

/-- Includes that do not run out of fuel are loaded in the same way by what
agrees where there is fuel. -/
theorem loadIncludes_congr
    (hagree : ∀ l file, (load l file).2 ≠ .error .unworded → load' l file = load l file)
    (h : (loadIncludes load file l is).2 ≠ .error .unworded) :
    loadIncludes load' file l is = loadIncludes load file l is := by
  fun_induction loadIncludes load file l is with
  | case1 => rfl
  | case2 => rfl
  | case3 l i rest hns => rw [loadIncludes, if_pos hns]
  | case4 l i rest hns l' f hload =>
    have hsame := hagree l (includePath file i.path) (by simpa [hload] using h)
    rw [loadIncludes, if_neg hns, hsame, hload]
  | case5 l i rest hns l' path hload l'' f hrest ih =>
    have hsame := hagree l (includePath file i.path) (by simp [hload])
    rw [loadIncludes, if_neg hns, hsame, hload]
    simp only [ih (by simpa [hrest] using h), hrest]
  | case6 l i rest hns l' path hload l'' imports hrest ih =>
    have hsame := hagree l (includePath file i.path) (by simp [hload])
    rw [loadIncludes, if_neg hns, hsame, hload]
    simp only [ih (by simp [hrest]), hrest]

/-- **One more unit of fuel changes nothing**, if it did not run out. -/
theorem loadFile_succ {fuel : Nat} (h : (loadFile s fuel stack l file).2 ≠ .error .unworded) :
    loadFile s (fuel + 1) stack l file = loadFile s fuel stack l file := by
  induction fuel generalizing stack l file with
  | zero => exact absurd rfl h
  | succ fuel ih =>
    unfold loadFile at h ⊢
    split
    next => rfl
    next => rfl
    next hm hst =>
    rw [hm, hst] at h
    simp only at h
    split
    next => rfl
    next name hname =>
    rw [hname] at h
    simp only at h
    split
    next => rfl
    next content hread =>
    rw [hread] at h
    simp only at h
    have hincludes : (loadIncludes (loadFile s fuel ((file, name) :: stack)) file l
        content.includes).2 ≠ .error .unworded := by
      intro hout
      cases hrun : loadIncludes (loadFile s fuel ((file, name) :: stack)) file l
        content.includes with
      | mk l' r =>
        rw [hrun] at h hout
        simp only at hout
        rw [hout] at h
        exact h rfl
    simp only [loadIncludes_congr (fun l file => ih) hincludes]

theorem loadFile_eq_of_le {fuel fuel' : Nat} (hle : fuel ≤ fuel')
    (h : (loadFile s fuel stack l file).2 ≠ .error .unworded) :
    loadFile s fuel' stack l file = loadFile s fuel stack l file := by
  induction hle with
  | refl => rfl
  | step _ ih => rw [loadFile_succ (by rwa [ih]), ih]

/-- **Loading ends**: whatever files include each other, with fuel for all
known paths no load runs out, and more fuel gives the same. -/
theorem loadFile_terminates (s : Surroundings) (l : Loader) (path : Text) {fuel : Nat}
    (hfuel : s.knownPaths.length < fuel) :
    (loadFile s fuel [] l (s.absolute path)).2 ≠ .error .unworded ∧
      loadFile s fuel [] l (s.absolute path) =
        loadFile s (s.knownPaths.length + 1) [] l (s.absolute path) := by
  have hleast : (loadFile s (s.knownPaths.length + 1) [] l (s.absolute path)).2 ≠
      .error .unworded :=
    loadFile_ne_unworded (s.addresses_absolute path) List.nodup_nil nofun (by simp)
  have heq := loadFile_eq_of_le hfuel hleast
  exact ⟨heq ▸ hleast, heq⟩

end Loader

end WireModel
