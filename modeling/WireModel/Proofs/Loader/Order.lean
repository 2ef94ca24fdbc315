import Mathlib.Logic.Relation
import WireModel.Proofs.Link.Kinds
import WireModel.Proofs.Loader.Termination

/-!
# Order — what has been loaded, and when

A file is loaded after its includes, except for those that are being loaded
themselves: these are on the stack, and from each of them a chain of includes
leads back to the file (`Underway`). So a loaded file comes after each of
its includes, or is on a circle with it (`Sound.ordered`).

What a load does is said of any end, good or bad: the loader stays in order
and only grows (`Progresses`). If the load succeeds, the file is loaded or on
the stack, and no include of a loaded file is missing that was not missing
before (`loadFile_spec`). At the end of all loads the stack is empty, and
nothing is missing (`Complete`).
-/

namespace WireModel

open Relation

/-- **A file includes another one**: there is an include in it that leads to
the other. -/
def Surroundings.Includes (s : Surroundings) (file other : Text) : Prop :=
  ∃ content i, s.read file = .ok content ∧ some i ∈ content.includes ∧
    other = Loader.includePath file i.path

namespace Loader

/-! ## Loaders in order -/

/-- The files that are loaded. -/
def loaded (l : Loader) : List Text := l.files.map (·.1)

/-- **An import is an include of a file**, with the path of the module that
the include leads to. -/
def Binds (l : Loader) (file : Text) (i : Option IncludeEntry) (x : Import) : Prop :=
  ∃ e path, i = some e ∧ l.moduleName? (includePath file e.path) = some path ∧
    x = { ns := e.ns, path }

/-- **A loader in order**, while some files are pending. -/
structure Sound (s : Surroundings) (pending : List Text) (l : Loader) : Prop where
  /-- A file is loaded once. -/
  distinct : l.loaded.Nodup
  not_pending : ∀ file ∈ pending, file ∉ l.loaded
  /-- The path of a module is that of its file. -/
  named : ∀ x ∈ l.files, l.moduleName? x.1 = some x.2.path
  /-- The imports of a module are the includes of its file. -/
  bound : ∀ x ∈ l.files, ∃ content, s.read x.1 = .ok content ∧
    List.Forall₂ (l.Binds x.1) content.includes x.2.imports
  /-- A file comes after its includes, or is on a circle with them. -/
  ordered : ∀ before x, before ++ [x] <+: l.files → ∀ other, s.Includes x.1 other →
    other ∈ before.map (·.1) ∨ TransGen s.Includes other x.1

/-- **No include of a loaded file is missing**, but for pending ones. -/
def Closed (s : Surroundings) (pending : List Text) (l : Loader) : Prop :=
  ∀ x ∈ l.files, ∀ other, s.Includes x.1 other → other ∈ l.loaded ∨ other ∈ pending

/-- **A loader only grows.** -/
structure Grows (l l' : Loader) : Prop where
  root : l'.root = l.root
  files : l.files <+: l'.files

variable {s : Surroundings} {pending : List Text} {l l' l'' : Loader} {file name : Text}
  {content : SpecFile} {imports : List Import} {stack : List (Text × Text)}

theorem Grows.refl (l : Loader) : l.Grows l := ⟨rfl, List.prefix_rfl⟩

theorem Grows.trans (h : l.Grows l') (h' : l'.Grows l'') : l.Grows l'' :=
  ⟨h'.root.trans h.root, h.files.trans h'.files⟩

theorem Grows.loaded (h : l.Grows l') : l.loaded ⊆ l'.loaded :=
  List.map_subset _ h.files.subset

/-- The paths of modules stay the same. -/
theorem Grows.moduleName? (h : l.Grows l') : l'.moduleName? file = l.moduleName? file := by
  unfold Loader.moduleName?
  rw [h.root]

theorem Grows.binds {i : Option IncludeEntry} {x : Import} (h : l.Grows l') :
    l'.Binds file i x ↔ l.Binds file i x := by
  simp only [Binds, h.moduleName?]

theorem module?_eq_none_iff : l.module? file = none ↔ file ∉ l.loaded :=
  Text.lookup?_eq_none_iff

theorem mem_loaded_of_module? {m : Module} (h : l.module? file = some m) : file ∈ l.loaded :=
  List.mem_map.mpr ⟨_, Text.mem_of_lookup? h, rfl⟩

theorem Sound.push (h : l.Sound s pending) (hnew : file ∉ l.loaded) :
    l.Sound s (file :: pending) where
  distinct := h.distinct
  not_pending := List.forall_mem_cons.mpr ⟨hnew, h.not_pending⟩
  named := h.named
  bound := h.bound
  ordered := h.ordered

theorem Sound.pop (h : l.Sound s (file :: pending)) : l.Sound s pending where
  distinct := h.distinct
  not_pending := (List.forall_mem_cons.mp h.not_pending).2
  named := h.named
  bound := h.bound
  ordered := h.ordered

/-! ## Files under way -/

/-- **The files that are being loaded** when a load gets to a file: each
leads to it over includes, and has the path its module will have. -/
structure Underway (s : Surroundings) (l : Loader) (stack : List (Text × Text)) (file : Text) :
    Prop where
  named : ∀ x ∈ stack, l.moduleName? x.1 = some x.2
  leads : ∀ x ∈ stack, TransGen s.Includes x.1 file

theorem Underway.grow (h : Underway s l stack file) (hl : l.Grows l') :
    Underway s l' stack file where
  named := by simpa only [hl.moduleName?] using h.named
  leads := h.leads

/-- The file itself is under way when its includes are loaded. -/
theorem Underway.push {other : Text} (h : Underway s l stack file)
    (hname : l.moduleName? file = some name) (hother : s.Includes file other) :
    Underway s l ((file, name) :: stack) other where
  named := List.forall_mem_cons.mpr ⟨hname, h.named⟩
  leads := List.forall_mem_cons.mpr ⟨.single hother, fun x hx => (h.leads x hx).tail hother⟩

/-! ## What a step of loading does -/

/-- **A load moves on** from a file, however it ends. -/
structure Progresses (s : Surroundings) (pending : List Text) (file : Text) (l : Loader) {α : Type}
    (r : Loader × Except Fault α) : Prop where
  grows : l.Grows r.1
  sound : r.1.Sound s pending
  /-- What it adds is reached from the file over includes. -/
  reached : ∀ x ∈ r.1.files, x ∈ l.files ∨ ReflTransGen s.Includes file x.1
  /-- If it succeeds, no include of what it adds is missing, but for pending ones. -/
  complete : ∀ a, r.2 = .ok a → ∀ x ∈ r.1.files, x ∈ l.files ∨
    ∀ other, s.Includes x.1 other → other ∈ r.1.loaded ∨ other ∈ pending

/-- A loaded file is there, or it was pending. -/
def Finds (pending : List Text) (l : Loader) (file : Text) (path : Text) : Prop :=
  l.moduleName? file = some path ∧ (file ∈ l.loaded ∨ file ∈ pending)

/-- Loaded includes are there or pending, and are what the imports are. -/
structure Imports (pending : List Text) (l : Loader) (file : Text)
    (is : List (Option IncludeEntry)) (imports : List Import) : Prop where
  binds : List.Forall₂ (l.Binds file) is imports
  found : ∀ i, some i ∈ is → includePath file i.path ∈ l.loaded ∨ includePath file i.path ∈ pending

/-- **What the load of a file does.** -/
structure Loads (s : Surroundings) (pending : List Text) (l : Loader) (file : Text)
    (r : Loader × Except Fault Text) : Prop extends Progresses s pending file l r where
  finds : ∀ path, r.2 = .ok path → Finds pending r.1 file path

/-- **What the load of includes does.** -/
structure LoadsAll (s : Surroundings) (pending : List Text) (l : Loader) (file : Text)
    (is : List (Option IncludeEntry)) (r : Loader × Except Fault (List Import)) : Prop
    extends Progresses s pending file l r where
  imports : ∀ imports, r.2 = .ok imports → Imports pending r.1 file is imports

theorem Progresses.stay {α : Type} (h : l.Sound s pending) (e : Except Fault α) :
    Progresses s pending file l (l, e) where
  grows := .refl l
  sound := h
  reached _ := .inl
  complete _ _ _ := .inl

/-- If a load succeeds, nothing gets missing. -/
theorem Progresses.closed {α : Type} {r : Loader × Except Fault α}
    (h : Progresses s pending file l r) (a : α) (ha : r.2 = .ok a) (hl : l.Closed s pending) :
    r.1.Closed s pending := by
  intro x hx other hother
  rcases h.complete a ha x hx with hx | hall
  · exact (hl x hx other hother).imp_left fun hmem => h.grows.loaded hmem
  · exact hall other hother

/-- What is reached from an include is reached from the file. -/
theorem Progresses.includedBy {α : Type} {other : Text} {r : Loader × Except Fault α}
    (h : Progresses s pending other l r) (hinc : s.Includes file other) :
    Progresses s pending file l r where
  grows := h.grows
  sound := h.sound
  reached x hx := (h.reached x hx).imp_right (.head hinc)
  complete := h.complete

/-- Two loads one after the other. -/
theorem Progresses.trans {α β : Type} {e : Except Fault α} {r : Loader × Except Fault β} {a : α}
    (h : Progresses s pending file l (l', e)) (ha : e = .ok a)
    (h' : Progresses s pending file l' r) : Progresses s pending file l r where
  grows := h.grows.trans h'.grows
  sound := h'.sound
  reached x hx := (h'.reached x hx).elim (h.reached x) .inr
  complete b hb x hx := by
    rcases h'.complete b hb x hx with hx | hall
    · exact (h.complete a ha x hx).imp_right fun hall other hother =>
        (hall other hother).imp_left fun hmem => h'.grows.loaded hmem
    · exact .inr hall

/-- A load that does not succeed need not be finished. -/
theorem Progresses.fail {α β : Type} {e : Except Fault α}
    (h : Progresses s pending file l (l', e)) (f : Fault) :
    Progresses s pending file l ((l', .error f) : Loader × Except Fault β) where
  grows := h.grows
  sound := h.sound
  reached := h.reached
  complete _ := nofun

/-- If it was for a file, that file is no longer pending. -/
theorem Progresses.abort {α β : Type} {e : Except Fault α}
    (h : Progresses s (file :: pending) file l (l', e)) (f : Fault) :
    Progresses s pending file l ((l', .error f) : Loader × Except Fault β) where
  grows := h.grows
  sound := h.sound.pop
  reached := h.reached
  complete _ := nofun

/-- And it may end with something else. -/
theorem Progresses.ok {α β : Type} {a : α} (h : Progresses s pending file l (l', .ok a)) (b : β) :
    Progresses s pending file l ((l', .ok b) : Loader × Except Fault β) where
  grows := h.grows
  sound := h.sound
  reached := h.reached
  complete _ _ := h.complete a rfl

/-- A load that fails finds no file. -/
theorem Progresses.loads {f : Fault}
    (h : Progresses s pending file l ((l', .error f) : Loader × Except Fault Text)) :
    Loads s pending l file (l', .error f) where
  toProgresses := h
  finds _ hpath := by cases hpath

/-- And it has no imports. -/
theorem Progresses.loadsAll {f : Fault} {is : List (Option IncludeEntry)}
    (h : Progresses s pending file l ((l', .error f) : Loader × Except Fault (List Import))) :
    LoadsAll s pending l file is (l', .error f) where
  toProgresses := h
  imports _ himports := by cases himports

/-- **Includes are loaded in their order**, and become the imports. -/
theorem loadIncludes_spec {load : Loader → Text → Loader × Except Fault Text}
    {is : List (Option IncludeEntry)}
    (hload : ∀ l', l.Grows l' → l'.Sound s pending → ∀ i, some i ∈ is →
      Loads s pending l' (includePath file i.path) (load l' (includePath file i.path)))
    (hincludes : ∀ i, some i ∈ is → s.Includes file (includePath file i.path))
    (h : l.Sound s pending) : LoadsAll s pending l file is (loadIncludes load file l is) := by
  fun_induction loadIncludes load file l is with
  | case1 l =>
    refine ⟨.stay h _, fun imports himports => ?_⟩
    obtain rfl : [] = imports := Except.ok.inj himports
    exact ⟨.nil, fun _ hi => absurd hi List.not_mem_nil⟩
  | case2 | case3 => exact (Progresses.stay h _).loadsAll
  | case4 l i rest hns l' f hrun =>
    have hstep := hload l (.refl l) h i List.mem_cons_self
    rw [hrun] at hstep
    exact ((hstep.includedBy (hincludes i List.mem_cons_self)).fail f).loadsAll
  | case5 l i rest hns l' path hrun l'' f hrest ih =>
    have hstep := hload l (.refl l) h i List.mem_cons_self
    rw [hrun] at hstep
    have hsteps := ih (fun l₁ hl₁ h₁ j hj =>
        hload l₁ (hstep.grows.trans hl₁) h₁ j (List.mem_cons_of_mem _ hj))
      (fun j hj => hincludes j (List.mem_cons_of_mem _ hj)) hstep.sound
    rw [hrest] at hsteps
    have hfile := hstep.includedBy (hincludes i List.mem_cons_self)
    exact ((hfile.trans rfl hsteps.toProgresses).fail f).loadsAll
  | case6 l i rest hns l' path hrun l'' imports hrest ih =>
    have hstep := hload l (.refl l) h i List.mem_cons_self
    rw [hrun] at hstep
    have hsteps := ih (fun l₁ hl₁ h₁ j hj =>
        hload l₁ (hstep.grows.trans hl₁) h₁ j (List.mem_cons_of_mem _ hj))
      (fun j hj => hincludes j (List.mem_cons_of_mem _ hj)) hstep.sound
    rw [hrest] at hsteps
    have hfile := hstep.includedBy (hincludes i List.mem_cons_self)
    refine ⟨(hfile.trans rfl hsteps.toProgresses).ok _, fun all hall => ?_⟩
    obtain rfl := Except.ok.inj hall
    obtain ⟨hname, hfound⟩ := hstep.finds path rfl
    obtain ⟨hbinds, hothers⟩ := hsteps.imports imports rfl
    refine ⟨.cons ⟨i, path, rfl, hsteps.grows.moduleName?.trans hname, rfl⟩ hbinds, fun j hj => ?_⟩
    rcases List.mem_cons.mp hj with heq | hj
    · obtain rfl := Option.some.inj heq
      exact hfound.imp_left fun h => hsteps.grows.loaded h
    · exact hothers j hj

/-- Making declarations of a file changes neither the path nor the imports
of a module. -/
theorem of_declare {m m' : Module} (h : content.declare m = .ok m') :
    m'.path = m.path ∧ m'.imports = m.imports := by
  unfold SpecFile.declare at h
  split at h
  · cases h
  · obtain rfl := Except.ok.inj h
    exact ⟨rfl, rfl⟩
  · cases h

section Enter

variable {m : Module} (hread : s.read file = .ok content)
  (himports : Imports (file :: pending) l file content.includes m.imports)

theorem loaded_add : (l.add file m).loaded = l.loaded ++ [file] := List.map_append

theorem grows_add : l.Grows (l.add file m) := ⟨rfl, List.prefix_append _ _⟩

include hread himports in
theorem found_of_includes {other : Text} (hother : s.Includes file other) :
    other ∈ l.loaded ∨ other ∈ file :: pending := by
  obtain ⟨content', i, hread', hi, rfl⟩ := hother
  obtain rfl : content = content' := Except.ok.inj (hread.symm.trans hread')
  exact himports.found i hi

include hread himports in
/-- **A loader stays in order with a file whose includes are loaded.** Those
that are not are pending, so that they lead to the file. -/
theorem Sound.add (h : l.Sound s (file :: pending)) (hfile : file ∉ pending)
    (hname : l.moduleName? file = some m.path)
    (hleads : ∀ other ∈ pending, TransGen s.Includes other file) :
    (l.add file m).Sound s pending where
  distinct := by
    rw [loaded_add, List.nodup_append]
    refine ⟨h.distinct, List.nodup_singleton file, fun a ha b hb heq => ?_⟩
    rw [heq, List.mem_singleton.mp hb] at ha
    exact h.not_pending file List.mem_cons_self ha
  not_pending other hother := by
    have hnew : other ∉ l.loaded := h.not_pending other (List.mem_cons_of_mem _ hother)
    rw [loaded_add, List.mem_append, List.mem_singleton, not_or]
    exact ⟨hnew, fun heq => hfile (heq ▸ hother)⟩
  named x hx := by
    rw [grows_add.moduleName?]
    rcases List.mem_append.mp hx with hx | hx
    · exact h.named x hx
    · rw [List.mem_singleton.mp hx]
      exact hname
  bound x hx := by
    rcases List.mem_append.mp hx with hx | hx
    · obtain ⟨content', hread', hbinds⟩ := h.bound x hx
      exact ⟨content', hread', hbinds.imp fun _ _ => grows_add.binds.mpr⟩
    · rw [List.mem_singleton.mp hx]
      exact ⟨content, hread, himports.binds.imp fun _ _ => grows_add.binds.mpr⟩
  ordered before x hprefix other hother := by
    rcases List.prefix_concat_iff.mp hprefix with heq | hprefix
    · obtain ⟨rfl, rfl⟩ := List.append_singleton_inj.mp heq
      rcases found_of_includes hread himports hother with hloaded | hpending
      · exact .inl hloaded
      · rcases List.mem_cons.mp hpending with rfl | hpending
        · exact .inr (.single hother)
        · exact .inr (hleads other hpending)
    · exact h.ordered before x hprefix other hother

include hread himports in
/-- And with it no include of the file is missing that was not pending before. -/
theorem found_add {other : Text} (hother : s.Includes file other) :
    other ∈ (l.add file m).loaded ∨ other ∈ pending := by
  rw [loaded_add, List.mem_append, List.mem_singleton, or_assoc, ← List.mem_cons]
  exact found_of_includes hread himports hother

end Enter

/-- **A file is entered once its includes are loaded.** -/
theorem LoadsAll.enter
    (h : LoadsAll s (file :: pending) l file content.includes (l', .ok imports))
    (hname : l.moduleName? file = some name) (hread : s.read file = .ok content)
    (hfile : file ∉ pending) (hleads : ∀ other ∈ pending, TransGen s.Includes other file) :
    Loads s pending l file (l'.enter file name content imports) := by
  unfold Loader.enter
  dsimp only
  split
  next => exact (h.abort _).loads
  next => exact (h.abort _).loads
  next m hdeclare =>
    obtain ⟨hpath, himps⟩ := of_declare hdeclare
    have hname' : l'.moduleName? file = some m.path := by
      rw [h.grows.moduleName?, hname, hpath]
    have himports : Imports (file :: pending) l' file content.includes m.imports := by
      rw [himps]
      exact h.imports imports rfl
    exact {
      grows := h.grows.trans grows_add
      sound := h.sound.add hread himports hfile hname' hleads
      reached x hx := by
        rcases List.mem_append.mp hx with hx | hx
        · exact h.reached x hx
        · rw [List.mem_singleton.mp hx]
          exact .inr .refl
      complete _ _ x hx := by
        rcases List.mem_append.mp hx with hx | hx
        · -- the file is no longer pending, but loaded
          refine (h.complete imports rfl x hx).imp_right fun hall other hother => ?_
          rw [loaded_add, List.mem_append, List.mem_singleton, or_assoc, ← List.mem_cons]
          exact hall other hother
        · rw [List.mem_singleton.mp hx]
          exact .inr fun other hother => found_add hread himports hother
      finds path hp := by
        rw [← Except.ok.inj hp]
        exact ⟨grows_add.moduleName?.trans hname', .inl (by simp [loaded_add])⟩ }

/-- **A load keeps a loader in order**, whether it succeeds or not. If it
does, the file is loaded, or it was pending. -/
theorem loadFile_spec (fuel : Nat) (hway : Underway s l stack file)
    (h : l.Sound s (stack.map (·.1))) :
    Loads s (stack.map (·.1)) l file (loadFile s fuel stack l file) := by
  induction fuel generalizing stack l file with
  | zero => exact (Progresses.stay h _).loads
  | succ fuel ih =>
    unfold loadFile
    split
    next m _ hm =>
      refine ⟨.stay h _, fun path hpath => ⟨?_, .inl (mem_loaded_of_module? hm)⟩⟩
      rw [← Except.ok.inj hpath]
      exact h.named _ (Text.mem_of_lookup? hm)
    next path _ hpath =>
      have hmem := Text.mem_of_lookup? hpath
      refine ⟨.stay h _, fun path' hpath' => ⟨?_, .inr (List.mem_map.mpr ⟨_, hmem, rfl⟩)⟩⟩
      rw [← Except.ok.inj hpath']
      exact hway.named _ hmem
    next hm hst =>
    split
    next => exact (Progresses.stay h _).loads
    next name hname =>
    split
    next => exact (Progresses.stay h _).loads
    next content hread =>
    -- the includes are loaded while the file is pending
    have hload : ∀ l', l.Grows l' → l'.Sound s (file :: stack.map (·.1)) →
        ∀ i, some i ∈ content.includes →
        Loads s (file :: stack.map (·.1)) l' (includePath file i.path)
          (loadFile s fuel ((file, name) :: stack) l' (includePath file i.path)) :=
      fun l' hl' hsound i hi => ih ((hway.grow hl').push (hl'.moduleName?.trans hname)
        ⟨content, i, hread, hi, rfl⟩) hsound
    have hsteps := loadIncludes_spec hload (fun i hi => ⟨content, i, hread, hi, rfl⟩)
      (h.push (module?_eq_none_iff.mp hm))
    split
    next l' f hrun =>
      rw [hrun] at hsteps
      exact (hsteps.abort f).loads
    next l' imports hrun =>
      rw [hrun] at hsteps
      exact hsteps.enter hname hread (Text.lookup?_eq_none_iff.mp hst)
        (List.forall_mem_map.mpr hway.leads)

end Loader

end WireModel
