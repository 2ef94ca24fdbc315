import WireModel.Proofs.Link.Accept

/-!
# The order of the arguments — linking does not see it

Modules are registered in the order in which they are given, and all
later steps go through them in the order of their paths. Where no two
modules share a path, the first order is visible in one place only: the
errors of registering come module by module. So the same modules given
in another order are linked to the same graph, or fail with the same
errors (`resolve_perm`).
-/

namespace WireModel

open Linking

variable {w : Workspace} {ids ids' : List Nat}

/-! ## Registering modules with distinct paths -/

/-- No two given modules share a path. The same module may be given
again. -/
def PathsDistinct (w : Workspace) (ids : List Nat) : Prop :=
  ∀ i m j n, Given w ids i m → Given w ids j n → m.path = n.path → i = j

theorem given_perm (hp : ids.Perm ids') {i : Nat} {m : Module} :
    Given w ids' i m ↔ Given w ids i m := by
  rw [Given, Given, hp.mem_iff]

/-- What is wrong with a module of a workspace. -/
def Workspace.moduleErrors (w : Workspace) (i : Nat) : List CompileError :=
  ((w[i]?).map (·.errors)).getD []

/-- Registering modules with distinct paths validates each of them when
its path gets known, and finds nothing else. -/
theorem exists_register_eq {known : List (Text × Nat)} (hd : PathsDistinct w ids)
    (hknown : ∀ i m, Given w ids i m → ∀ prev, Text.lookup? m.path known = some prev → prev = i) :
    ∃ news, register w known ids =
      (known ++ news, news.flatMap fun e => w.moduleErrors e.2) := by
  induction ids generalizing known with
  | nil => exact ⟨[], by simp⟩
  | cons i ids ih =>
    have htail : ∀ {j n}, Given w ids j n → Given w (i :: ids) j n :=
      fun h => ⟨List.mem_cons_of_mem i h.1, h.2⟩
    have hd' : PathsDistinct w ids := fun j n k o hj hk => hd j n k o (htail hj) (htail hk)
    cases hm : w[i]? with
    | none =>
      rw [register_missing hm]
      exact ih hd' fun j n hj => hknown j n (htail hj)
    | some m =>
      have hi : Given w (i :: ids) i m := ⟨List.mem_cons_self .., hm⟩
      cases hk : Text.lookup? m.path known with
      | some prev =>
        obtain rfl : prev = i := hknown i m hi prev hk
        obtain ⟨news, hnews⟩ := ih hd' fun j n hj => hknown j n (htail hj)
        exact ⟨news, by simp [register, hm, hk, hnews]⟩
      | none =>
        have hknown' : ∀ j n, Given w ids j n → ∀ prev,
            Text.lookup? n.path (known ++ [(m.path, i)]) = some prev → prev = j := by
          intro j n hj prev hl
          rw [Text.lookup?_append, Option.or_eq_some_iff] at hl
          rcases hl with hl | ⟨-, hl⟩
          · exact hknown j n (htail hj) prev hl
          · -- the entry found is that of `m`, so the paths are the same
            have hmem := Text.mem_of_lookup? hl
            obtain ⟨hpath, rfl⟩ : n.path = m.path ∧ prev = i := by simpa using hmem
            exact hd _ m j n hi (htail hj) hpath.symm
        obtain ⟨news, hnews⟩ := ih hd' hknown'
        refine ⟨(m.path, i) :: news, ?_⟩
        rw [register_new hm hk, hnews, List.flatMap_cons, Workspace.moduleErrors, hm]
        simp

theorem register_errors_eq (hd : PathsDistinct w ids) :
    (register w [] ids).2 = (paths w ids).flatMap fun e => w.moduleErrors e.2 := by
  have hknown : ∀ i m, Given w ids i m → ∀ prev,
      Text.lookup? m.path ([] : List (Text × Nat)) = some prev → prev = i :=
    fun _ _ _ _ h => by cases h
  obtain ⟨news, hnews⟩ := exists_register_eq hd hknown
  rw [paths, hnews, List.nil_append]

/-- The paths that get known are those of the given modules. -/
theorem mem_paths_iff (hd : PathsDistinct w ids) {path : Text} {i : Nat} :
    (path, i) ∈ paths w ids ↔ ∃ m, Given w ids i m ∧ m.path = path := by
  constructor
  · intro h
    have hl := Text.lookup?_eq_some_of_mem nodup_paths h
    rw [lookup?_paths] at hl
    obtain ⟨hi, m, hm, hpath⟩ := of_firstAt hl
    exact ⟨m, ⟨hi, hm⟩, hpath⟩
  · rintro ⟨m, hm, rfl⟩
    refine Text.mem_of_lookup? ?_
    rw [lookup?_paths]
    cases hf : firstAt w m.path ids with
    | none => simpa [hm.2] using List.find?_eq_none.mp hf i hm.1
    | some j =>
      obtain ⟨hj, n, hn, hpath⟩ := of_firstAt hf
      rw [hd j n i m ⟨hj, hn⟩ hm hpath]

/-- **Registering in another order** makes the same paths known. -/
theorem paths_perm (hd : PathsDistinct w ids) (hp : ids.Perm ids') :
    (paths w ids).Perm (paths w ids') := by
  have hd' : PathsDistinct w ids' := fun i m j n hi hj =>
    hd i m j n ((given_perm hp).mp hi) ((given_perm hp).mp hj)
  refine (List.perm_ext_iff_of_nodup (List.Nodup.of_map _ nodup_paths)
    (List.Nodup.of_map _ nodup_paths)).mpr ?_
  rintro ⟨path, i⟩
  simp only [mem_paths_iff hd, mem_paths_iff hd', given_perm hp]

/-- And finds the same errors. -/
theorem register_errors_perm (hd : PathsDistinct w ids) (hp : ids.Perm ids') :
    (register w [] ids).2.Perm (register w [] ids').2 := by
  have hd' : PathsDistinct w ids' := fun i m j n hi hj =>
    hd i m j n ((given_perm hp).mp hi) ((given_perm hp).mp hj)
  rw [register_errors_eq hd, register_errors_eq hd']
  exact (paths_perm hd hp).flatMap_right _

theorem order_eq_of_perm (hd : PathsDistinct w ids) (hp : ids.Perm ids') :
    order w ids = order w ids' := by
  rw [order, order, Text.sortByKey_eq_of_perm nodup_paths (paths_perm hd hp)]

/-! ## The later steps -/

section Known

variable {known known' : List (Text × Nat)}
  (hlookup : ∀ path, Text.lookup? path known = Text.lookup? path known')

include hlookup in
/-- Binding imports asks for paths and for nothing else that is known. -/
theorem bindImports_congr {module : Text} {aliases : List (Text × Text)} {is : List Import} :
    bindImports module known aliases is = bindImports module known' aliases is := by
  induction is generalizing aliases with
  | nil => rfl
  | cons i is ih => simp only [bindImports, ih, hlookup]

include hlookup in
theorem bindAllImports_congr : bindAllImports w known ids = bindAllImports w known' ids := by
  simp only [bindAllImports, bindImports_congr hlookup]

end Known

/-- Once registering has found no error, linking depends on what the
paths stand for and on their order. -/
theorem resolve_eq_of_registered (hreg : (register w [] ids).2 = [])
    (hreg' : (register w [] ids').2 = [])
    (hlookup : ∀ path, Text.lookup? path (paths w ids) = Text.lookup? path (paths w ids'))
    (horder : order w ids = order w ids') : resolve w ids = resolve w ids' := by
  have himports : ∀ js, bindAllImports w (paths w ids) js = bindAllImports w (paths w ids') js :=
    fun _ => bindAllImports_congr hlookup
  simp only [paths, order] at himports horder
  simp only [resolve, resolveWith, hreg, hreg', himports, horder]

/-! ## Linking -/

/-- **Two ends of linking are the same**: one graph, or the same errors in
whatever order. -/
inductive SameEnd : Except LinkFailure ModuleGraph → Except LinkFailure ModuleGraph → Prop
  | graph (g : ModuleGraph) : SameEnd (.ok g) (.ok g)
  | errors {es es' : List CompileError} : es.Perm es' →
      SameEnd (.error (.errors es)) (.error (.errors es'))
  | unnamedReference : SameEnd (.error .unnamedReference) (.error .unnamedReference)

theorem SameEnd.refl (r : Except LinkFailure ModuleGraph) : SameEnd r r := by
  match r with
  | .ok g => exact .graph g
  | .error (.errors es) => exact .errors (List.Perm.refl es)
  | .error .unnamedReference => exact .unnamedReference

/-- **Linking does not depend on the order of its arguments.** Modules with
distinct paths, given in whatever order, are linked to the same graph
with the same bindings, or linking fails with the same errors. -/
theorem resolve_perm (hd : PathsDistinct w ids) (hp : ids.Perm ids') :
    (resolve w ids).1 = (resolve w ids').1 ∧ SameEnd (resolve w ids).2 (resolve w ids').2 := by
  have herrors := register_errors_perm hd hp
  by_cases hreg : (register w [] ids).2 = []
  · have hreg' : (register w [] ids').2 = [] := by
      rw [hreg] at herrors
      exact herrors.nil_eq.symm
    rw [resolve_eq_of_registered hreg hreg'
      (fun path => (Text.lookup?_perm nodup_paths (paths_perm hd hp)).symm) (order_eq_of_perm hd hp)]
    exact ⟨rfl, SameEnd.refl _⟩
  · have hreg' : (register w [] ids').2 ≠ [] := fun h => by
      rw [h] at herrors
      exact hreg herrors.eq_nil
    have hfail : ∀ {ids}, (register w [] ids).2 ≠ [] →
        resolve w ids = (w, .error (.errors (register w [] ids).2)) := by
      intro ids h
      have hne : (!(register w [] ids).2.isEmpty) = true := by simpa using h
      simp only [resolve, resolveWith, hne, if_true]
    rw [hfail hreg, hfail hreg']
    exact ⟨rfl, .errors herrors⟩

/-- The modules of the sample, in the other order. -/
theorem Sample.resolve_swapped :
    PathsDistinct Sample.modules [0, 1] ∧ [0, 1].Perm [1, 0] ∧
      (resolve Sample.modules [1, 0]).2 = .ok (graph Sample.modules [0, 1]) := by
  have hd : PathsDistinct Sample.modules [0, 1] :=
    (registered_iff.mp (passes_of_resolve Sample.resolve_modules).1.registered).1
  have hp : [0, 1].Perm [1, 0] := List.Perm.swap 1 0 []
  have hend := (resolve_perm hd hp).2
  rw [Sample.resolve_modules] at hend
  generalize (resolve Sample.modules [1, 0]).2 = r at hend
  cases hend
  exact ⟨hd, hp, rfl⟩

end WireModel
