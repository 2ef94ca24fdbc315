import WireModel.Link.Session
import WireModel.Proofs.Link.Unlinked
import WireModel.Proofs.Spec.Index

/-!
# History — linking does not depend on what was done before

The modules of a session are changed, looked into and linked in any
order. What this leaves in them beside what is written are bindings and
name indexes, and two facts about these survive every call: an index is
up to date, and nothing but linking writes a base (`Module.Sound`,
`Workspace.Sound.perform`). By the first, looking a name up is scanning
the declarations, so linking in a session is linking (`resolveIndexed_same`);
by the second, linking reads what is written (`resolve_same`). So after
any calls it gives what it gives on unlinked copies
(`resolve_after_calls`).
-/

namespace WireModel

open Linking

/-! ## Ways to find declarations -/

section Find

variable {find find' : Module → Text → Option Nat} {S : Nat → Prop} {W : Workspace}
  (hfind : ∀ i m, S i → W[i]? = some m → find m = find' m)
  (hin : ∀ i m, S i → W[i]? = some m → ∀ x ∈ m.imports, ∀ j, x.bound = some j → S j)

include hfind hin in
/-- A declaration is bound the same if names are found the same in the
modules that it looks into. -/
theorem bindDeclBy_congr {i : Nat} {m : Module} (hi : S i) (hm : W[i]? = some m) (d : Decl) :
    bindDeclBy find W m i d = bindDeclBy find' W m i d := by
  have hbase : bindBaseBy find W m i d = bindBaseBy find' W m i d := by
    rw [bindBaseBy, bindBaseBy, hfind i m hi hm]
  have htarget : ∀ field, findTargetBy find W m i d.name field =
      findTargetBy find' W m i d.name field := fun field => funext fun r => by
    rw [findTargetBy, findTargetBy]
    cases hs : scopeOf m i r with
    | none => rfl
    | some scope =>
      have hscope := scopeOf_mem hi (hin i m hi hm) hs
      cases hn : W[scope]? with
      | none => simp only [Option.bind_none, hn]
      | some n => simp only [Option.bind_some, hn, hfind scope n hscope hn]
  simp only [bindDeclBy, hbase, htarget]

include hfind hin in
/-- **Binding the references of modules** asks for names in these modules
and in those that they import. -/
theorem bindAllRefsBy_congr {ids : List Nat} (hids : ∀ i ∈ ids, S i) :
    bindAllRefsBy find W ids = bindAllRefsBy find' W ids := by
  have hbound : ids.filterMap (fun i => (W[i]?).map fun m =>
        (i, m.decls.map (bindDeclBy find W m i))) =
      ids.filterMap fun i => (W[i]?).map fun m => (i, m.decls.map (bindDeclBy find' W m i)) := by
    refine List.filterMap_congr fun i hi => ?_
    cases hm : W[i]? with
    | none => rw [Option.map_none, Option.map_none]
    | some m =>
      have hdecls : bindDeclBy find W m i = bindDeclBy find' W m i :=
        funext (bindDeclBy_congr hfind hin (hids i hi) hm)
      exact congrArg (fun bind => some (i, m.decls.map bind)) hdecls
  simp only [bindAllRefsBy, hbound]

end Find

/-! ## Indexes -/

theorem Module.findByIndex_eq {m : Module} (h : m.IndexOk) : m.findByIndex = m.find? :=
  funext fun name => Module.lookup_eq_find? h name

/-- Building indexes changes nothing else. -/
theorem buildIndexes_agreesOn {S : Nat → Prop} {w : Workspace} {ids : List Nat} :
    (buildIndexes w ids).AgreesOn S w := by
  intro i _
  induction ids generalizing w with
  | nil => rfl
  | cons j ids ih =>
    have hcons : buildIndexes w (j :: ids) = buildIndexes (w.update j Module.indexed) ids := rfl
    rw [hcons, ih, Workspace.getElem?_update]
    split
    · rw [Option.map_map]
      rfl
    · rfl

/-- **Linking by up-to-date indexes is linking.** -/
theorem resolveIndexed_same {w : Workspace} {ids : List Nat}
    (hindex : ∀ i m, Given w ids i m → m.IndexOk) (hbases : ∀ i m, Given w ids i m → m.BasesLinked) :
    SameResult (resolveIndexed w ids).2 (resolve w ids).2 := by
  rw [resolveIndexed, resolve, resolveWith_eq, resolveWith_eq]
  split
  · exact .failure _
  next hreg =>
  have hreg : (register w [] ids).2 = [] := by simpa using hreg
  split
  · exact .failure _
  next himp =>
  have himp : (bindAllImports w (paths w ids) (order w ids)).2 = [] := by simpa using himp
  split
  · exact .failure _
  split
  · exact .failure _
  have hbind : bindAllRefsBy Module.findByIndex (withImports w ids) (order w ids) =
      bindAllRefs (withImports w ids) (order w ids) := by
    refine bindAllRefsBy_congr (S := (· ∈ order w ids)) ?_ ?_ fun _ hi => hi
    · intro i n hi hn
      obtain ⟨m, hm⟩ := (mem_order_iff hreg).mp hi
      obtain rfl := Option.some.inj ((getElem?_withImports hreg hm).symm.trans hn)
      exact Module.findByIndex_eq ((hindex i m hm).of_names rfl rfl)
    · intro i n hi hn
      obtain ⟨m, hm⟩ := (mem_order_iff hreg).mp hi
      obtain rfl := Option.some.inj ((getElem?_withImports hreg hm).symm.trans hn)
      exact fun x hx j hj => mem_order_of_bound hreg himp hm hx hj
  simp only [bindAllRefsIndexed, hbind]
  split
  · exact .failure _
  next href =>
  have href : (bindAllRefs (withImports w ids) (order w ids)).2 = [] := by simpa using href
  have hclosed := closed_linked hreg himp href hbases
  exact (finish_same buildIndexes_agreesOn.symm hclosed fun _ hi => hi).symm

/-! ## What every call keeps -/

/-- **Two facts about what is not written**: the name index is up to date,
and nothing but linking writes a base. -/
structure Module.Sound (m : Module) : Prop where
  index : m.IndexOk
  bases : m.BasesLinked

/-- All modules are sound. -/
def Workspace.Sound (w : Workspace) : Prop := ∀ m ∈ w, m.Sound

/-- What is added by a call was not linked: a declaration that extends
nothing has no base. -/
def Call.Plain : Call → Prop
  | .add _ ds => ∀ d ∈ ds, d.extend = [] → d.base = none
  | _ => True

namespace Module.Sound

variable {m : Module}

theorem add (h : m.Sound) {ds : List Decl} (hds : ∀ d ∈ ds, d.extend = [] → d.base = none) :
    (m.add ds).Sound where
  index := h.index.add ds
  bases := fun d hd => (List.mem_append.mp hd).elim (h.bases d) (hds d)

/-- Imports are not looked at. -/
theorem imports (h : m.Sound) (is : List Import) : Sound { m with imports := is } where
  index := h.index.of_names rfl rfl
  bases := h.bases

theorem lookup (h : m.Sound) (name : Text) : (m.lookup name).2.Sound where
  index := h.index.lookup name
  bases := h.bases

/-- Binding references keeps names, and writes a base only if there is a
name for it. -/
theorem bindDecls (h : m.Sound) (W : Workspace) (i : Nat) :
    Sound { m with decls := m.decls.map fun d => (bindDecl W m i d).1 } where
  index := by
    refine h.index.of_names rfl ?_
    rw [List.map_map]
    rfl
  bases := by
    intro d hd hext
    obtain ⟨d₀, hd₀, rfl⟩ := List.mem_map.mp hd
    have hnil : d₀.extend = [] := hext
    rw [base_bindDecl_of_nil hnil]
    exact h.bases d₀ hd₀ hnil

end Module.Sound

namespace Workspace.Sound

variable {w : Workspace} {ids : List Nat}

theorem given (h : w.Sound) {i : Nat} {m : Module} (hm : Given w ids i m) : m.Sound :=
  h m (List.mem_of_getElem? hm.2)

/-- A change that keeps one module sound keeps the workspace sound. -/
theorem update (h : w.Sound) (i : Nat) {f : Module → Module}
    (hf : ∀ m : Module, m.Sound → (f m).Sound) : (w.update i f).Sound := by
  intro m hm
  obtain ⟨j, hj⟩ := List.mem_iff_getElem?.mp hm
  rw [getElem?_update] at hj
  split at hj
  · obtain ⟨m₀, hm₀, rfl⟩ := Option.map_eq_some_iff.mp hj
    exact hf m₀ (h m₀ (List.mem_of_getElem? hm₀))
  · exact h m (List.mem_of_getElem? hj)

theorem buildIndexes (h : w.Sound) (ids : List Nat) : (WireModel.buildIndexes w ids).Sound := by
  induction ids generalizing w with
  | nil => exact h
  | cons i ids ih => exact ih (h.update i fun m hm => hm.lookup [])

/-- **Linking keeps modules sound**, whether it succeeds or fails half
way. -/
theorem resolveIndexed (h : w.Sound) (ids : List Nat) :
    (WireModel.resolveIndexed w ids).1.Sound := by
  rcases resolveWith_workspace bindAllRefsIndexed w ids with heq | ⟨hreg, heq⟩
  · rw [WireModel.resolveIndexed, heq]
    exact h
  have himports : (withImports w ids).Sound :=
    forall_withImports h hreg fun m is hm => hm.imports is
  rcases heq with heq | heq
  · rw [WireModel.resolveIndexed, heq]
    exact himports
  · have hbind : bindAllRefsBy Module.findByIndex (withImports w ids) (order w ids) =
        bindAllRefs (withImports w ids) (order w ids) :=
      bindAllRefsBy_congr (S := fun _ => True)
        (fun i m _ hm => Module.findByIndex_eq (himports m (List.mem_of_getElem? hm)).index)
        (fun _ _ _ _ _ _ _ _ => trivial) fun _ _ => trivial
    rw [WireModel.resolveIndexed, heq, bindAllRefsIndexed, hbind]
    refine buildIndexes ?_ _
    exact forall_bindAllRefs himports (nodup_order hreg) fun m W i hm => hm.bindDecls W i

/-- **Every call keeps modules sound.** -/
theorem perform (h : w.Sound) {c : Call} (hc : c.Plain) : (w.perform c).Sound := by
  cases c with
  | add i ds => exact h.update i fun m hm => hm.add hc
  | addImport i ns path => exact h.update i fun m hm => hm.imports _
  | lookup i name => exact h.update i fun m hm => hm.lookup name
  | validate i => exact h
  | resolve ids => exact h.resolveIndexed ids

/-- **And so do calls one after the other.** -/
theorem performAll (h : w.Sound) {calls : List Call} (hcalls : ∀ c ∈ calls, c.Plain) :
    (w.performAll calls).Sound := by
  induction calls generalizing w with
  | nil => exact h
  | cons c calls ih =>
    obtain ⟨hc, hcalls⟩ := List.forall_mem_cons.mp hcalls
    exact ih (h.perform hc) hcalls

end Workspace.Sound

/-! ## Linking after calls -/

/-- An unlinked copy is sound. -/
theorem Module.sound_unlinked (m : Module) : m.unlinked.Sound where
  index := .of_none rfl
  bases := by
    intro d hd _
    obtain ⟨d₀, -, rfl⟩ := List.mem_map.mp hd
    rfl

/-- **Linking does not depend on what was done before.** After any calls on
sound modules, linking some of them gives the same graph with the same
bindings, or the same errors, as linking unlinked copies of these modules
with what is written in them now, whatever other modules there are beside
the copies. -/
theorem resolve_after_calls {w u : Workspace} {calls : List Call} {ids : List Nat}
    (hw : w.Sound) (hcalls : ∀ c ∈ calls, c.Plain)
    (hu : ∀ i ∈ ids, u[i]? = ((w.performAll calls)[i]?).map Module.unlinked) :
    SameResult (resolveIndexed (w.performAll calls) ids).2 (resolveIndexed u ids).2 := by
  have hsound : ∀ i m, Given (w.performAll calls) ids i m → m.Sound :=
    fun i m hm => (hw.performAll hcalls).given hm
  have hcopy : ∀ i m, Given u ids i m → m.Sound := by
    intro i m hm
    obtain ⟨m₀, -, rfl⟩ := Option.map_eq_some_iff.mp ((hu i hm.1).symm.trans hm.2)
    exact m₀.sound_unlinked
  have hsame : ∀ i ∈ ids, ((w.performAll calls)[i]?).map Module.unlinked =
      (u[i]?).map Module.unlinked := by
    intro i hi
    rw [hu i hi, Option.map_map]
    exact congrArg (Option.map · _) (funext fun m => Module.unlinked_unlinked.symm)
  have hw' := resolveIndexed_same (fun i m hm => (hsound i m hm).index)
    fun i m hm => (hsound i m hm).bases
  have hu' := resolveIndexed_same (fun i m hm => (hcopy i m hm).index)
    fun i m hm => (hcopy i m hm).bases
  have hwritten := resolve_same hsame (fun i m hm => (hsound i m hm).bases)
    fun i m hm => (hcopy i m hm).bases
  exact (hw'.trans hwritten).trans hu'.symm

namespace Sample

/-- A module of keys, which are of some type. -/
def keyModule (type : TypeExpr) : Module :=
  { name := "keys", path := "keys", decls := [{ name := "Key", body := .newtype type }] }

/-- A module that imports one of keys. -/
def doorModule : Module :=
  { name := "doors"
    path := "doors"
    imports := [{ ns := "keys", path := "keys" }]
    decls := [{ name := "Door", body := .struct [required "key" (.ref "keys" "Key")] }] }

/-- Doors, with two modules of keys that have the same path. -/
def house : Workspace := [keyModule (.int 64), doorModule, keyModule (.scalar .string)]

/-- The doors are linked with the second keys, a name is looked up, a
declaration is added, and linking fails because no keys are given. -/
def calls : List Call :=
  [.resolve [2, 1], .lookup 1 "Door",
    .add 1 [{ name := "Spare", body := .newtype (.ref "keys" "Key") }], .resolve [1], .validate 0]

/-- The modules after the calls. -/
def used : Workspace := house.performAll calls

/-- Unlinked copies of the doors and of the first keys. -/
def copies : Workspace := (used.take 2).map Module.unlinked

/-- The calls leave an import bound to the second keys, and yet the doors
are linked with the first ones as their copies are. -/
theorem used_resolve : house.Sound ∧ (∀ c ∈ calls, c.Plain) ∧
    (∀ i ∈ [0, 1], copies[i]? = (used[i]?).map Module.unlinked) ∧
    (used[1]?).map (fun m => m.imports.map (·.bound)) = some [some 2] ∧
    (resolveIndexed used [0, 1]).2.toBool = true ∧
    SameResult (resolveIndexed used [0, 1]).2 (resolveIndexed copies [0, 1]).2 := by
  have hsound : house.Sound := by
    have hfresh : ∀ m ∈ house, m.index = none ∧ ∀ d ∈ m.decls, d.base = none := by decide
    exact fun m hm => ⟨.of_none (hfresh m hm).1, fun d hd _ => (hfresh m hm).2 d hd⟩
  have hplain : ∀ c ∈ calls, c.Plain := by simp [calls, Call.Plain]
  have hcopies : ∀ i ∈ [0, 1], copies[i]? = (used[i]?).map Module.unlinked := by
    intro i hi
    have hlt : i < 2 := by simp at hi; omega
    simp [copies, hlt]
  exact ⟨hsound, hplain, hcopies, by cbv, by cbv, resolve_after_calls hsound hplain hcopies⟩

end Sample

end WireModel
