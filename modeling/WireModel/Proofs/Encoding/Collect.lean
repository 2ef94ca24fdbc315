import WireModel.Encoding.Collect
import WireModel.Proofs.Decode.Presence
import WireModel.Proofs.Encoding.Announced

/-!
# Collecting failures — going into a declaration once is enough

The search for the failures of a rule goes into no declaration twice, also
when it comes to it on another way or on the way back to it. Still it misses
nothing (`Workspace.failures_collected`).

`Collects` says what the search does with the things there are to do: whatever
it goes into on the way is looked at to the end, in `entered`. For a
declaration that is passed over this was so, or will be so, from where it was
gone into; and the search as a whole starts with nothing, so then nothing is
left out.
-/

namespace WireModel

open Relation

/-! ## What is asked -/

/-- The failures of reading values of a kind, without those of their items. -/
def Kind.failures : Kind → List Failure
  | .bool | .string | .list | .map => [.typeMismatch]
  | .int | .float | .bigint | .decimal => [.typeMismatch, .malformedNumeric]
  | .bytes => [.typeMismatch, .malformedBytes]
  | _ => []

/-- A failure is one of a type's own: of the type, or of the items in it. -/
def TypeExpr.Contributes (t : TypeExpr) (k : Failure) : Prop :=
  ∃ p ∈ t.parts, ∃ kind, p.kind? = some kind ∧ k ∈ kind.failures

/-- A type leads to a declaration: the type, or an item in it, is a reference
to it. -/
def TypeExpr.LeadsTo (t : TypeExpr) (b : DeclId) : Prop := ∃ p ∈ t.parts, p.target? = some b

/-- **A failure is one of a declaration's own**, with no reference followed. -/
inductive Workspace.Contributes (w : Workspace) (d : Decl) : Failure → Prop
  /-- Structs and unions refuse values of another shape. -/
  | shape (h : d.kind = .struct ∨ d.kind = .union) : Contributes w d .typeMismatch
  /-- A struct asks for its required fields, taken over ones included. -/
  | field {f : Field} (h : d.kind = .struct) (hf : f ∈ w.allFields d) (hr : f.required = true) :
    Contributes w d .missingField
  /-- A union asks for its discriminator. -/
  | tag (h : d.kind = .union) : Contributes w d .missingField
  | variant (h : d.kind = .union) : Contributes w d .unknownVariant
  /-- And a member may fail with something of its own. -/
  | member {x : Text × TypeExpr} {k : Failure} (hx : x ∈ w.heldTypes d) (hk : x.2.Contributes k) :
    Contributes w d k

/-- A declaration refers to another one in a type that values of it hold. -/
def Workspace.Holds (w : Workspace) (a b : DeclId) : Prop :=
  ∃ d, w.decl? a = some d ∧ ∃ x ∈ w.heldTypes d, x.2.LeadsTo b

/-- Lists of failures in the order of the taxonomy are equal where they have the
same members. -/
theorem Failure.eq_of_mem_iff {p q : Failure → Bool}
    (h : ∀ k, k ∈ taxonomy.filter p ↔ k ∈ taxonomy.filter q) :
    taxonomy.filter p = taxonomy.filter q := by
  refine List.filter_congr fun k hk => ?_
  have hmem := h k
  rwa [List.mem_filter, List.mem_filter, and_iff_right hk, and_iff_right hk,
    ← Bool.eq_iff_iff] at hmem

/-! ## Things to do -/

namespace Collection.Task

/-- The failures of a thing to do, without those of the declaration it leads to. -/
def own : Task → List Failure
  | found ks => ks
  | rule r => r.ownFailures
  | decl _ => []

/-- The declaration that it leads to. -/
def start : Task → List DeclId
  | found _ => []
  | rule r => r.named?.toList
  | decl d => [d]

end Collection.Task

open Collection (Task)

/-! The things to do for a rule are about its own failures and the declaration
that it names, and those for the rule of a declaration are about the failures of
its own and the declarations that its members name. -/

namespace Rule

theorem flatMap_own_tasks (r : Rule) : r.tasks.flatMap Task.own = r.ownFailures := by
  cases r with
  | identity k width =>
    rw [tasks, ownFailures]
    split <;> rfl
  | _ => simp [tasks, ownFailures, Task.own]

theorem flatMap_start_tasks (r : Rule) : r.tasks.flatMap Task.start = r.named?.toList := by
  cases r with
  | identity k width =>
    rw [tasks]
    split <;> rfl
  | _ => simp [tasks, named?, decl?, Task.start]

end Rule

namespace FieldRule

theorem flatMap_own_tasks (f : FieldRule) : f.tasks.flatMap Task.own =
    (if f.field.required then [.missingField] else []) ++ f.rule.ownFailures := by
  rw [tasks]
  split <;> simp [Task.own]

theorem flatMap_start_tasks (f : FieldRule) :
    f.tasks.flatMap Task.start = f.rule.named?.toList := by
  rw [tasks]
  split <;> simp [Task.start]

end FieldRule

namespace DeclRule

theorem mem_own_tasks_iff {r : DeclRule} {k : Failure} :
    k ∈ r.tasks.flatMap Task.own ↔ k ∈ r.ownFailures := by
  cases r with
  | record fs =>
    simp only [tasks, ownFailures, memberRules, List.flatMap_cons, Task.own, List.flatMap_assoc,
      FieldRule.flatMap_own_tasks, List.flatMap_map, List.mem_append, List.mem_flatMap]
    grind
  | _ => simp [tasks, ownFailures, memberRules, Task.own, List.flatMap_map]

theorem flatMap_start_tasks (r : DeclRule) :
    r.tasks.flatMap Task.start = r.memberRules.filterMap Rule.named? := by
  rw [List.filterMap_eq_flatMap_toList]
  cases r with
  | record fs =>
    simp [tasks, memberRules, Task.start, List.flatMap_map, List.flatMap_assoc,
      FieldRule.flatMap_start_tasks]
  | _ => simp [tasks, memberRules, Task.start, List.flatMap_map]

end DeclRule

namespace Workspace

variable {w : Workspace}

/-! ## What a search finds -/

section Found

variable (w : Workspace)

/-- A declaration names another one by the rule of a member. -/
def Names (a b : DeclId) : Prop := b ∈ w.valueGraph.edges a

/-- A failure is one of those given, or one of a declaration's own that the
given declarations lead to. -/
def Announces (own : List Failure) (start : List DeclId) (k : Failure) : Prop :=
  k ∈ own ∨ ∃ a ∈ start, ∃ b, ReflTransGen w.Names a b ∧ k ∈ (w.ruleAt b).ownFailures

/-- **The search goes on until nothing is left to do**: failures, and
declarations to look at. -/
structure Collects (own : List Failure) (start : List DeclId) (c c' : Collection) : Prop where
  failures : c.failures ⊆ c'.failures
  seen : c.seen ⊆ c'.seen
  finds : own ⊆ c'.failures
  enters : start ⊆ c'.seen
  /-- What it has gone into is finished. -/
  entered : ∀ d ∈ c'.seen, d ∈ c.seen ∨
    (w.ruleAt d).ownFailures ⊆ c'.failures ∧ w.valueGraph.edges d ⊆ c'.seen
  /-- And what it has found is there to find. -/
  sound : ∀ k ∈ c'.failures, k ∈ c.failures ∨ w.Announces own start k

end Found

variable {own own' : List Failure} {start start' : List DeclId} {c c' : Collection} {d : DeclId}
  {k : Failure}

theorem Announces.mono (hown : own ⊆ own') (hstart : start ⊆ start')
    (h : w.Announces own start k) : w.Announces own' start' k :=
  h.imp (fun hk => hown hk) fun ⟨a, ha, h⟩ => ⟨a, hstart ha, h⟩

/-- Nothing is left to do. -/
theorem Collects.nothing : w.Collects [] [] c c where
  failures := List.Subset.refl _
  seen := List.Subset.refl _
  finds := List.nil_subset _
  enters := List.nil_subset _
  entered _ hd := Or.inl hd
  sound _ hk := Or.inl hk

/-- **Failures are noted** on the spot. -/
theorem Collects.add {ks : List Failure} (h : w.Collects own start (c.add ks) c') :
    w.Collects (ks ++ own) start c c' :=
  have hks : ks ++ c.failures ⊆ c'.failures := h.failures
  { h with
    failures := (List.append_subset.mp hks).2
    finds := List.append_subset.mpr ⟨(List.append_subset.mp hks).1, h.finds⟩
    sound := fun k hk => by
      rcases h.sound k hk with hk | hnew
      · exact (List.mem_append.mp hk).symm.imp_right fun hk => Or.inl (List.mem_append_left _ hk)
      · exact Or.inr (hnew.mono (List.subset_append_right _ _) (List.Subset.refl _)) }

/-- **A declaration is passed over** that the search has gone into. -/
theorem Collects.known (hd : d ∈ c.seen) (h : w.Collects own start c c') :
    w.Collects own (d :: start) c c' :=
  { h with
    enters := List.cons_subset.mpr ⟨h.seen hd, h.enters⟩
    sound := fun k hk => (h.sound k hk).imp_right fun hnew =>
      hnew.mono (List.Subset.refl _) (List.subset_cons_self _ _) }

/-- **The search goes into a declaration**, and then finds the failures of its
own and looks at its members. -/
theorem Collects.enter (h : w.Collects ((w.ruleAt d).ownFailures ++ own)
    (w.valueGraph.edges d ++ start) (c.enter d) c') : w.Collects own (d :: start) c c' where
  failures := h.failures
  seen := (List.cons_subset.mp h.seen).2
  finds := (List.append_subset.mp h.finds).2
  enters := List.cons_subset.mpr
    ⟨(List.cons_subset.mp h.seen).1, (List.append_subset.mp h.enters).2⟩
  entered x hx := by
    rcases h.entered x hx with hx | hdone
    · rcases List.mem_cons.mp hx with rfl | hx
      · exact Or.inr ⟨(List.append_subset.mp h.finds).1, (List.append_subset.mp h.enters).1⟩
      · exact Or.inl hx
    · exact Or.inr hdone
  sound k hk := by
    refine (h.sound k hk).imp_right fun hnew => ?_
    rcases hnew with hk | ⟨a, ha, b, hchain, hk⟩
    · rcases List.mem_append.mp hk with hk | hk
      · exact Or.inr ⟨d, List.mem_cons_self, d, .refl, hk⟩
      · exact Or.inl hk
    · rcases List.mem_append.mp ha with ha | ha
      · exact Or.inr ⟨d, List.mem_cons_self, b, .head ha hchain, hk⟩
      · exact Or.inr ⟨a, List.mem_cons_of_mem _ ha, b, hchain, hk⟩

/-- It does not matter in which order things are found, nor how often. -/
theorem Collects.congr (h : w.Collects own start c c') (hown : ∀ k, k ∈ own ↔ k ∈ own')
    (hstart : ∀ a, a ∈ start ↔ a ∈ start') : w.Collects own' start' c c' :=
  { h with
    finds := fun k hk => h.finds ((hown k).mpr hk)
    enters := fun a ha => h.enters ((hstart a).mpr ha)
    sound := fun k hk => (h.sound k hk).imp_right fun hnew =>
      hnew.mono (fun k hk => (hown k).mp hk) fun a ha => (hstart a).mp ha }

/-- **The search finds** what the things to do are about. -/
theorem collects_collect (c : Collection) (todo : List Task) :
    w.Collects (todo.flatMap Task.own) (todo.flatMap Task.start) c (w.collect c todo) := by
  fun_induction collect w c todo with
  | case1 c => exact Collects.nothing
  | case2 c ks rest ih => exact ih.add
  | case3 c r rest ih =>
    rw [List.flatMap_append, List.flatMap_append, r.flatMap_own_tasks, r.flatMap_start_tasks] at ih
    exact ih
  | case4 c d rest hd ih => exact ih.known hd
  | case5 c d rest hd ih =>
    refine Collects.enter (ih.congr (fun k => ?_) fun a => ?_)
    · rw [List.flatMap_append, List.mem_append, List.mem_append, DeclRule.mem_own_tasks_iff]
      exact Iff.rfl
    · rw [List.flatMap_append, DeclRule.flatMap_start_tasks]
      exact Iff.rfl

/-- **The search for a rule's failures finds everything**: what it has gone
into is all finished, as there was nothing before. -/
theorem mem_failures_collect_iff {r : Rule} :
    k ∈ (w.collect {} [.rule r]).failures ↔ w.Announces r.ownFailures r.named?.toList k := by
  have h : w.Collects r.ownFailures r.named?.toList {} (w.collect {} [.rule r]) := by
    simpa [Task.own, Task.start] using w.collects_collect {} [.rule r]
  constructor
  · exact fun hk => (h.sound k hk).resolve_left List.not_mem_nil
  rintro (hk | ⟨a, ha, b, hchain, hk⟩)
  · exact h.finds hk
  have hdone := fun d hd => (h.entered d hd).resolve_left List.not_mem_nil
  have hb : b ∈ (w.collect {} [.rule r]).seen := by
    clear hk
    induction hchain with
    | refl => exact h.enters ha
    | tail _ hs ih => exact (hdone _ ih).2 hs
  exact (hdone b hb).1 hk

/-! ## Types and their rules -/

/-- A declaration has values. -/
def Instantiable (w : Workspace) (b : DeclId) : Prop :=
  ∃ e, w.decl? b = some e ∧ e.isInstantiable = true

end Workspace

/-- The rule of a reference has no failures of its own. -/
theorem ownFailures_ofTarget {w : Workspace} {target : Option DeclId} :
    (Rule.ofTarget w target).ownFailures = [] := by
  rw [Rule.ofTarget.eq_def]
  repeat' split
  all_goals rfl

/-- It names what the reference leads to, if that has values. -/
theorem named?_ofTarget {w : Workspace} {target : Option DeclId} {b : DeclId} :
    (Rule.ofTarget w target).named? = some b ↔ target = some b ∧ w.Instantiable b := by
  cases target with
  | none => simp [Rule.ofTarget, Rule.named?, Rule.decl?]
  | some a =>
    rw [Rule.ofTarget, Option.some.injEq]
    cases he : w.decl? a with
    | none =>
      have hno : ¬ (a = b ∧ w.Instantiable b) := by
        rintro ⟨rfl, e, he', -⟩
        cases he.symm.trans he'
      simp [Rule.named?, Rule.decl?, hno]
    | some e =>
      have hinst : a = b ∧ w.Instantiable b ↔ a = b ∧ e.isInstantiable = true := by
        refine and_congr_right fun heq => ?_
        subst heq
        simp [Workspace.Instantiable, he]
      rw [hinst, Decl.isInstantiable]
      cases hb : e.body <;> simp [hb, Rule.named?, Rule.decl?]

namespace TypeExpr

variable {w : Workspace} {kind : Kind} {width : Int} {r : Option Ref} {t elem : TypeExpr}
  {k : Failure} {b : DeclId}

theorem contributes_node_iff : (node kind width r elem).Contributes k ↔
    k ∈ kind.failures ∨ (kind = .list ∨ kind = .map ∨ kind = .optional) ∧ elem.Contributes k := by
  rw [Contributes, parts, List.exists_mem_cons_iff]
  refine or_congr (by simp [kind?]) ?_
  split
  next h => simp [h, Contributes]
  next h => simp [h]

theorem leadsTo_node_iff : (node kind width r elem).LeadsTo b ↔
    (node kind width r elem).target? = some b ∨
      (kind = .list ∨ kind = .map ∨ kind = .optional) ∧ elem.LeadsTo b := by
  rw [LeadsTo, parts, List.exists_mem_cons_iff]
  refine or_congr Iff.rfl ?_
  split
  next h => simp [h, LeadsTo]
  next h => simp [h]

/-- **A rule's own failures** are those of its type. -/
theorem mem_ownFailures_iff : k ∈ (Rule.ofType w t).ownFailures ↔ t.Contributes k := by
  induction t with
  | missing => simp [Rule.ofType, Rule.ownFailures, Contributes, parts]
  | node kind width r elem ih =>
    rw [contributes_node_iff]
    cases kind <;> simp [Rule.ofType, Rule.ownFailures, Kind.failures, ownFailures_ofTarget, ih]

/-- **A rule names** what its type leads to, if that has values. -/
theorem named?_eq_some_iff :
    (Rule.ofType w t).named? = some b ↔ t.LeadsTo b ∧ w.Instantiable b := by
  induction t with
  | missing => simp [Rule.ofType, Rule.named?, Rule.decl?, LeadsTo, parts]
  | node kind width r elem ih =>
    rw [leadsTo_node_iff]
    cases kind with
    | ref =>
      rw [Rule.ofType, named?_ofTarget]
      cases r <;> simp [target?]
    | _ => simp [Rule.ofType, Rule.named?, Rule.decl?, target?, ih]

end TypeExpr

namespace Workspace

variable {w : Workspace} {a b : DeclId} {d : Decl} {k : Failure}

/-! ## Declarations and their rules -/

theorem instantiable_of_mem_heldTypes (hd : w.decl? a = some d) {x : Text × TypeExpr}
    (hx : x ∈ w.heldTypes d) : w.Instantiable a := by
  refine ⟨d, hd, ?_⟩
  rw [heldTypes] at hx
  rw [Decl.isInstantiable]
  cases hb : d.body <;> simp [hb] at hx ⊢

/-- What has failures of its own has values. -/
theorem Contributes.instantiable (h : w.Contributes d k) (hd : w.decl? a = some d) :
    w.Instantiable a := by
  have hkind : d.kind = .struct ∨ d.kind = .union → w.Instantiable a := by
    intro h
    refine ⟨d, hd, Decl.isInstantiable_iff.mpr ?_⟩
    tauto
  cases h with
  | shape h => exact hkind h
  | field h _ _ => exact hkind (Or.inl h)
  | tag h => exact hkind (Or.inr h)
  | variant h => exact hkind (Or.inr h)
  | member hx _ => exact instantiable_of_mem_heldTypes hd hx

/-- A declaration's own failures, with those of its members apart. -/
theorem contributes_iff : w.Contributes d k ↔
    (k = .typeMismatch ∧ (d.kind = .struct ∨ d.kind = .union) ∨
      k = .missingField ∧ (d.kind = .struct ∧ (∃ f ∈ w.allFields d, f.required = true) ∨
        d.kind = .union) ∨
      k = .unknownVariant ∧ d.kind = .union) ∨ ∃ x ∈ w.heldTypes d, x.2.Contributes k := by
  constructor
  · intro h
    cases h with
    | shape h => exact Or.inl (Or.inl ⟨rfl, h⟩)
    | field h hf hr => exact Or.inl (Or.inr (Or.inl ⟨rfl, Or.inl ⟨h, _, hf, hr⟩⟩))
    | tag h => exact Or.inl (Or.inr (Or.inl ⟨rfl, Or.inr h⟩))
    | variant h => exact Or.inl (Or.inr (Or.inr ⟨rfl, h⟩))
    | member hx hk => exact Or.inr ⟨_, hx, hk⟩
  · rintro ((⟨rfl, h⟩ | ⟨rfl, ⟨h, f, hf, hr⟩ | h⟩ | ⟨rfl, h⟩) | ⟨x, hx, hk⟩)
    · exact .shape h
    · exact .field h hf hr
    · exact .tag h
    · exact .variant h
    · exact .member hx hk

/-- **A declaration's own failures** are those of its rule. -/
theorem mem_ownFailures_declRule_iff : k ∈ (declRule w d).ownFailures ↔ w.Contributes d k := by
  have hmembers : k ∈ (declRule w d).memberRules.flatMap Rule.ownFailures ↔
      ∃ x ∈ w.heldTypes d, x.2.Contributes k := by
    simp only [memberRules_declRule, List.mem_flatMap, List.mem_map, exists_exists_and_eq_and,
      TypeExpr.mem_ownFailures_iff]
  rw [DeclRule.ownFailures.eq_def, List.mem_append, hmembers, contributes_iff]
  refine or_congr_left ?_
  cases hb : d.body <;> simp [declRule, hb, Decl.kind, Body.kind, and_comm]

/-- **A declaration names** what it refers to, if that has values. -/
theorem names_iff : w.Names a b ↔ w.Holds a b ∧ w.Instantiable b := by
  have hedges : w.Names a b ↔ ∃ r ∈ (w.ruleAt a).memberRules, r.named? = some b :=
    List.mem_filterMap
  rw [hedges, ruleAt]
  constructor
  · rintro ⟨r, hr, hnamed⟩
    cases hd : w.decl? a with
    | none => simp [hd, DeclRule.memberRules] at hr
    | some d =>
      rw [hd, memberRules_declRule] at hr
      obtain ⟨x, hx, rfl⟩ := List.mem_map.mp hr
      obtain ⟨hleads, hinst⟩ := TypeExpr.named?_eq_some_iff.mp hnamed
      exact ⟨⟨d, hd, x, hx, hleads⟩, hinst⟩
  · rintro ⟨⟨d, hd, x, hx, hleads⟩, hinst⟩
    rw [hd, memberRules_declRule]
    exact ⟨_, List.mem_map_of_mem hx, TypeExpr.named?_eq_some_iff.mpr ⟨hleads, hinst⟩⟩

/-- **Whatever leads to failures has values**, so each reference on the way is
named by a rule. -/
theorem reflTransGen_names (h : ReflTransGen w.Holds a b) (hd : w.decl? b = some d)
    (hk : w.Contributes d k) : w.Instantiable a ∧ ReflTransGen w.Names a b := by
  induction h using ReflTransGen.head_induction_on with
  | refl => exact ⟨hk.instantiable hd, .refl⟩
  | head hs _ ih =>
    obtain ⟨hinst, hchain⟩ := ih
    obtain ⟨e, he, x, hx, -⟩ := id hs
    exact ⟨instantiable_of_mem_heldTypes he hx, .head (names_iff.mpr ⟨hs, hinst⟩) hchain⟩

/-- **What a rule announces**, said of types and references. -/
theorem announces_iff {t : TypeExpr} :
    w.Announces (Rule.ofType w t).ownFailures (Rule.ofType w t).named?.toList k ↔
      t.Contributes k ∨ ∃ a b d, t.LeadsTo a ∧ ReflTransGen w.Holds a b ∧ w.decl? b = some d ∧
        w.Contributes d k := by
  refine or_congr TypeExpr.mem_ownFailures_iff ?_
  simp only [Option.mem_toList, TypeExpr.named?_eq_some_iff]
  constructor
  · rintro ⟨a, ⟨ha, -⟩, b, hchain, hk⟩
    cases hd : w.decl? b with
    | none => simp [ruleAt, hd, DeclRule.ownFailures, DeclRule.memberRules] at hk
    | some d =>
      rw [ruleAt, hd] at hk
      have hholds : ReflTransGen w.Holds a b := hchain.lift id fun _ _ h => (names_iff.mp h).1
      exact ⟨a, b, d, ha, hholds, hd, mem_ownFailures_declRule_iff.mp hk⟩
  · rintro ⟨a, b, d, ha, hholds, hd, hk⟩
    obtain ⟨hinst, hchain⟩ := reflTransGen_names hholds hd hk
    refine ⟨a, ⟨ha, hinst⟩, b, hchain, ?_⟩
    rw [ruleAt, hd]
    exact mem_ownFailures_declRule_iff.mpr hk

/-- What a rule announces is what the search finds. -/
theorem mem_ruleFailures_iff_announces {t : TypeExpr} : k ∈ w.ruleFailures (Rule.ofType w t) ↔
    w.Announces (Rule.ofType w t).ownFailures (Rule.ofType w t).named?.toList k := by
  have hnode : ∀ {a}, w.Instantiable a → a ∈ w.allIds :=
    fun ⟨_, he, _⟩ => ModuleGraph.mem_allIds_of_decl? (g := ⟨w, []⟩) he
  have hstep : ∀ {a b}, w.valueGraph.Step a b ↔ w.Names a b :=
    fun {a b} => and_iff_left_of_imp fun h => hnode (names_iff.mp h).2
  have hchain : w.valueGraph.Step = w.Names := funext fun a => funext fun b => propext hstep
  rw [ruleFailures, mem_failuresFrom_iff, hchain]
  refine or_congr_right (exists_congr fun a => and_congr_right fun ha => ?_)
  exact and_iff_right (hnode (TypeExpr.named?_eq_some_iff.mp (Option.mem_toList.mp ha)).2)

/-- **Failures are those of all declarations that are reached.** What the search
finds for the rule of a type, in whatever workspace, is what is announced for
the rule. The failures stand once and in the order of the taxonomy, and are the
type's own, and those of every declaration that it leads to through references
in fields, payloads and wrapped types. -/
theorem failures_collected (w : Workspace) (t : TypeExpr) :
    w.collectFailures (Rule.ofType w t) = w.ruleFailures (Rule.ofType w t) ∧
      (w.ruleFailures (Rule.ofType w t)).Sublist Failure.taxonomy ∧
      (w.ruleFailures (Rule.ofType w t)).Nodup ∧
      ∀ k, k ∈ w.ruleFailures (Rule.ofType w t) ↔ t.Contributes k ∨
        ∃ a b d, t.LeadsTo a ∧ ReflTransGen w.Holds a b ∧ w.decl? b = some d ∧
          w.Contributes d k := by
  have hfound : ∀ k, k ∈ w.collectFailures (Rule.ofType w t) ↔
      k ∈ w.ruleFailures (Rule.ofType w t) := by
    intro k
    rw [mem_ruleFailures_iff_announces, collectFailures, Collection.list, List.mem_filter,
      List.contains_iff_mem, mem_failures_collect_iff]
    exact and_iff_right (by cases k <;> decide)
  refine ⟨Failure.eq_of_mem_iff hfound, List.filter_sublist, List.Nodup.filter _ (by decide),
    fun k => ?_⟩
  rw [mem_ruleFailures_iff_announces, announces_iff]

end Workspace

end WireModel
