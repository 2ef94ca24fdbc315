import WireModel.Encoding.Failures
import WireModel.Proofs.Decode.Termination
import WireModel.Proofs.Link.Inline

/-!
# Announced failures

The failures announced for a declaration are those of all declarations that
are reached from it, by the rules of its members
(`Workspace.mem_declFailures_iff`). Records and unions announce that they
refuse values of another shape, and a newtype announces what the
declaration does that it hands its value on to. So newtypes that hand
their values on in a circle announce nothing
(`ModuleGraph.declFailures_eq_nil_of_circle`).
-/

namespace WireModel

open Relation Linking

/-! ## What is announced -/

namespace Workspace

variable {w : Workspace} {a b : DeclId} {r : Rule} {k : Failure}

/-- **The failures announced** are the given ones, and those of the
declarations that the given ones lead to. -/
theorem mem_failuresFrom_iff {own : List Failure} {start : List DeclId} :
    k ∈ w.failuresFrom own start ↔ k ∈ own ∨
      ∃ a ∈ start, a ∈ w.allIds ∧ ∃ b, ReflTransGen w.valueGraph.Step a b ∧
        k ∈ (w.ruleAt b).ownFailures := by
  have hall : k ∈ Failure.taxonomy := by cases k <;> decide
  have hreached : ∀ {b}, b ∈ w.valueGraph.closure [] start ↔
      ∃ a ∈ start, a ∈ w.allIds ∧ ReflTransGen w.valueGraph.Step a b := by
    intro b
    constructor
    · intro h
      rcases Digraph.closure_sound h with h | h
      · cases h
      · exact h
    · rintro ⟨a, ha, hn, hchain⟩
      induction hchain with
      | refl => exact Digraph.mem_closure_of_mem_todo ha hn
      | tail _ hs ih => exact Digraph.closure_closed (by simp) _ ih _ hs
  simp only [failuresFrom, List.mem_filter, hall, List.contains_iff_mem, List.mem_append,
    List.mem_flatMap, hreached, true_and]
  refine or_congr_right ?_
  constructor
  · rintro ⟨b, ⟨a, ha, hn, hchain⟩, hk⟩
    exact ⟨a, ha, hn, b, hchain, hk⟩
  · rintro ⟨a, ha, hn, b, hchain, hk⟩
    exact ⟨b, ⟨a, ha, hn, hchain⟩, hk⟩

theorem mem_declFailures_iff : k ∈ w.declFailures a ↔
    a ∈ w.allIds ∧ ∃ b, ReflTransGen w.valueGraph.Step a b ∧ k ∈ (w.ruleAt b).ownFailures := by
  rw [declFailures, mem_failuresFrom_iff]
  simp

/-- **What a rule announces** is what it can fail with itself, and what the
declaration announces that it names. -/
theorem mem_ruleFailures_iff :
    k ∈ w.ruleFailures r ↔
      k ∈ r.ownFailures ∨ ∃ b, r.named? = some b ∧ k ∈ w.declFailures b := by
  rw [ruleFailures, mem_failuresFrom_iff]
  simp only [Option.mem_toList, mem_declFailures_iff]

/-- **A declaration announces what its members do.** -/
theorem mem_declFailures_of_rule {d : Decl} (hd : w.decl? a = some d)
    (hr : r ∈ (declRule w d).memberRules) (hk : k ∈ w.ruleFailures r) : k ∈ w.declFailures a := by
  have ha : a ∈ w.allIds := ModuleGraph.mem_allIds_of_decl? (g := ⟨w, []⟩) hd
  have hrule : w.ruleAt a = declRule w d := by rw [ruleAt, hd]
  rcases mem_ruleFailures_iff.mp hk with hown | ⟨b, hb, hk⟩
  · refine mem_declFailures_iff.mpr ⟨ha, a, .refl, ?_⟩
    rw [hrule]
    unfold DeclRule.ownFailures
    exact List.mem_append_right _ (List.mem_flatMap.mpr ⟨r, hr, hown⟩)
  · obtain ⟨hb', c, hchain, hk⟩ := mem_declFailures_iff.mp hk
    have hedge : b ∈ (w.ruleAt a).memberRules.filterMap Rule.named? := by
      rw [hrule]
      exact List.mem_filterMap.mpr ⟨r, hr, hb⟩
    exact mem_declFailures_iff.mpr ⟨ha, c, .head ⟨hedge, hb'⟩ hchain, hk⟩

/-- And what it can fail with itself. -/
theorem mem_declFailures_of_own {d : Decl} (hd : w.decl? a = some d)
    (hk : k ∈ (declRule w d).ownFailures) : k ∈ w.declFailures a := by
  refine mem_declFailures_iff.mpr ⟨ModuleGraph.mem_allIds_of_decl? (g := ⟨w, []⟩) hd, a, .refl, ?_⟩
  rwa [ruleAt, hd]

end Workspace

namespace Rule

variable {w : Workspace} {k : Failure}

/-- The members of a rule are part of what it announces. -/
theorem ruleFailures_subset {r e : Rule} (hown : e.ownFailures ⊆ r.ownFailures)
    (hnamed : r.named? = e.named?) (hk : k ∈ w.ruleFailures e) : k ∈ w.ruleFailures r := by
  rw [Workspace.mem_ruleFailures_iff] at hk ⊢
  rw [hnamed]
  exact hk.imp_left fun h => hown h

theorem mem_ruleFailures_of_own {r : Rule} (hk : k ∈ r.ownFailures) : k ∈ w.ruleFailures r :=
  Workspace.mem_ruleFailures_iff.mpr (Or.inl hk)

end Rule

/-- What is bound to a declaration that has values names it, and fails as it
does. -/
theorem ofTarget_eq {w : Workspace} {b : DeclId} {e : Decl} (he : w.decl? b = some e)
    (hinst : e.isInstantiable = true) : (Rule.ofTarget w (some b)).named? = some b ∧
      (Rule.ofTarget w (some b)).ownFailures = [] := by
  rw [Rule.ofTarget, he]
  cases hb : e.body <;>
    simp [Decl.isInstantiable, hb, Rule.named?, Rule.decl?, Rule.ownFailures] at hinst ⊢

/-! ## Members and newtypes -/

/-- The rules of the members are those of the types that values hold. -/
theorem memberRules_declRule {w : Workspace} {d : Decl} :
    (declRule w d).memberRules = (w.heldTypes d).map fun x => Rule.ofType w x.2 := by
  rw [declRule, Workspace.heldTypes]
  cases hb : d.body with
  | struct fs => simp [DeclRule.memberRules]
  | union vs tag payload =>
    clear hb
    simp only [DeclRule.memberRules, List.filterMap_map, List.map_map]
    induction vs with
    | nil => rfl
    | cons v vs ih => cases hv : v.isVoid <;> simpa [hv] using ih
  | _ => simp [DeclRule.memberRules]

namespace ModuleGraph

variable {g : ModuleGraph} {id a b c : DeclId} {m : LinkedModule} {d : Decl} {k : Failure}

/-- What a member announces is announced. -/
theorem mem_declFailures_of_member (hd : g.Declares id m d) {x : Text × TypeExpr}
    (hx : x ∈ g.workspace.heldTypes d)
    (hk : k ∈ g.workspace.ruleFailures (Rule.ofType g.workspace x.2)) :
    k ∈ g.workspace.declFailures id := by
  refine Workspace.mem_declFailures_of_rule hd.2 ?_ hk
  rw [memberRules_declRule]
  exact List.mem_map_of_mem hx

theorem handsOn_of_null (h : g.HandsOnValue .null a b) : g.HandsOn a b := by
  obtain ⟨m, d, t, hd, hb, ht⟩ := h
  exact ⟨m, d, t, hd, hb, TypeExpr.unwrap_of_target? (ht.resolve_right fun h => h.1 rfl)⟩

theorem embeds_of_handsOn (h : g.HandsOn a b) : g.Embeds a b := by
  obtain ⟨m, d, t, hd, hb, ht⟩ := h
  exact ⟨m, d, hd, _, mem_heldTypes_of_newtype hb, ht⟩

/-- The rule of a reference, bare or as an optional, names what it leads to and
announces nothing of its own. -/
theorem rule_of_unwrap {t : TypeExpr} (ht : g.TypeOk t) (hb : t.unwrap.target? = some b) :
    (Rule.ofType g.workspace t).named? = some b ∧
      (Rule.ofType g.workspace t).ownFailures = [] := by
  obtain ⟨id, m, e, htarget, he, hinst⟩ :=
    ht.bound _ (TypeExpr.unwrap_mem_nodes hb) (TypeExpr.kind?_of_target? hb)
  obtain rfl : id = b := Option.some.inj (htarget.symm.trans hb)
  by_cases hopt : t.isOptional = true
  · cases t with
    | missing => cases hopt
    | node k width r elem =>
      obtain rfl : k = .optional := by simpa [TypeExpr.isOptional, TypeExpr.kind?] using hopt
      have helem : elem.target? = some id := hb
      rw [Rule.ofType, Rule.ofType_of_target? helem]
      exact ofTarget_eq he.2 hinst
  · rw [TypeExpr.unwrap_of_not_optional (by simpa using hopt)] at hb
    rw [Rule.ofType_of_target? hb]
    exact ofTarget_eq he.2 hinst

/-- **A newtype announces what it hands its value on to announces.** -/
theorem mem_declFailures_of_handsOn (hl : g.Linked) (h : g.HandsOn a b)
    (hk : k ∈ g.workspace.declFailures b) : k ∈ g.workspace.declFailures a := by
  obtain ⟨m, d, t, hd, hb, ht⟩ := h
  have hnamed := (rule_of_unwrap (hl.typeOk hd _ (mem_heldTypes_of_newtype hb)) ht).1
  refine Workspace.mem_declFailures_of_rule hd.2 (r := Rule.ofType g.workspace t) ?_ ?_
  · rw [declRule, hb]
    exact List.mem_singleton.mpr rfl
  · exact Workspace.mem_ruleFailures_iff.mpr (Or.inr ⟨b, hnamed, hk⟩)

theorem mem_declFailures_of_chain (hl : g.Linked) (h : ReflTransGen g.HandsOn a b)
    (hk : k ∈ g.workspace.declFailures b) : k ∈ g.workspace.declFailures a := by
  induction h using ReflTransGen.head_induction_on with
  | refl => exact hk
  | head hs _ ih => exact mem_declFailures_of_handsOn hl hs ih

/-- Records and unions announce that they refuse values of another shape. -/
theorem typeMismatch_mem_declFailures (hd : g.Declares a m d)
    (hk : d.kind = .struct ∨ d.kind = .union) :
    .typeMismatch ∈ g.workspace.declFailures a := by
  refine Workspace.mem_declFailures_of_own hd.2 ?_
  rw [Decl.kind] at hk
  rw [declRule]
  cases hb : d.body <;> simp [hb, Body.kind, DeclRule.ownFailures] at hk ⊢

/-- **A chain of embeddings is announced**, unless it is one of newtypes that
hand on their values. -/
theorem announced_or_handsOn (hl : g.Linked) (h : ReflTransGen g.Embeds b a) :
    .typeMismatch ∈ g.workspace.declFailures b ∨ ReflTransGen g.HandsOn b a := by
  induction h using ReflTransGen.head_induction_on with
  | refl => exact Or.inr .refl
  | @head b c hs _ ih =>
    obtain ⟨m, d, hd, x, hx, htarget⟩ := hs
    cases hb : d.body with
    | struct fs =>
      exact Or.inl (typeMismatch_mem_declFailures hd (Or.inl (by rw [Decl.kind, hb]; rfl)))
    | union vs tag payload =>
      exact Or.inl (typeMismatch_mem_declFailures hd (Or.inr (by rw [Decl.kind, hb]; rfl)))
    | newtype t =>
      rw [Workspace.heldTypes, hb] at hx
      obtain rfl := List.mem_singleton.mp hx
      have hands : g.HandsOn b c := ⟨m, d, t, hd, hb, htarget⟩
      exact ih.imp (mem_declFailures_of_handsOn hl hands) (.head hands)
    | _ => simp [Workspace.heldTypes, hb] at hx

/-! ## Circles of newtypes -/

/-- A declaration leads into a circle of newtypes. -/
def LeadsToCircle (g : ModuleGraph) (a : DeclId) : Prop :=
  ∃ c, ReflTransGen g.HandsOn a c ∧ TransGen g.HandsOn c c

/-- What leads into a circle hands its value on to what does too. -/
theorem LeadsToCircle.next (h : g.LeadsToCircle a) :
    ∃ b, g.HandsOn a b ∧ g.LeadsToCircle b := by
  obtain ⟨c, hac, hcc⟩ := h
  rcases ReflTransGen.cases_head hac with rfl | ⟨b, hab, hbc⟩
  · obtain ⟨b, hab, hba⟩ := TransGen.head'_iff.mp hcc
    exact ⟨b, hab, a, hba, hcc⟩
  · exact ⟨b, hab, c, hbc, hcc⟩

/-- **A newtype fails with nothing of its own**, and names only what it hands
its value on to. -/
theorem ruleAt_of_handsOn (hl : g.Linked) (h : g.HandsOn a b) :
    (g.workspace.ruleAt a).ownFailures = [] ∧
      (g.workspace.ruleAt a).memberRules.filterMap Rule.named? = [b] := by
  obtain ⟨m, d, t, hd, hb, ht⟩ := h
  obtain ⟨hnamed, hown⟩ := rule_of_unwrap (hl.typeOk hd _ (mem_heldTypes_of_newtype hb)) ht
  have hrule : g.workspace.ruleAt a = .transparent (Rule.ofType g.workspace t) := by
    rw [Workspace.ruleAt, hd.2]
    simp only [declRule, hb]
  rw [hrule]
  simp [DeclRule.ownFailures, DeclRule.memberRules, hnamed, hown]

/-- **What leads into a circle of newtypes announces nothing.** -/
theorem declFailures_eq_nil_of_circle (hl : g.Linked) (h : g.LeadsToCircle a) :
    g.workspace.declFailures a = [] := by
  refine List.eq_nil_iff_forall_not_mem.mpr fun k hk => ?_
  obtain ⟨-, b, hchain, hown⟩ := Workspace.mem_declFailures_iff.mp hk
  -- whatever is reached leads into the circle too, and fails with nothing of its own
  have hb : g.LeadsToCircle b := by
    clear hown
    induction hchain with
    | refl => exact h
    | tail _ hs ih =>
      obtain ⟨c, hands, hc⟩ := ih.next
      have hedge : _ ∈ (g.workspace.ruleAt _).memberRules.filterMap Rule.named? := hs.1
      rw [(ruleAt_of_handsOn hl hands).2, List.mem_singleton] at hedge
      exact hedge ▸ hc
  obtain ⟨c, hands, -⟩ := hb.next
  rw [(ruleAt_of_handsOn hl hands).1] at hown
  cases hown

/-- Nor is anything announced for a reference to it. -/
theorem ruleFailures_eq_nil_of_circle (hl : g.Linked) {t : TypeExpr} (ht : g.TypeOk t)
    (hbare : t.target? = some b) (h : g.LeadsToCircle b) :
    g.workspace.ruleFailures (Rule.ofType g.workspace t) = [] := by
  obtain ⟨hnamed, hown⟩ := rule_of_unwrap ht (TypeExpr.unwrap_of_target? hbare)
  refine List.eq_nil_iff_forall_not_mem.mpr fun k hk => ?_
  rcases Workspace.mem_ruleFailures_iff.mp hk with hk | ⟨c, hc, hk⟩
  · rw [hown] at hk
    cases hk
  · obtain rfl : b = c := Option.some.inj (hnamed.symm.trans hc)
    rw [declFailures_eq_nil_of_circle hl h] at hk
    cases hk

end ModuleGraph

end WireModel
