import WireModel.Proofs.Decode.Kinds
import WireModel.Proofs.Encoding.Announced

/-!
# Failures — which ones a deserializer gives

What a deserializer really fails with is compared with what is announced,
reader by reader: each reader fails as its rule announces, or hands on the
failure of a declaration that its rule names.

One way to fail is announced by no rule: a member that is held by pointer
refuses null. It goes unnoticed because wherever there is a record, a
union, a sequence or a scalar, values of another shape are refused, and
that is announced. What is left is a circle of nothing but newtypes, which
linking leaves if one of them wraps the next one as an optional. On such a
circle null is refused, and no failure is announced
(`failures_announced_iff`).
-/

namespace WireModel

open Relation Linking

/-! ## How readers of types fail -/

namespace ModuleGraph

/-- **A declaration comes to refuse null** though it announces nothing: it
hands null on, newtype by newtype, to one that wraps bare the next
newtype of a circle, and so holds it by pointer. -/
def LeadsToBox (g : ModuleGraph) (a : DeclId) : Prop :=
  ∃ c b, ReflTransGen (g.HandsOnValue .null) a c ∧ g.HandsOnValue .null c b ∧
    ReflTransGen g.HandsOn b c

/-- How a declaration may fail on a value: as it announces, or by refusing
null. -/
def MayFail (g : ModuleGraph) (a : DeclId) (v : Value) (k : Failure) : Prop :=
  k ∈ g.workspace.declFailures a ∨ v = .null ∧ k = .typeMismatch ∧ g.LeadsToBox a

/-- How a type may: as its rule announces, or by handing null on to a
declaration that refuses it. -/
def TypeMayFail (g : ModuleGraph) (t : TypeExpr) (v : Value) (k : Failure) : Prop :=
  k ∈ g.workspace.ruleFailures (Rule.ofType g.workspace t) ∨
    v = .null ∧ k = .typeMismatch ∧ ∃ b, t.target? = some b ∧ g.LeadsToBox b

/-- **What a sequence or mapping holds** fails in ways in which it may fail
itself: it announces what they announce, and that it refuses values of
another shape, be they null. -/
theorem TypeMayFail.of_elem {g : ModuleGraph} {t elem : TypeExpr} {u v : Value} {k : Failure}
    (hown : (Rule.ofType g.workspace t).ownFailures =
      .typeMismatch :: (Rule.ofType g.workspace elem).ownFailures)
    (hnamed : (Rule.ofType g.workspace t).named? = (Rule.ofType g.workspace elem).named?)
    (h : g.TypeMayFail elem u k) : g.TypeMayFail t v k := by
  refine Or.inl ?_
  rcases h with hk | ⟨-, rfl, -⟩
  · exact Rule.ruleFailures_subset (hown ▸ List.subset_cons_self ..) hnamed hk
  · exact Rule.mem_ruleFailures_of_own (hown ▸ List.mem_cons_self ..)

end ModuleGraph

section Readers

open Reading

variable {g : ModuleGraph} {f : DeclId → Value → Reading Datum}

/-- **The reader of a type fails as its rule announces**, if deserializers fail
as their declarations do. -/
theorem failsIn_ofType (hf : ∀ b u, (f b u).FailsIn (g.MayFail b u)) {t : TypeExpr}
    (ht : g.TypeOk t) (u : Value) :
    ((Reader.ofType g.workspace t).run f u).FailsIn (g.TypeMayFail t u) := by
  induction t generalizing u with
  | missing => exact failsIn_ok _
  | node k width r elem ih =>
    obtain ⟨hvalid, -, hopt, -, -⟩ := TypeExpr.defect?_eq_none_iff.mp ht.valid
    have hown : ∀ {t : TypeExpr} {k : Failure}, k ∈ (Rule.ofType g.workspace t).ownFailures →
        g.TypeMayFail t u k := fun h => Or.inl (Rule.mem_ruleFailures_of_own h)
    cases k with
    | bool => exact failsIn_map_some _ fun e he => hown (Value.failure_of_toBool he)
    | int => exact failsIn_map_some _ fun e he => hown (Value.failure_of_toInt he)
    | float => exact failsIn_map_some _ fun e he => hown (Value.failure_of_toFloat he)
    | string => exact failsIn_map_some _ fun e he => hown (Value.failure_of_toText he)
    | bigint => exact failsIn_map_some _ fun e he => hown (Value.failure_of_toBigint he)
    | decimal => exact failsIn_map_some _ fun e he => hown (Value.failure_of_toDecimal he)
    | bytes => exact failsIn_map_some _ fun e he => hown (Value.failure_of_toBytes he)
    | json => exact failsIn_ok _
    | list =>
      have hmismatch : g.TypeMayFail (.node .list width r elem) u .typeMismatch :=
        hown (List.mem_cons_self ..)
      have hitem : ∀ x, ((Reader.ofType g.workspace elem).run f x).FailsIn
          (g.TypeMayFail (.node .list width r elem) u) := fun x =>
        (ih (ht.elem (by simp)) x).mono fun _ h => h.of_elem rfl rfl
      rw [Reader.ofType]
      cases u with
      | list us => exact (Reader.failsIn_readList hitem 0 us).map _
      | _ =>
        intro e he
        cases he
        exact hmismatch
    | map =>
      have hmismatch : g.TypeMayFail (.node .map width r elem) u .typeMismatch :=
        hown (List.mem_cons_self ..)
      have hitem : ∀ x, ((Reader.ofType g.workspace elem).run f x).FailsIn
          (g.TypeMayFail (.node .map width r elem) u) := fun x =>
        (ih (ht.elem (by simp)) x).mono fun _ h => h.of_elem rfl rfl
      rw [Reader.ofType, Reader.run]
      have hobject : (Reading.lift u.toObject).FailsIn
          (g.TypeMayFail (.node .map width r elem) u) := by
        intro e he
        rw [Value.failure_of_toObject (Option.some.inj he)]
        exact hmismatch
      exact hobject.andThen fun es _ => (Reader.failsIn_readEntries hitem es).map _
    | optional =>
      by_cases hu : u = .null
      · subst hu
        rw [Reader.ofType]
        split <;> exact failsIn_ok _
      · -- null is not handed on, and only null is refused without being announced
        have hitem : ((Reader.ofType g.workspace elem).run f u).FailsIn
            (g.TypeMayFail (.node .optional width r elem) u) := by
          refine (ih (ht.elem (by simp)) u).mono ?_
          rintro k (hk | ⟨hnull, -⟩)
          · exact Or.inl (Rule.ruleFailures_subset (fun _ h => h) rfl hk)
          · exact absurd hnull hu
        rw [Reader.ofType]
        split
        · rw [Reader.run_nullable_of_ne hu]
          exact hitem.map _
        · rw [Reader.run_optional_of_ne hu]
          exact hitem.map _
    | ref =>
      obtain ⟨r', id, m, d, rfl, htarget, hd, hinst⟩ := ht.exists_target
      have hbare : (TypeExpr.node .ref width (some r') elem).target? = some id := htarget
      obtain ⟨hnamed, -⟩ := ofTarget_eq hd.2 hinst
      rw [Reader.ofType_of_target? hbare]
      refine (hf id u).mono ?_
      rintro k (hk | ⟨hu, hk, hbox⟩)
      · refine Or.inl (Workspace.mem_ruleFailures_iff.mpr (Or.inr ⟨id, ?_, hk⟩))
        rwa [Rule.ofType_of_target? hbare]
      · exact Or.inr ⟨hu, hk, id, hbare, hbox⟩
    | invalid => cases hvalid
    | unknown n => cases hvalid

end Readers

/-! ## How deserializers fail -/

namespace ModuleGraph

open Reading

variable {g : ModuleGraph} {id : DeclId} {m : LinkedModule} {d : Decl}

/-- The reader of a member: of a field, of the value of a newtype, or of the
payload of a variant, which is held by an interface already. -/
def memberReader (g : ModuleGraph) (m : LinkedModule) (id : DeclId) (d : Decl)
    (x : Text × TypeExpr) : Reader :=
  if d.kind = .union then Reader.ofType g.workspace x.2
  else Reader.ofMember g.workspace m id x.1 x.2

/-- How a member may fail: as its rule announces, or by refusing null on a
circle of newtypes, be it further on or the one of the member itself. -/
def MemberMayFail (g : ModuleGraph) (id : DeclId) (t : TypeExpr) (v : Value) (k : Failure) :
    Prop :=
  k ∈ g.workspace.ruleFailures (Rule.ofType g.workspace t) ∨
    v = .null ∧ k = .typeMismatch ∧ ∃ b, t.target? = some b ∧
      (g.LeadsToBox b ∨ g.HandsOn id b ∧ ReflTransGen g.HandsOn b id)

section Deserializers

variable {w : Workspace} {ids : List Nat} (hbases : BasesLinked w)
variable (hg : (resolve w ids).2 = .ok g) {f : DeclId → Value → Reading Datum}

include hbases hg in
/-- **A member that refuses null announces it**, or is on a circle of
newtypes. -/
theorem memberMayFail_of_isBoxed (hd : g.Declares id m d) {x : Text × TypeExpr}
    (hx : x ∈ g.workspace.heldTypes d)
    (hbox : Reader.isBoxed g.workspace m id x.1 x.2 = true) :
    g.MemberMayFail id x.2 .null .typeMismatch := by
  have hl := linked_of_resolve hbases hg
  rw [Reader.isBoxed, Bool.and_eq_true] at hbox
  obtain ⟨b, e, hbare, he, -⟩ := isBoxable_iff.mp hbox.1
  obtain ⟨t, b', ht, hb', hback⟩ := (isIndirect_iff hbases hg hd).mp hbox.2
  obtain rfl : t = x.2 := eq_of_mem_heldTypes hl hd ht hx
  obtain rfl : b' = b := Option.some.inj (hb'.symm.trans (TypeExpr.unwrap_of_target? hbare))
  have hnamed := (rule_of_unwrap (hl.typeOk hd _ hx) hb').1
  have hrule : .typeMismatch ∈ g.workspace.declFailures b' →
      g.MemberMayFail id x.2 .null .typeMismatch := fun hk =>
    Or.inl (Workspace.mem_ruleFailures_iff.mpr (Or.inr ⟨b', hnamed, hk⟩))
  rcases announced_or_handsOn hl hback with hk | hchain
  · exact hrule hk
  · cases hbody : d.body with
    | newtype t =>
      rw [Workspace.heldTypes, hbody] at hx
      obtain rfl := List.mem_singleton.mp hx
      exact Or.inr ⟨rfl, rfl, b', hbare, Or.inr ⟨⟨m, d, t, hd, hbody, hb'⟩, hchain⟩⟩
    | struct fs =>
      have hk := typeMismatch_mem_declFailures hd (Or.inl (by rw [Decl.kind, hbody]; rfl))
      exact hrule (mem_declFailures_of_chain hl hchain hk)
    | union vs tag payload =>
      have hk := typeMismatch_mem_declFailures hd (Or.inr (by rw [Decl.kind, hbody]; rfl))
      exact hrule (mem_declFailures_of_chain hl hchain hk)
    | _ => simp [Workspace.heldTypes, hbody] at hx

include hbases hg in
/-- **The reader of a member fails as its rule announces**, or refuses null on
a circle of newtypes. -/
theorem failsIn_memberReader (hf : ∀ b u, (f b u).FailsIn (g.MayFail b u))
    (hd : g.Declares id m d) {x : Text × TypeExpr} (hx : x ∈ g.workspace.heldTypes d)
    (u : Value) : ((g.memberReader m id d x).run f u).FailsIn (g.MemberMayFail id x.2 u) := by
  have hok := (linked_of_resolve hbases hg).typeOk hd _ hx
  have htype : ((Reader.ofType g.workspace x.2).run f u).FailsIn (g.MemberMayFail id x.2 u) := by
    refine (failsIn_ofType hf hok u).mono ?_
    rintro k (hk | ⟨hu, hk, b, hb, hbox⟩)
    · exact Or.inl hk
    · exact Or.inr ⟨hu, hk, b, hb, Or.inl hbox⟩
  rw [memberReader]
  split
  · exact htype
  · rw [Reader.ofMember]
    split
    · -- held by pointer, the member refuses null itself and hands on the rest
      rename_i hbox
      by_cases hu : u = .null
      · subst hu
        intro e he
        cases he
        exact memberMayFail_of_isBoxed hbases hg hd hx hbox
      · rw [Reader.run_boxed_of_ne hu]
        exact htype.map _
    · exact htype

include hbases hg in
/-- Where values of another shape are refused, members fail as announced. -/
theorem failsIn_memberReader_of_shape (hf : ∀ b u, (f b u).FailsIn (g.MayFail b u))
    (hd : g.Declares id m d) (hk : d.kind = .struct ∨ d.kind = .union) {x : Text × TypeExpr}
    (hx : x ∈ g.workspace.heldTypes d) (u : Value) :
    ((g.memberReader m id d x).run f u).FailsIn (· ∈ g.workspace.declFailures id) := by
  refine (failsIn_memberReader hbases hg hf hd hx u).mono ?_
  rintro k (hk | ⟨-, rfl, -⟩)
  · exact mem_declFailures_of_member hd hx hk
  · exact typeMismatch_mem_declFailures hd hk

include hbases hg in
/-- The fields of a record fail as it announces. -/
theorem failsIn_readFields (hf : ∀ b u, (f b u).FailsIn (g.MayFail b u))
    (hd : g.Declares id m d) {fs : List Field} (hb : d.body = .struct fs)
    (es : List (Text × Value)) {fs' : List Field} (hfs : fs' ⊆ g.workspace.allFields d) :
    (g.readFields f m id es fs').FailsIn (· ∈ g.workspace.declFailures id) := by
  have hstruct : d.kind = .struct := by rw [Decl.kind, hb]; rfl
  induction fs' with
  | nil => exact failsIn_ok _
  | cons x fs' ih =>
    have hmem : x ∈ g.workspace.allFields d := hfs (List.mem_cons_self ..)
    have hread : ∀ u, ((Reader.ofMember g.workspace m id x.name x.effectiveType).run f u).FailsIn
        (· ∈ g.workspace.declFailures id) := by
      intro u
      have h := failsIn_memberReader_of_shape hbases hg hf hd (Or.inl hstruct)
        (mem_heldTypes_of_field hb hmem) u
      rwa [memberReader, if_neg (by simp [hstruct])] at h
    have hmissing : x.required = true → .missingField ∈ g.workspace.declFailures id := by
      intro hreq
      refine Workspace.mem_declFailures_of_own hd.2 ?_
      have hany : ∃ y ∈ g.workspace.allFields d, y.required = true := ⟨x, hmem, hreq⟩
      simp [declRule, hb, DeclRule.ownFailures, List.any_map, hany]
    rw [readFields]
    refine FailsIn.andThen ?_ fun _ _ => (ih fun y hy => hfs (List.mem_cons_of_mem x hy)).map _
    split
    · exact Reader.failsIn_readRequired hread (hmissing ‹_›) es x.name
    · exact Reader.failsIn_readOptional hread _ es x.name

include hbases hg in
/-- The payload of a union fails as it announces. -/
theorem failsIn_readVariant (hf : ∀ b u, (f b u).FailsIn (g.MayFail b u))
    (hd : g.Declares id m d) (hk : d.kind = .union) (es : List (Text × Value)) (tag : Text) :
    (g.readVariant f id d es tag).FailsIn (· ∈ g.workspace.declFailures id) := by
  have hown : ∀ k ∈ [Failure.typeMismatch, .missingField, .unknownVariant],
      k ∈ g.workspace.declFailures id := by
    intro k hmem
    refine Workspace.mem_declFailures_of_own hd.2 ?_
    rw [Decl.kind] at hk
    rw [declRule]
    cases hb : d.body <;> simp [hb, Body.kind, DeclRule.ownFailures] at hk hmem ⊢
    tauto
  rw [readVariant]
  split
  · intro e he
    cases he
    exact hown _ (by simp [DecodeError.unknownVariant])
  · rename_i v hv
    split
    · exact failsIn_ok _
    · rename_i hvoid
      have hread : ∀ u, ((Reader.ofType g.workspace v.payload).run f u).FailsIn
          (· ∈ g.workspace.declFailures id) := by
        intro u
        have hx := mem_heldTypes_of_variant (w := g.workspace)
          (List.mem_of_find?_eq_some hv) (by simpa using hvoid)
        have h := failsIn_memberReader_of_shape hbases hg hf hd (Or.inr hk) hx u
        rwa [memberReader, if_pos hk] at h
      refine FailsIn.map ?_ _
      split
      · exact Reader.failsIn_readOptional hread _ es d.payloadKey
      · exact Reader.failsIn_readRequired hread (hown _ (by simp)) es d.payloadKey

include hbases hg in
/-- **A deserializer fails as its declaration announces**, or refuses null, if
the deserializers that it runs do so. -/
theorem failsIn_readBody (hf : ∀ b u, (f b u).FailsIn (g.MayFail b u))
    (hd : g.Declares id m d) (v : Value) : (g.readBody f m id d v).FailsIn (g.MayFail id v) := by
  have hobject : d.kind = .struct ∨ d.kind = .union →
      (Reading.lift v.toObject).FailsIn (· ∈ g.workspace.declFailures id) := by
    intro hk e he
    rw [Value.failure_of_toObject (Option.some.inj he)]
    exact typeMismatch_mem_declFailures hd hk
  rw [readBody]
  cases hb : d.body with
  | struct fs =>
    have hk : d.kind = .struct := by rw [Decl.kind, hb]; rfl
    refine FailsIn.mono (S := (· ∈ g.workspace.declFailures id)) ?_ fun _ h => Or.inl h
    exact (hobject (Or.inl hk)).andThen fun es _ =>
      (failsIn_readFields hbases hg hf hd hb es fun _ h => h).map _
  | union vs tag payload =>
    have hk : d.kind = .union := by rw [Decl.kind, hb]; rfl
    have hmismatch := typeMismatch_mem_declFailures hd (Or.inr hk)
    have hmissing : .missingField ∈ g.workspace.declFailures id :=
      Workspace.mem_declFailures_of_own hd.2 (by simp [declRule, hb, DeclRule.ownFailures])
    refine FailsIn.mono (S := (· ∈ g.workspace.declFailures id)) ?_ fun _ h => Or.inl h
    refine (hobject (Or.inr hk)).andThen fun es _ => FailsIn.andThen ?_ fun x _ => ?_
    · refine Reader.failsIn_readRequired (fun u => failsIn_map_some _ fun e he => ?_) hmissing es _
      rw [List.mem_singleton.mp (Value.failure_of_toText he)]
      exact hmismatch
    · cases x with
      | text name => exact failsIn_readVariant hbases hg hf hd hk es name
      | _ => exact failsIn_none
  | newtype t =>
    have hx := mem_heldTypes_of_newtype (w := g.workspace) hb
    have h := failsIn_memberReader hbases hg hf hd hx v
    rw [memberReader, if_neg (by simp [Decl.kind, hb, Body.kind])] at h
    refine FailsIn.map (h.mono ?_) _
    rintro k (hk | ⟨hv, hk, b, hbare, hbox⟩)
    · exact Or.inl (mem_declFailures_of_member hd hx hk)
    · have hands : g.HandsOnValue .null id b := ⟨m, d, t, hd, hb, Or.inl hbare⟩
      refine Or.inr ⟨hv, hk, ?_⟩
      -- the value leads to such a newtype, or this is the one
      rcases hbox with ⟨c, b', hchain, hnext, hback⟩ | ⟨-, hback⟩
      · exact ⟨c, b', .head hands hchain, hnext, hback⟩
      · exact ⟨id, b, .refl, hands, hback⟩
  | _ => exact failsIn_none

include hbases hg in
/-- **Deserializers fail as their declarations announce**, or refuse null. The
induction is on the depth to which they are run. -/
theorem failsIn_deserialize (id : DeclId) (v : Value) :
    (g.deserialize id v).FailsIn (g.MayFail id v) := by
  have hdepth : ∀ n id v, (g.readDecl n id v).FailsIn (g.MayFail id v) := by
    intro n
    induction n with
    | zero => exact fun _ _ => failsIn_none
    | succ n ih =>
      intro id v
      rw [readDecl]
      split
      · exact (failsIn_readBody hbases hg ih ⟨‹_›, ‹_›⟩ v).inDecl _
      · exact failsIn_none
  exact hdepth _ id v

/-! ## Where null is refused -/

theorem LeadsToBox.leadsToCircle {a : DeclId} (h : g.LeadsToBox a) : g.LeadsToCircle a := by
  obtain ⟨c, b, hac, hcb, hbc⟩ := h
  exact ⟨c, hac.lift id fun _ _ => handsOn_of_null, .head' (handsOn_of_null hcb) hbc⟩

include hbases hg in
/-- **A member on a circle of newtypes refuses null.** -/
theorem isBoxed_of_circle {a b : DeclId} {t : TypeExpr} (hd : g.Declares a m d)
    (hb : d.body = .newtype t) (hbare : t.target? = some b) (hback : ReflTransGen g.HandsOn b a) :
    Reader.isBoxed g.workspace m a [] t = true := by
  rw [Reader.isBoxed, Bool.and_eq_true]
  constructor
  · -- what is on the circle is a newtype
    obtain ⟨c, ⟨n, e, s, he, hs, -⟩, -⟩ : ∃ c, g.HandsOn b c ∧ ReflTransGen g.HandsOn c a := by
      have hands : g.HandsOn a b := ⟨m, d, t, hd, hb, TypeExpr.unwrap_of_target? hbare⟩
      rcases ReflTransGen.cases_head hback with rfl | hnext
      · exact ⟨b, hands, .refl⟩
      · exact hnext
    exact isBoxable_iff.mpr ⟨b, e, hbare, he.2, Or.inr (by rw [Decl.kind, hs]; rfl)⟩
  · exact (isIndirect_iff hbases hg hd).mpr ⟨t, b, mem_heldTypes_of_newtype hb,
      TypeExpr.unwrap_of_target? hbare, hback.lift id fun _ _ => embeds_of_handsOn⟩

include hbases hg in
/-- **What leads to such a member refuses null**, with a mismatch. -/
theorem exists_error_of_leadsToBox {a : DeclId} (h : g.LeadsToBox a) :
    ∃ e, g.deserialize a .null = some (.error e) ∧ e.failure = .typeMismatch := by
  obtain ⟨c, b, hac, hcb, hbc⟩ := h
  -- where the value of a newtype is refused, the newtype is
  have hwrap : ∀ {a b}, g.HandsOnValue .null a b → (∀ m d t, g.Declares a m d →
      d.body = .newtype t → t.target? = some b →
      ∃ e, (Reader.ofMember g.workspace m a [] t).run g.deserialize .null = some (.error e) ∧
        e.failure = .typeMismatch) →
      ∃ e, g.deserialize a .null = some (.error e) ∧ e.failure = .typeMismatch := by
    rintro a b ⟨m, d, t, hd, hb, ht⟩ h
    obtain ⟨e, he, hk⟩ := h m d t hd hb (ht.resolve_right fun h => h.1 rfl)
    refine ⟨e.inDecl d.name, ?_, ?_⟩
    · rw [deserialize_eq hd.1 hd.2, readBody, hb]
      simp only [he]
      rfl
    · rw [DecodeError.inDecl]
      split <;> exact hk
  induction hac using ReflTransGen.head_induction_on with
  | refl =>
    refine hwrap hcb fun m d t hd hb hbare => ⟨.mismatch "value" .null, ?_, rfl⟩
    rw [Reader.ofMember, if_pos (isBoxed_of_circle hbases hg hd hb hbare hbc)]
    rfl
  | head hs _ ih =>
    refine hwrap hs fun m d t hd hb hbare => ?_
    rw [Reader.ofMember, Reader.ofType_of_target? hbare]
    split
    · exact ⟨.mismatch "value" .null, rfl, rfl⟩
    · exact ih

include hbases hg in
/-- **So does a member that is a reference to it**, and one on the circle. -/
theorem exists_error_of_memberReader (hd : g.Declares id m d) {x : Text × TypeExpr}
    (hx : x ∈ g.workspace.heldTypes d) {b : DeclId} (hbare : x.2.target? = some b)
    (h : g.LeadsToBox b ∨ g.HandsOn id b ∧ ReflTransGen g.HandsOn b id) :
    ∃ e, (g.memberReader m id d x).run g.deserialize .null = some (.error e) := by
  rcases h with hbox | ⟨⟨m', d', t, hd', hb, ht⟩, hback⟩
  · obtain ⟨e, he, -⟩ := exists_error_of_leadsToBox hbases hg hbox
    rw [memberReader, Reader.ofMember, Reader.ofType_of_target? hbare]
    split
    · exact ⟨e, he⟩
    · split
      · exact ⟨.mismatch "value" .null, rfl⟩
      · exact ⟨e, he⟩
  · obtain ⟨rfl, rfl⟩ := hd.unique hd'
    rw [Workspace.heldTypes, hb] at hx
    obtain rfl := List.mem_singleton.mp hx
    refine ⟨.mismatch "value" .null, ?_⟩
    rw [memberReader, if_neg (by simp [Decl.kind, hb, Body.kind]), Reader.ofMember,
      if_pos (isBoxed_of_circle hbases hg hd hb hbare hback)]
    rfl

end Deserializers

/-- **Which failures are not announced.** In a graph that linking gives:

* a deserializer fails in a way that is not announced for its declaration
  exactly on null, and only if the declaration hands null on to a newtype
  that wraps bare the next one of a circle of newtypes;
* the reader of a member fails in a way that is not announced for its type
  exactly on null, and only if its type is a bare reference that leads to
  such a newtype, or the member is the value of one. -/
theorem failures_announced_iff {g : ModuleGraph} {w : Workspace} {ids : List Nat}
    (hbases : BasesLinked w) (hg : (resolve w ids).2 = .ok g) :
    (∀ id v, (∃ e, g.deserialize id v = some (.error e) ∧
        e.failure ∉ g.workspace.declFailures id) ↔ v = .null ∧ g.LeadsToBox id) ∧
      ∀ id m d, g.Declares id m d → ∀ x ∈ g.workspace.heldTypes d, ∀ v,
        ((∃ e, (g.memberReader m id d x).run g.deserialize v = some (.error e) ∧
            e.failure ∉ g.workspace.ruleFailures (Rule.ofType g.workspace x.2)) ↔
          v = .null ∧ ∃ b, x.2.target? = some b ∧
            (g.LeadsToBox b ∨ g.HandsOn id b ∧ ReflTransGen g.HandsOn b id)) := by
  have hl := linked_of_resolve hbases hg
  refine ⟨fun id v => ⟨?_, ?_⟩, fun id m d hd x hx v => ⟨?_, ?_⟩⟩
  · rintro ⟨e, he, hno⟩
    obtain ⟨hv, -, hbox⟩ := (failsIn_deserialize hbases hg id v e he).resolve_left hno
    exact ⟨hv, hbox⟩
  · rintro ⟨rfl, hbox⟩
    obtain ⟨e, he, -⟩ := exists_error_of_leadsToBox hbases hg hbox
    refine ⟨e, he, ?_⟩
    rw [declFailures_eq_nil_of_circle hl hbox.leadsToCircle]
    exact List.not_mem_nil
  · rintro ⟨e, he, hno⟩
    obtain ⟨hv, -, hb⟩ := (failsIn_memberReader hbases hg (failsIn_deserialize hbases hg) hd hx v
      e he).resolve_left hno
    exact ⟨hv, hb⟩
  · rintro ⟨rfl, b, hbare, hbox⟩
    obtain ⟨e, he⟩ := exists_error_of_memberReader hbases hg hd hx hbare hbox
    refine ⟨e, he, ?_⟩
    have hcircle : g.LeadsToCircle b := by
      rcases hbox with hbox | ⟨hands, hback⟩
      · exact hbox.leadsToCircle
      · exact ⟨id, hback, .head' hands hback⟩
    rw [ruleFailures_eq_nil_of_circle hl (hl.typeOk hd _ hx) hbare hcircle]
    exact List.not_mem_nil

end ModuleGraph

namespace Sample

/-- Two newtypes on a circle, one of which wraps the other one bare. -/
def nest : Workspace :=
  [{ name := "nest", path := "nest",
     decls :=
       [{ name := "Outer", body := .newtype (.ref [] "Inner") },
         { name := "Inner", body := .newtype (.optional (.ref [] "Outer")) }] }]

theorem basesLinked_nest : BasesLinked nest := by
  unfold BasesLinked
  decide

theorem resolve_nest : (resolve nest [0]).2 = .ok (graph nest [0]) :=
  resolve_eq_graph (by decide +kernel)

/-- The newtypes once they are linked. -/
def outer : Decl :=
  { name := "Outer", body := .newtype (.node .ref 0 (some ⟨[], "Inner", some ⟨0, 1⟩⟩) .missing) }

def inner : Decl :=
  { name := "Inner"
    body := .newtype (.optional (.node .ref 0 (some ⟨[], "Outer", some ⟨0, 0⟩⟩) .missing)) }

theorem exists_declares_outer : ∃ m, (graph nest [0]).Declares ⟨0, 0⟩ m outer :=
  exists_declares_of_bound (passes_of_resolve resolve_nest).1 ⟨by simp, rfl⟩ rfl

theorem exists_declares_inner : ∃ m, (graph nest [0]).Declares ⟨0, 1⟩ m inner :=
  exists_declares_of_bound (passes_of_resolve resolve_nest).1 ⟨by simp, rfl⟩ rfl

/-- The outer one hands null on, and the inner one keeps it. -/
theorem leadsToBox_outer : (graph nest [0]).LeadsToBox ⟨0, 0⟩ := by
  obtain ⟨m, hm⟩ := exists_declares_outer
  obtain ⟨n, hn⟩ := exists_declares_inner
  exact ⟨⟨0, 0⟩, ⟨0, 1⟩, .refl, ⟨m, outer, _, hm, rfl, Or.inl rfl⟩,
    .single ⟨n, inner, _, hn, rfl, rfl⟩⟩

theorem not_leadsToBox_inner : ¬ (graph nest [0]).LeadsToBox ⟨0, 1⟩ := by
  obtain ⟨n, hn⟩ := exists_declares_inner
  have hkeeps : ∀ b, ¬ (graph nest [0]).HandsOnValue .null ⟨0, 1⟩ b := by
    rintro b ⟨m, d, t, hd, hb, ht⟩
    obtain ⟨rfl, rfl⟩ := hn.unique hd
    obtain rfl := Body.newtype.inj hb
    rcases ht with ht | ⟨hnull, -⟩
    · cases ht
    · exact hnull rfl
  rintro ⟨c, b, hchain, hcb, -⟩
  rcases ReflTransGen.cases_head hchain with rfl | ⟨b', hnext, -⟩
  · exact hkeeps b hcb
  · exact hkeeps b' hnext

/-- The inner one fails as announced on every value, and the outer one not on
null. -/
theorem nest_announces : BasesLinked nest ∧ (resolve nest [0]).2 = .ok (graph nest [0]) ∧
    (∃ e, (graph nest [0]).deserialize ⟨0, 0⟩ .null = some (.error e) ∧
      e.failure ∉ (graph nest [0]).workspace.declFailures ⟨0, 0⟩) ∧
    ∀ v e, (graph nest [0]).deserialize ⟨0, 1⟩ v = some (.error e) →
      e.failure ∈ (graph nest [0]).workspace.declFailures ⟨0, 1⟩ := by
  obtain ⟨hdecl, -⟩ := ModuleGraph.failures_announced_iff basesLinked_nest resolve_nest
  refine ⟨basesLinked_nest, resolve_nest, (hdecl _ _).mpr ⟨rfl, leadsToBox_outer⟩, ?_⟩
  intro v e he
  by_contra hno
  exact not_leadsToBox_inner ((hdecl _ _).mp ⟨e, he, hno⟩).2

/-- **A deserializer of a linked graph may fail unannounced.** The outer newtype
refuses null with a mismatch, and announces no failures. -/
theorem outer_fails_unannounced : (resolve nest [0]).2 = .ok (graph nest [0]) ∧
    (∃ m, (graph nest [0]).Declares ⟨0, 0⟩ m outer) ∧
    (∃ e, (graph nest [0]).deserialize ⟨0, 0⟩ .null = some (.error e) ∧
      e.failure = .typeMismatch) ∧
    (graph nest [0]).workspace.declFailures ⟨0, 0⟩ = [] :=
  ⟨resolve_nest, exists_declares_outer,
    ModuleGraph.exists_error_of_leadsToBox basesLinked_nest resolve_nest leadsToBox_outer,
    ModuleGraph.declFailures_eq_nil_of_circle
      (linked_of_resolve basesLinked_nest resolve_nest) leadsToBox_outer.leadsToCircle⟩

end Sample

end WireModel
