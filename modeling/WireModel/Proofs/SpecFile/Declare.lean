import Mathlib.Data.List.Flatten
import Mathlib.Data.List.Forall2
import Mathlib.Data.List.Nodup
import WireModel.SpecFile.Declare

/-!
# Declarations — where each of them comes from

Every declaration of a spec file has an origin: a model, or the inline
fields of a variant of an enum (`Origin`). The origins of a file in their
order are the declarations that it becomes in theirs
(`SpecFile.stems_of_declare`), and none stands twice
(`SpecFile.nodup_origins`), whatever the names are. So the place of a
declaration is the place of its origin.
-/

namespace WireModel

/-- **Where a declaration comes from**, by the place of the model in the
file and of the variant in the model. -/
inductive Origin where
  /-- A model. -/
  | model (a : Nat)
  /-- The inline fields of a variant. -/
  | payload (a k : Nat)
  deriving DecidableEq

/-- What a computation that may fail gives comes from each of its parts. -/
theorem Declared.of_bind {α β : Type} {x : Declared α} {f : α → Declared β} {b : β}
    (h : x >>= f = .ok b) : ∃ a, x = .ok a ∧ f a = .ok b := by
  cases x with
  | error e => cases h
  | ok a => exact ⟨a, rfl, h⟩

/-- Whether a variant is written with inline fields. -/
def VariantEntry.isInline (v : Option VariantEntry) : Bool := (v.bind (·.fields)).isSome

/-- The origins of a model: itself, and its variants with inline fields if
it is an enum. -/
def ModelEntry.origins (a : Nat) (m : ModelEntry) : List Origin :=
  .model a ::
    if m.type.name == "enum" then
      (m.type.variants.findIdxs VariantEntry.isInline).map (.payload a)
    else []

namespace SpecFile

/-- The origins of a file in their order. -/
def origins (f : SpecFile) : List Origin :=
  f.models.zipIdx.flatMap fun x => (x.1.map (ModelEntry.origins x.2)).getD []

/-- **What is written in a file**: its models, and the inline fields of the
variants of its enums. -/
def Writes (f : SpecFile) : Origin → Prop
  | .model a => ∃ e, f.models[a]? = some (some e)
  | .payload a k => ∃ e v fs, f.models[a]? = some (some e) ∧ e.type.name = "enum" ∧
      e.type.variants[k]? = some (some v) ∧ v.fields = some fs

/-- **A declaration stems from its origin**: it is what the model says, or a
struct of the inline fields in their order. -/
inductive Stems (f : SpecFile) : Origin → Decl → Prop
  | model {a : Nat} {e : ModelEntry} {body : Body} {more : List Decl}
    (he : f.models[a]? = some (some e)) (hbody : e.body = .ok (body, more)) :
    Stems f (.model a)
      { name := e.name, body, doc := e.doc, attributes := e.attributes
        extend := if e.type.name == "struct" then e.type.extend else [] }
  | payload {a k : Nat} {e : ModelEntry} {v : VariantEntry} {fs : List (Option FieldEntry)}
    {fields : List Field} (he : f.models[a]? = some (some e)) (henum : e.type.name = "enum")
    (hv : e.type.variants[k]? = some (some v)) (hfs : v.fields = some fs)
    (hfields : FieldEntry.fieldList fs = .ok fields) :
    Stems f (.payload a k) { name := payloadName e.name v.name, body := .struct fields }

end SpecFile

/-! ## Origins -/

/-- What comes from a model. -/
theorem ModelEntry.mem_origins_iff {a : Nat} {e : ModelEntry} {o : Origin} :
    o ∈ e.origins a ↔ o = .model a ∨ ∃ k v fs, o = .payload a k ∧ e.type.name = "enum" ∧
      e.type.variants[k]? = some (some v) ∧ v.fields = some fs := by
  unfold origins
  rw [List.mem_cons]
  refine or_congr_right ?_
  by_cases henum : e.type.name = "enum"
  · rw [if_pos (beq_iff_eq.mpr henum)]
    constructor
    · intro ho
      obtain ⟨k, hk, rfl⟩ := List.mem_map.mp ho
      obtain ⟨hlt, hinline⟩ := List.mem_findIdxs_iff_exists_getElem_pos.mp hk
      obtain ⟨fs, hfs⟩ := Option.isSome_iff_exists.mp hinline
      obtain ⟨v, hv, hfs⟩ := Option.bind_eq_some_iff.mp hfs
      exact ⟨k, v, fs, rfl, henum, by rw [List.getElem?_eq_getElem hlt, hv], hfs⟩
    · rintro ⟨k, v, fs, rfl, -, hv, hfs⟩
      obtain ⟨hlt, hget⟩ := List.getElem?_eq_some_iff.mp hv
      refine List.mem_map_of_mem (List.mem_findIdxs_iff_exists_getElem_pos.mpr ⟨hlt, ?_⟩)
      simp [VariantEntry.isInline, hget, hfs]
  · rw [if_neg (by simpa using henum)]
    refine iff_of_false List.not_mem_nil ?_
    rintro ⟨k, v, fs, -, h, -⟩
    exact henum h

theorem ModelEntry.nodup_origins (a : Nat) (e : ModelEntry) : (e.origins a).Nodup := by
  unfold origins
  rw [List.nodup_cons]
  split
  · refine ⟨by simp, List.nodup_findIdxs.map fun k k' h => ?_⟩
    exact (Origin.payload.inj h).2
  · exact ⟨List.not_mem_nil, List.nodup_nil⟩

namespace SpecFile

variable {f : SpecFile}

/-- What comes from a place of a file. -/
theorem mem_originsAt_iff {m : Option ModelEntry} {a : Nat} {o : Origin} :
    o ∈ (m.map (ModelEntry.origins a)).getD [] ↔ ∃ e, m = some e ∧ o ∈ e.origins a := by
  cases m with
  | none => simp
  | some e => simp

/-- **The origins of a file** are what is written in it. -/
theorem mem_origins_iff {o : Origin} : o ∈ f.origins ↔ f.Writes o := by
  have hmem : o ∈ f.origins ↔
      ∃ (a : Nat) (e : ModelEntry), f.models[a]? = some (some e) ∧ o ∈ e.origins a := by
    unfold origins
    rw [List.mem_flatMap]
    constructor
    · rintro ⟨⟨m, a⟩, hm, ho⟩
      obtain ⟨e, rfl, ho⟩ := mem_originsAt_iff.mp ho
      exact ⟨a, e, List.mem_zipIdx_iff_getElem?.mp hm, ho⟩
    · rintro ⟨a, e, he, ho⟩
      exact ⟨(some e, a), List.mem_zipIdx_iff_getElem?.mpr he, mem_originsAt_iff.mpr ⟨e, rfl, ho⟩⟩
  rw [hmem]
  simp only [ModelEntry.mem_origins_iff]
  constructor
  · rintro ⟨a, e, he, rfl | ⟨k, v, fs, rfl, henum, hv, hfs⟩⟩
    · exact ⟨e, he⟩
    · exact ⟨e, v, fs, he, henum, hv, hfs⟩
  · intro ho
    cases o with
    | model a =>
      obtain ⟨e, he⟩ := ho
      exact ⟨a, e, he, .inl rfl⟩
    | payload a k =>
      obtain ⟨e, v, fs, he, henum, hv, hfs⟩ := ho
      exact ⟨a, e, he, .inr ⟨k, v, fs, rfl, henum, hv, hfs⟩⟩

/-- **No origin stands twice.** -/
theorem nodup_origins (f : SpecFile) : f.origins.Nodup := by
  unfold origins
  rw [List.nodup_flatMap]
  constructor
  · rintro ⟨m, a⟩ -
    cases m with
    | none => exact List.nodup_nil
    | some e => exact e.nodup_origins a
  · -- origins of two models differ in the place of the model
    rw [List.pairwise_iff_getElem]
    intro i j hi hj hij o ho ho'
    simp only [List.getElem_zipIdx] at ho ho'
    obtain ⟨e, -, ho⟩ := mem_originsAt_iff.mp ho
    obtain ⟨e', -, ho'⟩ := mem_originsAt_iff.mp ho'
    rw [ModelEntry.mem_origins_iff] at ho ho'
    have hne : i ≠ j := Nat.ne_of_lt hij
    rcases ho with rfl | ⟨k, v, fs, rfl, -⟩
    · rcases ho' with h | ⟨k, v, fs, h, -⟩
      · injection h with h
        omega
      · cases h
    · rcases ho' with h | ⟨k', v', fs', h, -⟩
      · cases h
      · injection h with h
        omega

end SpecFile

/-! ## Variants -/

namespace VariantEntry

variable {enum : Text} {v : VariantEntry} {fs : List (Option FieldEntry)} {x : Variant}
  {ds : List Decl}

/-- **A variant with inline fields** refers to the one struct that comes
with it. -/
theorem of_variant_inline (h : v.variant enum = .ok (x, ds)) (hfs : v.fields = some fs) :
    ∃ fields, FieldEntry.fieldList fs = .ok fields ∧
      x = { name := v.name, payload := .ref [] (payloadName enum v.name), doc := v.doc } ∧
      ds = [{ name := payloadName enum v.name, body := .struct fields }] := by
  unfold variant at h
  rw [hfs] at h
  dsimp only at h
  split at h
  · rename_i heq
    cases heq
  · rename_i fs' _ heq
    cases heq
    split at h
    · cases h
    · rename_i fields hfields
      cases h
      exact ⟨fields, hfields, rfl, rfl⟩
  · rename_i heq _
    cases heq
  · cases h

/-- Another one comes without structs. -/
theorem of_variant_plain (h : v.variant enum = .ok (x, ds)) (hfs : v.fields = none) : ds = [] := by
  unfold variant at h
  rw [hfs] at h
  dsimp only at h
  split at h
  · cases h
    rfl
  · rename_i heq
    cases heq
  · split at h
    · cases h
    · cases h
      rfl
  · cases h

/-- A struct of the inline fields of the variant at a place. -/
def HoldsInline (enum : Text) (vs : List (Option VariantEntry)) (k : Nat) (d : Decl) : Prop :=
  ∃ v fs fields, vs[k]? = some (some v) ∧ v.fields = some fs ∧
    FieldEntry.fieldList fs = .ok fields ∧
    d = { name := payloadName enum v.name, body := .struct fields }

/-- **The structs that come with variants** are those of the inline ones,
in the same order. -/
theorem forall₂_of_variantList {vs : List (Option VariantEntry)} :
    ∀ {xs : List Variant} {ds : List Decl}, variantList enum vs = .ok (xs, ds) →
      List.Forall₂ (HoldsInline enum vs) (vs.findIdxs isInline) ds := by
  induction vs with
  | nil =>
    intro xs ds h
    cases h
    exact .nil
  | cons v vs ih =>
    intro xs ds h
    cases v with
    | none => cases h
    | some v =>
    obtain ⟨⟨x, es⟩, hx, h⟩ := Declared.of_bind h
    obtain ⟨⟨xs', ds'⟩, hxs, h⟩ := Declared.of_bind h
    cases h
    -- the places in the rest of the list are one further on in the list
    have hrest : List.Forall₂ (HoldsInline enum (some v :: vs)) (vs.findIdxs isInline 1) ds' := by
      rw [List.findIdxs_start, List.forall₂_map_left_iff]
      exact ih hxs
    cases hfs : v.fields with
    | none =>
      obtain rfl := of_variant_plain hx hfs
      rw [List.findIdxs_cons, if_neg (by simp [isInline, hfs])]
      exact hrest
    | some fs =>
      obtain ⟨fields, hfields, -, rfl⟩ := of_variant_inline hx hfs
      rw [List.findIdxs_cons, if_pos (by simp [isInline, hfs])]
      exact .cons ⟨v, fs, fields, rfl, hfs, hfields, rfl⟩ hrest

/-- **The variants of an enum** are those that are written, each at its
place. -/
theorem exists_of_variantList {vs : List (Option VariantEntry)} :
    ∀ {xs : List Variant} {ds : List Decl}, variantList enum vs = .ok (xs, ds) →
      ∀ {k : Nat} {v : VariantEntry}, vs[k]? = some (some v) →
        ∃ x es, v.variant enum = .ok (x, es) ∧ xs[k]? = some x := by
  induction vs with
  | nil =>
    intro xs ds h k v hv
    cases hv
  | cons v vs ih =>
    intro xs ds h k w hw
    cases v with
    | none => cases h
    | some v =>
    obtain ⟨⟨x, es⟩, hx, h⟩ := Declared.of_bind h
    obtain ⟨⟨xs', ds'⟩, hxs, h⟩ := Declared.of_bind h
    cases h
    cases k with
    | zero =>
      cases hw
      exact ⟨x, es, hx, rfl⟩
    | succ k => exact ih hxs hw

end VariantEntry

/-! ## Models -/

namespace ModelEntry

variable {e : ModelEntry} {body : Body} {more : List Decl}

/-- **The body of an enum** is made of its variants. -/
theorem of_body_enum (h : e.body = .ok (body, more)) (henum : e.type.name = "enum") :
    ∃ xs, VariantEntry.variantList e.name e.type.variants = .ok (xs, more) ∧
      body = .union xs e.type.tagKey e.type.payloadKey := by
  have hbody : e.body = (fun r => (Body.union r.1 e.type.tagKey e.type.payloadKey, r.2)) <$>
      VariantEntry.variantList e.name e.type.variants := by
    simp only [ModelEntry.body, henum]
    rfl
  rw [hbody] at h
  cases hvs : VariantEntry.variantList e.name e.type.variants with
  | error f => rw [hvs] at h; cases h
  | ok r =>
    rw [hvs] at h
    cases h
    exact ⟨r.1, rfl, rfl⟩

/-- No other model comes with structs. -/
theorem of_body_plain (h : e.body = .ok (body, more)) (henum : e.type.name ≠ "enum") :
    more = [] := by
  have hmap : ∀ {α : Type} {make : α → Body} {x : Declared α},
      (fun y => (make y, ([] : List Decl))) <$> x = .ok (body, more) → more = [] := by
    intro α make x hx
    cases x with
    | error f => cases hx
    | ok y =>
      cases hx
      rfl
  unfold ModelEntry.body at h
  dsimp only at h
  split at h
  · exact hmap h
  · split at h
    · exact hmap h
    · rw [if_neg (by simpa using henum)] at h
      split at h
      · split at h
        · cases h
        · split at h
          · cases h
          · cases h
            rfl
      · split at h
        · split at h
          · cases h
          · exact hmap h
        · split at h
          · cases h
          · cases h

end ModelEntry

namespace SpecFile

variable {f : SpecFile}

/-- **What a model declares** stems from its origins. -/
theorem forall₂_of_decls {a : Nat} {e : ModelEntry} {ds : List Decl}
    (he : f.models[a]? = some (some e)) (h : e.decls = .ok ds) :
    List.Forall₂ f.Stems (e.origins a) ds := by
  obtain ⟨⟨body, more⟩, hbody, h⟩ := Declared.of_bind h
  cases h
  refine .cons (.model he hbody) ?_
  by_cases henum : e.type.name = "enum"
  · rw [if_pos (beq_iff_eq.mpr henum), List.forall₂_map_left_iff]
    obtain ⟨xs, hvs, -⟩ := ModelEntry.of_body_enum hbody henum
    refine (VariantEntry.forall₂_of_variantList hvs).imp ?_
    rintro k d ⟨v, fs, fields, hv, hfs, hfields, rfl⟩
    exact .payload he henum hv hfs hfields
  · rw [if_neg (by simpa using henum), ModelEntry.of_body_plain hbody henum]
    exact .nil

/-- Models that all become declarations do so one by one. -/
theorem of_declareAll {module : Text} {ms : List (Option ModelEntry)} :
    ∀ {ds : List Decl}, declareAll module ms = .ok (ds, []) →
      ∃ dss, List.Forall₂ (fun m l => ∃ e, m = some e ∧ e.decls = .ok l) ms dss ∧
        ds = dss.flatten := by
  induction ms with
  | nil =>
    intro ds h
    cases h
    exact ⟨[], .nil, rfl⟩
  | cons m ms ih =>
    intro ds h
    cases m with
    | none => cases h
    | some e =>
    rw [declareAll] at h
    split at h
    · cases h
    · obtain ⟨⟨rest, es⟩, -, h⟩ := Declared.of_bind h
      cases h
    · rename_i own hown
      obtain ⟨⟨rest, es⟩, hrest, h⟩ := Declared.of_bind h
      cases h
      obtain ⟨dss, hall, rfl⟩ := ih hrest
      exact ⟨own :: dss, .cons ⟨e, rfl, hown⟩ hall, rfl⟩

/-- **The declarations of a file stem from its origins**, one from each and
in the same order. -/
theorem stems_of_declare {m m' : Module} (h : f.declare m = .ok m') :
    ∃ ds, m' = m.add ds ∧ List.Forall₂ f.Stems f.origins ds := by
  obtain ⟨ds, hds, rfl⟩ : ∃ ds, declareAll m.name f.models = .ok (ds, []) ∧ m.add ds = m' := by
    unfold declare at h
    split at h
    · cases h
    · rename_i ds hds
      exact ⟨ds, hds, Except.ok.inj h⟩
    · cases h
  obtain ⟨dss, hall, rfl⟩ := of_declareAll hds
  refine ⟨_, rfl, ?_⟩
  unfold origins
  rw [List.flatMap]
  refine List.rel_flatten ?_
  rw [List.forall₂_map_left_iff, List.forall₂_iff_get]
  obtain ⟨hlen, hget⟩ := List.forall₂_iff_get.mp hall
  refine ⟨by rw [List.length_zipIdx, hlen], fun a ha ha' => ?_⟩
  rw [List.length_zipIdx] at ha
  obtain ⟨e, he, hdecls⟩ := hget a ha ha'
  have hzip : f.models.zipIdx.get ⟨a, by rwa [List.length_zipIdx]⟩ = (some e, a) := by
    rw [List.get_eq_getElem, List.getElem_zipIdx, Nat.zero_add]
    exact congrArg (·, a) he
  rw [hzip]
  exact forall₂_of_decls (List.getElem?_eq_some_iff.mpr ⟨ha, he⟩) hdecls

end SpecFile

end WireModel
