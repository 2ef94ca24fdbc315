import Mathlib.Data.List.Nodup
import WireModel.Spec.Validate

/-!
# Validation — what a valid module is

The checks of `WireModel.Spec.Validate` read as properties: a list of
named things passes when the names are identifiers, distinct, and what
they name passes (`checkNames_eq_nil_iff`). What later proofs use of a
valid module follows from it.
-/

namespace WireModel

section Names

variable {α : Type} {name : α → Text} {badName taken : α → CompileError}
  {inner : α → List CompileError} {seen : List Text} {x : α} {xs : List α}

/-- What the first of some named things passes. -/
theorem checkNames_cons_eq_nil_iff :
    checkNames name badName taken inner seen (x :: xs) = [] ↔
      isIdent (name x) = true ∧ name x ∉ seen ∧ inner x = [] ∧
        checkNames name badName taken inner (name x :: seen) xs = [] := by
  rw [checkNames]
  by_cases hid : isIdent (name x) = true
  · by_cases hs : name x ∈ seen <;> simp [hid, hs]
  · simp [hid]

/-- **A list of named things has no errors** exactly when its names are
distinct new identifiers and each thing has none. -/
theorem checkNames_eq_nil_iff :
    checkNames name badName taken inner seen xs = [] ↔
      (∀ x ∈ xs, isIdent (name x) = true) ∧ (xs.map name).Nodup ∧
        (∀ x ∈ xs, name x ∉ seen) ∧ ∀ x ∈ xs, inner x = [] := by
  induction xs generalizing seen with
  | nil => simp [checkNames]
  | cons x xs ih =>
    rw [checkNames_cons_eq_nil_iff, ih, List.forall_mem_cons, List.forall_mem_cons,
      List.forall_mem_cons, List.map_cons, List.nodup_cons]
    constructor
    · rintro ⟨hid, hs, hx, hids, hnd, hnew, hin⟩
      refine ⟨⟨hid, hids⟩, ⟨fun h => ?_, hnd⟩,
        ⟨hs, fun y hy h => hnew y hy (List.mem_cons_of_mem _ h)⟩, hx, hin⟩
      obtain ⟨y, hy, hyx⟩ := List.mem_map.mp h
      exact hnew y hy (hyx ▸ List.mem_cons_self ..)
    · rintro ⟨⟨hid, hids⟩, ⟨hnot, hnd⟩, ⟨hs, hnew⟩, hx, hin⟩
      refine ⟨hid, hs, hx, hids, hnd, fun y hy h => ?_, hin⟩
      rcases List.mem_cons.mp h with h | h
      · exact hnot (List.mem_map.mpr ⟨y, hy, h⟩)
      · exact hnew y hy h

end Names

/-! ## Types -/

/-- **The types without a defect**, node by node. -/
theorem TypeExpr.defect?_eq_none_iff {k : Kind} {width : Int} {r : Option Ref} {elem : TypeExpr} :
    (node k width r elem).defect? = none ↔
      k.isValid = true ∧ (k = .int → isIntWidth width = true) ∧
      (k = .optional → elem.isOptional = false) ∧
      (k = .list ∨ k = .map ∨ k = .optional → elem.defect? = none) ∧
      (k = .ref → ∃ s, r = some s ∧ s.name ≠ []) := by
  have hmissing : ∀ {a : Option TypeDefect}, a ≠ none →
      ((if elem = missing then a else elem.defect?) = none ↔ elem.defect? = none) := by
    intro a ha
    cases elem with
    | missing => simp [defect?, ha]
    | node k width r elem => simp
  cases k with
  | ref =>
    cases r with
    | none => simp [defect?, Kind.isValid]
    | some s => simp [defect?, Kind.isValid]
  | int => simp [defect?, Kind.isValid]
  | optional => cases ho : elem.isOptional <;> simp [defect?, Kind.isValid, ho, hmissing]
  | list => simp [defect?, Kind.isValid, hmissing]
  | map => simp [defect?, Kind.isValid, hmissing]
  | _ => simp [defect?, Kind.isValid]

/-- What stands in an identifier. -/
theorem of_mem_isIdent {t : Text} (h : isIdent t = true) {b : UInt8} (hb : b ∈ t) :
    Text.isLetter b = true ∨ Text.isDigit b = true ∨ b = '_'.toUInt8 := by
  cases t with
  | nil => cases hb
  | cons c t =>
    simp only [isIdent, Bool.and_eq_true, Bool.or_eq_true, List.all_eq_true, beq_iff_eq] at h
    rcases List.mem_cons.mp hb with rfl | hb
    · exact h.1.imp id Or.inr
    · exact or_assoc.mp (h.2 b hb)

namespace Module

variable {m : Module}

/-- The declarations of a valid module have distinct names. -/
theorem nodup_names_of_valid (h : m.errors = []) : (m.decls.map (·.name)).Nodup :=
  (checkNames_eq_nil_iff.mp h).2.1

/-- The names are identifiers. -/
theorem isIdent_name_of_valid (h : m.errors = []) {d : Decl} (hd : d ∈ m.decls) :
    isIdent d.name = true :=
  (checkNames_eq_nil_iff.mp h).1 d hd

/-- None of the names is empty. -/
theorem name_ne_nil_of_valid (h : m.errors = []) {d : Decl} (hd : d ∈ m.decls) : d.name ≠ [] := by
  intro hname
  have hident := isIdent_name_of_valid h hd
  rw [hname] at hident
  cases hident

/-- And each of them is valid. -/
theorem decl_errors_of_valid (h : m.errors = []) {d : Decl} (hd : d ∈ m.decls) :
    d.errors m.name = [] :=
  (checkNames_eq_nil_iff.mp h).2.2.2 d hd

/-- A name found is the name of the declaration at that place. -/
theorem name_of_find? {name : Text} {i : Nat} (h : m.find? name = some i) :
    ∃ d, m.decls[i]? = some d ∧ d.name = name := by
  rw [find?, List.findIdx?_eq_some_iff_getElem] at h
  obtain ⟨hi, hp, -⟩ := h
  exact ⟨m.decls[i], List.getElem?_eq_getElem hi, by simpa using hp⟩

/-- **In a valid module a declaration is found by its name.** -/
theorem find?_of_valid (h : m.errors = []) {i : Nat} {d : Decl} (hd : m.decls[i]? = some d) :
    m.find? d.name = some i := by
  obtain ⟨hi, rfl⟩ := List.getElem?_eq_some_iff.mp hd
  rw [find?, List.findIdx?_eq_some_iff_getElem]
  refine ⟨hi, by simp, fun j hj => ?_⟩
  have hne := List.nodup_iff_injective_get.mp (nodup_names_of_valid h)
  intro heq
  have hji : j = i := by
    have := @hne ⟨j, by simp; omega⟩ ⟨i, by simpa using hi⟩ (by simpa using heq)
    simpa using this
  omega

end Module

namespace Decl

variable {module : Text} {d : Decl}

/-- The fields of a valid struct or virtual struct have distinct names. -/
theorem nodup_fields_of_valid (h : d.errors module = []) : (d.fields.map (·.name)).Nodup := by
  rw [errors, List.append_eq_nil_iff] at h
  rw [fields]
  cases hb : d.body with
  | struct fs =>
    rw [hb] at h
    exact (checkNames_eq_nil_iff.mp h.2).2.1
  | virtual fs =>
    rw [hb] at h
    exact (checkNames_eq_nil_iff.mp h.2).2.1
  | union vs tag payload => exact List.nodup_nil
  | newtype t => exact List.nodup_nil
  | consts t cs => exact List.nodup_nil
  | unknown n => exact List.nodup_nil

/-- The variants of a valid union have distinct names. -/
theorem nodup_variants_of_valid (h : d.errors module = []) : (d.variants.map (·.name)).Nodup := by
  rw [errors, List.append_eq_nil_iff] at h
  rw [variants]
  cases hb : d.body with
  | union vs tag payload =>
    rw [hb, List.append_eq_nil_iff] at h
    exact (checkNames_eq_nil_iff.mp h.2.2).2.1
  | struct fs => exact List.nodup_nil
  | virtual fs => exact List.nodup_nil
  | newtype t => exact List.nodup_nil
  | consts t cs => exact List.nodup_nil
  | unknown n => exact List.nodup_nil

/-- **The two keys of a valid union differ.** -/
theorem tagKey_ne_payloadKey (h : d.errors module = []) (hk : d.kind = .union) :
    d.tagKey ≠ d.payloadKey := by
  rw [errors, List.append_eq_nil_iff] at h
  rw [kind] at hk
  intro heq
  cases hb : d.body with
  | union vs tag payload => simp [hb, heq] at h
  | _ => simp [hb, Body.kind] at hk

/-- A field is a member, with its type. -/
theorem mem_members_of_mem_fields {f : Field} (hf : f ∈ d.fields) :
    (f.name, f.type) ∈ d.members := by
  rw [fields] at hf
  rw [members]
  cases hb : d.body with
  | struct fs =>
    rw [hb] at hf
    exact List.mem_map_of_mem hf
  | virtual fs =>
    rw [hb] at hf
    exact List.mem_map_of_mem hf
  | _ => simp [hb] at hf

theorem kind_of_mem_variants {v : Variant} (hv : v ∈ d.variants) : d.kind = .union := by
  rw [variants] at hv
  rw [kind]
  cases hb : d.body <;> simp_all [Body.kind]

theorem fields_eq_nil_of_union (hk : d.kind = .union) : d.fields = [] := by
  rw [kind] at hk
  rw [fields]
  cases hb : d.body <;> simp_all [Body.kind]

theorem typeErrors_eq_nil_iff {field : Text} {t : TypeExpr} :
    d.typeErrors module field t = [] ↔ t.defect? = none := by
  rw [typeErrors]
  cases t.defect? <;> simp

/-- **The types of a valid declaration have no defect**, but that a void
variant has none. -/
theorem defect?_of_valid (h : d.errors module = []) {x : Text × TypeExpr} (hx : x ∈ d.members) :
    x.2.defect? = none ∨ d.kind = .union ∧ x.2 = .missing := by
  rw [errors, List.append_eq_nil_iff] at h
  rw [members] at hx
  rw [kind]
  cases hb : d.body with
  | struct fs =>
    rw [hb] at h hx
    obtain ⟨f, hf, rfl⟩ := List.mem_map.mp hx
    exact Or.inl (typeErrors_eq_nil_iff.mp ((checkNames_eq_nil_iff.mp h.2).2.2.2 f hf))
  | virtual fs =>
    rw [hb] at h hx
    obtain ⟨f, hf, rfl⟩ := List.mem_map.mp hx
    exact Or.inl (typeErrors_eq_nil_iff.mp ((checkNames_eq_nil_iff.mp h.2).2.2.2 f hf))
  | union vs tag payload =>
    rw [hb] at hx
    rw [hb, List.append_eq_nil_iff] at h
    obtain ⟨v, hv, rfl⟩ := List.mem_map.mp hx
    have herr := (checkNames_eq_nil_iff.mp h.2.2).2.2.2 v hv
    by_cases hvoid : v.isVoid = true
    · exact Or.inr ⟨rfl, by simpa [Variant.isVoid] using hvoid⟩
    · rw [if_neg hvoid] at herr
      exact Or.inl (typeErrors_eq_nil_iff.mp herr)
  | newtype t =>
    rw [hb] at h hx
    obtain rfl := List.mem_singleton.mp hx
    exact Or.inl (typeErrors_eq_nil_iff.mp h.2)
  | consts t cs => simp [hb] at hx
  | unknown n => simp [hb] at hx

/-- **Constants are integers or texts**, of a type for these. -/
theorem consts_of_valid (h : d.errors module = []) {t : TypeExpr} {cs : List Const}
    (hb : d.body = .consts t cs) : (t.kind? = some .int ∨ t.kind? = some .string) ∧
      ∀ c ∈ cs, (∃ s, c.value = .text s) ∨ ∃ n, c.value = .int .int64 n := by
  rw [errors, List.append_eq_nil_iff, hb] at h
  have hvalues : ∀ {isInt width}, checkNames Const.name
      (fun c => d.invalid module c.name "invalid const name")
      (fun c => d.duplicate module c.name "duplicate const")
      (fun c => d.valueErrors module isInt width t c) [] cs = [] →
      ∀ c ∈ cs, (∃ s, c.value = .text s) ∨ ∃ n, c.value = .int .int64 n := by
    intro isInt width h c hc
    have hvalue := (checkNames_eq_nil_iff.mp h).2.2.2 c hc
    rw [valueErrors] at hvalue
    split at hvalue
    · rename_i s hs
      exact Or.inl ⟨s, hs⟩
    · rename_i n hn
      exact Or.inr ⟨n, hn⟩
    · cases hvalue
    · cases hvalue
  have h := h.2
  simp only [constErrors] at h
  -- the type is looked at first, and then the values
  split at h
  · split at h
    next => exact ⟨Or.inl rfl, hvalues h⟩
    next hne => exact absurd h hne
  · split at h
    next => exact ⟨Or.inr rfl, hvalues h⟩
    next hne => exact absurd h hne
  · cases h

end Decl

end WireModel
