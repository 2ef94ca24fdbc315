import Mathlib.Tactic.FinCases
import WireModel.Proofs.Decode.Integer
import WireModel.Proofs.Spec.Validate

/-!
# Well-formed modules — what validation decides

`Module.IsWellFormed` says what is asked of a module before its references
are looked at: of its names, of the types that stand in it node by node,
and of its constants. The checks of validation stop early in many places.
A name that is taken hides what it names, the first defect of a type hides
the others, and a group of constants with a bad type hides its constants.
All the same they find nothing exactly where there is nothing to be found
(`Module.errors_eq_nil_iff`).
-/

namespace WireModel

open Text (isLetter isDigit)

/-! ## Names -/

/-- **An identifier**: letters, digits and underscores, with no digit in
front. -/
def IsIdentifier (t : Text) : Prop :=
  ∃ b bs, t = b :: bs ∧ (isLetter b = true ∨ b = '_'.toUInt8) ∧
    ∀ c ∈ bs, isLetter c = true ∨ isDigit c = true ∨ c = '_'.toUInt8

theorem isIdent_iff {t : Text} : isIdent t = true ↔ IsIdentifier t := by
  cases t with
  | nil => simp [isIdent, IsIdentifier]
  | cons b bs => simp [isIdent, IsIdentifier, or_assoc]

/-- Names that are identifiers, each given once. -/
def WellNamed (names : List Text) : Prop := (∀ n ∈ names, IsIdentifier n) ∧ names.Nodup

/-- What named things pass, if none is known before. -/
theorem checkNames_nil_eq_nil_iff {α : Type} {name : α → Text} {badName taken : α → CompileError}
    {inner : α → List CompileError} {xs : List α} :
    checkNames name badName taken inner [] xs = [] ↔
      WellNamed (xs.map name) ∧ ∀ x ∈ xs, inner x = [] := by
  rw [checkNames_eq_nil_iff, WellNamed, List.forall_mem_map]
  simp only [isIdent_iff, List.not_mem_nil, not_false_eq_true, implies_true, true_and, and_assoc]

/-! ## Types -/

namespace Kind

/-- A kind of types that have items. -/
def IsComposite (k : Kind) : Prop := k = .list ∨ k = .map ∨ k = .optional

/-- A kind that types can have. -/
def IsKnown (k : Kind) : Prop := k ≠ .invalid ∧ ∀ n, k ≠ .unknown n

theorem isValid_iff {k : Kind} : k.isValid = true ↔ k.IsKnown := by
  cases k <;> simp [isValid, IsKnown]

end Kind

theorem isIntWidth_iff {w : Int} : isIntWidth w = true ↔ w ∈ ([8, 16, 32, 64] : List Int) := by
  simp [isIntWidth, or_assoc]

namespace TypeExpr

/-- **What stands in a type**: the type itself, and what stands in the items
of a composite one. -/
inductive StandsIn : TypeExpr → TypeExpr → Prop
  | outermost {t : TypeExpr} : StandsIn t t
  | item {s elem : TypeExpr} {k : Kind} {width : Int} {r : Option Ref} (hk : k.IsComposite)
      (h : StandsIn s elem) : StandsIn s (node k width r elem)

/-- What is asked of a single node. -/
structure NodeOk (k : Kind) (width : Int) (r : Option Ref) (elem : TypeExpr) : Prop where
  known : k.IsKnown
  width : k = .int → width ∈ ([8, 16, 32, 64] : List Int)
  /-- A composite has items. -/
  item : k.IsComposite → elem ≠ missing
  /-- The items of an optional are no optionals. -/
  flat : k = .optional → elem.kind? ≠ some .optional
  /-- A reference has a name. -/
  named : k = .ref → ∃ s, r = some s ∧ s.name ≠ []

/-- **A well-formed type**: there is one, and all nodes that stand in it are
as they should be. -/
def IsWellFormed (t : TypeExpr) : Prop :=
  t ≠ missing ∧ ∀ k width r elem, StandsIn (node k width r elem) t → NodeOk k width r elem

variable {k : Kind} {width : Int} {r : Option Ref} {elem : TypeExpr}

/-- A type is well formed from its outermost node on. -/
theorem isWellFormed_node_iff : (node k width r elem).IsWellFormed ↔
    NodeOk k width r elem ∧ (k.IsComposite → elem.IsWellFormed) := by
  constructor
  · rintro ⟨-, h⟩
    have hnode : NodeOk k width r elem := h k width r elem .outermost
    exact ⟨hnode, fun hk => ⟨hnode.item hk, fun k' w' r' e' hs => h k' w' r' e' (.item hk hs)⟩⟩
  · rintro ⟨hnode, helem⟩
    refine ⟨by simp, fun k' w' r' e' hs => ?_⟩
    cases hs with
    | outermost => exact hnode
    | item hk hs => exact (helem hk).2 k' w' r' e' hs

/-- **A type has no defect exactly if it is well formed.** -/
theorem defect?_eq_none_iff_isWellFormed {t : TypeExpr} :
    t.defect? = none ↔ t.IsWellFormed := by
  induction t with
  | missing => simp [defect?, IsWellFormed]
  | node k width r elem ih =>
    rw [defect?_eq_none_iff, isWellFormed_node_iff, ih, Kind.isValid_iff, isIntWidth_iff]
    constructor
    · rintro ⟨hknown, hwidth, hflat, helem, hnamed⟩
      refine ⟨⟨hknown, hwidth, fun hk => (helem hk).1, fun hk heq => ?_, hnamed⟩, helem⟩
      have hnone := hflat hk
      rw [isOptional, heq] at hnone
      cases hnone
    · rintro ⟨hnode, helem⟩
      exact ⟨hnode.known, hnode.width, fun hk => by simpa [isOptional] using hnode.flat hk, helem,
        hnode.named⟩

end TypeExpr

/-! ## Constants -/

/-- **What constants are**: integers in range for a type of integers, and
texts for the type of texts. Constants of other types there are none. -/
def ConstsFit : TypeExpr → List Const → Prop
  | .node .int width _ _, cs => width ∈ ([8, 16, 32, 64] : List Int) ∧
      ∀ c ∈ cs, ∃ n, c.value = .int .int64 n ∧ Value.InRange width.toNat n
  | .node .string _ _ _, cs => ∀ c ∈ cs, ∃ s, c.value = .text s
  | _, _ => False

/-- **A constant fits a type** if it is a word of its width. For the widest
there is nothing to compare. -/
theorem fitsWidth_iff_inRange {width : Nat} {n : Int} (hwidth : width ∈ [8, 16, 32, 64])
    (hword : fitsSigned 64 n = true) : fitsWidth n width = true ↔ Value.InRange width n := by
  rw [← Value.fitsSigned_iff_inRange]
  simp only [List.mem_cons, List.not_mem_nil, or_false] at hwidth
  rcases hwidth with rfl | rfl | rfl | rfl
  · rfl
  · rfl
  · rfl
  · exact iff_of_true rfl hword

namespace Decl

variable {module : Text} {d : Decl} {t : TypeExpr} {c : Const} {cs : List Const}

theorem valueErrors_int_eq_nil_iff {width : Int} : d.valueErrors module true width t c = [] ↔
    ∃ n, c.value = .int .int64 n ∧ fitsWidth n width = true := by
  rw [valueErrors]
  split <;> simp_all

theorem valueErrors_string_eq_nil_iff {width : Int} : d.valueErrors module false width t c = [] ↔
    ∃ s, c.value = .text s := by
  rw [valueErrors]
  split <;> simp_all

theorem constErrors_int_eq_nil_iff {width : Int} {r : Option Ref} {elem : TypeExpr} :
    d.constErrors module (.node .int width r elem) cs = [] ↔
      isIntWidth width = true ∧ WellNamed (cs.map (·.name)) ∧
        ∀ c ∈ cs, ∃ n, c.value = .int .int64 n ∧ fitsWidth n width = true := by
  have hdefect : (TypeExpr.node .int width r elem).defect? = none ↔ isIntWidth width = true := by
    simp [TypeExpr.defect?, Kind.isValid]
  simp only [constErrors]
  by_cases hwidth : isIntWidth width = true
  · rw [typeErrors_eq_nil_iff.mpr (hdefect.mpr hwidth)]
    simp only [checkNames_nil_eq_nil_iff, valueErrors_int_eq_nil_iff, hwidth, true_and]
  · refine iff_of_false (fun h => ?_) fun h => hwidth h.1
    split at h
    next hnil => exact hwidth (hdefect.mp (typeErrors_eq_nil_iff.mp hnil))
    next hne => exact hne h

theorem constErrors_string_eq_nil_iff {width : Int} {r : Option Ref} {elem : TypeExpr} :
    d.constErrors module (.node .string width r elem) cs = [] ↔
      WellNamed (cs.map (·.name)) ∧ ∀ c ∈ cs, ∃ s, c.value = .text s := by
  have hdefect : (TypeExpr.node .string width r elem).defect? = none := rfl
  simp only [constErrors]
  rw [typeErrors_eq_nil_iff.mpr hdefect]
  simp only [checkNames_nil_eq_nil_iff, valueErrors_string_eq_nil_iff]

/-- **A group of constants passes** if its type is one for constants and
they fit it. -/
theorem constErrors_eq_nil_iff
    (hwords : ∀ c ∈ cs, ∀ n, c.value = .int .int64 n → IntKind.int64.holds n = true) :
    d.constErrors module t cs = [] ↔ WellNamed (cs.map (·.name)) ∧ ConstsFit t cs := by
  cases t with
  | missing => simp [constErrors, ConstsFit]
  | node k width r elem =>
    cases k with
    | int =>
      rw [constErrors_int_eq_nil_iff, isIntWidth_iff, ConstsFit, and_left_comm]
      refine and_congr_right fun _ => and_congr_right fun hwidth => ?_
      obtain ⟨w, hw, rfl⟩ : ∃ w : Nat, w ∈ [8, 16, 32, 64] ∧ width = w := by
        refine ⟨width.toNat, ?_, ?_⟩ <;>
        · simp only [List.mem_cons, List.not_mem_nil, or_false] at hwidth ⊢
          omega
      refine forall₂_congr fun c hc => exists_congr fun n => and_congr_right fun hn => ?_
      have hword := hwords c hc n hn
      rw [IntKind.holds_eq_fitsSigned (by decide)] at hword
      exact fitsWidth_iff_inRange hw hword
    | string => rw [constErrors_string_eq_nil_iff, ConstsFit]
    | _ => simp [constErrors, ConstsFit]

end Decl

/-! ## Declarations and modules -/

namespace Decl

/-- **A well-formed declaration.** -/
def IsWellFormed (d : Decl) : Prop :=
  (d.extend ≠ [] → d.kind = .struct) ∧
  match d.body with
  | .struct fs | .virtual fs =>
    WellNamed (fs.map (·.name)) ∧ ∀ f ∈ fs, f.type.IsWellFormed
  | .union vs _ _ =>
    vs ≠ [] ∧ d.tagKey ≠ d.payloadKey ∧ WellNamed (vs.map (·.name)) ∧
      ∀ v ∈ vs, v.payload ≠ .missing → v.payload.IsWellFormed
  | .newtype t => t.IsWellFormed
  | .consts t cs => WellNamed (cs.map (·.name)) ∧ ConstsFit t cs
  | .unknown _ => False

variable {module : Text} {d : Decl}

theorem typeErrors_eq_nil_iff_isWellFormed {field : Text} {t : TypeExpr} :
    d.typeErrors module field t = [] ↔ t.IsWellFormed :=
  typeErrors_eq_nil_iff.trans TypeExpr.defect?_eq_none_iff_isWellFormed

theorem fieldErrors_eq_nil_iff {fs : List Field} : d.fieldErrors module fs = [] ↔
    WellNamed (fs.map (·.name)) ∧ ∀ f ∈ fs, f.type.IsWellFormed := by
  rw [fieldErrors, checkNames_nil_eq_nil_iff]
  simp only [typeErrors_eq_nil_iff_isWellFormed]

theorem variantErrors_eq_nil_iff {vs : List Variant} : d.variantErrors module vs = [] ↔
    WellNamed (vs.map (·.name)) ∧ ∀ v ∈ vs, v.payload ≠ .missing → v.payload.IsWellFormed := by
  rw [variantErrors, checkNames_nil_eq_nil_iff]
  refine and_congr_right fun _ => forall₂_congr fun v _ => ?_
  by_cases hv : v.payload = .missing
  · simp [Variant.isVoid, hv]
  · simp [Variant.isVoid, hv, typeErrors_eq_nil_iff_isWellFormed]

/-- The integers among the constants of a declaration are words of the kind
that they are held in. -/
def HoldsWords (d : Decl) : Prop :=
  ∀ t cs, d.body = .consts t cs → ∀ c ∈ cs, ∀ n, c.value = .int .int64 n →
    IntKind.int64.holds n = true

/-- **A declaration has no errors exactly if it is well formed.** -/
theorem errors_eq_nil_iff_isWellFormed (h : d.HoldsWords) :
    d.errors module = [] ↔ d.IsWellFormed := by
  have hextend : (if d.extend != [] && d.kind != .struct then
      [d.invalid module [] "only structs can extend a virtual struct"] else []) = [] ↔
      (d.extend ≠ [] → d.kind = .struct) := by
    simp
  rw [errors, List.append_eq_nil_iff, hextend, IsWellFormed]
  refine and_congr_right fun _ => ?_
  cases hb : d.body with
  | struct fs => exact fieldErrors_eq_nil_iff
  | virtual fs => exact fieldErrors_eq_nil_iff
  | union vs tag payload =>
    simp only [List.append_eq_nil_iff, variantErrors_eq_nil_iff, and_assoc]
    simp
  | newtype t => exact typeErrors_eq_nil_iff_isWellFormed
  | consts t cs => exact constErrors_eq_nil_iff (h t cs hb)
  | unknown n => simp

end Decl

namespace Module

/-- **A well-formed module**: its declarations have distinct identifiers for
names and are well formed. -/
structure IsWellFormed (m : Module) : Prop where
  names : WellNamed (m.decls.map (·.name))
  decls : ∀ d ∈ m.decls, d.IsWellFormed

/-- **Validation decides whether a module is well formed.** That constants
are held in words is all it relies on. -/
theorem errors_eq_nil_iff {m : Module} (h : ∀ d ∈ m.decls, d.HoldsWords) :
    m.errors = [] ↔ m.IsWellFormed := by
  rw [errors, checkNames_nil_eq_nil_iff]
  constructor
  · rintro ⟨hnames, hdecls⟩
    exact ⟨hnames, fun d hd => (Decl.errors_eq_nil_iff_isWellFormed (h d hd)).mp (hdecls d hd)⟩
  · rintro ⟨hnames, hdecls⟩
    exact ⟨hnames, fun d hd => (Decl.errors_eq_nil_iff_isWellFormed (h d hd)).mpr (hdecls d hd)⟩

namespace Sample

/-- A module with declarations of all kinds, and constants at the bounds of
their type. -/
def catalog : Module :=
  { name := "catalog", path := "catalog"
    decls := [
      { name := "Named", body := .virtual [{ name := "name", type := .scalar .string }] },
      { name := "Item", extend := "Named"
        body := .struct [{ name := "tags", type := .list (.optional (.scalar .string)) },
          { name := "parent", type := .ref [] "Item" }] },
      { name := "Price"
        body := .union [{ name := "Free" }, { name := "Fixed", payload := .scalar .decimal }]
          "kind" [] },
      { name := "Stock", body := .newtype (.map (.int 64)) },
      { name := "Level"
        body := .consts (.int 8) [{ name := "Low", value := .int .int64 (-128) },
          { name := "High", value := .int .int64 127 }] },
      { name := "Mark"
        body := .consts (.scalar .string) [{ name := "New", value := .text "new" }] }] }

/-- It passes validation, so it is well formed. -/
theorem catalog_isWellFormed :
    (∀ d ∈ catalog.decls, d.HoldsWords) ∧ catalog.errors = [] ∧ catalog.IsWellFormed := by
  have hwords : ∀ d ∈ catalog.decls, d.HoldsWords := by
    intro d hd t cs hb c hc n hn
    fin_cases hd <;> cases hb <;> fin_cases hc <;> cases hn <;> decide
  have herrors : catalog.errors = [] := by decide
  exact ⟨hwords, herrors, (errors_eq_nil_iff hwords).mp herrors⟩

end Sample

end Module

end WireModel
