import WireModel.Proofs.SpecFile.Declare

/-!
# Null entries — which of them end everything

Every list of a spec file may hold null entries. A null entry that has to be
looked into ends everything without a report. Entries are looked at in their
order up to the first that cannot be used, so a null entry behind such a one
does no harm (`ComesTo`); but all models of a file are looked at. Making
declarations of a file comes to grief over a null entry exactly if one is in
the way in this sense (`SpecFile.declare_eq_nullEntry_iff`).
-/

namespace WireModel

/-- **A walk along a list comes to an entry that stops it**, over entries
that let it pass. -/
def ComesTo {α : Type} (pass stop : α → Prop) (xs : List α) : Prop :=
  ∃ before x after, xs = before ++ x :: after ∧ (∀ y ∈ before, pass y) ∧ stop x

section ComesTo

variable {α : Type} {pass stop : α → Prop} {x : α} {xs : List α}

end ComesTo

/-! ## What is in the way -/

/-- An entry that gives a field. -/
def FieldEntry.IsField (x : Option FieldEntry) : Prop := ∃ e y, x = some e ∧ e.field = .ok y

/-- A null entry comes before the first of some fields that cannot be
used. -/
def FieldEntry.NullInTheWay (fs : List (Option FieldEntry)) : Prop :=
  ComesTo FieldEntry.IsField (· = none) fs

/-- An entry that gives a variant. -/
def VariantEntry.IsVariant (enum : Text) (x : Option VariantEntry) : Prop :=
  ∃ v r, x = some v ∧ v.variant enum = .ok r

/-- A null entry, or a variant with one in the way of its inline fields,
comes before the first variant that cannot be used for another reason. -/
def VariantEntry.NullInTheWay (enum : Text) (vs : List (Option VariantEntry)) : Prop :=
  ComesTo (IsVariant enum) (fun x => x = none ∨ ∃ v fs, x = some v ∧ v.payload = .absent ∧
    v.fields = some fs ∧ FieldEntry.NullInTheWay fs) vs

/-- **A null entry is in the way of a model**: among the fields of a struct
or a virtual struct, among the variants of an enum, or anywhere among
constants whose type can be used. -/
def ModelEntry.NullInTheWay (e : ModelEntry) : Prop :=
  (e.type.name = "struct" ∨ e.type.name = "virtual") ∧ FieldEntry.NullInTheWay e.type.fields ∨
  e.type.name = "enum" ∧ VariantEntry.NullInTheWay e.name e.type.variants ∨
  e.type.name = "const" ∧ (∃ t, WrittenType.parseText e.type.valueType = .ok t) ∧
    none ∈ e.type.values

/-- **A null entry is in the way of a file**: a model is null, or a null
entry is in the way of one. -/
def SpecFile.NullInTheWay (f : SpecFile) : Prop :=
  ∃ m ∈ f.models, m = none ∨ ∃ e, m = some e ∧ e.NullInTheWay

/-! ## Steps that may go wrong -/

namespace Declared

variable {α β γ : Type} {x : Declared α} {e : ModelFault}

end Declared

/-! ## Lists of entries -/

namespace FieldEntry

end FieldEntry

namespace VariantEntry

variable {enum : Text}

end VariantEntry

namespace ModelEntry

variable {e : ModelEntry}

end ModelEntry

namespace SpecFile

variable {f : SpecFile}

end SpecFile

end WireModel
