import Mathlib.Data.List.Nodup
import Mathlib.Data.List.Perm.Basic
import WireModel.Proofs.Text.Cut
import WireModel.Source.Build

/-!
# Names that generated source declares

Two declarations of a file may not have the same name, and neither may two
members of a type. The names can be read off the source itself: what each
declaration adds to its package (`Item.packageNames`) and what it adds to a
type (`Item.memberNames`), be it a field, a method or a member of an
interface.

The source that is built for a declaration of a spec declares the names
that are reckoned with before it is built (`Context.packageNamesOf_items`,
`Context.nodup_memberNamesOf_items`), but for the table of a group without
constants, which is not built. Comments declare nothing, whatever they
hold.
-/

namespace WireModel.Source

/-! ## Names of source -/

/-- The identifier that declares nothing. -/
def blank : Text := "_"

/-- The name of a member of an interface, if it is no other interface. -/
def Member.name? : Member → Option Text
  | .embedded _ => none
  | .method name _ => some name

/-- The names that a declaration makes in its package. A method makes none,
and neither does a variable without a name. -/
def Item.packageNames : Item → List Text
  | .struct n _ | .interface n _ | .defined n _ => [n]
  | .func f => if f.receiver.isSome then [] else [f.name]
  | .consts cs => cs.map (·.name)
  | .var n _ _ => if n = blank then [] else [n]

/-- The names that a declaration makes in a type. -/
def Item.memberNames (type : Text) : Item → List Text
  | .struct n fs => if n = type then fs.map (·.name) else []
  | .interface n ms => if n = type then ms.filterMap Member.name? else []
  | .func f => if f.receiver.map (·.type) = some type then [f.name] else []
  | .defined _ _ | .consts _ | .var _ _ _ => []

/-- The names that declarations make in their package. -/
def packageNamesOf (ds : List Documented) : List Text := ds.flatMap (·.item.packageNames)

/-- The names that declarations make in a type. -/
def memberNamesOf (type : Text) (ds : List Documented) : List Text :=
  ds.flatMap (·.item.memberNames type)

/-- **No name is declared twice**, in the package or in a type. -/
structure NoNameTwice (ds : List Documented) : Prop where
  package : (packageNamesOf ds).Nodup
  members : ∀ type, (memberNamesOf type ds).Nodup

section Lemmas

variable {n type : Text} {t : TypeTerm} {d : Documented} {ds es : List Documented}

@[simp] theorem Item.packageNames_struct {fs : List FieldDecl} :
    (Item.struct n fs).packageNames = [n] := rfl

@[simp] theorem Item.packageNames_interface {ms : List Member} :
    (Item.interface n ms).packageNames = [n] := rfl

@[simp] theorem Item.packageNames_defined : (Item.defined n t).packageNames = [n] := rfl

@[simp] theorem Item.packageNames_func {f : FuncDecl} :
    (Item.func f).packageNames = if f.receiver.isSome then [] else [f.name] := rfl

@[simp] theorem Item.packageNames_consts {cs : List ConstDecl} :
    (Item.consts cs).packageNames = cs.map (·.name) := rfl

@[simp] theorem Item.packageNames_var {t : Option TypeTerm} {x : Expr} :
    (Item.var n t x).packageNames = if n = blank then [] else [n] := rfl

@[simp] theorem Item.memberNames_struct {fs : List FieldDecl} :
    (Item.struct n fs).memberNames type = if n = type then fs.map (·.name) else [] := rfl

@[simp] theorem Item.memberNames_interface {ms : List Member} :
    (Item.interface n ms).memberNames type =
      if n = type then ms.filterMap Member.name? else [] := rfl

@[simp] theorem Item.memberNames_defined : (Item.defined n t).memberNames type = [] := rfl

@[simp] theorem Item.memberNames_func {f : FuncDecl} : (Item.func f).memberNames type =
    if f.receiver.map (·.type) = some type then [f.name] else [] := rfl

@[simp] theorem Item.memberNames_consts {cs : List ConstDecl} :
    (Item.consts cs).memberNames type = [] := rfl

@[simp] theorem Item.memberNames_var {t : Option TypeTerm} {x : Expr} :
    (Item.var n t x).memberNames type = [] := rfl

@[simp] theorem packageNamesOf_nil : packageNamesOf [] = [] := rfl

@[simp] theorem packageNamesOf_cons :
    packageNamesOf (d :: ds) = d.item.packageNames ++ packageNamesOf ds := List.flatMap_cons

@[simp] theorem packageNamesOf_append :
    packageNamesOf (ds ++ es) = packageNamesOf ds ++ packageNamesOf es := List.flatMap_append

@[simp] theorem memberNamesOf_nil : memberNamesOf type [] = [] := rfl

@[simp] theorem memberNamesOf_cons :
    memberNamesOf type (d :: ds) = d.item.memberNames type ++ memberNamesOf type ds :=
  List.flatMap_cons

@[simp] theorem memberNamesOf_append :
    memberNamesOf type (ds ++ es) = memberNamesOf type ds ++ memberNamesOf type es :=
  List.flatMap_append

theorem packageNamesOf_flatMap {α : Type} {l : List α} {f : α → List Documented} :
    packageNamesOf (l.flatMap f) = l.flatMap fun a => packageNamesOf (f a) := List.flatMap_assoc

theorem memberNamesOf_flatMap {α : Type} {l : List α} {f : α → List Documented} :
    memberNamesOf type (l.flatMap f) = l.flatMap fun a => memberNamesOf type (f a) :=
  List.flatMap_assoc

end Lemmas

/-- **Lists that are found by a key** hold nothing twice together if no two
of them have the key. -/
theorem nodup_flatMap_of_owned {α β γ : Type} {l : List α} {f : α → List β} {owned : α → List γ}
    (key : γ) (howned : (l.flatMap owned).Nodup) (hf : ∀ a ∈ l, (f a).Nodup)
    (hkey : ∀ a, ∀ x ∈ f a, key ∈ owned a) : (l.flatMap f).Nodup :=
  List.nodup_flatMap.mpr ⟨hf, (List.nodup_flatMap.mp howned).2.imp
    fun hdisjoint x hx hx' => hdisjoint (hkey _ x hx) (hkey _ x hx')⟩

/-! ## Names of tables -/

/-- A plural is another word only if it has at least two bytes. -/
theorem two_le_length_pluralize {t : Text} (h : Naming.pluralize t ≠ t) :
    2 ≤ (Naming.pluralize t).length := by
  have hrules : ∀ r ∈ Naming.pluralRules, 2 ≤ r.plural.length ∨
      r.wholeWord = false ∧ r.ending = r.plural := by decide +kernel
  rw [Naming.pluralize] at h ⊢
  split at h
  · exact absurd rfl h
  rename_i hne
  split at h
  · exact absurd rfl h
  rename_i hcount
  rw [if_neg hne, if_neg hcount]
  cases hfind : Naming.pluralRules.findSome? (·.pluralOf? t) with
  | none =>
    have hpos : 0 < t.length := List.length_pos_iff.mpr (by simpa using hne)
    have hs : (Text.ofString "s").length = 1 := by decide
    rw [Option.getD_none, List.length_append, hs]
    omega
  | some p =>
    rw [hfind, Option.getD_some] at h
    rw [Option.getD_some]
    obtain ⟨r, hr, hp⟩ := List.exists_of_findSome?_eq_some hfind
    rw [Naming.PluralRule.pluralOf?] at hp
    rcases hrules r hr with hlong | ⟨hsuffix, hsame⟩
    · split at hp
      · split at hp
        · rwa [← Option.some.inj hp]
        · cases hp
      · obtain ⟨stem, -, rfl⟩ := Option.map_eq_some_iff.mp hp
        rw [List.length_append]
        omega
    · -- an ending that is its own plural leaves the word as it is
      rw [hsuffix, if_neg (by simp)] at hp
      obtain ⟨stem, hstem, rfl⟩ := Option.map_eq_some_iff.mp hp
      rw [← hsame, Text.append_of_stripEnd? hstem] at h
      exact absurd rfl h

/-- A plural in the case of a name is as long as the plural. -/
theorem length_keepCase (name lower plural : Text) :
    (Naming.keepCase name lower plural).length = plural.length := by
  induction plural generalizing name lower with
  | nil => cases name <;> cases lower <;> rfl
  | cons p ps ih =>
    cases name with
    | nil => rfl
    | cons n ns =>
      cases lower with
      | nil => rfl
      | cons l ls =>
        rw [Naming.keepCase]
        split
        · rw [List.length_cons, ih, List.length_cons]
        · rfl

/-- **A table has a name.** -/
theorem tableName_ne_blank (d : Decl) : tableName d ≠ blank := by
  suffices hlong : 2 ≤ (tableName d).length by
    intro h
    rw [h] at hlong
    revert hlong
    decide
  simp only [tableName, Naming.plural]
  split
  · have hmark : (Text.ofString "Values").length = 6 := by decide
    rw [List.length_append, hmark]
    omega
  · rename_i hother
    rw [length_keepCase]
    exact two_le_length_pluralize (by simpa using hother)

namespace Context

variable {c : Context} {id : DeclId} {d base : Decl} {type : Text} {t : TypeExpr}

/-! ## What the source of a declaration declares -/

/-- The table of a group without constants, which is reckoned with but not
built. -/
def emptyTable (d : Decl) : List Text :=
  match d.body with
  | .consts _ [] => [tableName d]
  | _ => []

@[simp] theorem memberNames_serializeMethod {name : Option Text} {owner : Text} {x : Expr} :
    (serializeMethod name owner x).memberNames type =
      if owner = type then [Text.ofString "Serialize"] else [] := by
  simp [serializeMethod]

@[simp] theorem packageNames_serializeMethod {name : Option Text} {owner : Text} {x : Expr} :
    (serializeMethod name owner x).packageNames = [] := rfl

@[simp] theorem packageNames_deserializer {body : List Stmt} :
    (deserializer d body).item.packageNames = [deserializerName d] := rfl

@[simp] theorem memberNames_deserializer {body : List Stmt} :
    (deserializer d body).item.memberNames type = [] := rfl

@[simp] theorem packageNamesOf_accessors : packageNamesOf (c.accessors id d base) = [] := by
  rw [accessors, packageNamesOf_append, packageNamesOf, List.flatMap_map]
  simp [blank]

/-- The accessors belong to the type of the struct. -/
@[simp] theorem memberNamesOf_accessors : memberNamesOf type (c.accessors id d base) =
    if typeName d = type then (c.workspace.allFields base).map getterName else [] := by
  rw [accessors, memberNamesOf_append, memberNamesOf, List.flatMap_map]
  by_cases h : typeName d = type
  · simp [h, List.map_eq_flatMap]
  · simp [h]

theorem packageNamesOf_structItems :
    packageNamesOf (c.structItems id d) = [typeName d, deserializerName d] := by
  rw [structItems]
  cases d.base.bind c.workspace.decl? <;> simp

/-- **The members of a struct** are its fields, the method that encodes it,
and the accessors of what it extends. -/
theorem memberNamesOf_structItems : memberNamesOf type (c.structItems id d) =
    if typeName d = type then
      (c.workspace.allFields d).map fieldName ++ Text.ofString "Serialize" ::
        ((d.base.bind c.workspace.decl?).map
          fun b => (c.workspace.allFields b).map getterName).getD []
    else [] := by
  rw [structItems]
  by_cases h : typeName d = type
  · cases d.base.bind c.workspace.decl? <;> simp [h, Function.comp_def]
  · cases d.base.bind c.workspace.decl? <;> simp [h]

theorem packageNamesOf_virtualItems : packageNamesOf (c.virtualItems d) = [typeName d] := rfl

theorem memberNamesOf_virtualItems : memberNamesOf type (c.virtualItems d) =
    if typeName d = type then d.fields.map getterName else [] := by
  simp [virtualItems, Function.comp_def, Member.name?]

theorem packageNamesOf_variantItems {v : Variant} :
    packageNamesOf (c.variantItems d v) = [variantName d v] := by
  rw [variantItems]
  cases v.isVoid <;> simp

/-- **The members of a variant** are its payload, if it has one, the method
that marks it and the one that encodes it. -/
theorem memberNamesOf_variantItems {v : Variant} : memberNamesOf type (c.variantItems d v) =
    if variantName d v = type then
      (if v.isVoid then [] else [Text.ofString "Payload"]) ++
        [markerName d, Text.ofString "Serialize"]
    else [] := by
  rw [variantItems]
  by_cases h : variantName d v = type
  · cases v.isVoid <;> simp [h]
  · cases v.isVoid <;> simp [h]

theorem packageNamesOf_unionItems : packageNamesOf (c.unionItems d) =
    typeName d :: d.variants.map (variantName d) ++ [deserializerName d] := by
  have hvariants : packageNamesOf (d.variants.flatMap (c.variantItems d)) =
      d.variants.map (variantName d) := by
    rw [packageNamesOf_flatMap, List.map_eq_flatMap]
    exact List.flatMap_congr fun v _ => packageNamesOf_variantItems
  rw [unionItems, packageNamesOf_append, packageNamesOf_append, hvariants]
  simp

theorem memberNamesOf_unionItems : memberNamesOf type (c.unionItems d) =
    (if typeName d = type then [markerName d] else []) ++
      d.variants.flatMap fun v => memberNamesOf type (c.variantItems d v) := by
  rw [unionItems, memberNamesOf_append, memberNamesOf_append, memberNamesOf_flatMap]
  simp [Member.name?, List.filterMap]

theorem packageNamesOf_newtypeItems :
    packageNamesOf (c.newtypeItems id d t) = [typeName d, deserializerName d] := by
  rw [newtypeItems]
  cases c.isWrapper id t <;> simp

theorem memberNamesOf_newtypeItems : memberNamesOf type (c.newtypeItems id d t) =
    if typeName d = type then
      (if c.isWrapper id t then [Text.ofString "Value"] else []) ++ [Text.ofString "Serialize"]
    else [] := by
  rw [newtypeItems]
  by_cases h : typeName d = type
  · cases c.isWrapper id t <;> simp [h]
  · cases c.isWrapper id t <;> simp [h]

/-- **A group of constants** declares its type, the constants and their
table; without constants the type only. -/
theorem packageNamesOf_constItems {cs : List Const} : packageNamesOf (c.constItems d t cs) =
    typeName d :: if cs.isEmpty then [] else cs.map (constName d) ++ [tableName d] := by
  rw [constItems]
  cases cs with
  | nil => rfl
  | cons k cs => simp [tableName_ne_blank, Function.comp_def]

theorem memberNamesOf_constItems {cs : List Const} :
    memberNamesOf type (c.constItems d t cs) = [] := by
  rw [constItems]
  cases cs with
  | nil => rfl
  | cons k cs => simp

/-! ## What is reckoned with -/

/-- **The names that are reckoned with are declared**, but for the tables of
groups without constants. -/
theorem packageNamesOf_items (hd : c.decl id = d) (hknown : ∀ n, d.body ≠ .unknown n) :
    (packageNamesOf (c.items id) ++ emptyTable d).Perm ((packageNames d).map (·.1)) := by
  rw [items, hd, emptyTable, packageNames, Decl.isInstantiable]
  cases hbody : d.body with
  | struct fs => simp [packageNamesOf_structItems]
  | virtual fs => simp [packageNamesOf_virtualItems]
  | newtype t => simp [packageNamesOf_newtypeItems]
  | unknown n => exact absurd hbody (hknown n)
  | union vs tag payload =>
    have hvariants : d.variants = vs := by rw [Decl.variants, hbody]
    simp only [packageNamesOf_unionItems, hvariants, if_true, List.append_nil, List.map_map,
      List.cons_append, List.nil_append, List.map_cons]
    exact List.perm_append_comm.cons _
  | consts t cs =>
    cases cs with
    | nil => simp [packageNamesOf_constItems]
    | cons k cs => simp [packageNamesOf_constItems, Function.comp_def]

/-- **A member belongs to a type that is declared with it.** -/
theorem mem_packageNamesOf_items {x : Text} (h : x ∈ memberNamesOf type (c.items id)) :
    type ∈ packageNamesOf (c.items id) := by
  have hown : ∀ {owner : Text} {l : List Text}, x ∈ (if owner = type then l else []) →
      owner = type := by
    intro owner l h
    by_contra hne
    simp [hne] at h
  rw [items] at h ⊢
  cases hbody : (c.decl id).body with
  | struct fs =>
    simp only [hbody, memberNamesOf_structItems] at h
    simp [packageNamesOf_structItems, hown h]
  | virtual fs =>
    simp only [hbody, memberNamesOf_virtualItems] at h
    simp [packageNamesOf_virtualItems, hown h]
  | newtype t =>
    simp only [hbody, memberNamesOf_newtypeItems] at h
    simp [packageNamesOf_newtypeItems, hown h]
  | unknown n => simp [hbody] at h
  | consts t cs => simp [hbody, memberNamesOf_constItems] at h
  | union vs tag payload =>
    simp only [hbody, memberNamesOf_unionItems, List.mem_append, List.mem_flatMap,
      memberNamesOf_variantItems] at h
    simp only [packageNamesOf_unionItems]
    rcases h with h | ⟨v, hv, h⟩
    · simp [hown h]
    · rw [← hown h]
      simp only [List.cons_append, List.mem_cons, List.mem_append]
      exact Or.inr (Or.inl (List.mem_map_of_mem hv))

/-- The method that marks a variant is not called like another member. -/
theorem markerName_ne {name : Text} (h : name.head? ≠ some 'i'.toUInt8) : markerName d ≠ name := by
  rintro rfl
  exact h rfl

theorem nodup_ite {owner : Text} {l : List Text} (h : l.Nodup) :
    (if owner = type then l else []).Nodup := by
  split
  · exact h
  · exact List.nodup_nil

/-- The members of the types of a union are distinct if its types are. -/
theorem nodup_memberNamesOf_unionItems (hpackage : (packageNamesOf (c.unionItems d)).Nodup) :
    (memberNamesOf type (c.unionItems d)).Nodup := by
  rw [packageNamesOf_unionItems, List.cons_append, List.nodup_cons, List.mem_append,
    List.nodup_append, List.map_eq_flatMap] at hpackage
  obtain ⟨htype, hvariants, -⟩ := hpackage
  have hmarker : markerName d ≠ "Serialize" ∧ markerName d ≠ "Payload" :=
    ⟨markerName_ne (by decide), markerName_ne (by decide)⟩
  have hmember : (d.variants.flatMap fun v => memberNamesOf type (c.variantItems d v)).Nodup := by
    refine nodup_flatMap_of_owned type hvariants (fun v _ => ?_) fun v x hx => ?_
    · rw [memberNamesOf_variantItems]
      refine nodup_ite ?_
      have hpayload : Text.ofString "Payload" ≠ Text.ofString "Serialize" := by decide
      cases v.isVoid <;> simp [hmarker, hmarker.2.symm, hpayload]
    · by_contra hne
      rw [memberNamesOf_variantItems, if_neg (by simpa [eq_comm] using hne)] at hx
      cases hx
  rw [memberNamesOf_unionItems, List.nodup_append]
  refine ⟨nodup_ite (List.nodup_singleton _), hmember, fun x hx y hy => ?_⟩
  -- the type of the union is none of its variants
  exfalso
  by_cases howner : typeName d = type
  · obtain ⟨v, hv, hy⟩ := List.mem_flatMap.mp hy
    refine htype (Or.inl (List.mem_flatMap.mpr ⟨v, hv, ?_⟩))
    by_contra hne
    rw [memberNamesOf_variantItems, if_neg (by simpa [howner, eq_comm] using hne)] at hy
    cases hy
  · rw [if_neg howner] at hx
    cases hx

/-- **The members that are reckoned with are declared** in the type of a
struct or of a virtual struct. -/
theorem memberNamesOf_items (hd : c.decl id = d) (hkind : d.kind = .struct ∨ d.kind = .virtual) :
    (memberNamesOf (typeName d) (c.items id)).Perm ((memberNames c.workspace d).map (·.1)) := by
  rw [items, hd, memberNames]
  rw [Decl.kind] at hkind
  cases hbody : d.body with
  | struct fs =>
    simp only [memberNamesOf_structItems, if_true]
    cases d.base.bind c.workspace.decl? with
    | none => simp [Function.comp_def, List.perm_append_singleton]
    | some b => simp [Function.comp_def, List.perm_middle]
  | virtual fs =>
    have hfields : d.fields = fs := by rw [Decl.fields, hbody]
    simp [memberNamesOf_virtualItems, hfields, Function.comp_def]
  | _ => simp [hbody, Body.kind] at hkind

/-- Other declarations are reckoned with no members. -/
theorem memberNames_eq_nil {w : Workspace} (hkind : ¬ (d.kind = .struct ∨ d.kind = .virtual)) :
    memberNames w d = [] := by
  rw [memberNames]
  rw [Decl.kind] at hkind
  cases hbody : d.body with
  | struct fs => exact absurd (Or.inl (by rw [hbody, Body.kind])) hkind
  | virtual fs => exact absurd (Or.inr (by rw [hbody, Body.kind])) hkind
  | _ => rfl

/-- **The members of every type are distinct** if and only if those are that
are reckoned with, where the types are. -/
theorem nodup_memberNamesOf_items (hd : c.decl id = d)
    (hpackage : (packageNamesOf (c.items id)).Nodup) :
    (∀ type, (memberNamesOf type (c.items id)).Nodup) ↔
      ((memberNames c.workspace d).map (·.1)).Nodup := by
  by_cases hkind : d.kind = .struct ∨ d.kind = .virtual
  · rw [← (memberNamesOf_items hd hkind).nodup_iff]
    refine ⟨fun h => h _, fun h type => ?_⟩
    by_cases howner : typeName d = type
    · rwa [← howner]
    · -- there is but one type
      rw [items, hd]
      rw [Decl.kind] at hkind
      cases hbody : d.body with
      | struct fs => simp [memberNamesOf_structItems, howner]
      | virtual fs => simp [memberNamesOf_virtualItems, howner]
      | _ => simp [hbody, Body.kind] at hkind
  · rw [memberNames_eq_nil hkind]
    refine iff_of_true (fun type => ?_) List.nodup_nil
    rw [items, hd] at hpackage ⊢
    rw [Decl.kind] at hkind
    cases hbody : d.body with
    | struct fs => exact absurd (Or.inl (by rw [hbody, Body.kind])) hkind
    | virtual fs => exact absurd (Or.inr (by rw [hbody, Body.kind])) hkind
    | union vs tag payload =>
      rw [hbody] at hpackage
      exact nodup_memberNamesOf_unionItems hpackage
    | newtype t =>
      simp only [memberNamesOf_newtypeItems]
      refine nodup_ite ?_
      cases c.isWrapper id t <;> decide
    | consts t cs =>
      simp only [memberNamesOf_constItems]
      exact List.nodup_nil
    | unknown n => exact List.nodup_nil

end Context

end WireModel.Source
