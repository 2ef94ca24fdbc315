import WireModel.Proofs.Schema.Reference
import WireModel.Proofs.Source.Selection

/-!
# Encodable types — what is linked can be encoded

Validation sees to kinds, items and optionals in optionals, binding to
targets that have values, and a field that may be left out makes its type
optional only if it is not yet. So the types of the members of a linked
declaration are in order, and each consumer of the rule table finds what it
needs in them: their rules are encodable and have no null inside null, no
part of their schemas refuses every value, and generated code is selected
for them without a default (`encodable_of_resolve`).
-/

namespace WireModel

/-! ## Parts of rules and schemas -/

/-- A rule and the rules of the items in it. -/
def Rule.parts : Rule → List Rule
  | sequence e => sequence e :: e.parts
  | mapping e => mapping e :: e.parts
  | nullable e => nullable e :: e.parts
  | r => [r]

namespace Schema

mutual

/-- A schema and the schemas in it. -/
def parts : Schema → List Schema
  | array item => array item :: item.parts
  | dictionary value => dictionary value :: value.parts
  | nullable s => nullable s :: s.parts
  | object properties required => object properties required :: propertyParts properties
  | oneOf schemas => oneOf schemas :: listParts schemas
  | enum values s => enum values s :: s.parts
  | titled title s => titled title s :: s.parts
  | described description s => described description s :: s.parts
  | s => [s]

/-- The schemas in properties. -/
def propertyParts : List (Text × Schema) → List Schema
  | [] => []
  | (_, s) :: ps => s.parts ++ propertyParts ps

/-- The schemas in a list. -/
def listParts : List Schema → List Schema
  | [] => []
  | s :: ss => s.parts ++ listParts ss

end

/-- **A rule that is encodable** has a schema in which nothing is refused
altogether. -/
theorem never_not_mem_parts_ofRule {w : Workspace} {n : Nat} {r : Rule}
    (h : r.isEncodable = true) : never ∉ (ofRule w n r).parts := by
  have href : ∀ id, never ∉ (refTo w n id).parts := by
    intro id
    unfold refTo
    dsimp only
    split <;> simp [parts]
  induction r with
  | notEncodable => cases h
  | identity kind width => cases kind <;> simp [ofRule, ofScalar, parts]
  | decimalString kind => simp [ofRule, parts]
  | byteSequence => simp [ofRule, byte, parts]
  | passthrough => simp [ofRule, parts]
  | sequence e ih => simpa [ofRule, parts] using ih h
  | mapping e ih => simpa [ofRule, parts] using ih h
  | nullable e ih => simpa [ofRule, parts] using ih h
  | record id => exact href id
  | tagged id => exact href id
  | transparent id => exact href id

end Schema

/-! ## Types in order -/

namespace ModuleGraph

variable {g : ModuleGraph} {t : TypeExpr}

/-- The rule of a reference to a declaration that has values names it. -/
theorem decl?_ofTarget {id : DeclId} {m : LinkedModule} {d : Decl} (hd : g.Declares id m d)
    (hinst : d.isInstantiable = true) :
    (Rule.ofTarget g.workspace (some id)).decl? = some id := by
  have hdecl := hd.2
  simp only [Rule.ofTarget, hdecl]
  unfold Decl.isInstantiable at hinst
  cases hb : d.body <;> simp_all [Rule.decl?]

/-- **A type that is in order is encodable.** -/
theorem InOrder.isEncodable (h : g.InOrder t) : (Rule.ofType g.workspace t).isEncodable = true := by
  induction h with
  | @scalar k width r elem hk => cases k <;> first | rfl | cases hk
  | list h ih => exact ih
  | map h ih => exact ih
  | optional h hopt ih => exact ih
  | ref ht hd hinst =>
    have hnames := decl?_ofTarget hd hinst
    simp only [Rule.ofType, Option.bind_some, ht]
    cases hrule : Rule.ofTarget g.workspace (some _) <;> simp_all [Rule.decl?, Rule.isEncodable]

/-- Only an optional has a nullable rule. -/
theorem isOptional_of_nullable {r : Rule} (h : Rule.ofType g.workspace t = .nullable r) :
    t.isOptional = true := by
  cases t with
  | missing => cases h
  | node k width ref elem =>
    cases k with
    | optional => rfl
    | ref =>
      simp only [Rule.ofType, Rule.ofTarget] at h
      repeat' split at h
      all_goals cases h
    | _ => cases h

/-- **In a type that is in order no null stands directly inside null.** -/
theorem InOrder.nullable_apart (h : g.InOrder t) (r : Rule) :
    Rule.nullable (.nullable r) ∉ (Rule.ofType g.workspace t).parts := by
  induction h with
  | @scalar k width r elem hk => cases k <;> first | (simp [Rule.ofType, Rule.parts]; done) | cases hk
  | list h ih => simpa [Rule.ofType, Rule.parts] using ih
  | map h ih => simpa [Rule.ofType, Rule.parts] using ih
  | optional h hopt ih =>
    rw [Rule.ofType, Rule.parts, List.mem_cons, not_or]
    refine ⟨fun heq => ?_, ih⟩
    rw [isOptional_of_nullable (Rule.nullable.inj heq).symm] at hopt
    cases hopt
  | ref ht hd hinst =>
    have hnames := decl?_ofTarget hd hinst
    simp only [Rule.ofType, Option.bind_some, ht]
    cases hrule : Rule.ofTarget g.workspace (some _) <;> simp_all [Rule.decl?, Rule.parts]

end ModuleGraph

/-! ## Members of linked declarations -/

/-- The types of the members of a declaration: of its fields, those taken
over included, of its payloads, and the one it wraps. -/
def Workspace.memberTypes (w : Workspace) (d : Decl) : List TypeExpr :=
  match d.body with
  | .struct _ | .virtual _ => (w.allFields d).map (·.effectiveType)
  | .union vs _ _ => (vs.filter fun v => !v.isVoid).map (·.payload)
  | .newtype t => [t]
  | _ => []

/-- **What the consumers of the rule table need** of a member's type, in the
module that declares it. -/
structure ModuleGraph.Encodable (g : ModuleGraph) (cfg : Config) (m : LinkedModule)
    (t : TypeExpr) : Prop where
  /-- Its values can be encoded. -/
  encodable : (Rule.ofType g.workspace t).isEncodable = true
  /-- No null stands directly inside null. -/
  nullable_apart : ∀ r, Rule.nullable (.nullable r) ∉ (Rule.ofType g.workspace t).parts
  /-- No part of its schema refuses every value. -/
  schema_allows : Schema.never ∉ (Schema.ofType g.workspace m.id t).parts
  /-- Its generated type is selected without a default. -/
  typed : (⟨cfg, g, m⟩ : Source.Context).typeTerm? t =
    some ((⟨cfg, g, m⟩ : Source.Context).typeTerm t)
  /-- So is its decoder. -/
  decoded : (⟨cfg, g, m⟩ : Source.Context).decoder? t =
    some ((⟨cfg, g, m⟩ : Source.Context).readerExpr (Reader.ofType g.workspace t))
  /-- So is the function that encodes its values. -/
  encoded : (⟨cfg, g, m⟩ : Source.Context).encoder? t =
    some ((⟨cfg, g, m⟩ : Source.Context).encoder t)
  /-- And the expression that encodes one of them. -/
  value_encoded : ∀ x, (⟨cfg, g, m⟩ : Source.Context).encode? x t =
    some ((⟨cfg, g, m⟩ : Source.Context).encode x t)

theorem ModuleGraph.InOrder.encodable {g : ModuleGraph} {t : TypeExpr} (h : g.InOrder t)
    (cfg : Config) (m : LinkedModule) : g.Encodable cfg m t where
  encodable := h.isEncodable
  nullable_apart := h.nullable_apart
  schema_allows := Schema.never_not_mem_parts_ofRule h.isEncodable
  typed := Source.Context.typeTerm?_eq_some h
  decoded := Source.Context.decoder?_eq_some h
  encoded := (Source.Context.encoders_eq_some h).1
  value_encoded := (Source.Context.encoders_eq_some h).2

/-- **Everything linked is encodable.** In a graph that linking gives, the
type of every field, own or taken over, of every payload and of every
newtype has an encodable rule without null inside null, a schema that
refuses nothing altogether, and a type, a decoder and encoders in generated
code that lead to a declaration for every reference. -/
theorem encodable_of_resolve {w : Workspace} {ids : List Nat} {g : ModuleGraph}
    (hbases : BasesLinked w) (h : (resolve w ids).2 = .ok g) {id : DeclId} {m : LinkedModule}
    {d : Decl} (hd : g.Declares id m d) {t : TypeExpr} (ht : t ∈ g.workspace.memberTypes d)
    (cfg : Config) : g.Encodable cfg m t := by
  have hl := linked_of_resolve hbases h
  refine ModuleGraph.InOrder.encodable (ModuleGraph.TypeOk.inOrder ?_) cfg m
  unfold Workspace.memberTypes at ht
  cases hb : d.body with
  | struct fs =>
    rw [hb] at ht
    obtain ⟨f, hf, rfl⟩ := List.mem_map.mp ht
    exact typeOk_of_mem_allFields hbases h hd hf
  | virtual fs =>
    rw [hb] at ht
    obtain ⟨f, hf, rfl⟩ := List.mem_map.mp ht
    exact typeOk_of_mem_allFields hbases h hd hf
  | union vs tag payload =>
    rw [hb] at ht
    obtain ⟨v, hv, rfl⟩ := List.mem_map.mp ht
    have hvoid : v.isVoid = false := by simpa using (List.mem_filter.mp hv).2
    have hmem : v ∈ d.variants := by
      rw [Decl.variants, hb]
      exact (List.mem_filter.mp hv).1
    exact hl.typeOk hd _ (mem_heldTypes_of_variant hmem hvoid)
  | newtype t' =>
    rw [hb] at ht
    obtain rfl := List.mem_singleton.mp ht
    exact hl.typeOk hd _ (mem_heldTypes_of_newtype hb)
  | consts c cs => simp [hb] at ht
  | unknown n => simp [hb] at ht

/-- So the lists of identifiers in the sample are encodable. -/
theorem Sample.ids_encodable : BasesLinked modules ∧
    (resolve modules [0, 1]).2 = .ok sampleGraph ∧
    ∃ m t, sampleGraph.Declares ⟨1, 8⟩ m idsDecl ∧
      t ∈ sampleGraph.workspace.memberTypes idsDecl ∧ sampleGraph.Encodable .initial m t := by
  obtain ⟨m, hm⟩ := declares_ids
  have hmem : _ ∈ sampleGraph.workspace.memberTypes idsDecl := List.mem_singleton.mpr rfl
  exact ⟨basesLinked_modules, resolve_modules, m, _, hm, hmem,
    encodable_of_resolve basesLinked_modules resolve_modules hm hmem .initial⟩

end WireModel
