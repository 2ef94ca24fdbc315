import WireModel.Proofs.Decode.RoundTrip
import WireModel.Proofs.Link.Bindings
import WireModel.Proofs.Link.Emission
import WireModel.Proofs.Text.Path
import WireModel.Schema.Document

/-!
# References of schema documents

A reference in a schema document names a definition: of the same document,
or of the document at a path relative to it. The references of a document
are those of the types of its declarations, linking has led each of them
to a declaration that has values, and every such declaration has a
definition in the document of its module. So documents are closed under
references (`schema_refs_closed`), where all modules have names with
relative paths between them.
-/

namespace WireModel

open Linking

/-! ## What stands in a document -/

namespace Value

/-- The text of an entry with the key `$ref`. -/
def refText? (key : Text) : Value → Option Text
  | text t => if key == "$ref" then some t else none
  | _ => none

mutual

/-- The texts under the key `$ref`, at any depth. -/
def refTexts : Value → List Text
  | list vs => listRefTexts vs
  | map es => entryRefTexts es
  | _ => []

/-- The texts under the key `$ref` in some values. -/
def listRefTexts : List Value → List Text
  | [] => []
  | v :: vs => v.refTexts ++ listRefTexts vs

/-- The texts under the key `$ref` in some entries. -/
def entryRefTexts : List (Text × Value) → List Text
  | [] => []
  | (k, v) :: es => (refText? k v).toList ++ v.refTexts ++ entryRefTexts es

end

@[simp] theorem entryRefTexts_append (es es' : List (Text × Value)) :
    entryRefTexts (es ++ es') = entryRefTexts es ++ entryRefTexts es' := by
  induction es with
  | nil => simp [entryRefTexts]
  | cons e es ih => simp [entryRefTexts, ih]

theorem listRefTexts_eq_flatMap (vs : List Value) : listRefTexts vs = vs.flatMap refTexts := by
  induction vs with
  | nil => rfl
  | cons v vs ih => rw [listRefTexts, ih, List.flatMap_cons]

theorem entryRefTexts_text {k t : Text} {es : List (Text × Value)}
    (h : (k == Text.ofString "$ref") = false) :
    entryRefTexts ((k, text t) :: es) = entryRefTexts es := by
  simp [entryRefTexts, refText?, refTexts, h]

@[simp] theorem entryRefTexts_map {k : Text} {es es' : List (Text × Value)} :
    entryRefTexts ((k, map es) :: es') = entryRefTexts es ++ entryRefTexts es' := by
  simp [entryRefTexts, refText?, refTexts]

@[simp] theorem entryRefTexts_list {k : Text} {vs : List Value} {es : List (Text × Value)} :
    entryRefTexts ((k, list vs) :: es) = vs.flatMap refTexts ++ entryRefTexts es := by
  simp [entryRefTexts, refText?, refTexts, listRefTexts_eq_flatMap]

/-- The keys under the key `$defs` of a document. -/
def defsKeys : Value → List Text
  | map es =>
    match Text.lookup? "$defs" es with
    | some (map defs) => defs.map (·.1)
    | _ => []
  | _ => []

end Value

namespace Schema

/-- The references of a schema, as they are written. -/
def refTexts (s : Schema) : List Text := Value.entryRefTexts s.keywords

section Keywords

variable {s : Schema} {t : Text}

theorem entryRefTexts_propertyKeywords (ps : List (Text × Schema)) :
    Value.entryRefTexts (propertyKeywords ps) = ps.flatMap fun p => p.2.refTexts := by
  induction ps with
  | nil => rfl
  | cons p ps ih => rw [propertyKeywords, Value.entryRefTexts_map, ih, List.flatMap_cons]; rfl

theorem flatMap_refTexts_listKeywords (ss : List Schema) :
    (listKeywords ss).flatMap Value.refTexts = ss.flatMap refTexts := by
  induction ss with
  | nil => rfl
  | cons s ss ih => rw [listKeywords, List.flatMap_cons, ih, List.flatMap_cons]; rfl

@[simp] theorem refTexts_any : any.refTexts = [] := rfl

@[simp] theorem refTexts_never : never.refTexts = [] := rfl

@[simp] theorem refTexts_ofScalar {kind : Kind} {width : Int} :
    (ofScalar kind width).refTexts = [] := by
  cases kind <;> rfl

@[simp] theorem refTexts_numeral {form : NumeralForm} : (numeral form).refTexts = [] := by
  cases form <;> rfl

@[simp] theorem refTexts_ref {file definition : Text} :
    (ref file definition).refTexts = [file ++ "#/$defs/" ++ definition] := rfl

@[simp] theorem refTexts_exactly : (exactly t).refTexts = [] := rfl

@[simp] theorem refTexts_array : (array s).refTexts = s.refTexts := by
  rw [refTexts, keywords, keyword, Value.entryRefTexts_text (by decide), Value.entryRefTexts_map]
  exact List.append_nil _

@[simp] theorem refTexts_dictionary : (dictionary s).refTexts = s.refTexts := by
  rw [refTexts, keywords, keyword, Value.entryRefTexts_text (by decide), Value.entryRefTexts_map]
  exact List.append_nil _

@[simp] theorem refTexts_nullable : (nullable s).refTexts = s.refTexts := by
  rw [refTexts, keywords, Value.entryRefTexts_list, List.flatMap_cons, List.flatMap_cons]
  exact (List.append_nil _).trans (List.append_nil _)

@[simp] theorem refTexts_object {ps : List (Text × Schema)} {required : List Text} :
    (object ps required).refTexts = ps.flatMap fun p => p.2.refTexts := by
  have htexts : (required.map Value.text).flatMap Value.refTexts = [] := by
    simp [Value.refTexts]
  rw [refTexts, keywords, keyword, Value.entryRefTexts_text (by decide), Value.entryRefTexts_map,
    texts, Value.entryRefTexts_list, htexts, entryRefTexts_propertyKeywords]
  exact List.append_nil _

@[simp] theorem refTexts_oneOf {ss : List Schema} :
    (oneOf ss).refTexts = ss.flatMap refTexts := by
  rw [refTexts, keywords, Value.entryRefTexts_list, flatMap_refTexts_listKeywords]
  exact List.append_nil _

@[simp] theorem refTexts_enum {vs : List Value} :
    (enum vs s).refTexts = s.refTexts ++ vs.flatMap Value.refTexts := by
  rw [refTexts, keywords, Value.entryRefTexts_append, Value.entryRefTexts_list]
  exact congrArg _ (List.append_nil _)

@[simp] theorem refTexts_titled : (titled t s).refTexts = s.refTexts := by
  rw [refTexts, keywords, Value.entryRefTexts_append, keyword,
    Value.entryRefTexts_text (by decide)]
  exact List.append_nil _

@[simp] theorem refTexts_described : (described t s).refTexts = s.refTexts := by
  rw [refTexts, keywords, Value.entryRefTexts_append, keyword,
    Value.entryRefTexts_text (by decide)]
  exact List.append_nil _

@[simp] theorem refTexts_describe : (describe t s).refTexts = s.refTexts := by
  rw [describe]
  split
  · rfl
  · exact refTexts_described

end Keywords

end Schema

namespace SchemaDocument

variable (doc : SchemaDocument)

/-- The references of a document are those of its definitions. -/
theorem refTexts_toValue :
    doc.toValue.refTexts = doc.definitions.flatMap fun e => e.2.refTexts := by
  have hdescription : Value.entryRefTexts (if doc.description == [] then []
      else [Schema.keyword "description" doc.description]) = [] := by
    split <;> rfl
  simp only [toValue, Value.refTexts, Schema.keyword, Value.entryRefTexts_append] at hdescription ⊢
  rw [hdescription, Value.entryRefTexts_text (by decide), Value.entryRefTexts_text (by decide),
    Value.entryRefTexts_text (by decide), Value.entryRefTexts_text (by decide),
    Value.entryRefTexts_map, Schema.entryRefTexts_propertyKeywords]
  simp [Value.entryRefTexts]

theorem propertyKeywords_keys (ps : List (Text × Schema)) :
    (Schema.propertyKeywords ps).map (·.1) = ps.map (·.1) := by
  induction ps with
  | nil => rfl
  | cons p ps ih => simp [Schema.propertyKeywords, ih]

theorem defsKeys_toValue : doc.toValue.defsKeys = doc.definitions.map (·.1) :=
  propertyKeywords_keys doc.definitions

end SchemaDocument

/-! ## The schemas of declarations -/

/-- The rule of a variant. -/
def variantRule (w : Workspace) (v : Variant) : VariantRule :=
  ⟨v, if v.isVoid then none else some (Rule.ofType w v.payload)⟩

namespace Schema

variable {w : Workspace} {m : Nat} {d : Decl}

theorem ofDecl?_struct {fs : List Field} (hb : d.body = .struct fs) : ofDecl? w m d =
    some (describe d.doc (object
      ((w.allFields d).map fun f => (f.name, describe f.doc (ofType w m f.effectiveType)))
      (((w.allFields d).filter (·.required)).map (·.name)))) := by
  simp [ofDecl?, hb]

theorem ofDecl?_union {vs : List Variant} {tag payload : Text}
    (hb : d.body = .union vs tag payload) : ofDecl? w m d =
      some (describe d.doc (oneOf (vs.map fun v =>
        ofVariant w m d.tagKey d.payloadKey (variantRule w v)))) := by
  simp only [ofDecl?, declRule, hb, List.map_map]
  rfl

theorem ofDecl?_newtype {t : TypeExpr} (hb : d.body = .newtype t) :
    ofDecl? w m d = some (describe d.doc (ofType w m t)) := by
  simp [ofDecl?, hb]

theorem ofDecl?_consts {t : TypeExpr} {cs : List Const} (hb : d.body = .consts t cs) :
    ofDecl? w m d = some (describe d.doc (enum (cs.map (·.value)) (ofType w m t))) := by
  simp [ofDecl?, hb]

/-- A declaration that has values has a schema. -/
theorem exists_ofDecl? (h : d.isInstantiable = true) : ∃ s, ofDecl? w m d = some s := by
  cases hb : d.body with
  | struct fs => exact ⟨_, ofDecl?_struct hb⟩
  | union vs tag payload => exact ⟨_, ofDecl?_union hb⟩
  | newtype t => exact ⟨_, ofDecl?_newtype hb⟩
  | _ => simp [Decl.isInstantiable, hb] at h

end Schema

/-! ## What the schemas of a module refer to -/

namespace ModuleGraph

variable (g : ModuleGraph)

/-- The text is a reference, from the documents of a module, to a
declaration of the graph that has values. -/
def RefersFrom (m : Nat) (x : Text) : Prop :=
  ∃ id lm d, g.Declares id lm d ∧ d.isInstantiable = true ∧
    x ∈ (Schema.refTo g.workspace m id).refTexts

variable {g} {m : Nat} {x : Text}

/-- A reference to a declaration that has values has the schema of one. -/
theorem ofType_ref {id : DeclId} {lm : LinkedModule} {d : Decl} (hd : g.Declares id lm d)
    (hinst : d.isInstantiable = true) {width : Int} {s : Ref} (hs : s.target = some id)
    {elem : TypeExpr} : Schema.ofType g.workspace m (.node .ref width (some s) elem) =
      Schema.refTo g.workspace m id := by
  have hrule : Rule.ofType g.workspace (.node .ref width (some s) elem) =
      Rule.ofTarget g.workspace (some id) := congrArg (Rule.ofTarget g.workspace) hs
  rw [Schema.ofType, hrule, Rule.ofTarget]
  simp only [hd.2]
  rw [Decl.isInstantiable] at hinst
  cases hb : d.body <;> simp_all [Schema.ofRule]

/-- **The references of a type** are those of its nodes. The induction is on
the type, and a reference has the rule of its target. -/
theorem refersFrom_of_type {t : TypeExpr} (ht : g.TypeOk t)
    (h : x ∈ (Schema.ofType g.workspace m t).refTexts) : g.RefersFrom m x := by
  induction t with
  | missing => cases ht.valid
  | node k width r elem ih =>
    cases k with
    | list => exact ih (ht.elem (by simp)) (Schema.refTexts_array ▸ h)
    | map => exact ih (ht.elem (by simp)) (Schema.refTexts_dictionary ▸ h)
    | optional => exact ih (ht.elem (by simp)) (Schema.refTexts_nullable ▸ h)
    | ref =>
      obtain ⟨s, id, lm, d, rfl, htarget, hd, hinst⟩ := ht.exists_target
      rw [ofType_ref hd hinst htarget] at h
      exact ⟨id, lm, d, hd, hinst, h⟩
    | _ => cases h

/-- The references of a variant are those of its payload. -/
theorem refersFrom_of_variant {tagKey payloadKey : Text} {v : Variant}
    (ht : v.isVoid = false → g.TypeOk v.payload)
    (h : x ∈ (Schema.ofVariant g.workspace m tagKey payloadKey
      (variantRule g.workspace v)).refTexts) : g.RefersFrom m x := by
  rw [Schema.ofVariant, Schema.refTexts_describe, Schema.refTexts_titled, variantRule] at h
  cases hvoid : v.isVoid with
  | true =>
    rw [hvoid] at h
    cases h
  | false =>
    rw [hvoid] at h
    refine refersFrom_of_type (ht hvoid) ?_
    rw [Schema.ofType]
    simpa using h

/-- **The references of a declaration** are those of the types that its
values hold; constants are numbers or texts and refer to nothing. -/
theorem refersFrom_of_decl (hl : g.Linked) {id : DeclId} {lm : LinkedModule} {d : Decl}
    (hd : g.Declares id lm d)
    (hconsts : ∀ t cs, d.body = .consts t cs → (Schema.ofType g.workspace m t).refTexts = [] ∧
      ∀ c ∈ cs, c.value.refTexts = [])
    {s : Schema} (hs : Schema.ofDecl? g.workspace m d = some s) (h : x ∈ s.refTexts) :
    g.RefersFrom m x := by
  cases hb : d.body with
  | struct fs =>
    rw [Schema.ofDecl?_struct hb] at hs
    obtain rfl := Option.some.inj hs
    rw [Schema.refTexts_describe, Schema.refTexts_object, List.mem_flatMap] at h
    obtain ⟨p, hp, h⟩ := h
    obtain ⟨f, hf, rfl⟩ := List.mem_map.mp hp
    rw [Schema.refTexts_describe] at h
    exact refersFrom_of_type (hl.typeOk hd _ (mem_heldTypes_of_field hb hf)) h
  | union vs tag payload =>
    rw [Schema.ofDecl?_union hb] at hs
    obtain rfl := Option.some.inj hs
    rw [Schema.refTexts_describe, Schema.refTexts_oneOf, List.mem_flatMap] at h
    obtain ⟨s, hs, h⟩ := h
    obtain ⟨v, hv, rfl⟩ := List.mem_map.mp hs
    have hv' : v ∈ d.variants := by rwa [Decl.variants, hb]
    exact refersFrom_of_variant
      (fun hvoid => hl.typeOk hd _ (mem_heldTypes_of_variant hv' hvoid)) h
  | newtype t =>
    rw [Schema.ofDecl?_newtype hb] at hs
    obtain rfl := Option.some.inj hs
    rw [Schema.refTexts_describe] at h
    exact refersFrom_of_type (hl.typeOk hd _ (mem_heldTypes_of_newtype hb)) h
  | consts t cs =>
    rw [Schema.ofDecl?_consts hb] at hs
    obtain rfl := Option.some.inj hs
    obtain ⟨ht, hcs⟩ := hconsts t cs hb
    rw [Schema.refTexts_describe, Schema.refTexts_enum, ht, List.nil_append, List.mem_flatMap] at h
    obtain ⟨v, hv, h⟩ := h
    obtain ⟨c, hc, rfl⟩ := List.mem_map.mp hv
    rw [hcs c hc] at h
    cases h
  | virtual fs => simp [Schema.ofDecl?, hb] at hs
  | unknown n => simp [Schema.ofDecl?, hb] at hs

end ModuleGraph

/-! ## Definitions -/

namespace SchemaDocument

variable {cfg : Config} {g : ModuleGraph} {m : LinkedModule}

theorem mem_definitions_iff {e : Text × Schema} : e ∈ (ofModule cfg g m).definitions ↔
    ∃ id ∈ m.order, ∃ d, g.workspace.decl? id = some d ∧ e.1 = d.name ∧
      Schema.ofDecl? g.workspace m.id d = some e.2 := by
  simp only [ofModule, List.mem_filterMap, Option.bind_eq_some_iff, Option.map_eq_some_iff]
  refine exists_congr fun id => and_congr_right fun _ => exists_congr fun d =>
    and_congr_right fun _ => ?_
  constructor
  · rintro ⟨s, hs, rfl⟩
    exact ⟨rfl, hs⟩
  · rintro ⟨hname, hs⟩
    exact ⟨e.2, hs, by rw [← hname]⟩

/-- The file of a document. -/
def artifact (doc : SchemaDocument) : Artifact :=
  { dir := Path.dir doc.file, name := Path.base doc.file, content := doc.toText }

theorem artifacts_schemaBackend :
    (schemaBackend cfg).artifacts g m = .ok [(ofModule cfg g m).artifact] := rfl

end SchemaDocument

/-! ## Paths of documents -/

namespace Schema

open WireModel.Path

variable {a b : Text}

/-- The file of a module is in the directory of its name, and ends in a
plain segment. -/
theorem exists_splitOn_fileOf (name : Text) : ∃ parts last,
    Text.splitOn slash name = parts ++ [last] ∧
    Text.splitOn slash (fileOf name) = parts ++ [last ++ Text.ofString ".schema.json"] ∧
    IsPlain (last ++ Text.ofString ".schema.json") := by
  obtain ⟨parts, last, h⟩ := Text.exists_splitOn_eq_concat slash name
  have hlast : slash ∉ last := Text.not_mem_of_mem_splitOn (t := name) (by simp [h])
  have hend : slash ∉ last ++ Text.ofString ".schema.json" := by
    rw [List.mem_append, not_or]
    exact ⟨hlast, by decide⟩
  have hlong : 2 < (last ++ Text.ofString ".schema.json").length := by
    rw [List.length_append]
    exact Nat.lt_add_left _ (by decide)
  refine ⟨parts, last, h, ?_, ?_, ?_, ?_, hend⟩
  · obtain ⟨rfl, rfl⟩ | ⟨hne, hname⟩ := eq_of_splitOn h
    · exact Text.splitOn_of_not_mem hend
    · have hfile : fileOf name =
          Text.join [slash] parts ++ slash :: (last ++ Text.ofString ".schema.json") := by
        rw [fileOf, hname]
        simp
      rw [hfile, Text.splitOn_append, Text.splitOn_of_not_mem hend,
        Text.splitOn_join hne (not_mem_parts h)]
  · rintro heq
    simp [heq] at hlong
  · rintro heq
    rw [heq] at hlong
    exact absurd hlong (by decide)
  · rintro heq
    rw [heq] at hlong
    exact absurd hlong (by decide)

/-- The path of a document is that of its file, in normal form. -/
theorem join_dir_base_fileOf (name : Text) :
    join [dir (fileOf name), base (fileOf name)] = clean (fileOf name) := by
  obtain ⟨parts, last, -, hsplit, hplain⟩ := exists_splitOn_fileOf name
  exact join_dir_base hsplit hplain

/-- **A relative path between documents leads from the one to the other.** -/
theorem join_fileFrom {r : Text} (h : rel? (dir (fileOf a)) (fileOf b) = some r) :
    join [dir (fileOf a), fileFrom a b] = clean (fileOf b) := by
  obtain ⟨parts, last, -, hsplit, hplain⟩ := exists_splitOn_fileOf b
  rw [fileFrom, h, Option.getD_some]
  have hlast : (segments (fileOf b)).getLast? = some (last ++ Text.ofString ".schema.json") := by
    rw [segments_of_splitOn hsplit hplain, List.getLast?_concat]
  exact join_rel? h hlast hplain.2.2.1

theorem isAbs_fileOf (h : a ≠ []) : isAbs (fileOf a) = isAbs a := isAbs_append h

/-- **Between the documents of modules with inner names there is one.** -/
theorem exists_rel?_fileOf (ha : IsInner a) (hb : IsInner b) :
    ∃ r, rel? (dir (fileOf a)) (fileOf b) = some r := by
  obtain ⟨parts, last, hname, hsplit, -⟩ := exists_splitOn_fileOf a
  obtain ⟨habs, hsegs⟩ := dir_of_splitOn hsplit
  refine exists_rel? ?_ ?_
  · rw [habs, isAbs_fileOf ha.nonempty, ha.relative, isAbs_fileOf hb.nonempty, hb.relative]
  · rw [hsegs, List.mem_reverse]
    intro hup
    rcases mem_foldl_push hup with hup | hup
    · exact (ha.isPlain_parts hname _ hup).2.2.1 rfl
    · cases hup

end Schema

/-! ## Everything together -/

namespace ModuleGraph

variable (g : ModuleGraph)

/-- The name of a linked module. -/
def nameOf (m : LinkedModule) : Text := ((g.workspace[m.id]?).map (·.name)).getD []

variable {g} {m : LinkedModule}

theorem file_ofModule {cfg : Config} :
    (SchemaDocument.ofModule cfg g m).file = Schema.fileOf (g.nameOf m) := by
  simp only [SchemaDocument.ofModule, nameOf]
  cases g.workspace[m.id]? <;> rfl

/-- **A reference** to a declaration of the module itself names no file, and
to one of another module the way to its document. -/
theorem refTo_of_declares {id : DeclId} {m' : LinkedModule} {d : Decl}
    (hd : g.Declares id m' d) : Schema.refTo g.workspace m.id id =
      if id.module = m.id then .ref [] d.name
      else .ref (Schema.fileFrom (g.nameOf m) (g.nameOf m')) d.name := by
  have hid : m'.id = id.module := hd.id_module
  have hname : g.workspace.moduleName id = g.nameOf m' := by
    rw [Workspace.moduleName, nameOf, hid]
    cases g.workspace[id.module]? <;> rfl
  rw [Schema.refTo, hd.2, hname]
  simp [nameOf]

variable (g)

/-- **A document that is closed under references**: what stands under a key
`$ref` is a file and the key of a definition, where the file is empty and
the document has the definition, or leads from the directory of the
document to the path of the document of another module that has it. -/
def RefsClosed (cfg : Config) (m : LinkedModule) : Prop :=
  ∀ t ∈ (SchemaDocument.ofModule cfg g m).toValue.refTexts, ∃ file name,
    t = file ++ "#/$defs/" ++ name ∧
    (file = [] ∧ name ∈ (SchemaDocument.ofModule cfg g m).toValue.defsKeys ∨
      ∃ m' ∈ g.modules, m'.id ≠ m.id ∧ ∃ a a', (schemaBackend cfg).artifacts g m = .ok [a] ∧
        (schemaBackend cfg).artifacts g m' = .ok [a'] ∧ Path.join [a.dir, file] = a'.path ∧
        name ∈ (SchemaDocument.ofModule cfg g m').toValue.defsKeys)

end ModuleGraph

section Closed

variable {w : Workspace} {ids : List Nat} (hp : Passes w ids)

include hp in
/-- The declarations of the graph are those in the orders of its modules. -/
theorem declares_iff_mem_order {lm : LinkedModule} (hlm : lm ∈ (graph w ids).modules)
    {id : DeclId} {d : Decl} : id ∈ lm.order ∧ (graph w ids).workspace.decl? id = some d ↔
      (graph w ids).Declares id lm d := by
  have horder : id ∈ lm.order ↔ id.module = lm.id ∧
      ∃ d, (graph w ids).workspace.decl? id = some d := by
    rw [(mem_modules_graph_iff.mp hlm).2]
    exact (order_perm _ _ _).mem_iff.trans mem_declIds_iff
  rw [horder]
  constructor
  · rintro ⟨⟨hid, -⟩, hd⟩
    exact ⟨moduleOf?_eq_some hp hlm hid, hd⟩
  · rintro ⟨hmod, hd⟩
    exact ⟨⟨(by simpa using (List.find?_some hmod) : lm.id = id.module).symm, d, hd⟩, hd⟩

include hp in
/-- Linked modules have the names that were given. -/
theorem nameOf_graph {lm : LinkedModule} {m₀ : Module} (hm : Given w ids lm.id m₀) :
    (graph w ids).nameOf lm = m₀.name := by
  rw [ModuleGraph.nameOf, graph, getElem?_linked hp.registered hp.references hm]
  rfl

include hp in
/-- **A declaration that has values has a definition** in the document of
its module. -/
theorem mem_defsKeys_of_declares (cfg : Config) {id : DeclId} {lm : LinkedModule} {d : Decl}
    (hd : (graph w ids).Declares id lm d) (hinst : d.isInstantiable = true) :
    d.name ∈ (SchemaDocument.ofModule cfg (graph w ids) lm).toValue.defsKeys := by
  obtain ⟨s, hs⟩ := Schema.exists_ofDecl? (w := (graph w ids).workspace) (m := lm.id) hinst
  have hlm : lm ∈ (graph w ids).modules := hd.mem_modules
  obtain ⟨hid, hdecl⟩ := (declares_iff_mem_order hp hlm).mpr hd
  rw [SchemaDocument.defsKeys_toValue]
  exact List.mem_map.mpr ⟨(d.name, s),
    SchemaDocument.mem_definitions_iff.mpr ⟨id, hid, d, hdecl, rfl, hs⟩, rfl⟩

include hp in
/-- Groups of constants refer to nothing. -/
theorem refTexts_consts {id : DeclId} {lm : LinkedModule} {d : Decl}
    (hd : (graph w ids).Declares id lm d) {t : TypeExpr} {cs : List Const}
    (hb : d.body = .consts t cs) {i : Nat} :
    (Schema.ofType (graph w ids).workspace i t).refTexts = [] ∧
      ∀ c ∈ cs, c.value.refTexts = [] := by
  obtain ⟨m₀, d₀, hm, hd₀, rfl⟩ := exists_of_declares hp hd
  rw [hm.decl? id rfl] at hd₀
  have hvalid := Module.decl_errors_of_valid ((passes_iff.mp hp).1.valid _ m₀ hm)
    (List.mem_of_getElem? hd₀)
  have hb₀ : d₀.body = .consts t cs := by
    simp only [linkDecl, Decl.mapTypes] at hb
    cases hbody : d₀.body <;> simp_all
  obtain ⟨htype, hcs⟩ := Decl.consts_of_valid hvalid hb₀
  constructor
  · cases t with
    | missing => simp [TypeExpr.kind?] at htype
    | node k width r elem =>
      simp only [TypeExpr.kind?, Option.some.injEq] at htype
      rcases htype with rfl | rfl <;> rfl
  · intro c hc
    obtain ⟨s, hs⟩ | ⟨n, hn⟩ := hcs c hc
    · rw [hs]
      rfl
    · rw [hn]
      rfl

end Closed

/-- **Schema documents are closed under references.** In a graph that
linking gives, whose modules have inner paths as names, every reference of
a document is to one of its own definitions, or leads to the document of
another module that has the definition. -/
theorem schema_refs_closed {w : Workspace} {ids : List Nat} {g : ModuleGraph}
    (hbases : BasesLinked w) (hg : (resolve w ids).2 = .ok g)
    (hnames : ∀ m ∈ g.modules, Path.IsInner (g.nameOf m)) (cfg : Config) :
    ∀ m ∈ g.modules, g.RefsClosed cfg m := by
  have hl := linked_of_resolve hbases hg
  obtain ⟨hp, rfl⟩ := passes_of_resolve hg
  intro m hm x hx
  rw [SchemaDocument.refTexts_toValue, List.mem_flatMap] at hx
  obtain ⟨⟨name, s⟩, he, hx⟩ := hx
  obtain ⟨id, hid, d, hd, -, hs⟩ := SchemaDocument.mem_definitions_iff.mp he
  have hdecl := (declares_iff_mem_order hp hm).mp ⟨hid, hd⟩
  obtain ⟨id', m', d', hd', hinst, hx⟩ := ModuleGraph.refersFrom_of_decl hl hdecl
    (fun t cs hb => refTexts_consts hp hdecl hb) hs hx
  have hdefs := mem_defsKeys_of_declares hp cfg hd' hinst
  have hm' : m' ∈ (graph w ids).modules := hd'.mem_modules
  have hid' : m'.id = id'.module := hd'.id_module
  rw [ModuleGraph.refTo_of_declares hd'] at hx
  by_cases hown : id'.module = m.id
  · -- a declaration of the module itself
    rw [if_pos hown, Schema.refTexts_ref, List.mem_singleton] at hx
    have hsame : m' = m := Option.some.inj (hd'.1.symm.trans (moduleOf?_eq_some hp hm hown))
    exact ⟨[], d'.name, hx, Or.inl ⟨rfl, hsame ▸ hdefs⟩⟩
  · rw [if_neg hown, Schema.refTexts_ref, List.mem_singleton] at hx
    obtain ⟨r, hr⟩ := Schema.exists_rel?_fileOf (hnames m hm) (hnames m' hm')
    refine ⟨_, d'.name, hx, Or.inr ⟨m', hm', fun h => hown (hid'.symm.trans h), _, _,
      SchemaDocument.artifacts_schemaBackend, SchemaDocument.artifacts_schemaBackend, ?_, hdefs⟩⟩
    rw [Artifact.path, SchemaDocument.artifact, SchemaDocument.artifact]
    simp only [ModuleGraph.file_ofModule, Schema.join_dir_base_fileOf]
    exact Schema.join_fileFrom hr

namespace Sample

/-- The names of the sample lead nowhere up. -/
theorem isInner_nameOf : ∀ m ∈ sampleGraph.modules, Path.IsInner (sampleGraph.nameOf m) := by
  have hp := (passes_of_resolve resolve_modules).1
  intro m hm
  obtain ⟨m₀, hgiven⟩ := (exists_mem_modules_iff hp).mp ⟨m, hm, rfl⟩
  rw [nameOf_graph hp hgiven]
  have hmem : m₀ ∈ modules := List.mem_of_getElem? hgiven.2
  simp only [modules, List.mem_cons, List.not_mem_nil, or_false] at hmem
  rcases hmem with rfl | rfl <;>
    exact ⟨by decide, by decide, by decide, by decide, by decide⟩

/-- Lists of identifiers, with the reference to the other module bound. -/
def idsDecl : Decl where
  name := "Ids"
  body := .newtype (.list (.node .ref 0 (some ⟨"base", "Id", some ⟨0, 0⟩⟩) .missing))

theorem declares_ids : ∃ m, sampleGraph.Declares ⟨1, 8⟩ m idsDecl :=
  exists_declares_of_bound (passes_of_resolve resolve_modules).1 ⟨by decide, rfl⟩ rfl

/-- What they list is declared in the other module. -/
theorem declares_id : ∃ m, sampleGraph.Declares ⟨0, 0⟩ m
    { name := "Id", body := .newtype (.int 64) } :=
  exists_declares_of_bound (passes_of_resolve resolve_modules).1 ⟨by decide, rfl⟩ rfl

/-- The schema of the lists refers to the other document. -/
theorem ofDecl?_ids {m : LinkedModule} (hm : sampleGraph.Declares ⟨1, 8⟩ m idsDecl) :
    Schema.ofDecl? sampleGraph.workspace m.id idsDecl =
      some (.array (.ref "include/base.schema.json" "Id")) := by
  have hp := (passes_of_resolve resolve_modules).1
  have hid : m.id = 1 := hm.id_module
  have hexample : Given modules [0, 1] m.id exampleModule := ⟨by simp [hid], by rw [hid]; rfl⟩
  obtain ⟨b, hb⟩ := declares_id
  have hbid : b.id = 0 := hb.id_module
  have hbase : Given modules [0, 1] b.id baseModule := ⟨by simp [hbid], by rw [hbid]; rfl⟩
  have hitem : Schema.ofType sampleGraph.workspace m.id
      (.node .ref 0 (some ⟨"base", "Id", some ⟨0, 0⟩⟩) .missing) =
        .ref "include/base.schema.json" "Id" := by
    rw [ModuleGraph.ofType_ref hb rfl rfl, ModuleGraph.refTo_of_declares hb, hid, if_neg (by simp),
      nameOf_graph hp hexample, nameOf_graph hp hbase]
    rfl
  rw [Schema.ofDecl?_newtype rfl, ← hitem]
  rfl

/-- One document of the sample refers to the other. -/
theorem ids_refers : ∃ m ∈ sampleGraph.modules,
    Text.ofString "include/base.schema.json#/$defs/Id" ∈
      (SchemaDocument.ofModule Config.initial sampleGraph m).toValue.refTexts := by
  have hp := (passes_of_resolve resolve_modules).1
  obtain ⟨m, hm⟩ := declares_ids
  have hmem : m ∈ sampleGraph.modules := hm.mem_modules
  obtain ⟨horder, hdecl⟩ := (declares_iff_mem_order hp hmem).mpr hm
  refine ⟨m, hmem, ?_⟩
  rw [SchemaDocument.refTexts_toValue, List.mem_flatMap]
  refine ⟨(idsDecl.name, .array (.ref "include/base.schema.json" "Id")),
    SchemaDocument.mem_definitions_iff.mpr ⟨_, horder, _, hdecl, rfl, ofDecl?_ids hm⟩, ?_⟩
  rw [Schema.refTexts_array, Schema.refTexts_ref]
  decide

/-- So the documents of the sample are closed under references, of which
there are some. -/
theorem modules_refs_closed : BasesLinked modules ∧
    (resolve modules [0, 1]).2 = .ok sampleGraph ∧
    (∀ m ∈ sampleGraph.modules, Path.IsInner (sampleGraph.nameOf m)) ∧
    (∃ m ∈ sampleGraph.modules, Text.ofString "include/base.schema.json#/$defs/Id" ∈
      (SchemaDocument.ofModule Config.initial sampleGraph m).toValue.refTexts) ∧
    ∀ m ∈ sampleGraph.modules, sampleGraph.RefsClosed Config.initial m :=
  ⟨basesLinked_modules, resolve_modules, isInner_nameOf, ids_refers,
    schema_refs_closed basesLinked_modules resolve_modules isInner_nameOf Config.initial⟩

end Sample

end WireModel
