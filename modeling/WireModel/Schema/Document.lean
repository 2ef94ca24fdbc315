import WireModel.Emit.Config
import WireModel.Emit.Generator
import WireModel.Schema.Basic
import WireModel.Value.Json

/-!
# Schema documents

A schema is written as a JSON object, a document as an indented JSON text with a line end. The
schema backend writes one document for each module.
-/

namespace WireModel

namespace Schema

/-- A list of texts as a value. -/
def texts (ts : List Text) : Value := .list (ts.map .text)

/-- A keyword with a text. -/
def keyword (key : String) (t : Text) : Text × Value := (key, .text t)

mutual

/-- The keywords of a schema. -/
def keywords : Schema → List (Text × Value)
  | any => []
  | never => [("not", .map [])]
  | boolean => [keyword "type" "boolean"]
  | number => [keyword "type" "number"]
  | string => [keyword "type" "string"]
  | integer least greatest =>
    [keyword "type" "integer", ("minimum", .int .int64 least), ("maximum", .int .int64 greatest)]
  | numeral form => [keyword "type" "string", keyword "pattern" form.pattern]
  | array item => [keyword "type" "array", ("items", .map item.keywords)]
  | dictionary value => [keyword "type" "object", ("additionalProperties", .map value.keywords)]
  | nullable s => [("anyOf", .list [.map [keyword "type" "null"], .map s.keywords])]
  | ref file definition => [keyword "$ref" (file ++ "#/$defs/" ++ definition)]
  | exactly t => [keyword "const" t]
  | object properties required =>
    [keyword "type" "object", ("properties", .map (propertyKeywords properties)),
      ("required", texts required)]
  | oneOf schemas => [("oneOf", .list (listKeywords schemas))]
  | enum values s => s.keywords ++ [(Text.ofString "enum", .list values)]
  | titled title s => s.keywords ++ [keyword "title" title]
  | described description s => s.keywords ++ [keyword "description" description]

/-- The keywords of properties. -/
def propertyKeywords : List (Text × Schema) → List (Text × Value)
  | [] => []
  | (k, s) :: ps => (k, .map s.keywords) :: propertyKeywords ps

/-- The keywords of schemas. -/
def listKeywords : List Schema → List Value
  | [] => []
  | s :: ss => .map s.keywords :: listKeywords ss

end

end Schema

/-- The dialect the documents are written in. -/
def schemaDialect : Text := "https://json-schema.org/draft/2020-12/schema"

namespace SchemaDocument

/-- The document of a linked module. -/
def ofModule (cfg : Config) (g : ModuleGraph) (m : LinkedModule) : SchemaDocument :=
  let w := g.workspace
  let mod := (w[m.id]?).getD default
  { file := Schema.fileOf mod.name
    comment := cfg.headerComment
    title := mod.name
    description := mod.doc
    definitions := m.order.filterMap fun id =>
      (w.decl? id).bind fun d => (Schema.ofDecl? w m.id d).map fun s => (d.name, s) }

/-- The document as a value. -/
def toValue (d : SchemaDocument) : Value :=
  .map ([Schema.keyword "$schema" schemaDialect, Schema.keyword "$id" d.file,
      Schema.keyword "$comment" d.comment, Schema.keyword "title" d.title,
      ("$defs", .map (Schema.propertyKeywords d.definitions))] ++
    (if d.description == [] then [] else [Schema.keyword "description" d.description]))

/-- The text of the document. -/
def toText (d : SchemaDocument) : Except Fault Text :=
  match Json.writeIndented 0 d.toValue with
  | .ok t => .ok (t ++ "\n")
  | .error f => .error (.plain f.message)

end SchemaDocument

/-- The backend that writes schema documents. -/
def schemaBackend (cfg : Config) : Backend :=
  { name := "jsonschema"
    artifacts := fun g m =>
      let doc := SchemaDocument.ofModule cfg g m
      .ok [{ dir := Path.dir doc.file, name := Path.base doc.file, content := doc.toText }] }

end WireModel
