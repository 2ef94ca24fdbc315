import WireModel.Link.Graph
import WireModel.Encoding.Failures

/-!
# Descriptions

The wire contract of a linked module in words: for every declaration, in emission order, how its
values are encoded and how decoding one can fail.
-/

namespace WireModel

variable (w : Workspace)

/-- One line for a field. -/
def describeField (f : Field) : Text :=
  "  " ++ f.name ++ ": " ++ (if f.required then "required" else "optional") ++ ", " ++
    (Rule.ofType w f.effectiveType).toText w ++ "\n"

/-- One line for the failures of a declaration. -/
def describeFailures (id : DeclId) : Text :=
  "  failures: " ++ Text.join ", " ((w.declFailures id).map Failure.name) ++ "\n"

/-- One line for a variant. -/
def describeVariant (v : VariantRule) : Text :=
  "  " ++ v.variant.name ++ ": " ++ (match v.rule with
    | some r => r.toText w
    | none => "void") ++ "\n"

/-- One line for a constant. -/
def describeConst (c : Const) : Text :=
  "  " ++ c.name ++ " = " ++ (match c.value with
    | .text t => t.quote
    | v => v.display) ++ "\n"

/-- The description of a declaration. -/
def describeDecl (id : DeclId) : Text :=
  match w.decl? id with
  | none => []
  | some d =>
    match d.body with
    | .struct _ =>
      let base : Text := match d.base.bind w.decl? with
        | some b => " extends " ++ b.name
        | none => []
      "struct " ++ d.name ++ base ++ ":\n" ++ (w.allFields d).flatMap (describeField w) ++
        describeFailures w id
    | .virtual fs =>
      "virtual " ++ d.name ++ ": not encodable\n" ++ fs.flatMap (describeField w)
    | .union _ _ _ =>
      "enum " ++ d.name ++ " (tag " ++ d.tagKey.quote ++ ", payload " ++ d.payloadKey.quote ++
        "):\n" ++ (match declRule w d with
          | .tagged _ _ vs => vs.flatMap (describeVariant w)
          | _ => []) ++ describeFailures w id
    | .newtype t =>
      "new_type " ++ d.name ++ ": " ++ (Rule.ofType w t).toText w ++ "\n" ++ describeFailures w id
    | .consts t cs =>
      "const " ++ d.name ++ " " ++ t.toText ++ ": not encodable\n" ++ cs.flatMap describeConst
    | .unknown _ => describeFailures w id

/-- The description of a linked module. -/
def describe (m : LinkedModule) : Text :=
  match w[m.id]? with
  | none => []
  | some mod =>
    let imports : List Text := mod.imports.map fun i => i.ns ++ " = " ++ i.path
    "module " ++ mod.name ++ "\n" ++
      (if imports.isEmpty then ([] : Text) else "imports: " ++ Text.join ", " imports ++ "\n") ++
      m.order.flatMap fun id => ("\n" : Text) ++ describeDecl w id

end WireModel
