import WireModel.Document.Draft
import WireModel.Document.Yaml
import WireModel.Emit.Config
import WireModel.Storage.Read

/-!
# Configuration files

The settings of a run can be given in a YAML file. It changes the initial settings, and it may hold
nothing else.
-/

namespace WireModel

namespace Config

/-- The name of the configuration file that is looked for. -/
def fileName : Text := "specgen.yaml"

/-- A floating point number without its fraction, if it is small enough to be asked for as a 64 bit
integer; what is too far below zero becomes the least of these. -/
def truncate? : BinaryValue → Option Int
  | .nan => none
  | .infinite neg => if neg then some (-(twoPow 63 : Int)) else none
  | .finite neg m q =>
    let n : Nat := if 0 ≤ q then m * twoPow q.toNat else m / twoPow (-q).toNat
    if neg then some (max (-(n : Int)) (-(twoPow 63 : Int)))
    else if n < twoPow 63 then some n
    else if n = twoPow 63 then some (-(twoPow 63 : Int))
    else none

/-- The number of workers a document asks for. A fraction of a worker does not count. -/
def readWorkers (old : Int) : Doc → Draft Int
  | .scalar .null _ _ => pure old
  | .scalar (.int n) _ _ => if fitsSigned 64 n then pure n else .refuse old
  | .scalar .float source _ =>
    if Yaml.numberWords.contains source then
      if source.head? == some '-'.toUInt8 then pure (-(twoPow 63 : Int)) else .refuse old
    else
      match Text.toDouble (source.filter (· != '_'.toUInt8)) with
      | .error _ => .refuse old
      | .ok bits =>
        match truncate? (Binary.double.decode bits) with
        | some n => pure n
        | none => .refuse old
  | _ => .refuse old

/-- One key of a configuration file. Only known keys may be there. -/
def readKey (c : Config) (key : Text) (v : Doc) : Draft Config :=
  if key == "specs" then (fun x => { c with specs := x }) <$> Draft.texts c.specs v
  else if key == "target" then (fun x => { c with target := x }) <$> Draft.text c.target v
  else if key == "package" then (fun x => { c with package := x }) <$> Draft.text c.package v
  else if key == "header" then (fun x => { c with header := x }) <$> Draft.text c.header v
  else if key == "runtime" then (fun x => { c with runtime := x }) <$> Draft.text c.runtime v
  else if key == "workers" then (fun x => { c with workers := x }) <$> readWorkers c.workers v
  else if key == "backends" then (fun x => { c with backends := x }) <$> Draft.texts c.backends v
  else .refuse c

/-- The settings a text holds, if it is a configuration file. -/
def ofYaml? (t : Text) : Option Config :=
  match Yaml.document? t with
  | none => none
  | some none => some initial
  | some (some doc) =>
    let r := Draft.fields readKey initial doc
    if r.troubles.isEmpty then some r.value else none

/-- The settings in the file at a path. -/
def load (t : FileTree) (cwd : Place) (path : Text) : Except Fault Config :=
  match t.readFile cwd "read config: " path with
  | .error f => .error f
  | .ok content =>
    match ofYaml? content with
    | none => .error (.config path .null none)
    | some c =>
      if c.workers < 0 then
        .error (.badSetting "workers" (.int .int c.workers) "must not be negative")
      else .ok c

end Config

end WireModel
