import WireModel.Document.Cue
import WireModel.Document.Yaml
import WireModel.Fault
import WireModel.SpecFile.Form
import WireModel.SpecFile.Read
import WireModel.Text.Path

/-!
# Formats of spec files

A spec file is written in YAML, JSON or CUE; the extension of its path says in which.
-/

namespace WireModel

/-- The formats of spec files. -/
inductive FileFormat where
  | yaml
  | json
  | cue
  deriving DecidableEq, Inhabited

namespace FileFormat

/-- The format an extension stands for, in any case. -/
def ofExtension? (ext : Text) : Option FileFormat :=
  if ext == ".yaml" || ext == ".yml" then some yaml
  else if ext == ".json" then some json
  else if ext == ".cue" then some cue
  else none

end FileFormat

namespace SpecFile

/-- The spec file a document holds. -/
def settle (step : Text) (doc : Doc) : Except Fault SpecFile :=
  let r := SpecFile.read doc
  match Draft.reported? r.troubles with
  | none => .ok r.value
  | some t => .error (.format step t.words?)

/-- The spec file a JSON text holds. -/
def ofJson (step : Text) (t : Text) : Except Fault SpecFile :=
  match Json.record FilePart.fields .file t with
  | .error trouble => .error (.format step trouble.words?)
  | .ok doc => settle step doc

/-- The spec file a YAML text holds. A text without a document is an empty file. -/
def ofYaml (t : Text) : Except Fault SpecFile :=
  match Yaml.document? t with
  | none => .error (.format "decode yaml" none)
  | some none => .ok {}
  | some (some doc) => settle "decode yaml" doc

/-- The spec file a CUE text holds. -/
def ofCue (t : Text) : Except Fault SpecFile :=
  match Cue.evaluate? t with
  | none => .error (.format "compile cue" none)
  | some t => ofJson "decode cue" t

/-- The spec file with a content, in the format its path says. -/
def decode (path content : Text) : Except Fault SpecFile :=
  let ext := (Path.ext path).toLower
  match FileFormat.ofExtension? ext with
  | some .yaml => ofYaml content
  | some .json => ofJson "decode json" content
  | some .cue => ofCue content
  | none => .error (.plain ("load: unsupported file format " ++ ext.quote))

end SpecFile

end WireModel
