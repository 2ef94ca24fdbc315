import WireModel.Command.Help
import WireModel.Emit.ConfigFile
import WireModel.Encoding.Describe
import WireModel.Link.Resolve
import WireModel.Loader
import WireModel.Schema.Document
import WireModel.Source.Build
import WireModel.Storage.Write

/-!
# Running commands

What a command line prints and leaves on disk. The settings come from the configuration file, which
is looked for in the working directory unless the line names one, and the flags of the line come
after them. The spec files are those of the line, or else those of the settings.
-/

namespace WireModel

/-- What a command line leads to. -/
structure Outcome where
  stdout : Text := []
  stderr : Text := []
  /-- The file system afterwards. -/
  tree : FileTree
  fault : Option Fault := none

/-- The fault a failed link ends a run with. Types that are read from files always name what they
refer to, so for them it is the errors found. -/
def LinkFailure.fault : LinkFailure → Fault
  | errors es => .compileErrors es
  | unnamedReference => .unworded

namespace Config

/-- The settings for a run: those in the file that is asked for, or in the usual file if there is
one, or else the initial ones. -/
def find (s : Surroundings) (path : Text) : Except Fault Config :=
  if path != [] then load s.tree s.cwd path
  else
    match s.tree.visit s.cwd fileName with
    | .ok _ => load s.tree s.cwd fileName
    | .error _ => .ok initial

/-- The spec files of a run. -/
def specFiles (c : Config) (operands : List Text) : Except Fault (List Text) :=
  if !operands.isEmpty then .ok operands
  else if !c.specs.isEmpty then .ok c.specs
  else .error (.setting "specs" "no spec files given")

/-- The backend with a name. -/
def backend (c : Config) (name : Text) : Except Fault Backend :=
  if name == "go" then .ok (Source.backend c)
  else if name == "jsonschema" then .ok (schemaBackend c)
  else .error (.badSetting "backend" (.text name) "unknown backend, want one of [go jsonschema]")

/-- The settings with all changes made, if none is refused. -/
def changed (c : Config) (xs : List Change) : Except Fault Config :=
  match c.applyAll xs with
  | (c, []) => .ok c
  | (_, fs) => .error (.joined fs)

end Config

namespace Surroundings

/-- The graph of spec files and the files they include. -/
def compile (s : Surroundings) (files : List Text) : Except Fault ModuleGraph := do
  let modules ← loadFiles s files
  match resolve modules (List.range modules.length) with
  | (_, .ok g) => .ok g
  | (_, .error e) => .error e.fault

/-- The directories of files as absolute paths, each once and without those below another. -/
def directories (s : Surroundings) (files : List Text) : List Text :=
  let dirs := (files.map fun f => s.absolute (Path.dir f)).eraseDups
  dirs.filter fun d => !dirs.any fun o => (o ++ ("/" : Text)).isPrefixOf d

/-- The fault of the first directory that cannot be watched. -/
def watchFault? (s : Surroundings) (files : List Text) : Option Fault :=
  (s.directories files).findSome? fun d =>
    match s.tree.visit s.cwd d with
    | .ok _ => none
    | .error e => some (.path [] "lstat" d e.reason)

end Surroundings

namespace Outcome

/-- An outcome that prints something and leaves everything as it is. -/
def print (s : Surroundings) (text : Text) : Outcome := { stdout := text, tree := s.tree }

/-- An outcome that leaves everything as it is. -/
def fail (s : Surroundings) (f : Fault) : Outcome := { tree := s.tree, fault := some f }

/-- The outcome of something that prints, or fails. -/
def ofExcept (s : Surroundings) : Except Fault Text → Outcome
  | .ok text => print s text
  | .error f => fail s f

/-- An outcome whose fault is only printed. A null entry ends a run also then. -/
def reported (o : Outcome) : Outcome :=
  match o.fault with
  | none | some .nullEntry => o
  | some f => { o with stderr := o.stderr ++ "error: " ++ f.message.getD [] ++ "\n", fault := none }

end Outcome

namespace Surroundings

/-- The spec files of a command that only reads. -/
def specs (s : Surroundings) (o : Options) (operands : List Text) : Except Fault (List Text) := do
  let c ← Config.find s o.config
  c.specFiles operands

/-- What `validate` prints. -/
def validate (s : Surroundings) (o : Options) (operands : List Text) : Except Fault Text := do
  let files ← s.specs o operands
  let g ← s.compile files
  let decls := g.declCount
  .ok ("ok: " ++ Text.ofNat g.modules.length ++ " modules, " ++ Text.ofNat decls ++
    " declarations\n")

/-- What `explain` prints. -/
def explain (s : Surroundings) (o : Options) (operands : List Text) : Except Fault Text := do
  let files ← s.specs o operands
  let g ← s.compile files
  let modules ←
    if o.module == [] then .ok g.modules
    else
      match g.module? o.module with
      | some m => .ok [m]
      | none => .error (.plain ("module " ++ o.module.quote ++ " not found"))
  .ok (Text.join "\n" (modules.map (describe g.workspace)))

/-- The files of a generation run. -/
def generated (s : Surroundings) (c : Config) (files : List Text) (canceled : Bool) :
    Except Fault (List OutputFile) := do
  if c.target == [] then .error (.setting "target" "no output directory given (--out)")
  let g ← s.compile files
  let backends ← c.backends.mapM c.backend
  render backends (some g) canceled

/-- One generation run. -/
def generateOnce (s : Surroundings) (c : Config) (files : List Text) (canceled : Bool) : Outcome :=
  match s.generated c files canceled with
  | .error f => .fail s f
  | .ok outputs =>
    match Disk.writeFiles { tree := s.tree } (.ofPath s.cwd c.target) outputs with
    | (tree, some f) => { tree, fault := some f }
    | (tree, none) => {
        stdout := "generated " ++ Text.ofNat outputs.length ++ " files in " ++ c.target ++ "\n"
        tree }

/-- What `generate` leads to. With `--watch` it is the first of many runs. -/
def generate (s : Surroundings) (o : Options) (operands : List Text) (canceled : Bool) : Outcome :=
  let plan : Except Fault (Config × List Text) := do
    let c ← Config.find s o.config
    let c ← c.changed o.changes
    let files ← c.specFiles operands
    .ok (c, files)
  match plan with
  | .error f => .fail s f
  | .ok (c, files) =>
    if o.watch then
      match s.watchFault? files with
      | some f => .fail s f
      | none => (s.generateOnce c files canceled).reported
    else s.generateOnce c files canceled

/-- What a command line leads to. A run that was called off generates nothing. -/
def run (s : Surroundings) (args : List Text) (canceled : Bool) : Outcome :=
  match Invocation.ofLine args with
  | .error e => .fail s (.plain e.message)
  | .ok { command, options, operands } =>
    if options.help then .print s command.page
    else
      match command with
      | .root | .completion => .print s command.page
      | .help => .print s (Command.topicPage operands)
      | .validate => .ofExcept s (s.validate options operands)
      | .explain => .ofExcept s (s.explain options operands)
      | .generate => s.generate options operands canceled

end Surroundings

end WireModel
