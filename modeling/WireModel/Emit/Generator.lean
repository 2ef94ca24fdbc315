import WireModel.Fault
import WireModel.Link.Graph
import WireModel.Text.Path

/-!
# Generation

A backend turns a linked module into artifacts. A run has one job for every backend and module; the
jobs do not depend on each other, and their files come in the order of the backends, then of the
modules, then of the artifacts. A run gives files only if every job does, and no two files may
have the same path.
-/

namespace WireModel

/-- An output file before it is rendered. -/
structure Artifact where
  /-- The directory, relative to the target. -/
  dir : Text
  name : Text
  /-- The content, or why it cannot be rendered. -/
  content : Except Fault Text

/-- The path of an artifact, relative to the target. -/
def Artifact.path (a : Artifact) : Text := Path.join [a.dir, a.name]

/-- An output file. -/
structure OutputFile where
  /-- The path, relative to the target directory. -/
  path : Text
  content : Text
  deriving DecidableEq, Inhabited

/-- What turns linked modules into artifacts. -/
structure Backend where
  name : Text
  artifacts : ModuleGraph → LinkedModule → Except Fault (List Artifact)

/-- One backend at work on one module. -/
structure Job where
  backend : Backend
  module : LinkedModule

namespace Job

/-- The name of the module. -/
def moduleName (g : ModuleGraph) (j : Job) : Text :=
  ((g.workspace[j.module.id]?).map (·.name)).getD []

/-- The place of a file of the job. -/
def site (g : ModuleGraph) (j : Job) (file : Text) : Site :=
  { backend := j.backend.name, module := j.moduleName g, file }

/-- The files of some artifacts, up to the first that cannot be rendered. -/
def renderAll (g : ModuleGraph) (j : Job) : List Artifact → Except Fault (List OutputFile)
  | [] => .ok []
  | a :: as =>
    match a.content with
    | .error f => .error (.generationBy (j.site g a.path) "render" f)
    | .ok content => do
      let fs ← j.renderAll g as
      .ok ({ path := a.path, content } :: fs)

/-- The files of a job. -/
def run (g : ModuleGraph) (j : Job) : Except Fault (List OutputFile) :=
  match j.backend.artifacts g j.module with
  | .error f => .error (.generationBy (j.site g []) [] f)
  | .ok as => j.renderAll g as

end Job

/-- The jobs of a run, in the order of their files. -/
def jobs (g : ModuleGraph) (backends : List Backend) : List Job :=
  backends.flatMap fun b => g.modules.map fun m => ⟨b, m⟩

/-- The results of jobs, up to the first that fails. -/
def runJobs (g : ModuleGraph) : List Job → Except Fault (List (Job × List OutputFile))
  | [] => .ok []
  | j :: js => do
    let files ← j.run g
    let rest ← runJobs g js
    .ok ((j, files) :: rest)

/-- The files of finished jobs, if no path is taken by an earlier file. -/
def collectFiles (g : ModuleGraph) :
    (seen : List (Text × Text)) → List (Job × OutputFile) → Except Fault (List OutputFile)
  | _, [] => .ok []
  | seen, (j, f) :: rest =>
    match Text.lookup? f.path seen with
    | some backend =>
      .error (.generation (j.site g f.path) ("file also generated by backend " ++ backend))
    | none => do
      let fs ← collectFiles g ((f.path, j.backend.name) :: seen) rest
      .ok (f :: fs)

/-- The words of a run that was called off. -/
def canceledMessage : Text := "context canceled"

/-- All files of a run. A run that was called off starts no job. -/
def render (backends : List Backend) (graph : Option ModuleGraph) (canceled : Bool) :
    Except Fault (List OutputFile) :=
  if backends.isEmpty then
    .error (.setting "Backends" "no backend set: call WithBackend() before Generate()")
  else
    match graph with
    | none => .error (.setting "Graph" "no graph to generate")
    | some g =>
      let js := jobs g backends
      if canceled && !js.isEmpty then .error (.plain canceledMessage)
      else do
        let results ← runJobs g js
        collectFiles g [] (results.flatMap fun (j, files) => files.map fun f => (j, f))

end WireModel
