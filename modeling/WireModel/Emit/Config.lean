import WireModel.Fault

/-!
# Configuration

The settings of a generation run. Settings are changed one by one; a change that is refused leaves
everything as it is.
-/

namespace WireModel

/-- The comment at the top of generated files unless another one is set. -/
def defaultHeader : Text := "Code generated by specgen. DO NOT EDIT."

/-- The import path of the runtime package unless another one is set. -/
def defaultRuntime : Text := "github.com/syssam/specgen"

/-- The settings of a run. -/
structure Config where
  /-- The spec files to compile. -/
  specs : List Text := []
  /-- The directory generated files are written to. -/
  target : Text := []
  /-- The import path of the target directory. -/
  package : Text := []
  /-- The comment at the top of generated files; empty for the usual one. -/
  header : Text := []
  /-- The import path of the runtime package; empty for the usual one. -/
  runtime : Text := []
  /-- How many modules are rendered at a time; zero for as many as there are processors. -/
  workers : Int := 0
  /-- The names of the backends to run. -/
  backends : List Text := []
  deriving DecidableEq, Inhabited

namespace Config

/-- The settings of a run that sets nothing. -/
def initial : Config :=
  { header := defaultHeader, runtime := defaultRuntime, backends := ["go"] }

/-- The comment at the top of generated files. -/
def headerComment (c : Config) : Text := if c.header == [] then defaultHeader else c.header

/-- The import path of the runtime package. -/
def runtimePath (c : Config) : Text := if c.runtime == [] then defaultRuntime else c.runtime

/-- The number of workers, if it is set. -/
def workerCount? (c : Config) : Option Int := if 0 < c.workers then some c.workers else none

/-! ## Changes -/

/-- A change of one setting. -/
inductive Change where
  | header (t : Text)
  | package (path : Text)
  | target (dir : Text)
  | runtime (path : Text)
  | workers (n : Int)
  | backends (names : List Text)
  deriving DecidableEq, Inhabited

/-- The settings after a change. -/
def change (c : Config) : Change → Except Fault Config
  | .header t => .ok { c with header := t }
  | .package p =>
    if p == [] then .error (.setting "Package" "package cannot be empty")
    else if p.getLast? == some '/'.toUInt8 || p.contains ' '.toUInt8 then
      .error (.badSetting "Package" (.text p) "not a valid import path")
    else .ok { c with package := p }
  | .target dir =>
    if dir == [] then .error (.setting "Target" "target directory cannot be empty")
    else .ok { c with target := dir }
  | .runtime p =>
    if p == [] then .error (.setting "Runtime" "runtime package cannot be empty")
    else .ok { c with runtime := p }
  | .workers n =>
    if n < 0 then .error (.badSetting "Workers" (.int .int n) "must not be negative")
    else .ok { c with workers := n }
  | .backends names =>
    if names.isEmpty then .error (.setting "Backends" "at least one backend is required")
    else if names.contains [] then
      .error (.badSetting "Backends" (.list (names.map .text)) "backend name cannot be empty")
    else .ok { c with backends := names.eraseDups }

/-- The settings after some changes, up to the first one that is refused, and its fault. -/
def apply (c : Config) : List Change → Config × Option Fault
  | [] => (c, none)
  | x :: xs =>
    match c.change x with
    | .ok c => c.apply xs
    | .error f => (c, some f)

/-- The settings after some changes, and the faults of those that are refused. -/
def applyAll (c : Config) : List Change → Config × List Fault
  | [] => (c, [])
  | x :: xs =>
    match c.change x with
    | .ok c => c.applyAll xs
    | .error f =>
      let (c, fs) := c.applyAll xs
      (c, f :: fs)

/-- The initial settings after some changes, if none is refused. -/
def build (xs : List Change) : Except Fault Config :=
  match initial.apply xs with
  | (c, none) => .ok c
  | (_, some f) => .error f

end Config

end WireModel
