import WireModel.Emit.Generator

/-!
# Workers

The jobs of a run are done side by side. They are taken in their order, each as soon as a worker is
free. A job that was taken looks whether the run was called off; if not, it is rendered, and its
files are put at its own place of a table. At the end it is put away, and its fault is reported if
it has one. The first fault that is reported calls the run off, so that later jobs may end without
being rendered. The files are collected when all jobs are put away.

Which of the possible moves comes next is left open: a schedule is any list of moves.
-/

namespace WireModel

/-- How far a job has come. -/
inductive Phase where
  | waiting
  | taken
  | rendering
  /-- The work on the job has ended, with a fault or without one. -/
  | ended (fault : Option Fault)
  | putAway
  deriving Inhabited

namespace Phase

def isWaiting : Phase → Bool
  | waiting => true
  | _ => false

/-- Whether the job holds a worker. -/
def isBusy : Phase → Bool
  | waiting | putAway => false
  | _ => true

def isPutAway : Phase → Bool
  | putAway => true
  | _ => false

end Phase

/-- What the workers of a run share. -/
structure Pool where
  /-- How far each job has come. -/
  phases : List Phase
  /-- The files of each job, none as long as it is not rendered. -/
  results : List (List OutputFile)
  /-- The first fault that was reported. -/
  failure : Option Fault

namespace Pool

/-- The number of workers at work. -/
def busy (p : Pool) : Nat := p.phases.countP Phase.isBusy

/-- Whether every job is put away. -/
def finished (p : Pool) : Bool := p.phases.all Phase.isPutAway

def setPhase (p : Pool) (i : Nat) (phase : Phase) : Pool :=
  { p with phases := p.phases.set i phase }

end Pool

/-- A move of the workers. All but the first are about the job with a number. -/
inductive Move where
  /-- The next job is taken by a free worker. -/
  | take
  /-- A job looks whether the run was called off. -/
  | look (i : Nat)
  | render (i : Nat)
  /-- A job is put away, and its fault is reported. -/
  | putAway (i : Nat)

/-- What does not change while the workers are at work. -/
structure Shift where
  graph : ModuleGraph
  jobs : List Job
  /-- The number of workers. -/
  workers : Nat
  /-- Whether the run was called off from outside before it started. -/
  canceled : Bool := false

namespace Shift

/-- A run as its workers find it. -/
def ofRun (workers : Nat) (backends : List Backend) (g : ModuleGraph) (canceled : Bool) : Shift :=
  { graph := g, jobs := WireModel.jobs g backends, workers, canceled }

/-- The pool before the first move. -/
def start (s : Shift) : Pool :=
  { phases := List.replicate s.jobs.length .waiting
    results := List.replicate s.jobs.length []
    failure := none }

/-- The pool after a move, if the move is possible. -/
def move? (s : Shift) (p : Pool) : Move → Option Pool
  | .take => do
    let i ← p.phases.findIdx? Phase.isWaiting
    if p.busy < s.workers then some (p.setPhase i .taken) else none
  | .look i =>
    match p.phases[i]? with
    | some .taken =>
      if s.canceled || p.failure.isSome then
        some (p.setPhase i (.ended (some (.plain canceledMessage))))
      else some (p.setPhase i .rendering)
    | _ => none
  | .render i =>
    match p.phases[i]?, s.jobs[i]? with
    | some .rendering, some j =>
      match j.run s.graph with
      | .ok files => some { p.setPhase i (.ended none) with results := p.results.set i files }
      | .error f => some (p.setPhase i (.ended (some f)))
    | _, _ => none
  | .putAway i =>
    match p.phases[i]? with
    | some (.ended fault) => some { p.setPhase i .putAway with failure := p.failure.or fault }
    | _ => none

/-- The pool after the moves of a schedule, if each of them is possible when it comes. -/
def follow? (s : Shift) (p : Pool) : List Move → Option Pool
  | [] => some p
  | m :: ms => (s.move? p m).bind fun q => s.follow? q ms

/-- The files of a run whose jobs are put away. -/
def outcome (s : Shift) (p : Pool) : Except Fault (List OutputFile) :=
  match p.failure with
  | some f => .error f
  | none =>
    collectFiles s.graph []
      ((s.jobs.zip p.results).flatMap fun x => x.2.map fun f => (x.1, f))

end Shift

/-- All files of a run whose workers move as a schedule says, if the schedule is possible and puts
every job away. Without backends or without a graph there is nothing to schedule. -/
def renderBy? (workers : Nat) (backends : List Backend) (graph : Option ModuleGraph)
    (canceled : Bool) (schedule : List Move) : Option (Except Fault (List OutputFile)) :=
  match graph with
  | none => some (render backends none canceled)
  | some g =>
    if backends.isEmpty then some (render [] (some g) canceled)
    else do
      let s := Shift.ofRun workers backends g canceled
      let p ← s.follow? s.start schedule
      if p.finished then some (s.outcome p) else none

end WireModel
