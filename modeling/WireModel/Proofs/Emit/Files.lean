import WireModel.Emit.Generator
import WireModel.Proofs.Text.Entries

/-!
# The files of a run — which runs give files, and which files

A backend *renders* a module if it gives artifacts for it and each of them has a content. A run
gives files exactly if every backend renders every module and no two artifacts have the same path
(`render_eq_ok_iff`), and they are the files of the artifacts, in the order of the backends, then
of the modules, then of the artifacts (`outputs`).
-/

namespace WireModel

/-- The file of an artifact whose content is known. -/
def Artifact.file? (a : Artifact) : Option OutputFile :=
  match a.content with
  | .ok content => some { path := a.path, content }
  | .error _ => none

namespace Backend

/-- A backend has artifacts for a module, and each of them can be rendered. -/
def Renders (b : Backend) (g : ModuleGraph) (m : LinkedModule) : Prop :=
  ∃ as, b.artifacts g m = .ok as ∧ ∀ a ∈ as, ∃ content, a.content = .ok content

/-- The paths of the artifacts of a backend for a module. -/
def paths (b : Backend) (g : ModuleGraph) (m : LinkedModule) : List Text :=
  match b.artifacts g m with
  | .ok as => as.map Artifact.path
  | .error _ => []

/-- The files of the artifacts of a backend for a module. -/
def files (b : Backend) (g : ModuleGraph) (m : LinkedModule) : List OutputFile :=
  match b.artifacts g m with
  | .ok as => as.filterMap Artifact.file?
  | .error _ => []

end Backend

/-- The paths of all artifacts, in the order of the backends, then of the modules, then of the
artifacts. -/
def outputPaths (g : ModuleGraph) (backends : List Backend) : List Text :=
  backends.flatMap fun b => g.modules.flatMap fun m => b.paths g m

/-- The files of all artifacts, in the order of the backends, then of the modules, then of the
artifacts. -/
def outputs (g : ModuleGraph) (backends : List Backend) : List OutputFile :=
  backends.flatMap fun b => g.modules.flatMap fun m => b.files g m

/-- A chain of steps that may fail succeeds exactly if each step does. -/
theorem bind_eq_ok_iff {α β : Type} {x : Except Fault α} {f : α → Except Fault β} {b : β} :
    (x >>= f) = .ok b ↔ ∃ a, x = .ok a ∧ f a = .ok b := by
  cases x with
  | error e => simp [bind, Except.bind]
  | ok a => simp [bind, Except.bind]

variable {g : ModuleGraph}

/-! ## One job -/

/-- The artifacts of a job are rendered exactly if each of them has a content. -/
theorem Job.renderAll_eq_ok_iff {j : Job} {as : List Artifact} {fs : List OutputFile} :
    j.renderAll g as = .ok fs ↔
      (∀ a ∈ as, ∃ content, a.content = .ok content) ∧ fs = as.filterMap Artifact.file? := by
  induction as generalizing fs with
  | nil => simp [renderAll, eq_comm]
  | cons a as ih =>
    cases hc : a.content with
    | error f => simp [renderAll, hc]
    | ok content =>
      have hfile : a.file? = some { path := a.path, content } := by simp [Artifact.file?, hc]
      simp only [renderAll, hc, bind_eq_ok_iff, ih, List.forall_mem_cons, Except.ok.injEq,
        exists_eq', true_and, List.filterMap_cons_some hfile]
      constructor
      · rintro ⟨rest, ⟨hall, rfl⟩, rfl⟩
        exact ⟨hall, rfl⟩
      · rintro ⟨hall, rfl⟩
        exact ⟨_, ⟨hall, rfl⟩, rfl⟩

/-- A job gives files exactly if its backend renders its module. -/
theorem Job.run_eq_ok_iff {j : Job} {fs : List OutputFile} :
    j.run g = .ok fs ↔ j.backend.Renders g j.module ∧ fs = j.backend.files g j.module := by
  rw [run, Backend.Renders, Backend.files]
  cases j.backend.artifacts g j.module with
  | error f => simp
  | ok as => simpa using renderAll_eq_ok_iff

theorem map_path_filterMap_file? {as : List Artifact}
    (h : ∀ a ∈ as, ∃ content, a.content = .ok content) :
    (as.filterMap Artifact.file?).map OutputFile.path = as.map Artifact.path := by
  induction as with
  | nil => rfl
  | cons a as ih =>
    obtain ⟨⟨content, hc⟩, hall⟩ := List.forall_mem_cons.mp h
    have hfile : a.file? = some { path := a.path, content } := by simp [Artifact.file?, hc]
    rw [List.filterMap_cons_some hfile, List.map_cons, List.map_cons, ih hall]

/-- The files of a module that is rendered have the paths of the artifacts. -/
theorem Backend.Renders.map_path_files {b : Backend} {m : LinkedModule} (h : b.Renders g m) :
    (b.files g m).map OutputFile.path = b.paths g m := by
  obtain ⟨as, has, hall⟩ := h
  rw [files, paths, has]
  exact map_path_filterMap_file? hall

/-! ## All jobs -/

variable {backends : List Backend}

theorem mem_jobs_iff {j : Job} :
    j ∈ jobs g backends ↔ j.backend ∈ backends ∧ j.module ∈ g.modules := by
  obtain ⟨b, m⟩ := j
  simp [jobs]

/-- Every job gives files exactly if every backend renders every module. -/
theorem forall_mem_jobs_renders_iff :
    (∀ j ∈ jobs g backends, j.backend.Renders g j.module) ↔
      ∀ b ∈ backends, ∀ m ∈ g.modules, b.Renders g m :=
  ⟨fun h b hb m hm => h ⟨b, m⟩ (mem_jobs_iff.mpr ⟨hb, hm⟩),
    fun h _ hj => h _ (mem_jobs_iff.mp hj).1 _ (mem_jobs_iff.mp hj).2⟩

theorem runJobs_eq_ok_iff {js : List Job} {rs : List (Job × List OutputFile)} :
    runJobs g js = .ok rs ↔ (∀ j ∈ js, j.backend.Renders g j.module) ∧
      rs = js.map fun j => (j, j.backend.files g j.module) := by
  induction js generalizing rs with
  | nil => simp [runJobs, eq_comm]
  | cons j js ih =>
    simp only [runJobs, bind_eq_ok_iff, Job.run_eq_ok_iff, ih, List.forall_mem_cons,
      Except.ok.injEq, List.map_cons]
    constructor
    · rintro ⟨_, ⟨hj, rfl⟩, _, ⟨hall, rfl⟩, rfl⟩
      exact ⟨⟨hj, hall⟩, rfl⟩
    · rintro ⟨⟨hj, hall⟩, rfl⟩
      exact ⟨_, ⟨hj, rfl⟩, _, ⟨hall, rfl⟩, rfl⟩

/-! ## Collecting -/

/-- Files are collected exactly if no path comes twice or has been seen before. -/
theorem collectFiles_eq_ok_iff {seen : List (Text × Text)} {entries : List (Job × OutputFile)}
    {fs : List OutputFile} :
    collectFiles g seen entries = .ok fs ↔ (entries.map fun e => e.2.path).Nodup ∧
      (∀ e ∈ entries, e.2.path ∉ seen.map (·.1)) ∧ fs = entries.map (·.2) := by
  induction entries generalizing seen fs with
  | nil => simp [collectFiles, eq_comm]
  | cons e entries ih =>
    obtain ⟨j, f⟩ := e
    cases hl : Text.lookup? f.path seen with
    | some b =>
      have hseen : f.path ∈ seen.map (·.1) := List.mem_map_of_mem (Text.mem_of_lookup? hl)
      simp only [collectFiles, hl, reduceCtorEq, List.forall_mem_cons, false_iff]
      exact fun h => h.2.1.1 hseen
    | none =>
      have hnew : f.path ∉ seen.map (·.1) := Text.lookup?_eq_none_iff.mp hl
      simp only [collectFiles, hl, bind_eq_ok_iff, ih, Except.ok.injEq, List.map_cons,
        List.nodup_cons, List.forall_mem_cons]
      simp only [List.mem_cons, not_or]
      constructor
      · rintro ⟨_, ⟨hnd, hall, rfl⟩, rfl⟩
        refine ⟨⟨fun hmem => ?_, hnd⟩, ⟨hnew, fun e he => (hall e he).2⟩, rfl⟩
        obtain ⟨e, he, hpath⟩ := List.mem_map.mp hmem
        exact (hall e he).1 hpath
      · rintro ⟨⟨hnot, hnd⟩, ⟨-, hall⟩, rfl⟩
        exact ⟨_, ⟨hnd, fun e he => ⟨fun hpath => hnot (hpath ▸ List.mem_map_of_mem he), hall e he⟩,
          rfl⟩, rfl⟩

/-- The table of a run in which every job gave its files. -/
def filledTable (g : ModuleGraph) (js : List Job) : List (Job × OutputFile) :=
  js.flatMap fun j => (j.backend.files g j.module).map fun f => (j, f)

theorem map_snd_filledTable :
    (filledTable g (jobs g backends)).map (·.2) = outputs g backends := by
  simp [filledTable, jobs, outputs, List.map_flatMap, List.flatMap_assoc, List.flatMap_map,
    Function.comp_def]

theorem map_path_filledTable (h : ∀ b ∈ backends, ∀ m ∈ g.modules, b.Renders g m) :
    (filledTable g (jobs g backends)).map (fun e => e.2.path) = outputPaths g backends := by
  have hpath : (fun e : Job × OutputFile => e.2.path) = OutputFile.path ∘ (·.2) := rfl
  rw [hpath, ← List.map_map, map_snd_filledTable, outputs, outputPaths, List.map_flatMap]
  refine List.flatMap_congr fun b hb => ?_
  rw [List.map_flatMap]
  exact List.flatMap_congr fun m hm => (h b hb m hm).map_path_files

/-- The files of a filled table are collected exactly if no path comes twice. -/
theorem collectFiles_filledTable (h : ∀ b ∈ backends, ∀ m ∈ g.modules, b.Renders g m)
    {fs : List OutputFile} :
    collectFiles g [] (filledTable g (jobs g backends)) = .ok fs ↔
      (outputPaths g backends).Nodup ∧ fs = outputs g backends := by
  rw [collectFiles_eq_ok_iff, map_path_filledTable h, map_snd_filledTable]
  simp

/-- What a run with a graph comes down to: it is not called off with jobs to do, every job gives
files, and the files of the jobs are collected. -/
theorem render_eq_ok_iff_collectFiles (hne : backends ≠ []) {canceled : Bool}
    {fs : List OutputFile} :
    render backends (some g) canceled = .ok fs ↔
      (canceled = true → jobs g backends = []) ∧
        (∀ j ∈ jobs g backends, j.backend.Renders g j.module) ∧
        collectFiles g [] (filledTable g (jobs g backends)) = .ok fs := by
  have hempty : backends.isEmpty = false := by simpa using hne
  simp only [render, hempty, Bool.false_eq_true, if_false]
  split
  next hoff =>
    obtain ⟨hcanceled, hjobs⟩ : canceled = true ∧ jobs g backends ≠ [] := by simpa using hoff
    simp [hcanceled, hjobs]
  next hon =>
    have hjobs : canceled = true → jobs g backends = [] := by simpa using hon
    simp only [bind_eq_ok_iff, runJobs_eq_ok_iff]
    constructor
    · rintro ⟨_, ⟨hall, rfl⟩, hcollect⟩
      rw [List.flatMap_map] at hcollect
      exact ⟨hjobs, hall, hcollect⟩
    · rintro ⟨-, hall, hcollect⟩
      refine ⟨_, ⟨hall, rfl⟩, ?_⟩
      rwa [List.flatMap_map]

/-- **When a run gives files, and which.** With at least one backend and a graph, and not called
off, a run gives files exactly if every backend renders every module and all paths are different;
the files come in the order of the backends, then of the modules, then of the artifacts. -/
theorem render_eq_ok_iff (hne : backends ≠ []) {fs : List OutputFile} :
    render backends (some g) false = .ok fs ↔
      (∀ b ∈ backends, ∀ m ∈ g.modules, b.Renders g m) ∧ (outputPaths g backends).Nodup ∧
        fs = outputs g backends := by
  rw [render_eq_ok_iff_collectFiles hne, forall_mem_jobs_renders_iff]
  constructor
  · rintro ⟨-, hall, hcollect⟩
    exact ⟨hall, (collectFiles_filledTable hall).mp hcollect⟩
  · rintro ⟨hall, hfs⟩
    exact ⟨fun h => absurd h Bool.false_ne_true, hall, (collectFiles_filledTable hall).mpr hfs⟩

end WireModel
