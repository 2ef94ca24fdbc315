import Mathlib.Algebra.GroupWithZero.Nat
import WireModel.Emit.Workers
import WireModel.Proofs.Emit.Files
import WireModel.Sample

/-!
# Workers — every schedule ends in the same files

Whatever the workers of a run do first, they are never stuck and never busy for ever
(`Shift.exists_finished`, `Shift.left_follow?`), and what they have when all jobs are put away is
what the run without workers has (`renderBy?_eq_ok_iff`). The invariant is `Pool.Sound`: it ties
the phase of each job to the table and to the first fault. `Shift.Step` says once what a move can
do; the invariant and the measure are read off it.
-/

namespace WireModel

open Phase

namespace Shift

variable {s : Shift} {p q : Pool}

/-! ## Moves -/

/-- What a move can do: the phase of one job changes, and with it the table or the first fault. -/
inductive Step (s : Shift) (p : Pool) : Pool → Prop
  /-- A job is taken. -/
  | take {i : Nat} : p.phases[i]? = some .waiting → p.busy < s.workers →
      Step s p (p.setPhase i .taken)
  /-- A job finds that the run was called off. -/
  | skip {i : Nat} : p.phases[i]? = some .taken → s.canceled = true ∨ p.failure.isSome →
      Step s p (p.setPhase i (.ended (some (.plain canceledMessage))))
  /-- A job finds that the run goes on. -/
  | proceed {i : Nat} : p.phases[i]? = some .taken → s.canceled = false → p.failure = none →
      Step s p (p.setPhase i .rendering)
  /-- A job gives its files. -/
  | render {i : Nat} {j : Job} {files : List OutputFile} : p.phases[i]? = some .rendering →
      s.jobs[i]? = some j → j.run s.graph = .ok files →
      Step s p { p.setPhase i (.ended none) with results := p.results.set i files }
  /-- A job gives a fault. -/
  | fail {i : Nat} {j : Job} {f : Fault} : p.phases[i]? = some .rendering →
      s.jobs[i]? = some j → j.run s.graph = .error f →
      Step s p (p.setPhase i (.ended (some f)))
  /-- A job is put away. -/
  | putAway {i : Nat} {fault : Option Fault} : p.phases[i]? = some (.ended fault) →
      Step s p { p.setPhase i .putAway with failure := p.failure.or fault }

theorem getElem?_of_findIdx?_isWaiting {phases : List Phase} {i : Nat}
    (h : phases.findIdx? isWaiting = some i) : phases[i]? = some .waiting := by
  obtain ⟨hi, hwaiting, -⟩ := List.findIdx?_eq_some_iff_getElem.mp h
  rw [List.getElem?_eq_getElem hi]
  cases hphase : phases[i] <;> simp [hphase, isWaiting] at hwaiting ⊢

theorem step_of_move? {m : Move} (h : s.move? p m = some q) : s.Step p q := by
  cases m with
  | take =>
    simp only [move?, Option.bind_eq_bind, Option.bind_eq_some_iff] at h
    obtain ⟨i, hi, h⟩ := h
    split at h
    next hbusy => cases h; exact .take (getElem?_of_findIdx?_isWaiting hi) hbusy
    next => cases h
  | look i =>
    simp only [move?] at h
    split at h
    next hi =>
      split at h
      next hoff => cases h; exact .skip hi (by simpa using hoff)
      next hon =>
        cases h
        simp only [Bool.or_eq_true, not_or, Bool.not_eq_true, Option.isSome_eq_false_iff,
          Option.isNone_iff_eq_none] at hon
        exact .proceed hi hon.1 hon.2
    next => cases h
  | render i =>
    simp only [move?] at h
    split at h
    next hi hj =>
      split at h
      next hrun => cases h; exact .render hi hj hrun
      next hrun => cases h; exact .fail hi hj hrun
    next => cases h
  | putAway i =>
    simp only [move?] at h
    split at h
    next hi => cases h; exact .putAway hi
    next => cases h

/-! ## The invariant -/

/-- A job has its files in the table, and was rendered because the run was not called off. -/
def Filled (s : Shift) (p : Pool) (i : Nat) : Prop :=
  s.canceled = false ∧
    ∃ j files, s.jobs[i]? = some j ∧ j.run s.graph = .ok files ∧ p.results[i]? = some files

/-- A fault that can end the run: one of a job, or that the run was called off from outside. -/
def Blames (s : Shift) (f : Fault) : Prop :=
  (∃ j ∈ s.jobs, j.run s.graph = .error f) ∨
    (s.canceled = true ∧ s.jobs ≠ [] ∧ f = .plain canceledMessage)

/-- What the phase of a job says about the run. -/
def Fits (s : Shift) (p : Pool) (i : Nat) : Phase → Prop
  | .waiting | .taken => True
  | .rendering => s.canceled = false
  | .ended none => s.Filled p i
  | .ended (some f) => p.failure.isSome ∨ s.Blames f
  | .putAway => p.failure.isSome ∨ s.Filled p i

end Shift

/-- **The invariant of a run.** There is one phase and one entry of the table for each job, every
phase fits the table and the first fault, and the first fault is to blame on a job. -/
structure Pool.Sound (s : Shift) (p : Pool) : Prop where
  length_phases : p.phases.length = s.jobs.length
  length_results : p.results.length = s.jobs.length
  fits : ∀ i phase, p.phases[i]? = some phase → s.Fits p i phase
  blames : ∀ f, p.failure = some f → s.Blames f

namespace Shift

variable {s : Shift} {p q : Pool}

/-- What a phase says stays true as long as the entry of the job and the first fault stay. -/
theorem Fits.mono {i : Nat} {phase : Phase} (h : s.Fits p i phase)
    (hfailure : p.failure.isSome → q.failure.isSome) (hresults : q.results[i]? = p.results[i]?) :
    s.Fits q i phase := by
  have hfilled : s.Filled p i → s.Filled q i := fun hf => by rwa [Filled, hresults]
  match phase, h with
  | .waiting, _ => trivial
  | .taken, _ => trivial
  | .rendering, h => exact h
  | .ended none, h => exact hfilled h
  | .ended (some _), h => exact h.imp_left hfailure
  | .putAway, h => exact h.imp hfailure hfilled

end Shift

namespace Pool

variable {s : Shift} {p q : Pool}

theorem sound_start : s.start.Sound s where
  length_phases := List.length_replicate
  length_results := List.length_replicate
  fits i phase h := by
    obtain rfl : phase = .waiting := List.eq_of_mem_replicate (List.mem_of_getElem? h)
    trivial
  blames f h := by cases h

/-- The invariant after the phase of one job has changed: only that job and the first fault have to
be looked at. -/
theorem Sound.update (h : p.Sound s) {i : Nat} {phase : Phase}
    (hphases : q.phases = p.phases.set i phase) (hlength : q.results.length = p.results.length)
    (hresults : ∀ k, k ≠ i → q.results[k]? = p.results[k]?)
    (hfailure : p.failure.isSome → q.failure.isSome) (hfits : s.Fits q i phase)
    (hblames : ∀ f, q.failure = some f → s.Blames f) : q.Sound s where
  length_phases := by rw [hphases, List.length_set, h.length_phases]
  length_results := hlength.trans h.length_results
  fits k phase' hk := by
    rw [hphases, List.getElem?_set] at hk
    split at hk
    next hik =>
      subst hik
      split at hk
      next => cases hk; exact hfits
      next => cases hk
    next hik => exact (h.fits k phase' hk).mono hfailure (hresults k (Ne.symm hik))
  blames := hblames

/-- If a move leaves the table and the first fault alone, the invariant is about the new phase. -/
theorem Sound.setPhase (h : p.Sound s) {i : Nat} {phase : Phase}
    (hfits : s.Fits p i phase) : (p.setPhase i phase).Sound s :=
  h.update rfl rfl (fun _ _ => rfl) id (hfits.mono id rfl) h.blames

theorem Sound.jobs_ne_nil (h : p.Sound s) {i : Nat} {phase : Phase}
    (hi : p.phases[i]? = some phase) : s.jobs ≠ [] := fun hnil => by
  have := h.length_phases
  simp [hnil] at this
  simp [this] at hi

/-- **A move keeps the invariant.** -/
theorem Sound.step (h : p.Sound s) (hs : s.Step p q) : q.Sound s := by
  cases hs with
  | take hi hbusy => exact h.setPhase trivial
  | skip hi hoff =>
    refine h.setPhase ?_
    rcases hoff with hcanceled | hfailure
    · exact .inr (.inr ⟨hcanceled, h.jobs_ne_nil hi, rfl⟩)
    · exact .inl hfailure
  | proceed hi hon hfailure => exact h.setPhase hon
  | @render i j files hi hj hrun =>
    have hlt : i < p.results.length := by
      rw [h.length_results]
      exact (List.getElem?_eq_some_iff.mp hj).1
    refine h.update rfl List.length_set (fun k hk => List.getElem?_set_ne (Ne.symm hk)) id ?_
      h.blames
    exact ⟨h.fits i _ hi, j, files, hj, hrun, List.getElem?_set_self hlt⟩
  | @fail i j f hi hj hrun =>
    exact h.setPhase (.inr (.inl ⟨j, List.mem_of_getElem? hj, hrun⟩))
  | @putAway i fault hi =>
    have hfits := h.fits i _ hi
    refine h.update rfl rfl (fun _ _ => rfl) ?_ ?_ ?_
    · intro hsome
      simp [hsome]
    · cases fault with
      | none => exact .inr hfits
      | some f => exact .inl (by simp)
    · intro f hf
      rcases Option.or_eq_some_iff.mp hf with hf | ⟨hnone, rfl⟩
      · exact h.blames f hf
      · exact hfits.resolve_left (by simp [hnone])

theorem Sound.follow? (h : p.Sound s) {ms : List Move} (hq : s.follow? p ms = some q) :
    q.Sound s := by
  induction ms generalizing p with
  | nil => cases hq; exact h
  | cons m ms ih =>
    obtain ⟨r, hr, hq⟩ := Option.bind_eq_some_iff.mp hq
    exact ih (h.step (Shift.step_of_move? hr)) hq

end Pool

/-! ## No schedule is stuck or endless -/

/-- An upper bound for the moves a job has before it. -/
def Phase.left : Phase → Nat
  | waiting => 4
  | taken => 3
  | rendering => 2
  | ended _ => 1
  | putAway => 0

/-- An upper bound for the moves before all jobs are put away. -/
def Pool.left (p : Pool) : Nat := (p.phases.map Phase.left).sum

theorem sum_map_left_set {phases : List Phase} {i : Nat} {old new : Phase}
    (h : phases[i]? = some old) :
    ((phases.set i new).map Phase.left).sum + old.left = (phases.map Phase.left).sum + new.left := by
  induction phases generalizing i with
  | nil => cases h
  | cons phase phases ih =>
    cases i with
    | zero => cases h; simp; omega
    | succ i =>
      have := ih h
      simp only [List.set_cons_succ, List.map_cons, List.sum_cons]
      omega

/-- The bound falls when one job goes on to a later phase. -/
theorem Pool.left_lt_of_phases {p q : Pool} {i : Nat} {old new : Phase}
    (hq : q.phases = p.phases.set i new) (hi : p.phases[i]? = some old)
    (hlt : new.left < old.left) : q.left < p.left := by
  have hsum : ((p.phases.set i new).map Phase.left).sum + old.left =
      (p.phases.map Phase.left).sum + new.left := sum_map_left_set hi
  rw [left, left, hq]
  omega

theorem left_start (s : Shift) : s.start.left = 4 * s.jobs.length := by
  simp [Shift.start, Pool.left, Phase.left, Nat.mul_comm]

namespace Shift

variable {s : Shift} {p q : Pool}

/-- **A move brings the run nearer to its end.** -/
theorem Step.left_lt (hs : s.Step p q) : q.left < p.left := by
  cases hs with
  | take hi | skip hi | proceed hi | render hi | fail hi | putAway hi =>
    exact Pool.left_lt_of_phases rfl hi (by simp [Phase.left])

/-- No schedule is longer than the bound of the pool it starts with. -/
theorem left_follow? {ms : List Move} (hq : s.follow? p ms = some q) :
    q.left + ms.length ≤ p.left := by
  induction ms generalizing p with
  | nil => cases hq; exact Nat.le_refl _
  | cons m ms ih =>
    obtain ⟨r, hr, hq⟩ := Option.bind_eq_some_iff.mp hq
    have := (step_of_move? hr).left_lt
    have := ih hq
    simp only [List.length_cons]
    omega

theorem follow?_append {ms ms' : List Move} :
    s.follow? p (ms ++ ms') = (s.follow? p ms).bind fun q => s.follow? q ms' := by
  induction ms generalizing p with
  | nil => rfl
  | cons m ms ih => simp [follow?, Option.bind_assoc, ih]

/-- **The workers are never stuck.** As long as a job is not put away, some move is possible. -/
theorem exists_move? (h : p.Sound s) (hworkers : 1 ≤ s.workers) (hp : p.finished = false) :
    ∃ m, (s.move? p m).isSome := by
  by_cases hbusy : p.busy = 0
  · -- Every job waits or is put away, so one of them waits, and every worker is free.
    obtain ⟨phase, hmem, hphase⟩ : ∃ phase ∈ p.phases, phase.isPutAway = false := by
      simpa [Pool.finished] using hp
    have hidle : phase.isBusy = false := by
      simpa using List.countP_eq_zero.mp hbusy phase hmem
    have hwaiting : (p.phases.findIdx? isWaiting).isSome := by
      rw [List.findIdx?_isSome, List.any_eq_true]
      refine ⟨phase, hmem, ?_⟩
      cases phase <;> simp_all [isBusy, isPutAway, isWaiting]
    obtain ⟨i, hi⟩ := Option.isSome_iff_exists.mp hwaiting
    exact ⟨.take, by simp [move?, hi, hbusy, Nat.lt_of_succ_le hworkers]⟩
  · obtain ⟨phase, hmem, hphase⟩ := List.countP_pos_iff.mp (Nat.pos_of_ne_zero hbusy)
    obtain ⟨i, hi⟩ := List.getElem?_of_mem hmem
    cases phase with
    | waiting | putAway => cases hphase
    | taken => exact ⟨.look i, by simp only [move?, hi]; split <;> rfl⟩
    | rendering =>
      have hlt : i < s.jobs.length := by
        rw [← h.length_phases]
        exact (List.getElem?_eq_some_iff.mp hi).1
      exact ⟨.render i, by simp only [move?, hi, List.getElem?_eq_getElem hlt]; split <;> rfl⟩
    | ended fault => exact ⟨.putAway i, by simp only [move?, hi]; rfl⟩

/-- **Every schedule can be finished.** From a sound pool there are moves until every job is put
away. -/
theorem exists_finished (h : p.Sound s) (hworkers : 1 ≤ s.workers) :
    ∃ ms q, s.follow? p ms = some q ∧ q.finished = true := by
  induction hn : p.left using Nat.strongRecOn generalizing p with
  | ind n ih =>
    by_cases hp : p.finished = true
    · exact ⟨[], p, rfl, hp⟩
    · obtain ⟨m, hm⟩ := exists_move? h hworkers (by simpa using hp)
      obtain ⟨r, hr⟩ := Option.isSome_iff_exists.mp hm
      have hstep := step_of_move? hr
      obtain ⟨ms, q, hq, hfinished⟩ := ih r.left (hn ▸ hstep.left_lt) (h.step hstep) rfl
      exact ⟨m :: ms, q, by rw [follow?, hr, Option.bind_some, hq], hfinished⟩

/-! ## What a finished run gives -/

/-- A pool without a fault whose jobs are put away has the files of every job in the table. -/
theorem filled_of_finished (h : p.Sound s) (hp : p.finished = true) (hfailure : p.failure = none)
    {i : Nat} (hi : i < s.jobs.length) : s.Filled p i := by
  have hlt : i < p.phases.length := h.length_phases ▸ hi
  have hfits := h.fits i _ (List.getElem?_eq_getElem hlt)
  have hput : (p.phases[i]).isPutAway = true :=
    List.all_eq_true.mp hp _ (List.getElem_mem hlt)
  cases hphase : p.phases[i] with
  | putAway =>
    rw [hphase] at hfits
    exact hfits.resolve_left (by simp [hfailure])
  | _ => simp [hphase, isPutAway] at hput

/-- A pool without a fault whose jobs are put away has the table of a run in which every job gave
its files. -/
theorem results_eq_of_finished (h : p.Sound s) (hp : p.finished = true)
    (hfailure : p.failure = none) :
    p.results = s.jobs.map fun j => j.backend.files s.graph j.module := by
  refine List.ext_getElem (by rw [h.length_results, List.length_map]) fun i hi hi' => ?_
  have hlt : i < s.jobs.length := h.length_results ▸ hi
  obtain ⟨-, j, files, hj, hrun, hfiles⟩ := filled_of_finished h hp hfailure hlt
  obtain rfl : s.jobs[i] = j := by rwa [List.getElem?_eq_getElem hlt, Option.some.injEq] at hj
  rw [List.getElem?_eq_getElem hi, Option.some.injEq] at hfiles
  rw [List.getElem_map, hfiles, (Job.run_eq_ok_iff.mp hrun).2]

/-- In a pool without a fault whose jobs are put away, every job gave its files. -/
theorem renders_of_finished (h : p.Sound s) (hp : p.finished = true)
    (hfailure : p.failure = none) {j : Job} (hj : j ∈ s.jobs) :
    j.backend.Renders s.graph j.module := by
  obtain ⟨i, hi, rfl⟩ := List.mem_iff_getElem.mp hj
  obtain ⟨-, j, files, hj, hrun, -⟩ := filled_of_finished h hp hfailure hi
  obtain rfl : s.jobs[i] = j := by rwa [List.getElem?_eq_getElem hi, Option.some.injEq] at hj
  exact (Job.run_eq_ok_iff.mp hrun).1

/-- **What a finished run gives**: the files of the jobs, collected in their order, if the run was
not called off and every job gives files; and never a file otherwise. -/
theorem outcome_eq_ok_iff (h : p.Sound s) (hp : p.finished = true) {fs : List OutputFile} :
    s.outcome p = .ok fs ↔ (s.canceled = true → s.jobs = []) ∧
      (∀ j ∈ s.jobs, j.backend.Renders s.graph j.module) ∧
      collectFiles s.graph [] (filledTable s.graph s.jobs) = .ok fs := by
  cases hfailure : p.failure with
  | some f =>
    simp only [outcome, hfailure, reduceCtorEq, false_iff]
    rintro ⟨hcanceled, hall, -⟩
    rcases h.blames f hfailure with ⟨j, hj, hrun⟩ | ⟨hoff, hne, -⟩
    · rw [Job.run_eq_ok_iff.mpr ⟨hall j hj, rfl⟩] at hrun
      cases hrun
    · exact hne (hcanceled hoff)
  | none =>
    have hcanceled : s.canceled = true → s.jobs = [] := fun hoff => by
      by_contra hne
      have hon := (filled_of_finished h hp hfailure (List.length_pos_iff.mpr hne)).1
      simp [hoff] at hon
    have hall := fun j hj => renders_of_finished (j := j) h hp hfailure hj
    have htable : (s.jobs.zip p.results).flatMap (fun x => x.2.map fun f => (x.1, f)) =
        filledTable s.graph s.jobs := by
      have hzip : s.jobs.zip p.results =
          s.jobs.map fun j => (j, j.backend.files s.graph j.module) := by
        rw [results_eq_of_finished h hp hfailure]
        simpa using List.zip_map' (l := s.jobs) (f := id)
          (g := fun j => j.backend.files s.graph j.module)
      rw [hzip, List.flatMap_map, filledTable]
    simp only [outcome, hfailure, htable]
    exact ⟨fun hfs => ⟨hcanceled, hall, hfs⟩, fun hfs => hfs.2.2⟩

end Shift

/-! ## All schedules -/

section Schedules

variable {workers : Nat} {backends : List Backend} {g : ModuleGraph} {canceled : Bool}
  {schedule : List Move} {r : Except Fault (List OutputFile)}

theorem renderBy?_eq_some_iff (hne : backends ≠ []) :
    renderBy? workers backends (some g) canceled schedule = some r ↔
      ∃ p, (Shift.ofRun workers backends g canceled).follow?
          (Shift.ofRun workers backends g canceled).start schedule = some p ∧
        p.finished = true ∧ (Shift.ofRun workers backends g canceled).outcome p = r := by
  have hempty : backends.isEmpty = false := by simpa using hne
  simp [renderBy?, hempty, Option.bind_eq_some_iff]

/-- **A schedule decides nothing.** Workers that move as some schedule says give files exactly if
the jobs done one after another do, and then the same files. -/
theorem renderBy?_eq_ok_iff {graph : Option ModuleGraph}
    (h : renderBy? workers backends graph canceled schedule = some r) {fs : List OutputFile} :
    r = .ok fs ↔ render backends graph canceled = .ok fs := by
  cases graph with
  | none => cases h; rfl
  | some g =>
    by_cases hne : backends = []
    · subst hne
      cases h
      rfl
    · obtain ⟨p, hp, hfinished, rfl⟩ := (renderBy?_eq_some_iff hne).mp h
      rw [Shift.outcome_eq_ok_iff (Pool.sound_start.follow? hp) hfinished,
        render_eq_ok_iff_collectFiles hne]
      rfl

/-- The fault of a run that was not called off is the fault of a job, unless every job gives files
and two of them have the same path. -/
theorem exists_run_eq_error_of_renderBy? (hne : backends ≠ []) {f : Fault}
    (h : renderBy? workers backends (some g) false schedule = some (.error f)) :
    (∃ b ∈ backends, ∃ m ∈ g.modules, (Job.mk b m).run g = .error f) ∨
      ((∀ b ∈ backends, ∀ m ∈ g.modules, b.Renders g m) ∧ ¬ (outputPaths g backends).Nodup) := by
  obtain ⟨p, hp, hfinished, hout⟩ := (renderBy?_eq_some_iff hne).mp h
  have hsound := Pool.sound_start.follow? hp
  cases hfailure : p.failure with
  | some f' =>
    obtain rfl : f' = f := by simpa [Shift.outcome, hfailure] using hout
    rcases hsound.blames f' hfailure with ⟨⟨b, m⟩, hj, hrun⟩ | ⟨hoff, -⟩
    · exact .inl ⟨b, (mem_jobs_iff.mp hj).1, m, (mem_jobs_iff.mp hj).2, hrun⟩
    · cases hoff
  | none =>
    have hall : ∀ b ∈ backends, ∀ m ∈ g.modules, b.Renders g m :=
      forall_mem_jobs_renders_iff.mp fun j hj =>
        Shift.renders_of_finished hsound hfinished hfailure hj
    refine .inr ⟨hall, fun hnd => ?_⟩
    have hok := (renderBy?_eq_ok_iff h).mpr ((render_eq_ok_iff hne).mpr ⟨hall, hnd, rfl⟩)
    cases hok

/-- **A run does not depend on how its workers are scheduled.** With at least one backend and at
least one worker, and not called off, no schedule is stuck or endless: whatever moves were made,
their number is bounded, and there are further moves until every job is put away. A schedule that
puts every job away gives files exactly if every backend renders every module and all paths are
different, and these are the files of all artifacts in the order of the backends, then of the
modules, then of the artifacts. Otherwise it gives a fault and no file: the fault of some job, or
that of a path that comes twice. -/
theorem render_any_schedule (hne : backends ≠ []) (hworkers : 1 ≤ workers) (g : ModuleGraph) :
    (∀ schedule p, (Shift.ofRun workers backends g false).follow?
          (Shift.ofRun workers backends g false).start schedule = some p →
        schedule.length ≤ 4 * (jobs g backends).length ∧
          ∃ rest, (renderBy? workers backends (some g) false (schedule ++ rest)).isSome) ∧
      ∀ schedule r, renderBy? workers backends (some g) false schedule = some r →
        (∀ files, r = .ok files ↔ (∀ b ∈ backends, ∀ m ∈ g.modules, b.Renders g m) ∧
          (outputPaths g backends).Nodup ∧ files = outputs g backends) ∧
        ∀ f, r = .error f → (∃ b ∈ backends, ∃ m ∈ g.modules, (Job.mk b m).run g = .error f) ∨
          ((∀ b ∈ backends, ∀ m ∈ g.modules, b.Renders g m) ∧
            ¬ (outputPaths g backends).Nodup) := by
  refine ⟨fun schedule p hp => ⟨?_, ?_⟩, fun schedule r hr => ⟨fun files => ?_, ?_⟩⟩
  · have hbound := Shift.left_follow? hp
    rw [left_start] at hbound
    exact Nat.le_trans (Nat.le_add_left _ _) hbound
  · obtain ⟨rest, q, hq, hfinished⟩ :=
      Shift.exists_finished (Pool.sound_start.follow? hp) hworkers
    refine ⟨rest, Option.isSome_iff_exists.mpr ⟨_, (renderBy?_eq_some_iff hne).mpr
      ⟨q, ?_, hfinished, rfl⟩⟩⟩
    rw [Shift.follow?_append, hp, Option.bind_some, hq]
  · rw [renderBy?_eq_ok_iff hr, render_eq_ok_iff hne]
  · rintro f rfl
    exact exists_run_eq_error_of_renderBy? hne hr

end Schedules

namespace Sample

/-- A backend that writes one file for each module, with the path of the module in it. -/
def listing (name : Text) : Backend :=
  { name
    artifacts := fun g m =>
      .ok [{ dir := name, name := "module" ++ Text.ofNat m.id, content := .ok (g.path m) }] }

/-- The modules of the sample, with nothing known about them but their numbers. -/
def listed : ModuleGraph :=
  { workspace := modules
    modules := [{ (default : LinkedModule) with id := 0 }, { (default : LinkedModule) with id := 1 }] }

/-- Two workers: the second job is put away before the first is rendered, and the third as well. -/
def overtaking : List Move :=
  [.take, .take, .look 1, .render 1, .putAway 1, .take, .look 2, .look 0, .render 2, .putAway 2,
    .render 0, .take, .putAway 0, .look 3, .render 3, .putAway 3]

theorem renders_listing {name : Text} {g : ModuleGraph} {m : LinkedModule} :
    (listing name).Renders g m :=
  ⟨_, rfl, by simp⟩

/-- Later jobs overtake the first, and the files come in the order of the jobs. -/
theorem listing_overtaken :
    ([listing "a", listing "b"] ≠ [] ∧ 1 ≤ 2) ∧
      (∃ r, renderBy? 2 [listing "a", listing "b"] (some listed) false overtaking = some r) ∧
      ∀ r, renderBy? 2 [listing "a", listing "b"] (some listed) false overtaking = some r →
        r = .ok [⟨"a/module0", "include/base"⟩, ⟨"a/module1", "example"⟩,
          ⟨"b/module0", "include/base"⟩, ⟨"b/module1", "example"⟩] := by
  refine ⟨⟨by simp, by decide⟩, ⟨_, rfl⟩, fun r hr => ?_⟩
  have hfiles := ((render_any_schedule (by simp) (by decide) listed).2 _ r hr).1
  refine (hfiles _).mpr ⟨fun b hb m _ => ?_, by decide, by decide⟩
  obtain rfl | rfl : b = listing "a" ∨ b = listing "b" := by simpa using hb
  all_goals exact renders_listing

end Sample

end WireModel
