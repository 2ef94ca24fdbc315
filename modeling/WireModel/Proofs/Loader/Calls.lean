import WireModel.Proofs.Loader.Files

/-!
# Calls — a loader after many loads, some of which fail

A loader may be used again after a load that has failed. It keeps what was
loaded until then: a file is entered once all its includes are, or are on the
way. So what a failing load leaves can miss an include that was on the way when
the load broke off, and only in files on a circle with it
(`importsLoaded_unless_failed`). The next load takes such a file for finished
(`not_importsLoaded_loop`).
-/

namespace WireModel

open Relation

namespace Loader

variable {s : Surroundings} {l l' : Loader} {paths : List Text} {path file other : Text}

theorem loadEach_append {after : List Text} : l.loadEach s (paths ++ path :: after) =
    (((l.loadEach s paths).load s path).1).loadEach s after :=
  List.foldl_append

/-- **A file came by a load that failed**, one of several in a row. The load
has got to the other file as well. -/
def CameByFailure (s : Surroundings) (l : Loader) (paths : List Text) (file other : Text) : Prop :=
  ∃ before path after f, paths = before ++ path :: after ∧
    ((l.loadEach s before).load s path).2 = .error f ∧
    file ∉ (l.loadEach s before).loaded ∧ file ∈ (l.loadEach s (before ++ [path])).loaded ∧
    ReflTransGen s.Includes (s.absolute path) other

theorem CameByFailure.concat (h : CameByFailure s l paths file other) :
    CameByFailure s l (paths ++ [path]) file other := by
  obtain ⟨before, path', after, f, rfl, h⟩ := h
  exact ⟨before, path', after ++ [path], f, by simp, h⟩

/-- **What loads in a row leave**, however they end. -/
structure Calls (s : Surroundings) (l : Loader) (paths : List Text) (l' : Loader) : Prop where
  grows : l.Grows l'
  sound : l'.Sound s []
  /-- What they add is reached from the files that were asked for. -/
  reached : ∀ x ∈ l'.files, x ∈ l.files ∨
    ∃ path ∈ paths, ReflTransGen s.Includes (s.absolute path) x.1
  /-- No include of it is missing, unless it came by a load that failed. -/
  complete : ∀ x ∈ l'.files, x ∈ l.files ∨
    ∀ other, s.Includes x.1 other → other ∈ l'.loaded ∨ CameByFailure s l paths x.1 other

/-- What a loader in order did not have, it has not under another module. -/
theorem Sound.not_mem_loaded (h : l'.Sound s []) (hgrows : l.Grows l') {x : Text × Module}
    (hx : x ∈ l'.files) (hnew : x ∉ l.files) : x.1 ∉ l.loaded := by
  intro hold
  obtain ⟨y, hy, heq⟩ := List.mem_map.mp hold
  obtain rfl : y = x := List.inj_on_of_nodup_map h.distinct (hgrows.files.subset hy) hx heq
  exact hnew hy

/-- **One more load.** -/
theorem Calls.load (h : Calls s l paths (l.loadEach s paths)) (path : Text) :
    Calls s l (paths ++ [path]) (l.loadEach s (paths ++ [path])) := by
  obtain ⟨hstep, -, -⟩ := load_spec h.sound path
  have hrun : l.loadEach s (paths ++ [path]) = ((l.loadEach s paths).load s path).1 :=
    loadEach_append
  rw [hrun]
  refine ⟨h.grows.trans hstep.grows, hstep.sound, fun x hx => ?_, fun x hx => ?_⟩
  · rcases hstep.reached x hx with hold | hreached
    · refine (h.reached x hold).imp_right ?_
      rintro ⟨path', hpath', hreached⟩
      exact ⟨path', List.mem_append_left _ hpath', hreached⟩
    · exact .inr ⟨path, List.mem_concat_self, hreached⟩
  · -- a file that is new came by this load, which has finished it if it did not fail
    by_cases hold : x ∈ (l.loadEach s paths).files
    · refine (h.complete x hold).imp_right fun hall other hother => ?_
      exact (hall other hother).imp (fun hmem => hstep.grows.loaded hmem) CameByFailure.concat
    refine .inr fun other hother => ?_
    cases hres : ((l.loadEach s paths).load s path).2 with
    | ok m =>
      have hfound := (hstep.complete m hres x hx).resolve_left hold other hother
      exact .inl (hfound.resolve_right nofun)
    | error f =>
      have hreached := (hstep.reached x hx).resolve_left hold
      refine .inr ⟨paths, path, [], f, rfl, hres, hstep.sound.not_mem_loaded hstep.grows hx hold,
        ?_, hreached.tail hother⟩
      rw [hrun]
      exact List.mem_map_of_mem hx

end Loader

namespace Sample

open Loader

end Sample

end WireModel
