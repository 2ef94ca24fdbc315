import WireModel.Proofs.Loader.Order
import WireModel.Proofs.Text.Case

/-!
# Files — what a loader gives in the end

Between two loads nothing is pending. A loader is in order then
(`load_spec`), whatever has failed before, and after loads that have all
succeeded no include is missing (`Complete`). So every import of its modules
leads to one of them, and the linker finds each.
-/

namespace WireModel

open Relation

namespace Loader

variable {s : Surroundings} {l l' : Loader} {root : Text}

/-- **One load**, of a file with all it includes. It always comes to an end. -/
theorem load_spec (h : l.Sound s []) (path : Text) :
    Progresses s [] (s.absolute path) l (l.load s path) ∧
    (l.load s path).2 ≠ .error .unworded ∧
    ∀ m, (l.load s path).2 = .ok m → (s.absolute path, m) ∈ (l.load s path).1.files := by
  obtain ⟨hends, -⟩ := loadFile_terminates s l path (Nat.lt_succ_self _)
  have hway : Underway s l [] (s.absolute path) := ⟨nofun, nofun⟩
  have hsteps := loadFile_spec (s.knownPaths.length + 1) hway h
  unfold load
  dsimp only
  split
  next l' f hrun =>
    rw [hrun] at hends hsteps
    exact ⟨hsteps.fail f, by simpa using hends, nofun⟩
  next l' path' hrun =>
    rw [hrun] at hsteps
    obtain ⟨-, hloaded | hpending⟩ := hsteps.finds path' rfl
    · cases hm : l'.module? (s.absolute path) with
      | none => exact absurd hloaded (module?_eq_none_iff.mp hm)
      | some m =>
        refine ⟨hsteps.ok m, nofun, fun m' hm' => ?_⟩
        rw [← Except.ok.inj hm']
        exact Text.mem_of_lookup? hm
    · cases hpending

end Loader

/-! ## What is loaded -/

section Loaded

variable (s : Surroundings) (paths : List Text) (files : List (Text × Module))

/-- **The modules of files are complete**: every file that was asked for is
among them, each file once, and the imports of a module are the includes of
its file in their order, each with the path of the module of the file that
the include leads to. -/
structure Complete : Prop where
  distinct : (files.map (·.1)).Nodup
  requested : ∀ path ∈ paths, s.absolute path ∈ files.map (·.1)
  imports : ∀ x ∈ files, ∃ content, s.read x.1 = .ok content ∧
    List.Forall₂ (fun i y => ∃ e m, i = some e ∧ (Loader.includePath x.1 e.path, m) ∈ files ∧
      y = { ns := e.ns, path := m.path }) content.includes x.2.imports

end Loaded

variable {s : Surroundings} {paths : List Text} {files : List (Text × Module)}

/-- A loader in order from which nothing is missing is complete. -/
theorem Loader.Sound.complete {l : Loader} (h : l.Sound s []) (hclosed : l.Closed s [])
    (hpaths : ∀ path ∈ paths, s.absolute path ∈ l.loaded) : Complete s paths l.files where
  distinct := h.distinct
  requested := hpaths
  imports x hx := by
    obtain ⟨content, hread, hbinds⟩ := h.bound x hx
    refine ⟨content, hread, ?_⟩
    have hmem : List.Forall₂ (fun i y => i ∈ content.includes ∧ l.Binds x.1 i y)
        content.includes x.2.imports :=
      List.forall₂_and_left _ _ |>.mpr ⟨fun _ => id, hbinds⟩
    refine hmem.imp ?_
    rintro i y ⟨hi, e, path, rfl, hname, rfl⟩
    have hloaded : Loader.includePath x.1 e.path ∈ l.loaded :=
      (hclosed x hx _ ⟨content, e, hread, hi, rfl⟩).resolve_right nofun
    obtain ⟨⟨file, m⟩, hm, hfile⟩ := List.mem_map.mp hloaded
    obtain rfl : file = Loader.includePath x.1 e.path := hfile
    obtain rfl : m.path = path := Option.some.inj ((h.named _ hm).symm.trans hname)
    exact ⟨e, m, rfl, hm, rfl⟩

namespace Sample

open Loader

end Sample

end WireModel
