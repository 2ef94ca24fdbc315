import WireModel.Proofs.Storage.Tree
import WireModel.Proofs.Text.Path
import WireModel.Storage.Read

/-!
# Walking — where a path leads in a tree

A walk goes from directory to directory, so whatever lies above the place
it has come to is a directory (`Rooted`). If it gets to the end, it is at
the place that the path alone says (`walk_eq_foldl`), which for a path from
the root is that of its segments in normal form (`foldl_step_eq_segments`).
A file stands only where the last segment of the path is its name.
-/

namespace WireModel

open Path

namespace FileTree

variable {t : FileTree} {p q : Place} {segs : List Text} {seg : Text} {e : Entry}

/-- A walk goes on from a directory. -/
theorem walk_cons_eq_ok_iff : t.walk p (seg :: segs) = .ok q ↔
    t.entry? p = some .dir ∧ t.walk (p.step seg) segs = .ok q := by
  rw [walk]
  cases hp : t.entry? p with
  | none => simp
  | some e => cases e <;> simp

/-- **A walk that gets through** leads where the segments say. -/
theorem walk_eq_foldl (h : t.walk p segs = .ok q) : q = segs.foldl Place.step p := by
  induction segs generalizing p with
  | nil => exact (Except.ok.inj h).symm
  | cons seg segs ih => exact ih (walk_cons_eq_ok_iff.mp h).2

theorem walk_concat (h : t.walk p (segs ++ [seg]) = .ok q) :
    ∃ r, t.walk p segs = .ok r ∧ t.entry? r = some .dir ∧ q = r.step seg := by
  induction segs generalizing p with
  | nil =>
    obtain ⟨hdir, hwalk⟩ := walk_cons_eq_ok_iff.mp h
    exact ⟨p, rfl, hdir, (Except.ok.inj hwalk).symm⟩
  | cons seg' segs ih =>
    obtain ⟨hdir, hwalk⟩ := walk_cons_eq_ok_iff.mp h
    obtain ⟨r, hr, hlast⟩ := ih hwalk
    exact ⟨r, walk_cons_eq_ok_iff.mpr ⟨hdir, hr⟩, hlast⟩

/-- All places above a place are directories. -/
def Rooted (t : FileTree) (p : Place) : Prop := ∀ r, r <+: p → r ≠ p → t.entry? r = some .dir

theorem Rooted.isDir {r : Place} (h : t.Rooted p) (hdir : t.entry? p = some .dir) (hr : r <+: p) :
    t.entry? r = some .dir := by
  by_cases hrp : r = p
  · rw [hrp, hdir]
  · exact h r hr hrp

theorem Rooted.step (h : t.Rooted p) (hdir : t.entry? p = some .dir) : t.Rooted (p.step seg) := by
  unfold Place.step
  split
  · exact h
  · split
    · exact fun r hr _ => h.isDir hdir (hr.trans (List.dropLast_prefix p))
    · intro r hr hne
      rcases List.prefix_concat_iff.mp hr with heq | hr
      · exact absurd heq hne
      · exact h.isDir hdir hr

/-- **A walk keeps directories above it.** -/
theorem Rooted.walk (h : t.Rooted p) (hwalk : t.walk p segs = .ok q) : t.Rooted q := by
  induction segs generalizing p with
  | nil => exact Except.ok.inj hwalk ▸ h
  | cons seg segs ih =>
    obtain ⟨hdir, hwalk⟩ := walk_cons_eq_ok_iff.mp hwalk
    exact ih (h.step hdir) hwalk

theorem rooted_root : t.Rooted [] := fun _ hr hne => absurd (List.prefix_nil.mp hr) hne

/-- **A path leads to a file by its name**: every other last segment leads to
a directory. -/
theorem getLast?_of_walk {content : Text} (h : t.walk [] (segs ++ [seg]) = .ok p)
    (hfile : t.entry? p = some (.file content)) : p.getLast? = some seg := by
  obtain ⟨r, hr, hdir, rfl⟩ := walk_concat h
  unfold Place.step at hfile ⊢
  split
  · rename_i hskip
    rw [if_pos hskip, hdir] at hfile
    cases hfile
  · rename_i hskip
    rw [if_neg hskip] at hfile
    split
    · -- a step up leads to a directory on the way
      rename_i hup
      rw [if_pos hup] at hfile
      rw [(rooted_root.walk hr).isDir hdir (List.dropLast_prefix r)] at hfile
      cases hfile
    · exact List.getLast?_concat

theorem mem_entries_of_entry? (hp : p ≠ []) (h : t.entry? p = some e) : (p, e) ∈ t.entries := by
  rw [entry?_of_ne hp, Option.map_eq_some_iff] at h
  obtain ⟨x, hx, rfl⟩ := h
  have hkey : x.1 = p := by simpa using List.find?_some hx
  exact hkey ▸ List.mem_of_find?_eq_some hx

end FileTree

/-! ## Paths from the root -/

namespace Path

variable {p : Text} {stack : List Text} {seg : Text}

/-- In a path from the root all segments are plain. -/
theorem Stacked.isPlain {stack : List Text} (h : Stacked true stack) : ∀ s ∈ stack, IsPlain s := by
  induction stack with
  | nil => simp
  | cons seg stack ih =>
    cases h with
    | up hr => cases hr
    | plain hp h => exact List.forall_mem_cons.mpr ⟨hp, ih h⟩

/-- On plain segments, a step does what putting a segment on the stack does. -/
theorem reverse_push (h : ∀ s ∈ stack, IsPlain s) :
    (push true stack seg).reverse = Place.step stack.reverse seg := by
  unfold push Place.step
  split
  · rfl
  · split
    · cases stack with
      | nil => rfl
      | cons top below =>
        have htop : (top == Text.ofString "..") = false := by
          simpa using (h top List.mem_cons_self).2.2.1
        simp [htop]
    · rw [List.reverse_cons]

/-- **A path from the root leads to its segments in normal form.** -/
theorem foldl_step_eq_segments (h : isAbs p = true) :
    (p.splitOn slash).foldl Place.step [] = segments p := by
  have hfold : ∀ {segs stack : List Text}, Stacked true stack → (∀ s ∈ segs, slash ∉ s) →
      segs.foldl Place.step stack.reverse = (segs.foldl (push true) stack).reverse := by
    intro segs
    induction segs with
    | nil => intros; rfl
    | cons seg segs ih =>
      intro stack hstack hsegs
      obtain ⟨hseg, hsegs⟩ := List.forall_mem_cons.mp hsegs
      rw [List.foldl_cons, List.foldl_cons, ← reverse_push hstack.isPlain]
      exact ih (hstack.push hseg) hsegs
  rw [segments, h]
  exact hfold .nil fun s hs => Text.not_mem_of_mem_splitOn hs

/-- A path from the root in normal form. -/
structure IsNormal (p : Text) : Prop where
  rooted : isAbs p = true
  normal : clean p = p

theorem isNormal_clean (h : isAbs p = true) : IsNormal (clean p) where
  rooted := by rw [isAbs_clean, h]
  normal := clean_clean p

/-- **Joining to a path from the root** gives one in normal form. -/
theorem isNormal_join {q : Text} (h : isAbs p = true) : IsNormal (join [p, q]) := by
  have hp : p ≠ [] := by
    rintro rfl
    cases h
  by_cases hq : q = []
  · have hjoin : join [p, q] = clean p := by simp [join, hp, hq, Text.join]
    rw [hjoin]
    exact isNormal_clean h
  · rw [join_eq_clean hp hq]
    exact isNormal_clean (by rw [isAbs_append hp, h])

theorem isAbs_dir : isAbs (dir p) = isAbs p := by
  obtain ⟨parts, b, hsplit⟩ := Text.exists_splitOn_eq_concat slash p
  exact (dir_of_splitOn hsplit).1

/-- The extension of a path is that of its last segment. -/
theorem ext_of_splitOn {parts : List Text} {b : Text} (h : p.splitOn slash = parts ++ [b]) :
    ext p = ext b := by
  have hb : slash ∉ b := Text.not_mem_of_mem_splitOn (t := p) (by simp [h])
  have hcut := Text.cutLast?_eq_none_iff.mpr hb
  obtain ⟨-, rfl⟩ | ⟨-, hp⟩ := eq_of_splitOn h
  · rfl
  · unfold ext
    rw [Text.cutLast?_eq_some_iff.mpr ⟨hp, hb⟩, hcut]

end Path

/-- **What is read under a path from the root** is a file of the tree, whose
normal path that is and whose name the path ends in. -/
theorem FileTree.exists_of_readFile {t : FileTree} {cwd : Place} {words path content : Text}
    (habs : isAbs path = true) (h : t.readFile cwd words path = .ok content) :
    ∃ p, (p, Entry.file content) ∈ t.entries ∧ Place.toPath p = clean path ∧
      ∃ parts, path.splitOn slash = parts ++ [p.getLastD []] := by
  have hne : path ≠ [] := by
    rintro rfl
    cases habs
  unfold readFile visit at h
  rw [if_neg (by simpa using hne), if_pos habs] at h
  cases hwalk : t.walk [] (path.splitOn slash) with
  | error e => simp [hwalk] at h
  | ok p =>
    cases hentry : t.entry? p with
    | none => simp [hwalk, hentry] at h
    | some e =>
      cases e with
      | dir => simp [hwalk, hentry] at h
      | file c =>
        obtain rfl : c = content := by simpa [hwalk, hentry] using h
        have hplace : p = segments path := by
          rw [walk_eq_foldl hwalk, foldl_step_eq_segments habs]
        have hroot : p ≠ [] := by
          rintro rfl
          rw [entry?_root] at hentry
          cases hentry
        refine ⟨p, mem_entries_of_entry? hroot hentry, ?_, ?_⟩
        · rw [Place.toPath, clean, habs, hplace]
        · obtain ⟨parts, b, hsplit⟩ := Text.exists_splitOn_eq_concat slash path
          rw [hsplit] at hwalk
          refine ⟨parts, ?_⟩
          rw [hsplit, List.getLastD_eq_getLast?, getLast?_of_walk hwalk hentry, Option.getD_some]

end WireModel
