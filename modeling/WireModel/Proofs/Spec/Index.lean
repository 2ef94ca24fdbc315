import WireModel.Spec.Module
import WireModel.Proofs.Text.Entries

/-!
# Name indexes — a look-up is a scan

The index of a module is built at the first look-up and extended as
declarations are added. It is always the one that would be built now
(`Module.IndexOk`), whenever it was built, and looking up a name in it is
a scan of the declarations for the first one of that name
(`Module.lookup_eq_find?`).

So the index does not show. However declarations are added to a module
and names are looked up in it, one call after the other, the answers are
those of a list of declarations that is scanned from the front each time
(`Module.run_eq_scanRun`).
-/

namespace WireModel

namespace Module

/-! ## Building and extending -/

variable {index : List (Text × Nat)} {pos : Nat} {ds ds' : List Decl} {name : Text}

/-- **What an index finds**: what it found before it was extended, or else
the first of the new declarations with the name. -/
theorem lookup?_extendIndex : Text.lookup? name (extendIndex index pos ds) =
    (Text.lookup? name index).or ((ds.findIdx? (·.name == name)).map (pos + ·)) := by
  induction ds generalizing index pos with
  | nil => simp [extendIndex]
  | cons d ds ih =>
    have hshift : (ds.findIdx? (·.name == name)).map (pos + 1 + ·) =
        ((ds.findIdx? (·.name == name)).map (· + 1)).map (pos + ·) := by
      rw [Option.map_map]
      exact congrArg (Option.map · _) (funext fun k => by simp only [Function.comp]; omega)
    rw [extendIndex, ih, List.findIdx?_cons, hshift]
    by_cases hany : index.any (·.1 == d.name) = true
    · -- the name is taken, so the declaration does not get into the index
      rw [if_pos hany]
      by_cases hname : d.name = name
      · obtain ⟨k, hk⟩ : ∃ k, Text.lookup? name index = some k := by
          rw [← Option.ne_none_iff_exists', Ne, Text.lookup?_eq_none_iff, not_not, ← hname]
          obtain ⟨e, he, hkey⟩ := List.any_eq_true.mp hany
          exact List.mem_map.mpr ⟨e, he, by simpa using hkey⟩
        rw [hk, Option.some_or, Option.some_or]
      · simp [hname]
    · rw [if_neg hany, Text.lookup?_append, Option.or_assoc]
      by_cases hname : d.name = name
      · simp [hname, Text.lookup?_cons_self]
      · simp [hname, Text.lookup?_cons_of_ne hname]

theorem extendIndex_append : extendIndex index pos (ds ++ ds') =
    extendIndex (extendIndex index pos ds) (pos + ds.length) ds' := by
  induction ds generalizing index pos with
  | nil => rfl
  | cons d ds ih =>
    rw [List.cons_append, extendIndex, extendIndex, ih, List.length_cons, Nat.add_assoc,
      Nat.add_comm 1]

/-- An index depends on the names of the declarations. -/
theorem extendIndex_congr (h : ds.map (·.name) = ds'.map (·.name)) :
    extendIndex index pos ds = extendIndex index pos ds' := by
  induction ds generalizing index pos ds' with
  | nil =>
    obtain rfl : ds' = [] := by simpa using h.symm
    rfl
  | cons d ds ih =>
    cases ds' with
    | nil => cases h
    | cons d' ds' =>
      obtain ⟨hd, h⟩ : d.name = d'.name ∧ ds.map (·.name) = ds'.map (·.name) := List.cons.inj h
      rw [extendIndex, extendIndex, hd, ih h]

/-! ## Indexes of modules -/

/-- **An index is up to date**: if there is one, it is the one that would
be built now. -/
def IndexOk (m : Module) : Prop :=
  ∀ index, m.index = some index → index = extendIndex [] 0 m.decls

variable {m : Module}

/-- **A look-up is a scan.** -/
theorem lookup_eq_find? (h : m.IndexOk) (name : Text) : (m.lookup name).1 = m.find? name := by
  have hindex : m.index.getD (extendIndex [] 0 m.decls) = extendIndex [] 0 m.decls := by
    cases hi : m.index with
    | none => rfl
    | some index => exact h index hi
  simp only [lookup, hindex, lookup?_extendIndex, Text.lookup?_nil, Option.none_or, find?]
  simp

/-- Without an index there is nothing to be out of date. -/
theorem IndexOk.of_none (h : m.index = none) : m.IndexOk := by
  intro index hi
  rw [h] at hi
  cases hi

/-- An index that is built by a look-up is up to date. -/
theorem IndexOk.lookup (h : m.IndexOk) (name : Text) : (m.lookup name).2.IndexOk := by
  intro index hi
  cases hm : m.index with
  | none => simpa [Module.lookup, hm, eq_comm] using hi
  | some index' =>
    obtain rfl : index' = index := by simpa [Module.lookup, hm] using hi
    exact h index' hm

/-- **And so is one that is extended.** -/
theorem IndexOk.add (h : m.IndexOk) (ds : List Decl) : (m.add ds).IndexOk := by
  intro index hi
  obtain ⟨index', hm, rfl⟩ := Option.map_eq_some_iff.mp hi
  rw [h index' hm, Module.add, extendIndex_append, Nat.zero_add]

/-- What leaves the index and the names of the declarations leaves the
index up to date. -/
theorem IndexOk.of_names (h : m.IndexOk) {m' : Module} (hindex : m'.index = m.index)
    (hnames : m'.decls.map (·.name) = m.decls.map (·.name)) : m'.IndexOk := by
  intro index hi
  rw [h index (hindex ▸ hi)]
  exact (extendIndex_congr hnames).symm

end Module

/-! ## Calls, one after the other -/

/-- A call on a module that is about its names. -/
inductive NameCall where
  /-- Declarations are added at the end. -/
  | add (ds : List Decl)
  /-- The declaration with a name is asked for. -/
  | lookup (name : Text)

/-- The first of some declarations that has a name, with its place. -/
def firstNamed (ds : List Decl) (name : Text) : Option (Decl × Nat) :=
  ds.zipIdx.find? (·.1.name == name)

/-- Calls on nothing but a list of declarations, which every look-up scans
from the front: the declarations in the end, and the answers of the
look-ups. -/
def scanRun (ds : List Decl) : List NameCall → List Decl × List (Option (Decl × Nat))
  | [] => (ds, [])
  | .add more :: calls => scanRun (ds ++ more) calls
  | .lookup name :: calls =>
    let rest := scanRun ds calls
    (rest.1, firstNamed ds name :: rest.2)

namespace Module

/-- What a look-up answers: the declaration at the place that the index
holds for the name, with this place. -/
def answer (m : Module) (name : Text) : Option (Decl × Nat) :=
  (m.lookup name).1.bind fun k => (m.decls[k]?).map (·, k)

/-- Calls on a module, each on what the ones before it left: the module in
the end, and the answers of the look-ups. -/
def run (m : Module) : List NameCall → Module × List (Option (Decl × Nat))
  | [] => (m, [])
  | .add ds :: calls => (m.add ds).run calls
  | .lookup name :: calls =>
    let rest := (m.lookup name).2.run calls
    (rest.1, m.answer name :: rest.2)

variable {m : Module}

/-- **An up-to-date index leads to the first declaration of a name.** -/
theorem IndexOk.answer (h : m.IndexOk) (name : Text) :
    m.answer name = firstNamed m.decls name := by
  have hfind : m.find? name = (firstNamed m.decls name).map (·.2) :=
    List.findIdx?_eq_fst_find?_zipIdx
  rw [Module.answer, lookup_eq_find? h, hfind]
  cases hfirst : firstNamed m.decls name with
  | none => rfl
  | some x =>
    have hplace : m.decls[x.2]? = some x.1 :=
      List.mk_mem_zipIdx_iff_getElem?.mp (List.mem_of_find?_eq_some hfirst)
    rw [Option.map_some, Option.bind_some, hplace, Option.map_some]

/-- **An up-to-date index stays hidden.** Each call leaves the index up to
date, and beside it what the call would leave without one. -/
theorem IndexOk.run (h : m.IndexOk) (calls : List NameCall) :
    { (m.run calls).1 with index := none } =
        { m with decls := (scanRun m.decls calls).1, index := none } ∧
      (m.run calls).2 = (scanRun m.decls calls).2 := by
  induction calls generalizing m with
  | nil => exact ⟨rfl, rfl⟩
  | cons call calls ih =>
    cases call with
    | add ds => exact ih (h.add ds)
    | lookup name =>
      obtain ⟨hlast, hanswers⟩ := ih (h.lookup name)
      exact ⟨hlast, congrArg₂ (· :: ·) (h.answer name) hanswers⟩

/-- **The index does not show.** Whatever declarations are added to a
module without an index and whatever names are looked up in it, in
whatever order, every look-up answers the first of the declarations there
are by then that has the name, or nothing if none has it, as a scan does.
Beside an index the calls leave nothing but the declarations added. -/
theorem run_eq_scanRun (hm : m.index = none) (calls : List NameCall) :
    { (m.run calls).1 with index := none } =
        { m with decls := (scanRun m.decls calls).1, index := none } ∧
      (m.run calls).2 = (scanRun m.decls calls).2 :=
  (IndexOk.of_none hm).run calls

end Module

namespace Sample

/-- A module with two declarations of one name. -/
def latches : Module :=
  { name := "latches"
    path := "latches"
    decls := [{ name := "Latch", body := .newtype (.int 8) },
      { name := "Latch", body := .struct [] }] }

/-- A bolt is added before there is an index. The hinges, a second bolt
and a third latch are added to the index that the first look-up built. -/
def latchCalls : List NameCall :=
  [.add [{ name := "Bolt", body := .struct [] }], .lookup "Bolt", .lookup "Hinge",
    .add [{ name := "Hinge", body := .struct [] }, { name := "Bolt", body := .newtype (.int 8) },
      { name := "Latch", body := .struct [] }, { name := "Hinge", body := .newtype (.int 8) }],
    .lookup "Latch", .lookup "Bolt", .lookup "Hinge", .lookup "Knob"]

/-- The first latch and the first bolt stay the ones that are found, the
first hinge is found as soon as it is there, and a knob never. -/
theorem latches_run : latches.index = none ∧
    (latches.run latchCalls).2.map (·.map Prod.snd) =
      [some 2, none, some 0, some 2, some 3, none] ∧
    (latches.run latchCalls).1.index =
      some [(("Latch" : Text), 0), (("Bolt" : Text), 2), (("Hinge" : Text), 3)] ∧
    (latches.run latchCalls).2 = (scanRun latches.decls latchCalls).2 :=
  ⟨rfl, by decide, by decide, (Module.run_eq_scanRun rfl latchCalls).2⟩

end Sample

end WireModel
