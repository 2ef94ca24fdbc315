import WireModel.Proofs.Decode.RoundTrip
import WireModel.Proofs.Link.Inline

/-!
# Presence — when a value comes back

Null stands for an optional that is absent, and is refused where a
recursive member holds its value behind an indirection. Presence is clear
in a graph (`ModuleGraph.PresenceClear`) when nothing that is held in one
of these ways is written as null. Then every value is read back from what
it is written as (`deserialize_encode`).

Linking does not make presence clear: an optional of a newtype that wraps
an optional or a value that is passed through is accepted.
`ModuleGraph.MayBeNull` says which types have a value that is written as
null, by following newtypes, and presence is clear exactly where none of
them is held in this way (`presenceClear_iff`).
-/

namespace WireModel

/-- The types a value of a type is made of, as far as its own nodes go:
the type, and the items of lists, mappings and optionals in it. -/
def TypeExpr.parts : TypeExpr → List TypeExpr
  | .missing => []
  | .node k width r elem => .node k width r elem ::
    if k = .list ∨ k = .map ∨ k = .optional then elem.parts else []

namespace ModuleGraph

variable (g : ModuleGraph)

/-- A value of a slot, with nothing asked of what is held behind
indirections. -/
def IsValue (s : Slot) (x : Datum) : Prop := g.Fits (fun _ => True) s x

/-- A type of which some value of the graph holds an optional by
pointer. -/
def PointerOptional (elem : TypeExpr) : Prop :=
  Reader.isNilable g.workspace elem = false ∧ ∃ id m d, g.Declares id m d ∧
    ∃ x ∈ g.workspace.heldTypes d, ∃ width r, .node .optional width r elem ∈ x.2.parts

/-- A struct field or newtype that holds its value behind an indirection
because it is recursive. -/
def BoxedMember (m : LinkedModule) (id : DeclId) (name : Text) (t : TypeExpr) : Prop :=
  Reader.isBoxed g.workspace m id name t = true ∧ ∃ d, g.Declares id m d ∧ d.kind ≠ .union ∧
    (name, t) ∈ g.workspace.heldTypes d

/-- **Presence is clear**: nothing that is held behind an indirection is
written as null. -/
structure PresenceClear : Prop where
  optional : ∀ elem, g.PointerOptional elem → ∀ x, g.IsValue (.type elem) x → x.Shown g.workspace
  boxed : ∀ m id name t, g.BoxedMember m id name t → ∀ x, g.IsValue (.type t) x →
    x.Shown g.workspace

/-- **The types with a value that is written as null**: values that are
passed through, optionals, and newtypes over such a type. -/
inductive MayBeNull : TypeExpr → Prop
  | json {width r elem} : MayBeNull (.node .json width r elem)
  | optional {width r elem} : MayBeNull (.node .optional width r elem)
  | newtype {width r elem id d t} (ht : r.target = some id) (hd : g.workspace.decl? id = some d)
      (hb : d.body = .newtype t) (h : MayBeNull t) : MayBeNull (.node .ref width (some r) elem)

variable {g}

/-! ## Values that are written as null -/

/-- A value written as null is of a type that may be null. -/
theorem mayBeNull_of_fits {held : Datum → Prop} {s : Slot} {x : Datum} (h : g.Fits held s x)
    (hnull : x.encode g.workspace = .null) :
    match s with
    | .type t => g.MayBeNull t
    | .member _ _ _ t => g.MayBeNull t
    | .decl id => ∃ d t, g.workspace.decl? id = some d ∧ d.body = .newtype t ∧ g.MayBeNull t := by
  induction h with
  | json v => exact .json
  | absent => exact .optional
  | nullable => exact .optional
  | pointer => exact .optional
  | ref ht hx ih =>
    obtain ⟨d, t, hd, hb, hmay⟩ := ih hnull
    exact .newtype ht hd hb hmay
  | plain hb hx ih => exact ih hnull
  | boxed hb hx hheld ih => exact ih hnull
  | wrapped hd hb hx ih => exact ⟨_, _, hd.2, hb, ih hnull⟩
  | _ => cases hnull

/-- A member holds a value that is written as the value is. -/
theorem exists_member {held : Datum → Prop} {m : LinkedModule} {id : DeclId} {name : Text}
    {t : TypeExpr} {x : Datum} (hx : g.Fits held (.type t) x) (hheld : held x) :
    ∃ y, g.Fits held (.member m id name t) y ∧ y.encode g.workspace = x.encode g.workspace := by
  by_cases hb : Reader.isBoxed g.workspace m id name t = true
  · exact ⟨_, .boxed hb hx hheld, rfl⟩
  · exact ⟨x, .plain (by simpa using hb) hx, rfl⟩

/-- **And every type that may be null has such a value**, if its
references are in order. -/
theorem exists_null_of_mayBeNull (hl : g.Linked) {t : TypeExpr} (h : g.MayBeNull t)
    (ht : g.TypeOk t) : ∃ x, g.IsValue (.type t) x ∧ x.encode g.workspace = .null := by
  induction h with
  | json => exact ⟨.json .null, .json _, rfl⟩
  | optional => exact ⟨.absent, .absent, rfl⟩
  | newtype htarget hd hb _ ih =>
    obtain ⟨s, id', m, d', hs, ht', hdecl, -⟩ := ht.exists_target
    obtain rfl := Option.some.inj hs
    obtain rfl := Option.some.inj (htarget.symm.trans ht')
    obtain rfl := Option.some.inj (hd.symm.trans hdecl.2)
    obtain ⟨x, hx, hnull⟩ := ih (hl.typeOk hdecl _ (mem_heldTypes_of_newtype hb))
    obtain ⟨y, hy, henc⟩ := exists_member (m := m) hx trivial
    exact ⟨_, .ref htarget (.wrapped hdecl hb hy), henc.trans hnull⟩

/-- **A type has a value that is written as null** exactly when it may be
null. -/
theorem exists_null_iff (hl : g.Linked) {t : TypeExpr} (ht : g.TypeOk t) :
    (∃ x, g.IsValue (.type t) x ∧ x.encode g.workspace = .null) ↔ g.MayBeNull t := by
  constructor
  · rintro ⟨x, hx, hnull⟩
    exact mayBeNull_of_fits hx hnull
  · exact fun h => exists_null_of_mayBeNull hl h ht

/-- The parts of a type that is in order are. -/
theorem TypeOk.part {t p : TypeExpr} (ht : g.TypeOk t) (hp : p ∈ t.parts) : g.TypeOk p := by
  induction t with
  | missing => cases hp
  | node k width r elem ih =>
    rw [TypeExpr.parts, List.mem_cons] at hp
    rcases hp with rfl | hp
    · exact ht
    · split at hp
      · exact ih (ht.elem (by assumption)) hp
      · cases hp

theorem PointerOptional.typeOk (hl : g.Linked) {elem : TypeExpr} (h : g.PointerOptional elem) :
    g.TypeOk elem := by
  obtain ⟨-, id, m, d, hd, x, hx, width, r, hp⟩ := h
  exact ((hl.typeOk hd x hx).part hp).elem (by simp)

theorem BoxedMember.typeOk (hl : g.Linked) {m : LinkedModule} {id : DeclId} {name : Text}
    {t : TypeExpr} (h : g.BoxedMember m id name t) : g.TypeOk t := by
  obtain ⟨-, d, hd, -, hmem⟩ := h
  exact hl.typeOk hd _ hmem

/-- **Presence is clear exactly where no type that is held behind an
indirection may be null.** -/
theorem presenceClear_iff (hl : g.Linked) : g.PresenceClear ↔
    (∀ elem, g.PointerOptional elem → ¬ g.MayBeNull elem) ∧
      ∀ m id name t, g.BoxedMember m id name t → ¬ g.MayBeNull t := by
  constructor
  · rintro ⟨hopt, hbox⟩
    refine ⟨fun elem he hmay => ?_, fun m id name t hm hmay => ?_⟩
    · obtain ⟨x, hx, hnull⟩ := (exists_null_iff hl (he.typeOk hl)).mpr hmay
      exact hopt elem he x hx hnull
    · obtain ⟨x, hx, hnull⟩ := (exists_null_iff hl (hm.typeOk hl)).mpr hmay
      exact hbox m id name t hm x hx hnull
  · rintro ⟨hopt, hbox⟩
    exact ⟨fun elem he x hx hnull => hopt elem he (mayBeNull_of_fits hx hnull),
      fun m id name t hm x hx hnull => hbox m id name t hm (mayBeNull_of_fits hx hnull)⟩

/-- **An optional held by pointer is read as absent** exactly from null. -/
theorem read_optional_eq_absent_iff {elem : TypeExpr}
    (hn : Reader.isNilable g.workspace elem = false) {v : Value} :
    (Slot.type (.optional elem)).read g v = some (.ok .absent) ↔ v = .null := by
  have hreader : Reader.ofType g.workspace (.optional elem) =
      .optional (Reader.ofType g.workspace elem) := by
    simp [TypeExpr.optional, Reader.ofType, hn]
  rw [Slot.read, hreader]
  constructor
  · intro h
    rcases Reader.of_run_optional h with ⟨hv, -⟩ | ⟨-, y, -, hy⟩
    · exact hv
    · cases hy
  · rintro rfl
    rfl

/-! ## Where presence is clear -/

theorem ne_missing_of_fits {held : Datum → Prop} {t : TypeExpr} {x : Datum}
    (h : g.Fits held (.type t) x) : t ≠ .missing := by
  rintro rfl
  cases h

theorem mem_parts_self {t : TypeExpr} (h : t ≠ .missing) : t ∈ t.parts := by
  cases t with
  | missing => exact absurd rfl h
  | node k width r elem => exact List.mem_cons_self

/-- The items of a part are a part. -/
theorem elem_mem_parts {t elem : TypeExpr} {k : Kind} {width : Int} {r : Option Ref}
    (hk : k = .list ∨ k = .map ∨ k = .optional) (hne : elem ≠ .missing)
    (h : .node k width r elem ∈ t.parts) : elem ∈ t.parts := by
  induction t with
  | missing => cases h
  | node k' width' r' elem' ih =>
    rw [TypeExpr.parts, List.mem_cons] at h ⊢
    rcases h with heq | h
    · cases heq
      rw [if_pos hk]
      exact Or.inr (mem_parts_self hne)
    · split at h
      · rename_i hk'
        rw [if_pos hk']
        exact Or.inr (ih h)
      · cases h

/-- A slot that values of the graph have: a part of a type that is held,
a member, or a declaration. -/
def Slot.Held (g : ModuleGraph) : Slot → Prop
  | .type t => ∃ id m d, g.Declares id m d ∧ ∃ x ∈ g.workspace.heldTypes d, t ∈ x.2.parts
  | .member m id name t => ∃ d, g.Declares id m d ∧ d.kind ≠ .union ∧
    (name, t) ∈ g.workspace.heldTypes d
  | .decl _ => True

/-- **Where presence is clear, no value holds something that is written as
null** behind an indirection. -/
theorem fits_shown_of_isValue (hc : g.PresenceClear) {s : Slot} {x : Datum} (h : g.IsValue s x)
    (hs : Slot.Held g s) : g.Fits (·.Shown g.workspace) s x := by
  induction h with
  | bool b => exact .bool b
  | int hw hn => exact .int hw hn
  | float bits => exact .float bits
  | text t => exact .text t
  | bigint n => exact .bigint n
  | decimal hd => exact .decimal hd
  | bytes bs => exact .bytes bs
  | json v => exact .json v
  | list hx ih =>
    obtain ⟨id, m, d, hd, y, hy, ht⟩ := hs
    refine .list fun x hxs => ih x hxs ⟨id, m, d, hd, y, hy, ?_⟩
    exact elem_mem_parts (by simp) (ne_missing_of_fits (hx x hxs)) ht
  | map hx ih =>
    obtain ⟨id, m, d, hd, y, hy, ht⟩ := hs
    refine .map fun x hxs => ih x hxs ⟨id, m, d, hd, y, hy, ?_⟩
    exact elem_mem_parts (by simp) (ne_missing_of_fits (hx x hxs)) ht
  | absent => exact .absent
  | nullable hn hx hne ih =>
    obtain ⟨id, m, d, hd, y, hy, ht⟩ := hs
    refine .nullable hn (ih ⟨id, m, d, hd, y, hy, ?_⟩) hne
    exact elem_mem_parts (by simp) (ne_missing_of_fits hx) ht
  | pointer hn hx _ ih =>
    obtain ⟨id, m, d, hd, y, hy, ht⟩ := hs
    have helem := elem_mem_parts (by simp) (ne_missing_of_fits hx) ht
    exact .pointer hn (ih ⟨id, m, d, hd, y, hy, helem⟩)
      (hc.optional _ ⟨hn, id, m, d, hd, y, hy, _, _, ht⟩ _ hx)
  | ref ht hx ih => exact .ref ht (ih trivial)
  | plain hb hx ih =>
    obtain ⟨d, hd, -, hmem⟩ := hs
    exact .plain hb (ih ⟨_, _, d, hd, _, hmem, mem_parts_self (ne_missing_of_fits hx)⟩)
  | boxed hb hx _ ih =>
    obtain ⟨d, hd, hk, hmem⟩ := hs
    exact .boxed hb (ih ⟨_, _, d, hd, _, hmem, mem_parts_self (ne_missing_of_fits hx)⟩)
      (hc.boxed _ _ _ _ ⟨hb, d, hd, hk, hmem⟩ _ hx)
  | record hd hb hnames hx ih =>
    refine .record hd hb hnames fun p hp => ih p hp ⟨_, hd, ?_, ?_⟩
    · simp [Decl.kind, hb, Body.kind]
    · exact mem_heldTypes_of_field hb (List.of_mem_zip hp).1
  | void hd hv hvoid => exact .void hd hv hvoid
  | variant hd hv hvoid hx ih =>
    refine .variant hd hv hvoid (ih ⟨_, _, _, hd, _, mem_heldTypes_of_variant hv hvoid, ?_⟩)
    exact mem_parts_self (ne_missing_of_fits hx)
  | wrapped hd hb hx ih =>
    refine .wrapped hd hb (ih ⟨_, hd, ?_, mem_heldTypes_of_newtype hb⟩)
    simp [Decl.kind, hb, Body.kind]

end ModuleGraph

/-- **Every value comes back.** In a graph that linking gives and in which
presence is clear, a deserializer reads each value of its declaration
from what the value is written as. -/
theorem deserialize_encode {w : Workspace} {ids : List Nat} {g : ModuleGraph}
    (hbases : BasesLinked w) (hg : (resolve w ids).2 = .ok g) (hc : g.PresenceClear)
    {id : DeclId} {x : Datum} (hx : g.IsValue (.decl id) x) :
    ∃ y, g.deserialize id (x.encode g.workspace) = some (.ok y) ∧ x.Same y :=
  g.exists_read_of_fits (linked_of_resolve hbases hg) (g.fits_shown_of_isValue hc hx trivial)

/-! ## A list -/

namespace Sample

open Linking

/-- A module of lists of integers. -/
def lists : Workspace :=
  [{ name := "lists"
     path := "lists"
     decls := [{ name := "Cell"
                 body := .struct [required "value" (.int 64), free "next" (.ref [] "Cell")] }] }]

/-- The reference of a cell to the next one. -/
def cellRef : TypeExpr := .node .ref 0 (some ⟨[], "Cell", some ⟨0, 0⟩⟩) .missing

/-- A cell, with its reference bound. -/
def cellDecl : Decl where
  name := "Cell"
  body := .struct [required "value" (.int 64), free "next" cellRef]

/-- A list of two numbers. -/
def twoCells : Datum :=
  .record ⟨0, 0⟩ [("value", .int 64 0),
    ("next", .present (.record ⟨0, 0⟩ [("value", .int 64 1), ("next", .absent)]))]

theorem basesLinked_lists : BasesLinked lists := by
  unfold BasesLinked
  decide

theorem resolve_lists : (resolve lists [0]).2 = .ok (graph lists [0]) :=
  resolve_eq_graph (by decide +kernel)

theorem declares_cell : ∃ m, (graph lists [0]).Declares ⟨0, 0⟩ m cellDecl :=
  exists_declares_of_bound (passes_of_resolve resolve_lists).1 ⟨by simp, rfl⟩ rfl

/-- There is no other declaration. -/
theorem eq_cell_of_declares {id : DeclId} {m : LinkedModule} {d : Decl}
    (h : (graph lists [0]).Declares id m d) : d = cellDecl := by
  have hp := (passes_of_resolve resolve_lists).1
  obtain ⟨m₀, d₀, hm, hd, -⟩ := exists_of_declares hp h
  obtain ⟨i, k⟩ := id
  obtain rfl : i = 0 := List.mem_singleton.mp hm.1
  have hk : k = 0 := by
    have hlt := (List.getElem?_eq_some_iff.mp hd).1
    exact Nat.lt_one_iff.mp hlt
  subst hk
  obtain ⟨m', hcell⟩ := declares_cell
  exact Option.some.inj (h.2.symm.trans hcell.2)

/-- No cell is written as null, so presence is clear. -/
theorem presenceClear_lists : (graph lists [0]).PresenceClear := by
  have hl := linked_of_resolve basesLinked_lists resolve_lists
  refine (ModuleGraph.presenceClear_iff hl).mpr ⟨?_, ?_⟩
  · -- the one optional is the next cell
    rintro elem ⟨-, id, m, d, hd, x, hx, width, r, hp⟩ hmay
    obtain rfl := eq_cell_of_declares hd
    have helem : elem = cellRef := by
      rcases List.mem_cons.mp hx with rfl | hx
      · simp [Field.effectiveType, required, TypeExpr.int, TypeExpr.parts] at hp
      · obtain rfl := List.mem_singleton.mp hx
        have hmem : .node .optional width r elem ∈ [TypeExpr.optional cellRef, cellRef] := hp
        simp only [TypeExpr.optional, cellRef, List.mem_cons, List.not_mem_nil, or_false,
          TypeExpr.node.injEq, reduceCtorEq, false_and, true_and] at hmem
        exact hmem.2.2
    subst helem
    cases hmay with
    | newtype ht hd' hb h =>
      cases ht
      obtain ⟨m', hcell⟩ := declares_cell
      obtain rfl := Option.some.inj (hcell.2.symm.trans hd')
      cases hb
  · -- and no member is a bare reference
    rintro m id name t ⟨hb, d, hd, -, hx⟩
    obtain rfl := eq_cell_of_declares hd
    rcases List.mem_cons.mp hx with heq | hx
    · cases heq
      cases hb
    · obtain heq := List.mem_singleton.mp hx
      cases heq
      cases hb

/-- A list comes back from what it is written as, with the value that is
zero and the end that is absent. -/
theorem twoCells_comes_back : BasesLinked lists ∧
    (resolve lists [0]).2 = .ok (graph lists [0]) ∧ (graph lists [0]).PresenceClear ∧
    (graph lists [0]).IsValue (.decl ⟨0, 0⟩) twoCells ∧
    ∃ y, (graph lists [0]).deserialize ⟨0, 0⟩
      (twoCells.encode (graph lists [0]).workspace) = some (.ok y) ∧ twoCells.Same y := by
  have hcell : ∀ {n x}, fitsSigned 64 n = true →
      (graph lists [0]).IsValue (.type (.optional cellRef)) x →
      (graph lists [0]).IsValue (.decl ⟨0, 0⟩)
        (.record ⟨0, 0⟩ [("value", .int 64 n), ("next", x)]) := by
    intro n x hn hx
    obtain ⟨m, hd⟩ := declares_cell
    refine .record hd rfl rfl fun p hp => ?_
    rcases List.mem_cons.mp hp with rfl | hp
    · exact .plain rfl (.int rfl hn)
    · obtain rfl := List.mem_singleton.mp hp
      exact .plain rfl hx
  have hnil : Reader.isNilable (graph lists [0]).workspace cellRef = false := by
    rw [workspace_graph]
    rfl
  have hvalue : (graph lists [0]).IsValue (.decl ⟨0, 0⟩) twoCells :=
    hcell (by decide) (.pointer hnil (.ref rfl (hcell (by decide) .absent)) trivial)
  exact ⟨basesLinked_lists, resolve_lists, presenceClear_lists, hvalue,
    deserialize_encode basesLinked_lists resolve_lists presenceClear_lists hvalue⟩

end Sample

/-! ## Where it is not -/

/-- **Presence fails exactly at types that may be null.** In a graph that
linking gives:

* an optional that is held by pointer has a value that is written as null,
  and so one that is there and is read as absent, if and only if the type
  of its items may be null;
* a recursive member has a value that is written as null if and only if
  its type may be null, and such a value is refused when it is read. -/
theorem presence_fails_iff {w : Workspace} {ids : List Nat} {g : ModuleGraph}
    (hbases : BasesLinked w) (hg : (resolve w ids).2 = .ok g) :
    (∀ elem, g.PointerOptional elem →
      ((∃ x, g.IsValue (.type elem) x ∧ x.encode g.workspace = .null) ↔ g.MayBeNull elem) ∧
      ((∃ x, g.IsValue (.type (.optional elem)) (.present x) ∧ (Slot.type (.optional elem)).read g
          ((Datum.present x).encode g.workspace) = some (.ok .absent)) ↔ g.MayBeNull elem)) ∧
    ∀ m id name t, g.BoxedMember m id name t →
      ((∃ x, g.IsValue (.type t) x ∧ x.encode g.workspace = .null) ↔ g.MayBeNull t) ∧
      (g.MayBeNull t → ∃ x, g.IsValue (.member m id name t) (.present x) ∧
        (Slot.member m id name t).read g ((Datum.present x).encode g.workspace) =
          some (.error (.mismatch "value" .null))) := by
  have hl := linked_of_resolve hbases hg
  refine ⟨fun elem he => ?_, fun m id name t hm => ?_⟩
  · have hnull := g.exists_null_iff hl (he.typeOk hl)
    refine ⟨hnull, ?_⟩
    rw [← hnull]
    refine exists_congr fun x => and_congr ?_ (g.read_optional_eq_absent_iff he.1)
    exact ⟨fun h => by cases h <;> assumption, fun h => .pointer he.1 h trivial⟩
  · have hnull := g.exists_null_iff hl (hm.typeOk hl)
    refine ⟨hnull, fun hmay => ?_⟩
    obtain ⟨x, hx, henc⟩ := hnull.mpr hmay
    refine ⟨x, .boxed hm.1 hx trivial, ?_⟩
    rw [Slot.read, Reader.ofMember, if_pos hm.1, Datum.encode, henc]
    rfl

/-- A struct of one field is read as the field is. -/
theorem ModuleGraph.deserialize_oneField {g : ModuleGraph} {id : DeclId} {m : LinkedModule} {d : Decl}
    {fs : List Field} {f : Field} (hd : g.Declares id m d) (hb : d.body = .struct fs)
    (hall : g.workspace.allFields d = [f]) (v : Value) :
    g.deserialize id (.map [(f.name, v)]) =
      (((((Reader.ofMember g.workspace m id f.name f.effectiveType).run g.deserialize v).mapError
        (·.inField f.name))).map fun x => Datum.record id [(f.name, x)]).mapError
          (·.inDecl d.name) := by
  have hlookup : Text.lookup? f.name [(f.name, v)] = some v := Text.lookup?_cons_self
  rw [ModuleGraph.deserialize_eq hd.1 hd.2, ModuleGraph.readBody, hb]
  simp only [Value.toObject, Reading.lift_ok_andThen, hall, ModuleGraph.readFields,
    Reader.readRequired, Reader.readOptional, hlookup, ite_self]
  cases (Reader.ofMember g.workspace m id f.name f.effectiveType).run g.deserialize v with
  | none => rfl
  | some r => cases r <;> rfl

namespace Sample

open Linking

/-- A module with an optional of a newtype over an optional, and a chain
that closes over one. -/
def notes : Workspace :=
  [{ name := "notes"
     path := "notes"
     decls :=
       [{ name := "Text", body := .newtype (.optional (.scalar .string)) },
         { name := "Note", body := .struct [free "text" (.ref [] "Text")] },
         { name := "Chain", body := .struct [required "link" (.ref [] "Link")] },
         { name := "Link", body := .newtype (.optional (.ref [] "Chain")) }] }]

/-- A bound reference of the module. -/
def noteRef (name : Text) (index : Nat) : TypeExpr :=
  .node .ref 0 (some ⟨[], name, some ⟨0, index⟩⟩) .missing

theorem basesLinked_notes : BasesLinked notes := by
  unfold BasesLinked
  decide

theorem resolve_notes : (resolve notes [0]).2 = .ok (graph notes [0]) :=
  resolve_eq_graph (by decide +kernel)

theorem decl?_notes : (graph notes [0]).workspace.decl? ⟨0, 0⟩ = some
      { name := "Text", body := .newtype (.optional (.scalar .string)) } ∧
    (graph notes [0]).workspace.decl? ⟨0, 1⟩ = some
      { name := "Note", body := .struct [free "text" (noteRef "Text" 0)] } ∧
    (graph notes [0]).workspace.decl? ⟨0, 2⟩ = some
      { name := "Chain", body := .struct [required "link" (noteRef "Link" 3)] } ∧
    (graph notes [0]).workspace.decl? ⟨0, 3⟩ = some
      { name := "Link", body := .newtype (.optional (noteRef "Chain" 2)) } := by
  rw [workspace_graph]
  exact ⟨rfl, rfl, rfl, rfl⟩

/-- The module once it is linked. -/
def notesModule : LinkedModule :=
  analyze (linked notes [0]) 0 (dependencies (linked notes [0]) 0)

/-- The declarations of the module. -/
theorem declares_notes {k : Nat} {d : Decl}
    (hd : (graph notes [0]).workspace.decl? ⟨0, k⟩ = some d) :
    (graph notes [0]).Declares ⟨0, k⟩ notesModule d :=
  declares_analyze (passes_of_resolve resolve_notes).1 ⟨by simp, rfl⟩ hd

/-- The chain holds its link behind an indirection. -/
theorem isBoxed_chain : Reader.isBoxed (graph notes [0]).workspace notesModule ⟨0, 2⟩ "link"
    (noteRef "Link" 3) = true := by
  have hchain := declares_notes decl?_notes.2.2.1
  have hback : (graph notes [0]).Embeds ⟨0, 3⟩ ⟨0, 2⟩ :=
    ⟨_, _, declares_notes decl?_notes.2.2.2, _, List.mem_singleton.mpr rfl, rfl⟩
  have hindirect : notesModule.isIndirect ⟨0, 2⟩ "link" = true :=
    (isIndirect_iff basesLinked_notes resolve_notes hchain).mpr
      ⟨_, ⟨0, 3⟩, List.mem_singleton.mpr rfl, rfl, .single hback⟩
  have hboxable : Reader.isBoxable (graph notes [0]).workspace (noteRef "Link" 3) = true := by
    rw [workspace_graph]
    rfl
  rw [Reader.isBoxed, hboxable, hindirect]
  rfl

/-- An optional text is held by pointer. -/
theorem isNilable_text :
    Reader.isNilable (graph notes [0]).workspace (noteRef "Text" 0) = false := by
  rw [workspace_graph]
  rfl

theorem pointerOptional_text : (graph notes [0]).PointerOptional (noteRef "Text" 0) :=
  ⟨isNilable_text, _, _, _, declares_notes decl?_notes.2.1, _, List.mem_singleton.mpr rfl, _, _,
    List.mem_cons_self⟩

theorem boxedMember_link : (graph notes [0]).BoxedMember notesModule ⟨0, 2⟩ "link"
    (noteRef "Link" 3) :=
  ⟨isBoxed_chain, _, declares_notes decl?_notes.2.2.1, by decide, List.mem_singleton.mpr rfl⟩

/-- Both types may be null, so a text that is there is read as absent and
a link is refused. -/
theorem notes_may_be_null : BasesLinked notes ∧ (resolve notes [0]).2 = .ok (graph notes [0]) ∧
    (∃ x, (graph notes [0]).IsValue (.type (.optional (noteRef "Text" 0))) (.present x) ∧
      (Slot.type (.optional (noteRef "Text" 0))).read (graph notes [0])
        ((Datum.present x).encode (graph notes [0]).workspace) = some (.ok .absent)) ∧
    ∃ x, (graph notes [0]).IsValue (.member notesModule ⟨0, 2⟩ "link" (noteRef "Link" 3))
        (.present x) ∧
      (Slot.member notesModule ⟨0, 2⟩ "link" (noteRef "Link" 3)).read (graph notes [0])
        ((Datum.present x).encode (graph notes [0]).workspace) =
          some (.error (.mismatch "value" .null)) := by
  obtain ⟨hpointer, hboxed⟩ := presence_fails_iff basesLinked_notes resolve_notes
  refine ⟨basesLinked_notes, resolve_notes, ?_, ?_⟩
  · have htext : (graph notes [0]).MayBeNull (noteRef "Text" 0) :=
      .newtype rfl decl?_notes.1 rfl .optional
    exact (hpointer _ pointerOptional_text).2.mpr htext
  · have hlink : (graph notes [0]).MayBeNull (noteRef "Link" 3) :=
      .newtype rfl decl?_notes.2.2.2 rfl .optional
    exact (hboxed _ _ _ _ boxedMember_link).2 hlink

/-- A note with a text that is there and empty of content. -/
def note : Datum :=
  .record ⟨0, 1⟩ [("text", .present (.wrapped ⟨0, 0⟩ .absent))]

/-- A chain with a link that closes it. -/
def closedChain : Datum :=
  .record ⟨0, 2⟩ [("link", .present (.wrapped ⟨0, 3⟩ .absent))]

/-- A text that is there is read back as absent. -/
theorem deserialize_note : (graph notes [0]).deserialize ⟨0, 1⟩
    (note.encode (graph notes [0]).workspace) =
      some (.ok (.record ⟨0, 1⟩ [("text", .absent)])) := by
  have hdecl := declares_notes decl?_notes.2.1
  have henc : note.encode (graph notes [0]).workspace =
      .map [((free "text" (noteRef "Text" 0)).name, .null)] := by
    simp [note, Datum.encode, Datum.encodeEntries, Text.sortByKey, free]
  have hplain : Reader.isBoxed (graph notes [0]).workspace notesModule ⟨0, 1⟩ "text"
      (.optional (noteRef "Text" 0)) = false :=
    ModuleGraph.isBoxed_of_isOptional rfl
  have hreader : Reader.ofMember (graph notes [0]).workspace notesModule ⟨0, 1⟩ "text"
      (.optional (noteRef "Text" 0)) = .optional (.decl ⟨0, 0⟩) := by
    rw [Reader.ofMember, hplain, if_neg (by decide)]
    simp [TypeExpr.optional, Reader.ofType, isNilable_text]
    rfl
  rw [henc, ModuleGraph.deserialize_oneField hdecl rfl rfl]
  change ((((Reader.ofMember _ _ _ "text" (.optional (noteRef "Text" 0))).run _ _).mapError
    _).map _).mapError _ = _
  rw [hreader]
  rfl

/-- A link that closes a chain is refused. -/
theorem deserialize_closedChain : (graph notes [0]).deserialize ⟨0, 2⟩
    (closedChain.encode (graph notes [0]).workspace) =
      some (.error { failure := .typeMismatch, decl := "Chain", path := ["link"],
                     detail := "expected value, got null" }) := by
  have hdecl := declares_notes decl?_notes.2.2.1
  have henc : closedChain.encode (graph notes [0]).workspace =
      .map [((required "link" (noteRef "Link" 3)).name, .null)] := by
    simp [closedChain, Datum.encode, Datum.encodeEntries, Text.sortByKey, required]
  rw [henc, ModuleGraph.deserialize_oneField hdecl rfl rfl]
  change ((((Reader.ofMember _ _ _ "link" (noteRef "Link" 3)).run _ _).mapError
    _).map _).mapError _ = _
  rw [Reader.ofMember, if_pos isBoxed_chain]
  rfl

/-- **Presence fails in a module that can be linked.** A note with a text
that is there is read back as one without, and the chain is refused when
it is read back. -/
theorem notes_presence_fails :
    (resolve notes [0]).2 = .ok (graph notes [0]) ∧
    ((graph notes [0]).PointerOptional (noteRef "Text" 0) ∧
      (graph notes [0]).IsValue (.decl ⟨0, 1⟩) note ∧
      (graph notes [0]).deserialize ⟨0, 1⟩ (note.encode (graph notes [0]).workspace) =
        some (.ok (.record ⟨0, 1⟩ [("text", .absent)]))) ∧
    ((graph notes [0]).BoxedMember notesModule ⟨0, 2⟩ "link" (noteRef "Link" 3) ∧
      (graph notes [0]).IsValue (.decl ⟨0, 2⟩) closedChain ∧
      (graph notes [0]).deserialize ⟨0, 2⟩ (closedChain.encode (graph notes [0]).workspace) =
        some (.error { failure := .typeMismatch, decl := "Chain", path := ["link"],
                       detail := "expected value, got null" })) ∧
    ¬ (graph notes [0]).PresenceClear := by
  obtain ⟨htext, hnote, hchain, hlink⟩ := decl?_notes
  have htextValue :
      (graph notes [0]).IsValue (.type (noteRef "Text" 0)) (.wrapped ⟨0, 0⟩ .absent) :=
    .ref rfl (.wrapped (declares_notes htext) rfl (.plain rfl .absent))
  have hlinkValue :
      (graph notes [0]).IsValue (.type (noteRef "Link" 3)) (.wrapped ⟨0, 3⟩ .absent) :=
    .ref rfl (.wrapped (declares_notes hlink) rfl (.plain rfl .absent))
  refine ⟨resolve_notes, ⟨pointerOptional_text, ?_, deserialize_note⟩,
    ⟨boxedMember_link, ?_, deserialize_closedChain⟩, ?_⟩
  · refine .record (declares_notes hnote) rfl rfl fun p hp => ?_
    obtain rfl := List.mem_singleton.mp hp
    exact .plain rfl (.pointer isNilable_text htextValue trivial)
  · refine .record (declares_notes hchain) rfl rfl fun p hp => ?_
    obtain rfl := List.mem_singleton.mp hp
    exact .boxed isBoxed_chain hlinkValue trivial
  · exact fun hc => hc.optional _ pointerOptional_text _ htextValue rfl

end Sample

end WireModel
