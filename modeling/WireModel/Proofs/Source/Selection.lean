import WireModel.Proofs.Link.Linked
import WireModel.Source.Build

/-!
# Selection — every type has its decoder and encoder

Generated code is selected node by node, and selection has an answer for
every type: where it meets no type, an unknown kind or a reference without
a target, it goes on as if any value would do. Here selection insists, and
stops where it meets one of these (`typeTerm?`, `decoder?`, `encode?`,
`encoder?`). For a type that is in order it never stops, and selects what
is generated; so the answers for the other types are never used.
-/

namespace WireModel.Source.Context

variable (c : Context)

/-! ## Selection that insists -/

/-- The declaration that a reference is bound to. -/
def target? (r : Option Ref) : Option (DeclId × Decl) :=
  (r.bind (·.target)).bind fun id => (c.workspace.decl? id).map fun d => (id, d)

/-- The type of values of a type. -/
def typeTerm? : TypeExpr → Option TypeTerm
  | .missing => none
  | .node k width r elem =>
    match k with
    | .list => (typeTerm? elem).map .slice
    | .map => (typeTerm? elem).map .table
    | .optional => (typeTerm? elem).map fun t =>
      if Reader.isNilable c.workspace elem then t else .pointer t
    | .ref => (c.target? r).map fun (id, d) => .name (c.nameOf id (typeName d))
    | k => if k.isScalar then some (c.typeTerm (.node k width r elem)) else none

/-- The function that decodes values of a type. -/
def decoder? : TypeExpr → Option Expr
  | .missing => none
  | .node k width r elem =>
    match k with
    | .list => (decoder? elem).map fun f => c.runtimeCall "DecodeList" [f]
    | .map => (decoder? elem).map fun f => c.runtimeCall "DecodeMap" [f]
    | .optional => (decoder? elem).map fun f =>
      if Reader.isNilable c.workspace elem then c.runtimeCall "DecodeNullable" [f]
      else c.runtimeCall "DecodeOptional" [f]
    | .ref => (c.target? r).map fun (id, d) => .name (c.nameOf id (deserializerName d))
    | k =>
      if k.isScalar then
        some (c.readerExpr (Reader.ofType c.workspace (.node k width r elem)))
      else none

mutual

/-- The expression that encodes a value of a type. -/
def encode? (x : Expr) : TypeExpr → Option Expr
  | .missing => none
  | .node k width r elem =>
    match k with
    | .list => (encoder? elem).map fun f => c.runtimeCall "EncodeList" [x, f]
    | .map => (encoder? elem).map fun f => c.runtimeCall "EncodeMap" [x, f]
    | .optional =>
      if Reader.isNilable c.workspace elem then encode? x elem
      else (encoder? elem).map fun f => c.runtimeCall "EncodeOptional" [x, f]
    | .ref => (c.target? r).map fun (_, d) =>
      if d.kind == .union then c.runtimeCall "EncodeValue" [x]
      else .call (.select x "Serialize") []
    | k => if k.isScalar then some (c.encode x (.node k width r elem)) else none

/-- The function that encodes values of a type. -/
def encoder? : TypeExpr → Option Expr
  | .missing => none
  | .node k width r elem =>
    let wrap (body : Option Expr) : Option Expr :=
      body.bind fun e => (c.typeTerm? (.node k width r elem)).map fun t => .lambda "x" t e
    match k with
    | .list => wrap ((encoder? elem).map fun f => c.runtimeCall "EncodeList" [.var "x", f])
    | .map => wrap ((encoder? elem).map fun f => c.runtimeCall "EncodeMap" [.var "x", f])
    | .optional =>
      if Reader.isNilable c.workspace elem then wrap (encode? (.var "x") elem)
      else wrap ((encoder? elem).map fun f => c.runtimeCall "EncodeOptional" [.var "x", f])
    | .ref => (c.target? r).map fun (id, d) =>
      let name := c.nameOf id (typeName d)
      if d.kind == .union then .instantiate (c.runtime "EncodeValue") (.name name)
      else .select (.name name) "Serialize"
    | k => if k.isScalar then some (c.encoder (.node k width r elem)) else none

end

/-! ## Types that are in order -/

variable {c : Context} {t elem : TypeExpr} {width : Int} {s : Ref} {id : DeclId}
variable {m : LinkedModule} {d : Decl}

section Bound

variable (ht : s.target = some id) (hd : c.graph.Declares id m d)

include ht hd in
theorem target?_eq_some : c.target? (some s) = some (id, d) := by
  have hdecl : c.workspace.decl? id = some d := hd.2
  rw [target?, Option.bind_some, ht, Option.bind_some, hdecl, Option.map_some]

include hd in
theorem decl_eq : c.decl id = d := by
  have hdecl : c.workspace.decl? id = some d := hd.2
  rw [decl, hdecl, Option.getD_some]

include ht hd in
/-- A reference has room for null exactly if it leads to a union. -/
theorem isNilable_ref :
    Reader.isNilable c.workspace (.node .ref width (some s) elem) = (d.kind == .union) := by
  have hdecl : c.workspace.decl? id = some d := hd.2
  simp only [Reader.isNilable, Rule.ofType, Option.bind_some, ht, Rule.ofTarget, hdecl, Decl.kind]
  cases d.body <;> rfl

end Bound

/-- **The type of a type that is in order** is selected. -/
theorem typeTerm?_eq_some (h : c.graph.InOrder t) : c.typeTerm? t = some (c.typeTerm t) := by
  induction h with
  | @scalar k width r elem hk => cases k <;> first | rfl | cases hk
  | list h ih => rw [typeTerm?, ih, Option.map_some, typeTerm]
  | map h ih => rw [typeTerm?, ih, Option.map_some, typeTerm]
  | optional h hopt ih => rw [typeTerm?, ih, Option.map_some, typeTerm]
  | ref ht hd hinst =>
    simp only [typeTerm?, target?_eq_some ht hd, Option.map_some, typeTerm, Option.bind_some, ht,
      decl_eq hd]

/-- **So is its decoder**, the reader of the type spelled out. -/
theorem decoder?_eq_some (h : c.graph.InOrder t) :
    c.decoder? t = some (c.readerExpr (Reader.ofType c.workspace t)) := by
  induction h with
  | @scalar k width r elem hk => cases k <;> first | rfl | cases hk
  | list h ih => rw [decoder?, ih, Option.map_some, Reader.ofType, readerExpr]
  | map h ih => rw [decoder?, ih, Option.map_some, Reader.ofType, readerExpr]
  | @optional width r elem h hopt ih =>
    rw [decoder?, ih, Option.map_some, Reader.ofType]
    cases Reader.isNilable c.workspace elem <;> rfl
  | ref ht hd hinst =>
    simp only [decoder?, target?_eq_some ht hd, Option.map_some, Reader.ofType, Option.bind_some,
      ht, readerExpr, decl_eq hd]

/-- **And so are its encoders**, the function and the expression: a
composite needs the function for its items, and an optional that needs no
pointer the expression. -/
theorem encoders_eq_some (h : c.graph.InOrder t) :
    c.encoder? t = some (c.encoder t) ∧ ∀ x, c.encode? x t = some (c.encode x t) := by
  induction h with
  | @scalar k width r elem hk =>
    constructor
    · cases k <;> first | rfl | cases hk
    · cases k <;> first | exact fun _ => rfl | cases hk
  | @list width r elem h ih =>
    have htype : c.typeTerm? (.node .list width r elem) = some _ := typeTerm?_eq_some (.list h)
    simp only [encoder?, encode?, ih.1, htype, Option.map_some, Option.bind_some, encoder, encode,
      implies_true, and_self]
  | @map width r elem h ih =>
    have htype : c.typeTerm? (.node .map width r elem) = some _ := typeTerm?_eq_some (.map h)
    simp only [encoder?, encode?, ih.1, htype, Option.map_some, Option.bind_some, encoder, encode,
      implies_true, and_self]
  | @optional width r elem h hopt ih =>
    have htype : c.typeTerm? (.node .optional width r elem) = some _ :=
      typeTerm?_eq_some (.optional h hopt)
    simp only [encoder?, encode?, ih.1, ih.2, htype, encoder, encode]
    cases Reader.isNilable c.workspace elem with
    | true => exact ⟨rfl, fun _ => rfl⟩
    | false => exact ⟨rfl, fun _ => rfl⟩
  | ref ht hd hinst =>
    constructor
    · simp only [encoder?, target?_eq_some ht hd, Option.map_some, encoder, Option.bind_some, ht,
        decl_eq hd]
    · intro x
      simp only [encode?, target?_eq_some ht hd, Option.map_some, encode, isNilable_ref ht hd]

end WireModel.Source.Context
