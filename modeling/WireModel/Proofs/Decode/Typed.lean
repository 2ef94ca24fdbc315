import Mathlib.Data.List.Forall2
import WireModel.Proofs.Decode.Reading
import WireModel.Proofs.Link.Linked
import WireModel.Proofs.Number.Decimal

/-!
# Typed data — what values of a declaration are

`ModuleGraph.Fits` says which data are values of a type, of a member or
of a declaration, by the declarations alone and without any reader. What
a deserializer gives is such a value
(`ModuleGraph.readFits_of_readDecl`), and it does not turn something into
nothing: a value that is not null is never read as a datum that is
written as null.
-/

namespace WireModel

/-- What a datum can be a value of. -/
inductive Slot where
  /-- A type. -/
  | type (t : TypeExpr)
  /-- A member of a declaration, with its type; the value of a newtype has no name. -/
  | member (m : LinkedModule) (d : DeclId) (name : Text) (t : TypeExpr)
  /-- A declaration. -/
  | decl (d : DeclId)

namespace ModuleGraph

/-- **The values of types, members and declarations.** `held` is asked of
everything that an optional or a recursive member holds behind an
indirection. An optional of a type with room for null is there only if
it is not null. -/
inductive Fits (g : ModuleGraph) (held : Datum → Prop) : Slot → Datum → Prop
  | bool {width r elem} (b : Bool) : Fits g held (.type (.node .bool width r elem)) (.bool b)
  | int {width r elem n} (hw : isIntWidth width = true) (hn : fitsSigned width.toNat n = true) :
    Fits g held (.type (.node .int width r elem)) (.int width.toNat n)
  | float {width r elem} (bits : Nat) :
    Fits g held (.type (.node .float width r elem)) (.float bits)
  | text {width r elem} (t : Text) : Fits g held (.type (.node .string width r elem)) (.text t)
  | bigint {width r elem} (n : Int) :
    Fits g held (.type (.node .bigint width r elem)) (.bigint n)
  | decimal {width r elem d} (hd : fitsSigned 32 d.scale = true) :
    Fits g held (.type (.node .decimal width r elem)) (.decimal d)
  | bytes {width r elem} (bs : List UInt8) :
    Fits g held (.type (.node .bytes width r elem)) (.bytes bs)
  | json {width r elem} (v : Value) : Fits g held (.type (.node .json width r elem)) (.json v)
  | list {width r elem xs} (hx : ∀ x ∈ xs, Fits g held (.type elem) x) :
    Fits g held (.type (.node .list width r elem)) (.list xs)
  | map {width r elem} {es : List (Text × Datum)} (he : ∀ e ∈ es, Fits g held (.type elem) e.2) :
    Fits g held (.type (.node .map width r elem)) (.map es)
  | absent {width r elem} : Fits g held (.type (.node .optional width r elem)) .absent
  | nullable {width r elem x} (hn : Reader.isNilable g.workspace elem = true)
      (hx : Fits g held (.type elem) x) (hne : x ≠ .json .null) :
    Fits g held (.type (.node .optional width r elem)) (.present x)
  | pointer {width r elem x} (hn : Reader.isNilable g.workspace elem = false)
      (hx : Fits g held (.type elem) x) (hheld : held x) :
    Fits g held (.type (.node .optional width r elem)) (.present x)
  | ref {width r elem id x} (ht : r.target = some id) (hx : Fits g held (.decl id) x) :
    Fits g held (.type (.node .ref width (some r) elem)) x
  | plain {m id name t x} (hb : Reader.isBoxed g.workspace m id name t = false)
      (hx : Fits g held (.type t) x) : Fits g held (.member m id name t) x
  | boxed {m id name t x} (hb : Reader.isBoxed g.workspace m id name t = true)
      (hx : Fits g held (.type t) x) (hheld : held x) :
    Fits g held (.member m id name t) (.present x)
  | record {id m d fs} {xs : List (Text × Datum)} (hd : g.Declares id m d)
      (hb : d.body = .struct fs)
      (hnames : xs.map (·.1) = (g.workspace.allFields d).map (·.name))
      (hx : ∀ p ∈ (g.workspace.allFields d).zip xs,
        Fits g held (.member m id p.1.name p.1.effectiveType) p.2.2) :
    Fits g held (.decl id) (.record id xs)
  | void {id m d v} (hd : g.Declares id m d) (hv : v ∈ d.variants) (hvoid : v.isVoid = true) :
    Fits g held (.decl id) (.void id v.name)
  | variant {id m d v x} (hd : g.Declares id m d) (hv : v ∈ d.variants)
      (hvoid : v.isVoid = false) (hx : Fits g held (.type v.payload) x) :
    Fits g held (.decl id) (.variant id v.name x)
  | wrapped {id m d t x} (hd : g.Declares id m d) (hb : d.body = .newtype t)
      (hx : Fits g held (.member m id [] t) x) : Fits g held (.decl id) (.wrapped id x)

end ModuleGraph

/-- A datum that is not written as null. -/
def Datum.Shown (w : Workspace) (x : Datum) : Prop := x.encode w ≠ .null

/-! ## Scalars -/

namespace Value

theorem fitsSigned_of_toInt {width : Nat} {v : Value} {n : Int} (h : v.toInt width = .ok n) :
    fitsSigned width n = true := by
  simp only [toInt, bind, Except.bind] at h
  split at h
  · cases h
  · split at h
    · cases h
      assumption
    · cases h

theorem fitsSigned_of_toDecimal {v : Value} {d : Decimal} (h : v.toDecimal = .ok d) :
    fitsSigned 32 d.scale = true := by
  cases v with
  | text t =>
    rw [toDecimal] at h
    split at h
    · rename_i hd
      cases h
      exact Decimal.fitsSigned_of_ofText? hd
    · cases h
  | _ => cases h

end Value

/-- A supported width is the width of the integers that hold it. -/
theorem intWidth_eq {width : Int} (h : isIntWidth width = true) :
    Reader.intWidth width = width.toNat := by
  simp only [isIntWidth, Bool.or_eq_true, beq_iff_eq] at h
  rcases h with ((rfl | rfl) | rfl) | rfl <;> rfl

/-! ## What is read fits -/

namespace ModuleGraph

variable {g : ModuleGraph} {f : DeclId → Value → Reading Datum}

/-- A datum that was read from a value: a value of its slot, with nothing
written as null behind an indirection, and not written as null itself if
the value was not. -/
def ReadFits (g : ModuleGraph) (s : Slot) (v : Value) (x : Datum) : Prop :=
  g.Fits (·.Shown g.workspace) s x ∧ (v ≠ .null → x.Shown g.workspace)

variable (hf : ∀ id v x, f id v = some (.ok x) → g.ReadFits (.decl id) v x)

include hf in
/-- **What the reader of a type reads is a value of the type.** The
induction is on the type; a reference is left to the deserializers. -/
theorem readFits_of_run {t : TypeExpr} (ht : g.TypeOk t) {v : Value} {x : Datum}
    (h : (Reader.ofType g.workspace t).run f v = some (.ok x)) : g.ReadFits (.type t) v x := by
  induction t generalizing v x with
  | missing => cases ht.valid
  | node k width r elem ih =>
    obtain ⟨hvalid, hint, -, -, -⟩ := TypeExpr.defect?_eq_none_iff.mp ht.valid
    cases k with
    | bool =>
      obtain ⟨b, -, rfl⟩ := Reading.some_map_eq_ok_iff.mp h
      exact ⟨.bool b, fun _ hnull => nomatch hnull⟩
    | int =>
      obtain ⟨n, hn, rfl⟩ := Reading.some_map_eq_ok_iff.mp h
      have hw := hint rfl
      rw [intWidth_eq hw] at hn ⊢
      exact ⟨.int hw (Value.fitsSigned_of_toInt hn), fun _ hnull => nomatch hnull⟩
    | float =>
      obtain ⟨bits, -, rfl⟩ := Reading.some_map_eq_ok_iff.mp h
      exact ⟨.float bits, fun _ hnull => nomatch hnull⟩
    | string =>
      obtain ⟨s, -, rfl⟩ := Reading.some_map_eq_ok_iff.mp h
      exact ⟨.text s, fun _ hnull => nomatch hnull⟩
    | bigint =>
      obtain ⟨n, -, rfl⟩ := Reading.some_map_eq_ok_iff.mp h
      exact ⟨.bigint n, fun _ hnull => nomatch hnull⟩
    | decimal =>
      obtain ⟨d, hd, rfl⟩ := Reading.some_map_eq_ok_iff.mp h
      exact ⟨.decimal (Value.fitsSigned_of_toDecimal hd), fun _ hnull => nomatch hnull⟩
    | bytes =>
      obtain ⟨bs, -, rfl⟩ := Reading.some_map_eq_ok_iff.mp h
      exact ⟨.bytes bs, fun _ hnull => nomatch hnull⟩
    | json =>
      cases h
      exact ⟨.json v, id⟩
    | list =>
      cases v with
      | list vs =>
        obtain ⟨xs, hxs, rfl⟩ := Reading.map_eq_ok_iff.mp h
        refine ⟨.list fun x hx => ?_, fun _ hnull => nomatch hnull⟩
        obtain ⟨u, -, hu⟩ := Reader.exists_of_readList hxs x hx
        exact (ih (ht.elem (by simp)) hu).1
      | _ => cases h
    | map =>
      obtain ⟨es, -, h⟩ := Reading.andThen_eq_ok_iff.mp h
      obtain ⟨xs, hxs, rfl⟩ := Reading.map_eq_ok_iff.mp h
      refine ⟨.map fun x hx => ?_, fun _ hnull => nomatch hnull⟩
      obtain ⟨u, -, hu⟩ := Reader.exists_of_readEntries hxs x hx
      exact (ih (ht.elem (by simp)) hu).1
    | optional =>
      have helem := ht.elem (by simp)
      by_cases hn : Reader.isNilable g.workspace elem = true
      · have hreader : Reader.ofType g.workspace (.node .optional width r elem) =
            .nullable (Reader.ofType g.workspace elem) := by
          simp [Reader.ofType, hn]
        rw [hreader] at h
        obtain ⟨rfl, rfl⟩ | ⟨hv, y, hy, rfl⟩ := Reader.of_run_nullable h
        · exact ⟨.absent, fun hv => absurd rfl hv⟩
        · obtain ⟨hfits, hshown⟩ := ih helem hy
          refine ⟨.nullable hn hfits ?_, hshown⟩
          -- only null is read as a null that is passed through
          rintro rfl
          exact hshown hv rfl
      · have hreader : Reader.ofType g.workspace (.node .optional width r elem) =
            .optional (Reader.ofType g.workspace elem) := by
          simp [Reader.ofType, hn]
        rw [hreader] at h
        obtain ⟨rfl, rfl⟩ | ⟨hv, y, hy, rfl⟩ := Reader.of_run_optional h
        · exact ⟨.absent, fun hv => absurd rfl hv⟩
        · obtain ⟨hfits, hshown⟩ := ih helem hy
          exact ⟨.pointer (by simpa using hn) hfits (hshown hv), hshown⟩
    | ref =>
      obtain ⟨s, id, m, d, rfl, htarget, -⟩ := ht.exists_target
      have hreader : Reader.ofType g.workspace (.node .ref width (some s) elem) = .decl id := by
        simp [Reader.ofType, htarget]
      rw [hreader] at h
      obtain ⟨hfits, hshown⟩ := hf id v x h
      exact ⟨.ref htarget hfits, hshown⟩
    | invalid => cases hvalid
    | unknown n => cases hvalid

include hf in
/-- **What the reader of a member reads is a value of the member.** -/
theorem readFits_of_run_member {m : LinkedModule} {id : DeclId} {name : Text} {t : TypeExpr}
    (ht : g.TypeOk t) {v : Value} {x : Datum}
    (h : (Reader.ofMember g.workspace m id name t).run f v = some (.ok x)) :
    g.ReadFits (.member m id name t) v x := by
  rw [Reader.ofMember] at h
  split at h
  · rename_i hb
    obtain ⟨hv, y, hy, rfl⟩ := Reader.of_run_boxed h
    obtain ⟨hfits, hshown⟩ := readFits_of_run hf ht hy
    exact ⟨.boxed hb hfits (hshown hv), hshown⟩
  · rename_i hb
    obtain ⟨hfits, hshown⟩ := readFits_of_run hf ht h
    exact ⟨.plain (by simpa using hb) hfits, hshown⟩

/-- Where an optional is not given, it is absent. -/
theorem zero_ofType {w : Workspace} {t : TypeExpr} (h : t.isOptional = true) :
    (Reader.ofType w t).zero = .absent := by
  cases t with
  | missing => cases h
  | node k width r elem =>
    obtain rfl : k = .optional := by simpa [TypeExpr.isOptional, TypeExpr.kind?] using h
    rw [Reader.ofType]
    split <;> rfl

/-- And it is held in no indirection of its own. -/
theorem isBoxed_of_isOptional {w : Workspace} {m : LinkedModule} {id : DeclId} {name : Text}
    {t : TypeExpr} (h : t.isOptional = true) : Reader.isBoxed w m id name t = false := by
  have hk : t.kind? = some .optional := by simpa [TypeExpr.isOptional] using h
  simp [Reader.isBoxed, Reader.isBoxable, hk]

theorem fits_absent {held : Datum → Prop} {t : TypeExpr} (h : t.isOptional = true) :
    g.Fits held (.type t) .absent := by
  cases t with
  | missing => cases h
  | node k width r elem =>
    obtain rfl : k = .optional := by simpa [TypeExpr.isOptional, TypeExpr.kind?] using h
    exact .absent

/-- The value of a field that is not required is optional. -/
theorem isOptional_effectiveType {field : Field} (hok : g.TypeOk field.effectiveType)
    (hreq : field.required = false) : field.effectiveType.isOptional = true := by
  have hvalid := hok.valid
  rw [Field.effectiveType] at hvalid ⊢
  by_cases hm : field.type = .missing
  · simp [hreq, hm, TypeExpr.defect?] at hvalid
  · by_cases ho : field.type.isOptional = true
    · simp [ho]
    · rw [if_neg (by simp [hreq, hm, ho])]
      rfl

include hf in
/-- **What is read of the fields of a struct are values of the fields.** -/
theorem fits_of_readFields {m : LinkedModule} {id : DeclId} {es : List (Text × Value)}
    {fs : List Field} (hok : ∀ field ∈ fs, g.TypeOk field.effectiveType)
    {xs : List (Text × Datum)} (h : g.readFields f m id es fs = some (.ok xs)) :
    xs.map (·.1) = fs.map (·.name) ∧ ∀ p ∈ fs.zip xs,
      g.Fits (·.Shown g.workspace) (.member m id p.1.name p.1.effectiveType) p.2.2 := by
  induction fs generalizing xs with
  | nil =>
    cases h
    simp
  | cons field fs ih =>
    have hfield := hok field (by simp)
    rw [readFields] at h
    obtain ⟨x, hx, htail⟩ := Reading.andThen_eq_ok_iff.mp h
    obtain ⟨xs', hxs, rfl⟩ := Reading.map_eq_ok_iff.mp htail
    obtain ⟨hnames, hfits⟩ := ih (fun e he => hok e (by simp [he])) hxs
    refine ⟨by simp [hnames], fun p hp => ?_⟩
    rw [List.zip_cons_cons, List.mem_cons] at hp
    rcases hp with rfl | hp
    · split at hx
      · obtain ⟨v, -, hv⟩ := Reader.of_readRequired hx
        exact (readFits_of_run_member hf hfield hv).1
      · rename_i hreq
        have hopt := isOptional_effectiveType hfield (by simpa using hreq)
        rcases Reader.of_readOptional hx with ⟨v, -, hv⟩ | hzero
        · exact (readFits_of_run_member hf hfield hv).1
        · -- a key that is not there is an absent optional
          have hplain : Reader.isBoxed g.workspace m id field.name field.effectiveType = false :=
            isBoxed_of_isOptional hopt
          rw [Reader.ofMember, if_neg (by simp [hplain]), zero_ofType hopt] at hzero
          rw [hzero]
          exact .plain hplain (fits_absent hopt)
    · exact hfits p hp

include hf in
/-- **What is read of a variant is a value of the union.** -/
theorem fits_of_readVariant (hl : g.Linked) {m : LinkedModule} {id : DeclId} {d : Decl}
    (hd : g.Declares id m d) {es : List (Text × Value)} {tag : Text} {x : Datum}
    (h : g.readVariant f id d es tag = some (.ok x)) :
    g.Fits (·.Shown g.workspace) (.decl id) x ∧ x.Shown g.workspace := by
  rw [readVariant] at h
  split at h
  · cases h
  · rename_i v hv
    have hmem := List.mem_of_find?_eq_some hv
    have hname : v.name = tag := by simpa using List.find?_some hv
    subst hname
    split at h
    · rename_i hvoid
      cases h
      exact ⟨.void hd hmem hvoid, fun hnull => nomatch hnull⟩
    · rename_i hvoid
      rw [Bool.not_eq_true] at hvoid
      obtain ⟨y, hy, rfl⟩ := Reading.map_eq_ok_iff.mp h
      have hok : g.TypeOk v.payload := hl.typeOk hd _ (mem_heldTypes_of_variant hmem hvoid)
      refine ⟨.variant hd hmem hvoid ?_, fun hnull => nomatch hnull⟩
      split at hy
      · rename_i hopt
        rcases Reader.of_readOptional hy with ⟨u, -, hu⟩ | hzero
        · exact (readFits_of_run hf hok hu).1
        · rw [hzero, zero_ofType hopt]
          exact fits_absent hopt
      · obtain ⟨u, -, hu⟩ := Reader.of_readRequired hy
        exact (readFits_of_run hf hok hu).1

include hf in
/-- **What a deserializer reads is a value of the declaration**, if what
those it asks read are. -/
theorem readFits_of_readBody (hl : g.Linked) {m : LinkedModule} {id : DeclId} {d : Decl}
    (hd : g.Declares id m d) {v : Value} {x : Datum}
    (h : g.readBody f m id d v = some (.ok x)) : g.ReadFits (.decl id) v x := by
  rw [readBody] at h
  cases hb : d.body with
  | struct fs =>
    rw [hb] at h
    obtain ⟨es, -, h⟩ := Reading.andThen_eq_ok_iff.mp h
    obtain ⟨xs, hxs, rfl⟩ := Reading.map_eq_ok_iff.mp h
    obtain ⟨hnames, hfits⟩ := fits_of_readFields hf
      (fun field hfield => hl.typeOk hd _ (mem_heldTypes_of_field hb hfield)) hxs
    exact ⟨.record hd hb hnames hfits, fun _ hnull => nomatch hnull⟩
  | union vs tag payload =>
    rw [hb] at h
    obtain ⟨es, -, h⟩ := Reading.andThen_eq_ok_iff.mp h
    obtain ⟨t, -, h⟩ := Reading.andThen_eq_ok_iff.mp h
    split at h
    · obtain ⟨hfits, hshown⟩ := fits_of_readVariant hf hl hd h
      exact ⟨hfits, fun _ => hshown⟩
    · cases h
  | newtype t =>
    rw [hb] at h
    obtain ⟨y, hy, rfl⟩ := Reading.map_eq_ok_iff.mp h
    obtain ⟨hfits, hshown⟩ := readFits_of_run_member hf
      (hl.typeOk hd _ (mem_heldTypes_of_newtype hb)) hy
    exact ⟨.wrapped hd hb hfits, hshown⟩
  | virtual fs => simp [hb] at h
  | consts t cs => simp [hb] at h
  | unknown n => simp [hb] at h

omit hf in
/-- **What a deserializer reads, to any depth, is a value of the
declaration.** -/
theorem readFits_of_readDecl (hl : g.Linked) {n : Nat} {id : DeclId} {v : Value} {x : Datum}
    (h : g.readDecl n id v = some (.ok x)) : g.ReadFits (.decl id) v x := by
  induction n generalizing id v x with
  | zero => cases h
  | succ n ih =>
    rw [readDecl] at h
    split at h
    · rename_i m d hm hd
      exact readFits_of_readBody (fun id v x => ih) hl ⟨hm, hd⟩ (Reading.mapError_eq_ok_iff.mp h)
    · cases h

end ModuleGraph

end WireModel
