import WireModel.Proofs.Decode.Alike

/-!
# Unread keys — decoding does not depend on them

A struct is read from the keys of its fields, and a union from the key of
its discriminator and, if the variant has a payload, from the key of the
payload. `ModuleGraph.Padded` relates values where one has more keys than
the other in mappings that stand for structs and unions, at any depth, none
of which is read there. A deserializer answers both the same, be it with a
result, with an error or not at all (`ModuleGraph.deserialize_padded`).

A mapping that is read as a mapping is read at every key, so nothing can be
added to it, but what stands in it may be padded in turn. Values that are
passed through stay as they are.
-/

namespace WireModel

namespace Value

/-! ## Mappings with keys of any kind -/

/-- The entries of a mapping with text keys, as keys of any kind. -/
def pairs (es : List (Text × Value)) : List (Value × Value) := es.map fun e => (.text e.1, e.2)

/-- **A mapping with the given keys and values**, whatever keys it may have. -/
inductive HasPairs : List (Value × Value) → Value → Prop
  | map (es : List (Text × Value)) : HasPairs (pairs es) (.map es)
  | anyMap (ps : List (Value × Value)) : HasPairs ps (.anyMap ps)

theorem HasPairs.toObject {ps : List (Value × Value)} {v : Value} (h : v.HasPairs ps) :
    v.toObject = textEntries ps := by
  cases h with
  | map es => exact (textEntries_map es).symm
  | anyMap => rfl

theorem HasPairs.ne_null {ps : List (Value × Value)} {v : Value} (h : v.HasPairs ps) :
    v ≠ .null := by
  cases h <;> nofun

theorem pairs_injective : Function.Injective pairs :=
  List.map_injective_iff.mpr fun e e' h => by
    obtain ⟨hk, hv⟩ := Prod.mk.inj h
    exact Prod.ext (Value.text.inj hk) hv

/-- A key that is no text makes the whole mapping refused. -/
theorem textEntries_cons_of_not_text {k v : Value} {ps : List (Value × Value)}
    (h : ∀ t, k ≠ .text t) : textEntries ((k, v) :: ps) = .error (.mismatch "string key" k) := by
  cases k <;> first | rfl | exact absurd rfl (h _)

/-- A text key is taken over. -/
theorem textEntries_cons_text {k : Text} {v : Value} {ps : List (Value × Value)} :
    textEntries ((.text k, v) :: ps) = (textEntries ps).map ((k, v) :: ·) := by
  rw [textEntries]
  cases textEntries ps <;> rfl

end Value

namespace ModuleGraph

variable {g : ModuleGraph}

/-! ## What is read -/

/-- **What a declaration reads from a mapping**: which keys, and as what type.
The payload of a union is read if the discriminator names a variant that has
one. -/
inductive Reads (g : ModuleGraph) (d : Decl) (ps : List (Value × Value)) : Text → TypeExpr → Prop
  | field {fs : List Field} (hb : d.body = .struct fs) {f : Field}
    (hf : f ∈ g.workspace.allFields d) : Reads g d ps f.name f.effectiveType
  | tag (hk : d.kind = .union) : Reads g d ps d.tagKey (.scalar .string)
  | payload (hk : d.kind = .union) {es : List (Text × Value)} (hes : ps = Value.pairs es)
    {tag : Text} (htag : Text.lookup? d.tagKey es = some (.text tag)) {v : Variant}
    (hv : d.variants.find? (·.name == tag) = some v) (hvoid : v.isVoid = false) :
    Reads g d ps d.payloadKey v.payload

section Reads

variable {d : Decl} {ps : List (Value × Value)} {key : Text}

/-- A struct reads no key but those of its fields, taken over ones included. -/
theorem not_reads_of_struct {fs : List Field} (hb : d.body = .struct fs)
    (hkey : key ∉ (g.workspace.allFields d).map (·.name)) (t : TypeExpr) :
    ¬ g.Reads d ps key t := by
  have hkind : d.kind ≠ .union := by simp [Decl.kind, hb, Body.kind]
  intro h
  cases h with
  | field hb' hf => exact hkey (List.mem_map_of_mem hf)
  | tag hk => exact hkind hk
  | payload hk => exact hkind hk

/-- A union reads no key but those of its discriminator and payload. -/
theorem not_reads_of_union (hk : d.kind = .union) (htag : key ≠ d.tagKey)
    (hpayload : key ≠ d.payloadKey) (t : TypeExpr) : ¬ g.Reads d ps key t := by
  intro h
  cases h with
  | field hb => simp [Decl.kind, hb, Body.kind] at hk
  | tag => exact htag rfl
  | payload => exact hpayload rfl

/-- And in a void variant it does not read the key of the payload either. -/
theorem not_reads_of_void (hk : d.kind = .union) (htag : key ≠ d.tagKey)
    {es : List (Text × Value)} {tag : Text} (hes : Text.lookup? d.tagKey es = some (.text tag))
    {v : Variant} (hv : d.variants.find? (·.name == tag) = some v) (hvoid : v.isVoid = true)
    (t : TypeExpr) : ¬ g.Reads d (Value.pairs es) key t := by
  intro h
  cases h with
  | field hb => simp [Decl.kind, hb, Body.kind] at hk
  | tag => exact htag rfl
  | @payload _ es' heq tag' htag' v' hv' hvoid' =>
    obtain rfl := Value.pairs_injective heq
    obtain rfl := Value.text.inj (Option.some.inj (hes.symm.trans htag'))
    obtain rfl := Option.some.inj (hv.symm.trans hv')
    rw [hvoid] at hvoid'
    cases hvoid'

end Reads

mutual

/-- **A value of a type, and the same value with keys added that are not
read.** -/
inductive PaddedAs (g : ModuleGraph) : TypeExpr → Value → Value → Prop
  | same (t : TypeExpr) (v : Value) : PaddedAs g t v v
  | list {width : Int} {r : Option Ref} {elem : TypeExpr} {vs vs' : List Value}
    (h : PaddedList g elem vs vs') : PaddedAs g (.node .list width r elem) (.list vs) (.list vs')
  | map {width : Int} {r : Option Ref} {elem : TypeExpr} {v v' : Value}
    {ps ps' : List (Value × Value)} (hv : v.HasPairs ps) (hv' : v'.HasPairs ps')
    (h : PaddedPairs g (fun _ t => t = elem) ps ps') :
    PaddedAs g (.node .map width r elem) v v'
  | optional {width : Int} {r : Option Ref} {elem : TypeExpr} {v v' : Value}
    (h : PaddedAs g elem v v') : PaddedAs g (.node .optional width r elem) v v'
  | ref {width : Int} {r : Ref} {elem : TypeExpr} {id : DeclId} (hr : r.target = some id)
    {v v' : Value} (h : Padded g id v v') : PaddedAs g (.node .ref width (some r) elem) v v'

/-- Sequences of values of a type, padded one by one. -/
inductive PaddedList (g : ModuleGraph) : TypeExpr → List Value → List Value → Prop
  | nil (t : TypeExpr) : PaddedList g t [] []
  | cons {t : TypeExpr} {v v' : Value} {vs vs' : List Value} (h : PaddedAs g t v v')
    (hs : PaddedList g t vs vs') : PaddedList g t (v :: vs) (v' :: vs')

/-- **Entries from which some keys are read**, and the same entries with
others added anywhere between them. Under a key that is not read anything may
stand. -/
inductive PaddedPairs (g : ModuleGraph) :
    (Text → TypeExpr → Prop) → List (Value × Value) → List (Value × Value) → Prop
  | nil (reads : Text → TypeExpr → Prop) : PaddedPairs g reads [] []
  | add {reads : Text → TypeExpr → Prop} {key : Text} (hkey : ∀ t, ¬ reads key t) (v' : Value)
    {ps ps' : List (Value × Value)} (hs : PaddedPairs g reads ps ps') :
    PaddedPairs g reads ps ((.text key, v') :: ps')
  | keep {reads : Text → TypeExpr → Prop} {k v v' : Value}
    (h : ∀ key t, k = .text key → reads key t → PaddedAs g t v v')
    {ps ps' : List (Value × Value)} (hs : PaddedPairs g reads ps ps') :
    PaddedPairs g reads ((k, v) :: ps) ((k, v') :: ps')

/-- **A value of a declaration, and the same value with keys added that are
not read**, at any depth. -/
inductive Padded (g : ModuleGraph) : DeclId → Value → Value → Prop
  | same (id : DeclId) (v : Value) : Padded g id v v
  | mapping {id : DeclId} {m : LinkedModule} {d : Decl} (hd : g.Declares id m d)
    (hk : d.kind = .struct ∨ d.kind = .union) {v v' : Value} {ps ps' : List (Value × Value)}
    (hv : v.HasPairs ps) (hv' : v'.HasPairs ps') (h : PaddedPairs g (g.Reads d ps) ps ps') :
    Padded g id v v'
  | newtype {id : DeclId} {m : LinkedModule} {d : Decl} (hd : g.Declares id m d) {t : TypeExpr}
    (hb : d.body = .newtype t) {v v' : Value} (h : PaddedAs g t v v') : Padded g id v v'

end

/-! ## What padding leaves as it is -/

section Entries

variable {reads : Text → TypeExpr → Prop} {ps ps' : List (Value × Value)}
  {es es' : List (Text × Value)}

/-- **Padded entries have text keys where the entries have**, and otherwise
the same key is refused. -/
theorem PaddedPairs.text_or_refused (h : g.PaddedPairs reads ps ps') :
    (∃ es es', ps = Value.pairs es ∧ ps' = Value.pairs es') ∨
      ∃ e, Value.textEntries ps = .error e ∧ Value.textEntries ps' = .error e := by
  induction ps' generalizing ps with
  | nil =>
    cases h
    exact Or.inl ⟨[], [], rfl, rfl⟩
  | cons p' ps' ih =>
    cases h with
    | @add _ key _ v' _ _ hs =>
      rcases ih hs with ⟨es, es', rfl, rfl⟩ | ⟨e, he, he'⟩
      · exact Or.inl ⟨es, (key, v') :: es', rfl, rfl⟩
      · refine Or.inr ⟨e, he, ?_⟩
        rw [Value.textEntries_cons_text, he']
        rfl
    | @keep _ k v v' _ ps _ hs =>
      by_cases htext : ∃ t, k = .text t
      · obtain ⟨t, rfl⟩ := htext
        rcases ih hs with ⟨es, es', rfl, rfl⟩ | ⟨e, he, he'⟩
        · exact Or.inl ⟨(t, v) :: es, (t, v') :: es', rfl, rfl⟩
        · refine Or.inr ⟨e, ?_, ?_⟩
          · rw [Value.textEntries_cons_text, he]
            rfl
          · rw [Value.textEntries_cons_text, he']
            rfl
      · have hno : ∀ t, k ≠ .text t := fun t ht => htext ⟨t, ht⟩
        exact Or.inr ⟨_, Value.textEntries_cons_of_not_text hno,
          Value.textEntries_cons_of_not_text hno⟩

/-- Padding adds an entry that is not read, or pads an entry. -/
theorem PaddedPairs.cases_cons {e' : Text × Value}
    (h : g.PaddedPairs reads (Value.pairs es) (Value.pairs (e' :: es'))) :
    ((∀ t, ¬ reads e'.1 t) ∧ g.PaddedPairs reads (Value.pairs es) (Value.pairs es')) ∨
      ∃ v es₀, es = (e'.1, v) :: es₀ ∧ (∀ t, reads e'.1 t → g.PaddedAs t v e'.2) ∧
        g.PaddedPairs reads (Value.pairs es₀) (Value.pairs es') := by
  generalize hps : Value.pairs es = ps at h
  cases h with
  | add hkey _ hs => exact Or.inl ⟨hkey, hs⟩
  | @keep _ _ v₀ _ hv ps _ hs =>
    cases es with
    | nil => cases hps
    | cons e es =>
      obtain ⟨k, v⟩ := e
      obtain ⟨⟨rfl, rfl⟩, rfl⟩ : (k = e'.1 ∧ v = v₀) ∧ Value.pairs es = ps := by
        simpa [Value.pairs] using hps
      exact Or.inr ⟨v, es, rfl, fun t => hv _ t rfl, hs⟩

/-- **What stands under a key that is read** stands there padded. -/
theorem PaddedPairs.lookup? (h : g.PaddedPairs reads (Value.pairs es) (Value.pairs es'))
    {key : Text} {t : TypeExpr} (hr : reads key t) :
    (Text.lookup? key es = none ∧ Text.lookup? key es' = none) ∨
      ∃ u u', Text.lookup? key es = some u ∧ Text.lookup? key es' = some u' ∧
        g.PaddedAs t u u' := by
  induction es' generalizing es with
  | nil =>
    cases es with
    | nil => exact Or.inl ⟨rfl, rfl⟩
    | cons e es => cases h
  | cons e' es' ih =>
    rcases h.cases_cons with ⟨hkey, hs⟩ | ⟨v, es₀, rfl, hv, hs⟩
    · have hne : e'.1 ≠ key := by
        rintro rfl
        exact hkey t hr
      rw [Text.lookup?_cons_of_ne hne]
      exact ih hs
    · by_cases hk : e'.1 = key
      · subst hk
        exact Or.inr ⟨v, e'.2, Text.lookup?_cons_self, Text.lookup?_cons_self, hv t hr⟩
      · rw [Text.lookup?_cons_of_ne hk, Text.lookup?_cons_of_ne hk]
        exact ih hs

end Entries

/-- Null is not padded, and nothing is padded to it. -/
theorem PaddedAs.null_iff {t : TypeExpr} {v v' : Value} (h : g.PaddedAs t v v') :
    v = .null ↔ v' = .null := by
  -- a type leads to declarations and back, so the two relations go together
  refine @PaddedAs.rec g (fun _ v v' _ => v = .null ↔ v' = .null) (fun _ _ _ _ => True)
    (fun _ _ _ _ => True) (fun _ v v' _ => v = .null ↔ v' = .null) ?same ?list ?map ?optional
    ?ref ?nil ?cons ?none ?add ?keep ?whole ?mapping ?newtype t v v' h
  case same => exact fun _ _ => Iff.rfl
  case list => exact fun _ _ => iff_of_false nofun nofun
  case map => exact fun hv hv' _ _ => iff_of_false hv.ne_null hv'.ne_null
  case optional => exact fun _ ih => ih
  case ref =>
    intro _ _ _ _ _ _ _ _ ih
    exact ih
  case whole => exact fun _ _ => Iff.rfl
  case mapping =>
    intro _ _ _ _ _ _ _ _ _ hv hv' _ _
    exact iff_of_false hv.ne_null hv'.ne_null
  case newtype =>
    intro _ _ _ _ _ _ _ _ _ ih
    exact ih
  all_goals intros; trivial

/-! ## Readers -/

/-- **A deserializer ignores padding** if it answers padded values like the
values. -/
def IgnoresPadding (g : ModuleGraph) (f : DeclId → Value → Reading Datum) : Prop :=
  ∀ ⦃id v v'⦄, g.Padded id v v' → f id v' = f id v

section Readers

variable {f : DeclId → Value → Reading Datum} {read : Value → Reading Datum} {t : TypeExpr}
  {reads : Text → TypeExpr → Prop} {es es' : List (Text × Value)} {key : Text}

/-- The elements of a sequence. -/
theorem readList_padded (hread : ∀ u u', g.PaddedAs t u u' → read u' = read u)
    {vs vs' : List Value} (h : g.PaddedList t vs vs') (pos : Nat) :
    Reader.readList read pos vs' = Reader.readList read pos vs := by
  induction vs generalizing vs' pos with
  | nil =>
    cases h
    rfl
  | cons v vs ih =>
    cases h with
    | cons h hs => rw [Reader.readList, Reader.readList, hread _ _ h, ih hs]

/-- The entries of a mapping that is read at every key: none is added. -/
theorem readEntries_padded (hread : ∀ u u', g.PaddedAs t u u' → read u' = read u)
    (hall : ∀ key, reads key t) (h : g.PaddedPairs reads (Value.pairs es) (Value.pairs es')) :
    Reader.readEntries read es' = Reader.readEntries read es := by
  induction es' generalizing es with
  | nil =>
    cases es with
    | nil => rfl
    | cons e es => cases h
  | cons e' es' ih =>
    rcases h.cases_cons with ⟨hkey, -⟩ | ⟨v, es₀, rfl, hv, hs⟩
    · exact absurd (hall e'.1) (hkey t)
    · obtain ⟨k, v'⟩ := e'
      rw [Reader.readEntries, Reader.readEntries, hread _ _ (hv t (hall k)), ih hs]

theorem readRequired_padded (hread : ∀ u u', g.PaddedAs t u u' → read u' = read u)
    (h : g.PaddedPairs reads (Value.pairs es) (Value.pairs es')) (hr : reads key t) :
    Reader.readRequired read es' key = Reader.readRequired read es key := by
  rw [Reader.readRequired, Reader.readRequired]
  rcases h.lookup? hr with ⟨hno, hno'⟩ | ⟨u, u', hu, hu', hpad⟩
  · rw [hno, hno']
  · rw [hu, hu']
    exact congrArg (Reading.mapError (·.inField key)) (hread u u' hpad)

theorem readOptional_padded (hread : ∀ u u', g.PaddedAs t u u' → read u' = read u) (zero : Datum)
    (h : g.PaddedPairs reads (Value.pairs es) (Value.pairs es')) (hr : reads key t) :
    Reader.readOptional read zero es' key = Reader.readOptional read zero es key := by
  rw [Reader.readOptional, Reader.readOptional]
  rcases h.lookup? hr with ⟨hno, hno'⟩ | ⟨u, u', hu, hu', hpad⟩
  · rw [hno, hno']
  · rw [hu, hu']
    exact congrArg (Reading.mapError (·.inField key)) (hread u u' hpad)

/-- **What is done with a mapping** is done with the padded one, if it is done
with padded entries; a mapping that is refused is refused for the same key. -/
theorem toObject_andThen_padded {α : Type} {v v' : Value} {ps ps' : List (Value × Value)}
    (hv : v.HasPairs ps) (hv' : v'.HasPairs ps') (h : g.PaddedPairs reads ps ps')
    {k k' : List (Text × Value) → Reading α}
    (hk : ∀ es es', ps = Value.pairs es → g.PaddedPairs reads (Value.pairs es) (Value.pairs es') →
      k' es' = k es) :
    (Reading.lift v'.toObject).andThen k' = (Reading.lift v.toObject).andThen k := by
  rw [hv.toObject, hv'.toObject]
  rcases h.text_or_refused with ⟨es, es', rfl, rfl⟩ | ⟨e, he, he'⟩
  · rw [Value.pairs, Value.pairs, Value.textEntries_map, Value.textEntries_map]
    exact hk es es' rfl h
  · rw [he, he']
    rfl

/-- **What passes null through ignores padding** if what it hands other values
to does. -/
theorem through_padded {outer item : Reader} (hne : ∀ u, u ≠ .null →
      outer.run f u = (item.run f u).map .present)
    (hitem : ∀ u u', g.PaddedAs t u u' → item.run f u' = item.run f u) {v v' : Value}
    (h : g.PaddedAs t v v') : outer.run f v' = outer.run f v := by
  by_cases hv : v = .null
  · rw [hv, h.null_iff.mp hv]
  · rw [hne v hv, hne v' fun hv' => hv (h.null_iff.mpr hv'), hitem v v' h]

/-- **The reader of a type ignores padding**, if the deserializers that it runs
do. -/
theorem ofType_padded (hf : g.IgnoresPadding f) {v v' : Value} (h : g.PaddedAs t v v') :
    (Reader.ofType g.workspace t).run f v' = (Reader.ofType g.workspace t).run f v := by
  induction t generalizing v v' with
  | missing =>
    cases h
    rfl
  | node k width r elem ih =>
    have hitem : ∀ u u', g.PaddedAs elem u u' →
        (Reader.ofType g.workspace elem).run f u' = (Reader.ofType g.workspace elem).run f u :=
      fun u u' hu => ih hu
    cases h with
    | same => rfl
    | list hs =>
      rw [Reader.ofType, Reader.run, Reader.run]
      exact congrArg (Reading.map Datum.list) (readList_padded hitem hs 0)
    | map hv hv' hs =>
      rw [Reader.ofType, Reader.run, Reader.run]
      refine toObject_andThen_padded hv hv' hs fun es es' _ hes => ?_
      refine congrArg (Reading.map Datum.map) (readEntries_padded hitem ?_ hes)
      exact fun _ => rfl
    | optional h =>
      rw [Reader.ofType]
      split
      · exact through_padded (fun u hu => Reader.run_nullable_of_ne hu) hitem h
      · exact through_padded (fun u hu => Reader.run_optional_of_ne hu) hitem h
    | ref hr h =>
      rw [Reader.ofType, Option.bind_some, hr]
      exact hf h

/-- So does the reader of a member. -/
theorem ofMember_padded (hf : g.IgnoresPadding f) {m : LinkedModule} {id : DeclId} {name : Text}
    {v v' : Value} (h : g.PaddedAs t v v') :
    (Reader.ofMember g.workspace m id name t).run f v' =
      (Reader.ofMember g.workspace m id name t).run f v := by
  rw [Reader.ofMember]
  split
  · exact through_padded (fun u hu => Reader.run_boxed_of_ne hu)
      (fun u u' hu => ofType_padded hf hu) h
  · exact ofType_padded hf h

end Readers

/-! ## Deserializers -/

section Bodies

variable {f : DeclId → Value → Reading Datum} {m : LinkedModule} {id : DeclId} {d : Decl}
  {ps : List (Value × Value)} {es es' : List (Text × Value)}

/-- The fields of a struct are read from their keys only. -/
theorem readFields_padded (hf : g.IgnoresPadding f) {fs : List Field} (hb : d.body = .struct fs)
    (h : g.PaddedPairs (g.Reads d ps) (Value.pairs es) (Value.pairs es')) {fs' : List Field}
    (hfs : fs' ⊆ g.workspace.allFields d) :
    g.readFields f m id es' fs' = g.readFields f m id es fs' := by
  induction fs' with
  | nil => rfl
  | cons x fs' ih =>
    have hr : g.Reads d ps x.name x.effectiveType := .field hb (hfs (List.mem_cons_self ..))
    rw [readFields, readFields, ih fun y hy => hfs (List.mem_cons_of_mem x hy),
      readRequired_padded (fun u u' hu => ofMember_padded hf hu) h hr,
      readOptional_padded (fun u u' hu => ofMember_padded hf hu) _ h hr]

/-- The payload of a union is read from its key only, if there is one. -/
theorem readVariant_padded (hf : g.IgnoresPadding f) (hk : d.kind = .union) {tag : Text}
    (htag : Text.lookup? d.tagKey es = some (.text tag))
    (h : g.PaddedPairs (g.Reads d (Value.pairs es)) (Value.pairs es) (Value.pairs es')) :
    g.readVariant f id d es' tag = g.readVariant f id d es tag := by
  rw [readVariant, readVariant]
  cases hv : d.variants.find? (·.name == tag) with
  | none => rfl
  | some v =>
    cases hvoid : v.isVoid with
    | true => simp only [hvoid, if_true]
    | false =>
      have hr : g.Reads d (Value.pairs es) d.payloadKey v.payload :=
        .payload hk rfl htag hv hvoid
      simp only [hvoid, Bool.false_eq_true, if_false]
      rw [readRequired_padded (fun u u' hu => ofType_padded hf hu) h hr,
        readOptional_padded (fun u u' hu => ofType_padded hf hu) _ h hr]

/-- The value of a discriminator is the text that stands there. -/
theorem lookup?_of_readRequired_text {key tag : Text}
    (h : Reader.readRequired (Reader.text.run f) es key = some (.ok (.text tag))) :
    Text.lookup? key es = some (.text tag) := by
  rw [Reader.readRequired] at h
  cases hu : Text.lookup? key es with
  | none =>
    rw [hu] at h
    cases h
  | some u =>
    rw [hu] at h
    obtain ⟨s, hs, htext⟩ := Reading.some_map_eq_ok_iff.mp (Reading.mapError_eq_ok_iff.mp h)
    cases htext
    cases u <;> cases hs
    rfl

/-- **The deserializer of a declaration ignores padding**, if those that it runs
do. -/
theorem readBody_padded (hf : g.IgnoresPadding f) (hd : g.Declares id m d) {v v' : Value}
    (h : g.Padded id v v') : g.readBody f m id d v' = g.readBody f m id d v := by
  cases h with
  | same => rfl
  | mapping hd' hk hv hv' h =>
    obtain ⟨rfl, rfl⟩ := hd'.unique hd
    rw [readBody, readBody]
    cases hb : d.body with
    | struct fs =>
      refine toObject_andThen_padded hv hv' h fun es es' _ hes => ?_
      exact congrArg (Reading.map (Datum.record id)) (readFields_padded hf hb hes fun _ hx => hx)
    | union vs tag payload =>
      have hunion : d.kind = .union := by rw [Decl.kind, hb]; rfl
      refine toObject_andThen_padded hv hv' h fun es es' hps hes => ?_
      subst hps
      -- the discriminator is read as a text, so it is the same one
      have htag : Reader.readRequired (Reader.text.run f) es' d.tagKey =
          Reader.readRequired (Reader.text.run f) es d.tagKey :=
        readRequired_padded (fun u u' hu => ofType_padded (t := .scalar .string) hf hu) hes
          (.tag hunion)
      rw [htag]
      cases hread : Reader.readRequired (Reader.text.run f) es d.tagKey with
      | none => rfl
      | some r =>
        cases r with
        | error e => rfl
        | ok x =>
          cases x with
          | text name =>
            exact readVariant_padded hf hunion (lookup?_of_readRequired_text hread) hes
          | _ => rfl
    | newtype t => rcases hk with hk | hk <;> simp [Decl.kind, hb, Body.kind] at hk
    | _ => rfl
  | newtype hd' hb h =>
    obtain ⟨rfl, rfl⟩ := hd'.unique hd
    rw [readBody, readBody, hb]
    exact congrArg (Reading.map (Datum.wrapped id)) (ofMember_padded hf h)

end Bodies

/-- To every depth, deserializers ignore padding. -/
theorem readDecl_padded (n : Nat) : g.IgnoresPadding (g.readDecl n) := by
  induction n with
  | zero => exact fun _ _ _ _ => rfl
  | succ n ih =>
    intro id v v' h
    rw [readDecl, readDecl]
    split
    · rw [readBody_padded ih ⟨‹_›, ‹_›⟩ h]
    · rfl

/-- **Unread keys never matter.** The deserializer of a declaration answers a
value to which keys were added that are not read, in mappings that stand for
structs and unions at any depth, with the result or the error that it answers
the value with, or answers neither. -/
theorem deserialize_padded {g : ModuleGraph} {id : DeclId} {v v' : Value}
    (h : g.Padded id v v') : g.deserialize id v' = g.deserialize id v := by
  -- the two are run to depths of their own, and answer the same to a common one
  have hv := deserialize_eq_readDecl (Nat.le_max_left (g.depthFor v) (g.depthFor v')) id
  have hv' := deserialize_eq_readDecl (Nat.le_max_right (g.depthFor v) (g.depthFor v')) id
  rw [hv, hv']
  exact readDecl_padded _ h

end ModuleGraph

namespace Sample

open Linking

/-- A module with a struct that holds values of a union. -/
def mail : Workspace :=
  [{ name := "mail", path := "mail",
     decls :=
       [{ name := "Letter", body := .struct
            [required "to" (.scalar .string), required "parts" (.list (.ref [] "Part"))] },
         { name := "Part", body := .union
            [{ name := "Words", payload := .scalar .string }, { name := "Break" }] [] [] }] }]

theorem resolve_mail : (resolve mail [0]).2 = .ok (graph mail [0]) :=
  resolve_eq_graph (by decide +kernel)

/-- The struct once it is linked. -/
def letter : Decl :=
  { name := "Letter"
    body := .struct [required "to" (.scalar .string),
      required "parts" (.list (.node .ref 0
        (some { ns := [], name := "Part", target := some ⟨0, 1⟩ }) .missing))] }

/-- The union, which refers to nothing. -/
def part : Decl :=
  { name := "Part"
    body := .union [{ name := "Words", payload := .scalar .string }, { name := "Break" }] [] [] }

theorem exists_declares_letter : ∃ m, (graph mail [0]).Declares ⟨0, 0⟩ m letter :=
  exists_declares_of_bound (passes_of_resolve resolve_mail).1 ⟨by simp, rfl⟩ rfl

theorem exists_declares_part : ∃ m, (graph mail [0]).Declares ⟨0, 1⟩ m part :=
  exists_declares_of_bound (passes_of_resolve resolve_mail).1 ⟨by simp, rfl⟩ rfl

/-- A letter, and the letter with keys added: to itself, to a part with words,
and to a break, which has a payload now. -/
def plainLetter : Value :=
  .map [("to", .text "Ann"), ("parts", .list
    [.map [("type", .text "Break")],
      .anyMap [(.text "type", .text "Words"), (.text "payload", .text "Hello")]])]

def paddedLetter : Value :=
  .map [("color", .null), ("to", .text "Ann"), ("parts", .list
    [.map [("payload", .bool true), ("type", .text "Break")],
      .anyMap [(.text "type", .text "Words"), (.text "size", .int .int 5),
        (.text "payload", .text "Hello")]]), ("seen", .bool true)]

theorem padded_letter : (graph mail [0]).Padded ⟨0, 0⟩ plainLetter paddedLetter := by
  obtain ⟨m, hm⟩ := exists_declares_letter
  obtain ⟨n, hn⟩ := exists_declares_part
  have hbreak : (graph mail [0]).Padded ⟨0, 1⟩ (.map [("type", .text "Break")])
      (.map [("payload", .bool true), ("type", .text "Break")]) :=
    .mapping hn (.inr rfl) (.map _) (.map _)
      (.add (ModuleGraph.not_reads_of_void rfl (by decide) rfl rfl rfl) _
        (.keep (fun _ t _ _ => .same t _) (.nil _)))
  have hwords : (graph mail [0]).Padded ⟨0, 1⟩
      (.anyMap [(.text "type", .text "Words"), (.text "payload", .text "Hello")])
      (.anyMap [(.text "type", .text "Words"), (.text "size", .int .int 5),
        (.text "payload", .text "Hello")]) :=
    .mapping hn (.inr rfl) (.anyMap _) (.anyMap _)
      (.keep (fun _ t _ _ => .same t _)
        (.add (ModuleGraph.not_reads_of_union rfl (by decide) (by decide)) _
          (.keep (fun _ t _ _ => .same t _) (.nil _))))
  have hunread : ∀ key : Text, key ∉ (["to", "parts"] : List Text) → ∀ ps t,
      ¬ (graph mail [0]).Reads letter ps key t :=
    fun key hkey ps => ModuleGraph.not_reads_of_struct rfl hkey
  refine .mapping hm (.inl rfl) (.map _) (.map _)
    (.add (hunread _ (by decide) _) _ (.keep (fun _ t _ _ => .same t _) (.keep ?_
      (.add (hunread _ (by decide) _) _ (.nil _)))))
  intro key t hkey hreads
  obtain rfl := Value.text.inj hkey
  -- under this key stands the list of parts
  have ht : t = .list (.node .ref 0 (some { ns := [], name := "Part", target := some ⟨0, 1⟩ })
      .missing) := by
    generalize hk : ("parts" : Text) = key at hreads
    cases hreads with
    | field hb hf =>
      rcases List.mem_cons.mp hf with rfl | hf
      · exact absurd hk (by decide)
      · rw [List.mem_singleton.mp hf]
        rfl
    | tag hk => cases hk
    | payload hk => cases hk
  subst ht
  exact .list (.cons (.ref rfl hbreak) (.cons (.ref rfl hwords) (.nil _)))

/-- The letter is read, with its parts. -/
theorem exists_deserialize_plainLetter :
    ∃ x, (graph mail [0]).deserialize ⟨0, 0⟩ plainLetter = some (.ok x) := by
  obtain ⟨m, hm⟩ := exists_declares_letter
  obtain ⟨n, hn⟩ := exists_declares_part
  have hbreak : (graph mail [0]).deserialize ⟨0, 1⟩ (.map [("type", .text "Break")]) =
      some (.ok (.void ⟨0, 1⟩ "Break")) := by
    rw [ModuleGraph.deserialize_eq hn.1 hn.2]
    rfl
  have hwords : (graph mail [0]).deserialize ⟨0, 1⟩
      (.anyMap [(.text "type", .text "Words"), (.text "payload", .text "Hello")]) =
      some (.ok (.variant ⟨0, 1⟩ "Words" (.text "Hello"))) := by
    rw [ModuleGraph.deserialize_eq hn.1 hn.2]
    rfl
  have hparts : (Reader.list (.decl ⟨0, 1⟩)).run (graph mail [0]).deserialize (.list
      [.map [("type", .text "Break")],
        .anyMap [(.text "type", .text "Words"), (.text "payload", .text "Hello")]]) =
      some (.ok (.list [.void ⟨0, 1⟩ "Break", .variant ⟨0, 1⟩ "Words" (.text "Hello")])) := by
    simp only [Reader.run, Reader.readList, hbreak, hwords]
    rfl
  rw [ModuleGraph.deserialize_eq hm.1 hm.2]
  refine ⟨.record ⟨0, 0⟩ [("to", .text "Ann"), ("parts", .list
    [.void ⟨0, 1⟩ "Break", .variant ⟨0, 1⟩ "Words" (.text "Hello")])],
    Reading.mapError_eq_ok_iff.mpr (Reading.map_eq_ok_iff.mpr ⟨_, ?_, rfl⟩)⟩
  have hfields : (graph mail [0]).workspace.allFields letter = [required "to" (.scalar .string),
      required "parts" (.list (.node .ref 0
        (some { ns := [], name := "Part", target := some ⟨0, 1⟩ }) .missing))] := rfl
  rw [hfields, ModuleGraph.readFields, Reading.andThen_eq_ok_iff]
  refine ⟨.text "Ann", rfl, Reading.map_eq_ok_iff.mpr ⟨[("parts", _)], ?_, rfl⟩⟩
  rw [ModuleGraph.readFields, Reading.andThen_eq_ok_iff]
  exact ⟨_, Reading.mapError_eq_ok_iff.mpr hparts, Reading.map_eq_ok_iff.mpr ⟨[], rfl, rfl⟩⟩

/-- **The letter is read from both**, with the same result. -/
theorem letter_read_padded : (graph mail [0]).Padded ⟨0, 0⟩ plainLetter paddedLetter ∧
    (graph mail [0]).deserialize ⟨0, 0⟩ paddedLetter =
      (graph mail [0]).deserialize ⟨0, 0⟩ plainLetter ∧
    ∃ x, (graph mail [0]).deserialize ⟨0, 0⟩ plainLetter = some (.ok x) :=
  ⟨padded_letter, ModuleGraph.deserialize_padded padded_letter, exists_deserialize_plainLetter⟩

end Sample

end WireModel
