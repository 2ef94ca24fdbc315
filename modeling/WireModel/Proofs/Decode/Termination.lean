import WireModel.Proofs.Decode.Place

/-!
# Termination — which deserializers answer

A deserializer that runs another one hands it a part of its value, which
is smaller, except that a newtype hands on the value as it is. So the
deserializers of a graph answer every value exactly when no newtype comes
back to itself that way (`ModuleGraph.deserialize_answers_iff`).

Linking refuses newtypes that wrap each other in a circle, but it follows
bare references only. That is enough for null, which an optional does
not hand on. On any other value a circle through an optional is followed
forever, and such circles can be linked (`Sample.resolve_boxes`).
-/

namespace WireModel

open Relation Linking

/-! ## Types that pass values on -/

/-- The reader of a bound reference is the deserializer it leads to. -/
theorem Reader.ofType_of_target? {w : Workspace} {t : TypeExpr} {b : DeclId}
    (h : t.target? = some b) : Reader.ofType w t = .decl b := by
  cases t with
  | missing => cases h
  | node k width r elem =>
    cases k with
    | ref =>
      cases r with
      | none => cases h
      | some r =>
        have ht : r.target = some b := h
        simp [Reader.ofType, ht]
    | _ => cases h

namespace ModuleGraph

/-- **A newtype hands its value on** to the declaration it wraps, be it bare
or optional. -/
def HandsOn (g : ModuleGraph) (a b : DeclId) : Prop :=
  ∃ m d t, g.Declares a m d ∧ d.body = .newtype t ∧ t.unwrap.target? = some b

/-- And so it does with one value: an optional keeps null to itself. -/
def HandsOnValue (g : ModuleGraph) (v : Value) (a b : DeclId) : Prop :=
  ∃ m d t, g.Declares a m d ∧ d.body = .newtype t ∧
    (t.target? = some b ∨ (v ≠ .null ∧ t.unwrap.target? = some b))

/-- **A value is answered** by every declaration that has values: its
deserializer ends with a result or an error. -/
def Answers (g : ModuleGraph) (v : Value) : Prop :=
  ∀ id m d, g.Declares id m d → d.isInstantiable = true → ∃ r, g.deserialize id v = some r

variable {g : ModuleGraph} {v : Value}

theorem handsOnValue_iff (hv : v ≠ .null) {a b : DeclId} :
    g.HandsOnValue v a b ↔ g.HandsOn a b := by
  refine exists_congr fun m => exists_congr fun d => exists_congr fun t =>
    and_congr_right fun _ => and_congr_right fun _ => ?_
  constructor
  · rintro (h | ⟨-, h⟩)
    · -- a bare reference is no optional
      rw [TypeExpr.unwrap_of_not_optional]
      · exact h
      · cases t with
        | missing => rfl
        | node k width r elem => cases k <;> first | rfl | cases h
    · exact h
  · exact fun h => Or.inr ⟨hv, h⟩

/-! ## What deserializers ask each other -/

/-- A declaration that has values. -/
def HasValues (g : ModuleGraph) (b : DeclId) : Prop :=
  ∃ m d, g.Declares b m d ∧ d.isInstantiable = true

/-- **The reader of a type asks declarations that have values**, for a
part of its value, or for the value itself if the type is a reference to
the declaration or an optional one. -/
theorem asks_of_runs {t : TypeExpr} (ht : g.TypeOk t) {u s : Value} {p : List Text} {b : DeclId}
    (h : (Reader.ofType g.workspace t).Runs u p (.decl b) s) :
    g.HasValues b ∧ (s.height < u.height ∨
      s = u ∧ (t.target? = some b ∨ (u ≠ .null ∧ t.unwrap.target? = some b))) := by
  induction t generalizing u p s with
  | missing => cases h
  | node k width r elem ih =>
    obtain ⟨hvalid, -, hopt, -, -⟩ := TypeExpr.defect?_eq_none_iff.mp ht.valid
    -- what is asked for a part of a part is asked for something smaller
    have hpart : ∀ {x : Value}, (s.height < x.height ∨ s = x ∧ (elem.target? = some b ∨
        (x ≠ .null ∧ elem.unwrap.target? = some b))) → x.height < u.height →
        s.height < u.height := by
      rintro x (hlt | ⟨rfl, -⟩) hx
      · exact Nat.lt_trans hlt hx
      · exact hx
    cases k with
    | list =>
      cases h with
      | item hu hrun =>
        obtain ⟨hb, hs⟩ := ih (ht.elem (by simp)) hrun
        have hle := Value.height_le_heightList (List.mem_of_getElem? hu)
        exact ⟨hb, Or.inl (hpart hs (by rw [Value.height]; omega))⟩
    | map =>
      cases h with
      | entry hes hu hrun =>
        obtain ⟨hb, hs⟩ := ih (ht.elem (by simp)) hrun
        exact ⟨hb, Or.inl (hpart hs (Value.height_lt_of_toObject hes hu))⟩
    | optional =>
      have hunwrap : elem.unwrap = elem := TypeExpr.unwrap_of_not_optional (hopt rfl)
      have hitem : u ≠ .null ∧ ∃ p, (Reader.ofType g.workspace elem).Runs u p (.decl b) s := by
        rw [Reader.ofType] at h
        split at h
        · cases h with
          | nullable hv hrun => exact ⟨hv, _, hrun⟩
        · cases h with
          | optional hv hrun => exact ⟨hv, _, hrun⟩
      obtain ⟨hv, p', hrun⟩ := hitem
      obtain ⟨hb, hs⟩ := ih (ht.elem (by simp)) hrun
      refine ⟨hb, hs.imp_right ?_⟩
      rintro ⟨rfl, htarget⟩
      rw [hunwrap] at htarget
      exact ⟨rfl, Or.inr ⟨hv, htarget.elim id And.right⟩⟩
    | ref =>
      obtain ⟨r', id, m, d, rfl, htarget, hd, hinst⟩ := ht.exists_target
      have hbare : (TypeExpr.node .ref width (some r') elem).target? = some id := htarget
      rw [Reader.ofType_of_target? hbare] at h
      cases h
      exact ⟨⟨m, d, hd, hinst⟩, Or.inr ⟨rfl, Or.inl hbare⟩⟩
    | invalid => cases hvalid
    | unknown n => cases hvalid
    | _ => cases h

/-- So does the reader of a member. -/
theorem asks_of_runs_member {m : LinkedModule} {id : DeclId} {name : Text} {t : TypeExpr}
    (ht : g.TypeOk t) {u s : Value} {p : List Text} {b : DeclId}
    (h : (Reader.ofMember g.workspace m id name t).Runs u p (.decl b) s) :
    g.HasValues b ∧ (s.height < u.height ∨
      s = u ∧ (t.target? = some b ∨ (u ≠ .null ∧ t.unwrap.target? = some b))) := by
  rw [Reader.ofMember] at h
  split at h
  · cases h with
    | boxed hv hrun => exact asks_of_runs ht hrun
  · exact asks_of_runs ht h

/-- **A deserializer asks declarations that have values**, for a part of
its value unless it hands the value on. -/
theorem of_asks (hl : g.Linked) {a b : DeclId} {p : List Text} {u : Value}
    (h : g.Asks a v p b u) :
    g.HasValues b ∧ (u.height < v.height ∨ u = v ∧ g.HandsOnValue v a b) := by
  obtain ⟨q, r, t, q', -, hholds, hrun⟩ := h
  -- what stands under a key is smaller, and what is asked for it too
  have hkey : ∀ {es key x} {P : Prop}, v.toObject = .ok es → Text.lookup? key es = some x →
      (u.height < x.height ∨ u = x ∧ P) → u.height < v.height := by
    intro es key x P hes hx hu
    have hlt := Value.height_lt_of_toObject hes (Text.mem_of_lookup? hx)
    rcases hu with hu | ⟨rfl, -⟩
    · exact Nat.lt_trans hu hlt
    · exact hlt
  cases hholds with
  | field hd hb hf hes hu =>
    obtain ⟨hvalues, hpart⟩ :=
      asks_of_runs_member (hl.typeOk hd _ (mem_heldTypes_of_field hb hf)) hrun
    exact ⟨hvalues, Or.inl (hkey hes hu hpart)⟩
  | tag hd hk hes hu => cases hrun
  | payload hd hx hvoid hes htag hu =>
    obtain ⟨hvalues, hpart⟩ :=
      asks_of_runs (hl.typeOk hd _ (mem_heldTypes_of_variant hx hvoid)) hrun
    exact ⟨hvalues, Or.inl (hkey hes hu hpart)⟩
  | newtype hd hb =>
    obtain ⟨hvalues, hpart⟩ :=
      asks_of_runs_member (hl.typeOk hd _ (mem_heldTypes_of_newtype hb)) hrun
    exact ⟨hvalues, hpart.imp_right fun ⟨heq, ht⟩ => ⟨heq, _, _, _, hd, hb, ht⟩⟩

/-- **Where a deserializer does not answer**, one that it asks does not. -/
theorem exists_asks_of_none {id : DeclId} (hid : g.HasValues id)
    (h : g.deserialize id v = none) :
    ∃ p b u, g.Asks id v p b u ∧ g.deserialize b u = none := by
  obtain ⟨m, d, hd, hinst⟩ := hid
  rw [deserialize_eq hd.1 hd.2] at h
  have hstop : (g.readBody g.deserialize m id d v).mapError (·.inDecl d.name) =
      Reading.stop none := h
  obtain ⟨o, hbody, ho⟩ := Reading.mapError_eq_stop hstop
  obtain rfl : o = none := Option.map_eq_none_iff.mp ho.symm
  rcases readBody_eq_stop hd hinst hbody with ⟨p, b, u, o', hasks, hb, ho'⟩ | ⟨e, -, he⟩
  · obtain rfl : o' = none := Option.map_eq_none_iff.mp ho'.symm
    exact ⟨p, b, u, hasks, hb⟩
  · cases he

/-! ## Answers -/

/-- **A value is answered** if all smaller ones are and it is not handed on
in a circle. Among the declarations that did not answer there would be a
last one, that hands the value on to none of them. -/
theorem answers_of_acyclic (hl : g.Linked) (hin : ∀ u : Value, u.height < v.height → g.Answers u)
    (hac : ∀ a, ¬ TransGen (g.HandsOnValue v) a a) : g.Answers v := by
  classical
  intro id m d hd hinst
  by_contra hno
  have hnone : ∀ {b u}, (¬ ∃ r, g.deserialize b u = some r) ↔ g.deserialize b u = none := by
    intro b u
    rw [← Option.isSome_iff_exists, Option.not_isSome_iff_eq_none]
  let silent : List DeclId :=
    g.allIds.filter fun b => decide (g.HasValues b ∧ g.deserialize b v = none)
  have hsilent : ∀ {b}, g.HasValues b → g.deserialize b v = none → b ∈ silent := by
    intro b hb hbnone
    have hmem : b ∈ g.allIds := by
      obtain ⟨m', d', hd', -⟩ := hb
      exact mem_allIds_of_decl? hd'.2
    exact List.mem_filter.mpr ⟨hmem, by simpa using ⟨hb, hbnone⟩⟩
  have hid : id ∈ silent := hsilent ⟨m, d, hd, hinst⟩ (hnone.mp hno)
  obtain ⟨a, ha, hlast⟩ := exists_last_of_acyclic (R := g.HandsOnValue v)
    (List.ne_nil_of_mem hid) fun a _ => hac a
  obtain ⟨hvalues, hanone⟩ : g.HasValues a ∧ g.deserialize a v = none := by
    simpa using (List.mem_filter.mp ha).2
  obtain ⟨p, b, u, hasks, hbnone⟩ := exists_asks_of_none hvalues hanone
  obtain ⟨⟨m', d', hd', hinst'⟩, hlt | ⟨rfl, hands⟩⟩ := of_asks hl hasks
  · exact hnone.mpr hbnone (hin u hlt b m' d' hd' hinst')
  · exact hlast b (hsilent ⟨m', d', hd', hinst'⟩ hbnone) hands

/-- **Every value is answered** if no newtype hands its value on in a
circle. The induction is on the height of the value. -/
theorem answers_of_handsOn_acyclic (hl : g.Linked) (hnull : g.Answers .null)
    (hac : ∀ a, ¬ TransGen g.HandsOn a a) (v : Value) : g.Answers v := by
  induction hv : v.height using Nat.strong_induction_on generalizing v with
  | _ n ih =>
    by_cases hvnull : v = .null
    · rw [hvnull]
      exact hnull
    · refine answers_of_acyclic hl (fun u hu => ih u.height (by omega) u rfl) fun a ha => ?_
      exact hac a (TransGen.mono (fun b c h => (handsOnValue_iff hvnull).mp h) a a ha)

/-! ## Circles -/

/-- A newtype runs what it hands its value on to. -/
theorem run_ofMember_eq_none {f : DeclId → Value → Reading Datum} {m : LinkedModule} {id : DeclId}
    {name : Text} {t : TypeExpr} {b : DeclId} (ht : t.unwrap.target? = some b) (hv : v ≠ .null)
    (hb : f b v = none) : (Reader.ofMember g.workspace m id name t).run f v = none := by
  have hdecl : ∀ {t' : TypeExpr}, t'.target? = some b →
      (Reader.ofType g.workspace t').run f v = none := by
    intro t' ht'
    rw [Reader.ofType_of_target? ht']
    exact hb
  have hrun : (Reader.ofType g.workspace t).run f v = none := by
    by_cases hopt : t.isOptional = true
    · cases t with
      | missing => cases hopt
      | node k width r elem =>
        obtain rfl : k = .optional := by simpa [TypeExpr.isOptional, TypeExpr.kind?] using hopt
        have helem : elem.target? = some b := ht
        rw [Reader.ofType]
        split
        · rw [Reader.run_nullable_of_ne hv, hdecl helem]
          rfl
        · rw [Reader.run_optional_of_ne hv, hdecl helem]
          rfl
    · rw [TypeExpr.unwrap_of_not_optional (by simpa using hopt)] at ht
      exact hdecl ht
  rw [Reader.ofMember]
  split
  · rw [Reader.run_boxed_of_ne hv, hrun]
    rfl
  · exact hrun

/-- **A value that comes into a circle is never answered**, at any depth. -/
theorem readDecl_eq_none_of_circle {a c : DeclId} (hac : ReflTransGen g.HandsOn a c)
    (hcc : TransGen g.HandsOn c c) (hv : v ≠ .null) (n : Nat) : g.readDecl n a v = none := by
  induction n generalizing a with
  | zero => rfl
  | succ n ih =>
    -- the next declaration leads into the circle too
    obtain ⟨b, hab, hbc⟩ : ∃ b, g.HandsOn a b ∧ ReflTransGen g.HandsOn b c := by
      rcases ReflTransGen.cases_head hac with rfl | hnext
      · exact TransGen.head'_iff.mp hcc
      · exact hnext
    obtain ⟨m, d, t, hd, hb, ht⟩ := hab
    have hnone : (Reader.ofMember g.workspace m a [] t).run (g.readDecl n) v = none :=
      run_ofMember_eq_none ht hv (ih hbc)
    rw [readDecl, hd.1, hd.2]
    simp only [readBody, hb, hnone]
    rfl

end ModuleGraph

/-! ## Linked graphs -/

section Resolved

variable {w : Workspace} {ids : List Nat}

/-- A newtype of the graph that wraps another one, bare, does so as it was
written. -/
theorem wrapsNewtype_of_handsOn_null (hp : Passes w ids) {a b : DeclId}
    (h : (graph w ids).HandsOnValue .null a b) {c : DeclId}
    (hnext : (graph w ids).HandsOnValue .null b c) : WrapsNewtype w ids a b := by
  obtain ⟨m, d, t, hd, hbody, htarget⟩ := h
  obtain ⟨m', e, t', he, hbody', -⟩ := hnext
  obtain ⟨m₀, d₀, hm₀, hd₀, rfl⟩ := exists_of_declares hp hd
  obtain ⟨n₀, e₀, -, he₀, rfl⟩ := exists_of_declares hp he
  obtain ⟨t₀, ht₀, rfl⟩ := body_linkDecl_newtype_iff.mp hbody
  obtain ⟨t₁, ht₁, -⟩ := body_linkDecl_newtype_iff.mp hbody'
  have htarget := htarget.resolve_right fun h => h.1 rfl
  obtain ⟨width, r, elem, rfl, hr⟩ := target?_bindRefs_eq_some_iff.mp htarget
  obtain ⟨e₁, hnames, -⟩ := (target?_eq_some_iff hp.registered hp.imports hm₀).mp hr
  obtain rfl : e₀ = e₁ := Option.some.inj (he₀.symm.trans hnames.2.1)
  exact ⟨hm₀.1, d₀, e₀, width, r, elem, hd₀, ht₀, hnames, by rw [Decl.kind, ht₁]; rfl⟩

/-- **Null is not handed on in a circle** in a graph that linking gives. -/
theorem handsOn_null_acyclic (hp : Passes w ids) (a : DeclId) :
    ¬ TransGen ((graph w ids).HandsOnValue .null) a a := by
  intro ha
  have hwraps : ∀ {b c}, TransGen ((graph w ids).HandsOnValue .null) a b →
      (graph w ids).HandsOnValue .null b c → TransGen (WrapsNewtype w ids) a b := by
    intro b c hab
    induction hab generalizing c with
    | single h => exact fun hnext => TransGen.single (wrapsNewtype_of_handsOn_null hp h hnext)
    | tail _ h ih => exact fun hnext => (ih h).tail (wrapsNewtype_of_handsOn_null hp h hnext)
  obtain ⟨b, hab, -⟩ := TransGen.head'_iff.mp ha
  exact (passes_iff.mp hp).1.newtypes_acyclic a (hwraps ha hab)

/-- **When deserializers end.** In a graph that linking gives:

* every value is answered by every declaration if and only if no newtype
  hands its value on in a circle;
* null is answered in any case;
* a declaration that leads into a circle answers no value but null, to
  whatever depth it is run. -/
theorem ModuleGraph.deserialize_answers_iff {g : ModuleGraph} (hbases : BasesLinked w)
    (hg : (resolve w ids).2 = .ok g) :
    ((∀ v, g.Answers v) ↔ ∀ a, ¬ TransGen g.HandsOn a a) ∧ g.Answers .null ∧
      ∀ a c v, ReflTransGen g.HandsOn a c → TransGen g.HandsOn c c → v ≠ .null →
        ∀ n, g.readDecl n a v = none := by
  have hl := linked_of_resolve hbases hg
  obtain ⟨hp, rfl⟩ := passes_of_resolve hg
  have hnull : (graph w ids).Answers .null := by
    -- nothing is smaller than null
    refine answers_of_acyclic hl (fun u hu => ?_) (handsOn_null_acyclic hp)
    simp [Value.height] at hu
  refine ⟨⟨?_, answers_of_handsOn_acyclic hl hnull⟩, hnull, ?_⟩
  · intro hall a ha
    obtain ⟨b, ⟨m, d, t, hd, hb, -⟩, -⟩ := TransGen.head'_iff.mp ha
    have hinst : d.isInstantiable = true := by rw [Decl.isInstantiable, hb]
    obtain ⟨r, hr⟩ := hall (.bool true) a m d hd hinst
    rw [deserialize, readDecl_eq_none_of_circle ReflTransGen.refl ha (by simp)] at hr
    cases hr
  · exact fun a c v hac hcc hv n => readDecl_eq_none_of_circle hac hcc hv n

end Resolved

namespace Sample

open Linking

/-- A newtype that wraps itself, as an optional. -/
def boxes : Workspace :=
  [{ name := "boxes", path := "boxes",
     decls := [{ name := "Box", body := .newtype (.optional (.ref [] "Box")) }] }]

theorem basesLinked_boxes : BasesLinked boxes := by
  unfold BasesLinked
  decide

theorem resolve_boxes : (resolve boxes [0]).2 = .ok (graph boxes [0]) :=
  resolve_eq_graph (by decide +kernel)

/-- The newtype once it is linked. -/
def box : Decl :=
  { name := "Box"
    body := .newtype (.optional (.node .ref 0 (some ⟨[], "Box", some ⟨0, 0⟩⟩) .missing)) }

theorem exists_declares_box : ∃ m, (graph boxes [0]).Declares ⟨0, 0⟩ m box :=
  exists_declares_of_bound (passes_of_resolve resolve_boxes).1 ⟨by simp, rfl⟩ rfl

/-- The box hands its value on to itself. -/
theorem handsOn_box : (graph boxes [0]).HandsOn ⟨0, 0⟩ ⟨0, 0⟩ := by
  obtain ⟨m, hm⟩ := exists_declares_box
  exact ⟨m, box, _, hm, rfl, rfl⟩

/-- The graph of the box answers null, and not every value. -/
theorem boxes_answer_null : BasesLinked boxes ∧ (resolve boxes [0]).2 = .ok (graph boxes [0]) ∧
    (graph boxes [0]).Answers .null ∧ ¬ ∀ v, (graph boxes [0]).Answers v := by
  obtain ⟨hiff, hnull, -⟩ := ModuleGraph.deserialize_answers_iff basesLinked_boxes resolve_boxes
  exact ⟨basesLinked_boxes, resolve_boxes, hnull,
    fun hall => hiff.mp hall _ (TransGen.single handsOn_box)⟩

/-- **A deserializer of a linked graph may run forever.** The box never
answers a value other than null. -/
theorem box_never_answers : (resolve boxes [0]).2 = .ok (graph boxes [0]) ∧
    (∃ m, (graph boxes [0]).Declares ⟨0, 0⟩ m box) ∧ box.isInstantiable = true ∧
    (∀ n, (graph boxes [0]).readDecl n ⟨0, 0⟩ (.bool true) = none) ∧
    (graph boxes [0]).deserialize ⟨0, 0⟩ (.bool true) = none := by
  have hnone : ∀ n, (graph boxes [0]).readDecl n ⟨0, 0⟩ (.bool true) = none := fun n =>
    ModuleGraph.readDecl_eq_none_of_circle .refl (TransGen.single handsOn_box) (by simp) n
  exact ⟨resolve_boxes, exists_declares_box, rfl, hnone, hnone _⟩

end Sample

end WireModel
