import WireModel.SpecFile.Basic
import WireModel.Proofs.Spec.TypePrinting

/-!
# Notations for types — texts and objects write the same types

A spec file writes a type as a text in type syntax or as an object that
names the type and says what it is made of, and the parts of an object are
again written in either way. `WrittenType.Notates` says which type stands
for which writing, node by node, so that the two notations may be mixed in
any way.

Reading gives exactly the type that is written
(`WrittenType.type_eq_ok_iff`). Every type that can be built has a writing
in text alone and one in objects alone, and whatever is between these two
is read as the same type (`WrittenType.notations_agree`).
-/

namespace WireModel

namespace WrittenType

open TypeExpr

/-! ## Writings -/

/-- The names by which an object says that it has parts. -/
def partNames : List Text := ["list", "optional", "map", "ref"]

/-- **What a writing stands for.** Only a text counts where there is one, and
an object has a part for its items, its values or its target, as its name
asks for. -/
inductive Notates : WrittenType → TypeExpr → Prop
  /-- A text in type syntax. -/
  | text {expr name ns target : Text} {item value : WrittenType} {t : TypeExpr} (hne : expr ≠ [])
      (h : parse expr = .ok t) : Notates (form expr name item value ns target) t
  /-- An object with nothing but a name, such as that of a scalar. -/
  | named {name ns target : Text} {item value : WrittenType} {t : TypeExpr} (hne : name ≠ [])
      (hname : name ∉ partNames) (h : parse name = .ok t) :
      Notates (form [] name item value ns target) t
  | list {ns target : Text} {item value : WrittenType} {elem : TypeExpr} (h : Notates item elem) :
      Notates (form [] "list" item value ns target) (list elem)
  | optional {ns target : Text} {item value : WrittenType} {elem : TypeExpr}
      (h : Notates item elem) : Notates (form [] "optional" item value ns target) (optional elem)
  | map {ns target : Text} {item value : WrittenType} {elem : TypeExpr} (h : Notates value elem) :
      Notates (form [] "map" item value ns target) (map elem)
  /-- A reference, which has no alias or one. -/
  | ref {ns target : Text} {item value : WrittenType} (hne : target ≠ []) :
      Notates (form [] "ref" item value ns target) (ref ns target)

/-- A type as a text alone. -/
def ofText (t : TypeExpr) : WrittenType := form t.toText [] absent absent [] []

/-- A type as objects alone. A scalar is an object with its name. -/
def ofNodes : TypeExpr → WrittenType
  | .missing => absent
  | .node .list _ _ elem => form [] "list" (ofNodes elem) absent [] []
  | .node .optional _ _ elem => form [] "optional" (ofNodes elem) absent [] []
  | .node .map _ _ elem => form [] "map" absent (ofNodes elem) [] []
  | .node .ref _ (some r) _ => form [] "ref" absent absent r.ns r.name
  | t => form [] t.toText absent absent [] []

/-! ## Reading -/

variable {expr name ns target : Text} {item value : WrittenType} {t : TypeExpr}

theorem parseText_eq_ok_iff {s : Text} : parseText s = .ok t ↔ parse s = .ok t := by
  unfold parseText
  cases parse s <;> simp

theorem type_absent : absent.type = .error "missing type name" := rfl

/-- **What a writing is read as**, by its text or its name. A part that is not
there is an error. -/
theorem type_form : (form expr name item value ns target).type =
    if expr ≠ [] then parseText expr
    else if name = "list" ∨ name = "optional" then
      if item = absent then .error (name ++ " requires item_type")
      else (if name = "list" then TypeExpr.list else TypeExpr.optional) <$> item.type
    else if name = "map" then
      if value = absent then .error "map requires value_type" else TypeExpr.map <$> value.type
    else if name = "ref" then
      if target = [] then .error "ref requires target" else .ok (.ref ns target)
    else if name = [] then .error "missing type name"
    else parseText name := by
  conv_lhs => unfold type
  cases item <;> cases value <;> simp

/-- A text goes before everything else. -/
theorem type_text (hne : expr ≠ []) :
    (form expr name item value ns target).type = parseText expr := by
  rw [type_form, if_pos hne]

/-- A part that has to be there is read, or the object is refused. -/
theorem part_eq_ok_iff {part : WrittenType} {f : TypeExpr → TypeExpr} {e : Text} :
    (if part = absent then .error e else f <$> part.type) = .ok t ↔
      ∃ elem, part.type = .ok elem ∧ f elem = t := by
  cases part with
  | absent => simp [type_absent]
  | form expr name item value ns target =>
    rw [if_neg nofun]
    cases (form expr name item value ns target).type <;> simp [Functor.map, Except.map]

/-! An object is read by its name. -/

theorem type_list_eq_ok_iff : (form [] "list" item value ns target).type = .ok t ↔
    ∃ elem, item.type = .ok elem ∧ list elem = t := by
  have hlist : (form [] "list" item value ns target).type =
      if item = absent then .error "list requires item_type" else list <$> item.type := by
    rw [type_form]
    rfl
  rw [hlist, part_eq_ok_iff]

theorem type_optional_eq_ok_iff : (form [] "optional" item value ns target).type = .ok t ↔
    ∃ elem, item.type = .ok elem ∧ TypeExpr.optional elem = t := by
  have hoptional : (form [] "optional" item value ns target).type =
      if item = absent then .error "optional requires item_type"
      else TypeExpr.optional <$> item.type := by
    rw [type_form]
    rfl
  rw [hoptional, part_eq_ok_iff]

theorem type_map_eq_ok_iff : (form [] "map" item value ns target).type = .ok t ↔
    ∃ elem, value.type = .ok elem ∧ TypeExpr.map elem = t := by
  have hmap : (form [] "map" item value ns target).type =
      if value = absent then .error "map requires value_type" else TypeExpr.map <$> value.type := by
    rw [type_form]
    rfl
  rw [hmap, part_eq_ok_iff]

theorem type_ref_eq_ok_iff : (form [] "ref" item value ns target).type = .ok t ↔
    target ≠ [] ∧ .ref ns target = t := by
  have href : (form [] "ref" item value ns target).type =
      if target = [] then .error "ref requires target" else .ok (.ref ns target) := by
    rw [type_form]
    rfl
  rw [href]
  split
  · simp_all
  · simp_all

/-- Any other name is a text in type syntax. -/
theorem type_named (hname : name ∉ partNames) : (form [] name item value ns target).type =
    if name = [] then .error "missing type name" else parseText name := by
  simp only [partNames, List.mem_cons, List.not_mem_nil, or_false, not_or] at hname
  obtain ⟨hlist, hoptional, hmap, href⟩ := hname
  rw [type_form, if_neg (by simp), if_neg (by simp [hlist, hoptional]), if_neg hmap, if_neg href]

/-- **What is read is what is written**, in either notation. The induction is
on the writing, and its parts are read as the name of an object says. -/
theorem type_eq_ok_iff {w : WrittenType} {t : TypeExpr} : w.type = .ok t ↔ Notates w t := by
  induction w generalizing t with
  | absent =>
    constructor
    · intro h
      rw [type_absent] at h
      cases h
    · intro h
      cases h
  | form expr name item value ns target ihItem ihValue =>
    constructor
    · intro h
      by_cases hexpr : expr = []
      · subst hexpr
        by_cases hname : name ∈ partNames
        · simp only [partNames, List.mem_cons, List.not_mem_nil, or_false] at hname
          rcases hname with rfl | rfl | rfl | rfl
          · obtain ⟨elem, helem, rfl⟩ := type_list_eq_ok_iff.mp h
            exact .list (ihItem.mp helem)
          · obtain ⟨elem, helem, rfl⟩ := type_optional_eq_ok_iff.mp h
            exact .optional (ihItem.mp helem)
          · obtain ⟨elem, helem, rfl⟩ := type_map_eq_ok_iff.mp h
            exact .map (ihValue.mp helem)
          · obtain ⟨hne, rfl⟩ := type_ref_eq_ok_iff.mp h
            exact .ref hne
        · rw [type_named hname] at h
          split at h
          · cases h
          · rename_i hne
            exact .named hne hname (parseText_eq_ok_iff.mp h)
      · rw [type_text hexpr] at h
        exact .text hexpr (parseText_eq_ok_iff.mp h)
    · intro h
      cases h with
      | text hne h => rw [type_text hne, parseText_eq_ok_iff.mpr h]
      | named hne hname h => rw [type_named hname, if_neg hne, parseText_eq_ok_iff.mpr h]
      | list h => exact type_list_eq_ok_iff.mpr ⟨_, ihItem.mpr h, rfl⟩
      | optional h => exact type_optional_eq_ok_iff.mpr ⟨_, ihItem.mpr h, rfl⟩
      | map h => exact type_map_eq_ok_iff.mpr ⟨_, ihValue.mpr h, rfl⟩
      | ref hne => exact type_ref_eq_ok_iff.mpr ⟨hne, rfl⟩

/-! ## Both notations -/

theorem ne_nil_of_parse {s : Text} (h : parse s = .ok t) : s ≠ [] := by
  rintro rfl
  have hnil : parse [] = .error (.noWord []) := by with_unfolding_all rfl
  rw [hnil] at h
  cases h

/-- A type is written by what it is printed as. -/
theorem notates_ofText (h : IsBuilt t) : Notates (ofText t) t := by
  have hread := parse_of_derives (writes_toText h).derives
  exact .text (ne_nil_of_parse hread) hread

/-- **And by objects alone.** The induction is on how the type is built. -/
theorem notates_ofNodes (h : IsBuilt t) : Notates (ofNodes t) t := by
  -- an object with the name of a scalar is read as that name
  have hscalar : ∀ {word t}, ScalarName word t → ofNodes t = form [] t.toText absent absent [] [] →
      Notates (ofNodes t) t := by
    intro word t h heq
    have hread := parse_of_derives (writes_toText (isBuilt_of_writes (.scalar h))).derives
    have hname : t.toText ∉ partNames := by
      rw [h.toText]
      cases h <;> decide
    rw [heq]
    exact .named (ne_nil_of_parse hread) hname hread
  induction h with
  | scalar hk =>
    fin_cases hk
    · exact hscalar .bool rfl
    · exact hscalar .bigint rfl
    · exact hscalar .decimal rfl
    · exact hscalar .string rfl
    · exact hscalar .bytes rfl
    · exact hscalar .json rfl
  | int hw =>
    rcases hw with rfl | rfl | rfl | rfl
    · exact hscalar .i8 rfl
    · exact hscalar .i16 rfl
    · exact hscalar .i32 rfl
    · exact hscalar .i64 rfl
  | float => exact hscalar .f64 rfl
  | list _ ih => exact .list ih
  | map _ ih => exact .map ih
  | optional _ ih => exact .optional ih
  | name h hfree => exact .ref h.1
  | qualified hns h => exact .ref h.1

/-- **The two notations agree.** A type that can be built is what is read from
a writing exactly if the writing stands for it, in whatever notation each of
its nodes is written; and it has a writing in text alone, which is what it is
printed as, and one in objects alone. -/
theorem notations_agree {t : TypeExpr} (h : IsBuilt t) : (∀ w, w.type = .ok t ↔ Notates w t) ∧
    Notates (ofText t) t ∧ Notates (ofNodes t) t :=
  ⟨fun _ => type_eq_ok_iff, notates_ofText h, notates_ofNodes h⟩

/-- A mapping of lists that is an object of objects down to its items, which
are a text. -/
def mixedWriting : WrittenType :=
  form [] "map" absent
    (form [] "list" (form "optional[ base.Id ]" [] absent absent [] []) absent [] []) [] []

/-- **The mixed writing is read as its type**, as the two pure ones are. -/
theorem mixedWriting_read : IsBuilt (map (list (.optional (.ref "base" "Id")))) ∧
    mixedWriting.type = .ok (map (list (.optional (.ref "base" "Id")))) ∧
    (ofText (map (list (.optional (.ref "base" "Id"))))).type =
      .ok (map (list (.optional (.ref "base" "Id")))) ∧
    (ofNodes (map (list (.optional (.ref "base" "Id"))))).type =
      .ok (map (list (.optional (.ref "base" "Id")))) := by
  have hbuilt : IsBuilt (map (list (.optional (.ref "base" "Id")))) :=
    .map (.list (.optional (.qualified (isName_of_all (by decide) (by decide))
      (isName_of_all (by decide) (by decide)))))
  have hitem : parse "optional[ base.Id ]" = .ok (.optional (.ref "base" "Id")) := by
    with_unfolding_all rfl
  have hmixed : Notates mixedWriting (map (list (.optional (.ref "base" "Id")))) :=
    .map (.list (.text (by decide) hitem))
  obtain ⟨hread, htext, hnodes⟩ := notations_agree hbuilt
  exact ⟨hbuilt, (hread _).mpr hmixed, (hread _).mpr htext, (hread _).mpr hnodes⟩

end WrittenType

end WireModel
