import WireModel.Proofs.Decode.Exact
import WireModel.Proofs.Decode.Reading
import WireModel.Proofs.Text.Entries

/-!
# Values that are alike

A byte format delivers an integer in the machine kind it likes, as a
floating point number, or kept as it was written, and a mapping with text
keys with keys of any kind. `Value.Alike` relates values that differ in
nothing but that, at any depth. Scalars are read from values that are
alike with the same result, or refused with the same failure
(`Value.toInt_alike` and the others), floating point numbers excepted.
-/

namespace WireModel

namespace Value

/-! ## The relation -/

/-- **An integer, in one of its representations**: of any machine kind, as the
floating point number that is it, or by its canonical text. -/
inductive IsInteger (n : Int) : Value → Prop
  | int (kind : IntKind) : IsInteger n (.int kind n)
  | float64 {bits : Nat} (h : (Binary.double.decode bits).toInt? = some n) :
    IsInteger n (.float64 bits)
  | number : IsInteger n (.number (Text.ofInt n))

/-- **A mapping with text keys, in one of its representations.** -/
inductive HasEntries (es : List (Text × Value)) : Value → Prop
  | map : HasEntries es (.map es)
  | anyMap : HasEntries es (.anyMap (es.map fun e => (.text e.1, e.2)))

mutual

/-- **Values that are alike**: they differ only in how integers of 64 bits and
mappings with text keys are represented, at any depth. -/
inductive Alike : Value → Value → Prop
  | same (v : Value) : Alike v v
  | integer {n : Int} {v v' : Value} (hfit : fitsSigned 64 n = true) (h : v.IsInteger n)
    (h' : v'.IsInteger n) : Alike v v'
  | list {vs vs' : List Value} (h : AlikeList vs vs') : Alike (.list vs) (.list vs')
  | mapping {es es' : List (Text × Value)} {v v' : Value} (h : v.HasEntries es)
    (h' : v'.HasEntries es') (hs : AlikeEntries es es') : Alike v v'
  | pairs {ps ps' : List (Value × Value)} (h : AlikePairs ps ps') : Alike (.anyMap ps) (.anyMap ps')

/-- Sequences of values that are alike. -/
inductive AlikeList : List Value → List Value → Prop
  | nil : AlikeList [] []
  | cons {v v' : Value} {vs vs' : List Value} (h : Alike v v') (hs : AlikeList vs vs') :
    AlikeList (v :: vs) (v' :: vs')

/-- Entries with the same keys in the same order, and values that are alike. -/
inductive AlikeEntries : List (Text × Value) → List (Text × Value) → Prop
  | nil : AlikeEntries [] []
  | cons (key : Text) {v v' : Value} {es es' : List (Text × Value)} (h : Alike v v')
    (hs : AlikeEntries es es') : AlikeEntries ((key, v) :: es) ((key, v') :: es')

/-- Entries with keys and values that are alike. -/
inductive AlikePairs : List (Value × Value) → List (Value × Value) → Prop
  | nil : AlikePairs [] []
  | cons {k k' v v' : Value} {ps ps' : List (Value × Value)} (hk : Alike k k') (h : Alike v v')
    (hs : AlikePairs ps ps') : AlikePairs ((k, v) :: ps) ((k', v') :: ps')

end

end Value

/-! ## Readings that are alike -/

/-- **Errors that are alike**: of one kind, at one place, in one declaration.
Their details may name the representation. -/
structure DecodeError.Alike (e e' : DecodeError) : Prop where
  failure : e.failure = e'.failure
  path : e.path = e'.path
  decl : e.decl = e'.decl

namespace DecodeError

variable {e e' : DecodeError}

theorem Alike.inField (h : e.Alike e') (key : Text) : (e.inField key).Alike (e'.inField key) :=
  ⟨h.failure, congrArg (key :: ·) h.path, h.decl⟩

theorem Alike.inDecl (h : e.Alike e') (decl : Text) : (e.inDecl decl).Alike (e'.inDecl decl) := by
  rw [DecodeError.inDecl, DecodeError.inDecl, ← h.decl]
  split
  · exact ⟨h.failure, h.path, rfl⟩
  · exact h

end DecodeError

namespace Reading

variable {α β γ δ : Type} {R : α → β → Prop} {S : γ → δ → Prop}

/-- **Readings that are alike**: both answer nothing, or both fail with errors
that are alike, or both have results that are related. -/
inductive Alike (R : α → β → Prop) : Reading α → Reading β → Prop
  | none : Alike R none none
  | error {e e' : DecodeError} (h : e.Alike e') : Alike R (some (.error e)) (some (.error e'))
  | ok {x : α} {y : β} (h : R x y) : Alike R (some (.ok x)) (some (.ok y))

variable {a : Reading α} {b : Reading β}

theorem Alike.andThen (h : a.Alike R b) {f : α → Reading γ} {f' : β → Reading δ}
    (hf : ∀ x y, R x y → (f x).Alike S (f' y)) : (a.andThen f).Alike S (b.andThen f') := by
  cases h with
  | none => exact .none
  | error he => exact .error he
  | ok hxy => exact hf _ _ hxy

theorem Alike.map (h : a.Alike R b) {f : α → γ} {f' : β → δ}
    (hf : ∀ x y, R x y → S (f x) (f' y)) : (a.map f).Alike S (b.map f') :=
  h.andThen fun x y hxy => .ok (hf x y hxy)

theorem Alike.inField (h : a.Alike R b) (key : Text) :
    (a.mapError (·.inField key)).Alike R (b.mapError (·.inField key)) := by
  cases h with
  | none => exact .none
  | error he => exact .error (he.inField key)
  | ok hxy => exact .ok hxy

theorem Alike.inDecl (h : a.Alike R b) (decl : Text) :
    (a.mapError (·.inDecl decl)).Alike R (b.mapError (·.inDecl decl)) := by
  cases h with
  | none => exact .none
  | error he => exact .error (he.inDecl decl)
  | ok hxy => exact .ok hxy

/-- A reading is like itself. -/
theorem Alike.refl {R : α → α → Prop} (hR : ∀ x, R x x) (a : Reading α) : a.Alike R a := by
  cases a with
  | none => exact .none
  | some r =>
    cases r with
    | error e => exact .error ⟨rfl, rfl, rfl⟩
    | ok x => exact .ok (hR x)

/-- What does not depend on depth has an error or a result. -/
theorem Alike.of_lift {r : Decoded α} {r' : Decoded β} (h : (lift r).Alike R (lift r')) :
    (∃ e e', r = .error e ∧ r' = .error e' ∧ e.Alike e') ∨
      ∃ x y, r = .ok x ∧ r' = .ok y ∧ R x y := by
  cases r <;> cases r' <;> cases h
  · exact Or.inl ⟨_, _, rfl, rfl, ‹_›⟩
  · exact Or.inr ⟨_, _, rfl, rfl, ‹_›⟩

theorem Alike.some_map {r r' : Decoded α} (h : (lift r).Alike Eq (lift r')) (c : α → γ)
    {S : γ → γ → Prop} (hS : ∀ x, S (c x) (c x)) :
    Alike S (some (r.map c)) (some (r'.map c)) := by
  rcases h.of_lift with ⟨e, e', rfl, rfl, he⟩ | ⟨x, y, rfl, rfl, rfl⟩
  · exact .error he
  · exact .ok (hS _)

end Reading

/-! ## Scalars -/

namespace Value

variable {v v' : Value} {n : Int}

/-- The values that come in several representations. -/
def isLoose : Value → Bool
  | int _ _ | float64 _ | number _ | list _ | map _ | anyMap _ => true
  | _ => false

theorem IsInteger.isLoose (h : v.IsInteger n) : v.isLoose = true := by
  cases h <;> rfl

theorem HasEntries.isLoose {es : List (Text × Value)} (h : v.HasEntries es) :
    v.isLoose = true := by
  cases h <;> rfl

/-- **Values that are alike are the same, or both loose.** -/
theorem Alike.eq_or_isLoose (h : v.Alike v') :
    v = v' ∨ v.isLoose = true ∧ v'.isLoose = true := by
  cases h with
  | same => exact Or.inl rfl
  | integer hfit h h' => exact Or.inr ⟨h.isLoose, h'.isLoose⟩
  | list h => exact Or.inr ⟨rfl, rfl⟩
  | mapping h h' hs => exact Or.inr ⟨h.isLoose, h'.isLoose⟩
  | pairs h => exact Or.inr ⟨rfl, rfl⟩

/-- **What refuses all loose values** reads values that are alike alike. -/
theorem lift_alike_of_refuses {α : Type} {f : Value → Decoded α} {want : Text}
    (hf : ∀ u, u.isLoose = true → f u = .error (.mismatch want u)) (h : v.Alike v') :
    (Reading.lift (f v)).Alike Eq (Reading.lift (f v')) := by
  rcases h.eq_or_isLoose with rfl | ⟨hv, hv'⟩
  · exact .refl (fun _ => rfl) _
  · rw [hf v hv, hf v' hv']
    exact .error ⟨rfl, rfl, rfl⟩

theorem toBool_alike (h : v.Alike v') :
    (Reading.lift v.toBool).Alike Eq (Reading.lift v'.toBool) :=
  lift_alike_of_refuses (fun u hu => by cases u <;> first | rfl | cases hu) h

theorem toText_alike (h : v.Alike v') :
    (Reading.lift v.toText).Alike Eq (Reading.lift v'.toText) :=
  lift_alike_of_refuses (fun u hu => by cases u <;> first | rfl | cases hu) h

theorem toBigint_alike (h : v.Alike v') :
    (Reading.lift v.toBigint).Alike Eq (Reading.lift v'.toBigint) :=
  lift_alike_of_refuses (fun u hu => by cases u <;> first | rfl | cases hu) h

theorem toDecimal_alike (h : v.Alike v') :
    (Reading.lift v.toDecimal).Alike Eq (Reading.lift v'.toDecimal) :=
  lift_alike_of_refuses (fun u hu => by cases u <;> first | rfl | cases hu) h

/-- **An integer that fits is read from each of its representations.** -/
theorem IsInteger.toInt64 (h : v.IsInteger n) (hfit : fitsSigned 64 n = true) :
    v.toInt64 = .ok n := by
  cases h with
  | int kind => cases kind <;> simp [Value.toInt64, hfit]
  | float64 h => exact intOfDouble_eq_ok_iff.mpr ⟨h, hfit⟩
  | number =>
    -- the canonical text of an integer is read back
    have hread : (Text.ofInt n).toSigned? 64 = some n :=
      Option.filter_eq_some_iff.mpr ⟨Text.toInteger?_ofInt n, hfit⟩
    rw [Value.toInt64, hread]

theorem toInt64_alike (h : v.Alike v') :
    (Reading.lift v.toInt64).Alike Eq (Reading.lift v'.toInt64) := by
  cases h with
  | same => exact .refl (fun _ => rfl) _
  | integer hfit h h' =>
    rw [h.toInt64 hfit, h'.toInt64 hfit]
    exact .ok rfl
  | list h => exact .error ⟨rfl, rfl, rfl⟩
  | mapping h h' hs => cases h <;> cases h' <;> exact .error ⟨rfl, rfl, rfl⟩
  | pairs h => exact .error ⟨rfl, rfl, rfl⟩

theorem toInt_alike (width : Nat) (h : v.Alike v') :
    (Reading.lift (v.toInt width)).Alike Eq (Reading.lift (v'.toInt width)) := by
  rw [toInt, toInt]
  rcases (toInt64_alike h).of_lift with ⟨e, e', hv, hv', he⟩ | ⟨n, _, hv, hv', rfl⟩
  · rw [hv, hv']
    exact .error he
  · rw [hv, hv']
    exact .refl (fun _ => rfl) _

/-- Values that are alike stand for the same byte. -/
theorem toByte?_alike (h : v.Alike v') : v.toByte? = v'.toByte? := by
  rw [toByte?, toByte?]
  rcases (toInt64_alike h).of_lift with ⟨e, e', hv, hv', -⟩ | ⟨n, _, hv, hv', rfl⟩
  · rw [hv, hv']
  · rw [hv, hv']

theorem toByteList_alike {vs vs' : List Value} (h : AlikeList vs vs') (pos : Nat) :
    (Reading.lift (toByteList pos vs)).Alike Eq (Reading.lift (toByteList pos vs')) := by
  induction vs generalizing vs' pos with
  | nil =>
    cases h
    exact .ok rfl
  | cons v vs ih =>
    cases h with
    | @cons _ v' _ vs' h hs =>
      rw [toByteList, toByteList, ← toByte?_alike h]
      cases v.toByte? with
      | none => exact .error ⟨rfl, rfl, rfl⟩
      | some b =>
        rcases (ih hs (pos + 1)).of_lift with ⟨e, e', hb, hb', he⟩ | ⟨bs, _, hb, hb', rfl⟩
        · rw [hb, hb']
          exact .error he
        · rw [hb, hb']
          exact .ok rfl

theorem toBytes_alike (h : v.Alike v') :
    (Reading.lift v.toBytes).Alike Eq (Reading.lift v'.toBytes) := by
  cases h with
  | same => exact .refl (fun _ => rfl) _
  | integer hfit h h' => cases h <;> cases h' <;> exact .error ⟨rfl, rfl, rfl⟩
  | list h => exact toByteList_alike h 0
  | mapping h h' hs => cases h <;> cases h' <;> exact .error ⟨rfl, rfl, rfl⟩
  | pairs h => exact .error ⟨rfl, rfl, rfl⟩

/-! ## Mappings -/

theorem AlikeList.refl (vs : List Value) : AlikeList vs vs := by
  induction vs with
  | nil => exact .nil
  | cons v vs ih => exact .cons (.same v) ih

theorem AlikeEntries.refl (es : List (Text × Value)) : AlikeEntries es es := by
  induction es with
  | nil => exact .nil
  | cons e es ih => exact .cons e.1 (.same e.2) ih

theorem textEntries_map (es : List (Text × Value)) :
    textEntries (es.map fun e => (.text e.1, e.2)) = .ok es := by
  induction es with
  | nil => rfl
  | cons e es ih =>
    rw [List.map_cons, textEntries, ih]
    rfl

theorem HasEntries.toObject {es : List (Text × Value)} (h : v.HasEntries es) :
    v.toObject = .ok es := by
  cases h with
  | map => rfl
  | anyMap => exact textEntries_map es

/-- A text is like no other value. -/
theorem Alike.text_iff (h : v.Alike v') {t : Text} : v = .text t ↔ v' = .text t := by
  rcases h.eq_or_isLoose with rfl | ⟨hv, hv'⟩
  · rfl
  · constructor
    · rintro rfl
      cases hv
    · rintro rfl
      cases hv'

theorem textEntries_alike {ps ps' : List (Value × Value)} (h : AlikePairs ps ps') :
    (Reading.lift (textEntries ps)).Alike AlikeEntries (Reading.lift (textEntries ps')) := by
  induction ps generalizing ps' with
  | nil =>
    cases h
    exact .ok .nil
  | cons p ps ih =>
    cases h with
    | @cons k k' v v' _ ps' hk h hs =>
      -- a key is a text on both sides, or it is refused on both
      by_cases htext : ∃ t, k = .text t
      · obtain ⟨t, rfl⟩ := htext
        obtain rfl := hk.text_iff.mp rfl
        rw [textEntries, textEntries]
        rcases (ih hs).of_lift with ⟨e, e', hb, hb', he⟩ | ⟨es, es', hb, hb', hes⟩
        · rw [hb, hb']
          exact .error he
        · rw [hb, hb']
          exact .ok (.cons t h hes)
      · have hrefused : ∀ {k v ps}, (¬ ∃ t, k = .text t) →
            textEntries ((k, v) :: ps) = .error (.mismatch "string key" k) := by
          intro k v ps hk
          cases k <;> first | rfl | exact absurd ⟨_, rfl⟩ hk
        have htext' : ¬ ∃ t, k' = .text t := fun ⟨t, ht⟩ => htext ⟨t, hk.text_iff.mpr ht⟩
        rw [hrefused htext, hrefused htext']
        exact .error ⟨rfl, rfl, rfl⟩

/-- **The entries of values that are alike** have the same keys and values that
are alike. -/
theorem toObject_alike (h : v.Alike v') :
    (Reading.lift v.toObject).Alike AlikeEntries (Reading.lift v'.toObject) := by
  cases h with
  | same => exact .refl AlikeEntries.refl _
  | integer hfit h h' => cases h <;> cases h' <;> exact .error ⟨rfl, rfl, rfl⟩
  | list h => exact .error ⟨rfl, rfl, rfl⟩
  | mapping h h' hs =>
    rw [h.toObject, h'.toObject]
    exact .ok hs
  | pairs h => exact textEntries_alike h

/-- What stands under a key. -/
theorem lookup?_alike {es es' : List (Text × Value)} (h : AlikeEntries es es') (key : Text) :
    (Text.lookup? key es = none ∧ Text.lookup? key es' = none) ∨
      ∃ u u', Text.lookup? key es = some u ∧ Text.lookup? key es' = some u' ∧ u.Alike u' := by
  induction es generalizing es' with
  | nil =>
    cases h
    exact Or.inl ⟨rfl, rfl⟩
  | cons e es ih =>
    cases h with
    | @cons k v v' _ es' h hs =>
      by_cases hk : k = key
      · subst hk
        exact Or.inr ⟨v, v', Text.lookup?_cons_self, Text.lookup?_cons_self, h⟩
      · rw [Text.lookup?_cons_of_ne hk, Text.lookup?_cons_of_ne hk]
        exact ih hs

end Value

end WireModel
