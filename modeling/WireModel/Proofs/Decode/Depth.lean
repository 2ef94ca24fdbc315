import Mathlib.Data.Finset.Card
import WireModel.Proofs.Decode.Reading
import WireModel.Proofs.Link.Steps

/-!
# Depth — when deserializers answer

A deserializer runs to a depth of declarations inside each other. More
depth never changes an answer (`ModuleGraph.readDecl_mono`), and the
depth that `ModuleGraph.deserialize` takes is enough: whatever is
answered at any depth is answered there
(`ModuleGraph.deserialize_eq_some_iff`).

For the second, call a value of a declaration asked again when its
deserializer hands the same value on to another declaration, as newtypes
do. Every other step goes into the value. Along the depths at which one
value is answered by more and more declarations, a depth that adds no
declaration is followed by none that does, so there are at most as many
such depths as declarations.
-/

namespace WireModel

/-! ## Values inside values -/

namespace Value

theorem height_le_heightList {u : Value} {vs : List Value} (h : u ∈ vs) :
    u.height ≤ heightList vs := by
  induction vs with
  | nil => cases h
  | cons v vs ih =>
    rw [heightList]
    rcases List.mem_cons.mp h with rfl | h
    · exact Nat.le_max_left _ _
    · exact Nat.le_trans (ih h) (Nat.le_max_right _ _)

theorem height_le_heightEntries {k : Text} {u : Value} {es : List (Text × Value)}
    (h : (k, u) ∈ es) : u.height ≤ heightEntries es := by
  induction es with
  | nil => cases h
  | cons e es ih =>
    obtain ⟨k', v⟩ := e
    rw [heightEntries]
    rcases List.mem_cons.mp h with h | h
    · cases h
      exact Nat.le_max_left _ _
    · exact Nat.le_trans (ih h) (Nat.le_max_right _ _)

theorem heightEntries_of_textEntries {ps : List (Value × Value)} {es : List (Text × Value)}
    (h : textEntries ps = .ok es) : heightEntries es = heightPairs ps := by
  induction ps generalizing es with
  | nil =>
    cases h
    rfl
  | cons p ps ih =>
    obtain ⟨k, v⟩ := p
    cases k with
    | text k =>
      simp only [textEntries, bind, Except.bind] at h
      split at h
      · cases h
      · rename_i es' hes
        cases h
        rw [heightEntries, heightPairs, ih hes]
    | _ => cases h

/-- **What stands under a key of an object is inside it.** -/
theorem height_lt_of_toObject {v u : Value} {k : Text} {es : List (Text × Value)}
    (h : v.toObject = .ok es) (hk : (k, u) ∈ es) : u.height < v.height := by
  have hle := height_le_heightEntries hk
  cases v with
  | map es' =>
    cases h
    rw [height]
    omega
  | anyMap ps =>
    rw [height, ← heightEntries_of_textEntries h]
    omega
  | _ => cases h

/-- A value that reading another one may come to: one inside it, or the
value itself. -/
def Within (u v : Value) : Prop := u.height < v.height ∨ u = v

theorem Within.refl (v : Value) : Within v v := Or.inr rfl

/-- What is within a value inside another one is inside it. -/
theorem Within.trans_lt {t u v : Value} (h : Within t u) (hlt : u.height < v.height) :
    Within t v := by
  rcases h with h | rfl
  · exact Or.inl (Nat.lt_trans h hlt)
  · exact Or.inl hlt

end Value

/-! ## Readers that answer no less -/

open Reading

section Answers

variable {f f' : DeclId → Value → Reading Datum} {read read' : Value → Reading Datum}

namespace Reader

theorem readList_le {vs : List Value} (h : ∀ v ∈ vs, Le (read v) (read' v)) (pos : Nat) :
    Le (readList read pos vs) (readList read' pos vs) := by
  induction vs generalizing pos with
  | nil => exact Le.refl _
  | cons v vs ih =>
    refine ((h v (by simp)).mapError _).andThen fun x => ?_
    exact (ih (fun u hu => h u (by simp [hu])) _).map _

theorem readEntries_le {es : List (Text × Value)} (h : ∀ e ∈ es, Le (read e.2) (read' e.2)) :
    Le (readEntries read es) (readEntries read' es) := by
  induction es with
  | nil => exact Le.refl _
  | cons e es ih =>
    refine ((h e (by simp)).mapError _).andThen fun x => ?_
    exact (ih fun u hu => h u (by simp [hu])).map _

/-- **A reader answers no less** when the deserializers it asks do not, on
the value and what is inside it. -/
theorem run_le (r : Reader) {v : Value} (h : ∀ id u, u.Within v → Le (f id u) (f' id u)) :
    Le (r.run f v) (r.run f' v) := by
  induction r generalizing v with
  | list item ih =>
    cases v with
    | list vs =>
      refine (readList_le (fun u hu => ih fun id t ht => h id t ?_) 0).map _
      have hle := Value.height_le_heightList hu
      exact ht.trans_lt (by rw [Value.height]; omega)
    | _ => exact Le.refl _
  | map item ih =>
    rw [run, run]
    cases hes : v.toObject with
    | error e => exact Le.refl _
    | ok es =>
      refine (readEntries_le fun e he => ih fun id t ht => h id t ?_).map _
      exact ht.trans_lt (Value.height_lt_of_toObject hes he)
  | optional item ih =>
    cases v with
    | null => exact Le.refl _
    | _ => exact (ih h).map _
  | nullable item ih =>
    cases v with
    | null => exact Le.refl _
    | _ => exact (ih h).map _
  | boxed item ih =>
    cases v with
    | null => exact Le.refl _
    | _ => exact (ih h).map _
  | decl d => exact h d v (Value.Within.refl v)
  | _ => exact Le.refl _

theorem readRequired_le {es : List (Text × Value)} {key : Text}
    (h : ∀ u, (key, u) ∈ es → Le (read u) (read' u)) :
    Le (readRequired read es key) (readRequired read' es key) := by
  rw [readRequired, readRequired]
  cases hl : Text.lookup? key es with
  | none => exact Le.refl _
  | some u => exact (h u (Text.mem_of_lookup? hl)).mapError _

theorem readOptional_le {es : List (Text × Value)} {key : Text} {zero : Datum}
    (h : ∀ u, (key, u) ∈ es → Le (read u) (read' u)) :
    Le (readOptional read zero es key) (readOptional read' zero es key) := by
  rw [readOptional, readOptional]
  cases hl : Text.lookup? key es with
  | none => exact Le.refl _
  | some u => exact (h u (Text.mem_of_lookup? hl)).mapError _

end Reader

namespace ModuleGraph

variable {g : ModuleGraph} {m : LinkedModule} {id : DeclId} {d : Decl}

theorem readFields_le {es : List (Text × Value)}
    (h : ∀ (r : Reader) key u, (key, u) ∈ es → Le (r.run f u) (r.run f' u)) (fs : List Field) :
    Le (g.readFields f m id es fs) (g.readFields f' m id es fs) := by
  induction fs with
  | nil => exact Le.refl _
  | cons field fs ih =>
    rw [readFields, readFields]
    refine Le.andThen ?_ fun x => ih.map _
    split
    · exact Reader.readRequired_le (h _ _)
    · exact Reader.readOptional_le (h _ _)

theorem readVariant_le {es : List (Text × Value)} {tag : Text}
    (h : ∀ (r : Reader) key u, (key, u) ∈ es → Le (r.run f u) (r.run f' u)) :
    Le (g.readVariant f id d es tag) (g.readVariant f' id d es tag) := by
  rw [readVariant, readVariant]
  split
  · exact Le.refl _
  · split
    · exact Le.refl _
    · refine Le.map ?_ _
      split
      · exact Reader.readOptional_le (h _ _)
      · exact Reader.readRequired_le (h _ _)

/-- **A deserializer answers no less** when those it asks do not. -/
theorem readBody_le {v : Value} (h : ∀ id u, u.Within v → Le (f id u) (f' id u)) :
    Le (g.readBody f m id d v) (g.readBody f' m id d v) := by
  have hinside : ∀ {es}, v.toObject = .ok es → ∀ (r : Reader) key u, (key, u) ∈ es →
      Le (r.run f u) (r.run f' u) := by
    intro es hes r key u hu
    refine r.run_le fun id t ht => h id t ?_
    exact ht.trans_lt (Value.height_lt_of_toObject hes hu)
  rw [readBody, readBody]
  split
  · cases hes : v.toObject with
    | error e => exact Le.refl _
    | ok es => exact (readFields_le (hinside hes) _).map _
  · cases hes : v.toObject with
    | error e => exact Le.refl _
    | ok es =>
      rw [lift_ok_andThen, lift_ok_andThen]
      refine Le.andThen (Le.refl _) fun x => ?_
      split
      · exact readVariant_le (hinside hes)
      · exact Le.refl _
  · exact (Reader.run_le _ h).map _
  · exact Le.refl _

/-- One level of declarations. -/
theorem readDecl_succ_le {n n' : Nat} {v : Value}
    (h : ∀ id u, u.Within v → Le (g.readDecl n id u) (g.readDecl n' id u)) :
    Le (g.readDecl (n + 1) id v) (g.readDecl (n' + 1) id v) := by
  rw [readDecl, readDecl]
  split
  · exact (readBody_le h).mapError _
  · exact Le.refl _

/-- **More depth never changes an answer.** -/
theorem readDecl_mono {n n' : Nat} (h : n ≤ n') (id : DeclId) (v : Value) :
    Le (g.readDecl n id v) (g.readDecl n' id v) := by
  induction n generalizing n' id v with
  | zero => exact fun r hr => nomatch hr
  | succ n ih =>
    obtain ⟨k, rfl⟩ : ∃ k, n' = k + 1 := ⟨n' - 1, by omega⟩
    exact readDecl_succ_le fun id u _ => ih (by omega) id u

end ModuleGraph

end Answers

/-! ## Depth that suffices -/

namespace ModuleGraph

variable {g : ModuleGraph} {n : Nat} {v : Value}

/-- A depth stalls on a value when one more level answers it for no
further declaration. -/
def Stalls (g : ModuleGraph) (n : Nat) (v : Value) : Prop :=
  ∀ id, Le (g.readDecl (n + 1) id v) (g.readDecl n id v)

/-- **A depth that stalls is followed by one that does**, if it stalls on
what is inside the value too. -/
theorem Stalls.succ (hin : ∀ u, u.height < v.height → g.Stalls n u) (h : g.Stalls n v) :
    g.Stalls (n + 1) v := by
  refine fun id => readDecl_succ_le fun id u hu => ?_
  rcases hu with hu | rfl
  · exact hin u hu id
  · exact h id

/-- Where all further depths stall, nothing more is answered. -/
theorem readDecl_le_of_stalls (h : ∀ k, n ≤ k → g.Stalls k v) (k : Nat) (id : DeclId) :
    Le (g.readDecl k id v) (g.readDecl n id v) := by
  induction k with
  | zero => exact fun r hr => nomatch hr
  | succ k ih =>
    by_cases hk : n ≤ k
    · exact (h k hk id).trans ih
    · exact readDecl_mono (by omega) id v

/-- The places of all declarations. -/
def allIds (g : ModuleGraph) : List DeclId :=
  (List.range g.workspace.length).flatMap g.workspace.declIds

/-- There are as many as the graph has declarations. -/
theorem length_allIds : g.allIds.length = g.declCount := by
  have hmap : (List.range g.workspace.length).map (fun i => (g.workspace.declIds i).length) =
      g.workspace.map (·.decls.length) := by
    refine List.ext_getElem (by simp) fun i h₁ h₂ => ?_
    have hi : i < g.workspace.length := by simpa using h₂
    simp [Workspace.declIds, List.getElem?_eq_getElem hi]
  have hsum : ∀ w : Workspace,
      (w.map (·.decls.length)).sum = w.foldr (fun m n => m.decls.length + n) 0 := by
    intro w
    induction w with
    | nil => rfl
    | cons m w ih => rw [List.map_cons, List.sum_cons, List.foldr_cons, ih]
  rw [allIds, List.length_flatMap, hmap, hsum]
  rfl

/-- The place of a declaration is one of them. -/
theorem mem_allIds_of_decl? {id : DeclId} {d : Decl} (hd : g.workspace.decl? id = some d) :
    id ∈ g.allIds := by
  have hmem := mem_declIds_iff.mpr ⟨rfl, d, hd⟩
  rw [allIds, List.mem_flatMap]
  refine ⟨id.module, List.mem_range.mpr ?_, hmem⟩
  rw [Workspace.decl?] at hd
  split at hd
  · exact (List.getElem?_eq_some_iff.mp ‹_›).1
  · cases hd

/-- A declaration that answers is one of them. -/
theorem mem_allIds {id : DeclId} (h : (g.readDecl n id v).isSome) : id ∈ g.allIds := by
  obtain ⟨d, hd⟩ : ∃ d, g.workspace.decl? id = some d := by
    cases n with
    | zero => cases h
    | succ n =>
      rw [readDecl] at h
      split at h
      · exact ⟨_, ‹_›⟩
      · cases h
  exact mem_allIds_of_decl? hd

/-- The declarations that answer a value at a depth. -/
def answering (g : ModuleGraph) (n : Nat) (v : Value) : Finset DeclId :=
  g.allIds.toFinset.filter fun id => (g.readDecl n id v).isSome

theorem card_answering_le : (g.answering n v).card ≤ g.declCount := by
  refine (Finset.card_filter_le _ _).trans ?_
  rw [← length_allIds]
  exact List.toFinset_card_le _

/-- A depth that does not stall is followed by one at which more
declarations answer. -/
theorem card_answering_lt (h : ¬ g.Stalls n v) :
    (g.answering n v).card < (g.answering (n + 1) v).card := by
  refine Finset.card_lt_card ⟨fun id hid => ?_, fun hsub => h fun id r hr => ?_⟩
  · rw [answering, Finset.mem_filter] at hid ⊢
    obtain ⟨r, hr⟩ := Option.isSome_iff_exists.mp hid.2
    exact ⟨hid.1, by rw [readDecl_mono (Nat.le_succ n) id v r hr]; rfl⟩
  · have hsome : (g.readDecl (n + 1) id v).isSome = true := by rw [hr]; rfl
    have hid : id ∈ g.answering (n + 1) v := by
      rw [answering, Finset.mem_filter]
      exact ⟨List.mem_toFinset.mpr (mem_allIds hsome), hsome⟩
    obtain ⟨r', hr'⟩ := Option.isSome_iff_exists.mp (Finset.mem_filter.mp (hsub hid)).2
    have heq := readDecl_mono (Nat.le_succ n) id v r' hr'
    rw [hr']
    exact heq.symm.trans hr

/-- **Some depth stalls** before there are more levels than declarations. -/
theorem exists_stalls (g : ModuleGraph) (n : Nat) (v : Value) :
    ∃ k ≤ g.declCount, g.Stalls (n + k) v := by
  by_contra hno
  -- each depth that does not stall adds a declaration, and they run out
  have hgrow : ∀ k ≤ g.declCount + 1, k ≤ (g.answering (n + k) v).card := by
    intro k
    induction k with
    | zero => exact fun _ => Nat.zero_le _
    | succ k ih =>
      intro hk
      have hlt := card_answering_lt fun hs => hno ⟨k, by omega, hs⟩
      have := ih (by omega)
      rw [← Nat.add_assoc]
      omega
  have := hgrow (g.declCount + 1) le_rfl
  have := card_answering_le (g := g) (n := n + (g.declCount + 1)) (v := v)
  omega

/-- **All depths stall from some depth on**, which grows with the height
of the value. The induction is on the height: where depths stall on what
is inside a value, the first one that stalls on the value stalls for
good. -/
theorem stalls_of_height_lt {h : Nat} (hv : v.height < h) (hn : h * (g.declCount + 1) ≤ n + 1) :
    g.Stalls n v := by
  induction h generalizing v n with
  | zero => omega
  | succ h ih =>
    have hin : ∀ {k}, h * (g.declCount + 1) ≤ k + 1 → ∀ u : Value, u.height < v.height →
        g.Stalls k u := fun hk u hu => ih (by omega) hk
    -- from here on depths stall on what is inside the value
    obtain ⟨j, hj, hstall⟩ := exists_stalls g (h * (g.declCount + 1)) v
    have hlast : ∀ i, g.Stalls (h * (g.declCount + 1) + j + i) v := by
      intro i
      induction i with
      | zero => exact hstall
      | succ i ihi =>
        have hi : h * (g.declCount + 1) ≤ h * (g.declCount + 1) + j + i + 1 := by omega
        exact ihi.succ (hin hi)
    rw [Nat.succ_mul] at hn
    obtain ⟨i, rfl⟩ := Nat.exists_eq_add_of_le
      (show h * (g.declCount + 1) + j ≤ n by omega)
    exact hlast i

/-- **The depth that is taken for a value is enough**: whatever is
answered at some depth is answered there. -/
theorem readDecl_le_depthFor (n : Nat) (id : DeclId) (v : Value) :
    Le (g.readDecl n id v) (g.readDecl (g.depthFor v) id v) := by
  refine readDecl_le_of_stalls (fun k hk => ?_) n id
  exact stalls_of_height_lt (Nat.lt_succ_self _) (Nat.le_succ_of_le hk)

/-- **A deserializer gives an answer exactly when some depth does.** -/
theorem deserialize_eq_some_iff {id : DeclId} {r : Decoded Datum} :
    g.deserialize id v = some r ↔ ∃ n, g.readDecl n id v = some r := by
  constructor
  · exact fun h => ⟨_, h⟩
  · rintro ⟨n, h⟩
    exact readDecl_le_depthFor n id v r h

/-- What stands in a value needs no more depth than the value. -/
theorem depthFor_le {u : Value} (h : u.Within v) : g.depthFor u ≤ g.depthFor v := by
  have hle : u.height + 1 ≤ v.height + 1 := by
    rcases h with h | rfl
    · omega
    · exact le_rfl
  exact Nat.mul_le_mul_right _ hle

/-- **The equation of deserializers.** The deserializer of a declaration is
its body, with the deserializers of the declarations it names. -/
theorem deserialize_eq {id : DeclId} {m : LinkedModule} {d : Decl} (hm : g.moduleOf? id = some m)
    (hd : g.workspace.decl? id = some d) :
    g.deserialize id v = (g.readBody g.deserialize m id d v).mapError (·.inDecl d.name) := by
  have hlevel : ∀ n, g.readDecl (n + 1) id v =
      (g.readBody (g.readDecl n) m id d v).mapError (·.inDecl d.name) := by
    intro n
    rw [readDecl, hm, hd]
  have hup : Le (g.deserialize id v)
      ((g.readBody g.deserialize m id d v).mapError (·.inDecl d.name)) := by
    have hmono : Le (g.deserialize id v) (g.readDecl (g.depthFor v + 1) id v) :=
      readDecl_mono (Nat.le_succ _) id v
    rw [hlevel] at hmono
    refine hmono.trans (Le.mapError (readBody_le fun id u _ => ?_) _)
    exact readDecl_le_depthFor _ id u
  have hdown : Le ((g.readBody g.deserialize m id d v).mapError (·.inDecl d.name))
      (g.deserialize id v) := by
    have hle : Le ((g.readBody g.deserialize m id d v).mapError (·.inDecl d.name))
        (g.readDecl (g.depthFor v + 1) id v) := by
      rw [hlevel]
      exact Le.mapError (readBody_le fun id u hu => readDecl_mono (depthFor_le hu) id u) _
    exact hle.trans (readDecl_le_depthFor _ id v)
  exact hup.antisymm hdown

end ModuleGraph

end WireModel
