import WireModel.Proofs.Decode.Depth
import WireModel.Proofs.Decode.Exact
import WireModel.Proofs.Link.Linked

/-!
# Places — which reader runs on which part of a value

A reader of a composite type runs the reader of its items on the parts
of the value, and a deserializer runs readers on the parts that its
declaration gives names to. `Reader.Runs` and `ModuleGraph.Holds` follow
them, with the path that leads from the value to the part. Neither of
them enters a declaration: that is left to `ModuleGraph.Asks`, which is
one deserializer running another one.

When a deserializer gives no result, either one it asks gave none, or it
fails by itself at some place (`ModuleGraph.readBody_eq_stop`). Where
there is no answer at all only the former is possible, so this one fact
serves both the question of when deserializers answer and the question
of where they fail.
-/

namespace WireModel

namespace DecodeError

/-- An error that says nothing about its place, and of a kind that needs
to say nothing. -/
structure Bare (e : DecodeError) : Prop where
  path : e.path = []
  decl : e.decl = []
  notMissing : e.failure ≠ .missingField
  notBytes : e.failure ≠ .malformedBytes

theorem bare_mismatch {want : Text} {got : Value} : (mismatch want got).Bare :=
  ⟨rfl, rfl, nofun, nofun⟩

theorem bare_numeric {detail : Text} : (numeric detail).Bare :=
  ⟨rfl, rfl, nofun, nofun⟩

/-- The error seen from where a path leads to the place it was seen from. -/
def under (p : List Text) (e : DecodeError) : DecodeError := { e with path := p ++ e.path }

@[simp] theorem under_under (p q : List Text) (e : DecodeError) :
    (e.under q).under p = e.under (p ++ q) := by
  simp [under]

theorem inField_eq_under (k : Text) : inField k = under [k] := rfl

theorem map_under_map_under (p q : List Text) (o : Option DecodeError) :
    (o.map (under q)).map (under p) = o.map (under (p ++ q)) := by
  cases o <;> simp

end DecodeError

/-! ## Faults of scalars -/

namespace Value

variable {v : Value} {e : DecodeError}

theorem bare_of_toBool (h : v.toBool = .error e) : e.Bare := by
  cases v <;> cases h <;> exact DecodeError.bare_mismatch

theorem bare_of_intOfDouble {bits : Nat} (h : intOfDouble bits = .error e) : e.Bare := by
  rw [intOfDouble] at h
  split at h
  · cases h
  · cases h
    exact DecodeError.bare_numeric

theorem bare_of_toInt64 (h : v.toInt64 = .error e) : e.Bare := by
  cases v with
  | int k n =>
    cases k with
    | uint =>
      rw [toInt64] at h
      split at h
      · cases h
      · cases h
        exact DecodeError.bare_mismatch
    | uint64 =>
      rw [toInt64] at h
      split at h
      · cases h
      · cases h
        exact DecodeError.bare_numeric
    | _ => cases h
  | float64 bits => exact bare_of_intOfDouble h
  | float32 bits => exact bare_of_intOfDouble h
  | number t =>
    rw [toInt64] at h
    split at h
    · cases h
    · cases h
      exact DecodeError.bare_numeric
  | _ =>
    cases h
    exact DecodeError.bare_mismatch

theorem bare_of_toInt {width : Nat} (h : v.toInt width = .error e) : e.Bare := by
  rw [toInt] at h
  cases hn : v.toInt64 with
  | error e' =>
    rw [hn] at h
    cases h
    exact bare_of_toInt64 hn
  | ok n =>
    simp only [hn, bind, Except.bind] at h
    split at h
    · cases h
    · cases h
      exact DecodeError.bare_numeric

theorem bare_of_toFloat (h : v.toFloat = .error e) : e.Bare := by
  cases v with
  | int k n =>
    cases k with
    | uint =>
      rw [toFloat] at h
      split at h
      · cases h
      · cases h
        exact DecodeError.bare_mismatch
    | _ => cases h
  | number t =>
    rw [toFloat] at h
    split at h
    · cases h
    · cases h
      exact DecodeError.bare_numeric
  | _ =>
    cases h
    try exact DecodeError.bare_mismatch

theorem bare_of_toText (h : v.toText = .error e) : e.Bare := by
  cases v <;> cases h <;> exact DecodeError.bare_mismatch

theorem bare_of_toBigint (h : v.toBigint = .error e) : e.Bare := by
  cases v with
  | text t =>
    rw [toBigint] at h
    split at h
    · cases h
    · cases h
      exact DecodeError.bare_numeric
  | _ =>
    cases h
    exact DecodeError.bare_mismatch

theorem bare_of_toDecimal (h : v.toDecimal = .error e) : e.Bare := by
  cases v with
  | text t =>
    rw [toDecimal] at h
    split at h
    · cases h
    · cases h
      exact DecodeError.bare_numeric
  | _ =>
    cases h
    exact DecodeError.bare_mismatch

theorem bare_of_textEntries {ps : List (Value × Value)} (h : textEntries ps = .error e) :
    e.Bare := by
  induction ps with
  | nil => cases h
  | cons p ps ih =>
    obtain ⟨k, u⟩ := p
    cases k with
    | text k =>
      cases hps : textEntries ps with
      | error e' =>
        simp only [textEntries, hps, bind, Except.bind] at h
        cases h
        exact ih hps
      | ok es =>
        simp only [textEntries, hps, bind, Except.bind] at h
        cases h
    | _ =>
      cases h
      exact DecodeError.bare_mismatch

theorem bare_of_toObject (h : v.toObject = .error e) : e.Bare := by
  cases v with
  | map es => cases h
  | anyMap ps => exact bare_of_textEntries h
  | _ =>
    cases h
    exact DecodeError.bare_mismatch

/-- **A byte sequence is refused at an element** that is no byte. -/
theorem exists_of_toByteList_error {vs : List Value} {pos : Nat} (h : toByteList pos vs = .error e) :
    ∃ (i : Nat) (u : Value), vs[i]? = some u ∧ u.toByte? = none ∧ e.failure = .malformedBytes ∧
      e.path = [Text.ofNat (pos + i)] ∧ e.decl = [] := by
  induction vs generalizing pos with
  | nil => cases h
  | cons u vs ih =>
    rw [toByteList] at h
    split at h
    · rename_i b hb
      cases htail : toByteList (pos + 1) vs with
      | error e' =>
        rw [htail] at h
        cases h
        obtain ⟨i, t, ht, hno, hf, hp, hd⟩ := ih htail
        refine ⟨i + 1, t, ht, hno, hf, ?_, hd⟩
        rw [hp, Nat.add_assoc, Nat.add_comm 1 i]
      | ok bs =>
        rw [htail] at h
        cases h
    · cases h
      exact ⟨0, u, rfl, ‹_›, rfl, rfl, rfl⟩

end Value

/-! ## Readers and what they read -/

namespace Reader

/-- **A reader comes to run another one** on a part of its value, along a
path: list positions and keys of mappings. What passes null through is
not entered with null. -/
inductive Runs : Reader → Value → List Text → Reader → Value → Prop
  | here {r v} : Runs r v [] r v
  | item {item vs i u p s t} (hu : vs[i]? = some u) (h : Runs item u p s t) :
    Runs (.list item) (.list vs) (Text.ofNat i :: p) s t
  | entry {item v es k u p s t} (hes : v.toObject = .ok es) (hu : (k, u) ∈ es)
      (h : Runs item u p s t) : Runs (.map item) v (k :: p) s t
  | optional {item v p s t} (hv : v ≠ .null) (h : Runs item v p s t) : Runs (.optional item) v p s t
  | nullable {item v p s t} (hv : v ≠ .null) (h : Runs item v p s t) : Runs (.nullable item) v p s t
  | boxed {item v p s t} (hv : v ≠ .null) (h : Runs item v p s t) : Runs (.boxed item) v p s t

/-- **A reader fails by itself** on a value, whatever the deserializers of
declarations do. The error says nothing about its place, except that a
byte sequence names the element that is no byte. -/
inductive Fails : Reader → Value → DecodeError → Prop
  | itself {r v e} (h : ∀ f, r.run f v = some (.error e)) (he : e.Bare) : Fails r v e
  | element {vs i u e} (h : ∀ f, bytes.run f (.list vs) = some (.error e)) (hu : vs[i]? = some u)
      (hno : (∀ n, u.exactInt? = some n → ¬ (0 ≤ n ∧ n ≤ 255)) ∨ u.OddlyWritten)
      (hf : e.failure = .malformedBytes) (hp : e.path = [Text.ofNat i]) (hd : e.decl = []) :
    Fails .bytes (.list vs) e

/-- **How a reader stops**: with what a deserializer stops with that it
runs, or by failing at a place. -/
def Stops (f : DeclId → Value → Reading Datum) (r : Reader) (v : Value)
    (o : Option DecodeError) : Prop :=
  (∃ p b u o', r.Runs v p (.decl b) u ∧ f b u = Reading.stop o' ∧ o = o'.map (·.under p)) ∨
    ∃ p s u e, r.Runs v p s u ∧ s.Fails u e ∧ o = some (e.under p)

section Stops

variable {f : DeclId → Value → Reading Datum} {r item : Reader} {u v : Value}
variable {o : Option DecodeError}

/-- Where a reader comes to run another one, it stops as that one does. -/
theorem Stops.outer {q : List Text}
    (hq : ∀ {p s t}, item.Runs u p s t → r.Runs v (q ++ p) s t) (h : item.Stops f u o) :
    r.Stops f v (o.map (·.under q)) := by
  rcases h with ⟨p, b, t, o', hrun, hstop, rfl⟩ | ⟨p, s, t, e, hrun, hfail, rfl⟩
  · refine Or.inl ⟨q ++ p, b, t, o', hq hrun, hstop, ?_⟩
    exact DecodeError.map_under_map_under q p o'
  · refine Or.inr ⟨q ++ p, s, t, e, hq hrun, hfail, ?_⟩
    rw [Option.map_some, DecodeError.under_under]

/-- The same where the value is passed on. -/
theorem Stops.same (hq : ∀ {p s t}, item.Runs v p s t → r.Runs v p s t) (h : item.Stops f v o) :
    r.Stops f v o := by
  have hout : r.Stops f v (o.map (·.under [])) := h.outer hq
  cases o <;> exact hout

/-- A reader that fails by itself stops so. -/
theorem Fails.stops {e : DecodeError} (h : r.Fails v e) : r.Stops f v (some e) :=
  Or.inr ⟨[], r, v, e, .here, h, rfl⟩

/-- A scalar stops only by failing. -/
theorem stops_of_scalar {α : Type} {x : Decoded α} {c : α → Datum}
    (hrun : ∀ f, r.run f v = some (x.map c)) (hbare : ∀ e, x = .error e → e.Bare)
    (h : r.run f v = Reading.stop o) : r.Stops f v o := by
  rw [hrun] at h
  obtain ⟨e, he, rfl⟩ := Reading.some_eq_stop_iff.mp h
  have hx : x = .error e := by
    cases x with
    | error e' =>
      cases he
      rfl
    | ok a => cases he
  refine Fails.stops (.itself (fun f => ?_) (hbare e hx))
  rw [hrun, he]

/-- A value that no reader of its kind takes is refused. -/
theorem stops_of_mismatch {want : Text}
    (hrun : ∀ f, r.run f v = some (.error (.mismatch want v))) (h : r.run f v = Reading.stop o) :
    r.Stops f v o := by
  rw [hrun] at h
  obtain ⟨e, he, rfl⟩ := Reading.some_eq_stop_iff.mp h
  cases he
  exact Fails.stops (.itself hrun DecodeError.bare_mismatch)

/-- A byte sequence stops at an element that is no byte. -/
theorem stops_of_bytes {vs : List Value} (h : bytes.run f (.list vs) = Reading.stop o) :
    bytes.Stops f (.list vs) o := by
  have hrun : ∀ f, bytes.run f (.list vs) = some ((Value.toByteList 0 vs).map Datum.bytes) :=
    fun _ => rfl
  rw [hrun] at h
  obtain ⟨e, he, rfl⟩ := Reading.some_eq_stop_iff.mp h
  cases hbytes : Value.toByteList 0 vs with
  | ok bs =>
    rw [hbytes] at he
    cases he
  | error e' =>
    rw [hbytes] at he
    cases he
    obtain ⟨i, u, hu, hno, hf, hp, hd⟩ := Value.exists_of_toByteList_error hbytes
    rw [Nat.zero_add] at hp
    refine Fails.stops (.element (fun f => ?_) hu (Value.of_toByte?_eq_none hno) hf hp hd)
    rw [hrun, hbytes]
    rfl

/-- A mapping stops at an entry, unless it is none. -/
theorem stops_of_map (ih : ∀ {u o}, item.run f u = Reading.stop o → item.Stops f u o)
    (h : (map item).run f v = Reading.stop o) : (map item).Stops f v o := by
  cases hes : v.toObject with
  | error e =>
    have hrun : ∀ f, (map item).run f v = some (.error e) := by
      intro f
      rw [run, hes]
      rfl
    rw [hrun] at h
    obtain ⟨e', he, rfl⟩ := Reading.some_eq_stop_iff.mp h
    cases he
    exact Fails.stops (.itself hrun (Value.bare_of_toObject hes))
  | ok es =>
    rw [run, hes, Reading.lift_ok_andThen, Reading.map_eq_stop_iff] at h
    obtain ⟨k, u, o', hu, hread, rfl⟩ := exists_of_readEntries_eq_stop h
    rw [DecodeError.inField_eq_under]
    exact (ih hread).outer fun hrun => .entry hes hu hrun

/-- **A reader that gives no result stops** at a deserializer it runs, or
at a reader that fails by itself. -/
theorem run_eq_stop (h : r.run f v = Reading.stop o) : r.Stops f v o := by
  induction r generalizing v o with
  | bool => exact stops_of_scalar (fun _ => rfl) (fun _ => Value.bare_of_toBool) h
  | int width => exact stops_of_scalar (fun _ => rfl) (fun _ => Value.bare_of_toInt) h
  | float => exact stops_of_scalar (fun _ => rfl) (fun _ => Value.bare_of_toFloat) h
  | text => exact stops_of_scalar (fun _ => rfl) (fun _ => Value.bare_of_toText) h
  | bigint => exact stops_of_scalar (fun _ => rfl) (fun _ => Value.bare_of_toBigint) h
  | decimal => exact stops_of_scalar (fun _ => rfl) (fun _ => Value.bare_of_toDecimal) h
  | bytes =>
    cases v with
    | list vs => exact stops_of_bytes h
    | bytes bs => cases o <;> cases h
    | _ => exact stops_of_mismatch (fun _ => rfl) h
  | json => cases o <;> cases h
  | list item ih =>
    cases v with
    | list vs =>
      obtain ⟨i, u, o', hu, hread, rfl⟩ :=
        exists_of_readList_eq_stop (Reading.map_eq_stop_iff.mp h)
      rw [Nat.zero_add, DecodeError.inField_eq_under]
      exact (ih hread).outer fun hrun => .item hu hrun
    | _ => exact stops_of_mismatch (fun _ => rfl) h
  | map item ih => exact stops_of_map ih h
  | optional item ih =>
    by_cases hv : v = .null
    · subst hv
      cases o <;> cases h
    · rw [run_optional_of_ne hv, Reading.map_eq_stop_iff] at h
      exact (ih h).same fun hrun => .optional hv hrun
  | nullable item ih =>
    by_cases hv : v = .null
    · subst hv
      cases o <;> cases h
    · rw [run_nullable_of_ne hv, Reading.map_eq_stop_iff] at h
      exact (ih h).same fun hrun => .nullable hv hrun
  | boxed item ih =>
    by_cases hv : v = .null
    · subst hv
      exact stops_of_mismatch (fun _ => rfl) h
    · rw [run_boxed_of_ne hv, Reading.map_eq_stop_iff] at h
      exact (ih h).same fun hrun => .boxed hv hrun
  | decl b =>
    refine Or.inl ⟨[], b, v, o, .here, h, ?_⟩
    cases o <;> rfl

end Stops

end Reader

/-! ## Deserializers and what they read -/

namespace ModuleGraph

/-- **What the deserializer of a declaration runs** on the parts of a
value: a reader for each field and for the value of a newtype, one for
the discriminator of a union and one for the payload of the variant it
names. -/
inductive Holds (g : ModuleGraph) : DeclId → Value → List Text → Reader → Value → Prop
  | field {id m d fs v es f u} (hd : g.Declares id m d) (hb : d.body = .struct fs)
      (hf : f ∈ g.workspace.allFields d) (hes : v.toObject = .ok es)
      (hu : Text.lookup? f.name es = some u) :
    Holds g id v [f.name] (Reader.ofMember g.workspace m id f.name f.effectiveType) u
  | tag {id m d v es u} (hd : g.Declares id m d) (hk : d.kind = .union)
      (hes : v.toObject = .ok es) (hu : Text.lookup? d.tagKey es = some u) :
    Holds g id v [d.tagKey] .text u
  | payload {id m d v es x u} (hd : g.Declares id m d) (hx : x ∈ d.variants)
      (hvoid : x.isVoid = false) (hes : v.toObject = .ok es)
      (htag : Text.lookup? d.tagKey es = some (.text x.name))
      (hu : Text.lookup? d.payloadKey es = some u) :
    Holds g id v [d.payloadKey] (Reader.ofType g.workspace x.payload) u
  | newtype {id m d v t} (hd : g.Declares id m d) (hb : d.body = .newtype t) :
    Holds g id v [] (Reader.ofMember g.workspace m id [] t) v

/-- **A deserializer runs another one** on a part of its value, along a
path. -/
def Asks (g : ModuleGraph) (id : DeclId) (v : Value) (p : List Text) (b : DeclId) (u : Value) :
    Prop :=
  ∃ q r t q', p = q ++ q' ∧ g.Holds id v q r t ∧ r.Runs t q' (.decl b) u

/-- **A deserializer fails by itself** on a value, without one that it
runs. -/
inductive Fails (g : ModuleGraph) : DeclId → Value → DecodeError → Prop
  /-- The value is no mapping, or names no variant. -/
  | itself {id m d v e} (hd : g.Declares id m d)
      (h : ∀ f, g.readBody f m id d v = some (.error e))
      (he : e.Bare ∨ ∃ tag, e = .unknownVariant d.name tag) : Fails g id v e
  /-- The value is a mapping without a key that has to be there. -/
  | missing {id m d v es key} (hd : g.Declares id m d) (hes : v.toObject = .ok es)
      (hk : Text.lookup? key es = none) :
    Fails g id v { failure := .missingField, path := [key] }
  /-- A reader that it runs fails by itself. -/
  | part {id v p r t q s u e} (hh : g.Holds id v p r t) (hr : r.Runs t q s u) (hs : s.Fails u e) :
    Fails g id v (e.under (p ++ q))

/-- **How a deserializer stops**: with what another one stops with that it
runs, or by failing by itself. -/
def Stops (g : ModuleGraph) (f : DeclId → Value → Reading Datum) (id : DeclId) (v : Value)
    (o : Option DecodeError) : Prop :=
  (∃ p b u o', g.Asks id v p b u ∧ f b u = Reading.stop o' ∧ o = o'.map (·.under p)) ∨
    ∃ e, g.Fails id v e ∧ o = some e

variable {g : ModuleGraph} {f : DeclId → Value → Reading Datum} {id : DeclId} {m : LinkedModule}
variable {d : Decl} {v : Value} {o : Option DecodeError}

/-- A deserializer stops where a reader that it runs gives no result. -/
theorem Holds.stops {p : List Text} {r : Reader} {u : Value} (hh : g.Holds id v p r u)
    (h : r.run f u = Reading.stop o) : g.Stops f id v (o.map (·.under p)) := by
  rcases Reader.run_eq_stop h with ⟨q, b, t, o', hrun, hstop, rfl⟩ | ⟨q, s, t, e, hrun, hfail, rfl⟩
  · refine Or.inl ⟨p ++ q, b, t, o', ⟨p, r, u, q, rfl, hh, hrun⟩, hstop, ?_⟩
    exact DecodeError.map_under_map_under p q o'
  · refine Or.inr ⟨e.under (p ++ q), .part hh hrun hfail, ?_⟩
    rw [Option.map_some, DecodeError.under_under]

/-- **The fields of a record stop** at a field that stops, or at one that
has to be there and is not. -/
theorem readFields_eq_stop {es : List (Text × Value)} {fs : List Field}
    (h : g.readFields f m id es fs = Reading.stop o) :
    (∃ x ∈ fs, ∃ u o', Text.lookup? x.name es = some u ∧
      (Reader.ofMember g.workspace m id x.name x.effectiveType).run f u = Reading.stop o' ∧
      o = o'.map (·.under [x.name])) ∨
    ∃ key, Text.lookup? key es = none ∧ o = some { failure := .missingField, path := [key] } := by
  induction fs with
  | nil => cases o <;> cases h
  | cons x fs ih =>
    rw [readFields] at h
    rcases Reading.andThen_eq_stop_iff.mp h with hhead | ⟨y, -, htail⟩
    · split at hhead
      · rcases Reader.readRequired_eq_stop hhead with ⟨u, o', hu, hread, rfl⟩ | ⟨hno, rfl⟩
        · exact Or.inl ⟨x, List.mem_cons_self, u, o', hu, hread, rfl⟩
        · exact Or.inr ⟨x.name, hno, rfl⟩
      · obtain ⟨u, o', hu, hread, rfl⟩ := Reader.readOptional_eq_stop hhead
        exact Or.inl ⟨x, List.mem_cons_self, u, o', hu, hread, rfl⟩
    · rcases ih (Reading.map_eq_stop_iff.mp htail) with ⟨z, hz, hrest⟩ | hrest
      · exact Or.inl ⟨z, List.mem_cons_of_mem _ hz, hrest⟩
      · exact Or.inr hrest

/-- **The payload of a union stops** at what it is read from, or because it
has to be there and is not, or because there is no variant of that
name. -/
theorem readVariant_eq_stop (hd : g.Declares id m d) {es : List (Text × Value)} {tag : Text}
    (hes : v.toObject = .ok es) (htag : Text.lookup? d.tagKey es = some (.text tag))
    (hbody : ∀ f, g.readBody f m id d v = g.readVariant f id d es tag)
    (h : g.readVariant f id d es tag = Reading.stop o) : g.Stops f id v o := by
  rw [readVariant] at h
  cases hfind : d.variants.find? (·.name == tag) with
  | none =>
    simp only [hfind] at h
    obtain ⟨e, he, rfl⟩ := Reading.some_eq_stop_iff.mp h
    cases he
    refine Or.inr ⟨_, .itself hd (fun f => ?_) (Or.inr ⟨tag, rfl⟩), rfl⟩
    rw [hbody, readVariant, hfind]
  | some x =>
    have hx : x ∈ d.variants := List.mem_of_find?_eq_some hfind
    have hname : x.name = tag := by simpa using List.find?_some hfind
    simp only [hfind] at h
    split at h
    · cases o <;> cases h
    · rename_i hvoid
      rw [Bool.not_eq_true] at hvoid
      rw [Reading.map_eq_stop_iff] at h
      have hholds : ∀ {u}, Text.lookup? d.payloadKey es = some u →
          g.Holds id v [d.payloadKey] (Reader.ofType g.workspace x.payload) u :=
        fun hu => .payload hd hx hvoid hes (hname ▸ htag) hu
      split at h
      · obtain ⟨u, o', hu, hread, rfl⟩ := Reader.readOptional_eq_stop h
        exact (hholds hu).stops hread
      · rcases Reader.readRequired_eq_stop h with ⟨u, o', hu, hread, rfl⟩ | ⟨hno, rfl⟩
        · exact (hholds hu).stops hread
        · exact Or.inr ⟨_, .missing hd hes hno, rfl⟩

/-- A record or union that is not read from a mapping is refused. -/
theorem stops_of_noObject {e : DecodeError} (hd : g.Declares id m d)
    (hbody : ∀ f, g.readBody f m id d v = some (.error e)) (he : v.toObject = .error e)
    (h : g.readBody f m id d v = Reading.stop o) : g.Stops f id v o := by
  rw [hbody] at h
  obtain ⟨e', heq, rfl⟩ := Reading.some_eq_stop_iff.mp h
  cases heq
  exact Or.inr ⟨e, .itself hd hbody (Or.inl (Value.bare_of_toObject he)), rfl⟩

theorem readStruct_eq_stop (hd : g.Declares id m d) {fs : List Field} (hb : d.body = .struct fs)
    (h : g.readBody f m id d v = Reading.stop o) : g.Stops f id v o := by
  cases hes : v.toObject with
  | error e =>
    refine stops_of_noObject hd (fun f => ?_) hes h
    rw [readBody, hb, hes]
    rfl
  | ok es =>
    rw [readBody, hb, hes] at h
    simp only [Reading.lift_ok_andThen, Reading.map_eq_stop_iff] at h
    rcases readFields_eq_stop h with ⟨x, hx, u, o', hu, hread, rfl⟩ | ⟨key, hno, rfl⟩
    · exact (Holds.field hd hb hx hes hu).stops hread
    · exact Or.inr ⟨_, .missing hd hes hno, rfl⟩

theorem readUnion_eq_stop (hd : g.Declares id m d) {vs : List Variant} {tag payload : Text}
    (hb : d.body = .union vs tag payload) (h : g.readBody f m id d v = Reading.stop o) :
    g.Stops f id v o := by
  cases hes : v.toObject with
  | error e =>
    refine stops_of_noObject hd (fun f => ?_) hes h
    rw [readBody, hb, hes]
    rfl
  | ok es =>
    obtain ⟨next, hbody, hnext⟩ : ∃ next : (DeclId → Value → Reading Datum) → Datum → Reading Datum,
        (∀ f, g.readBody f m id d v =
          (Reader.readRequired (Reader.text.run f) es d.tagKey).andThen (next f)) ∧
        ∀ f tag, next f (.text tag) = g.readVariant f id d es tag := by
      apply Exists.intro
      constructor
      · intro f
        rw [readBody, hb, hes]
        rfl
      · intro f tag
        rfl
    rw [hbody] at h
    rcases Reading.andThen_eq_stop_iff.mp h with htag | ⟨x, hx, hrest⟩
    · rcases Reader.readRequired_eq_stop htag with ⟨u, o', hu, hread, rfl⟩ | ⟨hno, rfl⟩
      · have hk : d.kind = .union := by rw [Decl.kind, hb]; rfl
        exact (Holds.tag hd hk hes hu).stops hread
      · exact Or.inr ⟨_, .missing hd hes hno, rfl⟩
    · -- a discriminator that was read is a text
      obtain ⟨u, hu, hread⟩ := Reader.of_readRequired hx
      obtain ⟨name, hname, rfl⟩ := Reading.some_map_eq_ok_iff.mp hread
      obtain rfl : u = .text name := by
        cases u <;> cases hname
        rfl
      rw [hnext] at hrest
      refine readVariant_eq_stop hd hes hu (fun f => ?_) hrest
      have htagRead : Reader.readRequired (Reader.text.run f) es d.tagKey =
          some (.ok (.text name)) := Reader.readRequired_of_lookup? hu rfl
      rw [hbody, htagRead]
      exact hnext f name

/-- **A deserializer that gives no result stops** at one that it runs, or
fails by itself. -/
theorem readBody_eq_stop (hd : g.Declares id m d) (hinst : d.isInstantiable = true)
    (h : g.readBody f m id d v = Reading.stop o) : g.Stops f id v o := by
  cases hb : d.body with
  | struct fs => exact readStruct_eq_stop hd hb h
  | union vs tag payload => exact readUnion_eq_stop hd hb h
  | newtype t =>
    rw [readBody, hb] at h
    have hstop := (Holds.newtype (v := v) hd hb).stops (Reading.map_eq_stop_iff.mp h)
    cases o <;> exact hstop
  | virtual fs => simp [Decl.isInstantiable, hb] at hinst
  | consts t cs => simp [Decl.isInstantiable, hb] at hinst
  | unknown n => simp [Decl.isInstantiable, hb] at hinst

end ModuleGraph

end WireModel
