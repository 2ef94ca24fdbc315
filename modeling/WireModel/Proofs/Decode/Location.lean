import WireModel.Proofs.Decode.Place

/-!
# Locations — what the path of an error leads to

An error of a deserializer carries a path and the name of a declaration.
The path leads to the part of the value that is at fault, and the
declaration is the innermost one whose deserializer runs there
(`ModuleGraph.deserialize_error_located`).

There are three kinds of faults. A decoder refuses a part by itself, or a
mapping lacks the key that the path ends with, or an element of a byte
sequence is no byte. As for the last one, a number that is kept as
written counts as no byte unless it is written as an integer is, so `1e2`
is at fault although it is 100 (`Sample.blob_refuses_byte`).
-/

namespace WireModel

open Linking

/-! ## Paths into values -/

namespace Value

/-- **A path leads into a value**, through positions of lists and keys of
mappings. -/
inductive At : Value → List Text → Value → Prop
  | here {v} : At v [] v
  | item {vs i u p t} (hu : vs[i]? = some u) (h : At u p t) : At (.list vs) (Text.ofNat i :: p) t
  | entry {v es k u p t} (hes : v.toObject = .ok es) (hu : (k, u) ∈ es) (h : At u p t) :
    At v (k :: p) t

/-- Paths are followed one after the other. -/
theorem At.append {v u t : Value} {p q : List Text} (h : v.At p u) (h' : u.At q t) :
    v.At (p ++ q) t := by
  induction h with
  | here => exact h'
  | item hu _ ih => exact .item hu (ih h')
  | entry hes hu _ ih => exact .entry hes hu (ih h')

theorem at_nil_iff {v u : Value} : v.At [] u ↔ u = v := by
  constructor
  · intro h
    cases h
    rfl
  · rintro rfl
    exact .here

/-- A path into a list goes on from one of its elements. -/
theorem at_list_cons_iff {vs : List Value} {k : Text} {p : List Text} {u : Value} :
    (list vs).At (k :: p) u ↔ ∃ i x, k = Text.ofNat i ∧ vs[i]? = some x ∧ x.At p u := by
  constructor
  · generalize hq : k :: p = q
    intro h
    cases h with
    | here => cases hq
    | item hx h =>
      obtain ⟨rfl, rfl⟩ := List.cons.inj hq
      exact ⟨_, _, rfl, hx, h⟩
    | entry hes => cases hes
  · rintro ⟨i, x, rfl, hx, h⟩
    exact .item hx h

/-- A path into a mapping goes on from one of its entries. -/
theorem at_map_cons_iff {es : List (Text × Value)} {k : Text} {p : List Text} {u : Value} :
    (map es).At (k :: p) u ↔ ∃ x, (k, x) ∈ es ∧ x.At p u := by
  constructor
  · intro h
    cases h with
    | entry hes hx h =>
      obtain rfl := Except.ok.inj hes
      exact ⟨_, hx, h⟩
  · rintro ⟨x, hx, h⟩
    exact .entry rfl hx h

end Value

namespace Reader

variable {r s : Reader} {v u : Value} {p : List Text} {e : DecodeError}

/-- What a reader runs another one on is at the end of the path. -/
theorem Runs.at (h : r.Runs v p s u) : v.At p u := by
  induction h with
  | here => exact .here
  | item hu _ ih => exact .item hu ih
  | entry hes hu _ ih => exact .entry hes hu ih
  | optional _ _ ih => exact ih
  | nullable _ _ ih => exact ih
  | boxed _ _ ih => exact ih

/-- A reader that fails by itself stands for no declaration. -/
theorem Fails.ne_decl (h : r.Fails u e) (b : DeclId) : r ≠ .decl b := by
  rintro rfl
  cases h with
  | itself h _ => exact nomatch h fun _ _ => none

end Reader

namespace DecodeError

variable {e : DecodeError} {name : Text}

@[simp] theorem failure_inDecl : (e.inDecl name).failure = e.failure := by
  rw [inDecl]
  split <;> rfl

@[simp] theorem path_inDecl : (e.inDecl name).path = e.path := by
  rw [inDecl]
  split <;> rfl

theorem decl_inDecl (h : e.decl = [] ∨ e.decl = name) : (e.inDecl name).decl = name := by
  rw [inDecl]
  split
  · rfl
  · rename_i hne
    exact h.resolve_left (by simpa using hne)

/-- The innermost declaration stays. -/
theorem inDecl_of_ne (h : e.decl ≠ []) : e.inDecl name = e := by
  rw [inDecl, if_neg (by simpa using h)]

end DecodeError

namespace ModuleGraph

/-! ## Faults -/

/-- **A deserializer comes to run a decoder** on a part of its value, along
a path: its own one, a reader of a member, or a decoder that another
deserializer comes to run that it asks. The decoder belongs to the
declaration `o`, the innermost one whose deserializer runs then. -/
inductive Reaches (g : ModuleGraph) :
    DeclId → Value → List Text → DeclId → Reader → Value → Prop
  | own {id v} : Reaches g id v [] id (.decl id) v
  | member {id v p r t q s u} (hh : g.Holds id v p r t) (hr : r.Runs t q s u)
      (hs : ∀ b, s ≠ .decl b) : Reaches g id v (p ++ q) id s u
  | enter {id v p b t q o s u} (ha : g.Asks id v p b t) (h : Reaches g b t q o s u) :
    Reaches g id v (p ++ q) o s u

/-- **A decoder refuses a value by itself**, whatever the deserializers of
declarations do. -/
inductive Refuses (g : ModuleGraph) : Reader → Value → DecodeError → Prop
  | reader {r u e} (h : ∀ f, r.run f u = some (.error e)) : Refuses g r u e
  | decl {id m d u e} (hd : g.Declares id m d)
      (h : ∀ f, g.readBody f m id d u = some (.error e)) : Refuses g (.decl id) u e

/-- **What is at fault** on a value, with the failure that it gives and the
rest of the path. -/
inductive Fault (g : ModuleGraph) : Reader → Value → Failure → List Text → Prop
  /-- The decoder refuses the value by itself. -/
  | refused {r u e} (h : g.Refuses r u e) (hp : e.path = [])
      (hmissing : e.failure ≠ .missingField) (hbytes : e.failure ≠ .malformedBytes) :
    Fault g r u e.failure []
  /-- The value is a mapping that lacks a key. -/
  | missing {id u es key} (hes : u.toObject = .ok es) (hkey : key ∉ es.map (·.1)) :
    Fault g (.decl id) u .missingField [key]
  /-- An element of a byte sequence is no integer from 0 to 255, or a number
  that is not written as one. -/
  | element {vs i x} (hx : vs[i]? = some x)
      (hno : (∀ n, x.exactInt? = some n → ¬ (0 ≤ n ∧ n ≤ 255)) ∨ x.OddlyWritten) :
    Fault g .bytes (.list vs) .malformedBytes [Text.ofNat i]

/-- **An error is located** in the value: its path leads to what is at
fault, and it names the declaration that the decoder there belongs to. -/
def Locates (g : ModuleGraph) (id : DeclId) (v : Value) (e : DecodeError) : Prop :=
  ∃ p o r u q m d, g.Reaches id v p o r u ∧ v.At p u ∧ g.Fault r u e.failure q ∧
    e.path = p ++ q ∧ g.Declares o m d ∧ e.decl = d.name ∧ d.name ≠ []

variable {g : ModuleGraph} {id : DeclId} {m : LinkedModule} {d : Decl} {v u : Value}
variable {p q : List Text} {r : Reader} {e : DecodeError}

/-- What a deserializer runs a reader on is at the end of the path. -/
theorem Holds.at (h : g.Holds id v p r u) : v.At p u := by
  cases h with
  | field _ _ _ hes hu => exact .entry hes (Text.mem_of_lookup? hu) .here
  | tag _ _ hes hu => exact .entry hes (Text.mem_of_lookup? hu) .here
  | payload _ _ _ hes _ hu => exact .entry hes (Text.mem_of_lookup? hu) .here
  | newtype _ _ => exact .here

/-- So is what it runs another deserializer on. -/
theorem Asks.at {b : DeclId} (h : g.Asks id v p b u) : v.At p u := by
  obtain ⟨q, r, t, q', rfl, hh, hr⟩ := h
  exact hh.at.append hr.at

/-- Unless a key is missing, the path leads to what is at fault. -/
theorem Fault.exists_at {k : Failure} (h : g.Fault r u k q) (hk : k ≠ .missingField) :
    ∃ x, u.At q x := by
  cases h with
  | refused => exact ⟨u, .here⟩
  | missing => exact absurd rfl hk
  | element hx => exact ⟨_, .item hx .here⟩

/-- A key that is missing is the last one of the path. -/
theorem Fault.missing_key (h : g.Fault r u .missingField q) :
    ∃ es key, q = [key] ∧ u.toObject = .ok es ∧ key ∉ es.map (·.1) := by
  generalize hk : Failure.missingField = k at h
  cases h with
  | refused _ _ hmissing => exact absurd hk.symm hmissing
  | missing hes hkey => exact ⟨_, _, rfl, hes, hkey⟩
  | element => cases hk

/-- What fails inside a deserializer that is asked is located from the one
that asks it. -/
theorem Locates.outer {b : DeclId} (ha : g.Asks id v p b u) (h : g.Locates b u e) :
    g.Locates id v (e.under p) := by
  obtain ⟨q, o, r, t, q', m, d, hreach, hat, hfault, hpath, hdecl⟩ := h
  refine ⟨p ++ q, o, r, t, q', m, d, .enter ha hreach, ha.at.append hat, hfault, ?_, hdecl⟩
  rw [DecodeError.under, hpath, List.append_assoc]

/-- **A deserializer that fails by itself is located** in its own
declaration. -/
theorem Fails.locates (hd : g.Declares id m d) (hname : d.name ≠ []) (h : g.Fails id v e) :
    g.Locates id v (e.inDecl d.name) := by
  -- the name is put in where there is none, and nothing else changes
  have hlocates : ∀ {p r t q}, g.Reaches id v p id r t → v.At p t → g.Fault r t e.failure q →
      e.path = p ++ q → (e.decl = [] ∨ e.decl = d.name) → g.Locates id v (e.inDecl d.name) := by
    intro p r t q hreach hat hfault hpath hdecl
    refine ⟨p, id, r, t, q, m, d, hreach, hat, ?_, ?_, hd, DecodeError.decl_inDecl hdecl, hname⟩
    · rwa [DecodeError.failure_inDecl]
    · rwa [DecodeError.path_inDecl]
  cases h with
  | itself hd' h he =>
    obtain rfl : d = _ := Option.some.inj (hd.2.symm.trans hd'.2)
    rcases he with he | ⟨tag, rfl⟩
    · exact hlocates .own .here (.refused (.decl hd' h) he.path he.notMissing he.notBytes) he.path
        (Or.inl he.decl)
    · exact hlocates .own .here (.refused (.decl hd' h) rfl nofun nofun) rfl (Or.inr rfl)
  | missing _ hes hk =>
    exact hlocates .own .here (.missing hes (Text.lookup?_eq_none_iff.mp hk)) rfl (Or.inl rfl)
  | part hh hr hs =>
    have hreach := Reaches.member hh hr hs.ne_decl
    have hat := hh.at.append hr.at
    cases hs with
    | itself h he =>
      have hfault : g.Fault _ _ _ [] :=
        .refused (.reader h) he.path he.notMissing he.notBytes
      exact hlocates hreach hat hfault (congrArg _ he.path) (Or.inl he.decl)
    | element _ hu hno hf hp hd =>
      refine hlocates hreach hat (q := _) ?_ (congrArg _ hp) (Or.inl hd)
      rw [DecodeError.under, hf]
      exact .element hu hno

/-- A deserializer that ends is one of a declaration that has values. -/
theorem isInstantiable_of_readBody {f : DeclId → Value → Reading Datum}
    (h : g.readBody f m id d v ≠ none) : d.isInstantiable = true := by
  cases hb : d.body <;> simp_all [readBody, Decl.isInstantiable]

/-- **Every error is located**, to whatever depth the deserializer is run.
The induction is on the depth. -/
theorem locates_of_readDecl (hnames : ∀ {id m d}, g.Declares id m d → d.name ≠ []) {n : Nat}
    (h : g.readDecl n id v = some (.error e)) : g.Locates id v e := by
  induction n generalizing id v e with
  | zero => cases h
  | succ n ih =>
    rw [readDecl] at h
    split at h
    · rename_i m d hm hd
      have hstop : (g.readBody (g.readDecl n) m id d v).mapError (·.inDecl d.name) =
          Reading.stop (some e) := h
      obtain ⟨o, hbody, ho⟩ := Reading.mapError_eq_stop hstop
      obtain ⟨e', rfl, rfl⟩ := Option.map_eq_some_iff.mp ho.symm
      have hinst := isInstantiable_of_readBody (f := g.readDecl n)
        (by rw [hbody]; exact Option.some_ne_none _)
      rcases readBody_eq_stop ⟨hm, hd⟩ hinst hbody with ⟨p, b, u, o', hasks, hb, ho'⟩ | ⟨e₀, hf, he⟩
      · -- the declaration inside is named already
        obtain ⟨e₀, rfl, rfl⟩ := Option.map_eq_some_iff.mp ho'.symm
        have hlocates := (ih hb).outer hasks
        obtain ⟨-, -, -, -, -, -, d', -, -, -, -, -, hdecl, hname⟩ := hlocates
        rw [DecodeError.inDecl_of_ne (hdecl ▸ hname)]
        exact (ih hb).outer hasks
      · cases he
        exact hf.locates ⟨hm, hd⟩ (hnames ⟨hm, hd⟩)
    · cases h

/-- **Where a deserializer fails.** In a graph that linking gives, every
error is located: its path leads to what is at fault, and it names the
innermost declaration that is being decoded there. What is at fault is in
the value, except for a key that is missing: that is the last one of the
path, and the way before it leads to a mapping without it. -/
theorem deserialize_error_located {w : Workspace} {ids : List Nat} {g : ModuleGraph}
    (hg : (resolve w ids).2 = .ok g) {id : DeclId} {v : Value} {e : DecodeError}
    (h : g.deserialize id v = some (.error e)) :
    g.Locates id v e ∧ (e.failure ≠ .missingField → ∃ u, v.At e.path u) ∧
      (e.failure = .missingField → ∃ p key u es, e.path = p ++ [key] ∧ v.At p u ∧
        u.toObject = .ok es ∧ key ∉ es.map (·.1)) := by
  obtain ⟨hp, rfl⟩ := passes_of_resolve hg
  have hlocates := locates_of_readDecl (name_ne_nil_of_declares hp) h
  refine ⟨hlocates, fun hk => ?_, fun hk => ?_⟩
  all_goals obtain ⟨p, o, r, u, q, m, d, -, hat, hfault, hpath, -⟩ := hlocates
  · obtain ⟨x, hx⟩ := hfault.exists_at hk
    rw [hpath]
    exact ⟨x, hat.append hx⟩
  · rw [hk] at hfault
    obtain ⟨es, key, rfl, hes, hkey⟩ := hfault.missing_key
    exact ⟨p, key, u, es, hpath, hat, hes, hkey⟩

end ModuleGraph

namespace Sample

/-- A module with a newtype of byte sequences, and one of mappings to
such. -/
def parcels : Workspace :=
  [{ name := "parcels", path := "parcels",
     decls :=
       [{ name := "Blob", body := .newtype (.scalar .bytes) },
         { name := "Parcel", body := .newtype (.map (.ref [] "Blob")) }] }]

theorem resolve_parcels : (resolve parcels [0]).2 = .ok (graph parcels [0]) :=
  resolve_eq_graph (by decide +kernel)

/-- A blob is read as bytes are. -/
theorem deserialize_blob (v : Value) : (graph parcels [0]).deserialize ⟨0, 0⟩ v =
    ((Reader.bytes.run (graph parcels [0]).deserialize v).map (.wrapped ⟨0, 0⟩)).mapError
      (·.inDecl "Blob") := by
  obtain ⟨m, hd⟩ : ∃ m, (graph parcels [0]).Declares ⟨0, 0⟩ m
      { name := "Blob", body := .newtype (.scalar .bytes) } :=
    exists_declares_of_bound (passes_of_resolve resolve_parcels).1 ⟨by simp, rfl⟩ rfl
  rw [ModuleGraph.deserialize_eq hd.1 hd.2]
  rfl

/-- A parcel is read as mappings to blobs are. -/
theorem deserialize_parcel (v : Value) : (graph parcels [0]).deserialize ⟨0, 1⟩ v =
    (((Reader.map (.decl ⟨0, 0⟩)).run (graph parcels [0]).deserialize v).map
      (.wrapped ⟨0, 1⟩)).mapError (·.inDecl "Parcel") := by
  obtain ⟨m, hd⟩ : ∃ m, (graph parcels [0]).Declares ⟨0, 1⟩ m
      { name := "Parcel",
        body := .newtype (.map (.node .ref 0 (some ⟨[], "Blob", some ⟨0, 0⟩⟩) .missing)) } :=
    exists_declares_of_bound (passes_of_resolve resolve_parcels).1 ⟨by simp, rfl⟩ rfl
  rw [ModuleGraph.deserialize_eq hd.1 hd.2]
  rfl

/-- A parcel with two blobs. The last element of the second one is 100. -/
def oddParcel : Value :=
  .map [("empty", .bytes []), ("odd", .list [.int .int 7, .number "1e2"])]

/-- What reading it gives. -/
def oddError : DecodeError :=
  { failure := .malformedBytes, decl := "Blob", path := ["odd", "1"],
    detail := "1e2 is not a byte value" }

theorem deserialize_oddParcel :
    (graph parcels [0]).deserialize ⟨0, 1⟩ oddParcel = some (.error oddError) := by
  have hempty : (graph parcels [0]).deserialize ⟨0, 0⟩ (.bytes []) =
      some (.ok (.wrapped ⟨0, 0⟩ (.bytes []))) := by
    rw [deserialize_blob]
    rfl
  have hodd : (graph parcels [0]).deserialize ⟨0, 0⟩ (.list [.int .int 7, .number "1e2"]) =
      some (.error { oddError with path := ["1"] }) := by
    rw [deserialize_blob]
    rfl
  rw [deserialize_parcel, oddParcel, Reader.run, Value.toObject, Reading.lift_ok_andThen]
  simp only [Reader.readEntries, Reader.run, hempty, hodd]
  rfl

/-- The error of the parcel is located in it. -/
theorem oddParcel_located : (resolve parcels [0]).2 = .ok (graph parcels [0]) ∧
    (graph parcels [0]).deserialize ⟨0, 1⟩ oddParcel = some (.error oddError) ∧
    (graph parcels [0]).Locates ⟨0, 1⟩ oddParcel oddError ∧ ∃ u, oddParcel.At oddError.path u := by
  obtain ⟨hlocates, hat, -⟩ :=
    ModuleGraph.deserialize_error_located resolve_parcels deserialize_oddParcel
  exact ⟨resolve_parcels, deserialize_oddParcel, hlocates, hat nofun⟩

/-- **An element of a byte sequence that is a byte may be at fault.** The
only value that the path of the error leads to is 100. -/
theorem blob_refuses_byte : (resolve parcels [0]).2 = .ok (graph parcels [0]) ∧
    (graph parcels [0]).deserialize ⟨0, 1⟩ oddParcel = some (.error oddError) ∧
    oddError.failure = .malformedBytes ∧ oddParcel.At oddError.path (.number "1e2") ∧
    ∀ u, oddParcel.At oddError.path u → u.exactInt? = some 100 := by
  refine ⟨resolve_parcels, deserialize_oddParcel, rfl, ?_, fun u hu => ?_⟩
  · exact .entry rfl (List.mem_cons_of_mem _ List.mem_cons_self) (.item (i := 1) rfl .here)
  · obtain ⟨x, hx, hu⟩ := Value.at_map_cons_iff.mp hu
    obtain rfl : x = .list [.int .int 7, .number "1e2"] := by
      rcases List.mem_cons.mp hx with hx | hx
      · have hkey : Text.ofString "odd" = "empty" := congrArg Prod.fst hx
        exact absurd hkey (by decide)
      · exact congrArg Prod.snd (List.mem_singleton.mp hx)
    obtain ⟨i, y, hi, hy, hu⟩ := Value.at_list_cons_iff.mp hu
    obtain rfl := Value.at_nil_iff.mp hu
    match i with
    | 0 => exact absurd hi (by decide)
    | 1 =>
      obtain rfl := Option.some.inj hy
      decide
    | n + 2 => cases hy

end Sample

end WireModel
