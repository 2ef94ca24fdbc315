import WireModel.Proofs.Text.Cut
import WireModel.Text.Path

/-!
# Paths — relative paths lead to their target

The normal form of a path is built on a stack of segments, and the stack
keeps an invariant: steps up stand below all plain segments, and there
are none in a path that starts at the root (`Stacked`). Put on a stack
again, such segments give themselves, and a step up takes a plain segment
off. So a relative path, which goes up to what two paths have in common
and then down, leads from the one to the other (`join_rel?`).
-/

namespace WireModel

namespace Path

/-! ## Stacks of segments -/

/-- A segment that names something. -/
def IsPlain (seg : Text) : Prop := seg ≠ [] ∧ seg ≠ "." ∧ seg ≠ ".." ∧ slash ∉ seg

instance : DecidablePred IsPlain := fun _ => inferInstanceAs (Decidable (_ ∧ _))

/-- A stack of segments in normal form, last segment first. -/
inductive Stacked (rooted : Bool) : List Text → Prop
  | nil : Stacked rooted []
  /-- There is no step up from the root, or after a plain segment. -/
  | up {stack : List Text} (hr : rooted = false) (hup : ∀ s ∈ stack, s = Text.ofString "..")
    (h : Stacked rooted stack) : Stacked rooted (".." :: stack)
  | plain {seg : Text} {stack : List Text} (hp : IsPlain seg) (h : Stacked rooted stack) :
    Stacked rooted (seg :: stack)

variable {rooted : Bool} {seg : Text} {stack above : List Text} {p q r o t : Text}

theorem push_of_plain (h : IsPlain seg) : push rooted stack seg = seg :: stack := by
  simp [push, h.1, h.2.1, h.2.2.1]

/-- A step up takes the last segment off, unless that is a step up itself. -/
theorem push_up_cons {top : Text} : push rooted (top :: stack) ".." =
    if top = Text.ofString ".." then Text.ofString ".." :: top :: stack else stack := by
  have hskip : (Text.ofString ".." == [] || Text.ofString ".." == Text.ofString ".") = false := by
    decide
  rw [push, hskip]
  simp

theorem push_up_nil : push rooted [] ".." = if rooted then [] else [Text.ofString ".."] := rfl

/-- **A segment keeps a stack in normal form.** -/
theorem Stacked.push (h : Stacked rooted stack) (hs : slash ∉ seg) :
    Stacked rooted (push rooted stack seg) := by
  by_cases hskip : seg = [] ∨ seg = "."
  · simpa [Path.push, hskip] using h
  · by_cases hup : seg = ".."
    · subst hup
      cases h with
      | nil =>
        cases rooted with
        | true => exact .nil
        | false => exact .up rfl (by simp) .nil
      | up hr hall h =>
        rw [push_up_cons, if_pos rfl]
        exact .up hr (by simpa using hall) (.up hr hall h)
      | plain hp h =>
        rw [push_up_cons, if_neg hp.2.2.1]
        exact h
    · rw [not_or] at hskip
      have hp : IsPlain seg := ⟨hskip.1, hskip.2, hup, hs⟩
      rw [push_of_plain hp]
      exact .plain hp h

theorem Stacked.foldl_push {segs : List Text} (hs : ∀ s ∈ segs, slash ∉ s)
    (h : Stacked rooted stack) : Stacked rooted (segs.foldl (Path.push rooted) stack) := by
  induction segs generalizing stack with
  | nil => exact h
  | cons seg segs ih =>
    exact ih (fun s hs' => hs s (List.mem_cons_of_mem seg hs')) (h.push (hs seg List.mem_cons_self))

theorem Stacked.tail (h : Stacked rooted (seg :: stack)) : Stacked rooted stack := by
  cases h with
  | up _ _ h => exact h
  | plain _ h => exact h

theorem Stacked.of_append (h : Stacked rooted (above ++ stack)) : Stacked rooted stack := by
  induction above with
  | nil => exact h
  | cons seg above ih => exact ih h.tail

/-- No segment of a stack is empty or holds a separator. -/
theorem Stacked.ne_nil_and_not_mem (h : Stacked rooted stack) :
    ∀ s ∈ stack, s ≠ [] ∧ slash ∉ s := by
  induction h with
  | nil => simp
  | up _ _ _ ih => exact List.forall_mem_cons.mpr ⟨by decide, ih⟩
  | plain hp _ ih => exact List.forall_mem_cons.mpr ⟨⟨hp.1, hp.2.2.2⟩, ih⟩

/-- **Segments in normal form give themselves**, put on the stack that they
stand on. -/
theorem Stacked.foldl_push_reverse (h : Stacked rooted (above ++ stack)) :
    above.reverse.foldl (Path.push rooted) stack = above ++ stack := by
  induction above with
  | nil => rfl
  | cons seg above ih =>
    rw [List.reverse_cons, List.foldl_append, List.foldl_cons, List.foldl_nil,
      ih h.tail, List.cons_append]
    cases h with
    | plain hp _ => exact push_of_plain hp
    | up hr hup _ =>
      cases hstack : above ++ stack with
      | nil => simp [push_up_nil, hr]
      | cons top below =>
        have htop : top ∈ above ++ stack := by
          rw [hstack]
          exact List.mem_cons_self
        rw [push_up_cons, if_pos (hup top htop)]

/-- **Steps up take plain segments off.** -/
theorem foldl_push_up (h : ∀ s ∈ above, IsPlain s) :
    (List.replicate above.length (Text.ofString "..")).foldl (push rooted) (above ++ stack) = stack := by
  induction above with
  | nil => rfl
  | cons seg above ih =>
    have htop : push rooted (seg :: above ++ stack) ".." = above ++ stack := by
      rw [List.cons_append, push_up_cons, if_neg (h seg List.mem_cons_self).2.2.1]
    rw [List.length_cons, List.replicate_succ, List.foldl_cons, htop]
    exact ih fun s hs => h s (List.mem_cons_of_mem seg hs)

/-- What stands above a plain segment, or starts with one at its bottom, is
plain. -/
theorem Stacked.isPlain_above (h : Stacked rooted (above ++ stack))
    (hbottom : above.getLast? ≠ some (Text.ofString "..")) : ∀ s ∈ above, IsPlain s := by
  induction above with
  | nil => simp
  | cons seg above ih =>
    have habove : ∀ s ∈ above, IsPlain s := by
      cases above with
      | nil => simp
      | cons top below =>
        rw [List.getLast?_cons_cons] at hbottom
        exact ih h.tail hbottom
    refine List.forall_mem_cons.mpr ⟨?_, habove⟩
    cases h with
    | plain hp _ => exact hp
    | up _ hup _ =>
      -- the step up would have only steps up below it, and `above` is plain
      cases above with
      | nil => exact absurd rfl hbottom
      | cons top below =>
        exact absurd (hup top (by simp)) (habove top List.mem_cons_self).2.2.1

/-! ## The segments of a path -/

theorem stacked_segments (p : Text) : Stacked (isAbs p) (segments p).reverse := by
  rw [segments, List.reverse_reverse]
  exact Stacked.nil.foldl_push fun _ => Text.not_mem_of_mem_splitOn

/-- What comes after a separator is put on the segments before it. -/
theorem segments_append (p q : Text) : segments (p ++ slash :: q) =
    ((Text.splitOn slash q).foldl (push (isAbs (p ++ slash :: q)))
      ((Text.splitOn slash p).foldl (push (isAbs (p ++ slash :: q))) [])).reverse := by
  rw [segments, Text.splitOn_append, List.foldl_append]

theorem isAbs_append (hp : p ≠ []) : isAbs (p ++ q) = isAbs p := by
  cases p with
  | nil => exact absurd rfl hp
  | cons b p => rfl

theorem isAbs_of_not_mem (h : slash ∉ p) : isAbs p = false := by
  cases p with
  | nil => rfl
  | cons b p =>
    rw [List.mem_cons, not_or] at h
    simpa [isAbs] using Ne.symm h.1

theorem isAbs_join {segs : List Text} (h : ∀ s ∈ segs, s ≠ [] ∧ slash ∉ s) :
    isAbs (Text.join [slash] segs) = false := by
  cases segs with
  | nil => rfl
  | cons s ss =>
    obtain ⟨hne, hs⟩ := h s List.mem_cons_self
    by_cases hss : ss = []
    · rw [hss]
      exact isAbs_of_not_mem hs
    · rw [Text.join_cons hss, isAbs_append hne]
      exact isAbs_of_not_mem hs

/-! ## Paths in normal form -/

section OfSegments

variable {segs : List Text} (h : Stacked rooted segs.reverse)

theorem ofString_slash : Text.ofString "/" = [slash] := rfl

include h in
theorem Stacked.isAbs_join : isAbs (Text.join [slash] segs) = false :=
  Path.isAbs_join fun s hs => h.ne_nil_and_not_mem s (List.mem_reverse.mpr hs)

include h in
theorem isAbs_ofSegments : isAbs (ofSegments rooted segs) = rooted := by
  rw [ofSegments]
  cases rooted with
  | true => rfl
  | false =>
    by_cases hempty : segs = []
    · rw [hempty]
      rfl
    · simpa [hempty, ofString_slash] using h.isAbs_join

include h in
/-- A path with no other segments than those in between has these. -/
theorem foldl_push_splitOn_join :
    (Text.splitOn slash (Text.join [slash] segs)).foldl (push rooted) [] = segs.reverse := by
  have hagain : segs.foldl (push rooted) [] = segs.reverse := by
    have hput : segs.reverse.reverse.foldl (push rooted) [] = segs.reverse ++ [] :=
      Stacked.foldl_push_reverse (by simpa using h)
    simpa using hput
  by_cases hempty : segs = []
  · rw [hempty]
    rfl
  · rw [Text.splitOn_join hempty fun s hs =>
      (h.ne_nil_and_not_mem s (List.mem_reverse.mpr hs)).2, hagain]

include h in
/-- **A path made of segments in normal form has these segments.** -/
theorem segments_ofSegments : segments (ofSegments rooted segs) = segs := by
  have hfold := foldl_push_splitOn_join h
  rw [segments, isAbs_ofSegments h, ofSegments]
  cases rooted with
  | true => rw [if_pos rfl, ofString_slash, List.singleton_append, ← List.nil_append (slash :: _),
      Text.splitOn_append, List.foldl_append]; exact (congrArg _ hfold).trans (List.reverse_reverse _)
  | false =>
    by_cases hempty : segs = []
    · rw [hempty]
      rfl
    · rw [if_neg (by simp), if_neg (by simpa using hempty), ofString_slash, hfold,
        List.reverse_reverse]

end OfSegments

theorem isAbs_clean (p : Text) : isAbs (clean p) = isAbs p :=
  isAbs_ofSegments (stacked_segments p)

/-- **The normal form of a path has the same segments.** -/
theorem segments_clean (p : Text) : segments (clean p) = segments p :=
  segments_ofSegments (stacked_segments p)

theorem clean_clean (p : Text) : clean (clean p) = clean p := by
  rw [clean, isAbs_clean, segments_clean, ← clean]

/-! ## Relative paths -/

theorem join_eq_clean (hp : p ≠ []) (hq : q ≠ []) : join [p, q] = clean (p ++ slash :: q) := by
  simp [join, hp, hq, Text.join, ofString_slash]

/-- A relative path joined to another one goes on from its segments. -/
theorem join_pair (hr : r ≠ []) (hrel : isAbs r = false) : join [o, r] =
    ofSegments (isAbs o)
      ((Text.splitOn slash r).foldl (push (isAbs o)) (segments o).reverse).reverse := by
  by_cases ho : o = []
  · have hjoin : join [o, r] = clean r := by simp [join, ho, hr, Text.join]
    rw [hjoin, ho, clean, hrel, segments, hrel]
    rfl
  · rw [join_eq_clean ho hr, clean, segments_append, isAbs_append ho, segments, List.reverse_reverse]

/-- So a relative path that is made of segments puts these on them. -/
theorem join_steps {steps : List Text} (hne : steps ≠ []) (hs : ∀ s ∈ steps, s ≠ [] ∧ slash ∉ s) :
    join [o, Text.join [slash] steps] =
      ofSegments (isAbs o) (steps.foldl (push (isAbs o)) (segments o).reverse).reverse := by
  have hsplit := Text.splitOn_join hne fun s hmem => (hs s hmem).2
  have hempty : Text.join [slash] steps ≠ [] := by
    intro hempty
    rw [hempty] at hsplit
    exact (hs [] (hsplit ▸ List.mem_cons_self)).1 rfl
  rw [join_pair hempty (isAbs_join hs), hsplit]

/-- What is left of two lists without their common start. -/
theorem exists_of_dropCommon {as bs up down : List Text} (h : dropCommon as bs = (up, down)) :
    ∃ common, as = common ++ up ∧ bs = common ++ down := by
  fun_induction dropCommon as bs with
  | case1 a as b bs heq ih =>
    obtain ⟨common, rfl, rfl⟩ := ih h
    rw [beq_iff_eq] at heq
    exact ⟨a :: common, by simp, by simp [heq]⟩
  | case2 a as b bs hne =>
    cases h
    exact ⟨[], rfl, rfl⟩
  | case3 as bs hcons =>
    cases h
    exact ⟨[], rfl, rfl⟩

/-- **The way up to what two paths share is plain**, if a step up at its
start is no way to the target, which does not end in one. -/
theorem isPlain_wayUp {up down common : List Text} {last : Text}
    (h : Stacked rooted (up.reverse ++ common.reverse))
    (hup : up.head? = some (Text.ofString "..") → down = [])
    (hlast : (common ++ down).getLast? = some last) (hplain : last ≠ Text.ofString "..") :
    ∀ s ∈ up.reverse, IsPlain s := by
  refine h.isPlain_above ?_
  rw [List.getLast?_reverse]
  intro hhead
  -- the target would end below a step up, with a plain segment
  rw [hup hhead, List.append_nil] at hlast
  obtain ⟨up', rfl⟩ : ∃ up', up = Text.ofString ".." :: up' := List.head?_eq_some_iff.mp hhead
  have hbelow : Stacked rooted (Text.ofString ".." :: common.reverse) := by
    rw [List.reverse_cons, List.append_assoc] at h
    exact h.of_append
  cases hbelow with
  | up _ hall _ => exact hplain (hall last (by simpa using List.mem_of_getLast? hlast))
  | plain hp _ => exact hp.2.2.1 rfl

/-- **What a relative path is**: a dot, or steps up to what the two paths
share and the way down from there. -/
theorem of_rel? (h : rel? o t = some r) : r = Text.ofString "." ∧ clean o = clean t ∨
    isAbs o = isAbs t ∧ ∃ common up down, segments o = common ++ up ∧ segments t = common ++ down ∧
      (up.head? = some (Text.ofString "..") → down = []) ∧
      up.map (fun _ => Text.ofString "..") ++ down ≠ [] ∧
      r = Text.join [slash] (up.map (fun _ => Text.ofString "..") ++ down) := by
  rw [rel?] at h
  split at h
  · rename_i heq
    exact Or.inl ⟨(Option.some.inj h).symm, eq_of_beq heq⟩
  · rename_i hsame
    rw [beq_iff_eq] at hsame
    split at h
    · cases h
    · rename_i habs
      have habs : isAbs o = isAbs t := by simpa [isAbs_clean] using habs
      split at h
      rename_i up down hdrop
      split at h
      · cases h
      · rename_i hup
        obtain ⟨common, ho, ht⟩ := exists_of_dropCommon hdrop
        refine Or.inr ⟨habs, common, up, down, ho, ht, by simpa using hup, ?_,
          (Option.some.inj h).symm⟩
        intro hnil
        obtain ⟨hu, hd⟩ := List.append_eq_nil_iff.mp hnil
        rw [List.map_eq_nil_iff] at hu
        refine hsame ?_
        rw [clean, clean, habs, ho, ht, hu, hd]

/-- The steps of a relative path are segments. -/
theorem steps_ne_nil_and_not_mem {up down common : List Text} (ht : segments t = common ++ down) :
    ∀ s ∈ up.map (fun _ => Text.ofString "..") ++ down, s ≠ [] ∧ slash ∉ s := by
  intro s hs
  rcases List.mem_append.mp hs with hs | hs
  · obtain ⟨-, -, rfl⟩ := List.mem_map.mp hs
    decide
  · exact (stacked_segments t).ne_nil_and_not_mem s (by simp [ht, hs])

/-- **A relative path leads to its target**, if that does not end in a step
up. The way up takes off what the origin does not share with the target,
which is plain. -/
theorem join_rel? {last : Text} (h : rel? o t = some r) (hlast : (segments t).getLast? = some last)
    (hplain : last ≠ Text.ofString "..") : join [o, r] = clean t := by
  rcases of_rel? h with ⟨rfl, heq⟩ | ⟨habs, common, up, down, ho, ht, hup, hne, rfl⟩
  · have hskip : (Text.splitOn slash ".").foldl (push (isAbs o)) (segments o).reverse =
        (segments o).reverse := rfl
    rw [join_pair (by decide) (by decide), hskip, List.reverse_reverse]
    exact heq
  · have hso : Stacked (isAbs o) (up.reverse ++ common.reverse) := by
      simpa [ho] using stacked_segments o
    have hst : Stacked (isAbs o) (down.reverse ++ common.reverse) := by
      simpa [ht, habs] using stacked_segments t
    have hplainUp : ∀ s ∈ up.reverse, IsPlain s := isPlain_wayUp hso hup (ht ▸ hlast) hplain
    have hfold : (up.map (fun _ => Text.ofString "..") ++ down).foldl (push (isAbs o))
        (segments o).reverse = (segments t).reverse := by
      have htake : (List.replicate up.reverse.length (Text.ofString "..")).foldl (push (isAbs o))
          (up.reverse ++ common.reverse) = common.reverse := foldl_push_up hplainUp
      have hput := hst.foldl_push_reverse
      rw [List.reverse_reverse] at hput
      rw [List.foldl_append, List.map_const', ho, List.reverse_append, ← List.length_reverse,
        htake, hput, ht, List.reverse_append]
    rw [join_steps hne (steps_ne_nil_and_not_mem ht), hfold, List.reverse_reverse, habs]
    rfl

/-- **There is a relative path** between paths that both start at the root,
or neither, if the origin has no steps up. -/
theorem exists_rel? (habs : isAbs o = isAbs t) (hup : Text.ofString ".." ∉ segments o) :
    ∃ r, rel? o t = some r := by
  rw [rel?]
  split
  · exact ⟨_, rfl⟩
  · rw [if_neg (by simp [isAbs_clean, habs])]
    split
    rename_i up down hdrop
    obtain ⟨common, ho, -⟩ := exists_of_dropCommon hdrop
    have hhead : up.head? ≠ some (Text.ofString "..") := fun hhead =>
      hup (by rw [ho]; exact List.mem_append_right _ (List.mem_of_head? hhead))
    rw [if_neg (by simp [hhead])]
    exact ⟨_, rfl⟩

/-! ## Directories -/

section File

variable {parts : List Text} {b : Text} (hsplit : Text.splitOn slash p = parts ++ [b])

include hsplit in
theorem not_mem_parts : ∀ s ∈ parts, slash ∉ s := fun s hs =>
  Text.not_mem_of_mem_splitOn (t := p) (by simp [hsplit, hs])

include hsplit in
/-- A path is what its last separator divides. -/
theorem eq_of_splitOn :
    parts = [] ∧ p = b ∨ parts ≠ [] ∧ p = Text.join [slash] parts ++ slash :: b := by
  have hjoin : p = Text.join [slash] (parts ++ [b]) := by rw [← hsplit, Text.join_splitOn]
  by_cases hparts : parts = []
  · rw [hparts] at hjoin
    exact Or.inl ⟨hparts, hjoin⟩
  · exact Or.inr ⟨hparts, by rw [hjoin, Text.join_concat hparts]⟩

include hsplit in
/-- **The directory of a path** has the segments of all parts but the last. -/
theorem dir_of_splitOn : isAbs (dir p) = isAbs p ∧
    segments (dir p) = (parts.foldl (push (isAbs p)) []).reverse := by
  have hb : slash ∉ b := Text.not_mem_of_mem_splitOn (t := p) (by simp [hsplit])
  obtain ⟨rfl, rfl⟩ | ⟨hne, hp⟩ := eq_of_splitOn hsplit
  · rw [dir, Text.cutLast?_eq_none_iff.mpr hb, isAbs_of_not_mem hb]
    exact ⟨rfl, rfl⟩
  · have habs : isAbs (Text.join [slash] parts ++ [slash]) = isAbs p := by
      rw [hp]
      cases Text.join [slash] parts <;> rfl
    rw [dir, Text.cutLast?_eq_some_iff.mpr ⟨hp, hb⟩]
    simp only [ofString_slash, isAbs_clean, segments_clean]
    refine ⟨habs, ?_⟩
    rw [segments_append, habs, Text.splitOn_join hne (not_mem_parts hsplit)]
    rfl

variable (hb : IsPlain b)

include hsplit hb in
theorem base_of_splitOn : base p = b := by
  have hlast : p.reverse.dropWhile (· == slash) = p.reverse := by
    obtain ⟨c, b', rfl⟩ : ∃ c b', b = b' ++ [c] := by
      rcases List.eq_nil_or_concat b with h | ⟨b', c, h⟩
      · exact absurd h hb.1
      · exact ⟨c, b', by rw [h, List.concat_eq_append]⟩
    have hc : c ≠ slash := fun h => hb.2.2.2 (by simp [h])
    obtain ⟨-, rfl⟩ | ⟨-, hp⟩ := eq_of_splitOn hsplit
    · simp [hc]
    · simp [hp, hc]
  rw [base, hlast, List.reverse_reverse]
  obtain ⟨-, rfl⟩ | ⟨-, hp⟩ := eq_of_splitOn hsplit
  · simp [hb.1, Text.cutLast?_eq_none_iff.mpr hb.2.2.2]
  · simp [Text.cutLast?_eq_some_iff.mpr ⟨hp, hb.2.2.2⟩, show p ≠ [] by simp [hp]]

include hsplit hb in
/-- The last segment of a path, where it is plain. -/
theorem segments_of_splitOn : segments p = segments (dir p) ++ [b] := by
  rw [(dir_of_splitOn hsplit).2, segments, hsplit, List.foldl_append, List.foldl_cons,
    List.foldl_nil, push_of_plain hb, List.reverse_cons]

include hsplit hb in
/-- **A path is its directory and its last segment.** -/
theorem join_dir_base : join [dir p, base p] = clean p := by
  rw [base_of_splitOn hsplit hb, join_pair hb.1 (isAbs_of_not_mem hb.2.2.2),
    (dir_of_splitOn hsplit).1, clean, segments_of_splitOn hsplit hb,
    Text.splitOn_of_not_mem hb.2.2.2, List.foldl_cons, List.foldl_nil, push_of_plain hb,
    List.reverse_cons, List.reverse_reverse]

end File

/-! ## Paths that stay inside -/

/-- A relative path in normal form that does not start with a step up. -/
structure IsInner (p : Text) : Prop where
  nonempty : p ≠ []
  normal : clean p = p
  relative : isAbs p = false
  not_up : p ≠ Text.ofString ".."
  not_above : ¬ Text.ofString "../" <+: p

/-- A stack grows by what is put on it only. -/
theorem mem_push {s : Text} (h : s ∈ push rooted stack seg) : s = seg ∨ s ∈ stack := by
  by_cases hup : seg = Text.ofString ".."
  · subst hup
    cases stack with
    | nil =>
      rw [push_up_nil] at h
      cases rooted <;> simp_all
    | cons top below =>
      rw [push_up_cons] at h
      split at h
      · simpa using h
      · exact Or.inr (List.mem_cons_of_mem top h)
  · rw [Path.push.eq_def, if_neg (c := (seg == Text.ofString "..") = true) (by simpa using hup)] at h
    split at h
    · exact Or.inr h
    · simpa using h

theorem mem_foldl_push {parts : List Text} {s : Text} (h : s ∈ parts.foldl (push rooted) stack) :
    s ∈ parts ∨ s ∈ stack := by
  induction parts generalizing stack with
  | nil => exact Or.inr h
  | cons part parts ih =>
    rcases ih h with h | h
    · exact Or.inl (List.mem_cons_of_mem part h)
    · exact (mem_push h).imp (fun h => by simp [h]) id

/-- **All parts of an inner path but the last are plain.** -/
theorem IsInner.isPlain_parts {parts : List Text} {b : Text} (h : IsInner p)
    (hsplit : Text.splitOn slash p = parts ++ [b]) : ∀ s ∈ parts, IsPlain s := by
  have hp : p = ofSegments false (segments p) := by
    conv_lhs => rw [← h.normal, clean, h.relative]
  have hstacked : Stacked false ((segments p).reverse ++ []) := by
    simpa [h.relative] using stacked_segments p
  by_cases hempty : segments p = []
  · -- the path is a dot
    have hdot : Text.splitOn slash (ofSegments false []) = [] ++ [Text.ofString "."] := rfl
    rw [hp, hempty, hdot] at hsplit
    rw [← (List.append_inj_left' hsplit rfl)]
    exact fun s hs => nomatch hs
  · rw [ofSegments, if_neg (by simp), if_neg (by simpa using hempty), ofString_slash] at hp
    have hsegs : segments p = parts ++ [b] := by
      rw [← hsplit, hp, Text.splitOn_join hempty fun s hs =>
        (hstacked.ne_nil_and_not_mem s (by simpa using hs)).2, ← hp]
    -- a step up would stand at the start
    have hhead : (segments p).reverse.getLast? ≠ some (Text.ofString "..") := by
      rw [List.getLast?_reverse]
      intro hhead
      obtain ⟨rest, hrest⟩ := List.head?_eq_some_iff.mp hhead
      rw [hrest] at hp
      by_cases hr : rest = []
      · rw [hr] at hp
        exact h.not_up hp
      · rw [Text.join_cons hr] at hp
        exact h.not_above ⟨_, hp.symm⟩
    intro s hs
    exact hstacked.isPlain_above hhead s (by simp [hsegs, hs])

end Path

end WireModel
