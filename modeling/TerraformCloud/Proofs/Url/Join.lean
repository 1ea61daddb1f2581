/-
  TerraformCloud/Proofs/Url/Join.lean
  ===================================
  **Where a path of identifiers leads from a base.**

  A walk goes down along segments, stays at `.` and goes up at `..`, so it never ends on a
  path that has one of these in it (`walk_no_dots`), and without them it only goes down
  (`walk_of_no_dots`).  Two of the texts that count as identifiers are `.` and `..`
  themselves.

  So a path of identifiers, resolved against a base that is closed by a slash, is found
  behind the base exactly if none of the identifiers is one of these two
  (`join_identifiers`).
-/
import TerraformCloud.Proofs.Url.Identifier

namespace TerraformCloud.Url

/-! ## 1. Dots -/

/-- A segment that a walk does not go down. -/
def IsDot (s : String) : Prop := isDoubleDot s = true ∨ isSingleDot s = true

theorem not_isDot_empty : ¬ IsDot "" := by
  have hlower : "".toLower = "" := String.toList_inj.1 (by simp [String.toLower])
  simp [IsDot, isDoubleDot, isSingleDot, hlower]

/-- Identifiers that are dots are written as dots, not as escapes. -/
theorem isDot_identifier {s : String} (h : isIdentifier s = true) :
    IsDot s ↔ s = "." ∨ s = ".." := by
  have hchars : s.toLower.toList = s.toList.map Char.toLower := String.toList_map
  -- a dot without an escape is the same in lower case
  have hplain : ∀ t : String, s.toLower = t → (∀ c ∈ t.toList, c = '.') → s = t := by
    intro t ht hdots
    rw [← ht, hchars] at hdots
    apply String.toList_inj.1
    rw [← ht, hchars]
    refine ((List.map_congr_left fun c hc => ?_).trans (List.map_id _)).symm
    have hpoint := hdots c.toLower (List.mem_map_of_mem hc)
    rw [hpoint, (plainChar_of_mem h hc).onlyPoint hpoint]
    rfl
  have hescape : ∀ t : String, '%' ∈ t.toList → s.toLower ≠ t := by
    intro t ht heq
    rw [← heq, hchars] at ht
    obtain ⟨c, hc, hpercent⟩ := List.mem_map.1 ht
    exact (plainChar_of_mem h hc).noPercent hpercent
  constructor
  · rintro (hdouble | hsingle)
    · simp only [isDoubleDot, List.contains_iff_mem, List.mem_cons, List.not_mem_nil,
        or_false] at hdouble
      rcases hdouble with hdouble | hdouble | hdouble | hdouble
      · exact .inr (hplain ".." hdouble (by simp))
      all_goals exact absurd hdouble (hescape _ (by simp))
    · simp only [isSingleDot, Bool.or_eq_true, decide_eq_true_eq] at hsingle
      rcases hsingle with hsingle | hsingle
      · exact .inl hsingle
      · exact absurd hsingle (hescape _ (by simp))
  · rintro (rfl | rfl)
    · exact .inr (by decide)
    · have hlower : "..".toLower = ".." := String.toList_inj.1 (by simp [String.toLower])
      exact .inl (by simp [isDoubleDot, hlower])

/-! ## 2. Walks

All segments but the last one move a walk alike, so what a walk keeps is seen from one
step (`step_no_dots`), and the last segment is a step that may leave a slash behind. -/

section Walk

variable {stack segments : List String} {s : String}

/-- Where a walk stands behind a segment. -/
def step (stack : List String) (s : String) : List String :=
  if isDoubleDot s then stack.tail
  else if isSingleDot s then stack
  else s :: stack

theorem walk_cons (stack : List String) (s : String) (hne : segments ≠ []) :
    walk stack (s :: segments) = walk (step stack s) segments := by
  obtain ⟨t, segments, rfl⟩ := List.exists_cons_of_ne_nil hne
  rw [walk, step]
  split
  · rfl
  · split <;> rfl
  · -- the segment is not the last one
    simp

theorem walk_last (stack : List String) (s : String) :
    (IsDot s ∧ walk stack [s] = ("" :: step stack s).reverse) ∨
      (¬ IsDot s ∧ walk stack [s] = (step stack s).reverse) := by
  rw [walk, step]
  by_cases hdouble : isDoubleDot s = true
  · rw [if_pos hdouble, if_pos hdouble]
    exact .inl ⟨.inl hdouble, rfl⟩
  · rw [if_neg hdouble, if_neg hdouble]
    by_cases hsingle : isSingleDot s = true
    · rw [if_pos hsingle, if_pos hsingle]
      exact .inl ⟨.inr hsingle, rfl⟩
    · rw [if_neg hsingle, if_neg hsingle]
      exact .inr ⟨not_or.2 ⟨hdouble, hsingle⟩, rfl⟩

theorem step_of_not_isDot (h : ¬ IsDot s) : step stack s = s :: stack := by
  rw [IsDot, not_or] at h
  rw [step, if_neg h.1, if_neg h.2]

/-- No step leaves a walk on a dot. -/
theorem step_no_dots (h : ∀ t ∈ stack, ¬ IsDot t) : ∀ t ∈ step stack s, ¬ IsDot t := by
  intro t ht
  by_cases hs : IsDot s
  · have hmem : t ∈ stack := by
      unfold step at ht
      rcases hs with hdouble | hsingle
      · rw [if_pos hdouble] at ht
        exact List.mem_of_mem_tail ht
      · rw [if_pos hsingle] at ht
        split at ht
        · exact List.mem_of_mem_tail ht
        · exact ht
    exact h t hmem
  · rw [step_of_not_isDot hs] at ht
    rcases List.mem_cons.1 ht with rfl | ht
    · exact hs
    · exact h t ht

/-- Without dots, a walk only goes down. -/
theorem walk_of_no_dots (h : ∀ s ∈ segments, ¬ IsDot s) :
    walk stack segments = stack.reverse ++ segments := by
  induction segments generalizing stack with
  | nil => rw [walk, List.append_nil]
  | cons s segments ih =>
    have hs := h s List.mem_cons_self
    by_cases hne : segments = []
    · subst hne
      rcases walk_last stack s with ⟨hdot, -⟩ | ⟨-, hlast⟩
      · exact absurd hdot hs
      · rw [hlast, step_of_not_isDot hs, List.reverse_cons]
    · rw [walk_cons stack s hne, ih fun t ht => h t (List.mem_cons_of_mem _ ht),
        step_of_not_isDot hs, List.reverse_cons, List.append_assoc, List.singleton_append]

/-- **No walk ends on a path with dots in it.** -/
theorem walk_no_dots (h : ∀ s ∈ stack, ¬ IsDot s) : ∀ s ∈ walk stack segments, ¬ IsDot s := by
  induction segments generalizing stack with
  | nil =>
    intro s hs
    exact h s (List.mem_reverse.1 hs)
  | cons s segments ih =>
    have hstep := step_no_dots (s := s) h
    by_cases hne : segments = []
    · subst hne
      intro t ht
      rcases walk_last stack s with ⟨-, hlast⟩ | ⟨-, hlast⟩
      · rw [hlast, List.mem_reverse] at ht
        rcases List.mem_cons.1 ht with rfl | ht
        · exact not_isDot_empty
        · exact hstep t ht
      · rw [hlast, List.mem_reverse] at ht
        exact hstep t ht
    · rw [walk_cons stack s hne]
      exact ih hstep

/-- A walk along a path that is closed by a slash is closed by a slash. -/
theorem walk_closed (stack segments : List String) :
    ∃ front, walk stack (segments ++ [""]) = front ++ [""] := by
  induction segments generalizing stack with
  | nil =>
    refine ⟨stack.reverse, ?_⟩
    rw [List.nil_append, walk_of_no_dots fun s hs => ?_]
    rw [List.mem_singleton.1 hs]
    exact not_isDot_empty
  | cons s segments ih =>
    rw [List.cons_append, walk_cons stack s (by simp)]
    exact ih _

end Walk

theorem dropEmptyFront_of_head {segments : List String} (h : segments.head? ≠ some "") :
    dropEmptyFront segments = segments := by
  unfold dropEmptyFront
  split
  · exact absurd rfl h
  · rfl

theorem mem_of_mem_dropEmptyFront {segments : List String} {s : String}
    (h : s ∈ dropEmptyFront segments) : s ∈ segments := by
  fun_induction dropEmptyFront segments with
  | case1 t rest ih => exact List.mem_cons_of_mem _ (ih h)
  | case2 segments => exact h

/-! ## 3. References -/

/-- A URL whose path is closed by a slash and behind whose path others are found. -/
structure IsBase (base : Url) (front : List String) : Prop where
  path : base.path = .segments (front ++ [""])
  no_dots : ∀ s ∈ front, ¬ IsDot s
  /-- The path of a file does not begin with an empty segment. -/
  file : base.scheme = fileScheme → front.head? ≠ some ""

section Plain

variable {c : Char} {rest : List Char}

/-- A reference that begins with a plain character is walked from where the base stands. -/
theorem relative_plain (base : Url) (parts : List String) (hc : PlainChar c)
    (htail : Tail.of (c :: rest) = ⟨c :: rest, none, none⟩) :
    ∃ u, relative base parts (c :: rest) = .ok u ∧ u.path = .segments
      (walk parts.dropLast.reverse (segmentsOf (isSpecialScheme base.scheme) (c :: rest))) := by
  obtain ⟨hslash, hback, hquery, -, -⟩ := hc.noMark
  have hnotSlash : isSlash true c = false := by simp [isSlash, hslash, hback]
  unfold relative
  dsimp only
  split
  · next heq => cases heq
  · next heq => exact absurd (List.cons.inj heq).1 hslash
  · next heq =>
    obtain ⟨rfl, rfl⟩ := List.cons.inj heq
    rw [if_neg hquery, hnotSlash, htail]
    exact ⟨_, rfl, rfl⟩

theorem file_plain {base : Url} {parts : List String} (hpath : base.path = .segments parts)
    (hc : PlainChar c) (htail : Tail.of (c :: rest) = ⟨c :: rest, none, none⟩) :
    ∃ u, file (some base) (c :: rest) = .ok u ∧ u.path = .segments
      (dropEmptyFront (walk parts.dropLast.reverse (segmentsOf true (c :: rest)))) := by
  have hnotSlash : isSlash true c = false := by simp [isSlash, hc.noMark.1, hc.noMark.2.1]
  have hslashes : ((c :: rest).take 2).takeWhile (isSlash true) = [] := by
    rw [List.take_succ_cons, List.takeWhile_cons_of_neg (by simp [hnotSlash])]
  unfold file
  dsimp only
  rw [hslashes, htail, if_neg (by decide), if_neg (by decide), Option.map_some, hpath]
  exact ⟨_, rfl, rfl⟩

theorem join_plain {base : Url} {parts : List String} (hpath : base.path = .segments parts)
    {text : String} (htrimmed : trimmed text = c :: rest) (hscheme : scheme? (c :: rest) = none)
    (hc : PlainChar c) :
    base.join text =
      if base.scheme = fileScheme then file (some base) (c :: rest)
      else relative base parts (c :: rest) := by
  unfold join
  rw [htrimmed]
  dsimp only
  rw [hscheme, hpath]
  dsimp only
  split
  · next heq => exact absurd (List.cons.inj heq).1 hc.noMark.2.2.2.1
  · next hrootless _ => cases hrootless
  · next hparts _ =>
    cases hparts
    rfl

end Plain

section Join

variable {base : Url} {front segments : List String}

/-- The path that a reference leads to. -/
def resolved (base : Url) (parts segments : List String) : List String :=
  if base.scheme = fileScheme then dropEmptyFront (walk parts.dropLast.reverse segments)
  else walk parts.dropLast.reverse segments

/-- A path of identifiers is read as a path without a scheme. -/
theorem reads_path (hne : segments ≠ []) (h : ∀ s ∈ segments, isIdentifier s = true) :
    ∃ c rest, PlainChar c ∧ trimmed ("/".intercalate segments) = c :: rest ∧
      scheme? (c :: rest) = none ∧ Tail.of (c :: rest) = ⟨c :: rest, none, none⟩ ∧
      ∀ special, segmentsOf special (c :: rest) = segments := by
  have hchars := fun c hc => @plainChar_or_slash segments h c hc
  have hplain : ∀ c ∈ ("/".intercalate segments).toList, isEdge c = false ∧ isBreak c = false := by
    intro c hc
    rcases hchars c hc with hplain | rfl
    · exact ⟨hplain.noEdge, hplain.noBreak⟩
    · decide
  have hcolon : ':' ∉ ("/".intercalate segments).toList := by
    intro hc
    rcases hchars ':' hc with hplain | hslash
    · exact hplain.noMark.2.2.2.2 rfl
    · exact absurd hslash (by decide)
  have htail : ∀ c ∈ ("/".intercalate segments).toList, c ≠ '?' ∧ c ≠ '#' := by
    intro c hc
    rcases hchars c hc with hplain | rfl
    · exact ⟨hplain.noMark.2.2.1, hplain.noMark.2.2.2.1⟩
    · decide
  obtain ⟨c, rest, hcons, hfirst⟩ := path_eq_cons hne h
  have htrimmed := trimmed_of_plain hplain
  have hsegments := fun special => segmentsOf_identifiers special hne h
  rw [hcons] at htrimmed hsegments hcolon htail
  exact ⟨c, rest, hfirst, htrimmed, scheme_of_no_colon hcolon, tail_of_plain htail, hsegments⟩

/-- A path of identifiers is a reference by which the base is walked on. -/
theorem join_eq_resolved {parts : List String} (hpath : base.path = .segments parts)
    (hne : segments ≠ []) (h : ∀ s ∈ segments, isIdentifier s = true) :
    ∃ u, base.join ("/".intercalate segments) = .ok u ∧
      u.path = .segments (resolved base parts segments) := by
  obtain ⟨c, rest, hfirst, htrimmed, hscheme, htail, hsegments⟩ := reads_path hne h
  rw [join_plain hpath htrimmed hscheme hfirst, resolved]
  split
  · obtain ⟨u, hu, hresult⟩ := file_plain hpath hfirst htail
    exact ⟨u, hu, by rw [hresult, hsegments]⟩
  · obtain ⟨u, hu, hresult⟩ := relative_plain base parts hfirst htail
    exact ⟨u, hu, by rw [hresult, hsegments]⟩

/-- **Identifiers are found behind the base exactly if none of them is a dot.** -/
theorem join_identifiers (hbase : IsBase base front) (hne : segments ≠ [])
    (h : ∀ s ∈ segments, isIdentifier s = true) :
    ∃ u, base.join ("/".intercalate segments) = .ok u ∧
      (u.path = .segments (front ++ segments) ↔ ∀ s ∈ segments, s ≠ "." ∧ s ≠ "..") := by
  obtain ⟨u, hu, hpath⟩ := join_eq_resolved hbase.path hne h
  refine ⟨u, hu, ?_⟩
  rw [hpath, resolved, List.dropLast_concat]
  have hdots : (∀ s ∈ segments, ¬ IsDot s) ↔ ∀ s ∈ segments, s ≠ "." ∧ s ≠ ".." :=
    forall₂_congr fun s hs => by rw [isDot_identifier (h s hs), not_or]
  rw [← hdots, UrlPath.segments.injEq]
  constructor
  · -- a path that was walked has no dots in it
    intro heq s hs
    have hmem : s ∈ walk front.reverse segments := by
      split at heq
      · exact mem_of_mem_dropEmptyFront (heq ▸ List.mem_append_right _ hs)
      · exact heq ▸ List.mem_append_right _ hs
    exact walk_no_dots (fun t ht => hbase.no_dots t (List.mem_reverse.1 ht)) s hmem
  · intro hno
    rw [walk_of_no_dots hno, List.reverse_reverse]
    split
    · refine dropEmptyFront_of_head ?_
      cases front with
      | nil =>
        obtain ⟨s, segments, rfl⟩ := List.exists_cons_of_ne_nil hne
        intro hhead
        have hempty : s = "" := Option.some.inj hhead
        have hs := h s List.mem_cons_self
        rw [hempty] at hs
        cases hs
      | cons s front => exact hbase.file ‹_›
    · rfl

/-- Nothing is found behind a base without segments. -/
theorem join_rootless {text : String} (hpath : base.path = .rootless text) (hne : segments ≠ [])
    (h : ∀ s ∈ segments, isIdentifier s = true) :
    base.join ("/".intercalate segments) = .error .rootlessBase := by
  obtain ⟨c, rest, hfirst, htrimmed, hscheme, -⟩ := reads_path hne h
  unfold join
  rw [htrimmed]
  dsimp only
  rw [hscheme, hpath]
  dsimp only
  split
  · next heq => exact absurd (List.cons.inj heq).1 hfirst.noMark.2.2.2.1
  · rfl
  · next hparts _ => cases hparts

end Join

/-! ## 4. Bases -/

/-- A path that is empty or closed by a slash has an empty last segment. -/
theorem segmentsOf_closed (special : Bool) {path : List Char}
    (h : path = [] ∨ ∃ body, path = body ++ ['/']) :
    ∃ front, segmentsOf special path = front ++ [""] := by
  rcases h with rfl | ⟨path, rfl⟩
  · exact ⟨[], rfl⟩
  · refine ⟨segmentsOf special path, ?_⟩
    rw [segmentsOf, segmentsOf, List.map_append]
    rw [show ['/'].map (fun c => if isSlash special c then '/' else c) = ['/'] by simp]
    rw [splitChars_append, List.map_append]
    rfl

theorem dropEmptyFront_closed (front : List String) :
    ∃ front', dropEmptyFront (front ++ [""]) = front' ++ [""] ∧ front'.head? ≠ some "" ∧
      ∀ s ∈ front', s ∈ front := by
  induction front with
  | nil => exact ⟨[], rfl, by simp, by simp⟩
  | cons s front ih =>
    by_cases hs : s = ""
    · obtain ⟨front', hdrop, hhead, hmem⟩ := ih
      refine ⟨front', ?_, hhead, fun t ht => List.mem_cons_of_mem _ (hmem t ht)⟩
      rw [← hdrop, hs]
      cases front with
      | nil => rfl
      | cons t front => rfl
    · have hhead : (s :: front).head? ≠ some "" := fun h => hs (Option.some.inj h)
      exact ⟨s :: front, dropEmptyFront_of_head hhead, hhead, fun t ht => ht⟩

/-- The characters of a path that is set. -/
def closedPath (cs : List Char) : List Char :=
  let front := if cs.head? = some '/' then cs else '/' :: cs
  (if front.getLast? = some '/' then front else front ++ ['/']).filter (fun c => !isBreak c)

/-- They begin and end with a slash. -/
theorem closedPath_eq (cs : List Char) :
    ∃ rest, closedPath cs = '/' :: rest ∧ (rest = [] ∨ ∃ body, rest = body ++ ['/']) := by
  obtain ⟨tail, htail⟩ : ∃ tail, (if cs.head? = some '/' then cs else '/' :: cs) = '/' :: tail := by
    split
    · exact List.head?_eq_some_iff.1 ‹_›
    · exact ⟨cs, rfl⟩
  unfold closedPath
  dsimp only
  rw [htail]
  split
  · next hlast =>
    refine ⟨tail.filter (fun c => !isBreak c), rfl, ?_⟩
    rcases List.eq_nil_or_concat tail with rfl | ⟨body, last, rfl⟩
    · exact .inl rfl
    · rw [List.concat_eq_append, ← List.cons_append, List.getLast?_concat,
        Option.some.injEq] at hlast
      subst hlast
      refine .inr ⟨body.filter (fun c => !isBreak c), ?_⟩
      rw [List.concat_eq_append, List.filter_append]
      rfl
  · refine ⟨(tail ++ ['/']).filter (fun c => !isBreak c), rfl,
      .inr ⟨tail.filter (fun c => !isBreak c), ?_⟩⟩
    rw [List.filter_append]
    rfl

/-- **The base of an interface is a base**, if the address has segments at all. -/
theorem isBase_base (address : Url) (path : String) :
    (∃ text, (base address path).path = .rootless text) ∨
      ∃ front, IsBase (base address path) front := by
  obtain ⟨rest, hclosed, hrest⟩ := closedPath_eq path.toList
  obtain ⟨segments, hsegments⟩ := segmentsOf_closed (isSpecialScheme address.scheme) hrest
  obtain ⟨front, hfront⟩ := walk_closed [] segments
  have hrooted : rootedPath (isSpecialScheme address.scheme) (closedPath path.toList) =
      front ++ [""] := by
    rw [hclosed, rootedPath, if_pos (by rfl), hsegments, hfront]
  have hdots : ∀ s ∈ front, ¬ IsDot s := fun s hs =>
    walk_no_dots (fun _ ht => absurd ht List.not_mem_nil) s (hfront ▸ List.mem_append_left _ hs)
  unfold base setPath
  dsimp only
  split
  · exact .inl ⟨_, rfl⟩
  · right
    by_cases hfile : address.scheme = fileScheme
    · obtain ⟨front', hdrop, hhead, hmem⟩ := dropEmptyFront_closed front
      refine ⟨front', ?_, fun s hs => hdots s (hmem s hs), fun _ => hhead⟩
      dsimp only
      rw [if_pos hfile]
      exact congrArg UrlPath.segments ((congrArg dropEmptyFront hrooted).trans hdrop)
    · refine ⟨front, ?_, hdots, fun h => absurd h hfile⟩
      dsimp only
      rw [if_neg hfile]
      exact congrArg UrlPath.segments hrooted

end TerraformCloud.Url
