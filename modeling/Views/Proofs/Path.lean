import Views.Path
import Mathlib.Data.List.Basic
/-!
# Normalized paths

`normalize` keeps the place that a path leads to, from whatever directory it is followed
(`locate_normalize`), and what it gives is reduced: some `..` if the path is relative, and then
names alone (`isReduced_parts_normalize`). A reduced list of segments can be read off the places
that it leads to (`IsReduced.eq_of_walk`), so two paths have one normal form just if both start at
the root or neither does and they lead to the same place from every directory
(`normalize_canonical`).

All this is carried by one invariant of the stack of segments: it stays reduced, and walking along
it leads to where the segments taken in so far lead (`IsReduced.push`).

That normalization is idempotent, that it takes `.` and empty segments out, and that it is a matter
of the path alone and of no file system, are all consequences. Links are not followed: the place a
path leads to is the one that its segments spell, from a directory given as a list of names.
-/

namespace Views

/-! ## Splitting a text -/

namespace Text

variable {p : Char → Bool} {c : Char} {cs part : List Char}

/-- A text is split at a separator into what is before it and what is after it. -/
theorem splitAt_append_cons (h : p c = true) (before after : List Char) :
    splitAt p (before ++ c :: after) = splitAt p before ++ splitAt p after := by
  induction before with
  | nil => simp [splitAt, h]
  | cons b before ih =>
    by_cases hb : p b = true
    · simp [splitAt, hb, ih]
    · obtain ⟨first, rest, hfirst⟩ := List.exists_cons_of_ne_nil (splitAt_ne_nil p before)
      simp [splitAt, hb, ih, hfirst]

/-- A text without separators is a part of its own. -/
theorem splitAt_of_forall_not (h : ∀ c ∈ cs, p c = false) : splitAt p cs = [cs] := by
  induction cs with
  | nil => rfl
  | cons c cs ih =>
    obtain ⟨hc, hcs⟩ := List.forall_mem_cons.mp h
    simp [splitAt, hc, ih hcs]

/-- The parts have the characters of the text, separators excepted. -/
theorem mem_of_mem_splitAt (hpart : part ∈ splitAt p cs) (hc : c ∈ part) :
    c ∈ cs ∧ p c = false := by
  induction cs generalizing part with
  | nil =>
    rw [splitAt, List.mem_singleton] at hpart
    simp [hpart] at hc
  | cons b cs ih =>
    obtain ⟨first, rest, hfirst⟩ := List.exists_cons_of_ne_nil (splitAt_ne_nil p cs)
    by_cases hb : p b = true
    · simp only [splitAt, hb, if_true, List.mem_cons] at hpart
      rcases hpart with rfl | hpart
      · simp at hc
      · exact (ih hpart hc).imp_left (List.mem_cons_of_mem b)
    · simp only [splitAt, hb, Bool.false_eq_true, if_false, hfirst, List.mem_cons] at hpart
      rcases hpart with rfl | hpart
      · rcases List.mem_cons.mp hc with rfl | hc
        · simpa using hb
        · exact (ih (by simp [hfirst]) hc).imp_left (List.mem_cons_of_mem b)
      · exact (ih (by simp [hfirst, hpart]) hc).imp_left (List.mem_cons_of_mem b)

end Text

namespace Path

/-! ## Segments and joined segments -/

/-- A segment that names something in a directory. -/
structure IsName (s : Segment) : Prop where
  ne_nil : s ≠ []
  ne_here : s ≠ here
  ne_up : s ≠ up
  separator_notMem : separator ∉ s

/-- The text of segments from the root or from some directory. -/
def written (absolute : Bool) (segs : List Segment) : List Char :=
  if absolute then separator :: join segs else join segs

/-- The segments of a path below the place where it starts; an empty text has none. -/
def parts (path : List Char) : List Segment :=
  let below := if isAbsolute path then path.tail else path
  if below = [] then [] else segments below

/-- A separator ends the segments before it and begins those after it. -/
theorem segments_append_separator (before after : List Char) :
    segments (before ++ separator :: after) = segments before ++ segments after :=
  Text.splitAt_append_cons (p := (· == separator)) (beq_self_eq_true separator) before after

/-- A separator in front is an empty segment. -/
theorem segments_separator_cons (path : List Char) :
    segments (separator :: path) = [] :: segments path :=
  segments_append_separator [] path

/-- Without a separator there is one segment. -/
theorem segments_of_separator_notMem {s : Segment} (h : separator ∉ s) : segments s = [s] := by
  refine Text.splitAt_of_forall_not fun c hc => ?_
  simpa using fun he : c = separator => h (he ▸ hc)

/-- No segment holds a separator. -/
theorem separator_notMem_of_mem_segments {path : List Char} {s : Segment} (h : s ∈ segments path) :
    separator ∉ s :=
  fun hc => by simpa using (Text.mem_of_mem_splitAt h hc).2

/-- The segments of joined segments; if there are none, that is one empty segment. -/
theorem segments_join {segs : List Segment} (h : ∀ s ∈ segs, separator ∉ s) :
    segments (join segs) = if segs = [] then [[]] else segs := by
  induction segs with
  | nil => rfl
  | cons s rest ih =>
    obtain ⟨hs, hrest⟩ := List.forall_mem_cons.mp h
    cases rest with
    | nil => simpa [join] using segments_of_separator_notMem hs
    | cons t rest =>
      rw [join, segments_append_separator, segments_of_separator_notMem hs, ih hrest]
      simp

/-- One more segment stands behind one more separator. -/
theorem join_append_singleton {segs : List Segment} (h : segs ≠ []) (s : Segment) :
    join (segs ++ [s]) = join segs ++ separator :: s := by
  induction segs with
  | nil => exact absurd rfl h
  | cons t rest ih =>
    cases rest with
    | nil => rfl
    | cons u rest => simpa [join] using ih (by simp)

/-- Joined segments that are not empty do not start with a separator. -/
theorem isAbsolute_join {segs : List Segment} (hne : ∀ s ∈ segs, s ≠ [])
    (h : ∀ s ∈ segs, separator ∉ s) : isAbsolute (join segs) = false := by
  have hhead : ∀ (c : Char) (s rest : List Char), separator ∉ c :: s →
      isAbsolute (c :: (s ++ rest)) = false := by
    intro c s rest hs
    simpa [isAbsolute] using fun he : c = separator => hs (by simp [he])
  match segs with
  | [] => rfl
  | [] :: _ => exact absurd rfl (hne [] (by simp))
  | [c :: s] => simpa [join] using hhead c s [] (h _ (by simp))
  | (c :: s) :: t :: rest => exact hhead c s _ (h _ (by simp))

theorem join_ne_nil {segs : List Segment} (hne : ∀ s ∈ segs, s ≠ []) (h : segs ≠ []) :
    join segs ≠ [] := by
  match segs with
  | [] => exact absurd rfl h
  | [s] => exact hne s (by simp)
  | s :: t :: rest => simp [join]

/-! ## Walking -/

/-- The directory reached by some segments, one after the other. -/
def walk (directory : List Segment) (segs : List Segment) : List Segment :=
  segs.foldl enter directory

/-- A path leads to where its segments lead, from the root or from a directory. -/
theorem locate_eq_walk (directory : List Segment) (path : List Char) :
    locate directory path = walk (if isAbsolute path then [] else directory) (segments path) := rfl

@[simp] theorem walk_nil (directory : List Segment) : walk directory [] = directory := rfl

@[simp] theorem walk_cons (directory : List Segment) (s : Segment) (segs : List Segment) :
    walk directory (s :: segs) = walk (enter directory s) segs := rfl

@[simp] theorem walk_append (directory : List Segment) (segs more : List Segment) :
    walk directory (segs ++ more) = walk (walk directory segs) more :=
  List.foldl_append

@[simp] theorem enter_nil (directory : List Segment) : enter directory [] = directory := by
  simp [enter]

@[simp] theorem enter_up (directory : List Segment) : enter directory up = directory.dropLast := by
  simp [enter, up, here]

/-- A name leads one level down. -/
theorem IsName.enter {s : Segment} (h : IsName s) (directory : List Segment) :
    enter directory s = directory ++ [s] := by
  simp [Path.enter, h.ne_nil, h.ne_here, h.ne_up]

/-- Names lead down one after the other. -/
theorem walk_names {names : List Segment} (h : ∀ s ∈ names, IsName s) (directory : List Segment) :
    walk directory names = directory ++ names := by
  induction names generalizing directory with
  | nil => simp
  | cons s names ih =>
    obtain ⟨hs, hnames⟩ := List.forall_mem_cons.mp h
    simp [hs.enter, ih hnames]

/-- Going up several times takes off the last levels, and stays at the root. -/
theorem walk_replicate_up (directory : List Segment) (n : Nat) :
    walk directory (List.replicate n up) = directory.take (directory.length - n) := by
  induction n generalizing directory with
  | zero => simp
  | succ n ih =>
    rw [List.replicate_succ, walk_cons, enter_up, ih, List.dropLast_eq_take, List.take_take,
      List.length_take]
    congr 1
    omega

/-! ## Reduced segments -/

/-- First some `..`, of which there are none at the root, and then names. -/
def IsReduced (absolute : Bool) (segs : List Segment) : Prop :=
  ∃ (climb : Nat) (names : List Segment), segs = List.replicate climb up ++ names ∧
    (∀ s ∈ names, IsName s) ∧ (absolute = true → climb = 0)

/-- The segment that goes up holds no separator. -/
theorem up_separator_notMem : separator ∉ up := by decide

namespace IsReduced

variable {absolute : Bool} {segs : List Segment} {s : Segment}

/-- No segments at all are reduced. -/
theorem nil (absolute : Bool) : IsReduced absolute [] := ⟨0, [], by simp⟩

/-- What stands in a reduced path goes up or is a name. -/
theorem mem (h : IsReduced absolute segs) (hs : s ∈ segs) : s = up ∨ IsName s := by
  obtain ⟨climb, names, rfl, hnames, -⟩ := h
  rcases List.mem_append.mp hs with hs | hs
  · exact .inl (List.eq_of_mem_replicate hs)
  · exact .inr (hnames s hs)

theorem ne_nil (h : IsReduced absolute segs) : ∀ s ∈ segs, s ≠ [] := by
  intro s hs
  rcases h.mem hs with rfl | hname
  · decide
  · exact hname.ne_nil

/-- And no separator stands in it. -/
theorem separator_notMem (h : IsReduced absolute segs) : ∀ s ∈ segs, separator ∉ s := by
  intro s hs
  rcases h.mem hs with rfl | hname
  · exact up_separator_notMem
  · exact hname.separator_notMem

/-- A reduced path with one more name is reduced. -/
theorem append_name (h : IsReduced absolute segs) (hs : IsName s) :
    IsReduced absolute (segs ++ [s]) := by
  obtain ⟨climb, names, rfl, hnames, habsolute⟩ := h
  refine ⟨climb, names ++ [s], by simp, fun t ht => ?_, habsolute⟩
  rcases List.mem_append.mp ht with ht | ht
  · exact hnames t ht
  · rwa [List.mem_singleton.mp ht]

/-- Reduced segments end in `..` only if they are nothing else. -/
theorem append_up (h : IsReduced false (segs ++ [up])) : IsReduced false (segs ++ [up, up]) := by
  obtain ⟨climb, names, heq, hnames, -⟩ := h
  rcases List.eq_nil_or_concat names with rfl | ⟨init, last, rfl⟩
  · refine ⟨climb + 1, [], ?_, by simp, by simp⟩
    rw [List.append_nil] at heq
    rw [List.append_nil, List.replicate_succ', ← heq]
    simp
  · rw [List.concat_eq_append, ← List.append_assoc] at heq
    obtain ⟨-, hlast⟩ := List.append_inj' heq rfl
    cases hlast
    exact absurd rfl (hnames up (by simp)).ne_up

/-- Reduced segments stay reduced without the last one. -/
theorem dropLast (h : IsReduced absolute (segs ++ [s])) : IsReduced absolute segs := by
  obtain ⟨climb, names, heq, hnames, habsolute⟩ := h
  rcases List.eq_nil_or_concat names with rfl | ⟨init, last, rfl⟩
  · have hsegs : segs = List.replicate (climb - 1) up := by
      rw [List.append_nil] at heq
      rw [← List.dropLast_replicate, ← heq, List.dropLast_concat]
    exact ⟨climb - 1, [], by simp [hsegs], by simp, fun hroot => by simp [habsolute hroot]⟩
  · rw [List.concat_eq_append, ← List.append_assoc] at heq
    obtain ⟨rfl, -⟩ := List.append_inj' heq rfl
    exact ⟨climb, init, rfl, fun t ht => hnames t (by simp [ht]), habsolute⟩

/-- A reduced path that ends in a name is reduced without it. -/
theorem dropLast_name (h : IsReduced absolute (segs ++ [s])) (hs : s ≠ up) :
    IsReduced absolute segs ∧ IsName s :=
  ⟨h.dropLast, (h.mem (by simp)).resolve_left hs⟩

/-- A reduced path from the root holds nothing but names. -/
theorem isName_of_absolute (h : IsReduced true segs) : ∀ s ∈ segs, IsName s := by
  obtain ⟨climb, names, rfl, hnames, hclimb⟩ := h
  simpa [hclimb rfl] using hnames

/-- One segment more: the stack stays reduced, and leads to where the segment leads from where the
stack led before. -/
theorem push (h : IsReduced absolute segs.reverse) (hs : separator ∉ s)
    {directory : List Segment} (hroot : absolute = true → directory = []) :
    IsReduced absolute (push absolute segs s).reverse ∧
      walk directory (Path.push absolute segs s).reverse =
        enter (walk directory segs.reverse) s := by
  unfold Path.push
  by_cases hskip : s = [] ∨ s = here
  · simp [hskip, h, Path.enter]
  rw [if_neg hskip]
  obtain ⟨hne, hhere⟩ := not_or.mp hskip
  -- A step upwards takes off a name, stays at the root, or is one more step in front of a relative
  -- path; anything else is a name that goes on.
  by_cases hup : s = up
  · subst hup
    rw [if_pos rfl, enter_up]
    cases segs with
    | nil =>
      cases absolute with
      | true => exact ⟨h, by simp [hroot rfl]⟩
      | false => exact ⟨⟨1, [], by simp⟩, by simp⟩
    | cons last rest =>
      rw [List.reverse_cons] at h
      dsimp only
      by_cases hlast : last = up
      · subst hlast
        cases absolute with
        | true => exact absurd rfl (h.isName_of_absolute up (by simp)).ne_up
        | false => simpa using h.append_up
      · obtain ⟨hrest, hname⟩ := h.dropLast_name hlast
        simp [hlast, hrest, hname.enter]
  · have hname : IsName s := ⟨hne, hhere, hup, hs⟩
    simp [hup, h.append_name hname]

theorem foldl_push (h : IsReduced absolute segs.reverse) {more : List Segment}
    (hmore : ∀ s ∈ more, separator ∉ s) {directory : List Segment}
    (hroot : absolute = true → directory = []) :
    IsReduced absolute (more.foldl (Path.push absolute) segs).reverse ∧
      walk directory (more.foldl (Path.push absolute) segs).reverse =
        walk (walk directory segs.reverse) more := by
  induction more generalizing segs with
  | nil => exact ⟨h, rfl⟩
  | cons s more ih =>
    obtain ⟨hs, hmore⟩ := List.forall_mem_cons.mp hmore
    obtain ⟨hreduced, hwalk⟩ := h.push hs hroot
    obtain ⟨hreduced', hwalk'⟩ := ih hreduced hmore
    exact ⟨hreduced', by rw [List.foldl_cons, hwalk', hwalk, walk_cons]⟩

end IsReduced

variable {absolute : Bool} {segs other : List Segment}

theorem foldl_push_nil (h : ∀ s ∈ segs, separator ∉ s) {directory : List Segment}
    (hroot : absolute = true → directory = []) :
    IsReduced absolute (reduce absolute segs) ∧
      walk directory (reduce absolute segs) = walk directory segs := by
  have hnil : IsReduced absolute ([] : List Segment).reverse := IsReduced.nil absolute
  exact hnil.foldl_push h hroot

/-- What segments are reduced to is reduced. -/
theorem isReduced_reduce (h : ∀ s ∈ segs, separator ∉ s) (absolute : Bool) :
    IsReduced absolute (reduce absolute segs) :=
  (foldl_push_nil h fun _ => (rfl : ([] : List Segment) = [])).1

/-- Reducing segments keeps the place that they lead to. -/
theorem walk_reduce (h : ∀ s ∈ segs, separator ∉ s) {directory : List Segment}
    (hroot : absolute = true → directory = []) :
    walk directory (reduce absolute segs) = walk directory segs :=
  (foldl_push_nil h hroot).2

/-- Where reduced segments lead: so many names are dropped, and others follow. -/
theorem walk_reduced {names : List Segment} (h : ∀ s ∈ names, IsName s) (climb : Nat)
    (directory : List Segment) : walk directory (List.replicate climb up ++ names) =
      directory.take (directory.length - climb) ++ names := by
  rw [walk_append, walk_replicate_up, walk_names h]

/-- Directories of one name over and over, as deep as need be, tell reduced segments apart if there
are two such names. -/
theorem IsReduced.eq_of_walk {absolute' : Bool} (h : IsReduced absolute segs)
    (hother : IsReduced absolute' other) {a b : Segment} (hab : a ≠ b)
    (hwalk : ∀ n, ∀ s ∈ [a, b],
      walk (List.replicate n s) segs = walk (List.replicate n s) other) : segs = other := by
  obtain ⟨climb, names, rfl, hnames, -⟩ := h
  obtain ⟨climb', names', rfl, hnames', -⟩ := hother
  -- From a directory that is deep enough, each list drops names that the other one leaves.
  have hdeep : ∀ s ∈ [a, b],
      List.replicate climb' s ++ names = List.replicate climb s ++ names' := by
    intro s hs
    have hs := hwalk (climb + climb') s hs
    rw [walk_reduced hnames, walk_reduced hnames'] at hs
    simpa using hs
  have hle : ∀ {m n : Nat} {xs ys : List Segment},
      (∀ s ∈ [a, b], List.replicate n s ++ xs = List.replicate m s ++ ys) → n ≤ m := by
    intro m n xs ys hshape
    by_contra hlt
    have hhead : ∀ s ∈ [a, b], ys.head? = some s := by
      intro s hs
      have hshape := hshape s hs
      obtain ⟨d, rfl⟩ : ∃ d, n = m + (d + 1) := ⟨n - m - 1, by omega⟩
      rw [List.replicate_add, List.append_assoc, List.append_cancel_left_eq] at hshape
      rw [← hshape, List.replicate_succ]
      rfl
    have ha := hhead a (by simp)
    rw [hhead b (by simp)] at ha
    exact hab (Option.some.inj ha).symm
  have heq : climb' = climb := Nat.le_antisymm (hle hdeep) (hle fun s hs => (hdeep s hs).symm)
  subst heq
  have hnames := hdeep a (by simp)
  rw [List.append_cancel_left_eq] at hnames
  rw [hnames]

/-! ## Normal forms -/

/-- Normalising a path is writing down what its segments reduce to. -/
theorem normalize_eq_written (path : List Char) :
    normalize path = written (isAbsolute path) (reduce (isAbsolute path) (segments path)) := rfl

/-- What is written down is reduced. -/
theorem isReduced_normalize (path : List Char) :
    IsReduced (isAbsolute path) (reduce (isAbsolute path) (segments path)) :=
  isReduced_reduce (fun _ hs => separator_notMem_of_mem_segments hs) _

/-- A reduced path that is written down starts at the root just if it should. -/
theorem isAbsolute_written (h : IsReduced absolute segs) :
    isAbsolute (written absolute segs) = absolute := by
  cases absolute with
  | true => rfl
  | false => exact isAbsolute_join h.ne_nil h.separator_notMem

/-- Its parts are read back from what is written. -/
theorem parts_written (h : IsReduced absolute segs) : parts (written absolute segs) = segs := by
  have hbelow : (if isAbsolute (written absolute segs) then (written absolute segs).tail
      else written absolute segs) = join segs := by
    rw [isAbsolute_written h]
    cases absolute <;> simp [written]
  unfold parts
  dsimp only
  rw [hbelow, segments_join h.separator_notMem]
  by_cases hsegs : segs = []
  · simp [hsegs, join]
  · simp [hsegs, join_ne_nil h.ne_nil hsegs]

/-- Walking along the text of segments leads to where the segments lead. -/
theorem walk_segments_written (h : IsReduced absolute segs) (directory : List Segment) :
    walk directory (segments (written absolute segs)) = walk directory segs := by
  have hjoin : walk directory (segments (join segs)) = walk directory segs := by
    rw [segments_join h.separator_notMem]
    by_cases hsegs : segs = [] <;> simp [hsegs]
  cases absolute with
  | true => simpa [written, segments_separator_cons] using hjoin
  | false => exact hjoin

/-- Normalising leaves alone whether a path starts at the root. -/
theorem isAbsolute_normalize (path : List Char) : isAbsolute (normalize path) = isAbsolute path :=
  isAbsolute_written (isReduced_normalize path)

/-- The parts of a normalised path are what the segments reduce to. -/
theorem parts_normalize (path : List Char) :
    parts (normalize path) = reduce (isAbsolute path) (segments path) :=
  parts_written (isReduced_normalize path)

/-- A normalized path consists of some `..` if it is relative, and then of names. -/
theorem isReduced_parts_normalize (path : List Char) :
    IsReduced (isAbsolute path) (parts (normalize path)) := by
  rw [parts_normalize]
  exact isReduced_normalize path

/-- A normalized path is the text of its segments. -/
theorem written_parts_normalize (path : List Char) :
    written (isAbsolute path) (parts (normalize path)) = normalize path := by
  rw [parts_normalize]
  rfl

/-- Where a path leads can be read off its normal form. -/
theorem locate_eq_walk_parts (directory : List Segment) (path : List Char) :
    locate directory path =
      walk (if isAbsolute path then [] else directory) (parts (normalize path)) := by
  rw [parts_normalize, locate_eq_walk]
  refine (walk_reduce (fun _ hs => separator_notMem_of_mem_segments hs) fun habsolute => ?_).symm
  rw [habsolute, if_pos rfl]

/-- A path and its normal form lead to the same place, from whatever directory. -/
theorem locate_normalize (directory : List Segment) (path : List Char) :
    locate directory (normalize path) = locate directory path := by
  rw [locate_eq_walk_parts directory path, locate_eq_walk, isAbsolute_normalize,
    parts_normalize, normalize_eq_written, walk_segments_written (isReduced_normalize path)]

/-- Two paths lead to the same place from every directory. -/
def SamePlace (path other : List Char) : Prop :=
  ∀ directory, (∀ s ∈ directory, IsName s) → locate directory path = locate directory other

/-- Paths of one kind that lead to the same place from every directory have the same normal
form. -/
theorem SamePlace.normalize_eq {path other : List Char} (h : SamePlace path other)
    (habsolute : isAbsolute path = isAbsolute other) : normalize path = normalize other := by
  have hreduced := isReduced_parts_normalize path
  have hreduced' := isReduced_parts_normalize other
  have hparts : parts (normalize path) = parts (normalize other) := by
    cases hroot : isAbsolute path with
    | true =>
      rw [← habsolute, hroot] at hreduced'
      rw [hroot] at hreduced
      have hplace := h [] (by simp)
      rw [locate_eq_walk_parts, locate_eq_walk_parts, ← habsolute, hroot, if_pos rfl,
        walk_names hreduced.isName_of_absolute, walk_names hreduced'.isName_of_absolute] at hplace
      exact hplace
    | false =>
      refine hreduced.eq_of_walk hreduced' (a := ['a']) (b := ['b']) (by decide) fun n s hs => ?_
      have hname : IsName s := by
        rcases List.mem_pair.mp hs with rfl | rfl
        · exact ⟨by decide, by decide, by decide, by decide⟩
        · exact ⟨by decide, by decide, by decide, by decide⟩
      have hplace := h (List.replicate n s) fun t ht => List.eq_of_mem_replicate ht ▸ hname
      rw [locate_eq_walk_parts, locate_eq_walk_parts, ← habsolute, hroot,
        if_neg Bool.false_ne_true] at hplace
      exact hplace
  rw [← written_parts_normalize path, ← written_parts_normalize other, hparts, habsolute]

/-- A normalized path starts at the root just if the path does, leads to where the path leads from
every directory, and has no segments but names after some `..`, which stand at the front of a
relative path alone. Two paths have the same normal form if and only if both start at the root or
neither does, and they lead to the same place from every directory. -/
theorem normalize_canonical (path other : List Char) :
    isAbsolute (normalize path) = isAbsolute path ∧
      (∀ directory, locate directory (normalize path) = locate directory path) ∧
      IsReduced (isAbsolute path) (parts (normalize path)) ∧
      (normalize path = normalize other ↔
        isAbsolute path = isAbsolute other ∧ SamePlace path other) := by
  refine ⟨isAbsolute_normalize path, fun directory => locate_normalize directory path,
    isReduced_parts_normalize path, fun heq => ⟨?_, fun directory _ => ?_⟩, fun h => ?_⟩
  · rw [← isAbsolute_normalize path, heq, isAbsolute_normalize]
  · rw [← locate_normalize directory path, heq, locate_normalize]
  · exact h.2.normalize_eq h.1

example : normalize "a/./b//../../../c".toList = "../c".toList ∧
    normalize "/../a/".toList = "/a".toList := by decide

end Path
end Views
