import Views.Proofs.Path
import Views.TemplateKey
/-!
# Names beside a template

A layout is looked up in the directory of the template that it is for. That is the place which
`/../` after the name of the template and the name of the layout lead to together
(`TemplateKey.resolve_beside`). What carries this is that the directory of a written path is the
written path without its last segment (`Path.directory_written`), whatever extension the last
segment has got, and that a name looked up there goes on from these segments
(`Path.normalize_beneath_written`), as it does after `/../` (`Path.normalize_append_up`).

The premises are those without which the two ways part: a name that is empty names the base itself,
a layout that starts with a separator is not looked up beside anything, and an extension with a
separator in it makes another directory of the last segment. A template that is found above its base
may have `..` for its last segment, which a further `..` does not take off; this is the last
premise. Either kind of separator counts, since both are unified before a path is taken apart
(`Path.unify`).
-/

namespace Views

namespace Path

variable {absolute : Bool} {segs : List Segment} {s : Segment}

/-! ## Directories -/

/-- A path without a separator is in the directory that it is looked for in. -/
theorem directory_of_separator_notMem {path : List Char} (h : separator ∉ path) :
    directory path = [] := by
  simp [directory, h]

/-- The directory is what stands before the last separator, or the root. -/
theorem directory_append_separator (before : List Char) {file : List Char}
    (h : separator ∉ file) : directory (before ++ separator :: file) =
      if before = [] then [separator] else before := by
  have hdrop : ((before ++ separator :: file).reverse.dropWhile (· != separator)).drop 1 =
      before.reverse := by
    have hfile : ∀ c ∈ file.reverse, (c != separator) = true := by
      intro c hc
      simpa using fun he : c = separator => h (he ▸ List.mem_reverse.mp hc)
    rw [List.reverse_append, List.reverse_cons, List.append_assoc,
      List.dropWhile_append_of_pos hfile]
    simp
  unfold directory
  rw [hdrop]
  simp

/-- The directory of the text of segments is the text of all but the last one, whatever is added
to that. -/
theorem directory_written (h : IsReduced absolute (segs ++ [s])) {suffix : List Char}
    (hsuffix : separator ∉ suffix) :
    directory (written absolute (segs ++ [s]) ++ suffix) = written absolute segs := by
  have hs : separator ∉ s ++ suffix := by
    simp [h.separator_notMem s (by simp), hsuffix]
  by_cases hsegs : segs = []
  · subst hsegs
    cases absolute with
    | true => simpa [written, join] using directory_append_separator [] hs
    | false => simpa [written, join] using directory_of_separator_notMem hs
  · have hjoin : join segs ≠ [] :=
      join_ne_nil (fun t ht => h.ne_nil t (by simp [ht])) hsegs
    cases absolute with
    | true =>
      simpa [written, join_append_singleton hsegs] using
        directory_append_separator (separator :: join segs) hs
    | false =>
      simpa [written, join_append_singleton hsegs, hjoin] using
        directory_append_separator (join segs) hs

/-! ## Paths that go on -/

/-- A name is put on the stack. -/
theorem IsName.push (h : IsName s) (absolute : Bool) (stack : List Segment) :
    push absolute stack s = s :: stack := by
  simp [Path.push, h.ne_nil, h.ne_here, h.ne_up]

theorem push_nil (absolute : Bool) (stack : List Segment) : push absolute stack [] = stack := by
  simp [push]

/-- Where there is nothing to go up from, going up is put on the stack. -/
theorem push_up_replicate (n : Nat) :
    push false (List.replicate n up) up = List.replicate (n + 1) up := by
  cases n <;> simp [push, List.replicate_succ, up, here]

/-- Else it takes off the last name. -/
theorem push_up_cons (h : s ≠ up) (absolute : Bool) (stack : List Segment) :
    push absolute (s :: stack) up = stack := by
  unfold push
  rw [if_neg (by decide), if_pos rfl]
  simp [h]

/-- Reduced segments are pushed one on top of the other. -/
theorem IsReduced.reduce_eq (h : IsReduced absolute segs) : reduce absolute segs = segs := by
  obtain ⟨climb, names, rfl, hnames, habsolute⟩ := h
  have hclimb : (List.replicate climb up).foldl (Path.push absolute) [] =
      List.replicate climb up := by
    cases absolute with
    | true => simp [habsolute rfl]
    | false =>
      clear habsolute
      induction climb with
      | zero => rfl
      | succ n ih => rw [List.replicate_succ', List.foldl_concat, ih, push_up_replicate,
          List.replicate_succ']
  have hpush : ∀ stack, names.foldl (Path.push absolute) stack = names.reverse ++ stack := by
    induction names with
    | nil => simp
    | cons s names ih =>
      obtain ⟨hs, hnames⟩ := List.forall_mem_cons.mp hnames
      intro stack
      simp [hs.push, ih hnames]
  rw [reduce, List.foldl_append, hclimb, hpush]
  simp

/-- What follows segments does not matter for how they are reduced. -/
theorem reduce_append_of_eq {other : List Segment}
    (h : reduce absolute segs = reduce absolute other) (more : List Segment) :
    reduce absolute (segs ++ more) = reduce absolute (other ++ more) := by
  have hstack : segs.foldl (push absolute) [] = other.foldl (push absolute) [] :=
    List.reverse_injective h
  rw [reduce, List.foldl_append, hstack, ← List.foldl_append, reduce]

/-- `..` takes back the name before it. -/
theorem reduce_append_up {all : List Segment} (h : reduce absolute all = segs ++ [s])
    (hs : s ≠ up) : reduce absolute (all ++ [up]) = segs := by
  have hstack : all.foldl (push absolute) [] = s :: segs.reverse := by
    rw [← List.reverse_reverse (all.foldl _ _), ← reduce, h]
    simp
  rw [reduce, List.foldl_concat, hstack, push_up_cons hs, List.reverse_reverse]

/-- What is reduced and written down reduces to itself. -/
theorem reduce_segments_written (h : IsReduced absolute segs) :
    reduce absolute (segments (written absolute segs)) = segs := by
  have hjoin : reduce absolute (segments (join segs)) = segs := by
    rw [segments_join h.separator_notMem]
    by_cases hsegs : segs = []
    · simp [hsegs, reduce, push_nil]
    · rw [if_neg hsegs, h.reduce_eq]
  cases absolute with
  | true => simpa [written, segments_separator_cons, reduce, push_nil] using hjoin
  | false => exact hjoin

/-- Whether a path starts at the root shows at its start. -/
theorem isAbsolute_append {path : List Char} (h : path ≠ []) (more : List Char) :
    isAbsolute (path ++ more) = isAbsolute path := by
  obtain ⟨c, rest, rfl⟩ := List.exists_cons_of_ne_nil h
  rfl

/-- A name looked up in the directory of a path leads where `..` after the path and the name after
that lead. -/
theorem normalize_append_up {path : List Char} (hpath : path ≠ [])
    (h : parts (normalize path) = segs ++ [s]) (hs : s ≠ up) (more : List Char) :
    normalize (path ++ separator :: (up ++ separator :: more)) =
      written (isAbsolute path) (reduce (isAbsolute path) (segs ++ segments more)) := by
  rw [parts_normalize] at h
  have hsegs : IsReduced (isAbsolute path) segs := by
    have hreduced := isReduced_normalize path
    rw [h] at hreduced
    exact (hreduced.dropLast_name hs).1
  have hup : reduce (isAbsolute path) (segments path ++ [up]) = reduce (isAbsolute path) segs :=
    (reduce_append_up h hs).trans hsegs.reduce_eq.symm
  rw [normalize_eq_written, isAbsolute_append hpath, segments_append_separator,
    segments_append_separator, segments_of_separator_notMem up_separator_notMem,
    ← List.append_assoc, reduce_append_of_eq hup]

/-! ## Looking names up -/

/-- Separators are unified one character at a time. -/
theorem unify_append (path more : List Char) : unify (path ++ more) = unify path ++ unify more :=
  List.map_append

/-- No backslash is left when separators are unified. -/
theorem backslash_notMem_unify (path : List Char) : '\\' ∉ unify path := by
  intro h
  obtain ⟨c, -, hc⟩ := List.mem_map.mp h
  split at hc
  · exact absurd hc (by decide)
  · simp_all

/-- Without a backslash there is nothing to unify. -/
theorem unify_of_backslash_notMem {path : List Char} (h : '\\' ∉ path) : unify path = path := by
  have hself : ∀ c ∈ path, (if c == '\\' then separator else c) = c := by
    intro c hc
    simpa using fun he : c = '\\' => absurd (he ▸ hc) h
  rw [unify, List.map_congr_left hself, List.map_id'']
  exact fun _ => rfl

/-- A name that starts with no separator of either kind is relative. -/
theorem isAbsolute_unify {name : List Char} (h : ∀ c ∈ name.head?, c ≠ separator ∧ c ≠ '\\') :
    isAbsolute (unify name) = false := by
  cases name with
  | nil => rfl
  | cons c rest =>
    obtain ⟨hseparator, hbackslash⟩ := h c rfl
    simp [unify, isAbsolute, hseparator, hbackslash]

/-- So there is none in a name that is put beneath a base. -/
theorem backslash_notMem_beneath (base name : List Char) : '\\' ∉ beneath base name := by
  unfold beneath
  dsimp only
  split
  · exact backslash_notMem_unify name
  · simp [backslash_notMem_unify, separator]

/-- Only what is looked up first decides whether the base counts. -/
theorem beneath_append (base : List Char) {name : List Char} (h : name ≠ []) (more : List Char) :
    beneath base (name ++ more) = beneath base name ++ unify more := by
  have hunify : unify name ≠ [] := by simpa [unify] using h
  unfold beneath
  dsimp only
  rw [unify_append, isAbsolute_append hunify]
  split <;> simp

theorem beneath_ne_nil (base : List Char) {name : List Char} (h : name ≠ []) :
    beneath base name ≠ [] := by
  have hunify : unify name ≠ [] := by simpa [unify] using h
  unfold beneath
  dsimp only
  split <;> simp [hunify]

/-- The characters of written segments are separators or stand in the segments. -/
theorem mem_written {c : Char} (h : c ∈ written absolute segs) :
    c = separator ∨ ∃ s ∈ segs, c ∈ s := by
  have hjoin : ∀ {segs : List Segment}, c ∈ join segs → c = separator ∨ ∃ s ∈ segs, c ∈ s := by
    intro segs
    induction segs with
    | nil => simp [join]
    | cons s rest ih =>
      cases rest with
      | nil => exact fun hc => .inr ⟨s, by simp, hc⟩
      | cons t rest =>
        intro hc
        rw [join, List.mem_append, List.mem_cons] at hc
        rcases hc with hc | rfl | hc
        · exact .inr ⟨s, by simp, hc⟩
        · exact .inl rfl
        · obtain he | ⟨u, hu, hcu⟩ := ih hc
          · exact .inl he
          · exact .inr ⟨u, List.mem_cons_of_mem s hu, hcu⟩
  cases absolute with
  | true => exact (List.mem_cons.mp h).elim .inl hjoin
  | false => exact hjoin h

/-- A step of reducing puts nothing else on the stack. -/
theorem mem_of_mem_push {t : Segment} {stack : List Segment} (h : s ∈ push absolute stack t) :
    s = t ∨ s ∈ stack := by
  unfold push at h
  split at h
  · exact .inr h
  · split at h
    · rename_i hup
      subst hup
      cases stack with
      | nil =>
        dsimp only at h
        split at h
        · cases h
        · exact .inl (List.mem_singleton.mp h)
      | cons last rest =>
        dsimp only at h
        split at h
        · split at h
          · exact .inr h
          · exact List.mem_cons.mp h
        · exact .inr (List.mem_cons_of_mem last h)
    · exact List.mem_cons.mp h

/-- Nothing is in reduced segments that was not there before. -/
theorem mem_of_mem_reduce (h : s ∈ reduce absolute segs) : s ∈ segs := by
  have hfold : ∀ (segs stack : List Segment), s ∈ segs.foldl (push absolute) stack →
      s ∈ stack ∨ s ∈ segs := by
    intro segs
    induction segs with
    | nil => exact fun stack hs => .inl hs
    | cons t rest ih =>
      intro stack hs
      rcases ih _ hs with hs | hs
      · rcases mem_of_mem_push hs with rfl | hs
        · exact .inr List.mem_cons_self
        · exact .inl hs
      · exact .inr (List.mem_cons_of_mem t hs)
  simpa using hfold segs [] (List.mem_reverse.mp h)

/-- A normalized path has no backslashes but those of the path. -/
theorem backslash_notMem_written_parts {path : List Char} (h : '\\' ∉ path)
    (hsegs : ∀ s ∈ segs, s ∈ parts (normalize path)) : '\\' ∉ written absolute segs := by
  intro hmem
  rcases mem_written hmem with hmem | ⟨s, hs, hmem⟩
  · exact absurd hmem (by decide)
  · have hs := hsegs s hs
    rw [parts_normalize] at hs
    exact h (Text.mem_of_mem_splitAt (mem_of_mem_reduce hs) hmem).1

/-- A relative name looked up in a directory that is written out, in normal form. -/
theorem normalize_beneath_written (h : IsReduced absolute segs)
    (hplain : '\\' ∉ written absolute segs) {name : List Char}
    (hname : isAbsolute (unify name) = false) :
    normalize (beneath (written absolute segs) name) =
      written absolute (reduce absolute (segs ++ segments (unify name))) := by
  unfold beneath
  dsimp only
  by_cases hbase : written absolute segs = []
  · rw [if_pos (.inr hbase), normalize_eq_written, hname]
    cases absolute with
    | true => cases hbase
    | false =>
      have hsegs : segs = [] := by
        by_contra hne
        exact join_ne_nil h.ne_nil hne hbase
      rw [hsegs, List.nil_append]
  · rw [if_neg (by simp [hname, hbase]), unify_of_backslash_notMem hplain, normalize_eq_written,
      isAbsolute_append hbase, isAbsolute_written h, segments_append_separator]
    have hreduce := (reduce_segments_written h).trans h.reduce_eq.symm
    exact congrArg (written absolute) (reduce_append_of_eq hreduce _)

end Path

namespace TemplateKey

/-- An identity is a normalized path, perhaps with the extension after it. -/
theorem chars_resolve (base name extname : String) :
    let path := Path.normalize (Path.beneath base.toList name.toList)
    (resolve base name extname).chars = path ∨
      (resolve base name extname).chars = path ++ extname.toList := by
  unfold resolve chars
  dsimp only
  split <;> simp

/-- Identities depend on the normalized paths alone. -/
theorem resolve_eq_of_normalize {base name base' name' : String}
    (h : Path.normalize (Path.beneath base.toList name.toList) =
      Path.normalize (Path.beneath base'.toList name'.toList)) (extname : String) :
    resolve base name extname = resolve base' name' extname := by
  unfold resolve
  rw [h]

/-- The directory of an identity is its path without the last segment. -/
theorem directory_resolve {base name extname : String} (hextname : '/' ∉ extname.toList)
    {init : List Path.Segment} {last : Path.Segment}
    (h : Path.parts (Path.normalize (Path.beneath base.toList name.toList)) = init ++ [last]) :
    (resolve base name extname).directory =
      String.ofList
        (Path.written (Path.isAbsolute (Path.beneath base.toList name.toList)) init) := by
  have hreduced := Path.isReduced_parts_normalize (Path.beneath base.toList name.toList)
  rw [h] at hreduced
  have hpath := Path.written_parts_normalize (Path.beneath base.toList name.toList)
  rw [h] at hpath
  unfold directory
  refine congrArg String.ofList ?_
  rcases chars_resolve base name extname with hchars | hchars
  · have hnone : Path.separator ∉ ([] : List Char) := List.not_mem_nil
    rw [hchars, ← hpath, ← Path.directory_written hreduced hnone, List.append_nil]
  · rw [hchars, ← hpath]
    exact Path.directory_written hreduced hextname

/-- A layout that is looked up in the directory of a template has the identity that the name of
the template, `/../` and the name of the layout lead to together. -/
theorem resolve_beside (base : String) {name layout extname : String} (hname : name ≠ "")
    (hlayout : ∀ c ∈ layout.toList.head?, c ≠ '/' ∧ c ≠ '\\')
    (hextname : '/' ∉ extname.toList ∧ '\\' ∉ extname.toList)
    (hlast : ∃ last ∈ (Path.parts
      (Path.normalize (Path.beneath base.toList name.toList))).getLast?, last ≠ Path.up) :
    resolve (resolve base name extname).directory layout extname =
      resolve base (name ++ "/../" ++ layout) extname := by
  set path := Path.beneath base.toList name.toList with hpath
  obtain ⟨last, hmem, hup⟩ := hlast
  obtain ⟨init, hparts⟩ := List.getLast?_eq_some_iff.mp hmem
  have hchars : name.toList ≠ [] := by simpa using hname
  have hreduced : Path.IsReduced (Path.isAbsolute path) init := by
    have hreduced := Path.isReduced_parts_normalize path
    rw [hparts] at hreduced
    exact (hreduced.dropLast_name hup).1
  have hplain : '\\' ∉ Path.written (Path.isAbsolute path) init :=
    Path.backslash_notMem_written_parts (Path.backslash_notMem_beneath _ _) fun s hs => by
      rw [hparts]
      exact List.mem_append_left _ hs
  have hrelative := Path.isAbsolute_unify hlayout
  apply resolve_eq_of_normalize
  rw [directory_resolve hextname.1 hparts, String.toList_ofList,
    Path.normalize_beneath_written hreduced hplain hrelative]
  have happend : (name ++ "/../" ++ layout).toList =
      name.toList ++ Path.separator :: (Path.up ++ Path.separator :: layout.toList) := by
    simp [Path.separator, Path.up]
  have hunify : Path.unify (Path.separator :: (Path.up ++ Path.separator :: layout.toList)) =
      Path.separator :: (Path.up ++ Path.separator :: Path.unify layout.toList) := rfl
  rw [happend, Path.beneath_append _ hchars, hunify,
    Path.normalize_append_up (Path.beneath_ne_nil _ hchars) hparts hup]

/-- A template above its base, named in the other notation for paths. -/
theorem resolve_beside_above :
    resolve (resolve "views" "..\\..\\x" ".hbs").directory "y" ".hbs" =
        resolve "views" ("..\\..\\x" ++ "/../" ++ "y") ".hbs" ∧
      (resolve "views" "..\\..\\x" ".hbs").text = "../x.hbs" := by
  refine ⟨resolve_beside "views" (by decide) (by simp) (by decide) ?_, by decide +kernel⟩
  exact ⟨['x'], by decide +kernel, by decide⟩

end TemplateKey
end Views
