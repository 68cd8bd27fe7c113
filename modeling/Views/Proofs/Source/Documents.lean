import Views.Proofs.Extension
import Views.Source.Documents
import Mathlib.Data.List.DropRight
/-!
# The names of documents

A document is named as its template is named from the directory of the views, so the source of
documents cuts that directory off the identity. An identity begins with the normal form of the
directory (`TemplateKey.chars_resolve_below`), while what is cut off is the directory as it was
written down. Hence the name comes back exactly if the directory is written in normal form, up to
separators at its end, or if its normal form is empty, so that nothing is to be cut off
(`DocumentSource.documentName_resolve_iff`).
-/

namespace Views

namespace Path

variable {absolute : Bool} {segs names : List Segment} {s : Segment} {path more tail : List Char}

/-! ## Names below a directory -/

/-- Names may be added at the end of a reduced path, which stays reduced. -/
theorem IsReduced.append_names (h : IsReduced absolute segs) (hnames : ∀ s ∈ names, IsName s) :
    IsReduced absolute (segs ++ names) := by
  obtain ⟨climb, first, rfl, hfirst, habsolute⟩ := h
  refine ⟨climb, first ++ names, by simp, fun s hs => ?_, habsolute⟩
  rcases List.mem_append.mp hs with hs | hs
  · exact hfirst s hs
  · exact hnames s hs

/-- Reduced segments that do not start with `..` are names. -/
theorem IsReduced.isName_of_head (h : IsReduced absolute (s :: segs)) (hs : s ≠ up) :
    ∀ t ∈ s :: segs, IsName t := by
  obtain ⟨climb, names, heq, hnames, -⟩ := h
  cases climb with
  | zero => simpa [heq] using hnames
  | succ n =>
    rw [List.replicate_succ, List.cons_append] at heq
    exact absurd (List.cons.inj heq).1 hs

/-- In a reduced path that does not begin with a step upwards every part is a name. -/
theorem isName_of_parts {rest : List Segment} (h : parts (normalize path) = s :: rest)
    (hs : s ≠ up) : ∀ t ∈ parts (normalize path), IsName t := by
  have hreduced := isReduced_parts_normalize path
  rw [h] at hreduced ⊢
  exact hreduced.isName_of_head hs

/-- The parts of two paths are joined with one separator between them. -/
theorem join_append (hsegs : segs ≠ []) (hnames : names ≠ []) :
    join (segs ++ names) = join segs ++ separator :: join names := by
  induction segs with
  | nil => exact absurd rfl hsegs
  | cons s rest ih =>
    cases rest with
    | nil =>
      obtain ⟨t, more, rfl⟩ := List.exists_cons_of_ne_nil hnames
      rfl
    | cons u rest => simpa [join] using ih (by simp)

/-- Where a path goes on by names, its normal form goes on by these names. -/
theorem normalize_append_names (hpath : path ≠ []) (hmore : isAbsolute more = false)
    (hnames : ∀ s ∈ parts (normalize more), IsName s) :
    normalize (path ++ separator :: more) =
      written (isAbsolute path) (parts (normalize path) ++ parts (normalize more)) := by
  have hreduced := (isReduced_parts_normalize path).append_names hnames
  have hsame : SamePlace (path ++ separator :: more)
      (written (isAbsolute path) (parts (normalize path) ++ parts (normalize more))) := by
    intro directory _
    have hstart := locate_eq_walk_parts directory path
    have hrest := fun d => locate_eq_walk_parts d more
    simp only [locate_eq_walk, hmore] at hstart hrest
    rw [locate_eq_walk, locate_eq_walk, isAbsolute_append hpath, isAbsolute_written hreduced,
      walk_segments_written hreduced, segments_append_separator, walk_append, walk_append, hstart]
    simpa using hrest _
  rw [hsame.normalize_eq (by rw [isAbsolute_append hpath, isAbsolute_written hreduced]),
    normalize_written hreduced]

/-- Names looked up in a directory follow on the normal form of the directory. -/
theorem normalize_beneath_names (base : List Char) {name : List Char}
    (hname : isAbsolute (unify name) = false)
    (hnames : ∀ s ∈ parts (normalize (unify name)), IsName s) :
    normalize (beneath base name) = written (isAbsolute (unify base))
      (parts (normalize (unify base)) ++ parts (normalize (unify name))) := by
  unfold beneath
  dsimp only
  by_cases hbase : base = []
  · have hpath := written_parts_normalize (unify name)
    rw [hname] at hpath
    rw [if_pos (.inr hbase), hbase]
    exact hpath.symm
  · have hunify : unify base ≠ [] := by simpa [unify] using hbase
    rw [if_neg (by simp [hname, hbase]), normalize_append_names hunify hname hnames]

/-! ## Separators at the end -/

/-- Separators at the end of a path do not change where it leads. -/
theorem walk_segments_append_separators (directory : List Segment)
    (h : ∀ c ∈ tail, c = separator) :
    walk directory (segments (path ++ tail)) = walk directory (segments path) := by
  induction tail generalizing path with
  | nil => simp
  | cons c tail ih =>
    obtain ⟨rfl, htail⟩ := List.forall_mem_cons.mp h
    have hmore := @ih (path ++ [separator]) htail
    rw [List.append_assoc, List.singleton_append] at hmore
    have hnil : segments [] = [[]] := rfl
    rw [hmore, segments_append_separator, walk_append, hnil, walk_cons, enter_nil, walk_nil]

/-- The text of segments ends in no separator. -/
theorem trimEnd_written (h : IsReduced absolute segs) (hsegs : segs ≠ []) :
    Text.trimEnd (· == separator) (written absolute segs) = written absolute segs := by
  refine List.rdropWhile_eq_self_iff.mpr fun hne => ?_
  obtain ⟨init, last, rfl⟩ : ∃ init last, segs = init ++ [last] :=
    ⟨_, _, (List.dropLast_append_getLast hsegs).symm⟩
  have hlast : last ≠ [] := h.ne_nil last (by simp)
  have hwritten : written absolute (init ++ [last]) = written absolute (init ++ [[]]) ++ last :=
    (written_append_last absolute init [] last).symm
  have hnone := h.separator_notMem last (by simp)
  simp only [hwritten, List.getLast_append_of_ne_nil _ hlast, beq_iff_eq]
  intro heq
  exact hnone (heq ▸ List.getLast_mem hlast)

/-- A path in normal form ends in no separator, unless it is the root. -/
theorem trimEnd_normalize (path : List Char) :
    Text.trimEnd (· == separator) (normalize path) = normalize path ∨
      normalize path = [separator] := by
  by_cases hparts : parts (normalize path) = []
  · have hpath := written_parts_normalize path
    rw [hparts] at hpath
    cases habsolute : isAbsolute path with
    | true => exact .inr (by rw [← hpath, habsolute]; rfl)
    | false => exact .inl (by rw [← hpath, habsolute]; rfl)
  · rw [← written_parts_normalize path]
    exact .inl (trimEnd_written (isReduced_parts_normalize path) hparts)

/-- Names that follow on a normal form are separated from it, unless it is empty. -/
theorem written_parts_append (path : List Char) (hnames : names ≠ []) :
    written (isAbsolute path) (parts (normalize path) ++ names) =
      if normalize path = [] then join names
      else Text.trimEnd (· == separator) (normalize path) ++ separator :: join names := by
  have hreduced := isReduced_parts_normalize path
  rw [← written_parts_normalize path, parts_written hreduced]
  by_cases hparts : parts (normalize path) = []
  · rw [hparts]
    cases isAbsolute path <;> rfl
  · have hne : written (isAbsolute path) (parts (normalize path)) ≠ [] := by
      have hjoin := join_ne_nil hreduced.ne_nil hparts
      cases isAbsolute path <;> simp [written, hjoin]
    rw [if_neg hne, trimEnd_written hreduced hparts]
    cases isAbsolute path <;> simp [written, join_append hparts hnames]

theorem normalize_unify_ne_nil
    (hnames : ∀ s ∈ segments (Text.trimEnd (· == separator) path), IsName s)
    (hplain : '\\' ∉ Text.trimEnd (· == separator) path) : normalize (unify path) ≠ [] := by
  intro hnil
  have htail : ∀ c ∈ Text.tailRun (· == separator) path, c = separator := by
    intro c hc
    simpa using List.mem_takeWhile_imp (List.mem_reverse.mp hc)
  have hseparators : '\\' ∉ Text.tailRun (· == separator) path := fun hc =>
    absurd (htail _ hc) (by decide)
  have hunify : unify path = path := by
    refine unify_of_backslash_notMem fun hc => ?_
    rw [← Text.trimEnd_append_tailRun (· == separator) path, List.mem_append] at hc
    exact hc.elim hplain hseparators
  have hwalk : walk [] (segments path) = segments (Text.trimEnd (· == separator) path) := by
    rw [← Text.trimEnd_append_tailRun (· == separator) path,
      walk_segments_append_separators [] htail, walk_names hnames, List.nil_append,
      Text.trimEnd_append_tailRun]
  have hlocate := locate_eq_walk_parts [] path
  rw [hunify] at hnil
  rw [locate_eq_walk, ite_self, hwalk, hnil] at hlocate
  exact Text.splitAt_ne_nil _ _ hlocate

end Path

namespace TemplateKey

open Views.Path (separator unify normalize parts written beneath)

/-- What resolving adds to a path depends on its last segment alone. -/
theorem chars_resolve_of_written {base name : String} {absolute : Bool}
    {init : List Path.Segment} {last : Path.Segment} (h : Path.IsReduced absolute (init ++ [last]))
    (hpath : normalize (beneath base.toList name.toList) = written absolute (init ++ [last]))
    (extname : String) : (resolve base name extname).chars = written absolute (init ++ [last]) ++
      if (Path.extension? last).isSome then [] else extname.toList := by
  have hlast := Path.extension?_written h
  rw [← hpath] at hlast
  cases hext : Path.extension? last with
  | some ext =>
    rw [chars_resolve_of_extension (hlast.trans hext), hpath]
    simp
  | none =>
    rw [chars_resolve_of_no_extension (hlast.trans hext), hpath]
    simp

/-- The identity of a name in a directory is the name's own identity, with the normal form of the
directory in front; both get the extension or neither does. -/
theorem chars_resolve_below (directory : String) {name : String} (extname : String)
    (hname : Path.isAbsolute (unify name.toList) = false) {s : Path.Segment}
    {rest : List Path.Segment} (hparts : parts (normalize (unify name.toList)) = s :: rest)
    (hs : s ≠ Path.up) :
    let path := normalize (unify directory.toList)
    let own := (resolve "" name extname).chars
    (resolve directory name extname).chars =
      if path = [] then own else Text.trimEnd (· == separator) path ++ separator :: own := by
  have hreduced := Path.isReduced_parts_normalize (unify name.toList)
  have hnames := Path.isName_of_parts hparts hs
  obtain ⟨init, last, hlast⟩ :
      ∃ init last, parts (normalize (unify name.toList)) = init ++ [last] :=
    ⟨_, _, (List.dropLast_append_getLast (by simp [hparts])).symm⟩
  rw [hname, hlast] at hreduced
  rw [hlast] at hnames
  have hbelow := Path.normalize_beneath_names directory.toList hname (hlast ▸ hnames)
  rw [hlast, ← List.append_assoc] at hbelow
  have hown : normalize (beneath "".toList name.toList) = written false (init ++ [last]) := by
    have hbare := Path.normalize_beneath_names "".toList hname (hlast ▸ hnames)
    rw [hlast] at hbare
    exact hbare
  have hbelow' := (Path.isReduced_parts_normalize (unify directory.toList)).append_names hnames
  rw [← List.append_assoc] at hbelow'
  dsimp only
  rw [chars_resolve_of_written hbelow' hbelow, chars_resolve_of_written hreduced hown,
    List.append_assoc, Path.written_parts_append _ (by simp)]
  split <;> simp [written]

/-- A separator that does not stand in an ending stands before it. -/
theorem exists_separator_of_append {path ending before rest : List Char}
    (h : path ++ ending = before ++ separator :: rest) (hending : separator ∉ ending) :
    ∃ after, path = before ++ separator :: after := by
  rcases List.append_eq_append_iff.mp h with ⟨between, rfl, hend⟩ | ⟨between, hpath, hrest⟩
  · exact absurd (by simp [hend]) hending
  · cases between with
    | nil =>
      rw [List.nil_append] at hrest
      exact absurd (by simp [← hrest]) hending
    | cons c after =>
      obtain ⟨rfl, -⟩ := List.cons.inj hrest
      exact ⟨after, hpath⟩

/-- What stands before a separator in the own identity of a name consists of names. -/
theorem isName_of_chars_resolve {name extname : String}
    (hname : Path.isAbsolute (unify name.toList) = false)
    (hnames : ∀ s ∈ parts (normalize (unify name.toList)), Path.IsName s)
    (hextname : separator ∉ extname.toList) {before rest : List Char}
    (h : (resolve "" name extname).chars = before ++ separator :: rest) :
    (∀ s ∈ Path.segments before, Path.IsName s) ∧ '\\' ∉ before := by
  have hbeneath : beneath "".toList name.toList = unify name.toList := by simp [beneath]
  obtain ⟨added, hadded, hchars⟩ : ∃ added, separator ∉ added ∧
      (resolve "" name extname).chars = normalize (unify name.toList) ++ added := by
    rw [← hbeneath]
    rcases chars_resolve "" name extname with hchars | hchars
    · exact ⟨[], by simp, by simpa using hchars⟩
    · exact ⟨extname.toList, hextname, hchars⟩
  -- The separator is not in the extension, so it stands in the normalized name.
  obtain ⟨after, hpath⟩ := exists_separator_of_append (hchars.symm.trans h) hadded
  have hreduced := Path.isReduced_parts_normalize (unify name.toList)
  have hwritten := Path.written_parts_normalize (unify name.toList)
  have hplain : '\\' ∉ normalize (unify name.toList) := by
    rw [← hwritten]
    exact Path.backslash_notMem_written_parts (Path.backslash_notMem_unify _) fun _ hs => hs
  rw [hpath] at hplain
  refine ⟨fun s hs => hnames s ?_, fun hmem => hplain (List.mem_append_left _ hmem)⟩
  have hsegs := Path.segments_join hreduced.separator_notMem
  rw [hname] at hwritten
  have hjoin : Path.join (parts (normalize (unify name.toList))) = before ++ separator :: after :=
    hwritten.trans hpath
  rw [hjoin, Path.segments_append_separator] at hsegs
  split at hsegs
  · rename_i hnone
    rw [hnone] at hjoin
    exact absurd hjoin (by simp [Path.join])
  · rw [← hsegs]
    exact List.mem_append_left _ hs

end TemplateKey

namespace DocumentSource

open Views.Path (separator unify normalize parts)

/-- The directory that is cut off identities: the path of the views as it is written down, without
separators at its end. -/
def cut (s : DocumentSource) : List Char := Text.trimEnd (· == separator) s.viewPath.toList

/-- A document is named by what follows the directory and a separator in the identity, and by the
identity if it does not begin with these. -/
theorem documentName_cases (s : DocumentSource) (id : TemplateKey) :
    (∃ rest, s.cut ≠ [] ∧ id.chars = s.cut ++ separator :: rest ∧
        s.documentName id = String.ofList rest) ∨
      (∀ rest, s.cut ≠ [] → id.chars ≠ s.cut ++ separator :: rest) ∧
        s.documentName id = id.text := by
  unfold documentName
  dsimp only
  rw [← cut]
  by_cases hcut : s.cut = []
  · exact .inr ⟨fun rest hne => absurd hcut hne, by rw [if_pos hcut]⟩
  rw [if_neg hcut]
  by_cases hbegins : s.cut.isPrefixOf id.chars = true
  · obtain ⟨after, hafter⟩ := List.isPrefixOf_iff_prefix.mp hbegins
    rw [if_pos hbegins, ← hafter, List.drop_left]
    cases after with
    | nil => exact .inr ⟨by simp, rfl⟩
    | cons c rest =>
      by_cases hc : c = separator
      · exact .inl ⟨rest, hcut, by rw [hc], by simp [hc]⟩
      · refine .inr ⟨fun other _ heq => ?_, by simp [hc]⟩
        rw [List.append_cancel_left_eq] at heq
        exact hc (List.cons.inj heq).1
  · refine .inr ⟨fun rest _ heq => ?_, by rw [if_neg hbegins]⟩
    rw [heq] at hbegins
    exact hbegins (List.isPrefixOf_iff_prefix.mpr (List.prefix_append _ _))

/-- What follows a separator in an identity names the document just if the directory that is cut
off stands before that. -/
theorem documentName_eq_iff {s : DocumentSource} {id : TemplateKey} {before rest : List Char}
    (h : id.chars = before ++ separator :: rest) :
    s.documentName id = String.ofList rest ↔ before = s.cut ∧ s.cut ≠ [] := by
  rcases s.documentName_cases id with ⟨after, hne, hcut, htext⟩ | ⟨hcut, htext⟩
  · rw [htext, String.ofList_inj]
    constructor
    · rintro rfl
      rw [h, List.append_cancel_right_eq] at hcut
      exact ⟨hcut, hne⟩
    · rintro ⟨rfl, -⟩
      rw [h, List.append_cancel_left_eq] at hcut
      exact (List.cons.inj hcut).2.symm
  · rw [htext]
    constructor
    · intro hsame
      have hlength := congrArg List.length h
      rw [TemplateKey.chars, hsame, String.toList_ofList, List.length_append,
        List.length_cons] at hlength
      omega
    · rintro ⟨rfl, hne⟩
      exact absurd h (hcut rest hne)

/-- The view path as it is cut off has no separator left at its end. -/
theorem trimEnd_cut (s : DocumentSource) : Text.trimEnd (· == separator) s.cut = s.cut :=
  List.rdropWhile_idempotent _ _

/-- The directory that is cut off is a normal form without separators at its end just if it is that
normal form, unless this is empty. -/
theorem trimEnd_normalize_eq_cut_iff {s : DocumentSource} {path : List Char}
    (h : normalize path ≠ []) :
    Text.trimEnd (· == separator) (normalize path) = s.cut ∧ s.cut ≠ [] ↔
      normalize path = s.cut := by
  constructor
  · rintro ⟨hcut, hne⟩
    rcases Path.trimEnd_normalize path with htrim | hroot
    · exact htrim.symm.trans hcut
    · have hnil : Text.trimEnd (· == separator) (normalize path) = [] := by
        rw [hroot]
        rfl
      exact absurd (hcut.symm.trans hnil) hne
  · intro hcut
    rw [hcut, s.trimEnd_cut]
    exact ⟨rfl, hcut ▸ h⟩

/-- Cutting the directory of the views off the identity of a name in it gives the name's own
identity exactly if the directory is written in normal form, up to separators at its end, or if its
normal form is empty. -/
theorem documentName_resolve_iff (views : String) {name extname : String}
    (hname : Path.isAbsolute (unify name.toList) = false)
    (hparts : ∃ s rest, parts (normalize (unify name.toList)) = s :: rest ∧ s ≠ Path.up)
    (hextname : separator ∉ extname.toList) :
    let source : DocumentSource := ⟨views⟩
    let directory := normalize (unify views.toList)
    source.documentName (TemplateKey.resolve views name extname) =
        (TemplateKey.resolve "" name extname).text ↔
      directory = [] ∨ directory = source.cut := by
  obtain ⟨s, rest, hparts, hs⟩ := hparts
  intro source directory
  set own := TemplateKey.resolve "" name extname
  set id := TemplateKey.resolve views name extname
  have hchars : id.chars =
      if directory = [] then own.chars
      else Text.trimEnd (· == separator) directory ++ separator :: own.chars :=
    TemplateKey.chars_resolve_below views extname hname hparts hs
  by_cases hdirectory : directory = []
  · rw [if_pos hdirectory] at hchars
    simp only [hdirectory, true_or, iff_true]
    rcases source.documentName_cases id with ⟨after, -, hcut, -⟩ | ⟨-, htext⟩
    · -- A spelling that stands in the name's own identity has names, and a normal form with them.
      rw [hchars] at hcut
      obtain ⟨hsegs, hplain⟩ := TemplateKey.isName_of_chars_resolve hname
        (Path.isName_of_parts hparts hs) hextname hcut
      exact absurd hdirectory (Path.normalize_unify_ne_nil hsegs hplain)
    · rw [htext]
      exact String.ext hchars
  · rw [if_neg hdirectory] at hchars
    have htext : own.text = String.ofList own.chars := String.ofList_toList.symm
    rw [htext, documentName_eq_iff hchars, trimEnd_normalize_eq_cut_iff hdirectory]
    simp only [hdirectory, false_or]
    exact Iff.rfl

/-- Views under a directory with a separator too many at its end. -/
theorem documentName_resolve_trailing :
    (DocumentSource.mk "/srv/views//").documentName
        (TemplateKey.resolve "/srv/views//" "pages\\..\\home" ".hbs") =
      (TemplateKey.resolve "" "pages\\..\\home" ".hbs").text := by
  refine (documentName_resolve_iff "/srv/views//" ?_ ?_ (by decide)).mpr (.inr ?_)
  · decide +kernel
  · exact ⟨['h', 'o', 'm', 'e'], [], by decide +kernel, by decide⟩
  · decide +kernel

/-- A directory that is written with a `.` in front is not found in the identity. -/
theorem documentName_resolve_here :
    Path.isAbsolute (unify "home".toList) = false ∧
      parts (normalize (unify "home".toList)) = [['h', 'o', 'm', 'e']] ∧
      (DocumentSource.mk "./views").documentName (TemplateKey.resolve "./views" "home" ".hbs") =
        "views/home.hbs" ∧
      (TemplateKey.resolve "" "home" ".hbs").text = "home.hbs" := by
  decide +kernel

end DocumentSource
end Views
