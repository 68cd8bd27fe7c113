import Views.Proofs.TemplateKey
/-!
# Identities resolve to themselves

An identity is settled if its text is in normal form, has an extension and holds no backslash.
Resolving a settled identity again gives it back, as a bare name or, if it starts at the root, as a
name in any directory (`TemplateKey.IsSettled.resolve_eq`). Every name that leads anywhere resolves
to a settled identity (`TemplateKey.isSettled_resolve`): the configured extension goes to the last
segment, and what comes of that is a name with an extension even if the segment is `..` or ends in a
dot (`Path.IsExtension.isName_append`, `Path.IsExtension.isSome_extension?_append`).

Two of the cases are less plain than they look. A name that leads nowhere, as `a/..` does in no
directory at all, has no segment that could take the extension, so it is left out. And a name that
leads to a directory above has `..` for its last segment, which with the extension `.hbs` becomes
`...hbs`: a file name, which no longer leads upwards.
-/

namespace Views

namespace Path

variable {absolute : Bool} {segs : List Segment} {s : Segment} {e path : List Char}

/-! ## File names and extensions -/

/-- What may be added to names as an extension: a dot and something after it that does not end in a
dot, without separators of either kind. -/
structure IsExtension (e : List Char) : Prop where
  dot : e.head? = some '.'
  last_ne_dot : e.getLast? ≠ some '.'
  separator_notMem : separator ∉ e
  backslash_notMem : '\\' ∉ e

/-- The last segment of a path that is written from segments. -/
theorem fileName_written (h : IsReduced absolute (segs ++ [s])) :
    fileName (written absolute (segs ++ [s])) = s := by
  have hjoin : segments (join (segs ++ [s])) = segs ++ [s] := by
    rw [segments_join h.separator_notMem, if_neg (by simp)]
  unfold fileName
  cases absolute with
  | true => simp [written, segments_separator_cons, hjoin, List.getLast?_cons]
  | false => simp [written, hjoin]

/-- What is added to a path is added to its last segment. -/
theorem written_append_last (absolute : Bool) (segs : List Segment) (s e : Segment) :
    written absolute (segs ++ [s]) ++ e = written absolute (segs ++ [s ++ e]) := by
  have hjoin : join (segs ++ [s]) ++ e = join (segs ++ [s ++ e]) := by
    by_cases hsegs : segs = []
    · simp [hsegs, join]
    · simp [join_append_singleton hsegs]
  cases absolute with
  | true => simp [written, hjoin]
  | false => exact hjoin

/-- The extension starts at the last dot, if something is before that and something after. -/
theorem extension?_eq_some {stem tail : List Char} (hfile : fileName path = stem ++ '.' :: tail)
    (hstem : stem ≠ []) (htail : tail ≠ []) (hdot : '.' ∉ tail) :
    extension? path = some ('.' :: tail) := by
  have hrun : ∀ c ∈ tail.reverse, (c != '.') = true := by
    intro c hc
    have hne : c ≠ '.' := fun he => hdot (he ▸ List.mem_reverse.mp hc)
    simpa using hne
  have hreverse : (fileName path).reverse = tail.reverse ++ '.' :: stem.reverse := by
    simp [hfile]
  have htake : (fileName path).reverse.takeWhile (· != '.') = tail.reverse := by
    rw [hreverse, List.takeWhile_append_of_pos hrun]
    simp
  have hdrop : (fileName path).reverse.drop (tail.reverse.length + 1) = stem.reverse := by
    rw [hreverse, List.drop_length_add_append]
    rfl
  unfold extension?
  dsimp only
  rw [htake, hdrop, if_pos ⟨by simp [hfile], by simpa using htail, by simpa using hstem⟩,
    List.reverse_reverse]

/-- The extension depends on the last segment alone. -/
theorem extension?_written (h : IsReduced absolute (segs ++ [s])) :
    extension? (written absolute (segs ++ [s])) = extension? s := by
  have hs : fileName s = s := by
    simp [fileName, segments_of_separator_notMem (h.separator_notMem s (by simp))]
  unfold extension?
  rw [fileName_written h, hs]

namespace IsExtension

/-- An extension is a dot with at least one character after it. -/
theorem two_le_length (h : IsExtension e) : 2 ≤ e.length := by
  match e, h.dot, h.last_ne_dot with
  | [c], hdot, hlast => exact absurd hdot hlast
  | c :: d :: rest, _, _ => simp

/-- A segment with an extension is a name. -/
theorem isName_append (h : IsExtension e) (hne : s ≠ []) (hs : separator ∉ s) :
    IsName (s ++ e) := by
  have hlength : 3 ≤ (s ++ e).length := by
    have hpos := List.length_pos_of_ne_nil hne
    have htwo := h.two_le_length
    rw [List.length_append]
    omega
  refine ⟨?_, ?_, ?_, ?_⟩
  · intro he
    simp [he] at hlength
  · intro he
    simp [he, here] at hlength
  · intro he
    simp [he, up] at hlength
  · simp [hs, h.separator_notMem]

/-- A segment with an extension has one, be it `..` before. -/
theorem isSome_extension?_append (h : IsExtension e) (hne : s ≠ []) (hs : separator ∉ s) :
    (extension? (s ++ e)).isSome := by
  have hmem : '.' ∈ e.reverse := List.mem_reverse.mpr (List.mem_of_mem_head? h.dot)
  obtain ⟨tail, stem, hreverse, hdot⟩ := List.eq_append_cons_of_mem hmem
  have he : e = stem.reverse ++ '.' :: tail.reverse := by
    rw [← List.reverse_reverse e, hreverse]
    simp
  have htail : tail.reverse ≠ [] := by
    intro hnil
    apply h.last_ne_dot
    rw [he, hnil, List.getLast?_concat]
  have hfile : fileName (s ++ e) = (s ++ stem.reverse) ++ '.' :: tail.reverse := by
    have hname := (h.isName_append hne hs).separator_notMem
    rw [fileName, segments_of_separator_notMem hname]
    simp [he]
  rw [extension?_eq_some hfile (by simp [hne]) htail (by simpa using hdot)]
  rfl

end IsExtension

/-! ## Normal forms -/

/-- A path that is written from reduced segments is its own normal form. -/
theorem normalize_written (h : IsReduced absolute segs) :
    normalize (written absolute segs) = written absolute segs := by
  rw [normalize_eq_written, isAbsolute_written h, reduce_segments_written h]

/-- Reduced segments stay reduced when the last one gets an extension. -/
theorem IsReduced.append_extension (h : IsReduced absolute (segs ++ [s])) (he : IsExtension e) :
    IsReduced absolute (segs ++ [s ++ e]) :=
  h.dropLast.append_name (he.isName_append (h.ne_nil s (by simp)) (h.separator_notMem s (by simp)))

end Path

namespace TemplateKey

/-- An identity whose text is in normal form and has an extension, and no backslash. -/
structure IsSettled (id : TemplateKey) : Prop where
  backslash_notMem : '\\' ∉ id.chars
  isSome_extension? : id.extension?.isSome
  normalize_chars : Path.normalize id.chars = id.chars

/-- A name with an extension has its normalized path as its identity. -/
theorem chars_resolve_of_extension {base name : String} {ext : List Char}
    (h : Path.extension? (Path.normalize (Path.beneath base.toList name.toList)) = some ext)
    (extname : String) : (resolve base name extname).chars =
      Path.normalize (Path.beneath base.toList name.toList) := by
  unfold resolve chars
  dsimp only
  rw [h, String.toList_ofList]

/-- A name without an extension gets the configured one. -/
theorem chars_resolve_of_no_extension {base name : String}
    (h : Path.extension? (Path.normalize (Path.beneath base.toList name.toList)) = none)
    (extname : String) : (resolve base name extname).chars =
      Path.normalize (Path.beneath base.toList name.toList) ++ extname.toList := by
  unfold resolve chars
  dsimp only
  rw [h, String.toList_ofList]

/-- A settled identity resolves to itself wherever its text is looked up as it is. -/
theorem IsSettled.resolve_eq {id : TemplateKey} (h : id.IsSettled) {base : String}
    (hbase : base = "" ∨ Path.isAbsolute id.chars) (extname : String) :
    resolve base id.text extname = id := by
  have hbeneath : Path.beneath base.toList id.text.toList = id.chars := by
    have hunify : Path.unify id.text.toList = id.chars :=
      Path.unify_of_backslash_notMem h.backslash_notMem
    unfold Path.beneath
    dsimp only
    rw [hunify, if_pos]
    rcases hbase with rfl | habsolute
    · exact .inr rfl
    · exact .inl habsolute
  obtain ⟨ext, hext⟩ := Option.isSome_iff_exists.mp h.isSome_extension?
  obtain ⟨found, hfound, -⟩ := Option.map_eq_some_iff.mp hext
  unfold resolve
  dsimp only
  rw [hbeneath, h.normalize_chars, hfound]
  exact congrArg TemplateKey.mk String.ofList_toList

/-- A name that leads anywhere below the place where it starts has a settled identity. -/
theorem isSettled_resolve {base name extname : String}
    (hextname : Path.IsExtension extname.toList)
    (hparts : Path.parts (Path.normalize (Path.beneath base.toList name.toList)) ≠ []) :
    (resolve base name extname).IsSettled := by
  set joined := Path.beneath base.toList name.toList with hjoined
  obtain ⟨init, last, hlast⟩ : ∃ init last, Path.parts (Path.normalize joined) = init ++ [last] :=
    ⟨_, _, (List.dropLast_append_getLast hparts).symm⟩
  have hreduced := Path.isReduced_parts_normalize joined
  have hpath := Path.written_parts_normalize joined
  rw [hlast] at hreduced hpath
  have hplain : '\\' ∉ Path.normalize joined := by
    rw [← Path.written_parts_normalize joined]
    exact Path.backslash_notMem_written_parts (Path.backslash_notMem_beneath _ _) fun _ hs => hs
  cases hext : Path.extension? (Path.normalize joined) with
  | some ext =>
    have hchars : (resolve base name extname).chars = Path.normalize joined :=
      chars_resolve_of_extension hext extname
    refine ⟨hchars ▸ hplain, ?_, ?_⟩
    · simp [extension?, hchars, hext]
    · rw [hchars, ← hpath, Path.normalize_written hreduced]
  | none =>
    -- The extension goes to the last segment, and so the text is still written from segments.
    have hreduced' := hreduced.append_extension hextname
    have hchars : (resolve base name extname).chars =
        Path.written (Path.isAbsolute joined) (init ++ [last ++ extname.toList]) := by
      rw [← Path.written_append_last, hpath, chars_resolve_of_no_extension hext]
    refine ⟨?_, ?_, ?_⟩
    · rw [hchars, ← Path.written_append_last, hpath, List.mem_append, not_or]
      exact ⟨hplain, hextname.backslash_notMem⟩
    · have hsome := hextname.isSome_extension?_append (hreduced.ne_nil last (by simp))
        (hreduced.separator_notMem last (by simp))
      rw [extension?, hchars, Path.extension?_written hreduced', Option.isSome_map]
      exact hsome
    · rw [hchars, Path.normalize_written hreduced']

/-- The identity of a name that leads anywhere holds no backslash, has an extension and resolves to
itself; if it starts at the root, it does so in every directory. -/
theorem resolve_resolve (base name : String) {extname : String}
    (hextname : Path.IsExtension extname.toList)
    (hparts : Path.parts (Path.normalize (Path.beneath base.toList name.toList)) ≠ []) :
    let id := resolve base name extname
    '\\' ∉ id.chars ∧ id.extension?.isSome ∧ resolve "" id.text extname = id ∧
      (Path.isAbsolute id.chars → ∀ other : String, resolve other id.text extname = id) := by
  have hsettled := isSettled_resolve hextname hparts
  refine ⟨hsettled.backslash_notMem, hsettled.isSome_extension?, ?_, fun habsolute other => ?_⟩
  · exact hsettled.resolve_eq (.inl rfl) extname
  · exact hsettled.resolve_eq (.inr habsolute) extname

/-- The directory above gets the extension, and with it is a name of its own. -/
theorem resolve_resolve_above :
    resolve "" (resolve "views" "..\\.." ".hbs").text ".hbs" = resolve "views" "..\\.." ".hbs" ∧
      (resolve "views" "..\\.." ".hbs").text = "...hbs" := by
  have hextname : Path.IsExtension ".hbs".toList := ⟨by decide, by decide, by decide, by decide⟩
  exact ⟨(resolve_resolve "views" "..\\.." hextname (by decide +kernel)).2.2.1, by decide +kernel⟩

end TemplateKey
end Views
