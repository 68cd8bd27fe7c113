import Views.Layout.Directive
import Mathlib.Data.List.Infix
import Mathlib.Data.Nat.Find
import Mathlib.Logic.IsEmpty.Basic
/-!
# Where a directive stands

`Directive.find?` gives the name of the directive that stands first in a source, and nothing just if
no directive stands in it (`Directive.find?_first`). A directive is taken apart in one way only:
blanks are no name characters, and a closing brace is neither, so each run ends where the next part
starts (`Text.eq_of_append_eq_append`). Hence a match at a given place is the form of a directive
there (`Directive.matchAt?_eq_some_iff`), and the search tries the places one after the other
(`Directive.search_eq_some_iff`).

The search is greedy: it takes all the blanks that it can, and all the characters of a name. The
form of a directive (`Directive.Occurrence`) says nothing of that. The two agree since what follows
a run never begins with a character of that run: `takeWhile_run_append` and `dropWhile_run_append`.
Where the match fails, as with a name that no closing braces follow, there is no occurrence at that
place either, and the search goes on at the next one.
-/

namespace Views

/-! ## Runs of characters -/

namespace Text

variable {p : Char → Bool} {run run' rest rest' : List Char}

/-- A run ends where a character stands that does not belong to it. -/
theorem takeWhile_run_append (hrun : run.all p) (hrest : ∀ c ∈ rest.head?, p c = false) :
    (run ++ rest).takeWhile p = run := by
  rw [List.takeWhile_append_of_pos (List.all_eq_true.mp hrun)]
  cases rest with
  | nil => simp
  | cons c rest => simp [hrest c rfl]

/-- What is dropped from a text is a run of characters that pass, and the text starts again where
the first one fails. -/
theorem dropWhile_run_append (hrun : run.all p) (hrest : ∀ c ∈ rest.head?, p c = false) :
    (run ++ rest).dropWhile p = rest := by
  rw [List.dropWhile_append_of_pos (List.all_eq_true.mp hrun)]
  cases rest with
  | nil => rfl
  | cons c rest => simp [hrest c rfl]

/-- A text is cut after a run in one way. -/
theorem eq_of_append_eq_append (hrun : run.all p) (hrun' : run'.all p)
    (hrest : ∀ c ∈ rest.head?, p c = false) (hrest' : ∀ c ∈ rest'.head?, p c = false)
    (h : run ++ rest = run' ++ rest') : run = run' ∧ rest = rest' := by
  constructor
  · rw [← takeWhile_run_append hrun hrest, h, takeWhile_run_append hrun' hrest']
  · rw [← dropWhile_run_append hrun hrest, h, dropWhile_run_append hrun' hrest']

end Text

namespace Directive

variable {text name other gap gap' more : List Char}

/-! ## The parts of a directive -/

/-- A directive standing in a source: what is before it, the blanks and the name in it, and what is
after it. The parts make up the whole source, so an occurrence is a way of taking the source apart.
-/
@[ext]
structure Occurrence (source : List Char) where
  before : List Char
  gap : List Char
  name : List Char
  gap' : List Char
  after : List Char
  source_eq : source = before ++ (opener ++ gap ++ name ++ gap' ++ closer ++ after)
  gap_ne_nil : gap ≠ []
  all_isBlank_gap : gap.all Text.isBlank
  name_ne_nil : name ≠ []
  all_isNameChar_name : name.all isNameChar
  all_isBlank_gap' : gap'.all Text.isBlank

/-- No directive stands earlier. -/
def Occurrence.IsFirst {source : List Char} (o : Occurrence source) : Prop :=
  ∀ other : Occurrence source, o.before.length ≤ other.before.length

/-- No blank is a name character. -/
theorem isBlank_of_isNameChar {c : Char} (h : isNameChar c = true) : Text.isBlank c = false := by
  have hcases : (((decide (65 ≤ c.val ∧ c.val ≤ 90) || (97 ≤ c.val && c.val ≤ 122)) ||
      (48 ≤ c.val && c.val ≤ 57)) || c == '.' || c == '_' || c == '-' || c == '/') = true := h
  simp only [Bool.or_eq_true, Bool.and_eq_true, decide_eq_true_eq, beq_iff_eq,
    UInt32.le_iff_toNat_le] at hcases
  change ((((((65 ≤ c.toNat ∧ c.toNat ≤ 90) ∨ (97 ≤ c.toNat ∧ c.toNat ≤ 122)) ∨
    (48 ≤ c.toNat ∧ c.toNat ≤ 57)) ∨ c = '.') ∨ c = '_') ∨ c = '-') ∨ c = '/' at hcases
  rcases hcases with (((hletter | rfl) | rfl) | rfl) | rfl
  · simp only [Text.isBlank, Bool.or_eq_false_iff, Bool.and_eq_false_iff, decide_eq_false_iff_not,
      beq_eq_false_iff_ne]
    omega
  all_goals decide

/-- A name starts with no blank. -/
theorem isBlank_head?_name (hne : name ≠ []) (hname : name.all isNameChar) :
    ∀ c ∈ (name ++ more).head?, Text.isBlank c = false := by
  obtain ⟨d, rest, rfl⟩ := List.exists_cons_of_ne_nil hne
  intro c hc
  obtain rfl : d = c := by simpa using hc
  exact isBlank_of_isNameChar (List.all_eq_true.mp hname d (by simp))

/-- The closing braces begin with a character that no trimming takes away. -/
theorem isBlank_head?_closer : ∀ c ∈ (closer ++ more).head?, Text.isBlank c = false := by
  intro c hc
  obtain rfl : '\x7d' = c := by simpa [closer] using hc
  decide

/-- What comes after a name starts with no name character. -/
theorem isNameChar_head?_gap (hgap : gap.all Text.isBlank) :
    ∀ c ∈ (gap ++ (closer ++ more)).head?, isNameChar c = false := by
  cases gap with
  | nil =>
    intro c hc
    obtain rfl : '\x7d' = c := by simpa [closer] using hc
    decide
  | cons d rest =>
    intro c hc
    obtain rfl : d = c := by simpa using hc
    have hblank : Text.isBlank d = true := List.all_eq_true.mp hgap d (by simp)
    refine Bool.eq_false_iff.mpr fun hname => ?_
    rw [isBlank_of_isNameChar hname] at hblank
    cases hblank

/-! ## A match at one place -/

/-- What matches at the start of a text is the form of a directive. -/
theorem matchAt?_eq_some_iff : matchAt? text = some name ↔ At text name := by
  constructor
  · intro h
    unfold matchAt? at h
    dsimp only at h
    split at h
    · rename_i hopener
      split at h
      · rename_i hparts
        cases h
        obtain ⟨hgap, hname, hcloser⟩ := hparts
        obtain ⟨body, rfl⟩ := List.isPrefixOf_iff_prefix.mp hopener
        rw [List.drop_left] at hgap hname hcloser ⊢
        obtain ⟨post, hpost⟩ := List.isPrefixOf_iff_prefix.mp hcloser
        refine ⟨body.takeWhile Text.isBlank, ((body.dropWhile Text.isBlank).dropWhile
          isNameChar).takeWhile Text.isBlank, post, ?_, hgap, List.all_takeWhile, hname,
          List.all_takeWhile, List.all_takeWhile⟩
        simp only [List.append_assoc]
        rw [hpost, List.takeWhile_append_dropWhile, List.takeWhile_append_dropWhile,
          List.takeWhile_append_dropWhile]
      · cases h
    · cases h
  · rintro ⟨gap, gap', post, rfl, hne, hgap, hname_ne, hname, hgap'⟩
    have hopener : opener.isPrefixOf (opener ++ gap ++ name ++ gap' ++ closer ++ post) = true := by
      rw [List.isPrefixOf_iff_prefix]
      simp only [List.append_assoc]
      exact List.prefix_append _ _
    have hstart : (opener ++ gap ++ name ++ gap' ++ closer ++ post).drop opener.length =
        gap ++ (name ++ (gap' ++ (closer ++ post))) := by
      simp only [List.append_assoc]
      rw [List.drop_left]
    have hbody : ∀ c ∈ (name ++ (gap' ++ (closer ++ post))).head?, Text.isBlank c = false :=
      isBlank_head?_name hname_ne hname
    have htail : ∀ c ∈ (gap' ++ (closer ++ post)).head?, isNameChar c = false :=
      isNameChar_head?_gap hgap'
    have hend : ∀ c ∈ (closer ++ post).head?, Text.isBlank c = false := isBlank_head?_closer
    unfold matchAt?
    dsimp only
    rw [if_pos hopener, hstart, Text.takeWhile_run_append hgap hbody,
      Text.dropWhile_run_append hgap hbody, Text.takeWhile_run_append hname htail,
      Text.dropWhile_run_append hname htail, Text.dropWhile_run_append hgap' hend,
      if_pos ⟨hne, hname_ne, List.isPrefixOf_iff_prefix.mpr (List.prefix_append _ _)⟩]

theorem not_at_nil : ¬ At [] name := by
  rintro ⟨gap, gap', post, h, -⟩
  simp [opener] at h

/-! ## The search -/

/-- The search finds the directive at the first place where one stands. -/
theorem search_eq_some_iff : search text = some name ↔
    ∃ n, At (text.drop n) name ∧ ∀ m < n, ∀ other, ¬ At (text.drop m) other := by
  induction text with
  | nil => simp [search, not_at_nil]
  | cons c cs ih =>
    rw [search]
    cases hmatch : matchAt? (c :: cs) with
    | some found =>
      have hfound := matchAt?_eq_some_iff.mp hmatch
      rw [Option.some_or]
      constructor
      · intro h
        cases h
        exact ⟨0, hfound, by simp⟩
      · rintro ⟨n, hat, hearlier⟩
        cases n with
        | zero =>
          have hat : At (c :: cs) name := hat
          rw [← hmatch, matchAt?_eq_some_iff.mpr hat]
        | succ n => exact absurd hfound (hearlier 0 (by omega) found)
    | none =>
      have hnone : ∀ other, ¬ At (c :: cs) other := by
        intro other hat
        rw [matchAt?_eq_some_iff.mpr hat] at hmatch
        cases hmatch
      rw [Option.none_or, ih]
      constructor
      · rintro ⟨n, hat, hearlier⟩
        refine ⟨n + 1, hat, fun m hm => ?_⟩
        cases m with
        | zero => exact hnone
        | succ m => exact hearlier m (by omega)
      · rintro ⟨n, hat, hearlier⟩
        cases n with
        | zero => exact absurd hat (hnone name)
        | succ n => exact ⟨n, hat, fun m hm => hearlier (m + 1) (by omega)⟩

/-- If a directive stands somewhere, the search finds one. -/
theorem exists_search {n : Nat} (h : At (text.drop n) name) :
    ∃ found, search text = some found := by
  classical
  have hsome : ∃ n, ∃ other, At (text.drop n) other := ⟨n, name, h⟩
  obtain ⟨found, hfound⟩ := Nat.find_spec hsome
  refine ⟨found, search_eq_some_iff.mpr ⟨Nat.find hsome, hfound, fun m hm other hat => ?_⟩⟩
  exact Nat.find_min hsome hm ⟨other, hat⟩

namespace Occurrence

variable {source : List Char}

/-- An occurrence is a directive that stands where its prefix ends. -/
theorem at_drop (o : Occurrence source) : At (source.drop o.before.length) o.name := by
  have hdrop := congrArg (List.drop o.before.length) o.source_eq
  rw [List.drop_left] at hdrop
  exact ⟨o.gap, o.gap', o.after, hdrop, o.gap_ne_nil, o.all_isBlank_gap, o.name_ne_nil,
    o.all_isNameChar_name, o.all_isBlank_gap'⟩

/-- And a directive that stands somewhere is the occurrence whose prefix ends there. -/
theorem exists_of_at_drop {n : Nat} (h : At (source.drop n) name) :
    ∃ o : Occurrence source, o.before.length = n ∧ o.name = name := by
  have hlt : n < source.length := by
    by_contra hge
    rw [List.drop_eq_nil_of_le (by omega)] at h
    exact not_at_nil h
  obtain ⟨gap, gap', post, heq, hne, hgap, hname_ne, hname, hgap'⟩ := h
  refine ⟨⟨source.take n, gap, name, gap', post, ?_, hne, hgap, hname_ne, hname, hgap'⟩, ?_, rfl⟩
  · rw [← heq, List.take_append_drop]
  · rw [List.length_take]
    omega

/-- At one place a directive stands in one way. -/
theorem eq_of_length_before {o o' : Occurrence source}
    (h : o.before.length = o'.before.length) : o = o' := by
  have hsource : o.before ++ (opener ++ o.gap ++ o.name ++ o.gap' ++ closer ++ o.after) =
      o'.before ++ (opener ++ o'.gap ++ o'.name ++ o'.gap' ++ closer ++ o'.after) :=
    o.source_eq.symm.trans o'.source_eq
  obtain ⟨hbefore, hdirective⟩ := List.append_inj hsource h
  simp only [List.append_assoc, List.append_cancel_left_eq] at hdirective
  obtain ⟨hgap, hbody⟩ := Text.eq_of_append_eq_append o.all_isBlank_gap o'.all_isBlank_gap
    (isBlank_head?_name o.name_ne_nil o.all_isNameChar_name)
    (isBlank_head?_name o'.name_ne_nil o'.all_isNameChar_name) hdirective
  obtain ⟨hname, htail⟩ := Text.eq_of_append_eq_append o.all_isNameChar_name o'.all_isNameChar_name
    (isNameChar_head?_gap o.all_isBlank_gap') (isNameChar_head?_gap o'.all_isBlank_gap') hbody
  obtain ⟨hgap', hend⟩ := Text.eq_of_append_eq_append o.all_isBlank_gap' o'.all_isBlank_gap'
    isBlank_head?_closer isBlank_head?_closer htail
  rw [List.append_cancel_left_eq] at hend
  exact Occurrence.ext hbefore hgap hname hgap' hend

/-- Two first occurrences are one: neither prefix can be the shorter. -/
theorem IsFirst.unique {o o' : Occurrence source} (h : o.IsFirst) (h' : o'.IsFirst) : o = o' :=
  eq_of_length_before (Nat.le_antisymm (h o') (h' o))

end Occurrence

/-- The search finds the name of the first directive. -/
theorem search_eq_some_iff_isFirst :
    search text = some name ↔ ∃ o : Occurrence text, o.IsFirst ∧ o.name = name := by
  rw [search_eq_some_iff]
  constructor
  · rintro ⟨n, hat, hearlier⟩
    obtain ⟨o, hbefore, hname⟩ := Occurrence.exists_of_at_drop hat
    refine ⟨o, fun other => ?_, hname⟩
    by_contra hlt
    exact hearlier other.before.length (by omega) other.name other.at_drop
  · rintro ⟨o, hfirst, rfl⟩
    refine ⟨o.before.length, o.at_drop, fun m hm other hat => ?_⟩
    obtain ⟨o', hbefore, -⟩ := Occurrence.exists_of_at_drop hat
    have hle := hfirst o'
    omega

/-- A name is found in a source just if a directive stands in it. It is the name of the one that
stands first, and this one is taken apart in one way only. -/
theorem find?_first (source : String) :
    ((∃ name, find? source = some name) ↔ Nonempty (Occurrence source.toList)) ∧
      (∀ name, find? source = some name ↔
        ∃ o : Occurrence source.toList, o.IsFirst ∧ o.name = name.toList) ∧
      (∀ o o' : Occurrence source.toList, o.IsFirst → o'.IsFirst → o = o') ∧
      (find? source = none ↔ IsEmpty (Occurrence source.toList)) := by
  have hsome : ∀ name, find? source = some name ↔ search source.toList = some name.toList := by
    intro name
    unfold find?
    rw [Option.map_eq_some_iff]
    constructor
    · rintro ⟨found, hfound, rfl⟩
      rw [hfound, String.toList_ofList]
    · intro h
      exact ⟨name.toList, h, String.ofList_toList⟩
  have hfound : (∃ name, find? source = some name) ↔ Nonempty (Occurrence source.toList) := by
    constructor
    · rintro ⟨name, h⟩
      obtain ⟨o, -⟩ := search_eq_some_iff_isFirst.mp ((hsome name).mp h)
      exact ⟨o⟩
    · rintro ⟨o⟩
      obtain ⟨found, h⟩ := exists_search o.at_drop
      exact ⟨String.ofList found, by rw [hsome, h, String.toList_ofList]⟩
  refine ⟨hfound, fun name => ?_, fun o o' h h' => h.unique h', ?_⟩
  · rw [hsome, search_eq_some_iff_isFirst]
  · rw [← not_nonempty_iff, ← hfound, not_exists]
    exact Option.eq_none_iff_forall_ne_some

example : find? "\x7b\x7b!< \x7b\x7b!<\u2003a/b\t\x7d\x7d \x7b\x7b!< c\x7d\x7d" = some "a/b" := by
  decide +kernel

end Directive
end Views
