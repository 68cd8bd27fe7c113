import Views.Deferred
import Mathlib.Data.List.Forall2
import Mathlib.Data.List.Infix
/-!
# What a text with tokens denotes

A text in which tokens hold places is written with glyphs: characters, and whole tokens. `Fills`
gives the text that is meant once each token has its value, and `Denotes` says the same of the
characters alone.

Tokens are told apart from what is around them by their mark. `written_replace` and
`token_mem_of_infix` are the two facts that carry the rest: if what is meant holds no mark, then a
token occurs exactly where it was put, so that replacing it changes those places and no others.
From them `substitute_of_denotes`: whatever the order, putting in the values gives what is meant.

Glyphs are not part of the program: a text has only characters, and may be read as glyphs in several
ways. A text denotes another one if some reading of it fills to that, and what is proved about it
must not depend on the reading. This is where the mark comes in. It begins every token and is in no
text that is meant, so that two readings of one text have the same tokens in the same places.
-/

namespace Views

/-- A character, or a token that holds a place. A token is one glyph, however many characters it is
written with. -/
inductive Glyph where
  | char (c : Char)
  | token (token : Token)
  deriving DecidableEq, Repr

namespace Glyph

/-- The text that glyphs are written as. -/
def written : List Glyph → List Char
  | [] => []
  | char c :: gs => c :: written gs
  | token t :: gs => t.toList ++ written gs

/-- Characters as glyphs. -/
def ofChars (cs : List Char) : List Glyph := cs.map char

/-- The glyphs with others put in the places that one token holds. -/
def put (t : Token) (value : List Glyph) : List Glyph → List Glyph
  | [] => []
  | char c :: gs => char c :: put t value gs
  | token t' :: gs => (if t' = t then value else [token t']) ++ put t value gs

/-- The text that glyphs mean: each token stands for one of its values. A token without a value
means nothing, so that glyphs with such a token mean no text at all. -/
inductive Fills (values : TokenValues) : List Glyph → List Char → Prop
  | nil : Fills values [] []
  | char {gs v} (c : Char) : Fills values gs v → Fills values (.char c :: gs) (c :: v)
  | token {gs v t w} : (t, w) ∈ values → Fills values gs v →
      Fills values (.token t :: gs) (w.toList ++ v)

/-- Glyphs yield a text: characters stay as they are, and each token, which has the form of one,
gives way to something. -/
inductive Yields : List Glyph → List Char → Prop
  | nil : Yields [] []
  | char {gs v} (c : Char) : Yields gs v → Yields (.char c :: gs) (c :: v)
  | token {gs v t} (u : List Char) : Token.WellFormed t → Yields gs v →
      Yields (.token t :: gs) (u ++ v)

@[simp] theorem written_append (gs hs : List Glyph) :
    written (gs ++ hs) = written gs ++ written hs := by
  induction gs with
  | nil => rfl
  | cons g gs ih => cases g <;> simp [written, ih]

@[simp] theorem written_ofChars (cs : List Char) : written (ofChars cs) = cs := by
  induction cs with
  | nil => rfl
  | cons c cs ih => exact congrArg (c :: ·) ih

/-- A token that is among the glyphs stands in the text. -/
theorem infix_of_token_mem {gs : List Glyph} {t : Token} (h : token t ∈ gs) :
    t.toList <:+: written gs := by
  obtain ⟨before, after, rfl⟩ := List.append_of_mem h
  exact ⟨written before, written after, by simp [written]⟩

/-- Putting a value in for one token leaves the others where they are. -/
theorem token_mem_put {gs : List Glyph} {t other : Token} (hne : other ≠ t) (value : List Glyph)
    (h : token other ∈ gs) : token other ∈ put t value gs := by
  induction gs with
  | nil => cases h
  | cons g gs ih =>
    rcases List.mem_cons.mp h with rfl | hmem
    · simp [put, hne]
    · cases g <;> simp [put, ih hmem]

/-- What is put in for a token stands in the text. -/
theorem infix_of_put {gs : List Glyph} {t : Token} (h : token t ∈ gs) (value : List Glyph) :
    written value <:+: written (put t value gs) := by
  induction gs with
  | nil => cases h
  | cons g gs ih =>
    cases g with
    | char c =>
      have hmem : token t ∈ gs := by simpa using h
      exact List.infix_cons (ih hmem)
    | token t' =>
      rw [put, written_append]
      by_cases he : t' = t
      · rw [if_pos he]
        exact (List.prefix_append _ _).isInfix
      · have hmem : token t ∈ gs := by
          rcases List.mem_cons.mp h with he' | hmem
          · cases he'
            exact absurd rfl he
          · exact hmem
        exact (ih hmem).trans (List.suffix_append _ _).isInfix

/-- Without places of a token there is nothing to put a value in for it. -/
theorem put_of_token_notMem {gs : List Glyph} {t : Token} (h : token t ∉ gs) (value : List Glyph) :
    put t value gs = gs := by
  induction gs with
  | nil => rfl
  | cons g gs ih =>
    obtain ⟨hg, hgs⟩ := not_or.mp fun hin => h (List.mem_cons.mpr hin)
    cases g with
    | char c => rw [put, ih hgs]
    | token t' =>
      have hne : t' ≠ t := fun he => hg (he ▸ rfl)
      rw [put, if_neg hne, ih hgs]
      rfl

namespace Fills

variable {values more : TokenValues} {gs hs : List Glyph} {v w : List Char}

theorem mono (hsub : values ⊆ more) (h : Fills values gs v) : Fills more gs v := by
  induction h with
  | nil => exact .nil
  | char c _ ih => exact .char c ih
  | token hmem _ ih => exact .token (hsub hmem) ih

/-- Glyphs one after the other mean one text after the other. -/
theorem append (h : Fills values gs v) (h' : Fills values hs w) :
    Fills values (gs ++ hs) (v ++ w) := by
  induction h with
  | nil => exact h'
  | char c _ ih => exact .char c ih
  | token hmem _ ih =>
    rw [List.append_assoc]
    exact .token hmem ih

/-- Characters mean themselves. -/
theorem ofChars (values : TokenValues) (cs : List Char) : Fills values (ofChars cs) cs := by
  induction cs with
  | nil => exact .nil
  | cons c cs ih => exact .char c ih

/-- Without values there are no tokens, and the text means itself. -/
theorem eq_written (h : Fills [] gs v) : v = written gs := by
  induction h with
  | nil => rfl
  | char c _ ih => rw [ih, written]
  | token hmem => cases hmem

/-- What glyphs mean they yield. -/
theorem yields (hkeys : ∀ p ∈ values, Token.WellFormed p.1) (h : Fills values gs v) :
    Yields gs v := by
  induction h with
  | nil => exact .nil
  | char c _ ih => exact .char c ih
  | token hmem _ ih => exact .token _ (hkeys _ hmem) ih

/-- Putting the value of a token in its places leaves what is meant. -/
theorem put {t : Token} {value : String} (h : Fills values gs v)
    (hvalue : ∀ w, (t, w) ∈ values → w = value) :
    Fills (values.filter fun p => p.1 ≠ t) (put t (Glyph.ofChars value.toList) gs) v := by
  induction h with
  | nil => exact .nil
  | char c _ ih => exact .char c ih
  | @token _ _ t' w' hmem _ ih =>
    by_cases he : t' = t
    · subst he
      rw [hvalue _ hmem, Glyph.put, if_pos rfl]
      exact (Fills.ofChars _ _).append ih
    · rw [Glyph.put, if_neg he]
      exact .token (List.mem_filter.mpr ⟨hmem, by simpa using he⟩) ih

end Fills
end Glyph

open Glyph

/-! ## Where tokens occur -/

namespace Token

/-- A token opens with two underscores and the mark. -/
theorem opener_toList : opener.toList = '_' :: '_' :: mark.toList := by decide

/-- A token starts with two underscores, the mark and a digit. -/
theorem WellFormed.exists_digit {t : Token} (h : WellFormed t) :
    ∃ d rest, isDigit d ∧ t.toList = '_' :: '_' :: (mark.toList ++ [d]) ++ rest := by
  obtain ⟨digits, ht, hlength, hall⟩ := h
  obtain ⟨d, ds, rfl⟩ : ∃ d ds, digits = d :: ds :=
    List.exists_cons_of_length_pos (by rw [hlength]; decide)
  refine ⟨d, ds ++ closer.toList, by simpa using (List.all_eq_true.mp hall) d (by simp), ?_⟩
  rw [ht, opener_toList]
  simp

/-- No digit of a token is an underscore. -/
theorem ne_underscore_of_isDigit {d : Char} (h : isDigit d) : d ≠ '_' := by
  rintro rfl
  exact absurd h (by decide)

end Token

/-- A word in which no two underscores stand together and that does not end with one. -/
def isApart : List Char → Bool
  | [] => true
  | [c] => c != '_'
  | c :: d :: rest => !(c == '_' && d == '_') && isApart (d :: rest)

/-- A word that stands apart does so from its second character on. -/
theorem isApart_tail {c : Char} {word : List Char} (h : isApart (c :: word)) : isApart word := by
  cases word with
  | nil => rfl
  | cons d word =>
    simp only [isApart, Bool.and_eq_true] at h
    exact h.2

/-- A token starts with two underscores, so a word that holds no two of them stands beside tokens
and not across one. -/
theorem prefix_of_yields {gs : List Glyph} {v word : List Char} (h : Yields gs v)
    (hword : isApart word) (hp : word <+: written gs) : word <+: v := by
  induction h generalizing word with
  | nil => exact hp
  | @char gs v c _ ih =>
    cases word with
    | nil => exact List.nil_prefix
    | cons d word =>
      obtain ⟨rfl, hrest⟩ := List.cons_prefix_cons.mp hp
      exact List.cons_prefix_cons.mpr ⟨rfl, ih (isApart_tail hword) hrest⟩
  | @token gs v t u ht _ _ =>
    obtain ⟨d, rest, _, ht⟩ := ht.exists_digit
    rw [written, ht] at hp
    match word, hword, hp with
    | [], _, _ => exact List.nil_prefix
    | [c], hword, hp =>
      have hc : c = '_' := (List.cons_prefix_cons.mp hp).1
      simp [isApart, hc] at hword
    | c :: c' :: word, hword, hp =>
      have hc : c = '_' := (List.cons_prefix_cons.mp hp).1
      have hc' : c' = '_' := (List.cons_prefix_cons.mp (List.cons_prefix_cons.mp hp).2).1
      simp [isApart, hc, hc'] at hword

/-- No token starts with the last character before a text, or with the last two. -/
def Calm (text : List Char) : Prop :=
  ∀ d, Token.isDigit d → ¬ Token.mark.toList ++ [d] <+: text ∧
    ¬ '_' :: (Token.mark.toList ++ [d]) <+: text

/-- If no mark comes about in the text, the glyphs are calm as they are written. -/
theorem calm_of_yields {gs : List Glyph} {v : List Char} (h : Yields gs v)
    (hv : ¬ Token.mark.toList <:+: v) : Calm (written gs) := by
  intro d hd
  have hne := Token.ne_underscore_of_isDigit hd
  have hapart : isApart (Token.mark.toList ++ [d]) ∧
      isApart ('_' :: (Token.mark.toList ++ [d])) := by
    simp [Token.mark, isApart, hne]
  constructor
  · intro hp
    have hp := prefix_of_yields h hapart.1 hp
    exact hv ((List.prefix_append _ _).trans hp).isInfix
  · intro hp
    have hp := prefix_of_yields h hapart.2 hp
    have hmark : Token.mark.toList <:+: '_' :: (Token.mark.toList ++ [d]) := ⟨['_'], [d], rfl⟩
    exact hv (hmark.trans hp.isInfix)

/-- Before a calm text no token starts with the character before it. -/
theorem not_prefix_cons_of_calm {k : Token} {c : Char} {text : List Char}
    (hk : Token.WellFormed k) (h : Calm text) : ¬ k.toList <+: c :: text := by
  obtain ⟨d, rest, hd, hk⟩ := hk.exists_digit
  rw [hk]
  intro hp
  have hp := (List.cons_prefix_cons.mp hp).2
  exact (h d hd).2 ((List.prefix_append _ rest).trans hp)

/-- Before a calm text no token starts with two underscores. -/
theorem not_prefix_underscores_of_calm {k : Token} {text : List Char}
    (hk : Token.WellFormed k) (h : Calm text) : ¬ k.toList <+: '_' :: '_' :: text := by
  obtain ⟨d, rest, hd, hk⟩ := hk.exists_digit
  rw [hk]
  intro hp
  have hp := (List.cons_prefix_cons.mp (List.cons_prefix_cons.mp hp).2).2
  exact (h d hd).1 ((List.prefix_append _ rest).trans hp)

/-- No token starts with anything but an underscore. -/
theorem not_prefix_of_ne_underscore {k : Token} {c : Char} {text : List Char}
    (hk : Token.WellFormed k) (hc : c ≠ '_') : ¬ k.toList <+: c :: text := by
  obtain ⟨d, rest, _, hk⟩ := hk.exists_digit
  rw [hk]
  intro hp
  exact hc (List.cons_prefix_cons.mp hp).1.symm

/-- Nor has it anything else for its second character. -/
theorem not_prefix_of_second_ne_underscore {k : Token} {c c' : Char} {text : List Char}
    (hk : Token.WellFormed k) (hc : c' ≠ '_') : ¬ k.toList <+: c :: c' :: text := by
  obtain ⟨d, rest, _, hk⟩ := hk.exists_digit
  rw [hk]
  intro hp
  exact hc (List.cons_prefix_cons.mp (List.cons_prefix_cons.mp hp).2).1.symm

/-- A word in which each underscore is followed by something else is passed over in the search for a
token. -/
theorem replace_append_of_isApart {k : Token} (hk : Token.WellFormed k) (value : List Char)
    {word : List Char} (h : isApart word) (text : List Char) :
    Text.replace k.toList value (word ++ text) = word ++ Text.replace k.toList value text := by
  induction word with
  | nil => rfl
  | cons c word ih =>
    have hc : ¬ k.toList <+: c :: (word ++ text) := by
      by_cases hunder : c = '_'
      · subst hunder
        cases word with
        | nil => simp [isApart] at h
        | cons d word =>
          have hd : d ≠ '_' := by
            rintro rfl
            simp [isApart] at h
          exact not_prefix_of_second_ne_underscore hk hd
      · exact not_prefix_of_ne_underscore hk hunder
    rw [List.cons_append, Text.replace_cons_of_not_prefix hc, ih (isApart_tail h)]
    rfl

/-- What holds no underscore stands apart. -/
theorem isApart_of_ne_underscore {cs : List Char} (h : ∀ c ∈ cs, c ≠ '_') : isApart cs := by
  induction cs with
  | nil => rfl
  | cons c cs ih =>
    have hc := h c (by simp)
    have hcs := ih fun d hd => h d (by simp [hd])
    cases cs <;> simp [isApart, hc, hcs]

/-- Between its first character and its last two, a token holds no two underscores together. -/
theorem Token.WellFormed.exists_isApart {t : Token} (h : Token.WellFormed t) :
    ∃ word, isApart word ∧ t.toList = '_' :: (word ++ ['_', '_']) := by
  obtain ⟨digits, ht, hlength, hall⟩ := h
  have hdigits : ∀ c ∈ digits, c ≠ '_' := fun c hc =>
    Token.ne_underscore_of_isDigit (List.all_eq_true.mp hall c hc)
  obtain ⟨d, ds, rfl⟩ : ∃ d ds, digits = d :: ds :=
    List.exists_cons_of_length_pos (by rw [hlength]; decide)
  refine ⟨'_' :: (Token.mark.toList ++ d :: ds), ?_, ?_⟩
  · have hd := hdigits d (by simp)
    have hword := isApart_of_ne_underscore hdigits
    simp [Token.mark, isApart, hd, hword]
  · rw [ht, Token.opener_toList]
    simp [Token.closer]

/-- Tokens have one length. -/
theorem Token.WellFormed.length {t : Token} (h : Token.WellFormed t) : t.toList.length = 49 := by
  obtain ⟨digits, ht, hlength, -⟩ := h
  rw [ht, List.length_append, List.length_append, hlength]
  rfl

/-- Two tokens at the start of one text are the same. -/
theorem Token.WellFormed.eq_of_prefix {k t : Token} (hk : Token.WellFormed k)
    (ht : Token.WellFormed t) {text : List Char} (h : k.toList <+: t.toList ++ text) : k = t := by
  have hle : k.toList.length ≤ t.toList.length := by rw [hk.length, ht.length]
  have hp := List.prefix_of_prefix_length_le h (List.prefix_append _ _) hle
  exact String.toList_inj.mp (hp.eq_of_length (by rw [hk.length, ht.length]))

/-- A token is passed over in the search for another one. -/
theorem replace_token_append {k t : Token} (hk : Token.WellFormed k) (ht : Token.WellFormed t)
    (hne : t ≠ k) (value : List Char) {text : List Char} (h : Calm text) :
    Text.replace k.toList value (t.toList ++ text) =
      t.toList ++ Text.replace k.toList value text := by
  have hstart : ¬ k.toList <+: t.toList ++ text := fun hp => hne (hk.eq_of_prefix ht hp).symm
  obtain ⟨word, hword, htext⟩ := ht.exists_isApart
  rw [htext] at hstart ⊢
  have hshape : '_' :: (word ++ ['_', '_']) ++ text = '_' :: (word ++ '_' :: '_' :: text) := by simp
  rw [hshape] at hstart ⊢
  rw [Text.replace_cons_of_not_prefix hstart, replace_append_of_isApart hk value hword,
    Text.replace_cons_of_not_prefix (not_prefix_underscores_of_calm hk h),
    Text.replace_cons_of_not_prefix (not_prefix_cons_of_calm hk h)]
  simp

/-- If what the glyphs yield holds no mark, a token is replaced exactly in the places that it
holds. -/
theorem written_replace {gs : List Glyph} {v : List Char} {k : Token} (hk : Token.WellFormed k)
    (h : Yields gs v) (hv : ¬ Token.mark.toList <:+: v) (value : List Glyph) :
    Text.replace k.toList (written value) (written gs) = written (put k value gs) := by
  induction h with
  | nil => rfl
  | @char gs v c hgs ih =>
    have hv : ¬ Token.mark.toList <:+: v := fun hp => hv (List.infix_cons hp)
    have hcalm := calm_of_yields hgs hv
    rw [written, Text.replace_cons_of_not_prefix (not_prefix_cons_of_calm hk hcalm), ih hv]
    rfl
  | @token gs v t u ht hgs ih =>
    have hv : ¬ Token.mark.toList <:+: v := fun hp => hv (hp.trans (List.suffix_append _ _).isInfix)
    have hcalm := calm_of_yields hgs hv
    by_cases hsame : t = k
    · subst hsame
      have hne : t.toList ≠ [] := List.ne_nil_of_length_pos (by rw [hk.length]; decide)
      rw [written, Text.replace_append_self hne, ih hv, put, if_pos rfl, written_append]
    · rw [written, replace_token_append hk ht hsame _ hcalm, ih hv, put, if_neg hsame]
      rfl

/-- If what the glyphs yield holds no mark, a token stands in the text only as one of them. -/
theorem token_mem_of_infix {gs : List Glyph} {v : List Char} {k : Token} (hk : Token.WellFormed k)
    (h : Yields gs v) (hv : ¬ Token.mark.toList <:+: v) (hin : k.toList <:+: written gs) :
    Glyph.token k ∈ gs := by
  by_contra hnot
  have hne : k.toList ≠ [] := List.ne_nil_of_length_pos (by rw [hk.length]; decide)
  have hshort := Text.length_replace_nil_lt hne hin
  have hreplace := written_replace hk h hv []
  rw [put_of_token_notMem hnot] at hreplace
  rw [show ([] : List Char) = written [] from rfl, hreplace] at hshort
  exact lt_irrefl _ hshort

/-! ## Denotation -/

/-- A text means another one: it can be read as characters and tokens so that putting in the values
of the tokens gives the other text. -/
def Denotes (values : TokenValues) (u v : String) : Prop :=
  ∃ gs, written gs = u.toList ∧ Fills values gs v.toList

namespace Denotes

variable {values more : TokenValues} {u u' v v' : String}

theorem refl (values : TokenValues) (u : String) : Denotes values u u :=
  ⟨ofChars u.toList, written_ofChars _, .ofChars values _⟩

theorem mono (hsub : values ⊆ more) : Denotes values u v → Denotes more u v
  | ⟨gs, hgs, h⟩ => ⟨gs, hgs, h.mono hsub⟩

/-- Texts one after the other denote one text after the other. -/
theorem append : Denotes values u v → Denotes values u' v' → Denotes values (u ++ u') (v ++ v')
  | ⟨gs, hgs, h⟩, ⟨hs, hhs, h'⟩ => ⟨gs ++ hs, by simp [hgs, hhs], by simpa using h.append h'⟩

/-- A token means its value. -/
theorem token {t : Token} {w : String} (h : (t, w) ∈ values) : Denotes values t w :=
  ⟨[.token t], by simp [written], by simpa using Fills.token h .nil⟩

/-- Texts that are joined with the same separator mean what their meanings make when joined. -/
theorem intercalate (separator : String) {us vs : List String}
    (h : List.Forall₂ (Denotes values) us vs) :
    Denotes values (separator.intercalate us) (separator.intercalate vs) := by
  induction h with
  | nil => exact .refl _ _
  | @cons u v us vs huv hrest ih =>
    cases hrest with
    | nil => exact huv
    | cons hnext hrest =>
      rw [String.intercalate_cons_cons, String.intercalate_cons_cons]
      exact (huv.append (.refl _ _)).append ih

end Denotes

/-- A text without the mark of tokens. -/
theorem not_infix_mark_of_isMarked {text : String} (h : Token.isMarked text = false) :
    ¬ Token.mark.toList <:+: text.toList := by
  rw [← Text.occurs_iff_infix]
  simpa [Token.isMarked] using h

/-- In whatever order the values are put in, the text becomes what is meant, if that holds no mark
of tokens. -/
theorem substitute_of_denotes {values order : TokenValues} {u v : String}
    (hkeys : ∀ p ∈ order, Token.WellFormed p.1) (hnodup : (order.map Prod.fst).Nodup)
    (hsub : values ⊆ order) (h : Denotes values u v) (hv : Token.isMarked v = false) :
    substitute u order = v := by
  have hmark := not_infix_mark_of_isMarked hv
  obtain ⟨gs, hgs, hfills⟩ := h
  -- The induction is on the order, for every way of writing glyphs: what is left of the values fills
  -- what is left of the tokens.
  suffices hmain : order.foldl (fun cs p => Text.replace p.1.toList p.2.toList cs) (written gs) =
      v.toList by
    rw [substitute, ← hgs, hmain, String.ofList_toList]
  clear hgs
  induction order generalizing values gs with
  | nil =>
    have hnil : values = [] := List.subset_nil.mp hsub
    subst hnil
    exact hfills.eq_written.symm
  | cons p order ih =>
    obtain ⟨k, value⟩ := p
    obtain ⟨hk, hnodup⟩ := List.nodup_cons.mp hnodup
    have hvalue : ∀ w, (k, w) ∈ values → w = value := by
      intro w hw
      rcases List.mem_cons.mp (hsub hw) with he | hw
      · exact (Prod.mk.inj he).2
      · exact absurd (List.mem_map_of_mem hw) hk
    have hvalues : ∀ q ∈ values, Token.WellFormed q.1 := fun q hq => hkeys q (hsub hq)
    have hreplace := written_replace (hkeys (k, value) (by simp)) (hfills.yields hvalues) hmark
      (ofChars value.toList)
    rw [written_ofChars] at hreplace
    rw [List.foldl_cons, hreplace]
    refine ih (fun q hq => hkeys q (by simp [hq])) hnodup ?_ _ (hfills.put hvalue)
    intro q hq
    obtain ⟨hq, hne⟩ := List.mem_filter.mp hq
    rcases List.mem_cons.mp (hsub hq) with rfl | hq
    · simp at hne
    · exact hq

end Views
