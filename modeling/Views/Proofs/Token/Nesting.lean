import Views.Proofs.Assoc
import Views.Proofs.Token.Denotation
/-!
# Values that hold tokens

The value of a token may hold tokens itself. `ComesTo` gives the text that is meant once each token
has its value and each token in a value has its own. Values are put in one after the other, each
once, and so the order matters: a token in a value stays if its own turn has been before.

A text is flat (`IsFlat`) if no token in it has a value with a token. With a flat text any order
gives what is meant (`substitute_of_isFlat`), and with any other text there is an order that leaves
a token (`isFlat_of_tokenFree`).

Only the values that are reached matter. A value with a token in it does no harm if its own token
stands nowhere, and a token that stands in its own value has no text that it comes to. Both ways of
the criterion look at one order each: the one at hand, and one in which a certain token is last.
-/

namespace Views

namespace Glyph

/-- The text that glyphs come to, given how the values of tokens are read. Values are expanded in
their turn, so a token of which the value leads back to it comes to nothing. -/
inductive Expands (tokens : List Token) (reading : Token → List Glyph) :
    List Glyph → List Char → Prop
  | nil : Expands tokens reading [] []
  | char {gs v} (c : Char) : Expands tokens reading gs v →
      Expands tokens reading (.char c :: gs) (c :: v)
  | token {gs v t u} : t ∈ tokens → Expands tokens reading (reading t) u →
      Expands tokens reading gs v → Expands tokens reading (.token t :: gs) (u ++ v)

namespace Expands

variable {tokens : List Token} {reading : Token → List Glyph} {gs hs : List Glyph}
  {v w : List Char} {t : Token}

/-- Two pieces expand, one after the other, to what they expand to. -/
theorem append (h : Expands tokens reading gs v) (h' : Expands tokens reading hs w) :
    Expands tokens reading (gs ++ hs) (v ++ w) := by
  induction h with
  | nil => exact h'
  | char c _ ih => exact .char c ih
  | token hmem hvalue _ _ ih =>
    rw [List.append_assoc]
    exact .token hmem hvalue ih

/-- Plain characters expand to themselves. -/
theorem ofChars (tokens : List Token) (reading : Token → List Glyph) (cs : List Char) :
    Expands tokens reading (ofChars cs) cs := by
  induction cs with
  | nil => exact .nil
  | cons c cs ih => exact .char c ih

/-- What glyphs expand to they yield. -/
theorem yields (hform : ∀ t ∈ tokens, Token.WellFormed t) (h : Expands tokens reading gs v) :
    Yields gs v := by
  induction h with
  | nil => exact .nil
  | char c _ ih => exact .char c ih
  | token hmem _ _ _ ih => exact .token _ (hform _ hmem) ih

/-- A piece that expands holds only tokens that have a reading. -/
theorem mem_of_token (h : Expands tokens reading gs v) (ht : Glyph.token t ∈ gs) : t ∈ tokens := by
  induction h with
  | nil => cases ht
  | char c _ ih => exact ih (by simpa using ht)
  | token hmem _ _ _ ih =>
    rcases List.mem_cons.mp ht with he | ht
    · cases he
      exact hmem
    · exact ih ht

/-- The value of a token comes to something too. -/
theorem of_token (h : Expands tokens reading gs v) (ht : Glyph.token t ∈ gs) :
    ∃ u, Expands tokens reading (reading t) u := by
  induction h with
  | nil => cases ht
  | char c _ ih => exact ih (by simpa using ht)
  | token _ hvalue _ _ ih =>
    rcases List.mem_cons.mp ht with he | ht
    · cases he
      exact ⟨_, hvalue⟩
    · exact ih ht

/-- Without tokens the text is what is written. -/
theorem eq_written (h : Expands tokens reading gs v) (hnone : ∀ t, Glyph.token t ∉ gs) :
    v = written gs := by
  induction h with
  | nil => rfl
  | char c _ ih => rw [ih fun t ht => hnone t (by simp [ht]), written]
  | @token _ _ t => exact absurd (by simp) (hnone t)

/-- Putting in the value of a token leaves what the glyphs come to. -/
theorem put (h : Expands tokens reading gs v) (t : Token) :
    Expands tokens reading (put t (reading t) gs) v := by
  induction h with
  | nil => exact .nil
  | char c _ ih => exact .char c ih
  | @token _ _ t' _ hmem hvalue _ _ ih =>
    rw [Glyph.put]
    by_cases he : t' = t
    · subst he
      rw [if_pos rfl]
      exact hvalue.append ih
    · rw [if_neg he]
      exact .token hmem hvalue ih

end Expands
end Glyph

open Glyph

/-! ## Texts and orders -/

/-- No token stands in a text. -/
def TokenFree (tokens : List Token) (text : String) : Prop :=
  ∀ t ∈ tokens, Text.occurs t.toList text.toList = false

instance (tokens : List Token) (text : String) : Decidable (TokenFree tokens text) :=
  inferInstanceAs (Decidable (∀ t ∈ tokens, _))

/-- No token that stands in a text has a value in which a token stands. -/
def IsFlat (values : TokenValues) (text : String) : Prop :=
  ∀ p ∈ values, Text.occurs p.1.toList text.toList → TokenFree (values.map Prod.fst) p.2

instance (values : TokenValues) (text : String) : Decidable (IsFlat values text) :=
  inferInstanceAs (Decidable (∀ p ∈ values, _))

/-- A text comes to another one: it and the values can be read as characters and tokens so that
with the values put in, and the values of the tokens in these, it is the other text. -/
def ComesTo (values : TokenValues) (u v : String) : Prop :=
  ∃ reading : Token → List Glyph, (∀ p ∈ values, written (reading p.1) = p.2.toList) ∧
    ∃ gs, written gs = u.toList ∧ Expands (values.map Prod.fst) reading gs v.toList

/-- What a text denotes it comes to. -/
theorem Denotes.comesTo {values : TokenValues} (hnodup : (values.map Prod.fst).Nodup) {u v : String}
    (h : Denotes values u v) : ComesTo values u v := by
  obtain ⟨gs, hgs, hfills⟩ := h
  let reading : Token → List Glyph := fun t => ofChars ((Assoc.find? t values).getD "").toList
  have hreading : ∀ p ∈ values, reading p.1 = ofChars p.2.toList := by
    intro p hp
    have hfind : Assoc.find? p.1 values = some p.2 := Assoc.find?_of_mem_nodup hp hnodup
    simp only [reading, hfind, Option.getD_some]
  refine ⟨reading, fun p hp => ?_, gs, hgs, ?_⟩
  · rw [hreading p hp, written_ofChars]
  · clear hgs
    generalize v.toList = v at hfills ⊢
    induction hfills with
    | nil => exact .nil
    | char c _ ih => exact .char c ih
    | @token _ _ t w hmem _ ih =>
      refine .token (List.mem_map_of_mem hmem) ?_ ih
      rw [hreading (t, w) hmem]
      exact .ofChars _ _ _

/-- A token of which the value is another token comes to the value of that one. -/
theorem comesTo_of_token {k t : Token} (hne : k ≠ t) (w : String) :
    ComesTo [(k, w), (t, k)] t w := by
  let reading : Token → List Glyph := fun t' => if t' = k then ofChars w.toList else [token k]
  have hk : reading k = ofChars w.toList := if_pos rfl
  have ht : reading t = [token k] := if_neg hne.symm
  refine ⟨reading, ?_, [token t], by simp [written], ?_⟩
  · intro p hp
    rcases List.mem_cons.mp hp with rfl | hp
    · rw [hk, written_ofChars]
    · rw [List.mem_singleton.mp hp, ht]
      simp [written]
  · have hvalue : Expands [k, t] reading [token k] (w.toList ++ []) := by
      refine .token (by simp) ?_ .nil
      rw [hk]
      exact .ofChars _ _ _
    rw [List.append_nil] at hvalue
    have htoken : Expands [k, t] reading [token t] (w.toList ++ []) := by
      refine .token (by simp) ?_ .nil
      rw [ht]
      exact hvalue
    rwa [List.append_nil] at htoken

/-- The mark of tokens stands in each of them. -/
theorem Token.WellFormed.infix_mark {t : Token} (h : Token.WellFormed t) :
    Token.mark.toList <:+: t.toList := by
  obtain ⟨d, rest, -, ht⟩ := h.exists_digit
  exact ⟨['_', '_'], d :: rest, by rw [ht]; simp⟩

/-- A text without the mark of tokens is free of them. -/
theorem tokenFree_of_not_isMarked {tokens : List Token} (hform : ∀ t ∈ tokens, Token.WellFormed t)
    {text : String} (h : Token.isMarked text = false) : TokenFree tokens text := by
  intro t ht
  refine Bool.eq_false_iff.mpr fun hoccurs => not_infix_mark_of_isMarked h ?_
  exact (hform t ht).infix_mark.trans (Text.occurs_iff_infix.mp hoccurs)

/-- A flat text means what it comes to. -/
theorem ComesTo.denotes {values : TokenValues} {u v : String} (hcomes : ComesTo values u v)
    (hflat : IsFlat values u) : Denotes values u v := by
  obtain ⟨reading, hreading, gs, hgs, h⟩ := hcomes
  have hplain : ∀ t, token t ∈ gs → ∀ k, token k ∉ reading t := by
    intro t ht k hk
    obtain ⟨w, hvalue⟩ := h.of_token ht
    obtain ⟨p, hp, rfl⟩ := List.mem_map.mp (h.mem_of_token ht)
    have hin : p.1.toList <:+: u.toList := hgs ▸ infix_of_token_mem ht
    have hk' : k.toList <:+: p.2.toList := hreading p hp ▸ infix_of_token_mem hk
    have hfree := hflat p hp (Text.occurs_iff_infix.mpr hin) k (hvalue.mem_of_token hk)
    rw [Text.occurs_iff_infix.mpr hk'] at hfree
    cases hfree
  refine ⟨gs, hgs, ?_⟩
  generalize v.toList = v at h
  clear hgs
  induction h with
  | nil => exact .nil
  | char c _ ih => exact .char c (ih fun t ht => hplain t (by simp [ht]))
  | @token gs v t w hmem hvalue _ _ ih =>
    obtain ⟨p, hp, rfl⟩ := List.mem_map.mp hmem
    have hw : w = p.2.toList := by
      rw [hvalue.eq_written (hplain p.1 (by simp)), hreading p hp]
    rw [hw]
    exact .token hp (ih fun t ht => hplain t (by simp [ht]))

section orders

variable {values : TokenValues} {u v : String}
  (hform : ∀ t ∈ values.map Prod.fst, Token.WellFormed t)

include hform

/-- Putting some values in leaves what a text comes to, and the tokens whose turn has not been. -/
theorem Glyph.Expands.foldl_replace {reading : Token → List Glyph}
    (hreading : ∀ p ∈ values, written (reading p.1) = p.2.toList) {v : List Char}
    (hv : ¬ Token.mark.toList <:+: v) {order : TokenValues} (horder : order ⊆ values)
    {gs : List Glyph} (h : Expands (values.map Prod.fst) reading gs v) :
    ∃ hs, order.foldl (fun cs p => Text.replace p.1.toList p.2.toList cs) (written gs) =
        written hs ∧ Expands (values.map Prod.fst) reading hs v ∧
      ∀ t, Glyph.token t ∈ gs → t ∉ order.map Prod.fst → Glyph.token t ∈ hs := by
  induction order generalizing gs with
  | nil => exact ⟨gs, rfl, h, fun t ht _ => ht⟩
  | cons p order ih =>
    obtain ⟨hp, horder⟩ := List.cons_subset.mp horder
    have hreplace := written_replace (hform p.1 (List.mem_map_of_mem hp)) (h.yields hform) hv
      (reading p.1)
    rw [hreading p hp] at hreplace
    obtain ⟨hs, hwritten, hexpands, hstay⟩ := ih horder (h.put p.1)
    refine ⟨hs, ?_, hexpands, fun t ht hnot => ?_⟩
    · rw [List.foldl_cons, hreplace, hwritten]
    · rw [List.map_cons, List.mem_cons, not_or] at hnot
      exact hstay t (token_mem_put hnot.1 _ ht) hnot.2

variable (hnodup : (values.map Prod.fst).Nodup) (hcomes : ComesTo values u v)
  (hv : Token.isMarked v = false)

include hnodup hcomes hv

/-- With a flat text any order gives what it comes to. -/
theorem substitute_of_isFlat (hflat : IsFlat values u) {order : TokenValues}
    (horder : order.Perm values) : substitute u order = v := by
  refine substitute_of_denotes ?_ ?_ (fun p hp => horder.mem_iff.mpr hp) (hcomes.denotes hflat) hv
  · exact fun p hp => hform p.1 (List.mem_map_of_mem (horder.mem_iff.mp hp))
  · exact (horder.map Prod.fst).nodup_iff.mpr hnodup

/-- If no order leaves a token, the text is flat: a token whose turn is last leaves the tokens of
its value. -/
theorem isFlat_of_tokenFree (hfree : ∀ order : TokenValues, order.Perm values →
    TokenFree (values.map Prod.fst) (substitute u order)) : IsFlat values u := by
  intro p hp hoccurs k hk
  obtain ⟨reading, hreading, gs, hgs, h⟩ := hcomes
  have hmark := not_infix_mark_of_isMarked hv
  have hp' : p.1 ∈ values.map Prod.fst := List.mem_map_of_mem hp
  obtain ⟨before, after, hsplit⟩ := List.append_of_mem hp
  have hlast : p.1 ∉ (before ++ after).map Prod.fst := by
    rw [hsplit, List.map_append, List.map_cons, List.nodup_middle, List.nodup_cons] at hnodup
    rw [List.map_append]
    exact hnodup.1
  have hothers : before ++ after ⊆ values := by
    rw [hsplit]
    intro q hq
    rcases List.mem_append.mp hq with hq | hq <;> simp [hq]
  have horder : (before ++ after ++ [p]).Perm values := by
    rw [hsplit]
    exact (List.perm_append_singleton _ _).trans List.perm_middle.symm
  have htoken : token p.1 ∈ gs := by
    refine token_mem_of_infix (hform _ hp') (h.yields hform) hmark ?_
    rw [hgs]
    exact Text.occurs_iff_infix.mp hoccurs
  obtain ⟨hs, hwritten, hexpands, hstay⟩ :=
    h.foldl_replace hform hreading hmark hothers
  -- The other values first, and then the value with a token.
  have hfree := hfree (before ++ after ++ [p]) horder k hk
  rw [substitute, List.foldl_append, ← hgs, hwritten, String.toList_ofList] at hfree
  have hreplace := written_replace (hform _ hp') (hexpands.yields hform) hmark (reading p.1)
  have hin := infix_of_put (hstay p.1 htoken hlast) (reading p.1)
  rw [hreading p hp] at hreplace hin
  rw [List.foldl_cons, List.foldl_nil, hreplace] at hfree
  refine Bool.eq_false_iff.mpr fun hk => ?_
  rw [Text.occurs_iff_infix.mpr ((Text.occurs_iff_infix.mp hk).trans hin)] at hfree
  cases hfree

end orders

end Views
