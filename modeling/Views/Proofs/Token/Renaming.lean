import Views.Proofs.Assoc
import Views.Proofs.Token.Batch
import Views.Proofs.Token.Denotation
/-!
# Tokens by other names

Two runs that do the same give out different tokens. A `Renaming` pairs the tokens of one run with
those of another one; each of them is used once. A text of one run *is* a text of the other up to
the renaming if it denotes it, each token having the other name for a value, so that `Denotes` is
used for renaming as well as for filling in.

What this module shows about a renaming:

* it only matters where there are tokens: a text without their mark is renamed to itself
  (`Denotes.eq_of_unmarked`);
* jobs that end alike give the tokens of both runs the same values (`settle_renamed`);
* putting these values in gives the same text up to the renaming, in whatever order they are put in,
  as long as no mark comes about in the text apart from its tokens (`substitute_renamed`). Tokens
  that have no value yet stay, under the one name and the other.
-/

namespace Views

open Glyph

/-! ## Renamings -/

/-- A renaming of tokens: pairs of the name in one run and the name in the other. All of them have
the form of tokens, and on neither side a token stands twice. -/
structure Renaming (pairs : List (Token × Token)) : Prop where
  left_wellFormed : ∀ p ∈ pairs, Token.WellFormed p.1
  right_wellFormed : ∀ p ∈ pairs, Token.WellFormed p.2
  left_nodup : (pairs.map Prod.fst).Nodup
  right_nodup : (pairs.map Prod.snd).Nodup

namespace Renaming

variable {pairs : List (Token × Token)} {t t' u u' : Token}

/-- Two tokens of one run are the same if and only if they have the same other name. -/
theorem eq_iff (h : Renaming pairs) (ht : (t, t') ∈ pairs) (hu : (u, u') ∈ pairs) :
    t = u ↔ t' = u' := by
  constructor
  · rintro rfl
    exact congrArg Prod.snd (List.inj_on_of_nodup_map h.left_nodup ht hu rfl)
  · rintro rfl
    exact congrArg Prod.fst (List.inj_on_of_nodup_map h.right_nodup ht hu rfl)

end Renaming

theorem TokenSupply.DistinctBelow.mono {supply : TokenSupply} {bound below : Nat}
    (h : supply.DistinctBelow bound) (hle : below ≤ bound) : supply.DistinctBelow below :=
  ⟨fun i hi => h.1 i (by omega), fun i hi j hj => h.2 i (by omega) j (by omega)⟩

/-- Which tokens are apart depends on the tokens alone, not on how many are used. -/
theorem TokenSupply.DistinctBelow.of_source {supply supply' : TokenSupply} {bound : Nat}
    (h : supply.DistinctBelow bound) (hsource : supply'.source = supply.source) :
    supply'.DistinctBelow bound := by
  unfold DistinctBelow
  rw [hsource]
  exact h

/-- The supply has given out some tokens, each of them once. -/
def TokenSupply.HasGiven (supply : TokenSupply) (tokens : List Token) : Prop :=
  ∃ ids : List Nat, ids.Nodup ∧ (∀ i ∈ ids, i < supply.used) ∧ tokens = ids.map supply.source

namespace TokenSupply

variable {supply : TokenSupply} {tokens : List Token}

theorem hasGiven_nil (supply : TokenSupply) : supply.HasGiven [] :=
  ⟨[], .nil, fun _ h => absurd h List.not_mem_nil, rfl⟩

/-- What was given out stays given out. -/
theorem HasGiven.later {after : TokenSupply} (h : supply.HasGiven tokens)
    (hsource : after.source = supply.source) (hle : supply.used ≤ after.used) :
    after.HasGiven tokens := by
  obtain ⟨ids, hnodup, hbound, htokens⟩ := h
  exact ⟨ids, hnodup, fun i hi => Nat.lt_of_lt_of_le (hbound i hi) hle, hsource ▸ htokens⟩

/-- The token that is drawn next is given out besides. -/
theorem HasGiven.draw (h : supply.HasGiven tokens) :
    supply.draw.2.HasGiven (tokens ++ [supply.draw.1]) := by
  obtain ⟨ids, hnodup, hbound, htokens⟩ := h
  refine ⟨ids ++ [supply.used], ?_, fun i hi => ?_, ?_⟩
  · refine List.nodup_append.mpr ⟨hnodup, List.nodup_singleton _, fun i hi j hj => ?_⟩
    rw [List.mem_singleton.mp hj]
    exact Nat.ne_of_lt (hbound i hi)
  · rcases List.mem_append.mp hi with hi | hi
    · exact Nat.lt_succ_of_lt (hbound i hi)
    · rw [List.mem_singleton.mp hi]
      exact Nat.lt_succ_self _
  · rw [htokens, List.map_append]
    rfl

/-- From a supply whose tokens are apart no token was given out twice. -/
theorem HasGiven.nodup (h : supply.HasGiven tokens) (hdistinct : supply.DistinctBelow supply.used) :
    tokens.Nodup := by
  obtain ⟨ids, hnodup, hbound, rfl⟩ := h
  refine hnodup.map_on fun i hi j hj he => ?_
  exact hdistinct.2 i (hbound i hi) j (hbound j hj) he

/-- What such a supply has given out has the form of tokens. -/
theorem HasGiven.wellFormed (h : supply.HasGiven tokens)
    (hdistinct : supply.DistinctBelow supply.used) : ∀ t ∈ tokens, Token.WellFormed t := by
  obtain ⟨ids, -, hbound, rfl⟩ := h
  intro t ht
  obtain ⟨i, hi, rfl⟩ := List.mem_map.mp ht
  exact hdistinct.1 i (hbound i hi)

/-- The tokens that two supplies have given out, side by side, are a renaming if the tokens of each
supply are apart. -/
theorem HasGiven.renaming {other : TokenSupply} {pairs : List (Token × Token)}
    (h : supply.HasGiven (pairs.map Prod.fst)) (h' : other.HasGiven (pairs.map Prod.snd))
    (hdistinct : supply.DistinctBelow supply.used) (hdistinct' : other.DistinctBelow other.used) :
    Renaming pairs where
  left_wellFormed _ hp := h.wellFormed hdistinct _ (List.mem_map_of_mem hp)
  right_wellFormed _ hp := h'.wellFormed hdistinct' _ (List.mem_map_of_mem hp)
  left_nodup := h.nodup hdistinct
  right_nodup := h'.nodup hdistinct'

end TokenSupply

/-! ## Texts without tokens -/

/-- A token holds the mark of tokens. -/
theorem Token.WellFormed.mark_within {t : Token} (h : Token.WellFormed t) :
    Token.mark.toList <:+: t.toList := by
  obtain ⟨d, rest, -, ht⟩ := h.exists_digit
  rw [ht]
  exact ⟨['_', '_'], d :: rest, by simp⟩

/-- A text in which no mark stands is meant as it is. -/
theorem Denotes.eq_of_unmarked {values : TokenValues} {u v : String}
    (hkeys : ∀ p ∈ values, Token.WellFormed p.1) (h : Denotes values u v)
    (hu : Token.isMarked u = false) : v = u := by
  obtain ⟨gs, hgs, hfills⟩ := h
  have hmark := not_infix_mark_of_isMarked hu
  rw [← hgs] at hmark
  refine String.toList_inj.mp ?_
  rw [← hgs]
  clear hgs
  generalize v.toList = cs at hfills
  induction hfills with
  | nil => rfl
  | char c _ ih => rw [ih fun hin => hmark (List.infix_cons hin), written]
  | @token gs _ t w hmem _ _ =>
    have ht := (hkeys _ hmem).mark_within
    exact absurd (ht.trans (List.prefix_append _ _).isInfix) hmark

/-! ## Glyphs by other names -/

namespace Glyph

variable {values values' : TokenValues}

/-- The same glyphs, each token under its other name. Characters are the same on both sides. -/
inductive Renamed (pairs : List (Token × Token)) : List Glyph → List Glyph → Prop
  | nil : Renamed pairs [] []
  | char {gs hs} (c : Char) : Renamed pairs gs hs → Renamed pairs (.char c :: gs) (.char c :: hs)
  | token {gs hs t u} : (t, u) ∈ pairs → Renamed pairs gs hs →
      Renamed pairs (.token t :: gs) (.token u :: hs)

/-- The glyphs with the tokens that have a value replaced by it. -/
def settled (values : TokenValues) : List Glyph → List Glyph
  | [] => []
  | char c :: gs => char c :: settled values gs
  | token t :: gs => (match Assoc.find? t values with
    | some w => ofChars w.toList
    | none => [token t]) ++ settled values gs

/-- The text of the glyphs with the tokens replaced by their values, and left out where they have
none. -/
def cleared (values : TokenValues) : List Glyph → List Char
  | [] => []
  | char c :: gs => c :: cleared values gs
  | token t :: gs => ((Assoc.find? t values).getD "").toList ++ cleared values gs

@[simp] theorem settled_append (gs hs : List Glyph) :
    settled values (gs ++ hs) = settled values gs ++ settled values hs := by
  induction gs with
  | nil => rfl
  | cons g gs ih => cases g <;> simp [settled, ih]

@[simp] theorem cleared_append (gs hs : List Glyph) :
    cleared values (gs ++ hs) = cleared values gs ++ cleared values hs := by
  induction gs with
  | nil => rfl
  | cons g gs ih => cases g <;> simp [cleared, ih]

@[simp] theorem settled_ofChars (cs : List Char) : settled values (ofChars cs) = ofChars cs := by
  induction cs with
  | nil => rfl
  | cons c cs ih => exact congrArg (.char c :: ·) ih

@[simp] theorem cleared_ofChars (cs : List Char) : cleared values (ofChars cs) = cs := by
  induction cs with
  | nil => rfl
  | cons c cs ih => exact congrArg (c :: ·) ih

theorem settled_nil (gs : List Glyph) : settled [] gs = gs := by
  induction gs with
  | nil => rfl
  | cons g gs ih => cases g <;> simp [settled, ih]

/-- The values that tokens have are what counts, not the order that they are listed in. -/
theorem settled_congr (h : ∀ t, Assoc.find? t values = Assoc.find? t values') (gs : List Glyph) :
    settled values gs = settled values' gs := by
  induction gs with
  | nil => rfl
  | cons g gs ih => cases g <;> simp [settled, ih, h]

/-- Clearing depends only on the value that each token has. -/
theorem cleared_congr (h : ∀ t, Assoc.find? t values = Assoc.find? t values') (gs : List Glyph) :
    cleared values gs = cleared values' gs := by
  induction gs with
  | nil => rfl
  | cons g gs ih => cases g <;> simp [cleared, ih, h]

/-- To put in the first value, and then the others, is to put in all of them. -/
theorem settled_put (k : Token) (w : String) (gs : List Glyph) :
    settled values (put k (ofChars w.toList) gs) = settled ((k, w) :: values) gs := by
  induction gs with
  | nil => rfl
  | cons g gs ih =>
    cases g with
    | char c => simp [put, settled, ih]
    | token t =>
      by_cases ht : t = k
      · simp [put, settled, ih, ht, Assoc.find?]
      · have hk : ¬ k = t := fun h => ht h.symm
        simp [put, settled, ih, ht, hk, Assoc.find?]

/-- To put one value in and then clear the rest is to clear with that value added. -/
theorem cleared_put (k : Token) (w : String) (gs : List Glyph) :
    cleared values (put k (ofChars w.toList) gs) = cleared ((k, w) :: values) gs := by
  induction gs with
  | nil => rfl
  | cons g gs ih =>
    cases g with
    | char c => simp [put, cleared, ih]
    | token t =>
      by_cases ht : t = k
      · simp [put, cleared, ih, ht, Assoc.find?]
      · have hk : ¬ k = t := fun h => ht h.symm
        simp [put, cleared, ih, ht, hk, Assoc.find?]

/-- Glyphs yield their text with the tokens replaced or left out. -/
theorem yields_cleared {gs : List Glyph} (h : ∀ t, Glyph.token t ∈ gs → Token.WellFormed t)
    (values : TokenValues) : Yields gs (cleared values gs) := by
  induction gs with
  | nil => exact .nil
  | cons g gs ih =>
    have ih := ih fun t ht => h t (List.mem_cons_of_mem _ ht)
    cases g with
    | char c => exact .char c ih
    | token t => exact .token _ (h t List.mem_cons_self) ih

/-- The tokens that are left once a value is put in were there before. -/
theorem token_mem_of_mem_put {k t : Token} {cs : List Char} {gs : List Glyph}
    (h : Glyph.token t ∈ put k (ofChars cs) gs) : Glyph.token t ∈ gs := by
  induction gs with
  | nil => cases h
  | cons g gs ih =>
    cases g with
    | char c => exact List.mem_cons_of_mem _ (ih (by simpa [put] using h))
    | token u =>
      rw [put] at h
      rcases List.mem_append.mp h with h | h
      · split at h
        · simp [ofChars] at h
        · rw [List.mem_singleton.mp h]
          exact List.mem_cons_self
      · exact List.mem_cons_of_mem _ (ih h)

/-- If no mark comes about in the text apart from its tokens, putting values in one after the other
puts them in the places of their tokens, and nowhere else. -/
theorem foldl_replace {gs : List Glyph} (hkeys : ∀ p ∈ values, Token.WellFormed p.1)
    (htokens : ∀ t, Glyph.token t ∈ gs → Token.WellFormed t)
    (hmark : ¬ Token.mark.toList <:+: cleared values gs) :
    values.foldl (fun cs p => Text.replace p.1.toList p.2.toList cs) (written gs) =
      written (settled values gs) := by
  induction values generalizing gs with
  | nil => rw [settled_nil, List.foldl_nil]
  | cons p values ih =>
    obtain ⟨k, w⟩ := p
    have hk : Token.WellFormed k := hkeys (k, w) List.mem_cons_self
    have hreplace := written_replace hk (yields_cleared htokens _) hmark (ofChars w.toList)
    rw [written_ofChars] at hreplace
    rw [List.foldl_cons, hreplace, ← settled_put]
    refine ih (fun p hp => hkeys p (List.mem_cons_of_mem _ hp)) (fun t ht => ?_) ?_
    · exact htokens t (token_mem_of_mem_put ht)
    · rwa [cleared_put]

namespace Renamed

variable {pairs : List (Token × Token)} {gs hs : List Glyph}

/-- Two renamed pieces are renamed in a row. -/
theorem append {gs' hs' : List Glyph} (h : Renamed pairs gs hs) (h' : Renamed pairs gs' hs') :
    Renamed pairs (gs ++ gs') (hs ++ hs') := by
  induction h with
  | nil => exact h'
  | char c _ ih => exact .char c ih
  | token hmem _ ih => exact .token hmem ih

/-- Plain characters are their own renaming. -/
theorem ofChars (pairs : List (Token × Token)) (cs : List Char) :
    Renamed pairs (Glyph.ofChars cs) (Glyph.ofChars cs) := by
  induction cs with
  | nil => exact .nil
  | cons c cs ih => exact .char c ih

/-- What glyphs mean, with the other names for values, is what they are written as by the other
names. -/
theorem fills (h : Renamed pairs gs hs) : Fills pairs gs (written hs) := by
  induction h with
  | nil => exact .nil
  | char c _ ih => exact .char c ih
  | token hmem _ ih => exact .token hmem ih

/-- A renaming pairs tokens of the proper form, so both texts hold only such tokens. -/
theorem wellFormed (h : Renamed pairs gs hs) (hpairs : Renaming pairs) :
    (∀ t, Glyph.token t ∈ gs → Token.WellFormed t) ∧
      ∀ t, Glyph.token t ∈ hs → Token.WellFormed t := by
  induction h with
  | nil => exact ⟨fun _ h => absurd h List.not_mem_nil, fun _ h => absurd h List.not_mem_nil⟩
  | char c _ ih =>
    exact ⟨fun t ht => ih.1 t (by simpa using ht), fun t ht => ih.2 t (by simpa using ht)⟩
  | token hmem _ ih =>
    refine ⟨fun t ht => ?_, fun t ht => ?_⟩
    · rcases List.mem_cons.mp ht with he | ht
      · cases he
        exact hpairs.left_wellFormed _ hmem
      · exact ih.1 t ht
    · rcases List.mem_cons.mp ht with he | ht
      · cases he
        exact hpairs.right_wellFormed _ hmem
      · exact ih.2 t ht

end Renamed

/-- Glyphs that mean a text, with the other names for values, are written as that text by the other
names. -/
theorem Fills.exists_renamed {pairs : List (Token × Token)} {gs : List Glyph} {v : List Char}
    (h : Fills pairs gs v) : ∃ hs, Renamed pairs gs hs ∧ written hs = v := by
  induction h with
  | nil => exact ⟨[], .nil, rfl⟩
  | char c _ ih =>
    obtain ⟨hs, hrenamed, rfl⟩ := ih
    exact ⟨.char c :: hs, .char c hrenamed, rfl⟩
  | token hmem _ ih =>
    obtain ⟨hs, hrenamed, rfl⟩ := ih
    exact ⟨_, .token hmem hrenamed, rfl⟩

end Glyph

/-! ## Values by other names -/

/-- The same values in the same order, each for a token under its other name. -/
def TokenValues.Renamed (pairs : List (Token × Token)) (values values' : TokenValues) : Prop :=
  List.Forall₂ (fun p q => (p.1, q.1) ∈ pairs ∧ p.2 = q.2) values values'

namespace TokenValues.Renamed

variable {pairs : List (Token × Token)} {values values' : TokenValues} {t t' : Token}

/-- A token has the value that it has under its other name. -/
theorem find?_eq (h : values.Renamed pairs values') (hpairs : Renaming pairs)
    (ht : (t, t') ∈ pairs) : Assoc.find? t values = Assoc.find? t' values' := by
  induction h with
  | nil => rfl
  | @cons p q _ _ hpq _ ih =>
    obtain ⟨k, w⟩ := p
    obtain ⟨k', w'⟩ := q
    obtain ⟨hmem, rfl⟩ : (k, k') ∈ pairs ∧ w = w' := hpq
    have hiff := hpairs.eq_iff hmem ht
    by_cases hk : k = t
    · simp [Assoc.find?, hk, hiff.mp hk]
    · have hk' : ¬ k' = t' := fun h => hk (hiff.mpr h)
      simp [Assoc.find?, hk, hk', ih]

/-- A value is set for a token under both names. -/
theorem put (h : values.Renamed pairs values') (hpairs : Renaming pairs) (ht : (t, t') ∈ pairs)
    (w : String) :
    TokenValues.Renamed pairs (Assoc.put t w values) (Assoc.put t' w values') := by
  induction h with
  | nil => exact .cons ⟨ht, rfl⟩ .nil
  | @cons p q rest rest' hpq hrest ih =>
    obtain ⟨k, v⟩ := p
    obtain ⟨k', v'⟩ := q
    obtain ⟨hmem, rfl⟩ : (k, k') ∈ pairs ∧ v = v' := hpq
    have hiff := hpairs.eq_iff hmem ht
    by_cases hk : k = t
    · rw [Assoc.put, Assoc.put, if_pos hk, if_pos (hiff.mp hk)]
      exact .cons ⟨ht, rfl⟩ hrest
    · rw [Assoc.put, Assoc.put, if_neg hk, if_neg fun h => hk (hiff.mpr h)]
      exact .cons ⟨hmem, rfl⟩ ih

/-- Joining renamed maps gives a renamed map. -/
theorem extend {more more' : TokenValues} (h : values.Renamed pairs values')
    (hpairs : Renaming pairs) (hmore : more.Renamed pairs more') :
    (values.extend more).Renamed pairs (values'.extend more') := by
  induction hmore generalizing values values' with
  | nil => exact h
  | @cons p q _ _ hpq _ ih =>
    obtain ⟨k, w⟩ := p
    obtain ⟨k', w'⟩ := q
    obtain ⟨hmem, rfl⟩ : (k, k') ∈ pairs ∧ w = w' := hpq
    exact ih (h.put hpairs hmem w)

/-- The tokens of a renamed map and those of its renaming have the proper form. -/
theorem wellFormed (h : values.Renamed pairs values') (hpairs : Renaming pairs) :
    (∀ p ∈ values, Token.WellFormed p.1) ∧ ∀ p ∈ values', Token.WellFormed p.1 := by
  induction h with
  | nil => exact ⟨fun _ h => absurd h List.not_mem_nil, fun _ h => absurd h List.not_mem_nil⟩
  | @cons p q _ _ hpq _ ih =>
    exact ⟨List.forall_mem_cons.mpr ⟨hpairs.left_wellFormed (p.1, q.1) hpq.1, ih.1⟩,
      List.forall_mem_cons.mpr ⟨hpairs.right_wellFormed (p.1, q.1) hpq.1, ih.2⟩⟩

/-- Values put in the places of tokens, under both names. -/
theorem settled {gs hs : List Glyph} (h : values.Renamed pairs values') (hpairs : Renaming pairs)
    (hglyphs : Glyph.Renamed pairs gs hs) :
    Glyph.Renamed pairs (Glyph.settled values gs) (Glyph.settled values' hs) := by
  induction hglyphs with
  | nil => exact .nil
  | char c _ ih => exact .char c ih
  | @token _ _ t u hmem _ ih =>
    rw [Glyph.settled, Glyph.settled, ← h.find?_eq hpairs hmem]
    refine Glyph.Renamed.append ?_ ih
    cases Assoc.find? t values with
    | some w => exact .ofChars _ _
    | none => exact .token hmem .nil

/-- What is left once the tokens are gone does not depend on their names. -/
theorem cleared {gs hs : List Glyph} (h : values.Renamed pairs values') (hpairs : Renaming pairs)
    (hglyphs : Glyph.Renamed pairs gs hs) :
    Glyph.cleared values gs = Glyph.cleared values' hs := by
  induction hglyphs with
  | nil => rfl
  | char c _ ih => rw [Glyph.cleared, Glyph.cleared, ih]
  | token hmem _ ih => rw [Glyph.cleared, Glyph.cleared, ih, h.find?_eq hpairs hmem]

end TokenValues.Renamed

/-- A token under its other name, with a job that ends alike. -/
def Pending.Renamed (pairs : List (Token × Token)) (p q : Pending) : Prop :=
  (p.token, q.token) ∈ pairs ∧ p.job.outcome = q.job.outcome

/-- Batches whose jobs end alike give tokens the same values under both names. -/
theorem settle_renamed {pairs : List (Token × Token)} (hpairs : Renaming pairs)
    {batch batch' : List Pending} (h : List.Forall₂ (Pending.Renamed pairs) batch batch') :
    (settle batch (arrivals batch)).Renamed pairs (settle batch' (arrivals batch')) := by
  rw [settle_eq_extend_shown (delivers_arrivals _), settle_eq_extend_shown (delivers_arrivals _)]
  refine TokenValues.Renamed.extend .nil hpairs ?_
  induction h with
  | nil => exact .nil
  | cons hpq _ ih => exact .cons ⟨hpq.1, congrArg Outcome.shown hpq.2⟩ ih

/-- Putting in values for tokens under both names gives the same text up to the names, whatever
the orders, if no mark comes about in the text apart from its tokens. -/
theorem substitute_renamed {pairs : List (Token × Token)} (hpairs : Renaming pairs)
    {values values' order order' : TokenValues} (hvalues : values.Renamed pairs values')
    (hnodup : (values.map Prod.fst).Nodup) (hnodup' : (values'.map Prod.fst).Nodup)
    (horder : order.Perm values) (horder' : order'.Perm values') {gs hs : List Glyph}
    (hglyphs : Glyph.Renamed pairs gs hs)
    (hmark : Token.isMarked (String.ofList (Glyph.cleared values gs)) = false) :
    Denotes pairs (substitute (String.ofList (written gs)) order)
      (substitute (String.ofList (written hs)) order') := by
  obtain ⟨htokens, htokens'⟩ := hglyphs.wellFormed hpairs
  obtain ⟨hkeys, hkeys'⟩ := hvalues.wellFormed hpairs
  have hmark := not_infix_mark_of_isMarked hmark
  rw [String.toList_ofList] at hmark
  have hcleared : ¬ Token.mark.toList <:+: Glyph.cleared order gs := by
    rwa [cleared_congr (Assoc.find?_perm hnodup horder)]
  have hcleared' : ¬ Token.mark.toList <:+: Glyph.cleared order' hs := by
    rwa [cleared_congr (Assoc.find?_perm hnodup' horder'), ← hvalues.cleared hpairs hglyphs]
  have hleft := foldl_replace (fun p hp => hkeys p (horder.mem_iff.mp hp)) htokens hcleared
  have hright := foldl_replace (fun p hp => hkeys' p (horder'.mem_iff.mp hp)) htokens' hcleared'
  rw [settled_congr (Assoc.find?_perm hnodup horder)] at hleft
  rw [settled_congr (Assoc.find?_perm hnodup' horder')] at hright
  rw [substitute, substitute, String.toList_ofList, String.toList_ofList, hleft, hright]
  refine ⟨Glyph.settled values gs, (String.toList_ofList ..).symm, ?_⟩
  rw [String.toList_ofList]
  exact (hvalues.settled hpairs hglyphs).fills

end Views
