import Views.Proofs.Assoc
import Views.Proofs.Token.Denotation
import Views.Proofs.Token.Supply
/-!
# Values put in at once

A text that is put together from literal text and tokens is filled by putting in the value of each
token at once. Replacing the tokens one after the other gives the same text in whatever order, as
long as that text holds no mark of tokens (`substitute_join`), although each replacement goes over
what the ones before it have left. That no token comes about by chance, where one chunk meets
another one or where a value was put in, is what `Denotes` is for: chunks denote what they are
filled to (`denotes_join`).

The premise on the mark is about the text that is meant in the end. It cannot be had from the chunks
alone: a mark may come about where two chunks meet, or from a value, and then putting in one value
may make or break an occurrence of another token.
-/

namespace Views

/-- A chunk of a text: literal characters, or a token that holds a place. -/
inductive Chunk where
  | literal (text : String)
  | token (token : Token)
  deriving DecidableEq, Repr

namespace Chunk

/-- The chunk as it is written. -/
def text : Chunk → String
  | literal text => text
  | token t => t

/-- The chunk with the value of its token. A token without a value stays. -/
def filled (values : TokenValues) : Chunk → String
  | literal text => text
  | token t => (Assoc.find? t values).getD t

end Chunk

/-- Chunks put together mean what they are filled to. -/
theorem denotes_join {values : TokenValues} {chunks : List Chunk}
    (hkeys : ∀ t, .token t ∈ chunks → t ∈ values.map Prod.fst) :
    Denotes values (String.join (chunks.map Chunk.text))
      (String.join (chunks.map (Chunk.filled values))) := by
  induction chunks with
  | nil => exact .refl values _
  | cons chunk chunks ih =>
    have hchunks := ih fun t ht => hkeys t (List.mem_cons_of_mem chunk ht)
    have hchunk : Denotes values chunk.text (chunk.filled values) := by
      cases chunk with
      | literal text => exact .refl values text
      | token t =>
        have hkey := hkeys t List.mem_cons_self
        cases hvalue : Assoc.find? t values with
        | none => exact absurd hkey (Assoc.find?_eq_none_iff.mp hvalue)
        | some value =>
          rw [Chunk.filled, hvalue]
          exact .token (Assoc.mem_of_find? hvalue)
    rw [List.map_cons, List.map_cons, String.join_cons, String.join_cons]
    exact hchunk.append hchunks

/-- A text without the mark of tokens does not hold the start of one. -/
theorem Token.mayOccur_of_not_isMarked {text : String} (h : Token.isMarked text = false) :
    Token.mayOccur text = false := by
  refine Bool.eq_false_iff.mpr fun hoccurs => not_infix_mark_of_isMarked h ?_
  have hmark : Token.mark.toList <:+: Token.opener.toList := by
    rw [Token.opener_toList]
    exact ⟨['_', '_'], [], by simp⟩
  exact hmark.trans (Text.occurs_iff_infix.mp hoccurs)

/-- Values put in one after the other, in whatever order, give the text with all values put in at
once, if that holds no mark of tokens; and then no token is left. -/
theorem substitute_join {values order : TokenValues} {chunks : List Chunk}
    (hform : ∀ t ∈ values.map Prod.fst, Token.WellFormed t)
    (hnodup : (values.map Prod.fst).Nodup)
    (hkeys : ∀ t, .token t ∈ chunks → t ∈ values.map Prod.fst)
    (hmark : Token.isMarked (String.join (chunks.map (Chunk.filled values))) = false)
    (horder : order.Perm values) :
    substitute (String.join (chunks.map Chunk.text)) order =
        String.join (chunks.map (Chunk.filled values)) ∧
      Token.mayOccur (substitute (String.join (chunks.map Chunk.text)) order) = false := by
  have hform' : ∀ p ∈ order, Token.WellFormed p.1 := fun p hp =>
    hform p.1 (List.mem_map_of_mem (horder.mem_iff.mp hp))
  have hnodup' : (order.map Prod.fst).Nodup := (horder.map Prod.fst).nodup_iff.mpr hnodup
  have hsub : values ⊆ order := fun p hp => horder.mem_iff.mpr hp
  have hfilled := substitute_of_denotes hform' hnodup' hsub (denotes_join hkeys) hmark
  constructor
  · exact hfilled
  · rw [hfilled]
    exact Token.mayOccur_of_not_isMarked hmark

/-- Two tokens side by side, between underscores, the value of one of them being a start of the
other. -/
theorem substitute_join_adjacent :
    let t := Token.ofNat 0
    let u := Token.ofNat 1
    substitute ("_" ++ t ++ u ++ t ++ "__") [(u, "_"), (t, "__HBS_")] = "___HBS____HBS___" := by
  have h := @substitute_join [(Token.ofNat 0, "__HBS_"), (Token.ofNat 1, "_")]
    [(Token.ofNat 1, "_"), (Token.ofNat 0, "__HBS_")]
    [.literal "_", .token (Token.ofNat 0), .token (Token.ofNat 1), .token (Token.ofNat 0),
      .literal "__"]
    (by simp [Token.wellFormed_ofNat]) (by decide +kernel) (by simp) (by decide +kernel)
    (List.Perm.swap _ _ _)
  exact h.1

end Views
