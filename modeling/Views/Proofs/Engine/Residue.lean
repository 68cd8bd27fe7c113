import Views.Proofs.Engine.Direct
import Views.Proofs.Token.Nesting
import Views.Proofs.Token.Supply
/-!
# What a render leaves of its tokens

The tokens that a render draws are those that its draft has values for (`draft_draws`). Whether any
of them is left in a page depends on the values that hold tokens themselves:
`leavesNoTokens_iff` says that none is left, in whatever order values are put in, exactly if no
draft has a token with such a value in its text and all drafts come to the same text. If the body of
a page has no such token, only the page itself matters (`leavesNoTokens_iff_of_isFlat`).

* **Flat drafts**: a token may have a value that holds another token, as when a deferred helper is
  given the result of another one. Values are put in one after the other, once each, so the inner
  token stays if its turn has been (`not_leavesNoTokens_wrap_inner`).
* **Every order**: a map of values has no order of its own, so `LeavesNoTokens` speaks of all of
  them, in both passes. An order that leaves a token may also change what the layout is given, and
  then the drafts differ; this is the second part of the criterion.
* **No accident**: premises say that tokens have their form and that drafts come to some text
  without their mark, so that what is left is a token that was given out.
-/

namespace Views

open Engine

/-! ## Drawn tokens -/

/-- A draft has values for the tokens that were drawn since a supply was as it was. -/
structure Engine.Draft.DrawnSince (draft : Draft) (tokens : TokenSupply) (e : Engine) : Prop where
  source_eq : e.tokens.source = tokens.source
  used_le : tokens.used ≤ e.tokens.used
  nodup : (draft.values.map Prod.fst).Nodup
  mem_iff : ∀ t, t ∈ draft.values.map Prod.fst ↔
    ∃ i, tokens.used ≤ i ∧ i < e.tokens.used ∧ tokens.source i = t

/-- What a pass leaves pending is one batch, its tokens drawn from the engine's supply in order. -/
theorem renderIn_draws (template : LoadedTemplate) (data : Value) (scope : PageScope) (e : Engine) :
    (renderIn template data scope).Ensures .still (fun r e' => ∀ raw scope',
      r = .ok (raw, scope') → ∃ batch,
        (e.around scope).Draws (e'.around scope') scope scope' batch) e := by
  have hreaches := template.template.render_acts { registry := e.registry, data } (e.around scope)
  obtain ⟨scope', batch, hscope', hdraws⟩ := hreaches.draws rfl
  unfold renderIn
  rw [Rendering.ensures_get_bind]
  have hstart : template.render e.registry data
      { scope := some scope, tokens := e.tokens, calls := e.calls } =
      template.template.render { registry := e.registry, data } (e.around scope) := rfl
  rw [hstart]
  generalize template.template.render { registry := e.registry, data } (e.around scope) = out
    at hscope' hdraws
  obtain ⟨r, around⟩ := out
  refine .set_bind trivial ?_
  cases r with
  | ok text =>
    refine .pure fun raw scope'' he => ?_
    cases he
    have hgetD : around.scope.getD scope = scope' := by
      have hscope' : around.scope = some scope' := hscope'
      rw [hscope']
      rfl
    refine ⟨batch, hdraws.source_eq, hdraws.used_eq, ?_, hdraws.tokens_eq⟩
    rw [hgetD]
    exact hdraws.pending_eq
  | error err => exact .throw fun raw scope'' he => by cases he

/-- A pass has values for the tokens that it draws, if nothing was waited for before. -/
theorem pass_draws (template : LoadedTemplate) (data : Value) {scope : PageScope}
    (hscope : scope.deferrals.pending = []) (e : Engine) :
    (pass template data scope).Ensures .still (fun r e' => ∀ draft scope',
      r = .ok (draft, scope') →
        draft.DrawnSince e.tokens e' ∧ scope'.deferrals.pending = []) e := by
  refine .bind (renderIn_draws template data scope e) ?_ ?_
  · rintro ⟨raw, scope'⟩ e' hdraws
    obtain ⟨batch, hdraws⟩ := hdraws raw scope' rfl
    have hpending : scope'.deferrals.pending = batch := by
      rw [hdraws.pending_eq, hscope]
      rfl
    -- However the jobs end, there is a value for each token that was drawn.
    have hsettled : ∀ ends,
        Draft.DrawnSince { raw, values := settle batch ends } e.tokens e' := by
      intro ends
      obtain ⟨hnodup, hmem⟩ := keys_settle batch ends
      have hused : e'.tokens.used = e.tokens.used + batch.length := hdraws.used_eq
      refine ⟨hdraws.source_eq, Nat.le.intro hused.symm, hnodup, fun t => ?_⟩
      rw [hmem, hdraws.tokens_eq, List.mem_map]
      refine exists_congr fun i => ?_
      rw [List.mem_range'_1, hused, and_assoc]
      rfl
    unfold awaitValues Deferrals.take
    dsimp only
    rw [hpending]
    split
    · rename_i hempty
      have hnil : batch = [] := List.isEmpty_iff.mp hempty
      have hvalues := hsettled []
      refine .pure fun draft scope'' he => ?_
      cases he
      rw [hnil] at hvalues hpending
      exact ⟨hvalues, hpending⟩
    · refine .ask_bind fun ends _ e'' he => ?_
      obtain rfl : e'' = e' := he
      refine .pure fun draft scope'' he => ?_
      cases he
      exact ⟨hsettled ends, rfl⟩
  · intro err e' _ draft scope' he
    cases he

/-- The values of a body and of the layout around it are those of all tokens drawn meanwhile. -/
theorem Engine.Draft.DrawnSince.extend {body draft : Draft} {tokens : TokenSupply} {e e' : Engine}
    (h : body.DrawnSince tokens e) (h' : draft.DrawnSince e.tokens e') :
    ({ draft with values := body.values.extend draft.values } : Draft).DrawnSince tokens e' where
  source_eq := h'.source_eq.trans h.source_eq
  used_le := h.used_le.trans h'.used_le
  nodup := TokenValues.nodup_keys_extend h.nodup _
  mem_iff t := by
    have hle := h.used_le
    have hle' := h'.used_le
    rw [TokenValues.mem_keys_extend, h.mem_iff, h'.mem_iff, h.source_eq]
    constructor
    · rintro (⟨i, hi, hlt, ht⟩ | ⟨i, hi, hlt, ht⟩)
      · exact ⟨i, hi, by omega, ht⟩
      · exact ⟨i, by omega, hlt, ht⟩
    · rintro ⟨i, hi, hlt, ht⟩
      by_cases hbody : i < e.tokens.used
      · exact .inl ⟨i, hi, hbody, ht⟩
      · exact .inr ⟨i, by omega, hlt, ht⟩

/-- A body has values for the tokens drawn so far, and nothing is waited for. -/
theorem draftBody_draws (name : String) (request : Request) (e : Engine) :
    (draftBody name request).Ensures .still (fun r e' => ∀ body layout scope,
      r = .ok (body, layout, scope) →
        body.DrawnSince e.tokens e' ∧ scope.deferrals.pending = []) e := by
  refine .bind (select_draws_nothing name request e) ?_ fun err e' _ body layout scope he => by
    cases he
  rintro ⟨template, layout⟩ e₁ ⟨htokens, -⟩
  refine .bind (pass_draws template request.data rfl e₁) ?_ fun err e' _ body layout scope he => by
    cases he
  rintro ⟨body, scope⟩ e₂ hbody
  refine .pure fun body' layout' scope' he => ?_
  cases he
  rw [htokens] at hbody
  exact hbody body scope rfl

/-- A draft has values for exactly the tokens that the render draws. -/
theorem draft_draws (arrangement : Arrangement) (name : String) (request : Request) (e : Engine) :
    (draft arrangement name request).Ensures .still
      (fun r e' => ∀ d, r = .ok d → d.DrawnSince e.tokens e') e := by
  refine .bind (draftBody_draws name request e) ?_ fun err e' _ d he => by cases he
  rintro ⟨body, layout, scope⟩ e₁ hdraws
  obtain ⟨hbody, hscope⟩ := hdraws body layout scope rfl
  cases layout with
  | none =>
    refine .pure fun d he => ?_
    cases he
    exact hbody
  | some layout =>
    refine .bind (pass_draws layout _ hscope e₁) ?_ fun err e' _ d he => by cases he
    rintro ⟨around, scope'⟩ e₂ haround
    refine .pure fun d he => ?_
    cases he
    exact hbody.extend (haround around scope' rfl).1

/-! ## Pages without tokens -/

/-- A draft comes to a text that holds no mark of tokens. The text is the one in which all tokens
have their values, those that stand in other values too. -/
def Engine.Draft.Means (draft : Draft) (text : String) : Prop :=
  ComesTo draft.values draft.raw text ∧ Token.isMarked text = false

/-- No token in the text of a draft has a value that holds a token. Values of tokens that stand
nowhere in the text may hold what they like. -/
def Engine.Draft.IsFlat (draft : Draft) : Prop := Views.IsFlat draft.values draft.raw

section draft

variable {draft : Draft} {tokens : TokenSupply} {e : Engine} {text : String}
  (hdrawn : draft.DrawnSince tokens e) (hform : ∀ i, Token.WellFormed (tokens.source i))

include hdrawn hform

/-- The tokens of a draft were drawn from the supply, and have its form. -/
theorem Engine.Draft.DrawnSince.wellFormed :
    ∀ t ∈ draft.values.map Prod.fst, Token.WellFormed t := by
  intro t ht
  obtain ⟨i, -, -, rfl⟩ := (hdrawn.mem_iff t).mp ht
  exact hform i

/-- A flat draft becomes what it means, in whatever order its values are put in. -/
theorem Engine.Draft.DrawnSince.text_of_isFlat (hmeans : draft.Means text) (hflat : draft.IsFlat)
    (arrangement : Arrangement) : draft.text arrangement.outer = text :=
  substitute_of_isFlat (hdrawn.wellFormed hform) hdrawn.nodup hmeans.1 hmeans.2 hflat
    (arrangement.outer_perm _)

/-- A draft of which no token is left, in whatever order its values are put in, is flat. -/
theorem Engine.Draft.DrawnSince.isFlat (hmeans : draft.Means text)
    (hfree : ∀ order : TokenValues, order.Perm draft.values →
      ∀ i, tokens.used ≤ i → i < e.tokens.used →
        Text.occurs (tokens.source i).toList (substitute draft.raw order).toList = false) :
    draft.IsFlat := by
  refine isFlat_of_tokenFree (hdrawn.wellFormed hform) hdrawn.nodup hmeans.1 hmeans.2 ?_
  intro order horder t ht
  obtain ⟨i, hi, hlt, rfl⟩ := (hdrawn.mem_iff t).mp ht
  exact hfree order horder i hi hlt

end draft

/-- The arrangement with another order for the values of a page. -/
def Arrangement.withOrder (arrangement : Arrangement) {values order : TokenValues}
    (h : order.Perm values) : Arrangement :=
  { arrangement with
    outer := fun vs => if vs = values then order else vs
    outer_perm := by
      intro vs
      split
      · rename_i he
        rw [he]
        exact h
      · exact .refl _ }

section residue

variable {ω : Type} (reply : (q : Question) → ω → q.Answer × ω) (e : Engine) (w : ω)
  (name : String) (request : Request)

/-- In whatever orders values are put in, a render that runs alone ends in the same way, and no
token that it drew stands in the page. -/
structure LeavesNoTokens : Prop where
  clear : ∀ arrangement text, ((render name request arrangement).run.run reply e w).1 = .ok text →
    ∀ i, e.tokens.used ≤ i →
      i < ((render name request arrangement).run.run reply e w).2.1.tokens.used →
        Text.occurs (e.tokens.source i).toList text.toList = false
  same : ∀ a b, ((render name request a).run.run reply e w).1 =
    ((render name request b).run.run reply e w).1

/-- The draft that a render which runs alone puts values into. -/
def drafted (arrangement : Arrangement) : Except ViewError Draft :=
  ((draft arrangement name request).run.run reply e w).1

/-- A render puts values into its draft, and does nothing else after it. -/
theorem run_render (arrangement : Arrangement) :
    (render name request arrangement).run.run reply e w =
      ((drafted reply e w name request arrangement).map fun d => d.text arrangement.outer,
        ((draft arrangement name request).run.run reply e w).2) := by
  unfold render drafted
  rw [Rendering.run_bind]
  rcases (draft arrangement name request).run.run reply e w with ⟨r, e', w'⟩
  cases r <;> rfl

variable {reply e w name request}

/-- What is drafted has values for the tokens that the render draws. -/
theorem drawnSince_of_drafted {arrangement : Arrangement} {d : Draft}
    (hd : drafted reply e w name request arrangement = .ok d) :
    d.DrawnSince e.tokens ((render name request arrangement).run.run reply e w).2.1 := by
  have hdraws := (draft_draws arrangement name request e).alone reply w d hd
  rw [run_render]
  exact hdraws

section means

variable (hform : ∀ i, Token.WellFormed (e.tokens.source i))

include hform

/-- A render gives what its draft means, if that is flat. -/
theorem run_render_of_isFlat {arrangement : Arrangement} {d : Draft} {text : String}
    (hd : drafted reply e w name request arrangement = .ok d) (hmeans : d.Means text)
    (hflat : d.IsFlat) :
    ((render name request arrangement).run.run reply e w).1 = .ok text := by
  have htext := (drawnSince_of_drafted hd).text_of_isFlat hform hmeans hflat arrangement
  rw [run_render, hd, Except.map, htext]

variable (hmeans : ∀ arrangement d, drafted reply e w name request arrangement = .ok d →
  ∃ text, d.Means text)

include hmeans

/-- The drafts of a call that leaves no tokens are flat: no value brings in another token. -/
theorem LeavesNoTokens.isFlat (h : LeavesNoTokens reply e w name request)
    {arrangement : Arrangement} {d : Draft}
    (hd : drafted reply e w name request arrangement = .ok d) : d.IsFlat := by
  obtain ⟨text, hmeans⟩ := hmeans arrangement d hd
  refine (drawnSince_of_drafted hd).isFlat hform hmeans fun order horder => ?_
  -- Another order for the values of the page leaves the draft as it is.
  have hd' : drafted reply e w name request (arrangement.withOrder horder) = .ok d := hd
  have hused : ((render name request arrangement).run.run reply e w).2.1 =
      ((render name request (arrangement.withOrder horder)).run.run reply e w).2.1 := by
    rw [run_render, run_render]
    rfl
  rw [hused]
  refine h.clear (arrangement.withOrder horder) _ ?_
  have horder : (arrangement.withOrder horder).outer d.values = order := if_pos rfl
  rw [run_render, hd', Except.map, Draft.text, horder]

/-- Whatever the arrangement, its drafts mean one and the same text. -/
theorem LeavesNoTokens.alike (h : LeavesNoTokens reply e w name request) (a b : Arrangement) :
    Alike (fun d d' => ∃ text, d.Means text ∧ d'.Means text)
      (drafted reply e w name request a) (drafted reply e w name request b) := by
  have hsame := h.same a b
  cases ha : drafted reply e w name request a with
  | ok d =>
    obtain ⟨text, hmeansa⟩ := hmeans a d ha
    rw [run_render_of_isFlat hform ha hmeansa (h.isFlat hform hmeans ha)] at hsame
    cases hb : drafted reply e w name request b with
    | ok d' =>
      obtain ⟨text', hmeansb⟩ := hmeans b d' hb
      rw [run_render_of_isFlat hform hb hmeansb (h.isFlat hform hmeans hb)] at hsame
      cases hsame
      exact .ok ⟨text, hmeansa, hmeansb⟩
    | error err =>
      rw [run_render, hb] at hsame
      cases hsame
  | error err =>
    rw [run_render, ha, run_render] at hsame
    cases hb : drafted reply e w name request b with
    | ok d' =>
      rw [hb] at hsame
      cases hsame
    | error err' =>
      rw [hb] at hsame
      cases hsame
      exact .error err

/-- If all drafts are flat and come to the same, no token is left. -/
theorem LeavesNoTokens.of_isFlat
    (hflat : ∀ arrangement d, drafted reply e w name request arrangement = .ok d → d.IsFlat)
    (halike : ∀ a b, Alike (fun d d' => ∃ text, d.Means text ∧ d'.Means text)
      (drafted reply e w name request a) (drafted reply e w name request b)) :
    LeavesNoTokens reply e w name request where
  clear := by
    intro arrangement text htext i hi hlt
    cases hd : drafted reply e w name request arrangement with
    | ok d =>
      obtain ⟨text', hmeansd⟩ := hmeans arrangement d hd
      rw [run_render_of_isFlat hform hd hmeansd (hflat _ d hd)] at htext
      cases htext
      refine tokenFree_of_not_isMarked ?_ hmeansd.2 (e.tokens.source i) (List.mem_singleton_self _)
      exact fun t ht => List.mem_singleton.mp ht ▸ hform i
    | error err =>
      rw [run_render, hd] at htext
      cases htext
  same := by
    intro a b
    have hab := halike a b
    -- Both drafts become what they mean, and they mean the same.
    cases ha : drafted reply e w name request a with
    | ok d =>
      cases hb : drafted reply e w name request b with
      | ok d' =>
        rw [ha, hb] at hab
        cases hab with
        | ok hmeansab =>
          obtain ⟨text, hmeansa, hmeansb⟩ := hmeansab
          rw [run_render_of_isFlat hform ha hmeansa (hflat _ d ha),
            run_render_of_isFlat hform hb hmeansb (hflat _ d' hb)]
      | error err =>
        rw [ha, hb] at hab
        cases hab
    | error err =>
      rw [ha] at hab
      cases hb : drafted reply e w name request b with
      | ok d' =>
        rw [hb] at hab
        cases hab
      | error err' =>
        rw [hb] at hab
        cases hab
        rw [run_render, run_render, ha, hb]
        rfl

end means

/-- If tokens have the form of tokens, and each draft comes to a text without their mark once all
tokens, those in values too, have their values: a render leaves no token, and gives the same in
whatever orders values are put in, exactly if no draft has in its text a token of which the value
holds a token, and the drafts of all orders come to the same text. -/
theorem leavesNoTokens_iff (hform : ∀ i, Token.WellFormed (e.tokens.source i))
    (hmeans : ∀ arrangement d, drafted reply e w name request arrangement = .ok d →
      ∃ text, d.Means text) :
    LeavesNoTokens reply e w name request ↔
      (∀ arrangement d, drafted reply e w name request arrangement = .ok d → d.IsFlat) ∧
        ∀ a b, Alike (fun d d' => ∃ text, d.Means text ∧ d'.Means text)
          (drafted reply e w name request a) (drafted reply e w name request b) := by
  constructor
  · intro h
    exact ⟨fun _ _ hd => h.isFlat hform hmeans hd, fun a b => h.alike hform hmeans a b⟩
  · rintro ⟨hflat, halike⟩
    exact .of_isFlat hform hmeans hflat halike

/-- If the body is flat, all orders draft the same page. -/
theorem drafted_eq_of_isFlat (hform : ∀ i, Token.WellFormed (e.tokens.source i)) {body : Draft}
    {layout : Option LoadedTemplate} {scope : PageScope}
    (hbody : ((draftBody name request).run.run reply e w).1 = .ok (body, layout, scope))
    {text : String} (hmeans : body.Means text) (hflat : body.IsFlat) (a b : Arrangement) :
    drafted reply e w name request a = drafted reply e w name request b := by
  have hdrawn := ((draftBody_draws name request e).alone reply w body layout scope hbody).1
  have htext : ∀ arrangement : Arrangement, body.text arrangement.inner = text :=
    fun arrangement => substitute_of_isFlat (hdrawn.wellFormed hform) hdrawn.nodup hmeans.1
      hmeans.2 hflat (arrangement.inner_perm _)
  unfold drafted draft
  rw [Rendering.run_bind, Rendering.run_bind]
  generalize (draftBody name request).run.run reply e w = out at hbody
  obtain ⟨r, e', w'⟩ := out
  obtain rfl : r = .ok (body, layout, scope) := hbody
  cases layout with
  | none => rfl
  | some layout =>
    dsimp only
    unfold draftAround
    rw [htext a, htext b]

/-- If the body is flat, no token is left exactly if the page is flat too. -/
theorem leavesNoTokens_iff_of_isFlat (hform : ∀ i, Token.WellFormed (e.tokens.source i))
    {body : Draft} {layout : Option LoadedTemplate} {scope : PageScope}
    (hbody : ((draftBody name request).run.run reply e w).1 = .ok (body, layout, scope))
    {text : String} (htext : body.Means text) (hflat : body.IsFlat)
    (hmeans : ∀ d, drafted reply e w name request {} = .ok d → ∃ text, d.Means text) :
    LeavesNoTokens reply e w name request ↔
      ∀ d, drafted reply e w name request {} = .ok d → d.IsFlat := by
  have hsame := drafted_eq_of_isFlat hform hbody htext hflat
  have hmeans' : ∀ arrangement d, drafted reply e w name request arrangement = .ok d →
      ∃ text, d.Means text := fun arrangement d hd => hmeans d ((hsame {} arrangement).trans hd)
  constructor
  · exact fun h d hd => h.isFlat hform hmeans' hd
  · intro h
    refine .of_isFlat hform hmeans' (fun arrangement d hd => h d ((hsame {} _).trans hd)) ?_
    intro a b
    rw [hsame b a]
    cases hd : drafted reply e w name request a with
    | ok d =>
      obtain ⟨text, hd⟩ := hmeans' a d hd
      exact .ok ⟨text, hd, hd⟩
    | error err => exact .error err

end residue

/-! ## Two pages -/

/-- An engine with a helper of which the value is a text, and one of which it is its argument. -/
def wrappingEngine : Engine :=
  { settings := {}
    registry := (Registry.standard.withContentBlocks.addHelper "inner"
      (.deferred "inner" fun _ _ => ⟨.value "v", 0⟩)).addHelper "wrap"
      (.deferred "wrap" fun args _ => ⟨.value ((args.paramString? 0).getD ""), 0⟩) }

/-- The wrapping engine gives out tokens of the proper form. -/
theorem wellFormed_wrappingEngine (i : Nat) :
    Token.WellFormed (wrappingEngine.tokens.source i) :=
  Token.wellFormed_ofNat i

/-- A source with one page; the jobs of deferred helpers end in their order. -/
def pageReply (page : String) : (q : Question) → Unit → q.Answer × Unit
  | .partials, w => (.ok [], w)
  | .template id, w => (if id.text = "page.hbs" then .ok page else .error (.notFound id.text), w)
  | .values batch, w => (batch.zipIdx.map fun (p, place) => (place, p.job.outcome), w)

/-- Without a layout there is one draft, whatever the orders. -/
theorem drafted_of_no_layout {ω : Type} {reply : (q : Question) → ω → q.Answer × ω} {e : Engine}
    {w : ω} {name : String} {request : Request} {raw : String} {values : TokenValues}
    (h : ((draftBody name request).run.run reply e w).1.toOption.map
      (fun d => (d.1.raw, d.1.values, d.2.1.isNone)) = some (raw, values, true))
    (arrangement : Arrangement) :
    drafted reply e w name request arrangement = .ok { raw, values } := by
  unfold drafted draft
  rw [Rendering.run_bind]
  generalize (draftBody name request).run.run reply e w = out at h ⊢
  obtain ⟨r, e', w'⟩ := out
  cases r with
  | ok d =>
    obtain ⟨body, layout, scope⟩ := d
    obtain ⟨hraw, hrest⟩ := Prod.mk.inj (Option.some.inj h)
    obtain ⟨hvalues, hlayout⟩ := Prod.mk.inj hrest
    obtain rfl : layout = none := Option.isNone_iff_eq_none.mp hlayout
    obtain rfl : body.raw = raw := hraw
    obtain rfl : body.values = values := hvalues
    rfl
  | error err => cases h

set_option maxRecDepth 20000 in
/-- A token of which the value is a text does not stay. -/
theorem leavesNoTokens_inner :
    LeavesNoTokens (pageReply (tagText "inner")) wrappingEngine () "page" {} := by
  have hdrafted : ∀ arrangement, drafted (pageReply (tagText "inner")) wrappingEngine () "page" {}
      arrangement = .ok ⟨Token.ofNat 0, [(Token.ofNat 0, "v")]⟩ :=
    drafted_of_no_layout (by decide +kernel)
  have hmeans : Draft.Means ⟨Token.ofNat 0, [(Token.ofNat 0, "v")]⟩ "v" :=
    ⟨(Denotes.token (List.mem_singleton_self _)).comesTo (by simp),
      by decide +kernel⟩
  refine (leavesNoTokens_iff wellFormed_wrappingEngine ?_).mpr ⟨?_, ?_⟩
  · intro arrangement d hd
    obtain rfl := Except.ok.inj ((hdrafted arrangement).symm.trans hd)
    exact ⟨"v", hmeans⟩
  · intro arrangement d hd
    obtain rfl := Except.ok.inj ((hdrafted arrangement).symm.trans hd)
    intro p hp _
    rw [List.mem_singleton.mp hp]
    refine tokenFree_of_not_isMarked (fun t ht => ?_) (by decide +kernel)
    rw [List.mem_singleton.mp ht]
    exact Token.wellFormed_ofNat 0
  · intro a b
    rw [hdrafted, hdrafted]
    exact .ok ⟨"v", hmeans, hmeans⟩

/-- A draft of a token of which the value is another token is not flat. -/
theorem not_isFlat_of_token (k t : Token) (w : String) :
    ¬ Draft.IsFlat ⟨t, [(k, w), (t, k)]⟩ := by
  intro h
  have hself : ∀ t : Token, Text.occurs t.toList t.toList := fun t =>
    Text.occurs_iff_infix.mpr (List.infix_refl _)
  have hfree := h (t, k) (by simp) (hself t) k (by simp)
  rw [hself] at hfree
  cases hfree

set_option maxRecDepth 20000 in
/-- A token that is the value of another one stays if the other value is put in later. -/
theorem not_leavesNoTokens_wrap_inner :
    ¬ LeavesNoTokens (pageReply (tagText "wrap (inner)")) wrappingEngine () "page" {} := by
  have hdrafted : ∀ arrangement, drafted (pageReply (tagText "wrap (inner)")) wrappingEngine ()
      "page" {} arrangement =
        .ok ⟨Token.ofNat 1, [(Token.ofNat 0, "v"), (Token.ofNat 1, Token.ofNat 0)]⟩ :=
    drafted_of_no_layout (by decide +kernel)
  intro h
  refine not_isFlat_of_token _ _ _ (h.isFlat wellFormed_wrappingEngine ?_ (hdrafted {}))
  intro arrangement d hd
  obtain rfl := Except.ok.inj ((hdrafted arrangement).symm.trans hd)
  exact ⟨"v", comesTo_of_token (by decide +kernel) "v", by decide +kernel⟩

end Views
