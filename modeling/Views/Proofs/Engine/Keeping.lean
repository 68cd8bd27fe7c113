import Views.Engine.Service
import Views.Proofs.Engine.Origins
/-!
# What a call keeps of what it hears

Whatever a call has heard in the course of time, what it writes next comes from what is kept already
and from the answer that it has heard last, and from that only if it may keep it. `Terms.ofHeard`
says so for each write, and `account_keeping` that a render abides by these terms from question to
question.

The terms change with every question: an answer that was heard some questions ago is either kept by
now, or it will never be. So it is enough to remember the last answer, and to say of every origin
that it goes on to explain the engine if it gave that answer too. Which origin this is need not be
said here; the barrier takes the one that handed out nothing before the engine forgot.
-/

namespace Views

open Engine

/-- Terms of a call that may keep some templates: whatever the origin of what is kept, it stays so
with each write, provided that a source that was heard last and may be kept comes from there too. -/
def Terms.ofHeard (keeps : TemplateKey → Prop) (heard : Option (TemplateKey × String)) :
    Terms Engine where
  rely e e' := e'.settings = e.settings
  allows _ _ := True
  owes e e' := e'.settings = e.settings ∧ ∀ o : Origin, (∀ id l, o.beside id l) →
    (∀ id text, heard = some (id, text) → keeps id → o.given id text) → o.Explains e → o.Explains e'

/-- Terms of a part of a render that keeps nothing of views and layouts. -/
def Terms.quiet : Terms Engine where
  rely e e' := e'.settings = e.settings
  allows _ _ := True
  owes e e' := e'.settings = e.settings ∧ ∀ o : Origin, o.Explains e → o.Explains e'

/-- All that a call may keep: every template if it reuses them, and the default layout. -/
structure MayKeep (keeps : TemplateKey → Prop) (reuse : Bool) (e : Engine) : Prop where
  reused : reuse = true → ∀ id, keeps id
  defaultLayout : ∀ {name}, e.settings.defaultLayout = some name → keeps (e.keyOf name)

/-- A template is what is kept under an identity, or what was heard last for it. -/
def Obtained (id : TemplateKey) (heard : Option (TemplateKey × String)) (e : Engine)
    (template : LoadedTemplate) : Prop :=
  e.cache.templateOf id = some template ∨
    template.id = id ∧ heard = some (id, template.source)

section keeping

variable {keeps : TemplateKey → Prop} {reuse : Bool} {heard : Option (TemplateKey × String)}
  {e e' : Engine}

/-- What may be kept depends on the settings of the engine alone. -/
theorem MayKeep.of_settings (h : MayKeep keeps reuse e) (hsettings : e'.settings = e.settings) :
    MayKeep keeps reuse e' where
  reused := h.reused
  defaultLayout {name} hname := by
    rw [hsettings] at hname
    unfold keyOf
    rw [hsettings]
    exact h.defaultLayout hname

/-- A template that is obtained comes from where all that is kept comes from, and what was heard. -/
theorem Obtained.gave {id : TemplateKey} {template : LoadedTemplate} {o : Origin}
    (h : Obtained id heard e template) (hid : keeps id) (hexplains : o.Explains e)
    (hheard : ∀ id text, heard = some (id, text) → keeps id → o.given id text) :
    o.Gave template := by
  rcases h with hkept | ⟨rfl, hlast⟩
  · exact (hexplains.kept.of_templateOf hkept).2
  · exact hheard _ _ hlast hid

/-- To obtain a template keeps what was just heard for its identity, and nothing else. -/
theorem obtain_keeping {id : TemplateKey} (hid : reuse = true → keeps id) :
    (obtain id reuse).Abides (Terms.ofHeard keeps) Question.source?
      (fun heard r e' => e'.settings = e.settings ∧ ∀ l, r = .ok l → Obtained id heard e' l)
      heard e := by
  refine .obtain (fun entry _ hget => ?_) fun _ => ?_
  · refine ⟨⟨rfl, fun o _ _ => o.preserves_rest.2⟩, rfl, ?_⟩
    rintro _ ⟨⟩
    exact .inl (Cache.templateOf_of_get? hget)
  · refine ⟨⟨rfl, fun o _ _ => o.preserves_rest.2⟩, fun answer _ e' hsettings => ?_⟩
    have hgiven : ∀ {o : Origin}, (∀ key text, Question.source? (.template id) answer =
        some (key, text) → keeps key → o.given key text) →
          reuse = true → ∀ text, answer = .ok text → o.given id text := by
      rintro o hheard hreuse text rfl
      exact hheard id text rfl (hid hreuse)
    refine ⟨⟨rfl, fun o _ hheard hexplains => hexplains.receive (hgiven hheard)⟩, hsettings, ?_⟩
    intro l hok
    obtain ⟨rfl, hid⟩ := Cache.of_receive_ok hok
    exact .inr ⟨hid, rfl⟩

/-- To obtain the default layout keeps that, and the template that it is. -/
theorem obtainDefault_keeping (h : MayKeep keeps reuse e) :
    (obtainDefault reuse).Abides (Terms.ofHeard keeps) Question.source?
      (fun _ _ e' => e'.settings = e.settings) heard e := by
  refine .obtainDefault (fun _ => rfl) (fun _ _ _ => rfl) fun name hname => ?_
  have hkey := h.defaultLayout hname
  refine (obtain_keeping fun _ => hkey).mono ?_
  rintro heard (err | l) e' ⟨hsettings, hobtained⟩
  · exact hsettings
  · refine ⟨⟨rfl, fun o _ hheard hexplains => ?_⟩, hsettings⟩
    exact hexplains.keepDefault ((hobtained l rfl).gave hkey hexplains hheard)

/-- To find a layout notes it with the view, and keeps what was heard for it. -/
theorem layoutFor_keeping {request : Request} (h : MayKeep keeps request.reuse e)
    (template : LoadedTemplate) (standard : Option LoadedTemplate) :
    (layoutFor template request standard).Abides (Terms.ofHeard keeps) Question.source?
      (fun _ _ e' => e'.settings = e.settings) heard e := by
  refine .layoutFor (fun _ _ _ => rfl) (fun name _ => ?_) (fun name _ _ => ?_) (fun _ _ => rfl)
    fun _ _ => rfl
  · refine (obtain_keeping fun hreuse => h.reused hreuse _).mono ?_
    rintro heard (err | l) e' ⟨hsettings, hobtained⟩
    · exact hsettings
    · refine ⟨fun hreuse => ⟨⟨rfl, fun o hbeside hheard hexplains => ?_⟩, hsettings⟩,
        fun _ => hsettings⟩
      have hgave := (hobtained l rfl).gave (h.reused hreuse _) hexplains hheard
      exact hexplains.setLayout hgave (hbeside _ _)
  · exact (obtain_keeping fun hreuse => h.reused hreuse _).mono fun _ _ _ h => h.1

/-- A part of a render that keeps nothing abides by the terms, whatever may be kept. -/
theorem Rendering.Behaves.keeping {α : Type} {x : Rendering α} (h : x.Behaves Terms.quiet)
    (e : Engine) :
    x.Abides (Terms.ofHeard keeps) Question.source? (fun _ _ e' => e'.settings = e.settings)
      heard e := by
  have hrefl : ∀ e, Terms.quiet.rely e e := fun _ => rfl
  have htrans : ∀ {e e' e''}, Terms.quiet.rely e e' → Terms.quiet.rely e' e'' →
      Terms.quiet.rely e e'' := fun h h' => h'.trans h
  have hwithin := (h e).within hrefl htrans And.left id
  have hrely : ∀ {heard e e'}, (Terms.ofHeard keeps heard).rely e e' → Terms.quiet.rely e e' := id
  have howes : ∀ {heard e e'}, Terms.quiet.owes e e' → (Terms.ofHeard keeps heard).owes e e' :=
    fun howes => ⟨howes.1, fun o _ _ => howes.2 o⟩
  exact Script.Ensures.abides (hwithin.mono fun _ _ h => h.2) hrely id howes heard

/-- Registering partials, counting, and drawing tokens keep nothing. -/
theorem Terms.quiet_owes {hits misses : Nat} {registry : Registry} {hasPartials : Bool}
    {tokens : TokenSupply} {calls : Assoc String Nat} : Terms.quiet.owes e { e with
      cache := { e.cache with hits, misses }, registry, hasPartials, tokens, calls } :=
  ⟨rfl, fun o => o.preserves_rest.2⟩

/-- A selection keeps only what it has heard, and may keep, for the identities that it asks for. -/
theorem select_keeping {request : Request} (h : MayKeep keeps request.reuse e) (name : String) :
    (select name request).Abides (Terms.ofHeard keeps) Question.source? (fun _ _ _ => True)
      heard e := by
  have hrefresh : (refreshPartials request.reuse).Behaves Terms.quiet :=
    Rendering.refreshPartials_behaves Terms.quiet_owes fun _ => Terms.quiet_owes
  unfold select
  rw [Rendering.abides_get_bind]
  refine (hrefresh.keeping e).bind (fun _ _ e₁ h₁ => ?_) fun _ _ _ _ => trivial
  have h₁ := h.of_settings h₁
  refine (obtainDefault_keeping h₁).bind (fun _ standard e₂ h₂ => ?_) fun _ _ _ _ => trivial
  have h₂ := h₁.of_settings h₂
  refine (obtain_keeping fun hreuse => h₂.reused hreuse _).bind ?_ fun _ _ _ _ => trivial
  rintro _ template e₃ ⟨h₃, -⟩
  have h₃ := h₂.of_settings h₃
  exact (layoutFor_keeping h₃ template standard).bind (fun _ _ _ _ => trivial)
    fun _ _ _ _ => trivial

/-- A render keeps of what it hears only what it may keep, and only when it hears it. -/
theorem account_keeping {request : Request} (h : MayKeep keeps request.reuse e) (name : String)
    (arrangement : Arrangement) :
    (account name request arrangement).Abides (Terms.ofHeard keeps) Question.source?
      (fun _ _ _ => True) heard e := by
  refine Script.abides_bind.mpr (Script.Abides.mono ?_ (select_keeping h name))
  rintro heard (err | ⟨template, layout⟩) e' -
  · trivial
  · have hcompose : (compose arrangement template layout request.data).Behaves Terms.quiet :=
      Rendering.compose_behaves (fun _ _ => Terms.quiet_owes) _ _ _ _
    exact Script.abides_bind.mpr ((hcompose.keeping e').mono fun _ _ _ _ => trivial)

end keeping

end Views
