import Views.Proofs.Engine.Keeping
import Views.Proofs.Registration
/-!
# Forgetting as a barrier

A render that arrives after the engine forgot should use no source that was handed out before
(`Service.IsBarrier`). But a render that was handed a source before, and takes it up after, puts it
back into the cache, where later renders find it. Where that does not happen forgetting is a
barrier: `Service.Fresh` is the invariant, `Service.Fresh.step` says that whatever happens
punctually preserves it and `barrier_of_punctual` that the barrier holds.

* A `Service` is an engine with clients at it, each of which asks, is handed an answer, and takes it
  up at some later moment. Epochs count how often the engine forgot.
* **The gap** between being handed an answer and taking it up is where the barrier breaks: the view,
  the default layout and the layout noted with a view are all written then, and
  `stale_layout_passed_on` has a layout that is passed on to a later call in this way.
* **The condition** is about the run and not about the sources: no client that may keep its answer
  takes it up in a later epoch (`Service.isPunctual`). Clients that keep nothing may be as late as
  they like, and sources may change at any moment.
-/

namespace Views

open Engine

namespace Service

/-- A source was handed out for an identity in some epoch or since. Epochs are counted by how often
the engine forgot, so this is what counts as fresh for a call that arrived in that epoch. -/
def HandedOut (service : Service) (epoch : Nat) (id : TemplateKey) (text : String) : Prop :=
  ∃ handout ∈ service.handouts, handout.id = id ∧ handout.text = text ∧ epoch ≤ handout.epoch

/-- The sources that were handed out in some epoch or since. -/
def since (service : Service) (epoch : Nat) : Origin where
  given := service.HandedOut epoch

/-- No call that has ended used a view or a layout of which the source was not handed out since the
engine last forgot before the call arrived. -/
def IsBarrier (service : Service) : Prop :=
  ∀ client ∈ service.clients, ∀ account template layout, client.account? = some account →
    account.selection = some (template, layout) →
      service.HandedOut client.epoch template.id template.source ∧
        ∀ l, layout = some l → service.HandedOut client.epoch l.id l.source

end Service

/-! ## Accounts -/

/-- The view and the layout that were selected come from an origin. -/
def Origin.Accounts (o : Origin) (account : Account) : Prop :=
  ∀ template layout, account.selection = some (template, layout) →
    o.Gave template ∧ ∀ l, layout = some l → o.Gave l

/-- A render gives the result in its account. -/
theorem result_account (name : String) (request : Request) (arrangement : Arrangement) :
    Account.result <$> account name request arrangement =
      (render name request arrangement).run := by
  rw [render_eq_compose]
  unfold account
  rw [map_bind, ExceptT.run_bind]
  refine bind_congr fun selected => ?_
  rcases selected with err | ⟨template, layout⟩
  · rfl
  · rw [map_bind]
    simp

/-- If all that is kept comes from an origin, and all that is heard, then so does all that a call
selects. -/
theorem account_explained {o : Origin} {e : Engine} (h : o.Explains e)
    (hbeside : ∀ id l, o.beside id l) (name : String) (request : Request)
    (arrangement : Arrangement) :
    (account name request arrangement).Ensures o.terms (fun account _ => o.Accounts account) e := by
  have hdirects : o.Directs e.settings.extname := fun _ _ _ => hbeside _ _
  refine Script.ensures_bind.mpr (Script.Ensures.mono ?_ (select_explained h hdirects name request))
  rintro (err | ⟨template, layout⟩) e' hselected
  · rintro _ _ ⟨⟩
  · have hcompose := compose_explained (o := o) arrangement template layout request.data e'
    refine Script.ensures_bind.mpr (Script.Ensures.mono (fun result _ _ => ?_) hcompose)
    rintro _ _ ⟨⟩
    exact hselected template layout rfl

/-! ## Answers that bring a source -/

/-- An answer that brings a template's text answers the question for that template. -/
theorem question_of_source? {question : Question} {answer : question.Answer} {id : TemplateKey}
    {text : String} (h : question.source? answer = some (id, text)) : question = .template id := by
  cases question with
  | partials => cases h
  | values batch => cases h
  | template key => cases answer with
    | error err => cases h
    | ok source =>
      cases h
      rfl

/-- An origin is asked only about texts, so an answer is allowed as soon as its text is given. -/
theorem Origin.allows_of_source? (o : Origin) {question : Question} {answer : question.Answer}
    (h : ∀ id text, question.source? answer = some (id, text) → o.given id text) :
    o.Allows question answer := by
  cases question with
  | partials => trivial
  | values batch => trivial
  | template id => cases answer with
    | error err => trivial
    | ok text => exact h id text rfl

/-- Writes that keep to these terms one by one keep to them together. -/
theorem Terms.ofHeard_of_writes {keeps : TemplateKey → Prop}
    {heard : Option (TemplateKey × String)} {e e' : Engine}
    (h : Relation.ReflTransGen (Terms.ofHeard keeps heard).owes e e') :
    (Terms.ofHeard keeps heard).owes e e' := by
  induction h with
  | refl => exact ⟨rfl, fun _ _ _ => id⟩
  | tail _ hwrite ih =>
    obtain ⟨hsettings, hexplains⟩ := ih
    obtain ⟨hsettings', hexplains'⟩ := hwrite
    exact ⟨hsettings'.trans hsettings, fun o hbeside hheard h =>
      hexplains' o hbeside hheard (hexplains o hbeside hheard h)⟩

/-! ## Clients on their way -/

/-- Where a call stands, whether or not its question has an answer. -/
def Standing.halt : Standing → Halt Engine Account
  | halted progress => progress
  | handed question _ _ next => .asking question next

namespace Service

/-- What holds of a client at any moment: whatever gave what has been handed out since it arrived
accounts for what it selects, it keeps only what it may, and an answer that it has not taken up was
handed out since it arrived. -/
structure Serves (service : Service) (client : Client) : Prop where
  epoch : client.epoch ≤ service.epoch
  selects : ∀ o : Origin, (∀ id l, o.beside id l) →
    (∀ id text, service.HandedOut client.epoch id text → o.given id text) →
      Script.Halted o.terms (fun account _ => o.Accounts account) client.standing.halt
        service.engine
  keeps : ∃ heard, Script.AbidesAt
    (Terms.ofHeard fun id => service.mayKeep client (.template id) = true) Question.source?
      (fun _ _ _ => True) heard client.standing.halt service.engine
  handed : ∀ {question answer epoch next}, client.standing = .handed question answer epoch next →
    client.epoch ≤ epoch ∧ ∀ id text, question.source? answer = some (id, text) →
      { id, text, epoch } ∈ service.handouts

/-- What holds at any moment: what is kept was handed out in the present epoch, and all clients are
on their way. -/
structure Fresh (service : Service) : Prop where
  kept : (service.since service.epoch).Explains service.engine
  clients : ∀ client ∈ service.clients, service.Serves client

/-- One service may become another one in the course of time: epochs go up, what was handed out
stays on record, and the settings are the same. What is known of a client that does nothing is kept
on these grounds. -/
structure Precedes (service service' : Service) : Prop where
  settings : service'.engine.settings = service.engine.settings
  epoch : service.epoch ≤ service'.epoch
  handouts : service.handouts ⊆ service'.handouts

variable {service service' : Service} {client : Client}

/-- What has been handed out stays so as further texts are handed out, and counts for every earlier
epoch. -/
theorem HandedOut.mono {epoch epoch' : Nat} {id : TemplateKey} {text : String}
    (h : service.HandedOut epoch' id text) (hepoch : epoch ≤ epoch')
    (hhandouts : service.handouts ⊆ service'.handouts) : service'.HandedOut epoch id text := by
  obtain ⟨handout, hmem, hid, htext, hsince⟩ := h
  exact ⟨handout, hhandouts hmem, hid, htext, hepoch.trans hsince⟩

/-- Whether a client may keep what it reads depends on the settings only. -/
theorem mayKeep_of_settings (h : service'.engine.settings = service.engine.settings) :
    service'.mayKeep client = service.mayKeep client := by
  unfold mayKeep keyOf
  rw [h]

/-- All that a client may keep is kept by its terms. -/
theorem mayKeep_keeps (service : Service) (client : Client) :
    MayKeep (fun id => service.mayKeep client (.template id) = true) client.request.reuse
      service.engine where
  reused hreuse id := by
    rw [mayKeep, hreuse]
    rfl
  defaultLayout {name} hname := by
    rw [mayKeep, hname]
    simp

/-- A client is not disturbed by what happens meanwhile, if what is kept is still of the epoch. -/
theorem Serves.meanwhile (h : service.Serves client) (hprecedes : service.Precedes service')
    (hkept : (service'.since service'.epoch).Explains service'.engine) :
    service'.Serves client where
  epoch := h.epoch.trans hprecedes.epoch
  selects o hbeside hgiven := by
    have hhalted := h.selects o hbeside fun id text hout =>
      hgiven id text (hout.mono (le_refl _) hprecedes.handouts)
    -- Whatever is kept in the present epoch was handed out since the client arrived.
    have hexplains : o.Explains service'.engine := by
      refine hkept.mono (fun hout => hgiven _ _ ?_) fun _ => hbeside _ _
      exact hout.mono (h.epoch.trans hprecedes.epoch) (List.Subset.refl _)
    cases hhalt : client.standing.halt with
    | ended account =>
      rw [hhalt] at hhalted
      exact hhalted
    | asking question next =>
      rw [hhalt] at hhalted
      intro answer hanswer e hrely
      exact hhalted answer hanswer e
        ⟨hrely.1.trans hprecedes.settings, fun _ => hrely.2 hexplains⟩
  keeps := by
    obtain ⟨heard, habides⟩ := h.keeps
    refine ⟨heard, ?_⟩
    rw [mayKeep_of_settings hprecedes.settings]
    cases hhalt : client.standing.halt with
    | ended account => trivial
    | asking question next =>
      rw [hhalt] at habides
      exact fun answer hanswer e hrely => habides answer hanswer e (hrely.trans hprecedes.settings)
  handed hstanding := by
    obtain ⟨hepoch, hmem⟩ := h.handed hstanding
    exact ⟨hepoch, fun id text hsource => hprecedes.handouts (hmem id text hsource)⟩

/-- A client that goes on with an answer that was handed out punctually, or with none, is still on
its way at its next halt, and what is kept then was handed out in the present epoch. -/
theorem Fresh.advance (h : service.Fresh) (hepoch : client.epoch ≤ service.epoch)
    {script : Script Engine Account} {heard : Option (TemplateKey × String)}
    (hselects : ∀ o : Origin, (∀ id l, o.beside id l) →
      (∀ id text, service.HandedOut client.epoch id text → o.given id text) →
        o.Explains service.engine →
          script.Ensures o.terms (fun account _ => o.Accounts account) service.engine)
    (hkeeps : script.Abides (Terms.ofHeard fun id => service.mayKeep client (.template id) = true)
      Question.source? (fun _ _ _ => True) heard service.engine)
    (hheard : ∀ id text, heard = some (id, text) → service.mayKeep client (.template id) = true →
      service.HandedOut service.epoch id text) (clients : List Client) :
    let advanced := script.advance service.engine
    let after := { service with engine := advanced.2, clients }
    service.Precedes after ∧ (after.since after.epoch).Explains after.engine ∧
      after.Serves { client with standing := .halted advanced.1 } := by
  intro advanced after
  obtain ⟨hwrites, habides⟩ := hkeeps.advance
  obtain ⟨hsettings, hexplains⟩ := Terms.ofHeard_of_writes hwrites
  have hprecedes : service.Precedes after := ⟨hsettings, le_refl _, List.Subset.refl _⟩
  refine ⟨hprecedes, hexplains _ (fun _ _ => trivial) hheard h.kept, hepoch, ?_, ?_, ?_⟩
  · intro o hbeside hgiven
    have hexplained : o.Explains service.engine :=
      h.kept.mono (fun hout => hgiven _ _ (hout.mono hepoch (List.Subset.refl _)))
        fun _ => hbeside _ _
    exact (hselects o hbeside hgiven hexplained).advance.2
  · refine ⟨heard, ?_⟩
    rw [mayKeep_of_settings hprecedes.settings]
    exact habides
  · rintro _ _ _ _ ⟨⟩

/-- An answer may be handed out at any time. -/
theorem Fresh.hand (h : service.Fresh) (hserves : service.Serves client)
    {answers : (question : Question) → question.Answer} {client' : Client}
    {handout? : Option Handout}
    (hhand : client.hand answers service.epoch = (client', handout?)) (clients : List Client) :
    let after := { service with clients, handouts := service.handouts ++ handout?.toList }
    service.Precedes after ∧ (after.since after.epoch).Explains after.engine ∧
      after.Serves client' := by
  intro after
  have hhandouts : service.handouts ⊆ after.handouts := List.subset_append_left ..
  have hprecedes : service.Precedes after := ⟨rfl, le_refl _, hhandouts⟩
  have hkept : (after.since after.epoch).Explains after.engine :=
    h.kept.mono (fun hout => hout.mono (le_refl _) hhandouts) id
  refine ⟨hprecedes, hkept, ?_⟩
  -- Only the book of what was handed out has changed; what the client may select has not.
  have hafter := hserves.meanwhile hprecedes hkept
  unfold Client.hand at hhand
  split at hhand
  · rename_i question next hstanding
    obtain ⟨rfl, rfl⟩ := Prod.mk.inj hhand
    have hhalt : client.standing.halt = .asking question next := by
      rw [hstanding]
      rfl
    refine ⟨hafter.epoch, fun o hbeside hgiven => ?_, ?_, ?_⟩
    · have hhalted := hafter.selects o hbeside hgiven
      rw [hhalt] at hhalted
      exact hhalted
    · obtain ⟨heard, habides⟩ := hafter.keeps
      rw [hhalt] at habides
      exact ⟨heard, habides⟩
    · rintro _ _ _ _ ⟨⟩
      refine ⟨hafter.epoch, fun id text hsource => List.mem_append_right _ ?_⟩
      rw [hsource]
      exact List.mem_singleton_self _
  · obtain ⟨rfl, -⟩ := Prod.mk.inj hhand
    exact hafter

/-- An answer may be taken up in the epoch in which it was handed out, or later if the client keeps
nothing of it. -/
theorem Fresh.resume (h : service.Fresh) (hserves : service.Serves client)
    (hpunctual : ∀ {question answer epoch next},
      client.standing = .handed question answer epoch next →
        service.mayKeep client question = true → epoch = service.epoch)
    {client' : Client} {engine : Engine}
    (hresume : client.resume service.engine = (client', engine))
    (clients : List Client) :
    let after := { service with engine, clients }
    service.Precedes after ∧ (after.since after.epoch).Explains after.engine ∧
      after.Serves client' := by
  unfold Client.resume at hresume
  split at hresume
  · rename_i question answer epoch next hstanding
    obtain ⟨rfl, rfl⟩ := Prod.mk.inj hresume
    obtain ⟨hepoch, hmem⟩ := hserves.handed hstanding
    have hhalt : client.standing.halt = .asking question next := by
      rw [hstanding]
      rfl
    obtain ⟨heard, habides⟩ := hserves.keeps
    rw [hhalt] at habides
    have hnext := habides answer trivial service.engine rfl
    refine h.advance hserves.epoch (fun o hbeside hgiven hexplains => ?_) hnext ?_ clients
    · have hhalted := hserves.selects o hbeside hgiven
      rw [hhalt] at hhalted
      refine hhalted answer (o.allows_of_source? fun id text hsource => ?_) service.engine (.refl _)
      exact hgiven id text ⟨_, hmem id text hsource, rfl, rfl, hepoch⟩
    -- Only here it matters in which epoch the answer was handed out.
    · intro id text hsource hkeep
      rw [← question_of_source? hsource] at hkeep
      exact ⟨_, hmem id text hsource, rfl, rfl, (hpunctual hstanding hkeep).ge⟩
  · obtain ⟨rfl, rfl⟩ := Prod.mk.inj hresume
    have hprecedes : service.Precedes { service with clients } := ⟨rfl, le_refl _, fun _ => id⟩
    exact ⟨hprecedes, h.kept, hserves.meanwhile hprecedes h.kept⟩

/-- The invariant carries over, if each client was there before or is on its way. -/
theorem Fresh.later (h : service.Fresh) (hlater : service.Precedes service' ∧
      (service'.since service'.epoch).Explains service'.engine ∧ service'.Serves client)
    (hclients : ∀ other ∈ service'.clients, other ∈ service.clients ∨ other = client) :
    service'.Fresh := by
  obtain ⟨hprecedes, hkept, hserves⟩ := hlater
  refine ⟨hkept, fun other hmem => ?_⟩
  rcases hclients other hmem with hmem | rfl
  · exact (h.clients other hmem).meanwhile hprecedes hkept
  · exact hserves

/-- A call that arrives has heard nothing, and so holds nothing that is stale. -/
theorem Fresh.arrives (h : service.Fresh) (name : String) (request : Request)
    (arrangement : Arrangement) : (service.step (.arrives name request arrangement)).Fresh := by
  let progress := ((account name request arrangement).advance service.engine).1
  let client : Client :=
    { name, request, epoch := service.epoch, standing := .halted progress }
  have hkeeps : (account name request arrangement).Abides (Terms.ofHeard _) Question.source?
      (fun _ _ _ => True) none service.engine :=
    account_keeping (service.mayKeep_keeps client) name arrangement
  have hadvanced := h.advance (le_refl client.epoch) (fun o hbeside _ hexplains =>
    account_explained hexplains hbeside name request arrangement) hkeeps
      (fun _ _ hheard => by cases hheard) (service.clients ++ [client])
  exact h.later hadvanced fun other hmem =>
    (List.mem_append.mp hmem).imp_right List.mem_singleton.mp

/-- An answer that is handed out is noted with the present epoch. -/
theorem Fresh.hands (h : service.Fresh) (place : Nat)
    (answers : (question : Question) → question.Answer) :
    (service.step (.hands place answers)).Fresh := by
  cases hclient : service.clients[place]? with
  | none =>
    have hstep : service.step (.hands place answers) = service := by
      simp only [Service.step, hclient]
    rw [hstep]
    exact h
  | some client =>
    rcases hhand : client.hand answers service.epoch with ⟨client', handout?⟩
    have hstep : service.step (.hands place answers) = { service with
        clients := service.clients.set place client'
        handouts := service.handouts ++ handout?.toList } := by
      simp only [Service.step, hclient, hhand]
    rw [hstep]
    have hserves := h.clients client (List.mem_of_getElem? hclient)
    exact h.later (h.hand hserves hhand _) fun _ => List.mem_or_eq_of_mem_set

/-- A call that is punctual keeps nothing of an earlier epoch. -/
theorem Fresh.resumes (h : service.Fresh) {place : Nat}
    (hpunctual : service.isPunctual (.resumes place) = true) :
    (service.step (.resumes place)).Fresh := by
  cases hclient : service.clients[place]? with
  | none =>
    have hstep : service.step (.resumes place) = service := by
      simp only [Service.step, hclient]
    rw [hstep]
    exact h
  | some client =>
    rcases hresume : client.resume service.engine with ⟨client', engine⟩
    have hstep : service.step (.resumes place) = { service with
        engine, clients := service.clients.set place client' } := by
      simp only [Service.step, hclient, hresume]
    rw [hstep]
    have hserves := h.clients client (List.mem_of_getElem? hclient)
    have hepoch : ∀ {question answer epoch next},
        client.standing = .handed question answer epoch next →
          service.mayKeep client question = true → epoch = service.epoch := by
      intro question answer epoch next hstanding hkeep
      simpa only [isPunctual, hclient, hstanding, hkeep, Bool.not_true, Bool.false_or,
        beq_iff_eq] using hpunctual
    exact h.later (h.resume hserves hepoch hresume _) fun _ => List.mem_or_eq_of_mem_set

/-- When the engine forgets, nothing is kept that could be stale. -/
theorem Fresh.forgets (h : service.Fresh) : (service.step .forgets).Fresh := by
  have hprecedes : service.Precedes (service.step .forgets) :=
    ⟨rfl, Nat.le_succ _, List.Subset.refl _⟩
  have hkept : ((service.step .forgets).since (service.step .forgets).epoch).Explains
      (service.step .forgets).engine := .of_new rfl rfl
  exact ⟨hkept, fun client hmem => (h.clients client hmem).meanwhile hprecedes hkept⟩

/-- Whatever happens next, as long as it is punctual, what is kept was handed out in the present
epoch and all clients are on their way. -/
theorem Fresh.step (h : service.Fresh) {occurrence : Occurrence}
    (hpunctual : service.isPunctual occurrence = true) : (service.step occurrence).Fresh := by
  cases occurrence with
  | arrives name request arrangement => exact h.arrives name request arrangement
  | hands place answers => exact h.hands place answers
  | resumes place => exact h.resumes hpunctual
  | forgets => exact h.forgets

/-- Whatever happens, as long as it is punctual, all is fresh. -/
theorem Fresh.run (h : service.Fresh) {occurrences : List Occurrence}
    (hpunctual : service.runsPunctually occurrences = true) : (service.run occurrences).Fresh := by
  induction occurrences generalizing service with
  | nil => exact h
  | cons occurrence rest ih =>
    rw [runsPunctually, Bool.and_eq_true] at hpunctual
    exact ih (h.step hpunctual.1) hpunctual.2

/-- While all is fresh the barrier holds. -/
theorem Fresh.isBarrier (h : service.Fresh) : service.IsBarrier := by
  intro client hmem account template layout haccount hselection
  have hselects := (h.clients client hmem).selects (service.since client.epoch)
    (fun _ _ => trivial) fun _ _ => id
  have hhalt : client.standing.halt = .ended account := by
    unfold Client.account? Halt.result? at haccount
    split at haccount
    · rename_i progress hstanding
      rw [hstanding]
      split at haccount
      · cases haccount
        rfl
      · cases haccount
    · cases haccount
  rw [hhalt] at hselects
  exact hselects template layout hselection

end Service

/-- Any number of calls with the cache and without go on in any order at an engine that was built,
while sources change and the engine forgets what it read. If no call takes up an answer that it may
keep after the engine forgot since it was handed out, then no call uses a view or a layout of which
the source was handed out before the engine forgot before the call arrived. -/
theorem barrier_of_punctual {settings : Settings} {sourceCheck : Except SetupError Unit}
    {registry : Registry} {helpers : List (String × Helper)} {partials : List (String × String)}
    {built : Engine} (hbuild : build settings sourceCheck registry helpers partials = .ok built)
    (tokens : TokenSupply) {occurrences : List Occurrence}
    (hpunctual : Service.runsPunctually { engine := { built with tokens } } occurrences = true) :
    (Service.run { engine := { built with tokens } } occurrences).IsBarrier := by
  obtain ⟨hcache, hdefault, -⟩ := build_new hbuild
  have hnew : Service.Fresh { engine := { built with tokens } } :=
    ⟨.of_new hcache hdefault, fun _ hmem => by cases hmem⟩
  exact (hnew.run hpunctual).isBarrier

/-! A page with a directive, of which the layout changes. -/

/-- An edition of the layout. -/
def layoutText (edition : String) : String := edition ++ ": \x7b\x7b\x7bbody\x7d\x7d\x7d"

/-- What a source answers that has some edition of the layout. -/
def layoutAnswers (edition : String) : (question : Question) → question.Answer :=
  pageAnswers "\x7b\x7b!< main\x7d\x7dtext" (layoutText edition)

/-- The call in some place is handed an answer and takes it up at once. -/
def answered (place : Nat) (edition : String) : List Occurrence :=
  [.hands place (layoutAnswers edition), .resumes place]

/-- The first call comes to its layout before the engine forgets, and takes it up after. The layout
is handed out to it before or after. Two more calls arrive after, one at the page and one behind. -/
def relay (first last : List Occurrence) : List Occurrence :=
  [.arrives "page" { reuse := true } {}] ++ answered 0 "old" ++ answered 0 "old" ++ first ++
    [.forgets, .arrives "page" { reuse := true } {}] ++ answered 1 "new" ++ answered 1 "new" ++
    last ++ [.resumes 0, .arrives "page" { reuse := true } {}]

/-- The layout is handed out to the first call after the engine forgot. The last call finds it. -/
theorem barrier_of_relay :
    let service := Service.run { engine := .plain } (relay [] [.hands 0 (layoutAnswers "new")])
    service.IsBarrier ∧ (service.clients[2]?.bind Client.account?).bind
      (fun account => account.result.toOption) = some "new: text" := by
  have hbarrier : ∀ {occurrences},
      Service.runsPunctually { engine := .plain } occurrences = true →
        (Service.run { engine := .plain } occurrences).IsBarrier :=
    barrier_of_punctual build_plain {}
  exact ⟨hbarrier (by decide +kernel), by decide +kernel⟩

/-- The layout is handed out to the first call before the engine forgot. The call notes it with the
page that the second call has kept, and the last call, which arrives after, takes it. -/
theorem stale_layout_passed_on :
    let service := Service.run { engine := .plain } (relay [.hands 0 (layoutAnswers "old")] [])
    (service.clients[2]?.bind Client.account?).bind (fun account => account.result.toOption) =
        some "old: text" ∧ ¬ service.IsBarrier := by
  intro service
  refine ⟨by decide +kernel, fun hbarrier => ?_⟩
  have hlast : (service.clients[2]?.map fun client => (client.epoch,
      ((client.account?.bind Account.selection).bind Prod.snd).map LoadedTemplate.source)) =
        some (1, some (layoutText "old")) := by decide +kernel
  obtain ⟨client, hclient, hfacts⟩ := Option.map_eq_some_iff.mp hlast
  obtain ⟨hepoch, hsource⟩ := Prod.mk.inj hfacts
  obtain ⟨l, hl, hsource⟩ := Option.map_eq_some_iff.mp hsource
  obtain ⟨⟨template, layout⟩, hselection, rfl⟩ := Option.bind_eq_some_iff.mp hl
  obtain ⟨account, haccount, hselection⟩ := Option.bind_eq_some_iff.mp hselection
  obtain ⟨-, hlayout⟩ :=
    hbarrier client (List.mem_of_getElem? hclient) account template _ haccount hselection
  obtain ⟨handout, hmem, -, htext, hsince⟩ := hlayout l rfl
  have hhandouts : service.handouts.all fun handout =>
      handout.text ≠ layoutText "old" || handout.epoch = 0 := by decide +kernel
  have hearly : handout.epoch = 0 := by
    simpa [htext, hsource] using List.all_eq_true.mp hhandouts handout hmem
  omega

end Views
