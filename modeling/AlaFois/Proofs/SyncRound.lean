import AlaFois.Lib.Stepper
import AlaFois.Model.Exchange
import AlaFois.Proofs.Convergence

/-!
# A round of the sync

A delta stays complete when the documents on either side go on growing, so that it does not matter
what happens between the steps of a round, nor which round a response answers.
-/

namespace AlaFois

open DeltaSync Stepper

variable {Doc : Type*} [SemilatticeSup Doc] {y : Yjs Doc} {content : Bytes → Doc}

namespace DocContainer

end DocContainer

namespace Exchange

/-! ### What is known at each step of a round -/

/-- A `syncStart` on its way. -/
structure StartOk (y : Yjs Doc) (s : Exchange Doc) (round : Nat) (vector : StateVector) :
    Prop where
  round : round ≤ s.round
  vector : ∃ E ≤ s.container.doc, y.toUint8Array vector = y.encodeStateVector E

/-- A response on its way, or stale. -/
structure ResponseOk (y : Yjs Doc) (content : Bytes → Doc) (s : Exchange Doc)
    (response : SyncResponse Doc) : Prop where
  round : response.round ≤ s.round
  vector : y.toUint8Array response.vector = y.encodeStateVector response.computed
  delta : IsDelta (y.value content response.changes) response.computed s.container.doc
  computed : response.computed ≤ s.actor.ydoc
  own : response.round = s.round → s.events = s.since → s.actor.ydoc = response.computed

/-- A `syncComplete` on its way. -/
structure CompleteOk (y : Yjs Doc) (content : Bytes → Doc) (s : Exchange Doc)
    (complete : SyncComplete Doc) (changes : Changes) : Prop where
  computed : complete.computed ≤ complete.sent
  delta : IsDelta (y.value content changes) complete.sent complete.computed
  actor : complete.computed ≤ s.actor.ydoc
  since : complete.since ≤ s.events
  quiet : complete.own = true → complete.since = s.events →
    s.container.doc = complete.sent ∧ s.actor.ydoc = complete.computed

/-- A `syncComplete` that the actor has taken in. -/
structure ProcessingOk (s : Exchange Doc) (complete : SyncComplete Doc) : Prop where
  computed : complete.computed ≤ complete.sent
  sent : complete.sent ≤ s.actor.ydoc
  since : complete.since ≤ s.events
  quiet : complete.own = true → complete.since = s.events →
    s.container.doc = complete.sent ∧ s.actor.ydoc = complete.sent

end Exchange

/-- The round has exchanged everything. -/
structure FinishedRound.Exchanged (f : FinishedRound Doc) : Prop where
  actor : f.sent ≤ f.actor
  client : f.computed ≤ f.sent
  equal : f.own = true → f.quiet = true → f.actor = f.client

namespace Exchange

structure Consistent (y : Yjs Doc) (content : Bytes → Doc) (s : Exchange Doc) : Prop where
  since : s.since ≤ s.events
  starts : ∀ round vector, (round, vector) ∈ s.starts → s.StartOk y round vector
  responses : ∀ response ∈ s.responses, s.ResponseOk y content response
  completes : ∀ complete changes, (complete, changes) ∈ s.completes →
    s.CompleteOk y content complete changes
  processing : ∀ complete, s.processing = some complete → s.ProcessingOk complete
  finished : ∀ f ∈ s.finished, f.Exchanged

/-- Both documents only grow, and without an event the actor's does not, and the client's only by
what the actor has. -/
structure Grown (s t : Exchange Doc) : Prop where
  actor : s.actor.ydoc ≤ t.actor.ydoc
  client : s.container.doc ≤ t.container.doc
  events : s.events ≤ t.events
  quiet : t.events = s.events → t.actor.ydoc = s.actor.ydoc ∧
    t.container.doc ≤ s.container.doc ⊔ s.actor.ydoc
  round : s.round ≤ t.round
  since : t.round = s.round → t.since = s.since

variable {s t : Exchange Doc}

/-- A step in which something happens beside the rounds, or nothing at all. -/
lemma Grown.of_event (hactor : s.actor.ydoc ≤ t.actor.ydoc)
    (hclient : s.container.doc ≤ t.container.doc)
    (hevents : t.events = s.events + 1 ∨
      t.events = s.events ∧ t.actor.ydoc = s.actor.ydoc ∧ t.container.doc = s.container.doc)
    (hround : t.round = s.round) (hsince : t.since = s.since) : s.Grown t where
  actor := hactor
  client := hclient
  events := by omega
  quiet he := by
    obtain hmore | ⟨-, hydoc, hdoc⟩ := hevents
    · omega
    · exact ⟨hydoc, hdoc ▸ le_sup_left⟩
  round := hround.ge
  since _ := hsince

/-- Only messages or rounds have changed. -/
lemma Grown.of_eq (hactor : t.actor.ydoc = s.actor.ydoc)
    (hclient : t.container.doc = s.container.doc) (hevents : t.events = s.events)
    (hround : t.round = s.round) (hsince : t.since = s.since) : s.Grown t :=
  .of_event hactor.ge hclient.ge (.inr ⟨hevents, hactor, hclient⟩) hround hsince

lemma Grown.start (hg : s.Grown t) {round : Nat} {vector : StateVector}
    (h : s.StartOk y round vector) : t.StartOk y round vector where
  round := h.round.trans hg.round
  vector := by
    obtain ⟨E, hle, hE⟩ := h.vector
    exact ⟨E, hle.trans hg.client, hE⟩

lemma Grown.response (hg : s.Grown t) (hsince : s.since ≤ s.events)
    {response : SyncResponse Doc} (h : s.ResponseOk y content response) :
    t.ResponseOk y content response where
  round := h.round.trans hg.round
  vector := h.vector
  delta := h.delta.mono hg.client
  computed := h.computed.trans hg.actor
  own hround hevents := by
    have hsame : t.round = s.round := by
      have := hg.round
      have := h.round
      omega
    have hquiet : t.events = s.events := by
      have := hg.since hsame
      have := hg.events
      omega
    rw [(hg.quiet hquiet).1]
    apply h.own (hround.trans hsame)
    have := hg.since hsame
    omega

/-- The events only go up, so where they are what they were earlier still, none came since. -/
lemma Grown.events_eq (hg : s.Grown t) {since : Nat} (h : since ≤ s.events)
    (hsince : since = t.events) : t.events = s.events :=
  le_antisymm (hsince ▸ h) hg.events

/-- Without an event in between, the container holds what it has held. -/
lemma Grown.container_eq (hg : s.Grown t) (hquiet : t.events = s.events) {doc : Doc}
    (hclient : s.container.doc = doc) (hactor : s.actor.ydoc ≤ doc) : t.container.doc = doc := by
  refine le_antisymm ?_ (hclient ▸ hg.client)
  calc t.container.doc ≤ s.container.doc ⊔ s.actor.ydoc := (hg.quiet hquiet).2
    _ ≤ doc := sup_le hclient.le hactor

lemma Grown.complete (hg : s.Grown t) {complete : SyncComplete Doc} {changes : Changes}
    (h : s.CompleteOk y content complete changes) : t.CompleteOk y content complete changes where
  computed := h.computed
  delta := h.delta
  actor := h.actor.trans hg.actor
  since := h.since.trans hg.events
  quiet hown hsince := by
    have hquiet : t.events = s.events := hg.events_eq h.since hsince
    obtain ⟨hclient, hactor⟩ := h.quiet hown (hsince.trans hquiet)
    refine ⟨hg.container_eq hquiet hclient ?_, (hg.quiet hquiet).1.trans hactor⟩
    rw [hactor]
    exact h.computed

lemma Grown.processing (hg : s.Grown t) {complete : SyncComplete Doc}
    (h : s.ProcessingOk complete) : t.ProcessingOk complete where
  computed := h.computed
  sent := h.sent.trans hg.actor
  since := h.since.trans hg.events
  quiet hown hsince := by
    have hquiet : t.events = s.events := hg.events_eq h.since hsince
    obtain ⟨hclient, hactor⟩ := h.quiet hown (hsince.trans hquiet)
    exact ⟨hg.container_eq hquiet hclient hactor.le, (hg.quiet hquiet).1.trans hactor⟩

/-- What was there stays all right; what is new has to be. -/
lemma Consistent.grown (h : s.Consistent y content) (hg : s.Grown t) (hsince : t.since ≤ t.events)
    (hstarts : ∀ round vector, (round, vector) ∈ t.starts →
      (round, vector) ∈ s.starts ∨ t.StartOk y round vector)
    (hresponses : ∀ response ∈ t.responses,
      response ∈ s.responses ∨ t.ResponseOk y content response)
    (hcompletes : ∀ complete changes, (complete, changes) ∈ t.completes →
      (complete, changes) ∈ s.completes ∨ t.CompleteOk y content complete changes)
    (hprocessing : ∀ complete, t.processing = some complete →
      s.processing = some complete ∨ t.ProcessingOk complete)
    (hfinished : ∀ f ∈ t.finished, f ∈ s.finished ∨ f.Exchanged) : t.Consistent y content where
  since := hsince
  starts round vector hm := (hstarts round vector hm).elim
    (fun hold => hg.start (h.starts round vector hold)) id
  responses response hm := (hresponses response hm).elim
    (fun hold => hg.response h.since (h.responses response hold)) id
  completes complete changes hm := (hcompletes complete changes hm).elim
    (fun hold => hg.complete (h.completes complete changes hold)) id
  processing complete hm := (hprocessing complete hm).elim
    (fun hold => hg.processing (h.processing complete hold)) id
  finished f hm := (hfinished f hm).elim (h.finished f) id

/-- The messages and the rounds are the same. -/
lemma Consistent.moved (h : s.Consistent y content) (hg : s.Grown t) (hsince : t.since ≤ t.events)
    (hstarts : t.starts = s.starts) (hresponses : t.responses = s.responses)
    (hcompletes : t.completes = s.completes) (hprocessing : t.processing = s.processing)
    (hfinished : t.finished = s.finished) : t.Consistent y content :=
  h.grown hg hsince (fun _ _ hm => .inl (hstarts ▸ hm)) (fun _ hm => .inl (hresponses ▸ hm))
    (fun _ _ hm => .inl (hcompletes ▸ hm)) (fun _ hm => .inl (hprocessing ▸ hm))
    (fun _ hm => .inl (hfinished ▸ hm))

/-! ### One step -/

section

variable [DecidableEq Doc]

end

variable [DecidableEq Doc]

end Exchange

end AlaFois
