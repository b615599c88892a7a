import AlaFois.Proofs.NetworkWiring

/-!
# What is on its way

The documents of the clients and of the actor, and the updates between them. A synced client
holds nothing that the actor will not have once the updates sent to it have arrived; the actor
holds nothing that the client will not have, as long as the actor takes in no update that is
neither with the client nor on its way to it.
-/

namespace AlaFois

open DeltaSync

section Ahead

variable {Doc : Type*} [SemilatticeSup Doc] {y : Yjs Doc} {content : Bytes → Doc}

/-- What whoever holds `base` will have at most once the changes have arrived. -/
def ahead (y : Yjs Doc) (content : Bytes → Doc) (base : Doc) (P : Changes → Prop) : Set Doc :=
  reach (insert base (y.value content '' {changes | P changes}))

variable {base base' x z : Doc} {P P' : Changes → Prop}

lemma base_mem_ahead : base ∈ ahead y content base P := mem_reach_of_mem (Set.mem_insert _ _)

lemma value_mem_ahead {changes : Changes} (h : P changes) :
    y.value content changes ∈ ahead y content base P :=
  mem_reach_of_mem (Set.mem_insert_of_mem _ ⟨changes, h, rfl⟩)

lemma ahead_of_le (hle : x ≤ z) (hz : z ∈ ahead y content base P) : x ∈ ahead y content base P :=
  reach_of_le hle hz

lemma ahead_trans (hbase : base ∈ ahead y content base' P')
    (hP : ∀ changes, P changes → y.value content changes ∈ ahead y content base' P')
    (hx : x ∈ ahead y content base P) : x ∈ ahead y content base' P' := by
  refine reach_trans (fun z hz => ?_) hx
  rcases hz with rfl | ⟨changes, hchanges, rfl⟩
  · exact hbase
  · exact hP changes hchanges

lemma ahead_mono (hP : ∀ changes, P changes → P' changes) (hx : x ∈ ahead y content base P) :
    x ∈ ahead y content base P' :=
  ahead_trans base_mem_ahead (fun changes h => value_mem_ahead (hP changes h)) hx

lemma ahead_mono_base (hbase : base ≤ base') (hx : x ∈ ahead y content base P) :
    x ∈ ahead y content base' P :=
  ahead_trans (ahead_of_le hbase base_mem_ahead) (fun _ h => value_mem_ahead h) hx

/-- With nothing on its way there is only what is held. -/
lemma le_of_mem_ahead (hP : ∀ changes, ¬P changes) (hx : x ∈ ahead y content base P) :
    x ≤ base := by
  have hempty : {changes | P changes} = (∅ : Set Changes) := by
    ext changes
    simpa using hP changes
  rw [ahead, hempty, Set.image_empty] at hx
  exact mem_reach_singleton.mp (by simpa using hx)

end Ahead

/-- A queue before and after its first element is taken out. -/
lemma mem_queue_iff {α β : Type*} [DecidableEq α] {q : α → List β} {k k' : α} {m x : β}
    {rest : List β} (hk : q k = m :: rest) :
    x ∈ q k' ↔ k' = k ∧ x = m ∨ x ∈ Function.update q k rest k' := by
  by_cases he : k' = k
  · subst he
    simp [hk]
  · simp [he]

lemma mem_update_of_ne {α β : Type*} [DecidableEq α] {q : α → List β} {k k' : α} {x : β}
    {l : List β} (hne : k' ≠ k) (hx : x ∈ q k') : x ∈ Function.update q k l k' := by
  rwa [Function.update_of_ne hne]

/-- A queue that is emptied. -/
lemma mem_of_mem_emptied {α β : Type*} [DecidableEq α] {q : α → List β} {k k' : α} {x : β}
    (hx : x ∈ Function.update q k [] k') : k' ≠ k ∧ x ∈ q k' := by
  by_cases he : k' = k
  · subst he
    simp at hx
  · exact ⟨he, by rwa [Function.update_of_ne he] at hx⟩

namespace Network

variable {ι κ Doc : Type*}

def doc (s : Network ι κ Doc) (c : ι) : Doc := (s.clients c).container.doc

/-- On its way to the actor, from a proxy. -/
def Called (s : Network ι κ Doc) (changes : Changes) : Prop :=
  ∃ k call, (k, call) ∈ s.calls ∧ call.changes = some changes

/-- On its way to the proxy. -/
def Sending (s : Network ι κ Doc) (k : ConnectionId) (changes : Changes) : Prop :=
  ∃ m ∈ s.toServer k, m.update = some changes

/-- Broadcast or published. -/
def Relayed (s : Network ι κ Doc) (changes : Changes) : Prop :=
  (∃ k, .broadcastChanges s.docId changes ∈ s.toClient k) ∨
    ∃ p author, .changes author s.docId changes ∈ s.pubsub p

/-- On its way to the connection, or held for it by the topic. -/
def Coming (s : Network ι κ Doc) (k : ConnectionId) (p : κ) (changes : Changes) : Prop :=
  .broadcastChanges s.docId changes ∈ s.toClient k ∨
    ∃ author, .changes author s.docId changes ∈ s.pubsub p ∧
      ¬(s.proxies p).Holds s.docId author

/-- An answer of the actor on its way to the connection. -/
def Answer (s : Network ι κ Doc) (k : ConnectionId) (vector : StateVector)
    (changes : Changes) : Prop :=
  .syncResponse s.docId vector changes ∈ s.toClient k ∨
    ∃ call reply, (k, call, reply) ∈ s.replies ∧
      gatewayReply s.docId call reply = some (.syncResponse s.docId vector changes)

/-- Only a reply to `syncStart` becomes an answer. -/
lemma gatewayReply_eq {docId : DocKey} {call : ActorCall} {reply : ActorReply}
    {vector : StateVector} {changes : Changes}
    (h : gatewayReply docId call reply = some (.syncResponse docId vector changes)) :
    reply = .syncStart vector changes := by
  unfold gatewayReply at h
  split at h
  · split at h <;> cases h
  · cases h
    rfl
  · cases h
  · cases h

variable {s : Network ι κ Doc}

/-- The client with the socket of a connection is the one of its session. -/
lemma Wired.owner (hw : s.Wired) {k : ConnectionId} {c c' : ι} {p : κ}
    (hk : s.sessions.get k = some (c', p)) (hsocket : (s.clients c).socket = some k) : c' = c := by
  obtain ⟨p', hp'⟩ := hw.socket c k hsocket
  cases hk.symm.trans hp'
  rfl

lemma Silent.not_answer {k : ConnectionId} (h : s.Silent k) (vector : StateVector)
    (changes : Changes) : ¬s.Answer k vector changes := by
  rintro (hm | ⟨call, reply, hm, -⟩)
  · rw [h.client] at hm
    cases hm
  · exact h.replies call reply hm

section Clients

variable [DecidableEq ι]

lemma doc_advance (s : Network ι κ Doc) (c c' : ι) (client : Client Doc)
    (messages : List ClientMessage) : (s.advance c client messages).doc c' =
      if c' = c then client.container.doc else s.doc c' := by
  rw [advance_eq]
  by_cases he : c' = c
  · subst he
    simp [doc]
  · simp [doc, he]

lemma sending_advance {c : ι} {client : Client Doc} {messages : List ClientMessage}
    {k : ConnectionId} {m : ClientMessage} :
    m ∈ (s.advance c client messages).toServer k ↔ m ∈ s.toServer k ∨
      ((s.clients c).socket = some k ∧ s.serverOpen k = true) ∧ m ∈ messages := by
  rw [advance_eq]
  change m ∈ (s.send c messages).toServer k ↔ _
  rw [toServer_send]
  split
  · rename_i hlive
    simp [hlive]
  · rename_i hlive
    simp [hlive]

lemma live_advance {c c' : ι} {client : Client Doc} {messages : List ClientMessage}
    (hsocket : client.socket = (s.clients c).socket) {k : ConnectionId} {p : κ} :
    (s.advance c client messages).Live c' k p ↔ s.Live c' k p := by
  rw [advance_eq]
  have hsame : (Function.update s.clients c client c').socket = (s.clients c').socket := by
    by_cases he : c' = c
    · subst he
      simpa using hsocket
    · simp [he]
  constructor
  · rintro ⟨hsock, hsession, hopen⟩
    exact ⟨hsame.symm.trans hsock, hsession, hopen⟩
  · rintro ⟨hsock, hsession, hopen⟩
    exact ⟨hsame.trans hsock, hsession, hopen⟩

section

variable (s : Network ι κ Doc) (c : ι) (client : Client Doc) (messages : List ClientMessage)

lemma sessions_advance : (s.advance c client messages).sessions = s.sessions := by
  rw [advance_eq]

lemma actor_advance : (s.advance c client messages).actor = s.actor := by
  rw [advance_eq]

lemma calls_advance : (s.advance c client messages).calls = s.calls := by
  rw [advance_eq]

lemma called_advance : (s.advance c client messages).Called = s.Called := by
  funext changes
  simp only [Called, calls_advance]

lemma relayed_advance : (s.advance c client messages).Relayed = s.Relayed := by
  rw [advance_eq]
  rfl

lemma coming_advance : (s.advance c client messages).Coming = s.Coming := by
  rw [advance_eq]
  rfl

lemma answer_advance : (s.advance c client messages).Answer = s.Answer := by
  rw [advance_eq]
  rfl

lemma synced_advance (c' : ι) : ((s.advance c client messages).clients c').synced =
    if c' = c then client.synced else (s.clients c').synced := by
  rw [advance_eq]
  by_cases he : c' = c
  · subst he
    simp
  · simp [he]

end

lemma doc_le_advance [Preorder Doc] {c : ι} {client : Client Doc} (messages : List ClientMessage)
    (hdoc : s.doc c ≤ client.container.doc) (c' : ι) :
    s.doc c' ≤ (s.advance c client messages).doc c' := by
  rw [doc_advance]
  split
  · rename_i he
    rw [he]
    exact hdoc
  · exact le_rfl

lemma doc_connect (s : Network ι κ Doc) (c c' : ι) (k : ConnectionId) (p : κ) :
    (s.connect c k p).doc c' = s.doc c' := by
  by_cases he : c' = c
  · subst he
    simp [doc]
  · simp [doc, he]

/-- A new connection starts with its join. -/
lemma toServer_connect {c : ι} {k k' : ConnectionId} {p : κ} {m : ClientMessage}
    (hm : m ∈ (s.connect c k p).toServer k') : m = .join ∨ m ∈ s.toServer k' := by
  rw [connect_toServer] at hm
  by_cases he : k' = k
  · subst he
    rw [Function.update_self, List.mem_singleton] at hm
    exact .inl hm
  · rw [Function.update_of_ne he] at hm
    exact .inr hm

lemma live_of_connect {c c' : ι} {k k' : ConnectionId} {p p' : κ} (hne : k' ≠ k)
    (h : (s.connect c k p).Live c' k' p') : c' ≠ c ∧ s.Live c' k' p' := by
  obtain ⟨hsock, hsession, hopen⟩ := h
  rw [connect_clients] at hsock
  have hc : c' ≠ c := by
    rintro rfl
    simp only [Function.update_self, Option.some.injEq] at hsock
    exact hne hsock.symm
  rw [Function.update_of_ne hc] at hsock
  rw [connect_sessions, JsMap.get_set_ne _ _ hne] at hsession
  rw [connect_serverOpen, Function.update_of_ne hne] at hopen
  exact ⟨hc, hsock, hsession, hopen⟩

/-- The client that has connected is not synced; the others have been there before. -/
lemma synced_of_connect {c c' : ι} {k k' : ConnectionId} {p p' : κ}
    (h : (s.connect c k p).Live c' k' p') (hsyn : ((s.connect c k p).clients c').synced = true) :
    k' ≠ k ∧ s.Live c' k' p' ∧ (s.clients c').synced = true := by
  rw [connect_clients] at hsyn
  have hc : c' ≠ c := by
    rintro rfl
    simp at hsyn
  have hne : k' ≠ k := by
    rintro rfl
    have hsession := h.session
    simp only [connect_sessions, JsMap.get_set_self, Option.some.injEq, Prod.mk.injEq] at hsession
    exact hc hsession.1.symm
  rw [Function.update_of_ne hc] at hsyn
  exact ⟨hne, (live_of_connect hne h).2, hsyn⟩

end Clients

variable [SemilatticeSup Doc] {y : Yjs Doc} {content : Bytes → Doc}

/-- What is sent is part of what its sender holds. What a synced client holds, the actor has or
will have, and the other way round; an answer makes this true of the client it goes to. -/
structure Carried (y : Yjs Doc) (content : Bytes → Doc) (s : Network ι κ Doc) : Prop where
  outgoing : ∀ k c p, s.sessions.get k = some (c, p) → ∀ changes,
    (s.Sending k changes ∨ ∃ call, (k, call) ∈ s.calls ∧ call.changes = some changes) →
      y.value content changes ≤ s.doc c
  vectors : ∀ k c p, s.sessions.get k = some (c, p) → ∀ vector,
    (.syncStart vector ∈ s.toServer k ∨ (k, .syncStart vector) ∈ s.calls) →
      ∃ E ≤ s.doc c, y.toUint8Array vector = y.encodeStateVector E
  answers : ∀ k c p, s.sessions.get k = some (c, p) → ∀ vector changes,
    s.Answer k vector changes → ∃ D ≤ s.actor.ydoc,
      y.toUint8Array vector = y.encodeStateVector D ∧
        IsDelta (y.value content changes) D (s.doc c)
  relayed : ∀ changes, s.Relayed changes →
    y.value content changes ∈ ahead y content s.actor.ydoc s.Called
  above : ∀ c k p, s.Live c k p → (s.clients c).synced = true →
    s.doc c ∈ ahead y content s.actor.ydoc fun changes => s.Called changes ∨ s.Sending k changes
  below : ∀ c k p, s.Live c k p → (s.clients c).synced = true →
    s.actor.ydoc ∈ ahead y content (s.doc c) (s.Coming k p)
  expected : ∀ c k p, s.Live c k p → ∀ vector changes, s.Answer k vector changes →
    s.actor.ydoc ∈ ahead y content (s.doc c ⊔ y.value content changes) (s.Coming k p)

lemma carried_init (docId : DocKey) (actor : DocHandler Doc) :
    (init y docId actor : Network ι κ Doc).Carried y content where
  outgoing k c p hk := by simp [init] at hk
  vectors k c p hk := by simp [init] at hk
  answers k c p hk := by simp [init] at hk
  relayed changes h := by simp [Relayed, init] at h
  above c k p hlive hsyn := by cases hsyn
  below c k p hlive hsyn := by cases hsyn
  expected c k p hlive vector changes h := by simp [Answer, init] at h

/-- A client goes on: its document grows, and it hands over parts of it. A client that counts as
synced afterwards shows that it is. -/
lemma Carried.advance [DecidableEq ι] (hw : s.Wired) (h : s.Carried y content) (c : ι)
    {client : Client Doc} {messages : List ClientMessage}
    (hsocket : client.socket = (s.clients c).socket) (hdoc : s.doc c ≤ client.container.doc)
    (hsends : Sends y content client.container.doc messages)
    (hsync : client.synced = true → ∀ k p, s.Live c k p →
      (client.container.doc ∈ ahead y content s.actor.ydoc fun changes =>
        s.Called changes ∨ s.Sending k changes ∨ ∃ m ∈ messages, m.update = some changes) ∧
      s.actor.ydoc ∈ ahead y content client.container.doc (s.Coming k p)) :
    (s.advance c client messages).Carried y content := by
  have hgrow := doc_le_advance messages hdoc
  have hself : (s.advance c client messages).doc c = client.container.doc := by
    rw [doc_advance, if_pos rfl]
  refine ⟨fun k c' p hk changes hout => ?_, fun k c' p hk vector hvec => ?_,
    fun k c' p hk vector changes hans => ?_, fun changes hrel => ?_,
    fun c' k p hlive hsyn => ?_, fun c' k p hlive hsyn => ?_,
    fun c' k p hlive vector changes hans => ?_⟩
  · rw [sessions_advance] at hk
    rw [calls_advance] at hout
    rcases hout with ⟨m, hm, hupdate⟩ | hcall
    · rcases sending_advance.mp hm with hm | ⟨⟨hsock, -⟩, hm⟩
      · exact (h.outgoing k c' p hk changes (.inl ⟨m, hm, hupdate⟩)).trans (hgrow c')
      · rw [hw.owner hk hsock, hself]
        exact hsends.updates m hm changes hupdate
    · exact (h.outgoing k c' p hk changes (.inr hcall)).trans (hgrow c')
  · rw [sessions_advance] at hk
    rw [calls_advance] at hvec
    have hold : (.syncStart vector ∈ s.toServer k ∨ (k, .syncStart vector) ∈ s.calls) →
        ∃ E ≤ (s.advance c client messages).doc c',
          y.toUint8Array vector = y.encodeStateVector E := by
      intro hvec
      obtain ⟨E, hE, hvector⟩ := h.vectors k c' p hk vector hvec
      exact ⟨E, hE.trans (hgrow c'), hvector⟩
    rcases hvec with hm | hcall
    · rcases sending_advance.mp hm with hm | ⟨⟨hsock, -⟩, hm⟩
      · exact hold (.inl hm)
      · rw [hw.owner hk hsock, hself]
        exact hsends.vectors vector hm
    · exact hold (.inr hcall)
  · rw [sessions_advance] at hk
    rw [answer_advance] at hans
    rw [actor_advance]
    obtain ⟨D, hD, hvector, hdelta⟩ := h.answers k c' p hk vector changes hans
    exact ⟨D, hD, hvector, hdelta.mono (hgrow c')⟩
  · rw [relayed_advance] at hrel
    rw [actor_advance, called_advance]
    exact h.relayed changes hrel
  · rw [live_advance hsocket] at hlive
    rw [actor_advance, called_advance]
    by_cases he : c' = c
    · subst he
      rw [hself]
      rw [synced_advance, if_pos rfl] at hsyn
      refine ahead_mono (fun changes hP => ?_) (hsync hsyn k p hlive).1
      rcases hP with hP | ⟨m, hm, hupdate⟩ | ⟨m, hm, hupdate⟩
      · exact .inl hP
      · exact .inr ⟨m, sending_advance.mpr (.inl hm), hupdate⟩
      · exact .inr ⟨m, sending_advance.mpr (.inr ⟨⟨hlive.socket, hlive.serverOpen⟩, hm⟩), hupdate⟩
    · rw [synced_advance, if_neg he] at hsyn
      rw [doc_advance, if_neg he]
      refine ahead_mono (fun changes hP => hP.imp_right fun hsend => ?_) (h.above c' k p hlive hsyn)
      obtain ⟨m, hm, hupdate⟩ := hsend
      exact ⟨m, sending_advance.mpr (.inl hm), hupdate⟩
  · rw [live_advance hsocket] at hlive
    rw [actor_advance, coming_advance]
    by_cases he : c' = c
    · subst he
      rw [hself]
      rw [synced_advance, if_pos rfl] at hsyn
      exact (hsync hsyn k p hlive).2
    · rw [synced_advance, if_neg he] at hsyn
      exact ahead_mono_base (hgrow c') (h.below c' k p hlive hsyn)
  · rw [live_advance hsocket] at hlive
    rw [answer_advance] at hans
    rw [actor_advance, coming_advance]
    exact ahead_mono_base (sup_le_sup_right (hgrow c') _)
      (h.expected c' k p hlive vector changes hans)

/-- A client that does not become synced by what it does. -/
lemma Carried.advance_same [DecidableEq ι] (hw : s.Wired) (h : s.Carried y content) (c : ι)
    {container : DocContainer Doc} {messages : List ClientMessage}
    (hdoc : container.doc = s.doc c) (hsends : Sends y content container.doc messages) :
    (s.advance c { s.clients c with container := container } messages).Carried y content := by
  refine h.advance hw c rfl hdoc.ge hsends fun hsyn k p hlive => ?_
  change container.doc ∈ _ ∧ _ ∈ ahead y content container.doc _
  rw [hdoc]
  refine ⟨ahead_mono (fun changes hP => ?_) (h.above c k p hlive hsyn), h.below c k p hlive hsyn⟩
  exact hP.imp_right .inl

/-- A message that the client has made its own leaves the queue. -/
lemma Carried.popClient (h : s.Carried y content) {k : ConnectionId} {m : ServerMessage}
    {rest : List ServerMessage} (hk : s.toClient k = m :: rest)
    (hm : ∀ c p changes, s.Live c k p → m = .broadcastChanges s.docId changes →
      y.value content changes ≤ s.doc c) :
    (s.popClient k rest).Carried y content := by
  have hsub : ∀ k', ∀ m' ∈ (s.popClient k rest).toClient k', m' ∈ s.toClient k' :=
    fun k' m' hm' => (mem_queue_iff hk).mpr (.inr hm')
  have hanswer : ∀ k' vector changes, (s.popClient k rest).Answer k' vector changes →
      s.Answer k' vector changes := fun k' vector changes hans => hans.imp_left (hsub k' _)
  have hcoming : ∀ c k' p, s.Live c k' p → ∀ base, s.doc c ≤ base →
      ∀ x ∈ ahead y content base (s.Coming k' p),
        x ∈ ahead y content base ((s.popClient k rest).Coming k' p) := by
    intro c k' p hlive base hbase x hx
    refine ahead_trans base_mem_ahead (fun changes hP => ?_) hx
    rcases hP with hm' | hpub
    · rcases (mem_queue_iff hk).mp hm' with ⟨rfl, he⟩ | hm'
      · exact ahead_of_le ((hm c p changes hlive he.symm).trans hbase) base_mem_ahead
      · exact value_mem_ahead (.inl hm')
    · exact value_mem_ahead (.inr hpub)
  exact { h with
    answers := fun k' c p hk' vector changes hans =>
      h.answers k' c p hk' vector changes (hanswer k' vector changes hans)
    relayed := fun changes hrel => h.relayed changes
      (hrel.imp_left fun ⟨k', hm'⟩ => ⟨k', hsub k' _ hm'⟩)
    below := fun c k' p hlive hsyn =>
      hcoming c k' p (hlive.congr rfl) _ le_rfl _
        (h.below c k' p (hlive.congr rfl) hsyn)
    expected := fun c k' p hlive vector changes hans =>
      hcoming c k' p (hlive.congr rfl) _ le_sup_left _
        (h.expected c k' p (hlive.congr rfl) vector changes
          (hanswer k' vector changes hans))
    above := fun c k' p hlive hsyn =>
      h.above c k' p (hlive.congr rfl) hsyn }

/-- Broadcasts of what is with the actor or on its way there, and answers that were replies. -/
lemma Carried.post (h : s.Carried y content) {sent : List Sent}
    (hbroadcast : ∀ k changes, (k, .broadcastChanges s.docId changes) ∈ sent →
      y.value content changes ∈ ahead y content s.actor.ydoc s.Called)
    (hanswer : ∀ k vector changes, (k, .syncResponse s.docId vector changes) ∈ sent →
      s.Answer k vector changes) :
    (s.post sent).Carried y content := by
  have hans : ∀ k vector changes, (s.post sent).Answer k vector changes →
      s.Answer k vector changes := by
    rintro k vector changes (hm | hreply)
    · rcases (mem_post sent k _).mp hm with hm | ⟨-, hm⟩
      · exact .inl hm
      · exact hanswer k vector changes hm
    · exact .inr hreply
  have hcoming : ∀ k p changes, s.Coming k p changes → (s.post sent).Coming k p changes :=
    fun k p changes hP => hP.imp_left fun hm => (mem_post sent k _).mpr (.inl hm)
  refine { h with
    answers := fun k c p hk vector changes hA =>
      h.answers k c p hk vector changes (hans k vector changes hA)
    relayed := fun changes hrel => ?_
    above := fun c k p hlive hsyn =>
      h.above c k p (hlive.congr rfl) hsyn
    below := fun c k p hlive hsyn => ahead_mono (hcoming k p)
      (h.below c k p (hlive.congr rfl) hsyn)
    expected := fun c k p hlive vector changes hA => ahead_mono (hcoming k p)
      (h.expected c k p (hlive.congr rfl) vector changes
        (hans k vector changes hA)) }
  rcases hrel with ⟨k, hm⟩ | hpub
  · rcases (mem_post sent k _).mp hm with hm | ⟨-, hm⟩
    · exact h.relayed changes (.inl ⟨k, hm⟩)
    · exact hbroadcast k changes hm
  · exact h.relayed changes (.inr hpub)

lemma Carried.publish (h : s.Carried y content) (author : ConnectionId) {changes : Changes}
    (hcalled : s.Called changes) :
    (s.publish (.changes author s.docId changes)).Carried y content := by
  have hcoming : ∀ k p changes', s.Coming k p changes' →
      (s.publish (.changes author s.docId changes)).Coming k p changes' :=
    fun k p changes' hP => hP.imp_right fun ⟨author', hm, hnot⟩ =>
      ⟨author', List.mem_append_left _ hm, hnot⟩
  refine { h with
    relayed := fun changes' hrel => ?_
    above := fun c k p hlive hsyn =>
      h.above c k p (hlive.congr rfl) hsyn
    below := fun c k p hlive hsyn => ahead_mono (hcoming k p)
      (h.below c k p (hlive.congr rfl) hsyn)
    expected := fun c k p hlive vector changes' hA => ahead_mono (hcoming k p)
      (h.expected c k p (hlive.congr rfl) vector changes' hA) }
  rcases hrel with hm | ⟨p, author', hm⟩
  · exact h.relayed changes' (.inl hm)
  · rcases List.mem_append.mp hm with hm | hm
    · exact h.relayed changes' (.inr ⟨p, author', hm⟩)
    · cases List.mem_singleton.mp hm
      exact value_mem_ahead hcalled

/-- A call with what the client of the connection holds. -/
lemma Carried.addCall (h : s.Carried y content) {k : ConnectionId} {c : ι} {p : κ}
    {call : ActorCall} (hk : s.sessions.get k = some (c, p))
    (hupdate : ∀ changes, call.changes = some changes → y.value content changes ≤ s.doc c)
    (hvector : ∀ vector, call = .syncStart vector →
      ∃ E ≤ s.doc c, y.toUint8Array vector = y.encodeStateVector E) :
    (s.addCall k call).Carried y content := by
  have hcalled : ∀ changes, s.Called changes → (s.addCall k call).Called changes :=
    fun changes ⟨k', call', hm, hc⟩ => ⟨k', call', List.mem_append_left _ hm, hc⟩
  refine { h with
    outgoing := fun k' c' p' hk' changes hout => ?_
    vectors := fun k' c' p' hk' vector hvec => ?_
    relayed := fun changes hrel => ahead_mono hcalled (h.relayed changes hrel)
    above := fun c' k' p' hlive hsyn => ahead_mono (fun changes => Or.imp_left (hcalled changes))
      (h.above c' k' p' (hlive.congr rfl) hsyn)
    below := fun c' k' p' hlive hsyn =>
      h.below c' k' p' (hlive.congr rfl) hsyn
    expected := fun c' k' p' hlive =>
      h.expected c' k' p' (hlive.congr rfl) }
  · rcases hout with hsend | ⟨call', hm, hc⟩
    · exact h.outgoing k' c' p' hk' changes (.inl hsend)
    · rcases List.mem_append.mp hm with hm | hm
      · exact h.outgoing k' c' p' hk' changes (.inr ⟨call', hm, hc⟩)
      · cases List.mem_singleton.mp hm
        cases hk.symm.trans hk'
        exact hupdate changes hc
  · rcases hvec with hsend | hm
    · exact h.vectors k' c' p' hk' vector (.inl hsend)
    · rcases List.mem_append.mp hm with hm | hm
      · exact h.vectors k' c' p' hk' vector (.inr hm)
      · cases List.mem_singleton.mp hm
        cases hk.symm.trans hk'
        exact hvector vector rfl

/-- A message leaves the queue of the proxy when what it brings is on its way to the actor. -/
lemma Carried.popServer (h : s.Carried y content) {k : ConnectionId} {m : ClientMessage}
    {rest : List ClientMessage} (hk : s.toServer k = m :: rest)
    (hm : ∀ changes, m.update = some changes → s.Called changes) :
    (s.popServer k rest).Carried y content := by
  have hsub : ∀ k', ∀ m' ∈ (s.popServer k rest).toServer k', m' ∈ s.toServer k' :=
    fun k' m' hm' => (mem_queue_iff hk).mpr (.inr hm')
  have hsending : ∀ k' changes, s.Sending k' changes →
      s.Called changes ∨ (s.popServer k rest).Sending k' changes := by
    rintro k' changes ⟨m', hm', hupdate⟩
    rcases (mem_queue_iff hk).mp hm' with ⟨-, rfl⟩ | hm'
    · exact .inl (hm changes hupdate)
    · exact .inr ⟨m', hm', hupdate⟩
  exact { h with
    outgoing := fun k' c p hk' changes hout => h.outgoing k' c p hk' changes
      (hout.imp_left fun ⟨m', hm', hupdate⟩ => ⟨m', hsub k' m' hm', hupdate⟩)
    vectors := fun k' c p hk' vector hvec => h.vectors k' c p hk' vector
      (hvec.imp_left fun hm' => hsub k' _ hm')
    above := fun c k' p hlive hsyn => ahead_mono
      (fun changes hP => hP.elim .inl (hsending k' changes))
      (h.above c k' p (hlive.congr rfl) hsyn)
    below := fun c k' p hlive hsyn =>
      h.below c k' p (hlive.congr rfl) hsyn
    expected := fun c k' p hlive =>
      h.expected c k' p (hlive.congr rfl) }

/-- A connection that is taken in has published nothing that was passed on before. -/
lemma Carried.join [DecidableEq κ] (hw : s.Wired) (h : s.Carried y content) {k : ConnectionId}
    {c : ι} {p : κ} (hk : s.sessions.get k = some (c, p)) (hopen : s.serverOpen k = true) :
    (s.withProxy p ((s.proxies p).joinToDoc k s.docId)).Carried y content := by
  have hcoming : ∀ k' p' changes, s.Coming k' p' changes →
      (s.withProxy p ((s.proxies p).joinToDoc k s.docId)).Coming k' p' changes := by
    rintro k' p' changes (hm | ⟨author, hm, hnot⟩)
    · exact .inl hm
    · refine .inr ⟨author, hm, fun hh => hnot ?_⟩
      by_cases he : p' = p
      · subst he
        have hjoined : ((s.proxies p').joinToDoc k s.docId).Holds s.docId author := by
          simpa [withProxy] using hh
        rcases (DocService.holds_joinToDoc (hw.plain p').wf _ _ _ _).mp hjoined with
          hold | ⟨-, rfl⟩
        · exact hold
        · exact hw.holds hk hopen fun hsilent => hsilent.author p' _ _ hm
      · simpa [withProxy, he] using hh
  exact { h with
    above := fun c k p hlive => h.above c k p (hlive.congr rfl)
    below := fun c k p hlive hsyn => ahead_mono (hcoming k p)
      (h.below c k p (hlive.congr rfl) hsyn)
    expected := fun c k p hlive vector changes hA => ahead_mono (hcoming k p)
      (h.expected c k p (hlive.congr rfl) vector changes hA) }

/-- The instance forgets a connection: what it published is passed on to everybody else. -/
lemma Carried.handleDisconnect [DecidableEq κ] (hw : s.Wired) (h : s.Carried y content)
    (k : ConnectionId) (p : κ) : (s.handleDisconnect k p).Carried y content := by
  have hlive : ∀ {c' k' p'}, (s.handleDisconnect k p).Live c' k' p' →
      k' ≠ k ∧ s.Live c' k' p' := by
    rintro c' k' p' ⟨hsocket, hsession, hopen⟩
    rw [handleDisconnect_serverOpen] at hopen
    by_cases he : k' = k
    · subst he
      simp at hopen
    · rw [Function.update_of_ne he] at hopen
      exact ⟨he, hsocket, hsession, hopen⟩
  have hsub : ∀ k', ∀ m ∈ (s.handleDisconnect k p).toServer k', m ∈ s.toServer k' :=
    fun k' m hm => (mem_of_mem_emptied hm).2
  have hcoming : ∀ k' p' changes, s.Coming k' p' changes →
      (s.handleDisconnect k p).Coming k' p' changes := by
    rintro k' p' changes (hm | ⟨author, hm, hnot⟩)
    · exact .inl hm
    · refine .inr ⟨author, hm, fun hh => hnot ?_⟩
      rw [handleDisconnect_proxies] at hh
      by_cases he : p' = p
      · subst he
        rw [Function.update_self] at hh
        exact (((hw.plain p').holds_disconnect _ _ _).mp hh).1
      · rwa [Function.update_of_ne he] at hh
  refine { h with
    outgoing := fun k' c' p' hk' changes hout => h.outgoing k' c' p' hk' changes
      (hout.imp_left fun ⟨m, hm, hupdate⟩ => ⟨m, hsub k' m hm, hupdate⟩)
    vectors := fun k' c' p' hk' vector hvec => h.vectors k' c' p' hk' vector
      (hvec.imp_left fun hm => hsub k' _ hm)
    above := fun c' k' p' hl hsyn => ?_
    below := fun c' k' p' hl hsyn => ahead_mono (hcoming k' p') (h.below c' k' p' (hlive hl).2 hsyn)
    expected := fun c' k' p' hl vector changes hA => ahead_mono (hcoming k' p')
      (h.expected c' k' p' (hlive hl).2 vector changes hA) }
  obtain ⟨hne, hold⟩ := hlive hl
  refine ahead_mono (fun changes hP => hP.imp_right fun ⟨m, hm, hupdate⟩ => ⟨m, ?_, hupdate⟩)
    (h.above c' k' p' hold hsyn)
  exact mem_update_of_ne hne hm

lemma Carried.connect [DecidableEq ι] (hw : s.Wired) (h : s.Carried y content) (c : ι)
    {k : ConnectionId} (p : κ) (hk : s.sessions.get k = none) :
    (s.connect c k p).Carried y content := by
  have hquiet := (hw.unused k hk).2
  have hnone := hw.closed k (hw.unused k hk).1
  have hget : ∀ k', k' ≠ k → (s.connect c k p).sessions.get k' = s.sessions.get k' :=
    fun k' hne => JsMap.get_set_ne _ _ hne
  refine ⟨fun k' c' p' hk' changes hout => ?_, fun k' c' p' hk' vector hvec => ?_,
    fun k' c' p' hk' vector changes hA => ?_, h.relayed, fun c' k' p' hl hsyn => ?_,
    fun c' k' p' hl hsyn => ?_, fun c' k' p' hl vector changes hA => ?_⟩
  · rw [doc_connect]
    have hout' : s.Sending k' changes ∨
        ∃ call, (k', call) ∈ s.calls ∧ call.changes = some changes := by
      refine hout.imp_left fun ⟨m, hm, hupdate⟩ =>
        ⟨m, (toServer_connect hm).resolve_left ?_, hupdate⟩
      rintro rfl
      cases hupdate
    by_cases he : k' = k
    · subst he
      rcases hout' with ⟨m, hm, -⟩ | ⟨call, hm, -⟩
      · rw [hnone] at hm
        cases hm
      · exact absurd hm (hquiet.calls call)
    · exact h.outgoing k' c' p' ((hget k' he).symm.trans hk') changes hout'
  · rw [doc_connect]
    have hvec' : .syncStart vector ∈ s.toServer k' ∨ (k', .syncStart vector) ∈ s.calls :=
      hvec.imp_left fun hm => (toServer_connect hm).resolve_left (by simp)
    by_cases he : k' = k
    · subst he
      rcases hvec' with hm | hm
      · rw [hnone] at hm
        cases hm
      · exact absurd hm (hquiet.calls _)
    · exact h.vectors k' c' p' ((hget k' he).symm.trans hk') vector hvec'
  · rw [doc_connect]
    by_cases he : k' = k
    · subst he
      exact absurd hA (hquiet.not_answer vector changes)
    · exact h.answers k' c' p' ((hget k' he).symm.trans hk') vector changes hA
  · obtain ⟨hne, hold, hsyn⟩ := synced_of_connect hl hsyn
    rw [doc_connect]
    refine ahead_mono (fun changes hP => hP.imp_right fun ⟨m, hm, hupdate⟩ => ⟨m, ?_, hupdate⟩)
      (h.above c' k' p' hold hsyn)
    exact mem_update_of_ne hne hm
  · obtain ⟨hne, hold, hsyn⟩ := synced_of_connect hl hsyn
    rw [doc_connect]
    exact h.below c' k' p' hold hsyn
  · rw [doc_connect]
    by_cases he : k' = k
    · subst he
      exact absurd hA (hquiet.not_answer vector changes)
    · exact h.expected c' k' p' (live_of_connect he hl).2 vector changes hA

lemma Carried.disconnect [DecidableEq ι] (hw : s.Wired) (h : s.Carried y content) {c : ι}
    {k : ConnectionId} (hsocket : (s.clients c).socket = some k) :
    (s.disconnect c k).Carried y content := by
  have hdoc : ∀ c', (s.disconnect c k).doc c' = s.doc c' := by
    intro c'
    by_cases he : c' = c
    · subst he
      simp [doc]
    · simp [doc, he]
  have hsub : ∀ k', ∀ m ∈ (s.disconnect c k).toClient k', m ∈ s.toClient k' :=
    fun k' m hm => (mem_of_mem_emptied hm).2
  have hanswer : ∀ k' vector changes, (s.disconnect c k).Answer k' vector changes →
      s.Answer k' vector changes := fun k' vector changes hA => hA.imp_left (hsub k' _)
  -- a connection that is still live is not the one that was given up
  have hlive : ∀ {c' k' p'}, (s.disconnect c k).Live c' k' p' →
      c' ≠ c ∧ k' ≠ k ∧ s.Live c' k' p' := by
    rintro c' k' p' ⟨hsock, hsession, hopen⟩
    rw [disconnect_clients] at hsock
    have hc : c' ≠ c := by
      rintro rfl
      simp at hsock
    rw [Function.update_of_ne hc] at hsock
    refine ⟨hc, ?_, hsock, hsession, hopen⟩
    rintro rfl
    obtain ⟨p'', hp''⟩ := hw.socket c k' hsocket
    cases hp''.symm.trans hsession
    exact hc rfl
  have hsynced : ∀ {c'}, c' ≠ c → ((s.disconnect c k).clients c').synced = true →
      (s.clients c').synced = true := by
    intro c' hc hsyn
    rwa [disconnect_clients, Function.update_of_ne hc] at hsyn
  have hcoming : ∀ k' p' changes, k' ≠ k → s.Coming k' p' changes →
      (s.disconnect c k).Coming k' p' changes :=
    fun k' p' changes hne hP => hP.imp_left fun hm => mem_update_of_ne hne hm
  refine ⟨fun k' c' p' hk' changes hout => ?_, fun k' c' p' hk' vector hvec => ?_,
    fun k' c' p' hk' vector changes hA => ?_,
    fun changes hrel => h.relayed changes (hrel.imp_left fun ⟨k', hm⟩ => ⟨k', hsub k' _ hm⟩),
    fun c' k' p' hl hsyn => ?_, fun c' k' p' hl hsyn => ?_, fun c' k' p' hl vector changes hA => ?_⟩
  · rw [hdoc]
    exact h.outgoing k' c' p' hk' changes hout
  · rw [hdoc]
    exact h.vectors k' c' p' hk' vector hvec
  · rw [hdoc]
    exact h.answers k' c' p' hk' vector changes (hanswer k' vector changes hA)
  · obtain ⟨hc, hne, hold⟩ := hlive hl
    rw [hdoc]
    exact h.above c' k' p' hold (hsynced hc hsyn)
  · obtain ⟨hc, hne, hold⟩ := hlive hl
    rw [hdoc]
    exact ahead_mono (fun changes => hcoming k' p' changes hne)
      (h.below c' k' p' hold (hsynced hc hsyn))
  · obtain ⟨hc, hne, hold⟩ := hlive hl
    rw [hdoc]
    exact ahead_mono (fun changes => hcoming k' p' changes hne)
      (h.expected c' k' p' hold vector changes (hanswer k' vector changes hA))

/-- A message of the topic goes when every member that counts on it has been sent it. -/
lemma Carried.erasePubsub [DecidableEq κ] (h : s.Carried y content) {p : κ}
    {author : ConnectionId} {changes : Changes}
    (hm : ∀ c k, s.Live c k p →
      ((s.clients c).synced = true ∨ ∃ vector answer, s.Answer k vector answer) →
      ¬(s.proxies p).Holds s.docId author → .broadcastChanges s.docId changes ∈ s.toClient k) :
    ({ s with
      pubsub := Function.update s.pubsub p
        ((s.pubsub p).erase (.changes author s.docId changes)) } : Network ι κ Doc).Carried
      y content := by
  have hcoming : ∀ c k p', s.Live c k p' →
      ((s.clients c).synced = true ∨ ∃ vector answer, s.Answer k vector answer) →
      ∀ changes', s.Coming k p' changes' →
        ({ s with
          pubsub := Function.update s.pubsub p
            ((s.pubsub p).erase (.changes author s.docId changes)) } : Network ι κ Doc).Coming
              k p' changes' := by
    rintro c k p' hlive hcount changes' (hm' | ⟨author', hm', hnot⟩)
    · exact .inl hm'
    · by_cases he : p' = p
      · subst he
        by_cases hsame : ChangesPubsubMessage.changes author' s.docId changes' =
            .changes author s.docId changes
        · cases hsame
          exact .inl (hm c k hlive hcount hnot)
        · refine .inr ⟨author', ?_, hnot⟩
          change _ ∈ Function.update s.pubsub p' _ p'
          rw [Function.update_self]
          exact (List.mem_erase_of_ne hsame).mpr hm'
      · exact .inr ⟨author', mem_update_of_ne he hm', hnot⟩
  refine { h with
    relayed := fun changes' hrel => h.relayed changes'
      (hrel.imp_right fun ⟨p', author', hm'⟩ => ⟨p', author', mem_pubsub_of_erase hm'⟩)
    above := fun c k p' hl => h.above c k p' (hl.congr rfl)
    below := fun c k p' hl hsyn => ?_
    expected := fun c k p' hl vector answer hA => ?_ }
  · have hold : s.Live c k p' := hl.congr rfl
    exact ahead_mono (hcoming c k p' hold (.inl hsyn)) (h.below c k p' hold hsyn)
  · have hold : s.Live c k p' := hl.congr rfl
    exact ahead_mono (hcoming c k p' hold (.inr ⟨vector, answer, hA⟩))
      (h.expected c k p' hold vector answer hA)

/-- Replies that are no answers come, and replies go. -/
lemma Carried.of_replies (h : s.Carried y content) {actor : DocHandler Doc}
    (serving : Option (ConnectionId × ActorCall))
    {replies : List (ConnectionId × ActorCall × ActorReply)} (hdoc : actor.ydoc = s.actor.ydoc)
    (hreplies : ∀ k call reply, (k, call, reply) ∈ replies → (k, call, reply) ∈ s.replies ∨
      ∀ vector changes, reply ≠ .syncStart vector changes) :
    ({ s with actor := actor, serving := serving, replies := replies } : Network ι κ Doc).Carried
      y content := by
  have hanswer : ∀ k vector changes,
      ({ s with actor := actor, serving := serving, replies := replies } : Network ι κ Doc).Answer
        k vector changes → s.Answer k vector changes := by
    rintro k vector changes (hm | ⟨call, reply, hm, hgateway⟩)
    · exact .inl hm
    · rcases hreplies k call reply hm with hold | hnot
      · exact .inr ⟨call, reply, hold, hgateway⟩
      · exact absurd (gatewayReply_eq hgateway) (hnot vector changes)
  refine ⟨h.outgoing, h.vectors, fun k c p hk vector changes hA => ?_, fun changes hrel => ?_,
    fun c k p hl hsyn => ?_, fun c k p hl hsyn => ?_, fun c k p hl vector changes hA => ?_⟩
  · change ∃ D ≤ actor.ydoc, _
    rw [hdoc]
    exact h.answers k c p hk vector changes (hanswer k vector changes hA)
  · change _ ∈ ahead y content actor.ydoc _
    rw [hdoc]
    exact h.relayed changes hrel
  · change _ ∈ ahead y content actor.ydoc _
    rw [hdoc]
    exact h.above c k p (hl.congr rfl) hsyn
  · change actor.ydoc ∈ _
    rw [hdoc]
    exact h.below c k p (hl.congr rfl) hsyn
  · change actor.ydoc ∈ _
    rw [hdoc]
    exact h.expected c k p (hl.congr rfl) vector changes
      (hanswer k vector changes hA)

/-- The actor takes in an update that every client who counts on it has coming. -/
lemma Carried.takeIn (h : s.Carried y content) {k : ConnectionId} {call : ActorCall}
    {changes : Changes} (hcall : call.changes = some changes) {actor : DocHandler Doc}
    (hdoc : actor.ydoc = s.actor.ydoc ⊔ y.value content changes)
    (hsynced : ∀ c k' p, s.Live c k' p → (s.clients c).synced = true →
      y.value content changes ∈ ahead y content (s.doc c) (s.Coming k' p))
    (hanswered : ∀ c k' p, s.Live c k' p → ∀ vector answer, s.Answer k' vector answer →
      y.value content changes ∈
        ahead y content (s.doc c ⊔ y.value content answer) (s.Coming k' p)) :
    ({ s with calls := s.calls.erase (k, call), actor := actor } : Network ι κ Doc).Carried
      y content := by
  have hsub : ∀ e ∈ s.calls.erase (k, call), e ∈ s.calls := fun e he => List.mem_of_mem_erase he
  have hactor : s.actor.ydoc ≤ actor.ydoc := hdoc ▸ le_sup_left
  -- what was on its way to the actor is there or still on its way
  have hcalled : ∀ P : Changes → Prop, ∀ changes', s.Called changes' →
      y.value content changes' ∈ ahead y content actor.ydoc fun changes'' =>
        ({ s with calls := s.calls.erase (k, call), actor := actor } : Network ι κ Doc).Called
          changes'' ∨ P changes'' := by
    rintro P changes' ⟨k', call', hm, hchanges⟩
    by_cases he : (k', call') = (k, call)
    · cases he
      cases hcall.symm.trans hchanges
      exact ahead_of_le (hdoc ▸ le_sup_right) base_mem_ahead
    · exact value_mem_ahead (.inl ⟨k', call', (List.mem_erase_of_ne he).mpr hm, hchanges⟩)
  refine ⟨fun k' c p hk' changes' hout => h.outgoing k' c p hk' changes'
      (hout.imp_right fun ⟨call', hm, hchanges⟩ => ⟨call', hsub _ hm, hchanges⟩),
    fun k' c p hk' vector hvec => h.vectors k' c p hk' vector (hvec.imp_right (hsub _)),
    fun k' c p hk' vector answer hA => ?_, fun changes' hrel => ?_,
    fun c k' p hl hsyn => ?_, fun c k' p hl hsyn => ?_, fun c k' p hl vector answer hA => ?_⟩
  · obtain ⟨D, hD, hvector, hdelta⟩ := h.answers k' c p hk' vector answer hA
    exact ⟨D, hD.trans hactor, hvector, hdelta⟩
  · refine ahead_trans (ahead_of_le hactor base_mem_ahead) (fun changes'' hP => ?_)
      (h.relayed changes' hrel)
    exact ahead_mono (fun _ hor => hor.resolve_right id) (hcalled (fun _ => False) changes'' hP)
  · refine ahead_trans (ahead_of_le hactor base_mem_ahead) (fun changes'' hP => ?_)
      (h.above c k' p (hl.congr rfl) hsyn)
    rcases hP with hP | hP
    · exact hcalled (s.Sending k') changes'' hP
    · exact value_mem_ahead (.inr hP)
  · change actor.ydoc ∈ _
    rw [hdoc]
    have hold : s.Live c k' p := hl.congr rfl
    exact sup_mem_reach (h.below c k' p hold hsyn) (hsynced c k' p hold hsyn)
  · change actor.ydoc ∈ _
    rw [hdoc]
    have hold : s.Live c k' p := hl.congr rfl
    exact sup_mem_reach (h.expected c k' p hold vector answer hA)
      (hanswered c k' p hold vector answer hA)

/-- The actor answers a vector with what its owner lacks. -/
lemma Carried.answer (hy : y.Joins content) (hw : s.Wired) (h : s.Carried y content)
    {k : ConnectionId} {vector : StateVector} (hcall : (k, .syncStart vector) ∈ s.calls) :
    ({ s with
      calls := s.calls.erase (k, .syncStart vector)
      replies := s.replies ++ [(k, .syncStart vector, s.actor.syncStart y vector)] } :
        Network ι κ Doc).Carried y content := by
  have hused := hw.used fun hsilent => hsilent.calls _ hcall
  obtain ⟨⟨c, p⟩, hk⟩ := Option.ne_none_iff_exists'.mp hused
  obtain ⟨E, hE, hvector⟩ := h.vectors k c p hk vector (.inr hcall)
  obtain ⟨changes, hreply, hdelta⟩ := s.actor.syncStart_spec hy hvector
  have hsub : ∀ e ∈ s.calls.erase (k, .syncStart vector), e ∈ s.calls :=
    fun e he => List.mem_of_mem_erase he
  have hcalled : ∀ changes', s.Called changes' → ({ s with
      calls := s.calls.erase (k, .syncStart vector)
      replies := s.replies ++ [(k, .syncStart vector, s.actor.syncStart y vector)] } :
        Network ι κ Doc).Called changes' := by
    rintro changes' ⟨k', call', hm, hchanges⟩
    have hne : (k', call') ≠ (k, .syncStart vector) := by
      rintro he
      cases he
      cases hchanges
    exact ⟨k', call', (List.mem_erase_of_ne hne).mpr hm, hchanges⟩
  have hanswer : ∀ k' vector' changes', ({ s with
      calls := s.calls.erase (k, .syncStart vector)
      replies := s.replies ++ [(k, .syncStart vector, s.actor.syncStart y vector)] } :
        Network ι κ Doc).Answer k' vector' changes' → s.Answer k' vector' changes' ∨
      k' = k ∧ vector' = y.fromUint8Array (y.encodeStateVector s.actor.ydoc) ∧
        changes' = changes := by
    rintro k' vector' changes' (hm | ⟨call', reply', hm, hgateway⟩)
    · exact .inl (.inl hm)
    · rcases List.mem_append.mp hm with hm | hm
      · exact .inl (.inr ⟨call', reply', hm, hgateway⟩)
      · cases List.mem_singleton.mp hm
        have hsame := gatewayReply_eq hgateway
        rw [hreply] at hsame
        cases hsame
        exact .inr ⟨rfl, rfl, rfl⟩
  refine ⟨fun k' c' p' hk' changes' hout => h.outgoing k' c' p' hk' changes'
      (hout.imp_right fun ⟨call', hm, hchanges⟩ => ⟨call', hsub _ hm, hchanges⟩),
    fun k' c' p' hk' vector' hvec => h.vectors k' c' p' hk' vector' (hvec.imp_right (hsub _)),
    fun k' c' p' hk' vector' changes' hA => ?_,
    fun changes' hrel => ahead_mono hcalled (h.relayed changes' hrel),
    fun c' k' p' hl hsyn => ahead_mono (fun changes' => Or.imp_left (hcalled changes'))
      (h.above c' k' p' (hl.congr rfl) hsyn),
    fun c' k' p' hl hsyn => h.below c' k' p' (hl.congr rfl) hsyn,
    fun c' k' p' hl vector' changes' hA => ?_⟩
  · rcases hanswer k' vector' changes' hA with hold | ⟨rfl, rfl, rfl⟩
    · exact h.answers k' c' p' hk' vector' changes' hold
    · cases hk.symm.trans hk'
      exact ⟨s.actor.ydoc, le_rfl, hy.base64 _, hdelta.mono hE⟩
  · rcases hanswer k' vector' changes' hA with hold | ⟨rfl, rfl, rfl⟩
    · exact h.expected c' k' p' (hl.congr rfl) vector' changes' hold
    · cases hk.symm.trans hl.session
      exact ahead_of_le (hdelta.le_sup hE) base_mem_ahead

end Network

end AlaFois
