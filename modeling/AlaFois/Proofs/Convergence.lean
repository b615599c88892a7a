import AlaFois.Lib.Stepper
import AlaFois.Proofs.NetworkDocuments

/-!
# Convergence at quiescence

An update that the actor takes in reaches the clients that hold an answer from before by a
broadcast or not at all. `syncComplete` broadcasts nothing, and the broadcast of a change goes
out before the actor has it, so a client that joins and syncs in between misses it. When neither
happens, the documents are equal as soon as nothing is on its way.
-/

namespace AlaFois

open DeltaSync Stepper

/-- The update that a client of the document applies at once. -/
def ServerMessage.broadcast (docId : DocKey) : ServerMessage → Option Changes
  | .broadcastChanges d changes => if d = docId then some changes else none
  | _ => none

/-- The update that a client of the document applies if it waits for an answer. -/
def ServerMessage.answer (docId : DocKey) : ServerMessage → Option Changes
  | .syncResponse d _ changes => if d = docId then some changes else none
  | _ => none

lemma broadcast_eq_some {docId : DocKey} {m : ServerMessage} {changes : Changes} :
    m.broadcast docId = some changes ↔ m = .broadcastChanges docId changes := by
  cases m <;> simp [ServerMessage.broadcast]

lemma answer_eq_some {docId : DocKey} {m : ServerMessage} {changes : Changes} :
    m.answer docId = some changes ↔ ∃ vector, m = .syncResponse docId vector changes := by
  cases m <;> simp [ServerMessage.answer]

namespace Network

variable {ι κ Doc : Type*}

/-- What the connection will be sent: its queue, what its instance will pass on from the topic,
and the replies of the actor. -/
def underway (s : Network ι κ Doc) (k : ConnectionId) (p : κ) : List ServerMessage :=
  s.toClient k ++
    ((((s.pubsub p).flatMap (s.proxies p).onChangesOrAwarenessMessage).filter (·.1 = k)).map
        (·.2) ++
      (s.replies.filter (·.1 = k)).filterMap fun e => gatewayReply s.docId e.2.1 e.2.2)

/-- The documents with which the client counts as synced: its own if it does already, and what
every answer that it will be sent makes of it. -/
def syncedDocs (y : Yjs Doc) (s : Network ι κ Doc) (c : ι) (k : ConnectionId) (p : κ) : List Doc :=
  (if (s.clients c).synced then [s.doc c] else []) ++
    ((s.underway k p).filterMap (ServerMessage.answer s.docId)).map fun changes =>
      (y.applyUpdate (s.doc c) (y.toUint8Array changes)).doc

/-- The document after every broadcast that the connection will be sent. -/
def caughtUp (y : Yjs Doc) (s : Network ι κ Doc) (k : ConnectionId) (p : κ) (doc : Doc) : Doc :=
  DocStore.replay y doc
    (((s.underway k p).filterMap (ServerMessage.broadcast s.docId)).map y.toUint8Array)

/-- An update that the actor takes in brings nothing to a client whose sync it has answered
before, once the broadcasts to the client have arrived. -/
def CallOk (y : Yjs Doc) (s : Network ι κ Doc) : NetworkAction ι κ → Prop
  | .invoke _ call => ∀ changes ∈ call.changes, ∀ c, ∀ k ∈ (s.clients c).socket,
      ∀ e ∈ s.sessions.get k, s.serverOpen k = true → ∀ doc ∈ s.syncedDocs y c k e.2,
        (y.applyUpdate (s.caughtUp y k e.2 doc) (y.toUint8Array changes)).doc =
          s.caughtUp y k e.2 doc
  | _ => True

instance decidableCallOk [Fintype ι] [DecidableEq Doc] (y : Yjs Doc) (s : Network ι κ Doc) :
    ∀ a, Decidable (s.CallOk y a)
  | .invoke _ call => inferInstanceAs (Decidable (∀ changes ∈ call.changes, ∀ c,
      ∀ k ∈ (s.clients c).socket, ∀ e ∈ s.sessions.get k, s.serverOpen k = true →
        ∀ doc ∈ s.syncedDocs y c k e.2,
          (y.applyUpdate (s.caughtUp y k e.2 doc) (y.toUint8Array changes)).doc =
            s.caughtUp y k e.2 doc))
  | .edit .. | .sync _ | .syncTimeout _ | .connect .. | .disconnect _ | .receive _ | .handle _
  | .handleDisconnect _ | .deliver .. | .resume | .reply .. | .syncAwaitExpired _ => isTrue trivial

variable {y : Yjs Doc} {content : Bytes → Doc} {s : Network ι κ Doc}

lemma mem_underway {k : ConnectionId} {p : κ} {m : ServerMessage} :
    m ∈ s.underway k p ↔ m ∈ s.toClient k ∨
      (∃ m' ∈ s.pubsub p, (k, m) ∈ (s.proxies p).onChangesOrAwarenessMessage m') ∨
      ∃ call reply, (k, call, reply) ∈ s.replies ∧ gatewayReply s.docId call reply = some m := by
  simp only [underway, List.mem_append, List.mem_map, List.mem_filter, List.mem_flatMap,
    List.mem_filterMap, decide_eq_true_eq, Prod.exists]
  constructor
  · rintro (hm | ⟨_, _, ⟨hm, rfl⟩, rfl⟩ | ⟨_, call, reply, ⟨hm, rfl⟩, hgateway⟩)
    · exact .inl hm
    · exact .inr (.inl hm)
    · exact .inr (.inr ⟨call, reply, hm, hgateway⟩)
  · rintro (hm | hm | ⟨call, reply, hm, hgateway⟩)
    · exact .inl hm
    · exact .inr (.inl ⟨k, m, ⟨hm, rfl⟩, rfl⟩)
    · exact .inr (.inr ⟨k, call, reply, ⟨hm, rfl⟩, hgateway⟩)

lemma coming_of_underway (hw : s.Wired) {k : ConnectionId} {p : κ} {changes : Changes}
    (hm : .broadcastChanges s.docId changes ∈ s.underway k p) : s.Coming k p changes := by
  rcases mem_underway.mp hm with hm | ⟨m', hm', hsent⟩ | ⟨call, reply, -, hgateway⟩
  · exact .inl hm
  · obtain ⟨author, changes', rfl⟩ := hw.topic p m' hm'
    obtain ⟨-, hauthor, hsame⟩ :=
      (DocService.mem_onChangesMessage (hw.plain p).wf _ _ _ _ _).mp hsent
    cases hsame
    exact .inr ⟨author, hm', hauthor⟩
  · unfold gatewayReply at hgateway
    split at hgateway
    · split at hgateway <;> cases hgateway
    · cases hgateway
    · cases hgateway
    · cases hgateway

lemma underway_of_answer {k : ConnectionId} {vector : StateVector} {changes : Changes}
    (h : s.Answer k vector changes) (p : κ) :
    .syncResponse s.docId vector changes ∈ s.underway k p := by
  rcases h with hm | hreply
  · exact mem_underway.mpr (.inl hm)
  · exact mem_underway.mpr (.inr (.inr hreply))

lemma mem_syncedDocs_of_synced {c : ι} (hsynced : (s.clients c).synced = true) (k : ConnectionId)
    (p : κ) : s.doc c ∈ s.syncedDocs y c k p := by
  simp [syncedDocs, hsynced]

variable [SemilatticeSup Doc]

lemma replay_eq_foldl (hy : y.Joins content) (doc : Doc) (updates : List Bytes) :
    DocStore.replay y doc updates = (updates.map content).foldl (· ⊔ ·) doc := by
  rw [DocStore.replay, List.foldl_map]
  congr
  funext doc update
  rw [hy.applyUpdate_eq]

/-- What a client will have caught up with is ahead of it. -/
lemma ahead_of_le_caughtUp (hy : y.Joins content) (hw : s.Wired) {k : ConnectionId} {p : κ}
    {doc x : Doc} (hle : x ≤ s.caughtUp y k p doc) : x ∈ ahead y content doc (s.Coming k p) := by
  rw [caughtUp, replay_eq_foldl hy] at hle
  refine reach_mono (fun z hz => ?_) (mem_reach_of_le_foldl hle)
  rcases hz with rfl | hz
  · exact Set.mem_insert _ _
  · simp only [List.map_map, List.mem_map, List.mem_filterMap, Set.mem_ofPred_eq] at hz
    obtain ⟨changes, ⟨m, hm, hbroadcast⟩, rfl⟩ := hz
    rw [broadcast_eq_some.mp hbroadcast] at hm
    exact Set.mem_insert_of_mem _ ⟨changes, coming_of_underway hw hm, rfl⟩

/-- The guard in terms of what is ahead of the clients. -/
lemma CallOk.mem_ahead (hy : y.Joins content) (hw : s.Wired) {k : ConnectionId} {call : ActorCall}
    {changes : Changes} (hok : s.CallOk y (.invoke k call)) (hcall : call.changes = some changes)
    {c : ι} {k' : ConnectionId} {p : κ} (hlive : s.Live c k' p) {doc : Doc}
    (hdoc : doc ∈ s.syncedDocs y c k' p) :
    y.value content changes ∈ ahead y content doc (s.Coming k' p) := by
  have heq := hok changes hcall c k' hlive.socket (c, p) hlive.session hlive.serverOpen doc hdoc
  rw [hy.applyUpdate_eq] at heq
  exact ahead_of_le_caughtUp hy hw (sup_eq_left.mp heq)

lemma mem_syncedDocs_of_answer (hy : y.Joins content) (c : ι) {k : ConnectionId}
    {vector : StateVector} {changes : Changes} (h : s.Answer k vector changes) (p : κ) :
    s.doc c ⊔ y.value content changes ∈ s.syncedDocs y c k p := by
  refine List.mem_append_right _ (List.mem_map.mpr ⟨changes, ?_, ?_⟩)
  · exact List.mem_filterMap.mpr ⟨_, underway_of_answer h p, answer_eq_some.mpr ⟨vector, rfl⟩⟩
  · rw [hy.applyUpdate_eq]
    rfl

/-- A synced client has all that the actor has when nothing comes, and only that when nothing
goes out. -/
lemma Carried.doc_eq (h : s.Carried y content) {c : ι} {k : ConnectionId} {p : κ}
    (hlive : s.Live c k p) (hsynced : (s.clients c).synced = true) (hcalls : s.calls = [])
    (hserver : s.toServer k = []) (hclient : s.toClient k = []) (hpubsub : s.pubsub p = []) :
    s.doc c = s.actor.ydoc := by
  apply le_antisymm
  · refine le_of_mem_ahead (fun changes => ?_) (h.above c k p hlive hsynced)
    rintro (⟨k', call, hm, -⟩ | ⟨m, hm, -⟩)
    · rw [hcalls] at hm
      cases hm
    · rw [hserver] at hm
      cases hm
  · refine le_of_mem_ahead (fun changes => ?_) (h.below c k p hlive hsynced)
    rintro (hm | ⟨author, hm, -⟩)
    · rw [hclient] at hm
      cases hm
    · rw [hpubsub] at hm
      cases hm

/-- A client takes in a broadcast, which the actor has or is still to have. -/
lemma Carried.receiveChanges [DecidableEq ι] (hy : y.Joins content) (hw : s.Wired)
    (h : s.Carried y content) {c : ι} {k : ConnectionId} {changes : Changes}
    (hmem : .broadcastChanges s.docId changes ∈ s.toClient k) :
    (s.advance c (Client.onMessage y (s.clients c) (.broadcastChanges s.docId changes)).1
      (Client.onMessage y (s.clients c) (.broadcastChanges s.docId changes)).2).Carried
        y content := by
  have hmessage : Client.onMessage y (s.clients c) (.broadcastChanges s.docId changes) =
      ({ s.clients c with
        container := ((s.clients c).container.handleReceiveChanges y changes).1 },
        ((s.clients c).container.handleReceiveChanges y changes).2) := by
    simp [Client.onMessage, DocContainer.onMessage, hw.ids c]
  obtain ⟨-, hdoc, hsends, -⟩ := (s.clients c).container.handleReceiveChanges_spec hy changes
  rw [hmessage]
  refine h.advance hw c rfl (hdoc ▸ le_sup_left) (hdoc ▸ hsends) fun hsynced k' p hl => ?_
  change ((s.clients c).container.handleReceiveChanges y changes).1.doc ∈ _ ∧
    _ ∈ ahead y content ((s.clients c).container.handleReceiveChanges y changes).1.doc _
  rw [hdoc]
  constructor
  · refine sup_mem_reach (ahead_mono (fun changes' hP => hP.imp_right .inl)
      (h.above c k' p hl hsynced)) ?_
    exact ahead_mono (fun changes' hP => .inl hP) (h.relayed changes (.inl ⟨k, hmem⟩))
  · exact ahead_mono_base le_sup_left (h.below c k' p hl hsynced)

/-- A client that waits for it takes in the answer of the actor, and sends back what it had more. -/
lemma Carried.receiveAnswer [DecidableEq ι] (hy : y.Joins content) (hw : s.Wired)
    (h : s.Carried y content) {c : ι} {k : ConnectionId} {vector : StateVector} {changes : Changes}
    (hsocket : (s.clients c).socket = some k)
    (hmem : .syncResponse s.docId vector changes ∈ s.toClient k)
    (hsyncing : (s.clients c).container.syncing = true) :
    (s.advance c (Client.onMessage y (s.clients c) (.syncResponse s.docId vector changes)).1
      (Client.onMessage y (s.clients c) (.syncResponse s.docId vector changes)).2).Carried
        y content := by
  have hanswer : s.Answer k vector changes := .inl hmem
  obtain ⟨p₀, hsession⟩ := hw.socket c k hsocket
  obtain ⟨D, hD, hvector, hdelta⟩ := h.answers k c p₀ hsession vector changes hanswer
  obtain ⟨returnChanges, hresponse, hle, hreturn⟩ :=
    (s.clients c).container.syncResponse_spec hy hvector hdelta hsyncing
  have hmessage : Client.onMessage y (s.clients c) (.syncResponse s.docId vector changes) =
      ({ s.clients c with
        container := ⟨(s.clients c).container.id, s.doc c ⊔ y.value content changes, false⟩
        synced := true }, [.syncComplete returnChanges]) := by
    simp [Client.onMessage, DocContainer.onMessage, hw.ids c, hresponse, doc]
  rw [hmessage]
  refine h.advance hw c rfl le_sup_left ⟨by simp, fun m hm changes' hupdate => ?_, by simp⟩
    fun _ k' p hl => ?_
  · cases List.mem_singleton.mp hm
    cases hupdate
    exact hreturn.le hle
  · obtain rfl : k' = k := Option.some.inj (hl.socket.symm.trans hsocket)
    constructor
    · exact hreturn.mem_reach (ahead_of_le hD base_mem_ahead)
        (value_mem_ahead (.inr (.inr ⟨_, List.mem_singleton.mpr rfl, rfl⟩)))
    · exact h.expected c k' p hl vector changes hanswer

/-- A client takes in a message of its queue. -/
lemma Carried.onMessage [DecidableEq ι] (hy : y.Joins content) (hw : s.Wired)
    (h : s.Carried y content) {c : ι} {k : ConnectionId} {m : ServerMessage}
    (hsocket : (s.clients c).socket = some k) (hmem : m ∈ s.toClient k) :
    (s.advance c (Client.onMessage y (s.clients c) m).1
      (Client.onMessage y (s.clients c) m).2).Carried y content := by
  have hid := hw.ids c
  -- a message that concerns another part of the client
  have hsame : (s.advance c { s.clients c with container := (s.clients c).container } []).Carried
      y content := h.advance_same hw c rfl (DocContainer.sends_nil _)
  have hsync : (s.advance c { s.clients c with container := ((s.clients c).container.sync y).1 }
      ((s.clients c).container.sync y).2).Carried y content :=
    h.advance_same hw c (DocContainer.sync_doc _)
      (by rw [DocContainer.sync_doc]; exact DocContainer.sync_sends hy _)
  cases m with
  | joinResponse docId status =>
    cases status with
    | ok =>
      refine h.advance hw c rfl (DocContainer.sync_doc _).ge ?_ fun hsynced => by cases hsynced
      change Sends y content ((s.clients c).container.sync y).1.doc _
      rw [DocContainer.sync_doc]
      exact DocContainer.sync_sends hy _
    | err message => exact hsame
  | requestSync syncNeeded => exact hsync
  | broadcastChanges d changes =>
    by_cases hd : d = s.docId
    · subst hd
      exact h.receiveChanges hy hw hmem
    · have hmessage : Client.onMessage y (s.clients c) (.broadcastChanges d changes) =
          (s.clients c, []) := by
        simp [Client.onMessage, DocContainer.onMessage, hid, hd]
      rw [hmessage]
      exact hsame
  | syncResponse d vector changes =>
    by_cases hd : d = s.docId ∧ (s.clients c).container.syncing = true
    · obtain ⟨rfl, hsyncing⟩ := hd
      exact h.receiveAnswer hy hw hsocket hmem hsyncing
    · have hmessage : Client.onMessage y (s.clients c) (.syncResponse d vector changes) =
          (s.clients c, []) := by
        by_cases hdoc : d = s.docId
        · have hidle : (s.clients c).container.syncing = false := by simpa [hdoc] using hd
          simp [Client.onMessage, DocContainer.onMessage, hid, hdoc,
            DocContainer.syncResponse_idle _ _ _ hidle]
        · simp [Client.onMessage, DocContainer.onMessage, hid, hdoc]
      rw [hmessage]
      exact hsame
  | connectResponse status => exact hsame
  | setTokenResponse status => exact hsame
  | broadcastAwareness docId awareness => exact hsame
  | updateToken token docs => exact hsame
  | expiredToken tokenId expiredAt => exact hsame
  | error docId message => exact hsame

lemma Carried.receive [DecidableEq ι] (hy : y.Joins content) (hw : s.Wired)
    (h : s.Carried y content) {c : ι} {k : ConnectionId} {m : ServerMessage}
    {rest : List ServerMessage} (hsocket : (s.clients c).socket = some k) (hm : s.toClient k = m :: rest) :
    ((s.advance c (Client.onMessage y (s.clients c) m).1
      (Client.onMessage y (s.clients c) m).2).popClient k rest).Carried y content := by
  refine (h.onMessage hy hw hsocket (by simp [hm])).popClient (by rw [advance_eq]; exact hm) ?_
  intro c' p changes hl hbroadcast
  rw [advance_eq] at hbroadcast
  change m = .broadcastChanges s.docId changes at hbroadcast
  subst hbroadcast
  rw [live_advance (onMessage_socket _ _)] at hl
  obtain ⟨p', hp'⟩ := hw.socket c k hsocket
  obtain ⟨rfl, -⟩ := hl.unique hp'
  -- what was received is held
  have hdoc := ((s.clients c).container.handleReceiveChanges_spec hy changes).2.1
  rw [doc_advance, if_pos rfl, onMessage_container]
  simp only [DocContainer.onMessage, hw.ids c, ↓reduceIte, hdoc]
  exact le_sup_right

lemma gatewayReply_ne_broadcast {docId d : DocKey} {call : ActorCall} {reply : ActorReply}
    {changes : Changes} : gatewayReply docId call reply ≠ some (.broadcastChanges d changes) := by
  unfold gatewayReply
  split
  · split <;> simp
  · simp
  · simp
  · simp

/-- The actor serves a call that meets the guard. -/
lemma Carried.invoke (hy : y.Joins content) (hw : s.Wired) (h : s.Carried y content)
    {k : ConnectionId} {call : ActorCall} (hmem : (k, call) ∈ s.calls)
    (hok : s.CallOk y (.invoke k call)) :
    ({ s with calls := s.calls.erase (k, call) }.actorCalled k call (s.actor.invoke y call).1
      (s.actor.invoke y call).2).Carried y content := by
  cases hcall : call.changes with
  | none =>
    cases call with
    | applyDiff changes userId => cases hcall
    | syncStart vector => exact h.answer hy hw hmem
    | syncComplete changes userId => cases hcall
  | some changes =>
    have htaken : ({ s with
        calls := s.calls.erase (k, call)
        actor := (s.actor.invoke y call).1 } : Network ι κ Doc).Carried y content :=
      h.takeIn hcall (s.actor.invoke_update hy hcall)
        (fun c k' p hl hsynced =>
          hok.mem_ahead hy hw hcall hl (mem_syncedDocs_of_synced hsynced k' p))
        fun c k' p hl vector answer hA =>
          hok.mem_ahead hy hw hcall hl (mem_syncedDocs_of_answer hy c hA p)
    cases hreply : (s.actor.invoke y call).2 with
    | none => exact htaken.of_replies (some (k, call)) rfl fun k' call' reply' hm => .inl hm
    | some reply =>
      refine htaken.of_replies s.serving rfl fun k' call' reply' hm => ?_
      rcases List.mem_append.mp hm with hm | hm
      · exact .inl hm
      · cases List.mem_singleton.mp hm
        refine .inr fun vector answer hsame => s.actor.invoke_reply (y := y) hcall vector answer ?_
        rw [hreply, hsame]

/-- A local edit goes out to the proxy, if it goes anywhere. -/
lemma Carried.edit [DecidableEq ι] (hy : y.Joins content) (hw : s.Wired)
    (h : s.Carried y content) (c : ι) (update : Bytes) :
    (s.advance c { s.clients c with container := ((s.clients c).container.edit y update).1 }
      ((s.clients c).container.edit y update).2).Carried y content := by
  obtain ⟨-, hdoc, hsends⟩ := (s.clients c).container.edit_spec hy update
  refine h.advance hw c rfl (hdoc ▸ le_sup_left) (hdoc ▸ hsends) fun hsynced k p hl => ?_
  change ((s.clients c).container.edit y update).1.doc ∈ _ ∧
    _ ∈ ahead y content ((s.clients c).container.edit y update).1.doc _
  rw [hdoc]
  constructor
  · refine sup_mem_reach (ahead_mono (fun changes hP => hP.imp_right .inl)
      (h.above c k p hl hsynced)) ?_
    rw [← hy.value_fromUint8Array]
    exact value_mem_ahead (.inr (.inr ⟨_, List.mem_singleton.mpr rfl, rfl⟩))
  · exact ahead_mono_base le_sup_left (h.below c k p hl hsynced)

/-- Changes go to the actor, to the other instances and to the other members here. -/
lemma Carried.applyChanges (h : s.Carried y content) {k : ConnectionId} {c : ι} {p : κ}
    {changes : Changes} {rest : List ClientMessage} {sent : List Sent}
    (hk : s.sessions.get k = some (c, p)) (hm : s.toServer k = .changes changes :: rest)
    (hsent : ∀ k' m, (k', m) ∈ sent → m = .broadcastChanges s.docId changes) :
    ((((s.addCall k (.applyDiff changes k)).publish (.changes k s.docId changes)).post
      sent).popServer k rest).Carried y content := by
  have hupdate : y.value content changes ≤ s.doc c :=
    h.outgoing k c p hk changes (.inl ⟨.changes changes, by simp [hm], rfl⟩)
  have hcalled : (s.addCall k (.applyDiff changes k)).Called changes :=
    ⟨k, _, List.mem_append_right _ (List.mem_singleton.mpr rfl), rfl⟩
  have hadded : (s.addCall k (.applyDiff changes k)).Carried y content := by
    refine h.addCall hk (fun changes' hchanges => ?_) fun vector hvector => by cases hvector
    cases hchanges
    exact hupdate
  refine ((hadded.publish k hcalled).post ?_ ?_).popServer hm ?_
  · intro k' changes' hm'
    cases hsent k' _ hm'
    exact value_mem_ahead hcalled
  · intro k' vector changes' hm'
    cases hsent k' _ hm'
  · intro changes' hchanges
    cases hchanges
    exact hcalled

lemma Carried.syncStart (h : s.Carried y content) {k : ConnectionId} {c : ι} {p : κ}
    {vector : StateVector} {rest : List ClientMessage} (hk : s.sessions.get k = some (c, p))
    (hm : s.toServer k = .syncStart vector :: rest) :
    ((s.addCall k (.syncStart vector)).popServer k rest).Carried y content := by
  have hadded : (s.addCall k (.syncStart vector)).Carried y content := by
    refine h.addCall hk (fun changes hchanges => by cases hchanges) fun vector' hvector => ?_
    cases hvector
    exact h.vectors k c p hk vector (.inl (by simp [hm]))
  exact hadded.popServer hm fun changes hchanges => by cases hchanges

lemma Carried.syncComplete (h : s.Carried y content) {k : ConnectionId} {c : ι} {p : κ}
    {changes : Changes} {rest : List ClientMessage} (hk : s.sessions.get k = some (c, p))
    (hm : s.toServer k = .syncComplete changes :: rest) :
    ((s.addCall k (.syncComplete changes k)).popServer k rest).Carried y content := by
  have hadded : (s.addCall k (.syncComplete changes k)).Carried y content := by
    refine h.addCall hk (fun changes' hchanges => ?_) fun vector hvector => by cases hvector
    cases hchanges
    exact h.outgoing k c p hk changes (.inl ⟨.syncComplete changes, by simp [hm], rfl⟩)
  refine hadded.popServer hm fun changes' hchanges => ?_
  cases hchanges
  exact ⟨k, _, List.mem_append_right _ (List.mem_singleton.mpr rfl), rfl⟩

/-- A client that counts on the actor's document is a member, and so gets what is delivered. -/
lemma Carried.deliver [DecidableEq κ] (hw : s.Wired) (h : s.Carried y content) {p : κ}
    {author : ConnectionId} {changes : Changes} (hm : .changes author s.docId changes ∈ s.pubsub p) :
    ({ s.post ((s.proxies p).onChangesOrAwarenessMessage (.changes author s.docId changes)) with
      pubsub := Function.update s.pubsub p
        ((s.pubsub p).erase (.changes author s.docId changes)) } : Network ι κ Doc).Carried
      y content := by
  have hsent := fun k m =>
    DocService.mem_onChangesMessage (hw.plain p).wf author k s.docId changes m
  have hposted : (s.post ((s.proxies p).onChangesOrAwarenessMessage
      (.changes author s.docId changes))).Carried y content := by
    refine h.post (fun k changes' hm' => ?_) fun k vector changes' hm' => ?_
    · cases ((hsent k _).mp hm').2.2
      exact h.relayed changes (.inr ⟨p, author, hm⟩)
    · cases ((hsent k _).mp hm').2.2
  refine hposted.erasePubsub fun c k hl hcounts hauthor => ?_
  have hholds := (hw.passOn p author changes).holds hl.session hl.serverOpen fun hsilent => ?_
  · exact (mem_post _ k _).mpr (.inr ⟨⟨c, p, hl.congr rfl⟩, (hsent k _).mpr ⟨hholds, hauthor, rfl⟩⟩)
  · rcases hcounts with hsynced | ⟨vector, answer, hm' | ⟨call, reply, hm', -⟩⟩
    · rw [hsilent.unsynced c hl.socket] at hsynced
      cases hsynced
    · rw [hsilent.client] at hm'
      cases hm'
    · exact hsilent.replies call reply hm'

/-- What the actor answers goes to the connection that asked. -/
lemma Carried.reply (h : s.Carried y content) {k : ConnectionId} {call : ActorCall}
    {reply : ActorReply} (hreply : (k, call, reply) ∈ s.replies) :
    ({ s with replies := s.replies.erase (k, call, reply) }.post
      ((gatewayReply s.docId call reply).toList.map (k, ·))).Carried y content := by
  have hposted : (s.post ((gatewayReply s.docId call reply).toList.map (k, ·))).Carried
      y content := by
    refine h.post (fun k' changes hm => ?_) fun k' vector changes hm => ?_
    · obtain ⟨m, hm, he⟩ := List.mem_map.mp hm
      cases he
      exact absurd (Option.mem_toList.mp hm) gatewayReply_ne_broadcast
    · obtain ⟨m, hm, he⟩ := List.mem_map.mp hm
      cases he
      exact .inr ⟨call, reply, hreply, Option.mem_toList.mp hm⟩
  exact hposted.of_replies s.serving rfl fun k' call' reply' hm => .inl (List.mem_of_mem_erase hm)

variable [DecidableEq ι] [DecidableEq κ]

theorem carried_step (hy : y.Joins content) (hw : s.Wired) (h : s.Carried y content)
    {s' : Network ι κ Doc} {a : NetworkAction ι κ} (hok : s.CallOk y a)
    (hs : s.step y a = some s') : s'.Carried y content := by
  cases step_cases hw hs with
  | edited c update => exact h.edit hy hw c update
  | synced c =>
    refine h.advance_same hw c (DocContainer.sync_doc _) ?_
    rw [DocContainer.sync_doc]
    exact DocContainer.sync_sends hy _
  | timedOut c => exact h.advance_same hw c rfl (DocContainer.sends_nil _)
  | connected c k p hsocket hk => exact h.connect hw c p hk
  | disconnected c k hsocket => exact h.disconnect hw hsocket
  | received c k m rest hsocket hm => exact h.receive hy hw hsocket hm
  | joined c k p rest hk hopen hm =>
    refine ((h.join hw hk hopen).post ?_ ?_).popServer hm ?_
    · intro k' changes hm'
      cases List.mem_singleton.mp hm'
    · intro k' vector changes hm'
      cases List.mem_singleton.mp hm'
    · intro changes hupdate
      cases hupdate
  | changed c k p changes rest sent hk hopen hm hh hsent =>
    exact h.applyChanges hk hm fun k' m hm' => ((hsent k' m).mp hm').2.2
  | called c k p m call rest hk hopen hm hh hcall =>
    rcases hcall with ⟨vector, rfl, rfl⟩ | ⟨changes, rfl, rfl⟩
    · exact h.syncStart hk hm
    · exact h.syncComplete hk hm
  | left c k p hk hopen => exact h.handleDisconnect hw k p
  | delivered p author changes hm => exact h.deliver hw hm
  | invoked k call hcall => exact h.invoke hy hw hcall hok
  | resumed k call actor reply hserving hdoc hreply =>
    refine h.of_replies none hdoc fun k' call' reply' hm => ?_
    rcases List.mem_append.mp hm with hm | hm
    · exact .inl hm
    · cases List.mem_singleton.mp hm
      exact .inr hreply
  | replied k call reply hreply => exact h.reply hreply
  | expired userId actor hdoc => exact h.of_replies s.serving hdoc fun k call reply hm => .inl hm

/-- Whatever the clients, the proxies and the actor do in any order, every document is that of
the actor at quiescence, if the actor takes in no update that passes a synced client by. -/
theorem documents_converge (hy : y.Joins content) {docId : DocKey} {actor : DocHandler Doc}
    {as : List (NetworkAction ι κ)} (hrun : run (step y) (init y docId actor) as = some s)
    (hok : Guarded (step y) (CallOk y) (init y docId actor) as) (hquiet : s.Quiescent) (c : ι) :
    (s.clients c).container.doc = s.actor.ydoc := by
  have hinv : s.Wired ∧ s.Carried y content :=
    run_invariant (fun s : Network ι κ Doc => s.Wired ∧ s.Carried y content)
      (fun _ _ _ ⟨hw, h⟩ hok hs => ⟨wired_step hw hs, carried_step hy hw h hok hs⟩)
      hrun hok ⟨wired_init docId actor, carried_init docId actor⟩
  obtain ⟨-, k, hsocket, hopen⟩ := hquiet.joined c
  obtain ⟨p, hsession⟩ := hinv.1.socket c k hsocket
  have hqueues := hquiet.queues _ ((JsMap.mem_entries_iff _ _ _).mpr hsession)
  exact hinv.2.doc_eq ⟨hsocket, hsession, hopen⟩ (hquiet.synced c).1 hquiet.calls hqueues.1
    hqueues.2 (hquiet.pubsub p)

/-- A client connects, joins and syncs with an actor that holds nothing yet. -/
def joinRun (c : Bool) (k : ConnectionId) (p : Bool) (vector : StateVector)
    (returnChanges : Changes) : List (NetworkAction Bool Bool) :=
  [.connect c k p, .handle k, .receive c, .handle k, .invoke k (.syncStart vector),
    .reply k (.syncStart vector) (.syncStart "AA==" "AAA="), .receive c, .handle k,
    .invoke k (.syncComplete returnChanges k)]

/-- Both clients have joined, on different instances, when one of them makes its edit. -/
def onlineRun : List (NetworkAction Bool Bool) :=
  joinRun true "b" true "AA==" "AAA=" ++
    [.resume, .reply "b" (.syncComplete "AAA=" "b") .syncComplete] ++
    joinRun false "a" false "AA==" "AAA=" ++
    [.resume, .reply "a" (.syncComplete "AAA=" "a") .syncComplete, .edit false [1, 1],
      .handle "a", .deliver true (.changes "a" "doc" "AQE="), .receive true,
      .invoke "a" (.applyDiff "AQE=" "a"), .deliver false (.changes "a" "doc" "AQE="), .resume,
      .reply "a" (.applyDiff "AQE=" "a") (.applyDiff false)]

/-- One client has joined when the other, who has made its edit offline, does. -/
def offlineRun : List (NetworkAction Bool Bool) :=
  joinRun true "b" true "AA==" "AAA=" ++
    [.resume, .reply "b" (.syncComplete "AAA=" "b") .syncComplete, .edit false [1, 1]] ++
    joinRun false "a" false "AQEB" "AQE=" ++ [.reply "a" (.syncComplete "AQE=" "a") .syncComplete]

theorem documents_converge_online :
    ∃ s, run (step Yjs.oneEdit) (init Yjs.oneEdit "doc" ⟨"doc", false, .empty, [], none⟩)
        onlineRun = some s ∧ s.actor.ydoc = true ∧
      ∀ c, (s.clients c).container.doc = s.actor.ydoc := by
  obtain ⟨s, hrun⟩ : ∃ s, run (step Yjs.oneEdit)
      (init Yjs.oneEdit "doc" ⟨"doc", false, .empty, [], none⟩) onlineRun = some s := ⟨_, rfl⟩
  have hquiet : s.Quiescent := by
    cases hrun
    exact ⟨by decide, by decide, by decide, by decide, rfl, rfl, rfl⟩
  have hdoc : s.actor.ydoc = true := by
    cases hrun
    rfl
  exact ⟨s, hrun, hdoc, documents_converge joins_oneEdit hrun (by decide) hquiet⟩

/-- The edit that a client made offline reaches the actor in its sync and nobody else. -/
theorem synced_edit_not_broadcast :
    ¬∀ (y : Yjs Bool) (content : Bytes → Bool), y.Joins content → ∀ actor as,
      ∀ s : Network Bool Bool Bool, run (step y) (init y "doc" actor) as = some s →
        s.Quiescent → ∀ c, (s.clients c).container.doc = s.actor.ydoc := by
  intro h
  obtain ⟨s, hrun⟩ : ∃ s, run (step Yjs.oneEdit)
      (init Yjs.oneEdit "doc" ⟨"doc", false, .empty, [], none⟩) offlineRun = some s := ⟨_, rfl⟩
  have hquiet : s.Quiescent := by
    cases hrun
    exact ⟨by decide, by decide, by decide, by decide, rfl, rfl, rfl⟩
  have hdocs : (s.clients true).container.doc = false ∧ s.actor.ydoc = true := by
    cases hrun
    decide
  have hsame := h Yjs.oneEdit _ joins_oneEdit _ _ s hrun hquiet true
  rw [hdocs.1, hdocs.2] at hsame
  cases hsame

end Network

end AlaFois
