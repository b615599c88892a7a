import AlaFois.Lib.Stepper
import AlaFois.Model.Session
import AlaFois.Proofs.AccessControl
import AlaFois.Proofs.Attendance
import AlaFois.Proofs.GetDoc

/-!
# Client and server agree on membership

A container of the client is of use as long as the server has the connection in the manager of its
document. `Secure` is what the server owes for that before everything has arrived: a document that
the connection may read has it as a member, or a join that will make it one. The server keeps this
for all documents that the client has or is about to have, but for the steps that `StepOk` excludes.
-/

namespace AlaFois

open DocService Stepper

namespace Proxy

/-! ### What the client is told -/

/-- The messages sent since grant no join. -/
def Quiet (p q : Proxy) : Prop :=
  ∃ new, q.sent = p.sent ++ new ∧ ∀ c d, (c, .joinResponse d .ok) ∉ new

/-- The messages sent since grant the connection joins of documents that it is a member of. -/
def Tells (c : ConnectionId) (p q : Proxy) : Prop :=
  ∃ new, q.sent = p.sent ++ new ∧ ∀ d, (c, .joinResponse d .ok) ∈ new → q.docService.Holds d c

variable {p q : Proxy}

lemma quiet_of_sent (h : q.sent = p.sent) : p.Quiet q := ⟨[], by simp [h], by simp⟩

lemma Quiet.trans {r : Proxy} (hpq : p.Quiet q) (hqr : q.Quiet r) : p.Quiet r := by
  obtain ⟨new, hq, hnew⟩ := hpq
  obtain ⟨new', hr, hnew'⟩ := hqr
  refine ⟨new ++ new', by rw [hr, hq, List.append_assoc], fun c d hm => ?_⟩
  rcases List.mem_append.mp hm with hm | hm
  · exact hnew c d hm
  · exact hnew' c d hm

lemma Quiet.tells (h : p.Quiet q) (c : ConnectionId) : Tells c p q := by
  obtain ⟨new, hq, hnew⟩ := h
  exact ⟨new, hq, fun d hm => absurd hm (hnew c d)⟩

lemma quiet_send (p : Proxy) (c : ConnectionId) {m : ServerMessage}
    (hm : ∀ d, m ≠ .joinResponse d .ok) : p.Quiet (p.send c m) := by
  unfold send
  split
  · refine ⟨[(c, m)], rfl, fun c' d hnew => ?_⟩
    obtain ⟨-, he⟩ := Prod.mk.inj (List.mem_singleton.mp hnew)
    exact hm d he.symm
  · exact quiet_of_sent rfl

lemma quiet_sendAll (p : Proxy) {messages : List Sent}
    (h : ∀ message ∈ messages, ∀ d, message.2 ≠ .joinResponse d .ok) :
    p.Quiet (p.sendAll messages) := by
  induction messages generalizing p with
  | nil => exact quiet_of_sent rfl
  | cons message messages ih =>
    have hsend := quiet_send p message.1 (h message List.mem_cons_self)
    exact hsend.trans (ih _ fun m hm => h m (List.mem_cons_of_mem _ hm))

lemma holds_finishJoin (h : p.WF) (c c' : ConnectionId) (d d' : DocKey) (status : Status) :
    (p.finishJoin c d status).docService.Holds d' c' ↔
      p.docService.Holds d' c' ∨ (status = .ok ∧ d' = d ∧ c' = c) := by
  cases status with
  | ok => simp [finishJoin, holds_joinToDoc h.docService]
  | err message => simp [finishJoin]

lemma holds_joinAnswered (h : p.WF) (c c' : ConnectionId) (d d' : DocKey)
    (response : DocIsPublicResponse) : (p.joinAnswered c d response).docService.Holds d' c' ↔
      p.docService.Holds d' c' ∨ (response = .ok true ∧ d' = d ∧ c' = c) := by
  obtain ⟨h₁, h₂, h₃⟩ := docIsPublicAnswered_eq p d response
  unfold joinAnswered
  dsimp only
  rw [holds_finishJoin (h.congr h₁ h₂ h₃), h₂]
  have hstatus : (p.docIsPublicAnswered d response).2 = .ok ↔ response = .ok true := by
    rcases response with (_ | _) | _ <;> simp [docIsPublicAnswered]
  rw [hstatus]

lemma tells_finishJoin (h : p.WF) (c : ConnectionId) (d : DocKey) (status : Status) :
    Tells c p (p.finishJoin c d status) := by
  cases status with
  | err message => exact (quiet_send p c (by simp)).tells c
  | ok =>
    have hholds : (p.docService.joinToDoc c d).Holds d c :=
      (holds_joinToDoc h.docService c c d d).mpr (.inr ⟨rfl, rfl⟩)
    simp only [finishJoin]
    unfold send
    split
    · refine ⟨[(c, .joinResponse d .ok)], rfl, fun d' hm => ?_⟩
      cases List.mem_singleton.mp hm
      exact hholds
    · exact (quiet_of_sent rfl).tells c

lemma tells_joinAnswered (h : p.WF) (c : ConnectionId) (d : DocKey)
    (response : DocIsPublicResponse) : Tells c p (p.joinAnswered c d response) := by
  obtain ⟨h₁, h₂, h₃⟩ := docIsPublicAnswered_eq p d response
  have hsent : (p.docIsPublicAnswered d response).1.sent = p.sent := by
    rcases response with (_ | _) | _ <;> rfl
  obtain ⟨new, hq, hnew⟩ := tells_finishJoin (h.congr h₁ h₂ h₃) c d
    (p.docIsPublicAnswered d response).2
  exact ⟨new, by rw [← hsent]; exact hq, hnew⟩

lemma quiet_onSetToken (p : Proxy) (c : ConnectionId) (response : CheckClientTokenResponse) :
    p.Quiet (p.onSetToken c response) := by
  cases response with
  | error status => exact quiet_send p c (by simp)
  | ok payload =>
    simp only [onSetToken, applyToken_ok]
    exact (quiet_of_sent rfl).trans (quiet_send _ c (by simp))

lemma quiet_updateConnections (m : UpdateTokenMessage) (diff : TokenRightsDiff) (p : Proxy)
    (cs : List ConnectionId) : p.Quiet (cs.foldl (updateConnection m diff) p) := by
  induction cs generalizing p with
  | nil => exact quiet_of_sent rfl
  | cons c cs ih =>
    have hone : p.Quiet (updateConnection m diff p c) :=
      (quiet_of_sent rfl).trans (quiet_send _ c (by simp))
    exact hone.trans (ih _)

lemma quiet_onUpdateTokenMessage (p : Proxy) (m : UpdateTokenMessage) :
    p.Quiet (p.onUpdateTokenMessage m) := by
  unfold onUpdateTokenMessage
  split
  · exact quiet_of_sent rfl
  · split
    · exact quiet_of_sent rfl
    · exact (quiet_updateConnections m _ p _).trans (quiet_of_sent rfl)

end Proxy

namespace Gateway

lemma broadcast_ne (m : DocManager) (author : ConnectionId) {message : ServerMessage}
    (h : ∀ d, message ≠ .joinResponse d .ok) :
    ∀ s ∈ m.broadcast author message, ∀ d, s.2 ≠ .joinResponse d .ok := by
  rintro ⟨c, message'⟩ hs d
  obtain ⟨-, -, rfl⟩ := (mem_broadcast m author c message message').mp hs
  exact h d

/-- Changes and awareness that are passed on answer no join. -/
lemma applied_ne {s : DocService} {c : ConnectionId} {d : DocKey} {data : Changes}
    {effects : ApplyEffects}
    (h : s.applyChanges c d data = .ok effects ∨ s.applyAwareness c d data = .ok effects) :
    ∀ m ∈ effects.sent, ∀ d', m.2 ≠ .joinResponse d' .ok := by
  cases ha : s.assertClientJoined c d with
  | error e => simp [DocService.applyChanges, DocService.applyAwareness, ha, Except.map] at h
  | ok m =>
    simp only [DocService.applyChanges, DocService.applyAwareness, ha, Except.map,
      Except.ok.injEq] at h
    rcases h with rfl | rfl
    · exact broadcast_ne m c (by simp)
    · exact broadcast_ne m c (by simp)

lemma quiet_applied {g : Gateway} {c : ConnectionId} {result : Except NotJoinedError ApplyEffects}
    (h : ∀ effects, result = .ok effects → ∀ s ∈ effects.sent, ∀ d, s.2 ≠ .joinResponse d .ok) :
    g.node.proxy.Quiet (g.applied c result).1.node.proxy := by
  cases result with
  | error e => exact Proxy.quiet_send _ c (by simp [messageError])
  | ok effects => exact Proxy.quiet_sendAll _ (h effects rfl)

lemma quiet_onChanges (g : Gateway) (c : ConnectionId) (d : DocKey) (changes : Changes) :
    g.node.proxy.Quiet (g.onChanges c d changes).1.node.proxy := by
  unfold onChanges
  split
  · exact Proxy.quiet_of_sent rfl
  · exact Proxy.quiet_send _ c (by simp)
  · exact quiet_applied fun _ he => applied_ne (.inl he)

lemma quiet_onAwareness (g : Gateway) (c : ConnectionId) (d : DocKey) (awareness : Changes) :
    g.node.proxy.Quiet (g.onAwareness c d awareness).1.node.proxy :=
  quiet_applied fun _ he => applied_ne (.inr he)

lemma quiet_onSyncStart (g : Gateway) (c : ConnectionId) (d : DocKey) (vector : StateVector) :
    g.node.proxy.Quiet (g.onSyncStart c d vector).1.node.proxy := by
  unfold onSyncStart
  split
  · exact Proxy.quiet_of_sent rfl
  · exact Proxy.quiet_send _ c (by simp)
  · exact Proxy.quiet_of_sent rfl

lemma quiet_onSyncComplete (g : Gateway) (c : ConnectionId) (d : DocKey) (changes : Changes) :
    g.node.proxy.Quiet (g.onSyncComplete c d changes).1.node.proxy := by
  unfold onSyncComplete
  split
  · exact Proxy.quiet_of_sent rfl
  · exact Proxy.quiet_send _ c (by simp)
  · exact Proxy.quiet_of_sent rfl

lemma quiet_actorReplied (g : Gateway) (request : ActorRequest) (reply : ActorReply) :
    g.node.proxy.Quiet (g.actorReplied request reply).node.proxy := by
  unfold actorReplied
  split
  · split
    · exact Proxy.quiet_send _ _ (by simp)
    · exact Proxy.quiet_of_sent rfl
  · exact Proxy.quiet_send _ _ (by simp)
  · exact Proxy.quiet_of_sent rfl
  · exact Proxy.quiet_send _ _ (by simp [messageError])

lemma quiet_onPubsubMessage (g : Gateway) (m : ChangesPubsubMessage) :
    g.node.proxy.Quiet
      (g.sendAll (g.node.proxy.docService.onChangesOrAwarenessMessage m)).node.proxy := by
  apply Proxy.quiet_sendAll
  unfold onChangesOrAwarenessMessage
  cases m with
  | changes author d data =>
    dsimp only
    split
    · simp
    · split
      · simp
      · exact broadcast_ne _ author (by simp)
  | awareness author d data =>
    dsimp only
    split
    · simp
    · split
      · simp
      · exact broadcast_ne _ author (by simp)

/-- The handlers for messages about documents send no answer to a join. -/
lemma quiet_step {isPublic : DocKey → Bool} {g g' : Gateway} {a : GatewayAction} {e : Emitted}
    (hs : g.step isPublic a = some (g', e)) (ha : ∀ na, a ≠ .node na) :
    g.node.proxy.Quiet g'.node.proxy := by
  cases a with
  | node na => exact absurd rfl (ha na)
  | onChanges c d changes =>
    simp only [step, Option.ite_none_right_eq_some, Option.some.injEq] at hs
    have hq := quiet_onChanges g c d changes
    rwa [hs.2] at hq
  | onSyncStart c d vector =>
    simp only [step, Option.ite_none_right_eq_some, Option.some.injEq] at hs
    have hq := quiet_onSyncStart g c d vector
    rwa [hs.2] at hq
  | onSyncComplete c d changes =>
    simp only [step, Option.ite_none_right_eq_some, Option.some.injEq] at hs
    have hq := quiet_onSyncComplete g c d changes
    rwa [hs.2] at hq
  | onAwareness c d awareness =>
    simp only [step, Option.ite_none_right_eq_some, Option.some.injEq] at hs
    have hq := quiet_onAwareness g c d awareness
    rwa [hs.2] at hq
  | actorReplies request reply =>
    simp only [step, Option.ite_none_right_eq_some, Option.some.injEq, Prod.mk.injEq] at hs
    rw [← hs.2.1]
    exact quiet_actorReplied { g with waiting := g.waiting.erase request } request reply
  | onPubsubMessage m =>
    cases hs
    exact quiet_onPubsubMessage g m

end Gateway

namespace Node

/-- What the handler of a join does before it waits. -/
structure Joining (c : ConnectionId) (d : DocKey) (n n' : Node) : Prop where
  conns : n'.proxy.conns = n.proxy.conns
  kept : ∀ d', n.proxy.docService.Holds d' c → n'.proxy.docService.Holds d' c
  granted : n.proxy.docAccess c d = .granted → n'.proxy.docService.Holds d c
  calls : ∀ call, call ∈ n'.calls ↔
    call ∈ n.calls ∨ n.proxy.docAccess c d = .ask ∧ call = .onJoin c d none
  tells : Proxy.Tells c n.proxy n'.proxy

lemma joining_onJoin {n n' : Node} {c : ConnectionId} {d : DocKey} (hw : n.WF)
    (hs : n.step (.onJoin c d) = some n') : Joining c d n n' := by
  have hfinish : ∀ status, n.proxy.docAccess c d ≠ .ask →
      (n.proxy.docAccess c d = .granted → status = .ok) →
      Joining c d n { n with proxy := n.proxy.finishJoin c d status } := by
    intro status hask hok
    have hholds := fun d' => Proxy.holds_finishJoin hw.proxy c c d d' status
    refine ⟨(Proxy.finishJoin_eq _ c d status).1, fun d' hh => (hholds d').mpr (.inl hh),
      fun hgr => (hholds d).mpr (.inr ⟨hok hgr, rfl, rfl⟩), fun call => ?_,
      Proxy.tells_finishJoin hw.proxy c d status⟩
    exact (or_iff_left fun hcall => hask hcall.1).symm
  have htells : Proxy.Tells c n.proxy n.proxy := (Proxy.quiet_of_sent rfl).tells c
  simp only [step, Option.ite_none_right_eq_some] at hs
  obtain ⟨-, hs⟩ := hs
  split at hs
  · rename_i hacc
    cases hs
    exact ⟨rfl, fun _ hh => hh, by simp [hacc], by simp [hacc], htells⟩
  · rename_i hacc
    cases hs
    exact hfinish .ok (by simp [hacc]) fun _ => rfl
  · rename_i hacc
    cases hs
    exact hfinish _ (by simp [hacc]) (by simp [hacc])
  · rename_i hacc
    cases hs
    exact ⟨rfl, fun _ hh => hh, by simp [hacc], by simp [hacc, suspend, or_comm], htells⟩

end Node

/-! ### What the server owes -/

/-- What `checkDocAccess` lets a connection read, the API telling the truth. -/
def readable (isPublic : DocKey → Bool) (access : Option Access) (d : DocKey) : Bool :=
  access.any fun table =>
    match table.get d with
    | none => isPublic d
    | some data => Right.read ∈ data.rights

lemma docAccess_of_readable {isPublic : DocKey → Bool} {p : Proxy} {c : ConnectionId} {d : DocKey}
    (h : readable isPublic (p.conns c).access d = true) :
    p.docAccess c d = .granted ∨ p.docAccess c d = .ask ∧ isPublic d = true := by
  unfold readable at h
  unfold Proxy.docAccess
  cases ha : (p.conns c).access with
  | none => simp [ha] at h
  | some table =>
    cases hg : table.get d with
    | none =>
      simp only [ha, hg, Option.any_some] at h
      exact .inr ⟨by simp [hg], h⟩
    | some data =>
      simp only [ha, hg, Option.any_some, decide_eq_true_eq] at h
      exact .inl (by simp [hg, h])

/-- A join of the document is to be handled, or waits for an answer that will grant it. -/
def Coming (isPublic : DocKey → Bool) (c : ConnectionId) (toServer : List ClientRequest)
    (calls : List HandlerCall) (d : DocKey) : Prop :=
  .join d ∈ toServer ∨ (.onJoin c d none ∈ calls ∧ isPublic d = true) ∨
    .onJoin c d (some (.ok true)) ∈ calls

instance (isPublic : DocKey → Bool) (c : ConnectionId) (toServer : List ClientRequest)
    (calls : List HandlerCall) (d : DocKey) : Decidable (Coming isPublic c toServer calls d) :=
  inferInstanceAs (Decidable (_ ∨ _))

/-- If the connection may read the document, then it is a member of it or will be. -/
def Secure (isPublic : DocKey → Bool) (c : ConnectionId) (toServer : List ClientRequest)
    (n : Node) (d : DocKey) : Prop :=
  readable isPublic (n.proxy.conns c).access d = true →
    n.proxy.docService.Holds d c ∨ Coming isPublic c toServer n.calls d

instance (isPublic : DocKey → Bool) (c : ConnectionId) (toServer : List ClientRequest)
    (n : Node) (d : DocKey) : Decidable (Secure isPublic c toServer n d) :=
  inferInstanceAs (Decidable (_ → _))

section Secure

variable {isPublic : DocKey → Bool} {c : ConnectionId} {toServer toServer' : List ClientRequest}
  {calls calls' : List HandlerCall} {n n' : Node} {d : DocKey}

lemma Coming.mono (h : Coming isPublic c toServer calls d) (ht : toServer ⊆ toServer')
    (hc : calls ⊆ calls') : Coming isPublic c toServer' calls' d := by
  rcases h with h | ⟨h, hp⟩ | h
  · exact .inl (ht h)
  · exact .inr (.inl ⟨hc h, hp⟩)
  · exact .inr (.inr (hc h))

/-- A step that takes no membership and no access away and drops no join. -/
lemma Secure.mono (h : Secure isPublic c toServer n d)
    (haccess : (n'.proxy.conns c).access = (n.proxy.conns c).access)
    (hholds : n.proxy.docService.Holds d c → n'.proxy.docService.Holds d c)
    (hcoming : Coming isPublic c toServer n.calls d →
      n'.proxy.docService.Holds d c ∨ Coming isPublic c toServer' n'.calls d) :
    Secure isPublic c toServer' n' d := by
  intro hread
  rw [haccess] at hread
  rcases h hread with hh | hcome
  · exact .inl (hholds hh)
  · exact hcoming hcome

lemma Coming.erase (h : Coming isPublic c toServer calls d) {call : HandlerCall}
    (hne : ∀ answer, call ≠ .onJoin c d answer) :
    Coming isPublic c toServer (calls.erase call) d := by
  rcases h with h | ⟨h, hp⟩ | h
  · exact .inl h
  · exact .inr (.inl ⟨(List.mem_erase_of_ne (hne none).symm).mpr h, hp⟩)
  · exact .inr (.inr ((List.mem_erase_of_ne (hne _).symm).mpr h))

lemma Secure.of_holds (h : n.proxy.docService.Holds d c) : Secure isPublic c toServer n d :=
  fun _ => .inl h

/-- A join that the client has sent is granted, or waits for the API, if the connection may read
the document. -/
lemma Secure.onJoin {d₀ : DocKey} (hj : Node.Joining c d₀ n n')
    (h : Secure isPublic c (.join d₀ :: toServer) n d) : Secure isPublic c toServer n' d := by
  intro hread
  rw [hj.conns] at hread
  rcases h hread with hh | hm | hcome
  · exact .inl (hj.kept d hh)
  · rcases List.mem_cons.mp hm with he | hm
    · cases he
      rcases docAccess_of_readable hread with hgr | ⟨hask, hpub⟩
      · exact .inl (hj.granted hgr)
      · exact .inr (.inr (.inl ⟨(hj.calls _).mpr (.inr ⟨hask, rfl⟩), hpub⟩))
    · exact .inr (.inl hm)
  · refine .inr (Coming.mono (.inr hcome) (List.Subset.refl _) fun call hm => ?_)
    exact (hj.calls call).mpr (.inl hm)

lemma Secure.onSetToken (h : Secure isPublic c toServer n d) :
    Secure isPublic c toServer (n.suspend (.onSetToken c none)) d :=
  h.mono rfl id fun hcome => .inr
    (hcome.mono (List.Subset.refl _) (List.subset_cons_self _ _))

/-- What a step of the server needs in order to leave the document secure. A failed call of the
API is to take no join away that the document rests on. A new token is to leave the connection a
join, or a membership that `disconnect` overlooks, of every document that it lets it read. An
update is to let it read no document that it is not a member of and does not gain. -/
def ServerOk (isPublic : DocKey → Bool) (c : ConnectionId) (toServer : List ClientRequest)
    (n : Node) (d : DocKey) : NodeAction → Prop
  | .apiAnswers call (.onJoin _ _ (some (.error _))) =>
    Secure isPublic c toServer { n with calls := n.calls.erase call } d
  | .resume (.onSetToken _ (some (.ok payload))) =>
    readable isPublic (some (createAccessObject payload.docs)) d = true →
      Coming isPublic c toServer n.calls d ∨ n.proxy.docService.Holds d c ∧
        ∀ doc ∈ n.proxy.docService.joined c, n.proxy.docService.docs.get d ≠ some doc
  | .onUpdateTokenMessage m =>
    ∀ cs ∈ n.proxy.tokenConnections.get m.oldTokenId, ∀ rights ∈ n.proxy.firstAccess cs, c ∈ cs →
      readable isPublic (some (createAccessObject m.docs)) d = true →
        n.proxy.docService.Holds d c ∨ Coming isPublic c toServer n.calls d ∨
          gained rights (createAccessObject m.docs) d = true
  | _ => True

instance (isPublic : DocKey → Bool) (c : ConnectionId) (toServer : List ClientRequest) (n : Node)
    (d : DocKey) : ∀ a, Decidable (ServerOk isPublic c toServer n d a)
  | .apiAnswers _ (.onJoin _ _ (some (.error _))) => inferInstanceAs (Decidable (Secure _ _ _ _ _))
  | .apiAnswers _ (.onJoin _ _ (some (.ok _))) => isTrue trivial
  | .apiAnswers _ (.onJoin _ _ none) => isTrue trivial
  | .apiAnswers _ (.onSetToken _ _) => isTrue trivial
  | .apiAnswers _ (.handleConnection _ _) => isTrue trivial
  | .resume (.onSetToken _ (some (.ok _))) => inferInstanceAs (Decidable (_ → _))
  | .resume (.onSetToken _ (some (.error _))) => isTrue trivial
  | .resume (.onSetToken _ none) => isTrue trivial
  | .resume (.onJoin _ _ _) => isTrue trivial
  | .resume (.handleConnection _ _) => isTrue trivial
  | .onUpdateTokenMessage _ => inferInstanceAs (Decidable (∀ _ ∈ _, ∀ _ ∈ _, _))
  | .handleConnection _ _ => isTrue trivial
  | .onJoin _ _ => isTrue trivial
  | .onSetToken _ => isTrue trivial
  | .checkTokenExpiration _ => isTrue trivial
  | .handleDisconnect _ => isTrue trivial

lemma Secure.apiAnswers {call answered : HandlerCall} (hans : call.answeredBy answered = true)
    (htells : NodeAction.tells isPublic (.apiAnswers call answered) = true)
    (hok : ServerOk isPublic c toServer n d (.apiAnswers call answered))
    (h : Secure isPublic c toServer n d) :
    Secure isPublic c toServer { n with calls := answered :: n.calls.erase call } d := by
  have hkeep : (∀ answer, call ≠ .onJoin c d answer) →
      Secure isPublic c toServer { n with calls := answered :: n.calls.erase call } d := by
    intro hne
    refine h.mono rfl id fun hcome => .inr ?_
    exact (hcome.erase hne).mono (List.Subset.refl _) (List.subset_cons_self _ _)
  cases call with
  | handleConnection c' answer => exact hkeep (by simp)
  | onSetToken c' answer => exact hkeep (by simp)
  | onJoin c' d' answer =>
    rcases answered with _ | ⟨c'', d'', _ | (answer' | status)⟩ | _
    · simp [HandlerCall.answeredBy] at hans
    · simp [HandlerCall.answeredBy] at hans
    · by_cases hcall : c' = c ∧ d' = d
      · obtain ⟨rfl, rfl⟩ := hcall
        have hnone : answer = none ∧ c' = c'' ∧ d' = d'' := by
          cases answer with
          | none => simpa [HandlerCall.answeredBy] using hans
          | some response => simp [HandlerCall.answeredBy] at hans
        obtain ⟨rfl, rfl, rfl⟩ := hnone
        have hpub : answer' = isPublic d' := by simpa [NodeAction.tells] using htells
        subst hpub
        refine h.mono rfl id fun hcome => .inr ?_
        rcases hcome with hm | ⟨hm, hp⟩ | hm
        · exact .inl hm
        · rw [hp]
          exact .inr (.inr List.mem_cons_self)
        · refine .inr (.inr (List.mem_cons_of_mem _ ?_))
          exact (List.mem_erase_of_ne (by simp)).mpr hm
      · refine hkeep fun answer' he => hcall ?_
        injection he with h₁ h₂
        exact ⟨h₁, h₂⟩
    · intro hread
      refine (hok hread).imp_right fun hcome => ?_
      exact hcome.mono (List.Subset.refl _) (List.subset_cons_self _ _)
    · simp [HandlerCall.answeredBy] at hans

lemma Secure.joinAnswered (hw : n.WF) (c' : ConnectionId) (d' : DocKey)
    (response : DocIsPublicResponse) (h : Secure isPublic c toServer n d) :
    Secure isPublic c toServer ⟨n.proxy.joinAnswered c' d' response,
      n.calls.erase (.onJoin c' d' (some response))⟩ d := by
  have hholds := Proxy.holds_joinAnswered hw.proxy c' c d' d response
  refine h.mono ?_ (fun hh => hholds.mpr (.inl hh)) fun hcome => ?_
  · rw [(Proxy.joinAnswered_eq n.proxy c' d' response).1]
  · rcases hcome with hm | ⟨hm, hp⟩ | hm
    · exact .inr (.inl hm)
    · exact .inr (.inr (.inl ⟨(List.mem_erase_of_ne (by simp)).mpr hm, hp⟩))
    · by_cases he : HandlerCall.onJoin c d (some (.ok true)) = .onJoin c' d' (some response)
      · injection he with h₁ h₂ h₃
        exact .inl (hholds.mpr (.inr ⟨(Option.some.inj h₃).symm, h₂, h₁⟩))
      · exact .inr (.inr (.inr ((List.mem_erase_of_ne he).mpr hm)))

/-- A token that is refused changes nothing; one that is accepted leaves only what the index of
the connection lacks. -/
lemma Secure.tokenAnswered (hw : n.WF) (response : CheckClientTokenResponse)
    (hok : ServerOk isPublic c toServer n d (.resume (.onSetToken c (some response))))
    (h : Secure isPublic c toServer n d) :
    Secure isPublic c toServer ⟨n.proxy.onSetToken c response,
      n.calls.erase (.onSetToken c (some response))⟩ d := by
  cases response with
  | error status =>
    refine h.mono ?_ (fun hh => ?_) fun hcome => .inr (hcome.erase (by simp))
    · simp [Proxy.onSetToken, Proxy.applyToken]
    · simpa [Proxy.onSetToken, Proxy.applyToken] using hh
  | ok payload =>
    intro hread
    have haccess : ((n.proxy.onSetToken c (.ok payload)).conns c).access =
        some (createAccessObject payload.docs) := by
      simp [Proxy.onSetToken, Proxy.applyToken_ok, Proxy.conns_accept]
    have hdoc : (n.proxy.onSetToken c (.ok payload)).docService =
        n.proxy.docService.disconnect c := by
      simp [Proxy.onSetToken, Proxy.applyToken_ok, Proxy.accept]
    rw [haccess] at hread
    rcases hok hread with hcome | ⟨⟨doc, hget, hmem⟩, hlacks⟩
    · exact .inr (hcome.erase (by simp))
    · left
      rw [hdoc, holds_disconnect_self]
      refine ⟨?_, doc, hget, hmem, fun hj => hlacks doc hj hget⟩
      rintro ⟨r, hr, hid, -⟩
      obtain ⟨doc', hj', hget'⟩ := hw.proxy.refreshed c d ⟨doc, hget, hmem⟩ ⟨r, hr, hid⟩
      exact hlacks doc' hj' hget'

lemma not_emptied_of_readable {rights newRights : Access}
    (h : readable isPublic (some newRights) d = true) : ¬emptied rights newRights d = true := by
  intro he
  unfold emptied at he
  split at he
  · rename_i old new hold hnew
    simp only [readable, hnew, Option.any_some, decide_eq_true_eq] at h he
    rw [he] at h
    exact List.not_mem_nil h
  · cases he

lemma Secure.onUpdateTokenMessage (hw : n.WF) (m : UpdateTokenMessage)
    (hok : ServerOk isPublic c toServer n d (.onUpdateTokenMessage m))
    (h : Secure isPublic c toServer n d) :
    Secure isPublic c toServer { n with proxy := n.proxy.onUpdateTokenMessage m } d := by
  rcases hw.proxy.onUpdateTokenMessage_cases m with ⟨heq, -⟩ | ⟨cs, rights, hup⟩
  · rw [heq]
    exact h
  · have hholds : (n.proxy.onUpdateTokenMessage m).docService.Holds d c ↔
        if c ∈ cs then
          (n.proxy.docService.Holds d c ∧ ¬emptied rights (createAccessObject m.docs) d = true) ∨
            gained rights (createAccessObject m.docs) d = true
        else n.proxy.docService.Holds d c := by
      rw [hup.docService, (Proxy.holds_updateOps hw.proxy.docService _ cs c d).2, key_mem_updateDiff,
        mem_added_updateDiff]
    by_cases hc : c ∈ cs
    · rw [if_pos hc] at hholds
      intro hread
      have haccess : ((n.proxy.onUpdateTokenMessage m).conns c).access =
          some (createAccessObject m.docs) := by
        rw [hup.conns, if_pos hc]
        rfl
      rw [haccess] at hread
      rcases hok cs hup.listed rights hup.first hc hread with hh | hcome | hg
      · exact .inl (hholds.mpr (.inl ⟨hh, not_emptied_of_readable hread⟩))
      · exact .inr hcome
      · exact .inl (hholds.mpr (.inr hg))
    · rw [if_neg hc] at hholds
      refine h.mono ?_ hholds.mpr .inr
      rw [hup.conns, if_neg hc]

end Secure

namespace Node

variable {c : ConnectionId} {n n' : Node}

/-- The handlers that wait are those of joins and tokens of the connection. -/
def CallsOf (c : ConnectionId) (n : Node) : Prop :=
  ∀ call ∈ n.calls, (∃ d answer, call = .onJoin c d answer) ∨ ∃ answer, call = .onSetToken c answer

/-- The steps of an instance that has one connection, which stays. -/
inductive ServesOnly (c : ConnectionId) : NodeAction → Prop
  | onJoin (d : DocKey) : ServesOnly c (.onJoin c d)
  | onSetToken : ServesOnly c (.onSetToken c)
  | apiAnswers (call answered : HandlerCall) : ServesOnly c (.apiAnswers call answered)
  | resume (call : HandlerCall) : ServesOnly c (.resume call)
  | onUpdateTokenMessage (m : UpdateTokenMessage) : ServesOnly c (.onUpdateTokenMessage m)

lemma CallsOf.suspend (h : n.CallsOf c) {call : HandlerCall}
    (hcall : (∃ d answer, call = .onJoin c d answer) ∨ ∃ answer, call = .onSetToken c answer) :
    (n.suspend call).CallsOf c := by
  intro call' hm
  rcases List.mem_cons.mp hm with rfl | hm
  · exact hcall
  · exact h call' hm

lemma CallsOf.answered (h : n.CallsOf c) {call answered : HandlerCall} (hcall : call ∈ n.calls)
    (hans : call.answeredBy answered = true) :
    CallsOf c { n with calls := answered :: n.calls.erase call } := by
  intro call' hm
  rcases List.mem_cons.mp hm with rfl | hm
  · have hconn : call'.conn = c := by
      rw [HandlerCall.conn_of_answeredBy hans]
      rcases h call hcall with ⟨d, answer, rfl⟩ | ⟨answer, rfl⟩
      · rfl
      · rfl
    cases call' with
    | handleConnection c' answer' =>
      rcases h call hcall with ⟨d, answer, rfl⟩ | ⟨answer, rfl⟩
      · simp [HandlerCall.answeredBy] at hans
      · simp [HandlerCall.answeredBy] at hans
    | onJoin c' d' answer' =>
      cases hconn
      exact .inl ⟨d', answer', rfl⟩
    | onSetToken c' answer' =>
      cases hconn
      exact .inr ⟨answer', rfl⟩
  · exact h call' (List.mem_of_mem_erase hm)

lemma CallsOf.step (hw : n.WF) (h : n.CallsOf c) {a : NodeAction} (ha : ServesOnly c a)
    (hs : n.step a = some n') : n'.CallsOf c := by
  cases ha with
  | onJoin d =>
    intro call hcall
    rcases ((joining_onJoin hw hs).calls call).mp hcall with hold | ⟨-, rfl⟩
    · exact h call hold
    · exact .inl ⟨d, none, rfl⟩
  | onSetToken =>
    simp only [Node.step, Option.ite_none_right_eq_some, Option.some.injEq] at hs
    obtain ⟨-, rfl⟩ := hs
    exact h.suspend (.inr ⟨none, rfl⟩)
  | apiAnswers call answered =>
    simp only [Node.step, Option.ite_none_right_eq_some, Option.some.injEq] at hs
    obtain ⟨⟨hcall, hans⟩, rfl⟩ := hs
    exact h.answered hcall hans
  | resume call =>
    simp only [Node.step, Option.ite_none_right_eq_some, Option.map_eq_some_iff] at hs
    obtain ⟨-, q, -, rfl⟩ := hs
    exact fun call' hm => h call' (List.mem_of_mem_erase hm)
  | onUpdateTokenMessage m =>
    cases hs
    exact h

lemma tells_step (hw : n.WF) (h : n.CallsOf c) {a : NodeAction} (ha : ServesOnly c a)
    (hs : n.step a = some n') : Proxy.Tells c n.proxy n'.proxy := by
  have hrefl : Proxy.Tells c n.proxy n.proxy := (Proxy.quiet_of_sent rfl).tells c
  cases ha with
  | onJoin d => exact (joining_onJoin hw hs).tells
  | onSetToken =>
    simp only [step, Option.ite_none_right_eq_some, Option.some.injEq] at hs
    obtain ⟨-, rfl⟩ := hs
    exact hrefl
  | apiAnswers call answered =>
    simp only [step, Option.ite_none_right_eq_some, Option.some.injEq] at hs
    obtain ⟨-, rfl⟩ := hs
    exact hrefl
  | resume call =>
    simp only [step, Option.ite_none_right_eq_some, Option.map_eq_some_iff] at hs
    obtain ⟨hcall, q, hq, rfl⟩ := hs
    rcases h call hcall with ⟨d, _ | response, rfl⟩ | ⟨_ | response, rfl⟩
    · cases hq
    · cases hq
      exact Proxy.tells_joinAnswered hw.proxy c d response
    · cases hq
    · cases hq
      exact (Proxy.quiet_onSetToken n.proxy c response).tells c
  | onUpdateTokenMessage m =>
    cases hs
    exact (Proxy.quiet_onUpdateTokenMessage n.proxy m).tells c

end Node

section Secure

variable {isPublic : DocKey → Bool} {c : ConnectionId} {toServer : List ClientRequest}
  {n n' : Node} {d : DocKey}

/-- A step that nobody asked for leaves the document secure if it meets `ServerOk`. -/
lemma Secure.unasked (hw : n.WF) (hc : n.CallsOf c) {a : NodeAction}
    (ha : (GatewayAction.node a).unasked = true) (htells : a.tells isPublic = true)
    (hs : n.step a = some n') (hok : ServerOk isPublic c toServer n d a)
    (h : Secure isPublic c toServer n d) : Secure isPublic c toServer n' d := by
  cases a with
  | apiAnswers call answered =>
    simp only [Node.step, Option.ite_none_right_eq_some, Option.some.injEq] at hs
    obtain ⟨⟨-, hans⟩, rfl⟩ := hs
    exact h.apiAnswers hans htells hok
  | resume call =>
    simp only [Node.step, Option.ite_none_right_eq_some, Option.map_eq_some_iff] at hs
    obtain ⟨hcall, q, hq, rfl⟩ := hs
    rcases hc call hcall with ⟨d', _ | response, rfl⟩ | ⟨_ | response, rfl⟩
    · cases hq
    · cases hq
      exact h.joinAnswered hw c d' response
    · cases hq
    · cases hq
      exact h.tokenAnswered hw response hok
  | onUpdateTokenMessage m =>
    cases hs
    exact h.onUpdateTokenMessage hw m hok
  | handleConnection c' hasToken => cases ha
  | onJoin c' d' => cases ha
  | onSetToken c' => cases ha
  | checkTokenExpiration now => cases ha
  | handleDisconnect c' => cases ha

end Secure

namespace Gateway

/-- The steps of a gateway that has one connection, which stays. -/
def ServesOnly (c : ConnectionId) : GatewayAction → Prop
  | .node a => Node.ServesOnly c a
  | _ => True

lemma servesOnly_handler (c : ConnectionId) (request : ClientRequest) :
    ServesOnly c (request.handler c) := by
  cases request with
  | join d => exact .onJoin d
  | setToken token => exact .onSetToken
  | _ => trivial

lemma servesOnly_unasked (c : ConnectionId) {a : GatewayAction} (ha : a.unasked = true) :
    ServesOnly c a := by
  cases a with
  | node a =>
    cases a with
    | apiAnswers call answered => exact .apiAnswers call answered
    | resume call => exact .resume call
    | onUpdateTokenMessage m => exact .onUpdateTokenMessage m
    | handleConnection c' hasToken => cases ha
    | onJoin c' d => cases ha
    | onSetToken c' => cases ha
    | checkTokenExpiration now => cases ha
    | handleDisconnect c' => cases ha
  | _ => trivial

variable {isPublic : DocKey → Bool} {c : ConnectionId} {g g' : Gateway}

lemma serves_step {a : GatewayAction} {e : Emitted} (hw : g.node.WF) (hc : g.node.CallsOf c)
    (ha : ServesOnly c a) (hs : g.step isPublic a = some (g', e)) :
    g'.node.WF ∧ g'.node.CallsOf c ∧ Proxy.Tells c g.node.proxy g'.node.proxy := by
  rcases step_cases hs with ⟨na, n, rfl, -, hn, rfl, -⟩ | ⟨hne, hsame, -⟩
  · exact ⟨Node.wf_step hw hn, hc.step hw ha hn, Node.tells_step hw hc ha hn⟩
  · refine ⟨hsame.wf hw, ?_, (quiet_step hs hne).tells c⟩
    rw [Node.CallsOf, hsame.calls]
    exact hc

end Gateway

lemma Secure.same {isPublic : DocKey → Bool} {c : ConnectionId}
    {toServer toServer' : List ClientRequest} {g g' : Gateway} {d : DocKey} (hsame : g.Same g')
    (ht : ∀ d, .join d ∈ toServer → .join d ∈ toServer')
    (h : Secure isPublic c toServer g.node d) : Secure isPublic c toServer' g'.node d := by
  refine h.mono (by rw [hsame.conns]) (fun hh => ?_) fun hcome => .inr ?_
  · rw [hsame.docService]
    exact hh
  · rw [hsame.calls]
    exact hcome.imp_left (ht d)

namespace Session

variable {isPublic : DocKey → Bool} {c : ConnectionId} {s s' : Session} {d : DocKey}

/-- The documents of the containers, and of those that answers on their way will make. -/
def owned (c : ConnectionId) (s : Session) : List DocKey :=
  s.client.docs ++ s.client.opening.filter fun d => .joinResponse d .ok ∈ s.toClient c

/-- What a step needs for the client and the server to stay in agreement: a granted join answers
no other call of `getDoc` whose document is not secure, and what happens at the server is
`ServerOk` for every document that the client has or is about to have. -/
def StepOk (isPublic : DocKey → Bool) (c : ConnectionId) (s : Session) : SessionAction → Prop
  | .receive =>
    match s.toClient c with
    | .joinResponse d .ok :: _ => ∀ d' ∈ s.client.opening, d' ≠ d →
        Secure isPublic c s.toServer s.gateway.node d'
    | _ => True
  | .server (.node a) => ∀ d ∈ s.owned c, ServerOk isPublic c s.toServer s.gateway.node d a
  | _ => True

instance (isPublic : DocKey → Bool) (c : ConnectionId) (s : Session) (a : SessionAction) :
    Decidable (StepOk isPublic c s a) := by
  unfold StepOk
  split
  · split <;> infer_instance
  · infer_instance
  · infer_instance

/-- Containers of documents that the connection may read are joined at the server, which takes
their edits. -/
def Agrees (isPublic : DocKey → Bool) (c : ConnectionId) (s : Session) : Prop :=
  ∀ d ∈ s.client.docs, readable isPublic (s.gateway.node.proxy.conns c).access d = true →
    s.gateway.node.proxy.docService.Holds d c ∧ ∀ changes, ∃ effects,
      s.gateway.node.proxy.docService.applyChanges c d changes = .ok effects

structure WF (c : ConnectionId) (s : Session) : Prop where
  node : s.gateway.node.WF
  calls : s.gateway.node.CallsOf c

/-- The documents that the client has or is about to have are secure. -/
def Upheld (isPublic : DocKey → Bool) (c : ConnectionId) (s : Session) : Prop :=
  ∀ d ∈ s.owned c, Secure isPublic c s.toServer s.gateway.node d

lemma mem_owned : d ∈ s.owned c ↔ d ∈ s.client.docs ∨
    d ∈ s.client.opening ∧ .joinResponse d .ok ∈ s.toClient c := by
  simp [owned]

lemma serve_cases {a : GatewayAction} (hs : s.serve isPublic a = some s') :
    ∃ g e, s.gateway.step isPublic a = some (g, e) ∧ s' = { s with gateway := g } := by
  obtain ⟨⟨g, e⟩, hg, rfl⟩ := Option.map_eq_some_iff.mp hs
  exact ⟨g, e, hg, rfl⟩

/-- A step is one of the client, or one of the gateway that leaves the client alone. -/
lemma step_cases {a : SessionAction} (hs : s.step isPublic c a = some s') :
    s'.gateway = s.gateway ∨ ∃ ga e, Gateway.ServesOnly c ga ∧
      s.gateway.step isPublic ga = some (s'.gateway, e) ∧
      s'.client = s.client ∧ s'.received = s.received := by
  cases a with
  | getDoc id =>
    cases hs
    exact .inl rfl
  | setToken token =>
    cases hs
    exact .inl rfl
  | disposeDocs =>
    cases hs
    exact .inl rfl
  | edit request =>
    simp only [step, Option.ite_none_right_eq_some, Option.some.injEq] at hs
    exact .inl (by rw [← hs.2]; rfl)
  | getDocTimeout n =>
    obtain ⟨client, -, rfl⟩ := Option.map_eq_some_iff.mp hs
    exact .inl rfl
  | setTokenTimeout n =>
    obtain ⟨client, -, rfl⟩ := Option.map_eq_some_iff.mp hs
    exact .inl rfl
  | receive =>
    simp only [step] at hs
    split at hs
    · cases hs
    · cases hs
      exact .inl rfl
  | handle =>
    simp only [step] at hs
    split at hs
    · cases hs
    · rename_i request rest hrest
      obtain ⟨g, e, hg, rfl⟩ := serve_cases hs
      exact .inr ⟨_, e, Gateway.servesOnly_handler c request, hg, rfl, rfl⟩
  | server ga =>
    simp only [step, Option.ite_none_right_eq_some] at hs
    obtain ⟨ha, hs⟩ := hs
    obtain ⟨g, e, hg, rfl⟩ := serve_cases hs
    exact .inr ⟨ga, e, Gateway.servesOnly_unasked c ha, hg, rfl, rfl⟩

lemma wf_step {a : SessionAction} (h : s.WF c) (hs : s.step isPublic c a = some s') : s'.WF c := by
  rcases step_cases hs with hg | ⟨ga, e, ha, hg, -, -⟩
  · exact ⟨hg ▸ h.node, hg ▸ h.calls⟩
  · obtain ⟨hw, hc, -⟩ := Gateway.serves_step h.node h.calls ha hg
    exact ⟨hw, hc⟩

/-! ### The client's steps -/

lemma mem_opening {client : DocClient} :
    d ∈ client.opening ↔ ∃ call ∈ client.getDocs, call.state = .pending ∧ call.id = d := by
  simp [DocClient.opening, and_assoc]

lemma settle_ne_pending (status : Status) (state : CallState) :
    state.settle status ≠ .pending := by
  cases state with
  | pending => exact DocClient.ofStatus_ne_pending status
  | resolved => simp [CallState.settle]
  | rejected message => simp [CallState.settle]

lemma opening_onJoinResponse (client : DocClient) (status : Status) :
    (client.onJoinResponse status).opening = [] := by
  rw [List.eq_nil_iff_forall_not_mem]
  intro d hd
  obtain ⟨call, hcall, hpending, -⟩ := mem_opening.mp hd
  obtain ⟨call₀, -, rfl⟩ := List.mem_map.mp hcall
  exact settle_ne_pending status call₀.state hpending

/-- A call that times out waits no longer. -/
lemma opening_timeout {client client' : DocClient} {n : Nat}
    (hs : client.step (.getDocTimeout n) = some client') (hd : d ∈ client'.opening) :
    d ∈ client.opening := by
  simp only [DocClient.step, Option.ite_none_right_eq_some, Option.some.injEq] at hs
  obtain ⟨-, rfl⟩ := hs
  obtain ⟨call, hcall, hpending, hid⟩ := mem_opening.mp hd
  obtain ⟨k, hk⟩ := List.mem_iff_getElem?.mp hcall
  rw [List.getElem?_modify] at hk
  obtain ⟨call₀, hcall₀, rfl⟩ := Option.map_eq_some_iff.mp hk
  by_cases hn : n = k
  · rw [if_pos hn] at hpending
    exact absurd hpending (settle_ne_pending _ _)
  · rw [if_neg hn] at hpending hid
    exact mem_opening.mpr ⟨call₀, List.mem_of_getElem? hcall₀, hpending, hid⟩

/-- A document that the client comes to wait for has its join under way. -/
lemma Upheld.request (h : s.Upheld isPublic c) {r : DocClient × List ClientRequest}
    (hr : ∀ d ∈ (s.request r).owned c, d ∈ s.owned c ∨ .join d ∈ r.2) :
    (s.request r).Upheld isPublic c := by
  intro d hd
  rcases hr d hd with hold | hnew
  · refine (h d hold).mono rfl id fun hcome => .inr ?_
    exact hcome.mono (List.subset_append_left _ _) (List.Subset.refl _)
  · exact fun _ => .inr (.inl (List.mem_append_right _ hnew))

lemma Upheld.getDoc (h : s.Upheld isPublic c) (id : DocKey) :
    (s.request (s.client.getDoc id)).Upheld isPublic c := by
  refine h.request fun d hd => ?_
  rw [mem_owned] at hd ⊢
  unfold DocClient.getDoc at hd ⊢
  by_cases hid : id ∈ s.client.docs ∨ id ∈ inheritedNames
  · rw [if_pos hid] at hd ⊢
    left
    refine hd.imp_right fun ⟨hopen, hm⟩ => ⟨?_, hm⟩
    simpa [Session.request, DocClient.opening] using hopen
  · rw [if_neg hid] at hd ⊢
    rcases hd with hdocs | ⟨hopen, hm⟩
    · exact .inl (.inl hdocs)
    · have hcases : d ∈ s.client.opening ∨ d = id := by
        simpa [Session.request, DocClient.opening] using hopen
      rcases hcases with hold | rfl
      · exact .inl (.inr ⟨hold, hm⟩)
      · exact .inr (List.mem_singleton_self _)

lemma Upheld.disposeDocs (h : s.Upheld isPublic c) :
    (s.request (s.client.disposeDocs, [])).Upheld isPublic c := by
  refine h.request fun d hd => .inl ?_
  rw [mem_owned] at hd ⊢
  exact .inr (hd.resolve_left List.not_mem_nil)

/-- Every pending `getDoc` takes the answer that arrives. Its own is one on the way to an owned
document; for the others there is the guard. -/
lemma Upheld.receive (h : s.Upheld isPublic c) {m : ServerMessage} {rest : List ServerMessage}
    (hm : s.toClient c = m :: rest) (hok : StepOk isPublic c s .receive) :
    Upheld isPublic c { s with client := s.client.onMessage m, received := s.received + 1 } := by
  have hrest : toClient c { s with client := s.client.onMessage m, received := s.received + 1 } =
      rest := by
    unfold toClient at hm ⊢
    rw [← List.tail_drop, hm]
    rfl
  have hsame : (s.client.onMessage m).docs = s.client.docs →
      (s.client.onMessage m).opening ⊆ s.client.opening →
      Upheld isPublic c { s with client := s.client.onMessage m, received := s.received + 1 } := by
    intro hdocs hopen d hd
    rw [mem_owned, hrest, hdocs] at hd
    refine h d (mem_owned.mpr (hd.imp_right fun ⟨ho, hr⟩ => ⟨hopen ho, ?_⟩))
    rw [hm]
    exact List.mem_cons_of_mem _ hr
  cases m with
  | joinResponse d₀ status =>
    have hnil : (s.client.onMessage (.joinResponse d₀ status)).opening = [] :=
      opening_onJoinResponse s.client status
    cases status with
    | ok =>
      intro d hd
      rw [mem_owned, hnil] at hd
      have hd' : d ∈ s.client.docs ∨ d ∈ s.client.opening :=
        List.mem_append.mp (hd.resolve_right fun hno => List.not_mem_nil hno.1)
      rcases hd' with hdocs | hopen
      · exact h d (mem_owned.mpr (.inl hdocs))
      · by_cases he : d = d₀
        · subst he
          exact h d (mem_owned.mpr (.inr ⟨hopen, by rw [hm]; exact List.mem_cons_self⟩))
        · unfold StepOk at hok
          rw [hm] at hok
          exact hok d hopen he
    | err message =>
      refine hsame ?_ ?_
      · simp [DocClient.onMessage, DocClient.onJoinResponse]
      · rw [hnil]
        exact List.nil_subset _
  | _ => exact hsame rfl (List.Subset.refl _)

/-! ### The server's steps -/

/-- A document comes to be owned at a step of the server only with a membership. -/
lemma owned_serve {g : Gateway} {toServer : List ClientRequest}
    (htells : Proxy.Tells c s.gateway.node.proxy g.node.proxy)
    (hd : d ∈ owned c { s with toServer := toServer, gateway := g }) :
    d ∈ s.owned c ∨ g.node.proxy.docService.Holds d c := by
  obtain ⟨new, hsent, hnew⟩ := htells
  rcases mem_owned.mp hd with hdocs | ⟨hopen, hm⟩
  · exact .inl (mem_owned.mpr (.inl hdocs))
  · unfold toClient at hm
    dsimp only at hm
    rw [hsent, List.filter_append, List.map_append, List.drop_append] at hm
    rcases List.mem_append.mp hm with hold | hm
    · exact .inl (mem_owned.mpr (.inr ⟨hopen, hold⟩))
    · right
      obtain ⟨⟨c', m⟩, hm, he⟩ := List.mem_map.mp (List.mem_of_mem_drop hm)
      obtain ⟨hin, hc⟩ := List.mem_filter.mp hm
      obtain rfl : c' = c := by simpa using hc
      obtain rfl : m = .joinResponse d .ok := he
      exact hnew d hin

lemma Upheld.serve {g : Gateway} (toServer : List ClientRequest)
    (htells : Proxy.Tells c s.gateway.node.proxy g.node.proxy)
    (hsec : ∀ d ∈ s.owned c, Secure isPublic c toServer g.node d) :
    Upheld isPublic c { s with toServer := toServer, gateway := g } := by
  intro d hd
  rcases owned_serve htells hd with hold | hh
  · exact hsec d hold
  · exact Secure.of_holds hh

lemma Upheld.handle (hw : s.WF c) (h : s.Upheld isPublic c) {request : ClientRequest}
    {rest : List ClientRequest} (hrest : s.toServer = request :: rest) {g : Gateway} {e : Emitted}
    (hs : s.gateway.step isPublic (request.handler c) = some (g, e)) :
    Upheld isPublic c { s with toServer := rest, gateway := g } := by
  obtain ⟨-, -, htells⟩ := Gateway.serves_step hw.node hw.calls
    (Gateway.servesOnly_handler c request) hs
  refine Upheld.serve rest htells fun d hd => ?_
  have hsec := h d hd
  rw [hrest] at hsec
  rcases Gateway.step_cases hs with ⟨na, n, hna, -, hn, rfl, -⟩ | ⟨hne, hsame, -⟩
  · cases request with
    | join d₀ =>
      cases hna
      exact hsec.onJoin (Node.joining_onJoin hw.node hn)
    | setToken token =>
      cases hna
      simp only [Node.step, Option.ite_none_right_eq_some, Option.some.injEq] at hn
      obtain ⟨-, rfl⟩ := hn
      refine (hsec.mono rfl id fun hcome => .inr ?_).onSetToken
      exact hcome.imp_left fun hm => (List.mem_cons.mp hm).resolve_left (by simp)
    | changes d' update => cases hna
    | syncStart d' vector => cases hna
    | syncComplete d' update => cases hna
    | awareness d' update => cases hna
  · refine hsec.same hsame fun d' hm => (List.mem_cons.mp hm).resolve_left ?_
    rintro rfl
    exact hne _ rfl

lemma Upheld.server (hw : s.WF c) (h : s.Upheld isPublic c) {a : GatewayAction}
    (ha : a.unasked = true) (hok : StepOk isPublic c s (.server a)) {g : Gateway} {e : Emitted}
    (hs : s.gateway.step isPublic a = some (g, e)) :
    Upheld isPublic c { s with gateway := g } := by
  obtain ⟨-, -, htells⟩ := Gateway.serves_step hw.node hw.calls
    (Gateway.servesOnly_unasked c ha) hs
  refine Upheld.serve s.toServer htells fun d hd => ?_
  rcases Gateway.step_cases hs with ⟨na, n, rfl, htrue, hn, rfl, -⟩ | ⟨-, hsame, -⟩
  · exact (h d hd).unasked hw.node hw.calls ha htrue hn (hok d hd)
  · exact (h d hd).same hsame fun _ hm => hm

/-- One step that meets `StepOk`. -/
lemma upheld_step {a : SessionAction} (hw : s.WF c) (h : s.Upheld isPublic c)
    (hok : StepOk isPublic c s a) (hs : s.step isPublic c a = some s') :
    s'.Upheld isPublic c := by
  cases a with
  | getDoc id =>
    cases hs
    exact h.getDoc id
  | setToken token =>
    cases hs
    exact h.request fun d hd => .inl hd
  | disposeDocs =>
    cases hs
    exact h.disposeDocs
  | edit request =>
    simp only [step, Option.ite_none_right_eq_some, Option.some.injEq] at hs
    obtain ⟨-, rfl⟩ := hs
    exact h.request fun d hd => .inl hd
  | getDocTimeout n =>
    obtain ⟨client, hclient, rfl⟩ := Option.map_eq_some_iff.mp hs
    refine h.request fun d hd => .inl ?_
    have hdocs : client.docs = s.client.docs := by
      simp only [DocClient.step, Option.ite_none_right_eq_some, Option.some.injEq] at hclient
      rw [← hclient.2]
    rw [mem_owned] at hd ⊢
    exact hd.imp (fun hd => hdocs ▸ hd) (And.imp_left (opening_timeout hclient))
  | setTokenTimeout n =>
    obtain ⟨client, hclient, rfl⟩ := Option.map_eq_some_iff.mp hs
    simp only [DocClient.step, Option.ite_none_right_eq_some, Option.some.injEq] at hclient
    obtain ⟨-, rfl⟩ := hclient
    exact h.request fun d hd => .inl hd
  | receive =>
    simp only [step] at hs
    split at hs
    · cases hs
    · rename_i m rest hm
      cases hs
      exact h.receive hm hok
  | handle =>
    simp only [step] at hs
    split at hs
    · cases hs
    · rename_i request rest hrest
      obtain ⟨g, e, hg, rfl⟩ := serve_cases hs
      exact h.handle hw hrest hg
  | server ga =>
    simp only [step, Option.ite_none_right_eq_some] at hs
    obtain ⟨ha, hs⟩ := hs
    obtain ⟨g, e, hg, rfl⟩ := serve_cases hs
    exact h.server hw ha hok hg

lemma wf_init (c : ConnectionId) (token : Option CheckClientTokenResponse) :
    (init c token).WF c where
  node := ⟨Proxy.wf_init.handleConnection rfl token, fun call hcall => by cases hcall⟩
  calls call hcall := by cases hcall

lemma upheld_init (c : ConnectionId) (token : Option CheckClientTokenResponse) :
    (init c token).Upheld isPublic c := by
  intro d hd
  cases hd

lemma upheld_run {token : Option CheckClientTokenResponse} {as : List SessionAction}
    (hrun : Stepper.run (step isPublic c) (init c token) as = some s)
    (hok : Guarded (step isPublic c) (StepOk isPublic c) (init c token) as) :
    s.WF c ∧ s.Upheld isPublic c :=
  run_invariant (fun s => s.WF c ∧ s.Upheld isPublic c)
    (fun _ _ _ ⟨hw, h⟩ hok hs => ⟨wf_step hw hs, upheld_step hw h hok hs⟩)
    hrun hok ⟨wf_init c token, upheld_init c token⟩

/-- In a run whose steps all meet `StepOk`, client and server agree whenever nothing is under
way: every container of a document that the connection may read is joined, and its edits are not
refused as those of a connection that has not joined. -/
theorem quiescent_agrees (isPublic : DocKey → Bool) (c : ConnectionId)
    (token : Option CheckClientTokenResponse) (as : List SessionAction) (s : Session)
    (hrun : Stepper.run (step isPublic c) (init c token) as = some s)
    (hok : Guarded (step isPublic c) (StepOk isPublic c) (init c token) as)
    (hquiet : s.Quiescent c) : s.Agrees isPublic c := by
  obtain ⟨hw, h⟩ := upheld_run hrun hok
  intro d hd hread
  have hholds : s.gateway.node.proxy.docService.Holds d c := by
    rcases h d (mem_owned.mpr (.inl hd)) hread with hh | hm | ⟨hm, -⟩ | hm
    · exact hh
    · rw [hquiet.toServer] at hm
      cases hm
    · rw [hquiet.handlers] at hm
      cases hm
    · rw [hquiet.handlers] at hm
      cases hm
  refine ⟨hholds, fun changes => ?_⟩
  obtain ⟨effects, heffects, -⟩ :=
    applyChanges_of_holds hw.node.proxy.docService hholds changes
  exact ⟨effects, heffects⟩

/-- A token that lists one document. -/
def docToken (tokenId : TokenId) : CheckClientTokenResponse :=
  .ok ⟨tokenId, "consumer", "user", none, [⟨"doc", [.read, .write]⟩]⟩

/-- The client gets a container of the document. -/
def openDoc : List SessionAction := [.getDoc "doc", .handle, .receive]

/-- The client sets another token, which the API accepts. -/
def switchToken : List SessionAction :=
  [.setToken "jwt", .handle,
    .server (.node (.apiAnswers (.onSetToken "c" none) (.onSetToken "c" (some (docToken "t'"))))),
    .server (.node (.resume (.onSetToken "c" (some (docToken "t'"))))), .receive]

/-- The client gives its containers up before it switches the token. -/
theorem quiescent_agrees_after_switch :
    ∃ s, Stepper.run (step (fun _ => false) "c") (init "c" (some (docToken "t")))
        ([.receive] ++ openDoc ++ [.disposeDocs] ++ switchToken ++ openDoc) = some s ∧
      s.client.docs = ["doc"] ∧ s.Agrees (fun _ => false) "c" := by
  obtain ⟨s, hrun⟩ : ∃ s, Stepper.run (step (fun _ => false) "c") (init "c" (some (docToken "t")))
      ([.receive] ++ openDoc ++ [.disposeDocs] ++ switchToken ++ openDoc) = some s := ⟨_, rfl⟩
  refine ⟨s, hrun, ?_, quiescent_agrees _ _ _ _ s hrun (by decide) ?_⟩
  · cases hrun
    decide
  · cases hrun
    exact ⟨by decide, by decide, by decide, by decide, by decide⟩

/-- The server drops the connection from its documents at a new token, and the client keeps the
container. -/
theorem container_not_joined_after_switch :
    ¬∀ (isPublic : DocKey → Bool) (c : ConnectionId) (token : Option CheckClientTokenResponse)
      (as : List SessionAction) (s : Session),
      Stepper.run (step isPublic c) (init c token) as = some s → s.Quiescent c →
        s.Agrees isPublic c := by
  intro h
  have hagrees := h (fun _ => false) "c" (some (docToken "t"))
    ([.receive] ++ openDoc ++ switchToken) _ rfl
    ⟨by decide, by decide, by decide, by decide, by decide⟩ "doc" (by decide) (by decide)
  exact absurd hagrees.1 (by decide)

end Session

end AlaFois
