import AlaFois.Proofs.Disconnection

/-!
# Revocation as one instance sees it

An update message revokes a token at the connections it finds in the list of the token. It
misses a connection that the API has accepted already but that is not yet registered, and one
that an earlier update has left without a list.
-/

namespace AlaFois

/-- The message revokes the token of this consumer. -/
def UpdateTokenMessage.Revokes (m : UpdateTokenMessage) (tokenId : TokenId)
    (consumerId : ConsumerId) : Prop :=
  m.oldTokenId = tokenId ∧ m.consumerId = consumerId

instance (m : UpdateTokenMessage) (tokenId : TokenId) (consumerId : ConsumerId) :
    Decidable (m.Revokes tokenId consumerId) :=
  inferInstanceAs (Decidable (_ ∧ _))

/-- The handler runs `applyToken`. -/
def HandlerCall.appliesToken : HandlerCall → Bool
  | .onJoin _ _ _ => false
  | _ => true

namespace Proxy

/-- If the connection is open now, it was so before, with the same token, and it has kept its
lists. -/
def Kept (p q : Proxy) (c : ConnectionId) : Prop :=
  (q.conns c).isOpen → (p.conns c).isOpen ∧ (q.conns c).tokenId = (p.conns c).tokenId ∧
    (q.conns c).issuer = (p.conns c).issuer ∧ ∀ t, c ∈ p.connectionsOf t → c ∈ q.connectionsOf t

variable {p q : Proxy}

lemma Kept.of_eq {c : ConnectionId} (hc : q.conns c = p.conns c)
    (hl : ∀ t, c ∈ p.connectionsOf t → c ∈ q.connectionsOf t) : p.Kept q c := by
  intro hopen
  rw [hc] at hopen ⊢
  exact ⟨hopen, rfl, rfl, hl⟩

lemma kept_of_eq (hc : q.conns = p.conns) (hl : q.tokenConnections = p.tokenConnections)
    (c : ConnectionId) : p.Kept q c := by
  refine Kept.of_eq (by rw [hc]) fun t ht => ?_
  unfold connectionsOf at ht ⊢
  rwa [hl]

lemma kept_checkedBy (hp : p.CheckedBy q) (c : ConnectionId) : p.Kept q c := by
  intro hopen
  have hc : q.conns c = p.conns c := by
    refine (hp.conns c).resolve_right fun hc => ?_
    rw [hc, closeConn_isOpen] at hopen
    cases hopen
  refine Kept.of_eq hc (fun t ht => ?_) hopen
  rw [mem_connectionsOf] at ht ⊢
  obtain ⟨cs, hget, hmem⟩ := ht
  refine ⟨cs, (hp.dropped t cs hget).resolve_right fun hclosed => ?_, hmem⟩
  rw [hclosed c hmem] at hopen
  cases hopen

/-- An update opens no connection. -/
lemma WF.isOpen_of_onUpdateTokenMessage (h : p.WF) {m : UpdateTokenMessage} {c : ConnectionId}
    (hopen : ((p.onUpdateTokenMessage m).conns c).isOpen) : (p.conns c).isOpen := by
  rcases h.onUpdateTokenMessage_cases m with ⟨heq, -⟩ | ⟨cs, rights, hup⟩
  · rwa [heq] at hopen
  · rw [hup.conns] at hopen
    split at hopen
    · exact hopen
    · exact hopen

lemma kept_handleDisconnect (c' c : ConnectionId) : p.Kept (p.handleDisconnect c') c := by
  intro hopen
  have hne : c ≠ c' := by
    rintro rfl
    simp [conns_handleDisconnect, WebSocketConnection.isOpen] at hopen
  refine Kept.of_eq (by rw [conns_handleDisconnect, if_neg hne]) (fun t ht => ?_) hopen
  rw [mem_connectionsOf] at ht ⊢
  obtain ⟨cs, hget, hmem⟩ := ht
  unfold Proxy.handleDisconnect
  exact mem_removeConnection_of_ne (p := { p.modify c' fun conn =>
    { conn with readyState := .closed } with docService := p.docService.disconnect c' }) hne hget hmem

lemma kept_accept {c' c : ConnectionId} (hne : c ≠ c') (payload : JWTPayload)
    (hc : q.conns = (p.accept c' payload).conns)
    (hl : q.tokenConnections = (p.accept c' payload).tokenConnections) : p.Kept q c := by
  refine Kept.of_eq (by rw [hc, conns_accept, if_neg hne]) fun t ht => ?_
  rw [mem_connectionsOf] at ht ⊢
  obtain ⟨cs, hget, hmem⟩ := ht
  rw [hl, get_accept]
  split
  · rename_i he
    exact ⟨_, rfl, List.mem_append_left _ (mem_connectionsOf.mpr ⟨cs, he ▸ hget, hmem⟩)⟩
  · exact ⟨cs, hget, hmem⟩

lemma mem_connectionsOf_accept (p : Proxy) (c : ConnectionId) (payload : JWTPayload) :
    c ∈ (p.accept c payload).connectionsOf payload.tokenId := by
  rw [mem_connectionsOf, get_accept, if_pos rfl]
  exact ⟨_, rfl, by simp⟩

end Proxy

namespace Node

/-- The connection has got its token from the handler that has just gone on. -/
structure Registered (n n' : Node) (a : NodeAction) (c : ConnectionId) (call : HandlerCall)
    (payload : JWTPayload) : Prop where
  resumed : a = .resume call
  called : call ∈ n.calls
  accepted : call.payload = some payload
  conn : call.conn = c
  opened : (n.proxy.conns c).isOpen
  tokenId : (n'.proxy.conns c).tokenId = some payload.tokenId
  issuer : (n'.proxy.conns c).issuer = some payload.consumerId
  listed : c ∈ n'.proxy.connectionsOf payload.tokenId

/-- A connection that has just been opened has no token. -/
lemma kept_of_opened {p q : Proxy} {c' : ConnectionId} (hnone : (q.conns c').tokenId = none)
    (hother : ∀ x, x ≠ c' → q.conns x = p.conns x)
    (hlists : q.tokenConnections = p.tokenConnections) {c : ConnectionId}
    (htoken : (q.conns c).tokenId ≠ none) : p.Kept q c := by
  have hne : c ≠ c' := by
    rintro rfl
    exact htoken hnone
  refine Proxy.Kept.of_eq (hother c hne) fun t ht => ?_
  unfold Proxy.connectionsOf at ht ⊢
  rwa [hlists]

/-- Where an open connection with a token comes from in a step that is no update. -/
lemma kept_or_registered {n n' : Node} {a : NodeAction}
    (ha : ∀ m, a ≠ .onUpdateTokenMessage m) (hs : n.step a = some n') (c : ConnectionId)
    (hopen : (n'.proxy.conns c).isOpen) (htoken : (n'.proxy.conns c).tokenId ≠ none) :
    n.proxy.Kept n'.proxy c ∨ ∃ call payload, Registered n n' a c call payload := by
  cases step_cases hs with
  | opening c' hc =>
    have hlists : (n.proxy.openConnection c').tokenConnections = n.proxy.tokenConnections := rfl
    have hnone : ((n.proxy.openConnection c').conns c').tokenId = none := by
      rw [Proxy.conns_openConnection, if_pos rfl]
      rfl
    refine .inl (kept_of_opened hnone (fun x hx => ?_) hlists htoken)
    rw [Proxy.conns_openConnection, if_neg hx]
  | opened c' hc =>
    refine .inl (kept_of_opened ?_ (Proxy.handleConnection_eq n.proxy c' none).2 ?_ htoken)
    · simp [Proxy.handleConnection, Proxy.initClient, Proxy.conns_openConnection,
        WebSocketConnection.new]
    · simp only [Proxy.handleConnection, Proxy.send_tokenConnections]
      rfl
  | failed c' d => exact .inl (Proxy.kept_of_eq rfl rfl c)
  | joined c' d status hc =>
    obtain ⟨hconns, hlists⟩ := Proxy.finishJoin_eq n.proxy c' d status
    exact .inl (Proxy.kept_of_eq hconns hlists c)
  | suspended a call hc hpay ha => exact .inl (Proxy.kept_of_eq rfl rfl c)
  | answered call answered hcall hans => exact .inl (Proxy.kept_of_eq rfl rfl c)
  | resumed call q hcall hq =>
    rcases Proxy.resume_accept hq with ⟨-, hc, hl⟩ | ⟨payload, hpay, hc, hl⟩
    · exact .inl (Proxy.kept_of_eq hc hl c)
    · by_cases he : c = call.conn
      · right
        refine ⟨call, payload, rfl, hcall, hpay, he.symm, ?_, ?_, ?_, ?_⟩
        · have hstate := Proxy.resume_readyState hq c
          unfold WebSocketConnection.isOpen at hopen ⊢
          rwa [hstate] at hopen
        · rw [hc, Proxy.conns_accept, if_pos he]
        · rw [hc, Proxy.conns_accept, if_pos he]
        · have hmem := Proxy.mem_connectionsOf_accept n.proxy call.conn payload
          unfold Proxy.connectionsOf at hmem ⊢
          rwa [hl, he]
      · exact .inl (Proxy.kept_accept he payload hc hl)
  | updated m => exact absurd rfl (ha m)
  | checked now =>
    exact .inl (Proxy.kept_checkedBy (Proxy.checkTokenExpiration_checkedBy n.proxy now) c)
  | disconnected c' hc => exact .inl (Proxy.kept_handleDisconnect c' c)

/-- A call with an accepted token has just been answered or was there before, at a connection
that was open already. -/
lemma answered_or_called {n n' : Node} {a : NodeAction} (h : n.WF) (hs : n.step a = some n')
    {call : HandlerCall} (hcall : call ∈ n'.calls) (hpay : call.payload ≠ none)
    (hopen : (n'.proxy.conns call.conn).isOpen) :
    (n.proxy.conns call.conn).isOpen ∧
      (call ∈ n.calls ∨ ∃ waiting, a = .apiAnswers waiting call) := by
  have hold {c : ConnectionId} (hc : (n.proxy.conns c).readyState = .connecting) :
      call ∈ n.calls → call.conn ≠ c := by
    intro hm he
    exact h.calls call hm (he ▸ hc)
  cases step_cases hs with
  | opening c hc =>
    rcases List.mem_cons.mp hcall with rfl | hm
    · exact absurd rfl hpay
    · rw [Proxy.conns_openConnection, if_neg (hold hc hm)] at hopen
      exact ⟨hopen, .inl hm⟩
  | opened c hc =>
    rw [(Proxy.handleConnection_eq n.proxy c none).2 _ (hold hc hcall)] at hopen
    exact ⟨hopen, .inl hcall⟩
  | failed c d => exact ⟨hopen, .inl hcall⟩
  | joined c d status hc =>
    rw [(Proxy.finishJoin_eq n.proxy c d status).1] at hopen
    exact ⟨hopen, .inl hcall⟩
  | suspended a waiting hc hnone ha =>
    rcases List.mem_cons.mp hcall with rfl | hm
    · exact absurd hnone hpay
    · exact ⟨hopen, .inl hm⟩
  | answered waiting answered hwaiting hans =>
    rcases List.mem_cons.mp hcall with rfl | hm
    · exact ⟨hopen, .inr ⟨waiting, rfl⟩⟩
    · exact ⟨hopen, .inl (List.mem_of_mem_erase hm)⟩
  | resumed call' q hcall' hq =>
    have hstate := Proxy.resume_readyState hq call.conn
    refine ⟨?_, .inl (List.mem_of_mem_erase hcall)⟩
    unfold WebSocketConnection.isOpen at hopen ⊢
    rwa [hstate] at hopen
  | updated m => exact ⟨h.proxy.isOpen_of_onUpdateTokenMessage hopen, .inl hcall⟩
  | checked now =>
    have hkept := Proxy.kept_checkedBy (Proxy.checkTokenExpiration_checkedBy n.proxy now) call.conn
    exact ⟨(hkept hopen).1, .inl hcall⟩
  | disconnected c hc => exact ⟨(Proxy.kept_handleDisconnect c call.conn hopen).1, .inl hcall⟩

end Node

namespace Delivery

/-- With no `applyToken` in flight and all messages delivered, no open connection holds a token
that a delivered message of its consumer has revoked. -/
def NoneRevoked (s : Delivery) : Prop :=
  (∀ call ∈ s.node.calls, call.appliesToken = false) → s.published = [] →
    ∀ c, (s.node.proxy.conns c).isOpen → ∀ m ∈ s.delivered,
      ¬((s.node.proxy.conns c).tokenId = some m.oldTokenId ∧
        (s.node.proxy.conns c).issuer = some m.consumerId)

/-- No accepted but unregistered token is revoked by the message. -/
def NotInFlight (s : Delivery) (m : UpdateTokenMessage) : Prop :=
  ∀ call ∈ s.node.calls, ∀ payload ∈ call.payload, (s.node.proxy.conns call.conn).isOpen →
    ¬m.Revokes payload.tokenId payload.consumerId

/-- The message overwrites no list of the new token with another open connection of it. -/
def NotOverwritten (s : Delivery) (m : UpdateTokenMessage) : Prop :=
  m.tokenId ≠ m.oldTokenId → s.node.proxy.connectionsOf m.oldTokenId ≠ [] →
    ∀ c ∈ s.node.proxy.connectionsOf m.tokenId, (s.node.proxy.conns c).isOpen →
      (s.node.proxy.conns c).tokenId = some m.tokenId → c ∈ s.node.proxy.connectionsOf m.oldTokenId

/-- The message moves no open connection to a token that is revoked for its consumer. -/
def NotRevived (s : Delivery) (m : UpdateTokenMessage) : Prop :=
  ∀ c ∈ s.node.proxy.connectionsOf m.oldTokenId, (s.node.proxy.conns c).isOpen →
    ∀ m' ∈ m :: s.delivered, m'.oldTokenId = m.tokenId →
      (s.node.proxy.conns c).issuer ≠ some m'.consumerId

def DeliverOk (s : Delivery) : DeliveryAction → Prop
  | .deliver m => s.NotInFlight m ∧ s.NotOverwritten m ∧ s.NotRevived m
  | _ => True

instance (s : Delivery) (m : UpdateTokenMessage) : Decidable (s.NotInFlight m) :=
  inferInstanceAs (Decidable (∀ call ∈ s.node.calls, _))

instance (s : Delivery) (m : UpdateTokenMessage) : Decidable (s.NotOverwritten m) :=
  inferInstanceAs (Decidable (_ → _ → ∀ c ∈ s.node.proxy.connectionsOf m.tokenId, _))

instance (s : Delivery) (m : UpdateTokenMessage) : Decidable (s.NotRevived m) :=
  inferInstanceAs (Decidable (∀ c ∈ s.node.proxy.connectionsOf m.oldTokenId, _))

instance (s : Delivery) (a : DeliveryAction) : Decidable (s.DeliverOk a) := by
  unfold DeliverOk
  split <;> infer_instance

structure Tracked (s : Delivery) : Prop where
  node : s.node.WF
  listed : ∀ c, (s.node.proxy.conns c).isOpen → ∀ t, (s.node.proxy.conns c).tokenId = some t →
    c ∈ s.node.proxy.connectionsOf t
  tainted : ∀ m, m ∈ s.published ∨ m ∈ s.delivered → (m.oldTokenId, m.consumerId) ∈ s.tainted
  pending : ∀ call ∈ s.node.calls, ∀ payload, call.payload = some payload →
    (s.node.proxy.conns call.conn).isOpen → ∀ m ∈ s.delivered,
      ¬m.Revokes payload.tokenId payload.consumerId
  current : ∀ c, (s.node.proxy.conns c).isOpen → ∀ m ∈ s.delivered,
    ¬((s.node.proxy.conns c).tokenId = some m.oldTokenId ∧
      (s.node.proxy.conns c).issuer = some m.consumerId)

lemma tracked_init : init.Tracked where
  node := Node.wf_init
  listed c hopen := by cases hopen
  tainted m hm := by simp [init] at hm
  pending call hcall := by simp [init, Node.init] at hcall
  current c hopen := by cases hopen

lemma Tracked.node_step {s : Delivery} (h : s.Tracked) {a : NodeAction} {n : Node}
    (hans : s.answers a) (hs : s.node.step a = some n) : { s with node := n }.Tracked := by
  have hnot : ∀ m, a ≠ .onUpdateTokenMessage m := by
    rintro m rfl
    cases hans
  refine ⟨Node.wf_step h.node hs, fun c hopen t ht => ?_, h.tainted,
    fun call hcall payload hpay hopen m hm => ?_, fun c hopen m hm ⟨ht, hk⟩ => ?_⟩
  · rcases Node.kept_or_registered hnot hs c hopen
      (Option.ne_none_iff_exists'.mpr ⟨_, ht⟩) with hkept | ⟨call, payload, hreg⟩
    · obtain ⟨hopen', htoken, -, hlists⟩ := hkept hopen
      exact hlists t (h.listed c hopen' t (htoken.symm.trans ht))
    · have he : payload.tokenId = t := Option.some.inj (hreg.tokenId.symm.trans ht)
      exact he ▸ hreg.listed
  · obtain ⟨hopen', hold | ⟨waiting, rfl⟩⟩ :=
      Node.answered_or_called h.node hs hcall (by simp [hpay]) hopen
    · exact h.pending call hold payload hpay hopen' m hm
    · -- the API has just accepted a token that was tainted before the message
      rintro ⟨hold, hcons⟩
      have htaint := h.tainted m (.inr hm)
      rw [hold, hcons] at htaint
      simp [answers, hpay, htaint] at hans
  · rcases Node.kept_or_registered hnot hs c hopen
      (Option.ne_none_iff_exists'.mpr ⟨_, ht⟩) with hkept | ⟨call, payload, hreg⟩
    · obtain ⟨hopen', htoken, hissuer, -⟩ := hkept hopen
      exact h.current c hopen' m hm ⟨htoken.symm.trans ht, hissuer.symm.trans hk⟩
    · refine h.pending call hreg.called payload hreg.accepted (hreg.conn ▸ hreg.opened) m hm ?_
      exact ⟨Option.some.inj (ht.symm.trans hreg.tokenId),
        Option.some.inj (hk.symm.trans hreg.issuer)⟩

lemma Tracked.deliver {s : Delivery} (h : s.Tracked) {m : UpdateTokenMessage}
    (hm : m ∈ s.published) (hok : s.DeliverOk (.deliver m)) :
    Tracked { s with
      node := { s.node with proxy := s.node.proxy.onUpdateTokenMessage m }
      published := s.published.erase m
      delivered := m :: s.delivered } := by
  obtain ⟨hflight, hover, hrevive⟩ := hok
  have hnode : (⟨s.node.proxy.onUpdateTokenMessage m, s.node.calls⟩ : Node).WF :=
    Node.wf_step (a := .onUpdateTokenMessage m) h.node rfl
  have htainted : ∀ m', m' ∈ s.published.erase m ∨ m' ∈ m :: s.delivered →
      (m'.oldTokenId, m'.consumerId) ∈ s.tainted := by
    rintro m' (hp | hd)
    · exact h.tainted m' (.inl (List.mem_of_mem_erase hp))
    · rcases List.mem_cons.mp hd with rfl | hd
      · exact h.tainted m' (.inl hm)
      · exact h.tainted m' (.inr hd)
  have hopened : ∀ c, ((s.node.proxy.onUpdateTokenMessage m).conns c).isOpen →
      (s.node.proxy.conns c).isOpen :=
    fun _ hopen => h.node.proxy.isOpen_of_onUpdateTokenMessage hopen
  have hpending : ∀ call ∈ s.node.calls, ∀ payload, call.payload = some payload →
      ((s.node.proxy.onUpdateTokenMessage m).conns call.conn).isOpen → ∀ m' ∈ m :: s.delivered,
        ¬m'.Revokes payload.tokenId payload.consumerId := by
    intro call hcall payload hpay hopen m' hm'
    rcases List.mem_cons.mp hm' with rfl | hd
    · exact hflight call hcall payload hpay (hopened _ hopen)
    · exact h.pending call hcall payload hpay (hopened _ hopen) m' hd
  -- a connection that the message leaves alone does not hold the revoked token
  have hmissed : ∀ c, (s.node.proxy.conns c).isOpen → c ∉ s.node.proxy.connectionsOf m.oldTokenId →
      ∀ m' ∈ m :: s.delivered, ¬((s.node.proxy.conns c).tokenId = some m'.oldTokenId ∧
        (s.node.proxy.conns c).issuer = some m'.consumerId) := by
    rintro c hopen hnot m' hm' ⟨ht, hk⟩
    rcases List.mem_cons.mp hm' with rfl | hd
    · exact hnot (h.listed c hopen _ ht)
    · exact h.current c hopen m' hd ⟨ht, hk⟩
  rcases h.node.proxy.onUpdateTokenMessage_cases m with ⟨heq, hnone⟩ | ⟨cs, rights, hup⟩
  · have hempty : ∀ c, c ∉ s.node.proxy.connectionsOf m.oldTokenId := by
      intro c
      simp [Proxy.connectionsOf, hnone]
    refine ⟨hnode, fun c hopen t ht => ?_, htainted, hpending, fun c hopen => ?_⟩
    · simp only [heq] at hopen ht ⊢
      exact h.listed c hopen t ht
    · simp only [heq] at hopen ⊢
      exact hmissed c hopen (hempty c)
  · have hcs : s.node.proxy.connectionsOf m.oldTokenId = cs := by
      simp [Proxy.connectionsOf, hup.listed]
    have hne : cs ≠ [] := (h.node.proxy.listed _ cs hup.listed).1
    rw [NotOverwritten, hcs] at hover
    rw [NotRevived, hcs] at hrevive
    rw [hcs] at hmissed
    refine ⟨hnode, fun c hopen t ht => ?_, htainted, hpending, fun c hopen m' hm' => ?_⟩
    · have hopen' := hopened c hopen
      simp only [Proxy.mem_connectionsOf]
      simp only [hup.lists]
      by_cases hc : c ∈ cs
      · simp only [hup.conns, if_pos hc] at ht
        have he : m.tokenId = t := Option.some.inj ht
        exact ⟨cs, by rw [if_pos he.symm], hc⟩
      · simp only [hup.conns, if_neg hc] at ht
        have hmem := h.listed c hopen' t ht
        have hold : t ≠ m.oldTokenId := by
          rintro rfl
          exact hc (hcs ▸ hmem)
        have hnew : t ≠ m.tokenId := by
          rintro rfl
          exact hc (hover hold hne c hmem hopen' ht)
        obtain ⟨cs', hget, hmem'⟩ := Proxy.mem_connectionsOf.mp hmem
        exact ⟨cs', by rw [if_neg hnew, if_neg hold, hget], hmem'⟩
    · have hopen' := hopened c hopen
      simp only [hup.conns]
      by_cases hc : c ∈ cs
      · rw [if_pos hc]
        rintro ⟨ht, hk⟩
        exact hrevive c hc hopen' m' hm' (Option.some.inj ht).symm hk
      · rw [if_neg hc]
        exact hmissed c hopen' hc m' hm'

lemma tracked_step {s s' : Delivery} {a : DeliveryAction} (h : s.Tracked) (hok : s.DeliverOk a)
    (hs : s.step a = some s') : s'.Tracked := by
  cases a with
  | node a =>
    simp only [step, Option.ite_none_right_eq_some, Option.map_eq_some_iff] at hs
    obtain ⟨hans, n, hn, rfl⟩ := hs
    exact h.node_step hans hn
  | taint tokenId consumerId =>
    cases hs
    exact ⟨h.node, h.listed, fun m hm => List.mem_cons_of_mem _ (h.tainted m hm), h.pending,
      h.current⟩
  | publish m =>
    simp only [step, Option.ite_none_right_eq_some, Option.some.injEq] at hs
    obtain ⟨htaint, rfl⟩ := hs
    refine ⟨h.node, h.listed, ?_, h.pending, h.current⟩
    rintro m' (hp | hd)
    · rcases List.mem_cons.mp hp with rfl | hp
      · exact htaint
      · exact h.tainted m' (.inl hp)
    · exact h.tainted m' (.inr hd)
  | deliver m =>
    simp only [step, Option.ite_none_right_eq_some, Option.some.injEq] at hs
    obtain ⟨hm, rfl⟩ := hs
    exact h.deliver hm hok

/-- In runs whose deliveries meet `DeliverOk`, no revocation is lost. -/
theorem no_revocation_lost (as : List DeliveryAction) (s : Delivery)
    (hrun : Stepper.run step init as = some s) (hok : Stepper.Guarded step DeliverOk init as) :
    s.NoneRevoked := by
  have hinv := Stepper.run_invariant Tracked (fun _ _ _ h hg hs => tracked_step h hg hs)
    hrun hok tracked_init
  intro _ _
  exact hinv.current

/-- The payload of the token "t" and the message that replaces it by "u". -/
def oldToken : JWTPayload := ⟨"t", "consumer", "user", none, []⟩

def replaceToken : UpdateTokenMessage := ⟨"jwt", "u", "t", "consumer", "user", none, []⟩

/-- The message finds the connection registered. -/
theorem no_revocation_lost_after_registration :
    ∃ s, Stepper.run step init [.node (.handleConnection "c" true),
        .node (.apiAnswers (.handleConnection "c" none)
          (.handleConnection "c" (some (.ok oldToken)))),
        .node (.resume (.handleConnection "c" (some (.ok oldToken)))),
        .taint "t" "consumer", .publish replaceToken, .deliver replaceToken] = some s ∧
      s.NoneRevoked := by
  obtain ⟨s, hrun⟩ : ∃ s, Stepper.run step init [.node (.handleConnection "c" true),
      .node (.apiAnswers (.handleConnection "c" none)
        (.handleConnection "c" (some (.ok oldToken)))),
      .node (.resume (.handleConnection "c" (some (.ok oldToken)))),
      .taint "t" "consumer", .publish replaceToken, .deliver replaceToken] = some s := ⟨_, rfl⟩
  exact ⟨s, hrun, no_revocation_lost _ s hrun (by decide)⟩

/-- The message comes between the API's answer and the registration. -/
theorem revocation_lost_in_flight :
    ¬∀ (as : List DeliveryAction) (s : Delivery), Stepper.run step init as = some s →
      s.NoneRevoked := by
  intro h
  have hrun := h [.node (.handleConnection "c" true),
    .node (.apiAnswers (.handleConnection "c" none) (.handleConnection "c" (some (.ok oldToken)))),
    .taint "t" "consumer", .publish replaceToken, .deliver replaceToken,
    .node (.resume (.handleConnection "c" (some (.ok oldToken))))] _ rfl (by decide) (by decide) "c"
    (by decide) replaceToken (by decide)
  revert hrun
  decide

end Delivery

end AlaFois
