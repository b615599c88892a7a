import AlaFois.Model.Gateway
import AlaFois.Proofs.Disconnection

/-!
# Rights at the calls of actors

The checks of the message handlers look at the table of the connection and at the public
documents that joins have found. A document gets there only after the API has said that it is
public, and between a check and the call of the actor nothing else runs.
-/

namespace AlaFois

namespace Proxy

/-! ### The public documents of an instance -/

variable (p : Proxy)

@[simp] lemma modify_publicDocs (c : ConnectionId) (f) :
    (p.modify c f).publicDocs = p.publicDocs := rfl
@[simp] lemma send_publicDocs (c : ConnectionId) (m : ServerMessage) :
    (p.send c m).publicDocs = p.publicDocs := by unfold send; split <;> rfl
@[simp] lemma close_publicDocs (c : ConnectionId) : (p.close c).publicDocs = p.publicDocs := by
  unfold close; split <;> rfl

@[simp] lemma removeConnection_publicDocs (c : ConnectionId) :
    (p.removeConnection c).publicDocs = p.publicDocs := by
  unfold removeConnection
  split
  · rfl
  · split
    · rfl
    · split <;> rfl

@[simp] lemma applyToken_publicDocs (c : ConnectionId) (response : CheckClientTokenResponse) :
    (p.applyToken c response).1.publicDocs = p.publicDocs := by
  cases response with
  | ok payload => rw [applyToken_ok]; rfl
  | error status => rfl

@[simp] lemma finishJoin_publicDocs (c : ConnectionId) (d : DocKey) (status : Status) :
    (p.finishJoin c d status).publicDocs = p.publicDocs := by
  cases status <;> simp [finishJoin]

@[simp] lemma onSetToken_publicDocs (c : ConnectionId) (response : CheckClientTokenResponse) :
    (p.onSetToken c response).publicDocs = p.publicDocs := by
  cases response with
  | ok payload => simp [onSetToken, applyToken_ok, accept]
  | error status => simp [onSetToken, applyToken]

@[simp] lemma connectionAnswered_publicDocs (c : ConnectionId)
    (response : CheckClientTokenResponse) :
    (p.connectionAnswered c response).publicDocs = p.publicDocs := by
  simp [connectionAnswered]

@[simp] lemma handleConnection_publicDocs (c : ConnectionId)
    (token : Option CheckClientTokenResponse) :
    (p.handleConnection c token).publicDocs = p.publicDocs := by
  cases token with
  | none => simp [handleConnection, initClient, openConnection]
  | some response => simp [handleConnection, initClient, openConnection]

lemma joinAnswered_publicDocs (c : ConnectionId) (d : DocKey) (response : DocIsPublicResponse) :
    (p.joinAnswered c d response).publicDocs =
      if response = .ok true then p.publicDocs.set d true else p.publicDocs := by
  rcases response with (_ | _) | _ <;> simp [joinAnswered, docIsPublicAnswered]

lemma updateConnections_publicDocs (m : UpdateTokenMessage) (diff : TokenRightsDiff)
    (cs : List ConnectionId) :
    (cs.foldl (updateConnection m diff) p).publicDocs = p.publicDocs := by
  induction cs generalizing p with
  | nil => rfl
  | cons c cs ih =>
    rw [List.foldl_cons, ih]
    simp [updateConnection]

@[simp] lemma onUpdateTokenMessage_publicDocs (m : UpdateTokenMessage) :
    (p.onUpdateTokenMessage m).publicDocs = p.publicDocs := by
  unfold onUpdateTokenMessage
  split
  · rfl
  · split
    · rfl
    · exact updateConnections_publicDocs p m _ _

lemma expireConnections_publicDocs (cs : List ConnectionId) :
    (expireConnections cs p).1.publicDocs = p.publicDocs := by
  induction cs generalizing p with
  | nil => rfl
  | cons c cs ih =>
    unfold expireConnections
    split
    · rfl
    · dsimp only
      rw [ih]
      simp

@[simp] lemma checkTokenExpiration_publicDocs (now : Int) :
    (p.checkTokenExpiration now).publicDocs = p.publicDocs := by
  unfold checkTokenExpiration
  generalize p.tokenConnections.entries = es
  induction es generalizing p with
  | nil => rfl
  | cons e es ih =>
    obtain ⟨t, _ | ⟨c, cs⟩⟩ := e
    · rfl
    · simp only [checkLists]
      split
      · exact ih p
      · split
        · exact ih p
        · have hexp := expireConnections_publicDocs p (c :: cs)
          split
          · rename_i q hq
            rwa [hq] at hexp
          · rename_i q hq
            rw [hq] at hexp
            exact (ih _).trans hexp

@[simp] lemma handleDisconnect_publicDocs (c : ConnectionId) :
    (p.handleDisconnect c).publicDocs = p.publicDocs := by
  simp [handleDisconnect]

@[simp] lemma sendAll_eq (messages : List Sent) :
    (p.sendAll messages).conns = p.conns ∧ (p.sendAll messages).docService = p.docService ∧
      (p.sendAll messages).tokenConnections = p.tokenConnections ∧
      (p.sendAll messages).publicDocs = p.publicDocs := by
  unfold sendAll
  induction messages generalizing p with
  | nil => exact ⟨rfl, rfl, rfl, rfl⟩
  | cons message messages ih => simpa using ih (p.send message.1 message.2)

end Proxy

namespace Node

/-- A document becomes known as public when an answer of the API that says so is taken up, and
stays known. -/
lemma publicDocs_step {n n' : Node} {a : NodeAction} (hs : n.step a = some n') (d : DocKey) :
    n'.proxy.publicDocs.has d = true ↔ n.proxy.publicDocs.has d = true ∨
      ∃ c, a = .resume (.onJoin c d (some (.ok true))) := by
  cases step_cases hs with
  | opening c hc => simp [Proxy.openConnection]
  | opened c hc => simp
  | failed c d => simp
  | joined c d status hc => simp
  | suspended a call hc hpay ha =>
    have hne : ¬∃ c, a = .resume (.onJoin c d (some (.ok true))) := by
      rintro ⟨c, rfl⟩
      rcases ha with ⟨c, d, ha⟩ | ⟨c, ha⟩ <;> cases ha
    exact (or_iff_left hne).symm
  | answered call answered hcall hans => simp
  | resumed call q hcall hq =>
    cases call with
    | handleConnection c answer =>
      rcases answer with _ | response
      · cases hq
      · cases hq
        simp
    | onJoin c d' answer =>
      rcases answer with _ | response
      · cases hq
      · cases hq
        rw [Proxy.joinAnswered_publicDocs]
        by_cases hr : response = .ok true
        · subst hr
          by_cases hd : d' = d
          · subst hd
            simp [JsMap.has]
          · simp [JsMap.has, JsMap.get_set_ne _ _ (Ne.symm hd), hd]
        · simp [hr]
    | onSetToken c answer =>
      rcases answer with _ | response
      · cases hq
      · cases hq
        simp
  | updated m => simp
  | checked now => simp
  | disconnected c hc => simp

/-- Calls get into the list when they start to wait and when the API answers them. -/
lemma mem_calls_step {n n' : Node} {a : NodeAction} (hs : n.step a = some n') {call : HandlerCall}
    (hcall : call ∈ n'.calls) : call ∈ n.calls ∨
      (∃ c, call = .handleConnection c none ∧ a = .handleConnection c true) ∨
      (∃ c d, call = .onJoin c d none) ∨ (∃ c, call = .onSetToken c none ∧ a = .onSetToken c) ∨
      ∃ asked ∈ n.calls, asked.answeredBy call = true ∧ a = .apiAnswers asked call := by
  cases a with
  | handleConnection c hasToken =>
    simp only [step, Option.ite_none_right_eq_some] at hs
    obtain ⟨-, hs⟩ := hs
    cases hasToken with
    | true =>
      cases hs
      rcases List.mem_cons.mp hcall with rfl | hold
      · exact .inr (.inl ⟨c, rfl, rfl⟩)
      · exact .inl hold
    | false =>
      cases hs
      exact .inl hcall
  | onJoin c d =>
    simp only [step, Option.ite_none_right_eq_some] at hs
    obtain ⟨-, hs⟩ := hs
    split at hs
    · cases hs
      exact .inl hcall
    · cases hs
      exact .inl hcall
    · cases hs
      exact .inl hcall
    · cases hs
      rcases List.mem_cons.mp hcall with rfl | hold
      · exact .inr (.inr (.inl ⟨c, d, rfl⟩))
      · exact .inl hold
  | onSetToken c =>
    simp only [step, Option.ite_none_right_eq_some, Option.some.injEq] at hs
    obtain ⟨-, rfl⟩ := hs
    rcases List.mem_cons.mp hcall with rfl | hold
    · exact .inr (.inr (.inr (.inl ⟨c, rfl, rfl⟩)))
    · exact .inl hold
  | apiAnswers asked answered =>
    simp only [step, Option.ite_none_right_eq_some, Option.some.injEq] at hs
    obtain ⟨⟨hasked, hans⟩, rfl⟩ := hs
    rcases List.mem_cons.mp hcall with rfl | hold
    · exact .inr (.inr (.inr (.inr ⟨asked, hasked, hans, rfl⟩)))
    · exact .inl (List.mem_of_mem_erase hold)
  | resume call' =>
    simp only [step, Option.ite_none_right_eq_some, Option.map_eq_some_iff] at hs
    obtain ⟨-, q, -, rfl⟩ := hs
    exact .inl (List.mem_of_mem_erase hcall)
  | onUpdateTokenMessage m =>
    cases hs
    exact .inl hcall
  | checkTokenExpiration now =>
    cases hs
    exact .inl hcall
  | handleDisconnect c =>
    simp only [step, Option.ite_none_right_eq_some, Option.some.injEq] at hs
    obtain ⟨-, rfl⟩ := hs
    exact .inl hcall

end Node

/-- The right that a method of the actor is guarded by. -/
def ActorCall.right : ActorCall → Right
  | .applyDiff _ _ => .write
  | .syncStart _ => .read
  | .syncComplete _ _ => .write

def allows (right : Right) (access : Access) (d : DocKey) : Bool :=
  (access.get d).any (right ∈ ·.rights)

lemma Proxy.checkAccess_eq (right : Right) (p : Proxy) (c : ConnectionId) (d : DocKey) :
    p.checkAccess right c d = (p.conns c).access.map fun access =>
      if allows right access d || p.publicDocs.has d then .ok else .err "Unauthorized" := by
  unfold Proxy.checkAccess allows
  cases (p.conns c).access with
  | none => rfl
  | some access =>
    dsimp only [Option.map_some]
    split
    · rename_i h
      simp [h]
    · rename_i h
      split
      · rename_i hpub
        simp [hpub]
      · rename_i hpub
        simp [h, hpub]

lemma Proxy.checkAccess_ok {right : Right} {p : Proxy} {c : ConnectionId} {d : DocKey}
    (h : p.checkAccess right c d = some .ok) : ∃ access, (p.conns c).access = some access ∧
      (allows right access d = true ∨ p.publicDocs.has d = true) := by
  rw [checkAccess_eq] at h
  obtain ⟨access, haccess, hif⟩ := Option.map_eq_some_iff.mp h
  refine ⟨access, haccess, ?_⟩
  split at hif
  · simpa using ‹(_ || _) = true›
  · cases hif

namespace Gateway

/-- The same handlers wait for the API, and only messages have been sent. -/
structure Same (g g' : Gateway) : Prop where
  calls : g'.node.calls = g.node.calls
  conns : g'.node.proxy.conns = g.node.proxy.conns
  docService : g'.node.proxy.docService = g.node.proxy.docService
  tokenConnections : g'.node.proxy.tokenConnections = g.node.proxy.tokenConnections
  publicDocs : g'.node.proxy.publicDocs = g.node.proxy.publicDocs

variable {g g' : Gateway}

lemma Same.refl (g : Gateway) : g.Same g := ⟨rfl, rfl, rfl, rfl, rfl⟩

lemma same_waiting (g : Gateway) (waiting : List ActorRequest) :
    g.Same { g with waiting := waiting } := ⟨rfl, rfl, rfl, rfl, rfl⟩

lemma Same.trans {h : Gateway} (hg : g.Same g') (hh : g'.Same h) : g.Same h :=
  ⟨hh.calls.trans hg.calls, hh.conns.trans hg.conns, hh.docService.trans hg.docService,
    hh.tokenConnections.trans hg.tokenConnections, hh.publicDocs.trans hg.publicDocs⟩

lemma same_send (g : Gateway) (c : ConnectionId) (m : ServerMessage) : g.Same (g.send c m) :=
  ⟨rfl, Proxy.send_conns _ c m, Proxy.send_docService _ c m, Proxy.send_tokenConnections _ c m,
    Proxy.send_publicDocs _ c m⟩

lemma same_sendAll (g : Gateway) (messages : List Sent) : g.Same (g.sendAll messages) := by
  obtain ⟨h₁, h₂, h₃, h₄⟩ := Proxy.sendAll_eq g.node.proxy messages
  exact ⟨rfl, h₁, h₂, h₃, h₄⟩

lemma same_applied (g : Gateway) (c : ConnectionId) (result : Except NotJoinedError ApplyEffects) :
    g.Same (g.applied c result).1 := by
  cases result with
  | error e => exact same_send g c _
  | ok effects => exact (same_sendAll g effects.sent).trans (same_waiting _ _)

lemma same_actorReplied (g : Gateway) (request : ActorRequest) (reply : ActorReply) :
    g.Same (g.actorReplied request reply) := by
  unfold actorReplied
  split
  · split
    · exact same_send g _ _
    · exact Same.refl g
  · exact same_send g _ _
  · exact Same.refl g
  · exact same_send g _ _

lemma Same.wf (h : g.Same g') (hw : g.node.WF) : g'.node.WF := by
  refine ⟨hw.proxy.congr h.conns h.docService h.tokenConnections, ?_⟩
  rw [h.calls, h.conns]
  exact hw.calls

/-- A request that is emitted has passed the check of its method. -/
def Checked (g : Gateway) (r : ActorRequest) : Prop :=
  g.node.proxy.checkAccess r.call.right r.conn r.docId = some .ok ∧
    ∀ changes userId, r.call = .applyDiff changes userId →
      g.node.proxy.docService.Holds r.docId r.conn

lemma onChanges_spec (g : Gateway) (c : ConnectionId) (d : DocKey) (changes : Changes) :
    g.Same (g.onChanges c d changes).1 ∧ ∀ r ∈ (g.onChanges c d changes).2.actorCalls,
      g.Checked r := by
  unfold onChanges
  split
  · exact ⟨Same.refl g, by simp [Emitted.none]⟩
  · exact ⟨same_send g c _, by simp [Emitted.none]⟩
  · rename_i hcheck
    refine ⟨same_applied g c _, fun r hr => ?_⟩
    unfold DocService.applyChanges at hr
    cases hassert : g.node.proxy.docService.assertClientJoined c d with
    | error e => simp [hassert, Except.map, applied, Emitted.none] at hr
    | ok m =>
      obtain ⟨doc, hd, -, hc⟩ := DocService.assertClientJoined_ok hassert
      simp only [hassert, Except.map, applied, Option.toList_some, List.map_cons, List.map_nil,
        List.mem_singleton] at hr
      subst hr
      exact ⟨hcheck, fun _ _ _ => ⟨doc, hd, hc⟩⟩

lemma onSyncStart_spec (g : Gateway) (c : ConnectionId) (d : DocKey) (vector : StateVector) :
    g.Same (g.onSyncStart c d vector).1 ∧ ∀ r ∈ (g.onSyncStart c d vector).2.actorCalls,
      g.Checked r := by
  unfold onSyncStart
  split
  · exact ⟨Same.refl g, by simp [Emitted.none]⟩
  · exact ⟨same_send g c _, by simp [Emitted.none]⟩
  · rename_i hcheck
    refine ⟨same_waiting g _, fun r hr => ?_⟩
    cases List.mem_singleton.mp hr
    exact ⟨hcheck, fun _ _ h => nomatch h⟩

lemma onSyncComplete_spec (g : Gateway) (c : ConnectionId) (d : DocKey) (changes : Changes) :
    g.Same (g.onSyncComplete c d changes).1 ∧ ∀ r ∈ (g.onSyncComplete c d changes).2.actorCalls,
      g.Checked r := by
  unfold onSyncComplete
  split
  · exact ⟨Same.refl g, by simp [Emitted.none]⟩
  · exact ⟨same_send g c _, by simp [Emitted.none]⟩
  · rename_i hcheck
    refine ⟨Same.refl g, fun r hr => ?_⟩
    cases List.mem_singleton.mp hr
    exact ⟨hcheck, fun _ _ h => nomatch h⟩

lemma onAwareness_spec (g : Gateway) (c : ConnectionId) (d : DocKey) (awareness : Changes) :
    g.Same (g.onAwareness c d awareness).1 ∧ (g.onAwareness c d awareness).2.actorCalls = [] := by
  refine ⟨same_applied g c _, ?_⟩
  unfold onAwareness DocService.applyAwareness
  cases g.node.proxy.docService.assertClientJoined c d <;> rfl

/-- What a step does: a step of the node that emits nothing, or messages and checked calls. -/
theorem step_cases {isPublic : DocKey → Bool} {a : GatewayAction} {e : Emitted}
    (hs : g.step isPublic a = some (g', e)) :
    (∃ na n, a = .node na ∧ na.tells isPublic = true ∧ g.node.step na = some n ∧
      g' = { g with node := n } ∧ e.actorCalls = []) ∨
      (∀ na, a ≠ .node na) ∧ g.Same g' ∧ ∀ r ∈ e.actorCalls, g.Checked r := by
  cases a with
  | node na =>
    simp only [step, Option.ite_none_right_eq_some, Option.map_eq_some_iff] at hs
    obtain ⟨htells, n, hn, he⟩ := hs
    cases he
    exact .inl ⟨na, n, rfl, htells, hn, rfl, rfl⟩
  | onChanges c d changes =>
    simp only [step, Option.ite_none_right_eq_some, Option.some.injEq] at hs
    obtain ⟨-, he⟩ := hs
    have hspec := onChanges_spec g c d changes
    rw [he] at hspec
    exact .inr ⟨by simp, hspec⟩
  | onSyncStart c d vector =>
    simp only [step, Option.ite_none_right_eq_some, Option.some.injEq] at hs
    obtain ⟨-, he⟩ := hs
    have hspec := onSyncStart_spec g c d vector
    rw [he] at hspec
    exact .inr ⟨by simp, hspec⟩
  | onSyncComplete c d changes =>
    simp only [step, Option.ite_none_right_eq_some, Option.some.injEq] at hs
    obtain ⟨-, he⟩ := hs
    have hspec := onSyncComplete_spec g c d changes
    rw [he] at hspec
    exact .inr ⟨by simp, hspec⟩
  | onAwareness c d awareness =>
    simp only [step, Option.ite_none_right_eq_some, Option.some.injEq] at hs
    obtain ⟨-, he⟩ := hs
    obtain ⟨hsame, hnil⟩ := onAwareness_spec g c d awareness
    rw [he] at hsame hnil
    have hempty : e.actorCalls = [] := hnil
    exact .inr ⟨by simp, hsame, by simp [hempty]⟩
  | actorReplies request reply =>
    simp only [step, Option.ite_none_right_eq_some, Option.some.injEq] at hs
    obtain ⟨-, he⟩ := hs
    cases he
    refine .inr ⟨by simp, (same_waiting g _).trans (same_actorReplied _ request reply), ?_⟩
    simp [Emitted.none]
  | onPubsubMessage m =>
    cases hs
    exact .inr ⟨by simp, same_sendAll g _, by simp [Emitted.none]⟩

end Gateway

namespace Site

variable {objectId : DocKey → Option ObjectId} {s s' : Site}

/-- What is known or about to become known as public is public. -/
structure WF (objectId : DocKey → Option ObjectId) (s : Site) : Prop where
  node : s.gateway.node.WF
  known : ∀ d, s.gateway.node.proxy.publicDocs.has d = true → s.isPublic objectId d = true
  answered : ∀ c d, .onJoin c d (some (.ok true)) ∈ s.gateway.node.calls →
    s.isPublic objectId d = true

lemma wf_init : init.WF objectId where
  node := Node.wf_init
  known d h := by cases h
  answered c d h := by cases h

/-- What one action of the site does. -/
theorem step_cases {a : SiteAction} (hs : s.step objectId a = some s') :
    (∃ na n, a = .gateway (.node na) ∧ na.tells (s.isPublic objectId) = true ∧
      s.gateway.node.step na = some n ∧
      s' = { s with
        gateway := { s.gateway with node := n }
        granted := s.gateway.node.grants na ++ s.granted }) ∨
      (∃ ga g, a = .gateway ga ∧ (∀ na, ga ≠ .node na) ∧ s.gateway.Same g ∧
        s' = { s with gateway := g }) ∨
      ∃ id isPublic, a = .createDoc id isPublic ∧ s.publicFlags.get id = none ∧
        s' = { s with publicFlags := s.publicFlags.set id isPublic } := by
  cases a with
  | gateway ga =>
    simp only [step, Option.map_eq_some_iff] at hs
    obtain ⟨⟨g, e⟩, hg, rfl⟩ := hs
    rcases Gateway.step_cases hg with ⟨na, n, rfl, htells, hn, rfl, -⟩ | ⟨hne, hsame, -⟩
    · exact .inl ⟨na, n, rfl, htells, hn, rfl⟩
    · refine .inr (.inl ⟨ga, g, rfl, hne, hsame, ?_⟩)
      have hgrants : s.gateway.grants ga = [] := by
        cases ga with
        | node na => exact absurd rfl (hne na)
        | _ => rfl
      simp [hgrants]
  | createDoc id isPublic =>
    simp only [step, Option.ite_none_right_eq_some, Option.some.injEq] at hs
    exact .inr (.inr ⟨id, isPublic, rfl, hs.1, hs.2.symm⟩)

/-- The flag of a stored document stays. -/
lemma publicFlag_step {a : SiteAction} (hs : s.step objectId a = some s') {d : DocKey} {b : Bool}
    (hd : s.publicFlag objectId d = some b) : s'.publicFlag objectId d = some b := by
  rcases step_cases hs with ⟨na, n, -, -, -, rfl⟩ | ⟨ga, g, -, -, -, rfl⟩ | ⟨id, flag, -, hnew, rfl⟩
  · exact hd
  · exact hd
  · unfold publicFlag at hd ⊢
    cases ho : objectId d with
    | none => simp [ho] at hd
    | some id' =>
      simp only [ho, Option.bind_some] at hd ⊢
      have hne : id' ≠ id := by
        rintro rfl
        rw [hnew] at hd
        cases hd
      rw [JsMap.get_set_ne _ _ hne, hd]

lemma isPublic_step {a : SiteAction} (hs : s.step objectId a = some s') {d : DocKey}
    (hd : s.isPublic objectId d = true) : s'.isPublic objectId d = true := by
  simp only [isPublic, decide_eq_true_eq] at hd ⊢
  exact publicFlag_step hs hd

theorem wf_step {a : SiteAction} (h : s.WF objectId) (hs : s.step objectId a = some s') :
    s'.WF objectId := by
  have hpub : ∀ d, s.isPublic objectId d = true → s'.isPublic objectId d = true :=
    fun d => isPublic_step hs
  rcases step_cases hs with ⟨na, n, -, htells, hn, rfl⟩ | ⟨ga, g, -, -, hsame, rfl⟩ |
    ⟨id, flag, -, -, rfl⟩
  · refine ⟨Node.wf_step h.node hn, fun d hd => ?_, fun c d hcall => ?_⟩
    · rcases (Node.publicDocs_step hn d).mp hd with hold | ⟨c, rfl⟩
      · exact h.known d hold
      · cases Node.step_cases hn with
        | resumed call q hcall hq => exact h.answered c d hcall
        | suspended a call hc hpay ha => rcases ha with ⟨c, d, ha⟩ | ⟨c, ha⟩ <;> cases ha
    · rcases Node.mem_calls_step hn hcall with hold | ⟨c', hcall, -⟩ | ⟨c', d', hcall⟩ |
        ⟨c', hcall, -⟩ | ⟨asked, -, -, rfl⟩
      · exact h.answered c d hold
      · cases hcall
      · cases hcall
      · cases hcall
      · simp only [NodeAction.tells, decide_eq_true_eq] at htells
        exact hpub d htells.symm
  · refine ⟨hsame.wf h.node, fun d hd => h.known d ?_, fun c d hcall => h.answered c d ?_⟩
    · rwa [← hsame.publicDocs]
    · rwa [← hsame.calls]
  · exact ⟨h.node, fun d hd => hpub d (h.known d hd), fun c d hc => hpub d (h.answered c d hc)⟩

lemma wf_run {as : List SiteAction} (hrun : Stepper.run (step objectId) init as = some s) :
    s.WF objectId :=
  Stepper.run_invariant_of_step (WF objectId) (fun _ _ _ h hs => wf_step h hs) hrun wf_init

/-- The table of the connection has the right that the call needs, or the document is public, and
changes come from a member. -/
def Permits (objectId : DocKey → Option ObjectId) (s : Site) (r : ActorRequest) : Prop :=
  ((s.gateway.node.proxy.conns r.conn).access.any (allows r.call.right · r.docId) = true ∨
      s.isPublic objectId r.docId = true) ∧
    ∀ changes userId, r.call = .applyDiff changes userId →
      s.gateway.node.proxy.docService.Holds r.docId r.conn

lemma WF.permits (h : s.WF objectId) {r : ActorRequest} (hr : s.gateway.Checked r) :
    s.Permits objectId r := by
  obtain ⟨access, haccess, hok⟩ := Proxy.checkAccess_ok hr.1
  refine ⟨?_, hr.2⟩
  rw [haccess, Option.any_some]
  exact hok.imp_right (h.known r.docId)

end Site

/-! ### Connections without an accepted token -/

namespace Node

/-- Without a table, and in no list from which an update could give it one. -/
def Unauthorized (n : Node) (c : ConnectionId) : Prop :=
  (n.proxy.conns c).access = none ∧
    ∀ t cs, n.proxy.tokenConnections.get t = some cs → c ∉ cs

/-- The actions that give the connection a table. -/
def authorizes (c : ConnectionId) : NodeAction → Bool
  | .handleConnection c' false => c' = c
  | .resume call => call.conn = c ∧ call.payload ≠ none
  | _ => false

lemma unauthorized_step {n n' : Node} {a : NodeAction} {c : ConnectionId} (h : n.WF)
    (hn : n.Unauthorized c) (ha : authorizes c a = false) (hs : n.step a = some n') :
    n'.Unauthorized c := by
  obtain ⟨haccess, hlists⟩ := hn
  cases step_cases hs with
  | opening c' hc =>
    refine ⟨?_, hlists⟩
    rw [Proxy.conns_openConnection]
    split
    · rfl
    · exact haccess
  | opened c' hc =>
    have hne : c ≠ c' := by
      rintro rfl
      simp [authorizes] at ha
    refine ⟨?_, fun t cs ht => hlists t cs ?_⟩
    · rw [(Proxy.handleConnection_eq n.proxy c' none).2 c hne]
      exact haccess
    · simpa [Proxy.handleConnection, Proxy.initClient, Proxy.openConnection] using ht
  | failed c' d => exact ⟨haccess, hlists⟩
  | joined c' d status hc =>
    obtain ⟨hconns, htok⟩ := Proxy.finishJoin_eq n.proxy c' d status
    exact ⟨by rw [hconns]; exact haccess, by rw [htok]; exact hlists⟩
  | suspended a call hc hpay ha' => exact ⟨haccess, hlists⟩
  | answered call answered hcall hans => exact ⟨haccess, hlists⟩
  | resumed call q hcall hq =>
    rcases Proxy.resume_accept hq with ⟨-, hconns, htok⟩ | ⟨payload, hpay, hconns, htok⟩
    · exact ⟨by rw [hconns]; exact haccess, by rw [htok]; exact hlists⟩
    · have hne : c ≠ call.conn := by
        rintro rfl
        simp [authorizes, hpay] at ha
      refine ⟨?_, fun t cs ht => ?_⟩
      · rw [hconns, Proxy.conns_accept, if_neg hne]
        exact haccess
      · rw [htok, Proxy.get_accept] at ht
        split at ht
        · cases ht
          rw [List.mem_append, List.mem_singleton, Proxy.mem_connectionsOf]
          rintro (⟨old, hold, hmem⟩ | he)
          · exact hlists _ old hold hmem
          · exact hne he
        · exact hlists t cs ht
  | updated m =>
    rcases h.proxy.onUpdateTokenMessage_cases m with ⟨heq, -⟩ | ⟨cs, rights, hup⟩
    · rw [heq]
      exact ⟨haccess, hlists⟩
    · refine ⟨?_, fun t cs' ht => ?_⟩
      · rw [hup.conns, if_neg (hlists _ cs hup.listed)]
        exact haccess
      · rw [hup.lists] at ht
        split at ht
        · cases ht
          exact hlists _ _ hup.listed
        · split at ht
          · cases ht
          · exact hlists t cs' ht
  | checked now =>
    have hp := Proxy.checkTokenExpiration_checkedBy n.proxy now
    refine ⟨?_, fun t cs ht => hlists t cs (hp.lists t cs ht)⟩
    rcases hp.conns c with hc | hc <;> simpa [hc] using haccess
  | disconnected c' hc =>
    refine ⟨?_, fun t cs ht hmem => ?_⟩
    · rw [Proxy.conns_handleDisconnect]
      split
      · rename_i he
        rw [← he]
        exact haccess
      · exact haccess
    · obtain ⟨old, hold, hcs⟩ := Proxy.get_handleDisconnect n.proxy c' t cs ht
      refine hlists t old hold ?_
      rw [hcs] at hmem
      split at hmem
      · exact List.mem_of_mem_erase hmem
      · exact hmem

/-- The first token of the connection is still being looked at. -/
def opens (c : ConnectionId) : HandlerCall → Bool
  | .handleConnection c' _ => c' = c
  | _ => false

/-- The actions that end `initClient` of the connection. -/
def initializes (c : ConnectionId) : NodeAction → Bool
  | .handleConnection c' false => c' = c
  | .resume call => opens c call
  | _ => false

/-- The connection is open and its `initClient` has ended. -/
def Initialized (n : Node) (c : ConnectionId) : Prop :=
  (n.proxy.conns c).readyState ≠ .connecting ∧ n.calls.countP (opens c) = 0

lemma opens_of_answeredBy {call answered : HandlerCall} (h : call.answeredBy answered = true)
    (c : ConnectionId) : opens c answered = opens c call := by
  unfold HandlerCall.answeredBy at h
  split at h
  · simp only [decide_eq_true_eq] at h
    simp [opens, h]
  · rfl
  · rfl
  · cases h

lemma conn_of_opens {c : ConnectionId} {call : HandlerCall} (h : opens c call = true) :
    call.conn = c := by
  unfold opens at h
  split at h
  · simpa [HandlerCall.conn] using h
  · cases h

/-- The token of a socket is looked at once. -/
def OpenedOnce (n : Node) (c : ConnectionId) : Prop := n.calls.countP (opens c) ≤ 1

lemma WF.countP_opens {n : Node} (h : n.WF) {c : ConnectionId}
    (hc : (n.proxy.conns c).readyState = .connecting) : n.calls.countP (opens c) = 0 := by
  rw [List.countP_eq_zero]
  intro call hcall ho
  exact h.calls call hcall (conn_of_opens ho ▸ hc)

/-- How the number of handlers in `initClient` changes. -/
lemma countP_opens_step {n n' : Node} {a : NodeAction} (hs : n.step a = some n')
    (c : ConnectionId) : n'.calls.countP (opens c) = match a with
      | .handleConnection c' true => n.calls.countP (opens c) + if c' = c then 1 else 0
      | .resume call => n.calls.countP (opens c) - if opens c call then 1 else 0
      | _ => n.calls.countP (opens c) := by
  cases a with
  | handleConnection c' hasToken =>
    simp only [step, Option.ite_none_right_eq_some] at hs
    obtain ⟨-, hs⟩ := hs
    cases hasToken with
    | true =>
      cases hs
      simp [List.countP_cons, opens]
    | false =>
      cases hs
      rfl
  | onJoin c' d =>
    simp only [step, Option.ite_none_right_eq_some] at hs
    obtain ⟨-, hs⟩ := hs
    split at hs
    · cases hs
      rfl
    · cases hs
      rfl
    · cases hs
      rfl
    · cases hs
      simp [suspend, opens]
  | onSetToken c' =>
    simp only [step, Option.ite_none_right_eq_some, Option.some.injEq] at hs
    obtain ⟨-, rfl⟩ := hs
    simp [suspend, opens]
  | apiAnswers call answered =>
    simp only [step, Option.ite_none_right_eq_some, Option.some.injEq] at hs
    obtain ⟨⟨hcall, hans⟩, rfl⟩ := hs
    have hperm := (List.perm_cons_erase hcall).countP_eq (opens c)
    rw [hperm]
    simp [List.countP_cons, opens_of_answeredBy hans]
  | resume call =>
    simp only [step, Option.ite_none_right_eq_some, Option.map_eq_some_iff] at hs
    obtain ⟨hcall, q, -, rfl⟩ := hs
    have hperm := (List.perm_cons_erase hcall).countP_eq (opens c)
    simp [hperm, List.countP_cons]
  | onUpdateTokenMessage m =>
    cases hs
    rfl
  | checkTokenExpiration now =>
    cases hs
    rfl
  | handleDisconnect c' =>
    simp only [step, Option.ite_none_right_eq_some, Option.some.injEq] at hs
    obtain ⟨-, rfl⟩ := hs
    rfl

lemma openedOnce_step {n n' : Node} {a : NodeAction} {c : ConnectionId} (h : n.WF)
    (ho : n.OpenedOnce c) (hs : n.step a = some n') : n'.OpenedOnce c := by
  have hcount := countP_opens_step hs c
  unfold OpenedOnce at ho ⊢
  rw [hcount]
  cases a with
  | handleConnection c' hasToken =>
    cases hasToken with
    | true =>
      dsimp only
      split
      · rename_i he
        simp only [step, Option.ite_none_right_eq_some] at hs
        rw [h.countP_opens (he ▸ hs.1)]
      · exact ho
    | false => exact ho
  | resume call =>
    dsimp only
    omega
  | _ => exact ho

lemma initialized_step {n n' : Node} {a : NodeAction} {c : ConnectionId} (h : n.WF)
    (hi : n.Initialized c) (hs : n.step a = some n') :
    n'.Initialized c ∧ initializes c a = false := by
  obtain ⟨hstate, hzero⟩ := hi
  have hcount := countP_opens_step hs c
  have hstate' : (n'.proxy.conns c).readyState ≠ .connecting :=
    fun hc => hstate (connecting_step h hs hc)
  unfold Initialized
  rw [hcount]
  cases a with
  | handleConnection c' hasToken =>
    have hne : c' ≠ c := by
      rintro rfl
      simp only [step, Option.ite_none_right_eq_some] at hs
      exact hstate hs.1
    cases hasToken with
    | true => exact ⟨⟨hstate', by simp [hne, hzero]⟩, rfl⟩
    | false => exact ⟨⟨hstate', hzero⟩, decide_eq_false hne⟩
  | resume call =>
    simp only [step, Option.ite_none_right_eq_some] at hs
    have hnot : opens c call = false :=
      Bool.eq_false_iff.mpr ((List.countP_eq_zero.mp hzero) call hs.1)
    exact ⟨⟨hstate', by simp [hzero]⟩, hnot⟩
  | _ => exact ⟨⟨hstate', hzero⟩, rfl⟩

lemma initializes_step {n n' : Node} {a : NodeAction} {c : ConnectionId} (h : n.WF)
    (ho : n.OpenedOnce c) (ha : initializes c a = true) (hs : n.step a = some n') :
    n'.Initialized c := by
  have hcount := countP_opens_step hs c
  unfold initializes at ha
  split at ha
  · rename_i c'
    simp only [decide_eq_true_eq] at ha
    subst ha
    have hs' := hs
    simp only [step, Option.ite_none_right_eq_some] at hs
    obtain ⟨hc, hs⟩ := hs
    cases hs
    refine ⟨?_, hcount.trans (h.countP_opens hc)⟩
    rw [Proxy.readyState_handleConnection_none]
    simp
  · rename_i call
    refine ⟨fun hc => ?_, ?_⟩
    · have hback := connecting_step h hs hc
      simp only [step, Option.ite_none_right_eq_some] at hs
      exact h.calls call hs.1 (conn_of_opens ha ▸ hback)
    · rw [hcount]
      simp only [ha, if_true]
      unfold OpenedOnce at ho
      omega
  · cases ha

end Node

namespace Site

variable {objectId : DocKey → Option ObjectId} {s s' : Site}

/-- The API's refusal of the first token reaches the instance. -/
def refused (c : ConnectionId) (status : Nat) : SiteAction :=
  .gateway (.node (.resume (.handleConnection c (some (.error status)))))

/-- A later token of the connection is accepted. -/
def tokenSet (c : ConnectionId) (payload : JWTPayload) : SiteAction :=
  .gateway (.node (.resume (.onSetToken c (some (.ok payload)))))

def Authorizes (c : ConnectionId) (a : SiteAction) : Prop :=
  ∃ na, a = .gateway (.node na) ∧ Node.authorizes c na = true

def Initializes (c : ConnectionId) (a : SiteAction) : Prop :=
  ∃ na, a = .gateway (.node na) ∧ Node.initializes c na = true

lemma unauthorized_step {a : SiteAction} {c : ConnectionId} (h : s.WF objectId)
    (hn : s.gateway.node.Unauthorized c) (ha : ¬Authorizes c a)
    (hs : s.step objectId a = some s') : s'.gateway.node.Unauthorized c := by
  rcases step_cases hs with ⟨na, n, rfl, -, hstep, rfl⟩ | ⟨ga, g, -, -, hsame, rfl⟩ |
    ⟨id, flag, -, -, rfl⟩
  · refine Node.unauthorized_step h.node hn (Bool.eq_false_iff.mpr fun hna => ?_) hstep
    exact ha ⟨na, rfl, hna⟩
  · unfold Node.Unauthorized
    rw [hsame.conns, hsame.tokenConnections]
    exact hn
  · exact hn

/-- A connection has one first token, so what the API says of it is said once. -/
lemma initializes_unique {as : List SiteAction}
    (hrun : Stepper.run (step objectId) init as = some s) {c : ConnectionId} {a b : SiteAction}
    (ha : a ∈ as) (hb : b ∈ as) (hca : Initializes c a) (hcb : Initializes c b) : a = b := by
  refine Stepper.eq_of_settles (fun s => s.WF objectId ∧ s.gateway.node.OpenedOnce c)
    (fun s => s.gateway.node.Initialized c) (Initializes c) ?_ ?_ ?_ hrun
    ⟨wf_init, by simp [init, Gateway.init, Node.init, Node.OpenedOnce]⟩ ha hb hca hcb
  · intro s a s' h hs
    refine ⟨wf_step h.1 hs, ?_⟩
    rcases step_cases hs with ⟨na, n, -, -, hstep, rfl⟩ | ⟨ga, g, -, -, hsame, rfl⟩ |
      ⟨id, flag, -, -, rfl⟩
    · exact Node.openedOnce_step h.1.node h.2 hstep
    · unfold Node.OpenedOnce
      rw [hsame.calls]
      exact h.2
    · exact h.2
  · rintro s a s' h ⟨na, rfl, hna⟩ hs
    rcases step_cases hs with ⟨na', n, he, -, hstep, rfl⟩ | ⟨ga, g, he, hne, -, -⟩ |
      ⟨id, flag, he, -, -⟩
    · cases he
      exact Node.initializes_step h.1.node h.2 hna hstep
    · cases he
      exact absurd rfl (hne na)
    · cases he
  · intro s a s' h hi hs
    rcases step_cases hs with ⟨na, n, rfl, -, hstep, rfl⟩ | ⟨ga, g, rfl, hne, hsame, rfl⟩ |
      ⟨id, flag, rfl, -, rfl⟩
    · obtain ⟨hi', hnot⟩ := Node.initialized_step h.1.node hi hstep
      refine ⟨hi', ?_⟩
      rintro ⟨na', he, hna⟩
      cases he
      exact Bool.false_ne_true (hnot.symm.trans hna)
    · refine ⟨?_, ?_⟩
      · unfold Node.Initialized
        rw [hsame.conns, hsame.calls]
        exact hi
      · rintro ⟨na', he, -⟩
        cases he
        exact hne na' rfl
    · refine ⟨hi, ?_⟩
      rintro ⟨na', he, -⟩
      cases he

/-- Before its next token is accepted, a connection whose first token is refused has no table. -/
lemma unauthorized_of_refused {as bs : List SiteAction} {c : ConnectionId} {status : Nat}
    (hrun : Stepper.run (step objectId) init as = some s)
    (hall : Stepper.run (step objectId) init (as ++ bs) = some s')
    (href : refused c status ∈ as ++ bs) (hset : ∀ payload, tokenSet c payload ∉ as) :
    s.gateway.node.Unauthorized c := by
  have hnone : ∀ a ∈ as, ¬Authorizes c a := by
    rintro a ha ⟨na, rfl, hna⟩
    have hsame : Initializes c (.gateway (.node na)) →
        SiteAction.gateway (.node na) = refused c status :=
      fun hi => initializes_unique hall (List.mem_append_left bs ha) href hi
        ⟨_, rfl, by simp [Node.initializes, Node.opens]⟩
    unfold Node.authorizes at hna
    split at hna
    · cases hsame ⟨_, rfl, hna⟩
    · rename_i call
      simp only [decide_eq_true_eq] at hna
      obtain ⟨hconn, hpay⟩ := hna
      cases call with
      | handleConnection c' answer =>
        cases hsame ⟨_, rfl, by simpa [Node.initializes, Node.opens, HandlerCall.conn] using hconn⟩
        exact hpay rfl
      | onJoin c' d answer => exact hpay rfl
      | onSetToken c' answer =>
        rcases answer with _ | payload | _
        · exact hpay rfl
        · subst hconn
          exact hset payload ha
        · exact hpay rfl
    · cases hna
  have hinv := Stepper.run_invariant
    (fun s => s.WF objectId ∧ s.gateway.node.Unauthorized c)
    (fun s a s' h ha hs => ⟨wf_step h.1 hs, unauthorized_step h.1 h.2 ha hs⟩) hrun
    (Stepper.guarded_of_mem fun a ha _ => hnone a ha)
    ⟨wf_init, rfl, fun t cs ht => by simp [init, Gateway.init, Node.init, Proxy.init] at ht⟩
  exact hinv.2

/-- Every call of an actor is made in a state that permits it; and a connection whose first token
is refused makes none before a later token of it is accepted. -/
theorem actor_calls_authorized (objectId : DocKey → Option ObjectId) (as : List SiteAction)
    (s : Site) (hrun : Stepper.run (step objectId) init as = some s) (a : GatewayAction)
    (g : Gateway) (emitted : Emitted)
    (hstep : s.gateway.step (s.isPublic objectId) a = some (g, emitted)) :
    (∀ r ∈ emitted.actorCalls, s.Permits objectId r) ∧
      ∀ (bs : List SiteAction) (s' : Site) (c : ConnectionId) (status : Nat),
        Stepper.run (step objectId) init (as ++ .gateway a :: bs) = some s' →
        refused c status ∈ as ++ .gateway a :: bs → (∀ payload, tokenSet c payload ∉ as) →
        ∀ r ∈ emitted.actorCalls, r.conn ≠ c := by
  have hchecked : ∀ r ∈ emitted.actorCalls, s.gateway.Checked r := by
    rcases Gateway.step_cases hstep with ⟨-, -, -, -, -, -, hnil⟩ | ⟨-, -, hall⟩
    · simp [hnil]
    · exact hall
  refine ⟨fun r hr => (wf_run hrun).permits (hchecked r hr), ?_⟩
  rintro bs s' c status hall href hset r hr rfl
  obtain ⟨access, haccess, -⟩ := Proxy.checkAccess_ok (hchecked r hr).1
  rw [(unauthorized_of_refused hrun hall href hset).1] at haccess
  cases haccess

/-- A document joined as public is changed, while the first token of another connection is
refused. -/
theorem actor_calls_authorized_public :
    ∃ as s g emitted, Stepper.run (step some) init as = some s ∧ refused "b" 401 ∈ as ∧
      s.gateway.step (s.isPublic some) (.onChanges "a" "doc" "AQE=") = some (g, emitted) ∧
      emitted.actorCalls = [⟨"a", "doc", .applyDiff "AQE=" "a"⟩] ∧
      ∀ r ∈ emitted.actorCalls, s.Permits some r ∧ r.conn ≠ "b" := by
  let as : List SiteAction :=
    [.createDoc "doc" true, .gateway (.node (.handleConnection "a" false)),
      .gateway (.node (.handleConnection "b" true)), .gateway (.node (.onJoin "a" "doc")),
      .gateway (.node (.apiAnswers (.onJoin "a" "doc" none) (.onJoin "a" "doc" (some (.ok true))))),
      .gateway (.node (.apiAnswers (.handleConnection "b" none)
        (.handleConnection "b" (some (.error 401))))),
      .gateway (.node (.resume (.onJoin "a" "doc" (some (.ok true))))), refused "b" 401]
  obtain ⟨s, hrun⟩ : ∃ s, Stepper.run (step some) init as = some s := ⟨_, rfl⟩
  obtain ⟨g, hstep⟩ : ∃ g, s.gateway.step (s.isPublic some) (.onChanges "a" "doc" "AQE=") =
      some (g, ⟨[⟨"a", "doc", .applyDiff "AQE=" "a"⟩], [.changes "a" "doc" "AQE="]⟩) := by
    cases hrun
    exact ⟨_, rfl⟩
  obtain ⟨s', hall⟩ : ∃ s', Stepper.run (step some) init
      (as ++ [.gateway (.onChanges "a" "doc" "AQE=")]) = some s' := ⟨_, rfl⟩
  obtain ⟨hpermits, hrefused⟩ := actor_calls_authorized some as s hrun _ g _ hstep
  refine ⟨as, s, g, _, hrun, by simp [as], hstep, rfl, fun r hr => ⟨hpermits r hr, ?_⟩⟩
  exact hrefused [] s' "b" 401 hall (by simp [as]) (by simp [as, tokenSet, refused]) r hr

end Site

end AlaFois
