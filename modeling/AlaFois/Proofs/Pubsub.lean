import AlaFois.Model.Pubsub
import AlaFois.Proofs.AccessControl

/-!
# Internal messages are direct calls

The services of an instance call each other through `Pubsub`. Whatever has been subscribed and
delivered when, the instance does what it does with direct calls.
-/

namespace AlaFois

/-- What a message does when its subscriber is called directly. -/
def PubsubMessage.direct : PubsubMessage → ServiceCode
  | .changes author docId data => modify fun p =>
    p.sendAll (p.docService.onChangesOrAwarenessMessage (.changes author docId data))
  | .awareness author docId data => modify fun p =>
    p.sendAll (p.docService.onChangesOrAwarenessMessage (.awareness author docId data))
  | .updateToken m => fun p =>
    if (p.tokenConnections.get m.oldTokenId).any fun cs => (p.firstAccess cs).isNone then
      .error .typeError p
    else .ok () (p.onUpdateTokenMessage m)
  | .detachDoc docs connectionId =>
    DocService.messageSubscriber (·.onDetachDocMessage connectionId docs)
  | .attachDoc docs connection =>
    DocService.messageSubscriber (·.onAttachDocMessage connection docs)
  | .disconnect connectionId => DocService.messageSubscriber (·.disconnect connectionId)

/-- Only the subscriber to `updateToken` publishes. -/
def PubsubMessage.rank : PubsubMessage → Nat
  | .updateToken _ => 1
  | _ => 0

lemma PubsubMessage.rank_le (m : PubsubMessage) : m.rank ≤ 1 := by
  unfold rank
  split <;> decide

/-- The only subscriber to the messages of a type. -/
def PubsubMessageType.subscriber : PubsubMessageType → MessageSubscriber
  | .changes | .awareness => DocService.changesSubscriber
  | .updateToken => TokenService.updateTokenSubscriber
  | .detachDoc => DocService.detachSubscriber
  | .attachDoc => DocService.attachSubscriber
  | .disconnect => DocService.disconnectSubscriber

namespace TokenService

variable {bus : PubsubMessage → ServiceCode}

lemma updateConnection_eq (hbus : ∀ m, m.rank = 0 → bus m = m.direct) (m : UpdateTokenMessage)
    (diff : TokenRightsDiff) (c : ConnectionId) (p : Proxy) :
    updateConnection bus m diff c p = .ok () (Proxy.updateConnection m diff p c) := by
  unfold updateConnection
  rw [hbus _ rfl, hbus _ rfl]
  rfl

lemma onUpdateTokenMessage_eq (hbus : ∀ m, m.rank = 0 → bus m = m.direct)
    (m : UpdateTokenMessage) : onUpdateTokenMessage bus m = (PubsubMessage.updateToken m).direct := by
  funext p
  unfold onUpdateTokenMessage
  rw [Bus.get_bind_apply]
  simp only [PubsubMessage.direct, Proxy.onUpdateTokenMessage]
  cases p.tokenConnections.get m.oldTokenId with
  | none => rfl
  | some connections =>
    simp only [Option.any_some]
    cases p.firstAccess connections with
    | none => rfl
    | some access => exact Bus.bind_of_ok (Bus.forM_eq_ok (updateConnection_eq hbus m _) _ p)

lemma expireConnection_eq (hbus : ∀ m, m.rank = 0 → bus m = m.direct) (c : ConnectionId)
    (p : Proxy) :
    expireConnection bus c p = match (p.conns c).tokenExpiredAt with
      | none => .error .typeError p
      | some expiredAt =>
        let p := p.send c (.expiredToken (p.conns c).tokenId expiredAt)
        .ok () ({ p with docService := p.docService.disconnect c }.close c) := by
  unfold expireConnection
  rw [Bus.get_bind_apply]
  cases (p.conns c).tokenExpiredAt with
  | none => rfl
  | some expiredAt =>
    dsimp only
    rw [hbus _ rfl]
    rfl

lemma expireConnections_eq (hbus : ∀ m, m.rank = 0 → bus m = m.direct) (cs : List ConnectionId)
    (p : Proxy) :
    cs.forM (expireConnection bus) p =
      if (Proxy.expireConnections cs p).2 then .error .typeError (Proxy.expireConnections cs p).1
      else .ok () (Proxy.expireConnections cs p).1 := by
  induction cs generalizing p with
  | nil => rfl
  | cons c cs ih =>
    change (expireConnection bus c >>= fun _ => cs.forM (expireConnection bus)) p = _
    have hround := expireConnection_eq hbus c p
    unfold Proxy.expireConnections
    cases hexpired : (p.conns c).tokenExpiredAt with
    | none =>
      rw [hexpired] at hround
      exact Bus.bind_of_error hround
    | some expiredAt =>
      rw [hexpired] at hround
      rw [Bus.bind_of_ok hround]
      exact ih _

lemma finalState_checkLists (hbus : ∀ m, m.rank = 0 → bus m = m.direct) (now : Int)
    (es : List (TokenId × List ConnectionId)) (p : Proxy) :
    Bus.finalState (checkLists bus now es) p = Proxy.checkLists now es p := by
  induction es generalizing p with
  | nil => rfl
  | cons e es ih =>
    obtain ⟨tokenId, connections⟩ := e
    cases connections with
    | nil => rfl
    | cons c cs =>
      unfold checkLists Proxy.checkLists
      rw [Bus.finalState_get_bind]
      cases (p.conns c).tokenExpiredAt with
      | none => exact ih p
      | some expiredAt =>
        dsimp only
        by_cases hafter : expiredAt.after now = true
        · rw [if_pos hafter, if_pos hafter]
          exact ih p
        · rw [if_neg hafter, if_neg hafter]
          have hloop := expireConnections_eq hbus (c :: cs) p
          cases hexpire : Proxy.expireConnections (c :: cs) p with
          | mk q failed =>
            rw [hexpire] at hloop
            cases failed with
            | true => exact Bus.finalState_bind_of_error hloop
            | false => exact (Bus.finalState_bind_of_ok hloop).trans (ih _)

/-- Closing the connections of a list fails only where one of them has no expiry. -/
lemma checkLists_ne_rangeError (hbus : ∀ m, m.rank = 0 → bus m = m.direct) (now : Int)
    (es : List (TokenId × List ConnectionId)) (p q : Proxy) :
    checkLists bus now es p ≠ .error .rangeError q := by
  induction es generalizing p with
  | nil => nofun
  | cons e es ih =>
    obtain ⟨tokenId, connections⟩ := e
    cases connections with
    | nil => nofun
    | cons c cs =>
      unfold checkLists
      rw [Bus.get_bind_apply]
      cases (p.conns c).tokenExpiredAt with
      | none => exact ih p
      | some expiredAt =>
        dsimp only
        by_cases hafter : expiredAt.after now = true
        · rw [if_pos hafter]
          exact ih p
        · rw [if_neg hafter]
          have hloop := expireConnections_eq hbus (c :: cs) p
          cases hexpire : Proxy.expireConnections (c :: cs) p with
          | mk r failed =>
            rw [hexpire] at hloop
            cases failed with
            | true =>
              rw [Bus.bind_of_error hloop]
              nofun
            | false =>
              rw [Bus.bind_of_ok hloop]
              exact ih _

lemma finalState_checkTokenExpiration (hbus : ∀ m, m.rank = 0 → bus m = m.direct) (now : Int)
    (p : Proxy) :
    Bus.finalState (checkTokenExpiration bus now) p = p.checkTokenExpiration now :=
  finalState_checkLists hbus now p.tokenConnections.entries p

end TokenService

/-- Where every type has its one subscriber, publishing a message is the direct call. -/
lemma Pubsub.onMessage_eq {subs : PubsubSubscribers}
    (hsubs : ∀ t, Bus.subscribersOf subs t = [t.subscriber]) {stack : Nat} {m : PubsubMessage}
    (hm : m.rank < stack) : Pubsub.onMessage subs stack m = m.direct := by
  refine Bus.publish_eq PubsubError.rangeError (fun m bus hbus => ?_) stack m hm
  rw [hsubs, Bus.forM_singleton]
  cases m with
  | updateToken m =>
    exact TokenService.onUpdateTokenMessage_eq (fun m' hm' => hbus m' (hm' ▸ Nat.zero_lt_one)) m
  | _ => rfl

namespace Instance

variable {isPublic : DocKey → Bool} {topics : List String} {stack : Nat} {s s' : Instance}

/-- The service that subscribes to the type has been constructed. -/
def serves (s : Instance) : PubsubMessageType → Bool
  | .updateToken => s.tokenService
  | _ => s.docService

/-- Each type has the subscriber of its service, and nothing has happened before both are there. -/
structure Wired (s : Instance) : Prop where
  served : ∀ t, s.serves t = true → Bus.subscribersOf s.subscribers t = [t.subscriber]
  unserved : ∀ t, s.serves t = false → Bus.subscribersOf s.subscribers t = []
  fresh : ¬(s.docService ∧ s.tokenService) → s.gateway.node.proxy = .init

lemma wired_init : init.Wired where
  served t h := by cases t <;> cases h
  unserved t _ := rfl
  fresh _ := rfl

lemma Wired.constructDocService (h : s.Wired) (hnew : s.docService = false) :
    ({ s with subscribers := DocService.construct s.subscribers, docService := true } :
      Instance).Wired where
  served t ht := by
    simp only [DocService.construct, Bus.subscribersOf_subscribe]
    cases t with
    | updateToken => simpa using h.served .updateToken ht
    | changes => simp [h.unserved .changes hnew, PubsubMessageType.subscriber]
    | awareness => simp [h.unserved .awareness hnew, PubsubMessageType.subscriber]
    | detachDoc => simp [h.unserved .detachDoc hnew, PubsubMessageType.subscriber]
    | attachDoc => simp [h.unserved .attachDoc hnew, PubsubMessageType.subscriber]
    | disconnect => simp [h.unserved .disconnect hnew, PubsubMessageType.subscriber]
  unserved t ht := by
    cases t with
    | updateToken =>
      simp only [DocService.construct, Bus.subscribersOf_subscribe]
      simpa using h.unserved .updateToken ht
    | _ => cases ht
  fresh _ := h.fresh (by simp [hnew])

lemma Wired.constructTokenService (h : s.Wired) (hnew : s.tokenService = false) :
    ({ s with subscribers := TokenService.construct s.subscribers, tokenService := true } :
      Instance).Wired where
  served t ht := by
    simp only [TokenService.construct, Bus.subscribersOf_subscribe]
    by_cases he : t = .updateToken
    · subst he
      simp [h.unserved .updateToken hnew, PubsubMessageType.subscriber]
    · rw [if_neg he]
      refine h.served t ?_
      cases t <;> first | exact ht | exact absurd rfl he
  unserved t ht := by
    simp only [TokenService.construct, Bus.subscribersOf_subscribe]
    by_cases he : t = .updateToken
    · subst he
      cases ht
    · rw [if_neg he]
      refine h.unserved t ?_
      cases t <;> first | exact ht | exact absurd rfl he
  fresh _ := h.fresh (by simp [hnew])

/-- The code changes nothing but the services. -/
lemma Wired.exec (h : s.Wired) {code : ServiceCode}
    (hfresh : ¬(s.docService ∧ s.tokenService) → Bus.finalState code .init = .init) :
    (s.exec code).Wired where
  served := h.served
  unserved := h.unserved
  fresh hnot := by
    simp only [Instance.exec]
    rw [h.fresh hnot]
    exact hfresh hnot

lemma Wired.handler (h : s.Wired) (hboth : s.docService ∧ s.tokenService) (g : Gateway)
    (emitted : List Emitted) : ({ s with gateway := g, emitted := emitted } : Instance).Wired where
  served := h.served
  unserved := h.unserved
  fresh hnot := absurd hboth hnot

lemma topic_ne_of_mem {changesTopic serviceTopic : Option String} {m : PubsubMessage}
    (hm : m.type.topic ∈ topicsToSubscribe changesTopic serviceTopic) : m.type.topic ≠ "" := by
  have henv : ∀ value fallback, fallback ≠ "" → envOr value fallback ≠ "" := by
    intro value fallback hne
    unfold envOr
    split
    · exact hne
    · assumption
  intro he
  rw [he] at hm
  rcases List.mem_pair.mp hm with hm | hm
  · exact henv _ _ (by decide) hm.symm
  · exact henv _ _ (by decide) hm.symm

/-- While a service is missing, there is nothing that a message could change. -/
lemma subscriber_fresh (bus : PubsubMessage → ServiceCode) {m : PubsubMessage}
    (hm : m.type.topic ≠ "") : m.type.subscriber bus m .init = .ok () .init := by
  cases m with
  | changes => rfl
  | awareness => rfl
  | updateToken => rfl
  | _ => exact absurd rfl hm

lemma direct_fresh {m : PubsubMessage} (hm : m.type.topic ≠ "") : m.direct .init = .ok () .init := by
  cases m with
  | changes => rfl
  | awareness => rfl
  | updateToken => rfl
  | _ => exact absurd rfl hm

lemma Wired.onMessage_of_both (h : s.Wired) (hboth : s.docService ∧ s.tokenService)
    {m : PubsubMessage} (hm : m.rank < stack) :
    Pubsub.onMessage s.subscribers stack m = m.direct := by
  refine Pubsub.onMessage_eq (fun t => h.served t ?_) hm
  cases t
  case updateToken => exact hboth.2
  all_goals exact hboth.1

lemma Wired.finalState_onMessage (h : s.Wired) (hstack : 1 < stack) {m : PubsubMessage}
    (hm : m.type.topic ≠ "") :
    Bus.finalState (Pubsub.onMessage s.subscribers stack m) s.gateway.node.proxy =
      Bus.finalState m.direct s.gateway.node.proxy := by
  by_cases hboth : s.docService ∧ s.tokenService
  · rw [h.onMessage_of_both hboth (m.rank_le.trans_lt hstack)]
  · rw [h.fresh hboth]
    simp only [Bus.finalState, direct_fresh hm]
    obtain ⟨n, rfl⟩ := Nat.exists_eq_add_of_lt hstack
    unfold Pubsub.onMessage
    cases hserves : s.serves m.type with
    | false => rw [Bus.publish_of_none (h.unserved m.type hserves)]; rfl
    | true => rw [Bus.publish_of_single (h.served m.type hserves), subscriber_fresh _ hm]

lemma Wired.finalState_checkTokenExpiration (h : s.Wired) (hstack : 1 < stack) (now : Int) :
    Bus.finalState (TokenService.checkTokenExpiration (Pubsub.onMessage s.subscribers stack) now)
      s.gateway.node.proxy = s.gateway.node.proxy.checkTokenExpiration now := by
  by_cases hboth : s.docService ∧ s.tokenService
  · refine TokenService.finalState_checkTokenExpiration (fun m hm => ?_) now _
    exact h.onMessage_of_both hboth (hm ▸ Nat.zero_lt_of_lt hstack)
  · rw [h.fresh hboth]
    rfl

/-! ### Runs -/

/-- The step of a gateway, with what it emits. -/
def gatewayStep (isPublic : DocKey → Bool) (g : Gateway × List Emitted) (a : GatewayAction) :
    Option (Gateway × List Emitted) :=
  (g.1.step isPublic a).map fun r => (r.1, g.2 ++ [r.2])

/-- What an action is when the services call each other directly. -/
def directly : InstanceAction → List GatewayAction
  | .constructDocService | .constructTokenService => []
  | .handler a => [a]
  | .onMessageRaw (.changes author docId data) => [.onPubsubMessage (.changes author docId data)]
  | .onMessageRaw (.awareness author docId data) => [.onPubsubMessage (.awareness author docId data)]
  | .onMessageRaw (.updateToken m) => [.node (.onUpdateTokenMessage m)]
  | .onMessageRaw _ => []
  | .checkTokenExpiration now => [.node (.checkTokenExpiration now)]

variable {changesTopic serviceTopic : Option String}

lemma wired_step {a : InstanceAction} (hstack : 1 < stack) (h : s.Wired)
    (hs : s.step isPublic (topicsToSubscribe changesTopic serviceTopic) stack a = some s') :
    s'.Wired := by
  cases a with
  | constructDocService =>
    obtain ⟨hnew, hs⟩ := Option.ite_none_left_eq_some.mp hs
    cases hs
    exact h.constructDocService (Bool.eq_false_iff.mpr hnew)
  | constructTokenService =>
    obtain ⟨hnew, hs⟩ := Option.ite_none_left_eq_some.mp hs
    cases hs
    exact h.constructTokenService (Bool.eq_false_iff.mpr hnew)
  | handler a =>
    obtain ⟨⟨hdoc, htoken, -⟩, hs⟩ := Option.ite_none_right_eq_some.mp hs
    obtain ⟨r, -, rfl⟩ := Option.map_eq_some_iff.mp hs
    exact h.handler ⟨hdoc, htoken⟩ r.1 _
  | onMessageRaw m =>
    obtain ⟨hm, hs⟩ := Option.ite_none_right_eq_some.mp hs
    cases hs
    refine h.exec fun hnot => ?_
    have hfinal := h.finalState_onMessage hstack (topic_ne_of_mem hm)
    rw [h.fresh hnot, Bus.finalState, Bus.finalState, direct_fresh (topic_ne_of_mem hm)] at hfinal
    exact hfinal
  | checkTokenExpiration now =>
    obtain ⟨-, hs⟩ := Option.ite_none_right_eq_some.mp hs
    cases hs
    exact h.exec fun _ => rfl

lemma finalState_direct_updateToken (m : UpdateTokenMessage) (p : Proxy) :
    Bus.finalState (PubsubMessage.updateToken m).direct p = p.onUpdateTokenMessage m := by
  simp only [Bus.finalState, PubsubMessage.direct, Proxy.onUpdateTokenMessage]
  cases p.tokenConnections.get m.oldTokenId with
  | none => rfl
  | some connections =>
    simp only [Option.any_some]
    cases p.firstAccess connections <;> rfl

/-- A message that comes from another instance is handled as by the gateway. -/
lemma refines_onMessage (hstack : 1 < stack) (h : s.Wired) {m : PubsubMessage}
    (hm : m.type.topic ≠ "") :
    Stepper.run (gatewayStep isPublic) (s.gateway, s.emitted) (directly (.onMessageRaw m)) =
      some ((s.exec (Pubsub.onMessage s.subscribers stack m)).gateway,
        (s.exec (Pubsub.onMessage s.subscribers stack m)).emitted) := by
  have hfinal := h.finalState_onMessage hstack hm
  simp only [exec, hfinal]
  cases m with
  | changes author docId data => rfl
  | awareness author docId data => rfl
  | updateToken m =>
    rw [finalState_direct_updateToken]
    rfl
  | _ => exact absurd rfl hm

lemma refines_step {a : InstanceAction} (hstack : 1 < stack) (h : s.Wired)
    (hs : s.step isPublic (topicsToSubscribe changesTopic serviceTopic) stack a = some s') :
    Stepper.run (gatewayStep isPublic) (s.gateway, s.emitted) (directly a) =
      some (s'.gateway, s'.emitted) := by
  cases a with
  | constructDocService =>
    obtain ⟨-, hs⟩ := Option.ite_none_left_eq_some.mp hs
    cases hs
    rfl
  | constructTokenService =>
    obtain ⟨-, hs⟩ := Option.ite_none_left_eq_some.mp hs
    cases hs
    rfl
  | handler a =>
    obtain ⟨-, hs⟩ := Option.ite_none_right_eq_some.mp hs
    obtain ⟨r, hr, rfl⟩ := Option.map_eq_some_iff.mp hs
    simp [directly, Stepper.run, gatewayStep, hr]
  | onMessageRaw m =>
    obtain ⟨hm, hs⟩ := Option.ite_none_right_eq_some.mp hs
    cases hs
    exact refines_onMessage hstack h (topic_ne_of_mem hm)
  | checkTokenExpiration now =>
    obtain ⟨-, hs⟩ := Option.ite_none_right_eq_some.mp hs
    cases hs
    simp only [exec, h.finalState_checkTokenExpiration hstack]
    rfl

/-- No publication uses up a stack that has room for two. -/
lemma Wired.onMessage_ne_rangeError (h : s.Wired) (hstack : 1 < stack) (m : PubsubMessage)
    (q : Proxy) :
    Pubsub.onMessage s.subscribers stack m s.gateway.node.proxy ≠ .error .rangeError q := by
  by_cases hboth : s.docService ∧ s.tokenService
  · rw [h.onMessage_of_both hboth (m.rank_le.trans_lt hstack)]
    cases m with
    | updateToken m =>
      simp only [PubsubMessage.direct]
      split <;> nofun
    | _ => nofun
  · rw [h.fresh hboth]
    obtain ⟨n, rfl⟩ := Nat.exists_eq_add_of_lt hstack
    unfold Pubsub.onMessage
    cases hserves : s.serves m.type with
    | false =>
      rw [Bus.publish_of_none (h.unserved m.type hserves)]
      nofun
    | true =>
      rw [Bus.publish_of_single (h.served m.type hserves)]
      cases m <;> nofun

/-- Nor do the publications of the timer. -/
lemma Wired.checkTokenExpiration_ne_rangeError (h : s.Wired) (hstack : 1 < stack) (now : Int)
    (q : Proxy) :
    TokenService.checkTokenExpiration (Pubsub.onMessage s.subscribers stack) now
      s.gateway.node.proxy ≠ .error .rangeError q := by
  by_cases hboth : s.docService ∧ s.tokenService
  · refine TokenService.checkLists_ne_rangeError (fun m hm => ?_) now _ _ q
    exact h.onMessage_of_both hboth (hm ▸ Nat.zero_lt_of_lt hstack)
  · rw [h.fresh hboth]
    nofun

/-- Whatever is subscribed, delivered and handled when, an instance does what its gateway does with
direct calls; messages that come before a service is there have nothing to do yet. Neither a message
nor the timer ever overflows the stack. -/
theorem instance_refines (isPublic : DocKey → Bool) (changesTopic serviceTopic : Option String)
    (stack : Nat) (hstack : 1 < stack) (as : List InstanceAction) (s : Instance)
    (hrun : Stepper.run (step isPublic (topicsToSubscribe changesTopic serviceTopic) stack) init as =
      some s) :
    Stepper.run (gatewayStep isPublic) (.init, []) (as.flatMap directly) =
        some (s.gateway, s.emitted) ∧
      (∀ m q, Pubsub.onMessage s.subscribers stack m s.gateway.node.proxy ≠
        .error .rangeError q) ∧
      ∀ now q, TokenService.checkTokenExpiration (Pubsub.onMessage s.subscribers stack) now
        s.gateway.node.proxy ≠ .error .rangeError q := by
  have hwired : s.Wired := Stepper.run_invariant_of_step Wired
    (fun _ _ _ h hs => wired_step hstack h hs) hrun wired_init
  refine ⟨?_, hwired.onMessage_ne_rangeError hstack,
    hwired.checkTokenExpiration_ne_rangeError hstack⟩
  exact Stepper.run_refines (fun s : Instance => (s.gateway, s.emitted)) directly Wired
    (fun _ _ _ h hs => wired_step hstack h hs) (fun _ _ _ h hs => refines_step hstack h hs) hrun
    wired_init

def samplePayload : JWTPayload := ⟨"token", "consumer", "user", some (.time 5), [⟨"d", [.read]⟩]⟩

def sampleMessage : UpdateTokenMessage :=
  ⟨"jwt", "token2", "token", "consumer", "user", some (.time 9), [⟨"e", [.read]⟩]⟩

/-- The message comes too early, and again when a client has connected. -/
def sampleRun : List InstanceAction :=
  let answered := HandlerCall.handleConnection "conn" (some (.ok samplePayload))
  [.constructTokenService, .onMessageRaw (.updateToken sampleMessage), .constructDocService,
    .handler (.node (.handleConnection "conn" true)),
    .handler (.node (.apiAnswers (.handleConnection "conn" none) answered)),
    .handler (.node (.resume answered)), .handler (.node (.onJoin "conn" "d")),
    .onMessageRaw (.updateToken sampleMessage), .onMessageRaw (.changes "other" "e" "update"),
    .checkTokenExpiration 9]

theorem instance_refines_sample : ∃ s,
    Stepper.run (step (fun _ => false) (topicsToSubscribe none none) 2) init sampleRun = some s ∧
      Stepper.run (gatewayStep fun _ => false) (.init, []) (sampleRun.flatMap directly) =
        some (s.gateway, s.emitted) :=
  ⟨_, rfl, (instance_refines (fun _ => false) none none 2 (by decide) sampleRun _ rfl).1⟩

end Instance

end AlaFois
