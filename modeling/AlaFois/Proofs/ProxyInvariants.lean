import AlaFois.Proofs.ProxySpec

/-!
# Well-formed states of an instance

The lists of `TokenService` are nonempty and hold authenticated connections, and no socket
is a member of anything before `handleConnection`. Every operation keeps this, whatever it
is applied to.
-/

namespace AlaFois

open DocService

namespace Proxy

structure WF (p : Proxy) : Prop where
  reached : ∃ ops, p.docService = runOps ops
  listed : ∀ t cs, p.tokenConnections.get t = some cs → cs ≠ [] ∧ ∀ c ∈ cs,
    (p.conns c).readyState ≠ .connecting ∧ (p.conns c).access ≠ none ∧ (p.conns c).tokenId ≠ none
  member : ∀ d c, p.docService.Holds d c → (p.conns c).readyState ≠ .connecting

lemma WF.docService {p : Proxy} (h : p.WF) : p.docService.WF := by
  obtain ⟨ops, hops⟩ := h.reached
  rw [hops]
  exact wf_runOps ops

lemma WF.refreshed {p : Proxy} (h : p.WF) : p.docService.Refreshed := by
  obtain ⟨ops, hops⟩ := h.reached
  rw [hops]
  exact refreshed_runOps ops

/-- Further operations of `DocService` lead to a reachable state again. -/
lemma WF.reached_foldl {p : Proxy} (h : p.WF) (ops : List DocOp) :
    ∃ ops', ops.foldl DocService.apply p.docService = runOps ops' := by
  obtain ⟨ops₀, hops₀⟩ := h.reached
  exact ⟨ops₀ ++ ops, by rw [hops₀]; exact List.foldl_append.symm⟩

lemma wf_init : init.WF where
  reached := ⟨[], rfl⟩
  listed t cs h := by simp [init] at h
  member d c h := by
    obtain ⟨doc, hd, -⟩ := h
    simp [init, DocService.init] at hd

lemma WF.congr {p q : Proxy} (h : p.WF) (hc : q.conns = p.conns)
    (hd : q.docService = p.docService) (ht : q.tokenConnections = p.tokenConnections) : q.WF :=
  ⟨hd ▸ h.reached, by rw [hc, ht]; exact h.listed, by rw [hc, hd]; exact h.member⟩

lemma WF.send {p : Proxy} (h : p.WF) (c : ConnectionId) (m : ServerMessage) : (p.send c m).WF :=
  h.congr (send_conns p c m) (send_docService p c m) (send_tokenConnections p c m)

lemma WF.firstAccess {p : Proxy} (h : p.WF) {t : TokenId} {cs : List ConnectionId}
    (ht : p.tokenConnections.get t = some cs) : ∃ a, p.firstAccess cs = some a := by
  obtain ⟨hne, hall⟩ := h.listed t cs ht
  cases cs with
  | nil => exact absurd rfl hne
  | cons c cs =>
    obtain ⟨-, hacc, -⟩ := hall c List.mem_cons_self
    exact Option.ne_none_iff_exists'.mp hacc

/-- In a well-formed state an update message either finds no list or runs to its end. -/
theorem WF.onUpdateTokenMessage_cases {p : Proxy} (h : p.WF) (m : UpdateTokenMessage) :
    (p.onUpdateTokenMessage m = p ∧ p.tokenConnections.get m.oldTokenId = none) ∨
      ∃ cs firstAccess, UpdatedBy p (p.onUpdateTokenMessage m) m cs firstAccess := by
  rcases Proxy.onUpdateTokenMessage_cases p m with ⟨heq, hnone⟩ | hup
  · cases hg : p.tokenConnections.get m.oldTokenId with
    | none => exact .inl ⟨heq, rfl⟩
    | some cs =>
      obtain ⟨a, ha⟩ := h.firstAccess hg
      rw [hnone cs hg] at ha
      cases ha
  · exact .inr hup

lemma conns_accept (p : Proxy) (c c' : ConnectionId) (payload : JWTPayload) :
    (p.accept c payload).conns c' = if c' = c then
      { p.conns c with
        userId := some payload.userId
        tokenId := some payload.tokenId
        tokenExpiredAt := payload.expiredAt.or (p.conns c).tokenExpiredAt
        access := some (createAccessObject payload.docs)
        issuer := some payload.consumerId }
    else p.conns c' := by
  unfold Proxy.accept
  exact conns_modify p c c' fun conn => { conn with
    userId := some payload.userId
    tokenId := some payload.tokenId
    tokenExpiredAt := payload.expiredAt.or conn.tokenExpiredAt
    access := some (createAccessObject payload.docs)
    issuer := some payload.consumerId }

lemma conns_openConnection (p : Proxy) (c c' : ConnectionId) :
    (p.openConnection c).conns c' =
      if c' = c then { WebSocketConnection.new with readyState := .open } else p.conns c' :=
  conns_modify p c c' _

lemma WF.openConnection {p : Proxy} (h : p.WF) {c : ConnectionId}
    (hc : (p.conns c).readyState = .connecting) : (p.openConnection c).WF where
  reached := h.reached
  listed t cs ht := by
    obtain ⟨hne, hall⟩ := h.listed t cs ht
    refine ⟨hne, fun c' hc' => ?_⟩
    have hcc : c' ≠ c := by
      rintro rfl
      exact (hall c' hc').1 hc
    rw [conns_openConnection, if_neg hcc]
    exact hall c' hc'
  member d c' hh := by
    rw [conns_openConnection]
    split
    · simp
    · exact h.member d c' hh

lemma WF.accept {p : Proxy} (h : p.WF) {c : ConnectionId}
    (hc : (p.conns c).readyState ≠ .connecting) (payload : JWTPayload) : (p.accept c payload).WF where
  reached := h.reached
  listed t cs ht := by
    have hown : ∀ c', (p.conns c').readyState ≠ .connecting ∧ (p.conns c').access ≠ none ∧
        (p.conns c').tokenId ≠ none ∨ c' = c →
        ((p.accept c payload).conns c').readyState ≠ .connecting ∧
          ((p.accept c payload).conns c').access ≠ none ∧
          ((p.accept c payload).conns c').tokenId ≠ none := by
      intro c' hc'
      rw [conns_accept]
      split
      · exact ⟨hc, by simp, by simp⟩
      · exact hc'.resolve_right ‹_›
    rw [get_accept] at ht
    split at ht
    · cases ht
      refine ⟨by simp, fun c' hc' => hown c' ?_⟩
      rcases List.mem_append.mp hc' with hm | hm
      · obtain ⟨old, hold, hmem⟩ := mem_connectionsOf.mp hm
        exact .inl ((h.listed _ old hold).2 c' hmem)
      · exact .inr (List.mem_singleton.mp hm)
    · obtain ⟨hne, hall⟩ := h.listed t cs ht
      exact ⟨hne, fun c' hc' => hown c' (.inl (hall c' hc'))⟩
  member d c' hh := by
    rw [conns_accept]
    split
    · exact hc
    · exact h.member d c' hh

lemma WF.withDocOps {p : Proxy} (h : p.WF) (ops : List DocOp)
    (hm : ∀ d c, (ops.foldl DocService.apply p.docService).Holds d c →
      p.docService.Holds d c ∨ (p.conns c).readyState ≠ .connecting) :
    { p with docService := ops.foldl DocService.apply p.docService }.WF where
  reached := h.reached_foldl ops
  listed := h.listed
  member d c hh := (hm d c hh).elim (h.member d c) id

lemma WF.leave {p : Proxy} (h : p.WF) (c : ConnectionId) :
    { p with docService := p.docService.disconnect c }.WF :=
  h.withDocOps [.disconnect c] fun _ _ hh => .inl ((shrinks_disconnect _ c).holds hh)

lemma WF.finishJoin {p : Proxy} (h : p.WF) {c : ConnectionId}
    (hc : (p.conns c).readyState ≠ .connecting) (d : DocKey) (status : Status) :
    (p.finishJoin c d status).WF := by
  cases status with
  | err message => exact h.send c _
  | ok =>
    refine WF.send (h.withDocOps [.joinToDoc c d] fun d' c' hh => ?_) c _
    rcases (holds_joinToDoc h.docService c c' d d').mp hh with hold | ⟨-, rfl⟩
    · exact .inl hold
    · exact .inr hc

lemma docIsPublicAnswered_eq (p : Proxy) (d : DocKey) (response : DocIsPublicResponse) :
    (p.docIsPublicAnswered d response).1.conns = p.conns ∧
      (p.docIsPublicAnswered d response).1.docService = p.docService ∧
      (p.docIsPublicAnswered d response).1.tokenConnections = p.tokenConnections := by
  rcases response with (_ | _) | _ <;> exact ⟨rfl, rfl, rfl⟩

lemma WF.joinAnswered {p : Proxy} (h : p.WF) {c : ConnectionId}
    (hc : (p.conns c).readyState ≠ .connecting) (d : DocKey) (response : DocIsPublicResponse) :
    (p.joinAnswered c d response).WF := by
  obtain ⟨h₁, h₂, h₃⟩ := docIsPublicAnswered_eq p d response
  exact (h.congr h₁ h₂ h₃).finishJoin (by rw [h₁]; exact hc) d _

lemma WF.onJoin {p : Proxy} (h : p.WF) {c : ConnectionId}
    (hc : (p.conns c).readyState ≠ .connecting) (d : DocKey) (response : DocIsPublicResponse) :
    (p.onJoin c d response).WF := by
  unfold Proxy.onJoin
  split
  · exact h
  · exact h.finishJoin hc d _
  · exact h.finishJoin hc d _
  · exact h.joinAnswered hc d response

lemma WF.onSetToken {p : Proxy} (h : p.WF) {c : ConnectionId}
    (hc : (p.conns c).readyState ≠ .connecting) (response : CheckClientTokenResponse) :
    (p.onSetToken c response).WF := by
  cases response with
  | error status => exact h.send c _
  | ok payload =>
    unfold Proxy.onSetToken
    rw [applyToken_ok]
    exact ((h.accept hc payload).leave c).send c _

lemma WF.initClient {p : Proxy} (h : p.WF) {c : ConnectionId}
    (hc : (p.conns c).readyState ≠ .connecting) (token : Option CheckClientTokenResponse) :
    (p.initClient c token).1.WF := by
  rcases token with _ | _ | _
  · have hown : ∀ c', ((p.initClient c none).1.conns c').readyState = (p.conns c').readyState ∧
        ((p.conns c').access ≠ none → ((p.initClient c none).1.conns c').access ≠ none) ∧
        ((p.initClient c none).1.conns c').tokenId = (p.conns c').tokenId := by
      intro c'
      simp only [Proxy.initClient, conns_modify]
      split
      · rename_i he
        subst he
        simp
      · exact ⟨rfl, id, rfl⟩
    refine ⟨h.reached, fun t cs ht => ?_, fun d c' hh => by rw [(hown c').1]; exact h.member d c' hh⟩
    obtain ⟨hne, hall⟩ := h.listed t cs ht
    refine ⟨hne, fun c' hc' => ?_⟩
    obtain ⟨h₁, h₂, h₃⟩ := hall c' hc'
    rw [(hown c').1, (hown c').2.2]
    exact ⟨h₁, (hown c').2.1 h₂, h₃⟩
  · change (p.applyToken c _).1.WF
    rw [applyToken_ok]
    exact h.accept hc _
  · exact h

lemma WF.handleConnection {p : Proxy} (h : p.WF) {c : ConnectionId}
    (hc : (p.conns c).readyState = .connecting) (token : Option CheckClientTokenResponse) :
    (p.handleConnection c token).WF :=
  WF.send ((h.openConnection hc).initClient (by simp [conns_openConnection]) token) c _

lemma WF.onUpdateTokenMessage {p : Proxy} (h : p.WF) (m : UpdateTokenMessage) :
    (p.onUpdateTokenMessage m).WF := by
  rcases h.onUpdateTokenMessage_cases m with ⟨heq, -⟩ | ⟨cs, firstAccess, hup⟩
  · rwa [heq]
  · have hown : ∀ c, ((p.onUpdateTokenMessage m).conns c).readyState = (p.conns c).readyState := by
      intro c
      rw [hup.conns]
      split <;> rfl
    have hlisted := (h.listed _ cs hup.listed).2
    refine ⟨?_, fun t cs' ht => ?_, fun d c hh => ?_⟩
    · rw [hup.docService]
      exact h.reached_foldl _
    · rw [hup.lists] at ht
      have hkeep : ∀ c, (p.conns c).readyState ≠ .connecting ∧ (p.conns c).access ≠ none ∧
          (p.conns c).tokenId ≠ none →
          ((p.onUpdateTokenMessage m).conns c).readyState ≠ .connecting ∧
            ((p.onUpdateTokenMessage m).conns c).access ≠ none ∧
            ((p.onUpdateTokenMessage m).conns c).tokenId ≠ none := by
        intro c hc
        rw [hup.conns]
        split
        · exact ⟨hc.1, by simp [updated], by simp [updated]⟩
        · exact hc
      split at ht
      · cases ht
        exact ⟨(h.listed _ cs hup.listed).1, fun c hc => hkeep c (hlisted c hc)⟩
      · split at ht
        · cases ht
        · obtain ⟨hne, hall⟩ := h.listed t cs' ht
          exact ⟨hne, fun c hc => hkeep c (hall c hc)⟩
    · rw [hown]
      rw [hup.docService, (holds_updateOps h.docService _ cs c d).2] at hh
      split at hh
      · exact (hlisted c ‹_›).1
      · exact h.member d c hh

lemma foldl_disconnect_shrinks (cs : List ConnectionId) (s : DocService) :
    s.Shrinks (cs.foldl DocService.disconnect s) := by
  induction cs generalizing s with
  | nil => exact Shrinks.refl s
  | cons c cs ih => exact (shrinks_disconnect s c).trans (ih _)

lemma WF.reached_checkedBy {p p' : Proxy} (h : p.WF) (hp : p.CheckedBy p') :
    ∃ ops, p'.docService = runOps ops := by
  obtain ⟨cs, hcs⟩ := hp.docService
  have heq : cs.foldl DocService.disconnect p.docService =
      (cs.map DocOp.disconnect).foldl DocService.apply p.docService := by
    rw [List.foldl_map]
    rfl
  rw [hcs, heq]
  exact h.reached_foldl _

lemma CheckedBy.shrinks {p p' : Proxy} (h : p.CheckedBy p') : p.docService.Shrinks p'.docService := by
  obtain ⟨cs, hcs⟩ := h.docService
  rw [hcs]
  exact foldl_disconnect_shrinks cs p.docService

lemma CheckedBy.connecting_iff {p p' : Proxy} (h : p.CheckedBy p') (c : ConnectionId) :
    (p'.conns c).readyState = .connecting ↔ (p.conns c).readyState = .connecting := by
  rcases h.conns c with hc | hc
  · rw [hc]
  · rw [hc, closeConn_readyState _ _ (.inl rfl)]

lemma WF.checkedBy {p p' : Proxy} (h : p.WF) (hp : p.CheckedBy p') : p'.WF where
  reached := h.reached_checkedBy hp
  listed t cs ht := by
    obtain ⟨hne, hall⟩ := h.listed t cs (hp.lists t cs ht)
    refine ⟨hne, fun c hc => ?_⟩
    obtain ⟨h₁, h₂, h₃⟩ := hall c hc
    refine ⟨mt (hp.connecting_iff c).mp h₁, ?_, ?_⟩
    · rcases hp.conns c with hc | hc <;> simpa [hc] using h₂
    · rcases hp.conns c with hc | hc <;> simpa [hc] using h₃
  member d c hh := mt (hp.connecting_iff c).mp (h.member d c (hp.shrinks.holds hh))

/-- The state right after the socket is marked as closed. -/
lemma conns_handleDisconnect (p : Proxy) (c c' : ConnectionId) :
    (p.handleDisconnect c).conns c' =
      if c' = c then { p.conns c with readyState := .closed } else p.conns c' := by
  unfold Proxy.handleDisconnect
  rw [(removeConnection_eq _ _).1]
  exact conns_modify p c c' fun conn => { conn with readyState := .closed }

lemma docService_handleDisconnect (p : Proxy) (c : ConnectionId) :
    (p.handleDisconnect c).docService = p.docService.disconnect c := by
  unfold Proxy.handleDisconnect
  rw [(removeConnection_eq _ _).2]
  rfl

/-- The lists after a close event: the one of the connection's own token loses the connection
once. -/
lemma get_handleDisconnect (p : Proxy) (c : ConnectionId) (t : TokenId) (cs : List ConnectionId)
    (h : (p.handleDisconnect c).tokenConnections.get t = some cs) :
    ∃ old, p.tokenConnections.get t = some old ∧
      cs = if (p.conns c).tokenId = some t then old.erase c else old := by
  have hr := get_removeConnection _ c t cs h
  simpa using hr

lemma get_removeConnection_ne_nil (p : Proxy) (hp : ∀ t, p.tokenConnections.get t ≠ some [])
    (c : ConnectionId) (t : TokenId) : (p.removeConnection c).tokenConnections.get t ≠ some [] := by
  unfold removeConnection
  cases (p.conns c).tokenId with
  | none => exact hp t
  | some t' =>
    dsimp only
    cases p.tokenConnections.get t' with
    | none => exact hp t
    | some old =>
      dsimp only
      split
      · rw [JsMap.get_delete]
        split
        · simp
        · exact hp t
      · rename_i hnil
        rw [JsMap.get_set]
        split
        · simpa using hnil
        · exact hp t

lemma WF.handleDisconnect {p : Proxy} (h : p.WF) (c : ConnectionId) :
    (p.handleDisconnect c).WF := by
  have hstate : ∀ c', ((p.handleDisconnect c).conns c').readyState = .connecting →
      (p.conns c').readyState = .connecting := by
    intro c' hc'
    rw [conns_handleDisconnect] at hc'
    split at hc'
    · simp at hc'
    · exact hc'
  refine ⟨?_, fun t cs ht => ⟨?_, fun c' hc' => ?_⟩, fun d c' hh => ?_⟩
  · rw [docService_handleDisconnect]
    exact h.reached_foldl [.disconnect c]
  · rintro rfl
    unfold Proxy.handleDisconnect at ht
    dsimp only at ht
    refine get_removeConnection_ne_nil _ ?_ c t ht
    exact fun t hn => (h.listed t [] hn).1 rfl
  · obtain ⟨old, hold, hcs⟩ := get_handleDisconnect p c t cs ht
    have hmem : c' ∈ old := by
      rw [hcs] at hc'
      split at hc'
      · exact List.mem_of_mem_erase hc'
      · exact hc'
    obtain ⟨h₁, h₂, h₃⟩ := (h.listed t old hold).2 c' hmem
    refine ⟨mt (hstate c') h₁, ?_, ?_⟩ <;> rw [conns_handleDisconnect] <;> split
    · exact ‹c' = c› ▸ h₂
    · exact h₂
    · exact ‹c' = c› ▸ h₃
    · exact h₃
  · rw [docService_handleDisconnect] at hh
    exact mt (hstate c') (h.member d c' ((shrinks_disconnect _ c).holds hh))

lemma ne_connecting_of_connected {p : Proxy} {c : ConnectionId} (h : p.connected c = true) :
    (p.conns c).readyState ≠ .connecting := by
  intro hc
  simp [connected, hc] at h

/-- Every operation keeps the state well formed. -/
theorem wf_step {isPublic : DocKey → Bool} {p p' : Proxy} {op : ProxyOp} (h : p.WF)
    (hs : p.step isPublic op = some p') : p'.WF := by
  cases op with
  | handleConnection c token =>
    simp only [step, Option.ite_none_right_eq_some, Option.some.injEq] at hs
    exact hs.2 ▸ h.handleConnection hs.1 token
  | onJoin c d response =>
    simp only [step, Option.ite_none_right_eq_some, Option.some.injEq] at hs
    exact hs.2 ▸ h.onJoin (ne_connecting_of_connected hs.1.1) d response
  | onSetToken c response =>
    simp only [step, Option.ite_none_right_eq_some, Option.some.injEq] at hs
    exact hs.2 ▸ h.onSetToken (ne_connecting_of_connected hs.1) response
  | onUpdateTokenMessage m =>
    cases hs
    exact h.onUpdateTokenMessage m
  | checkTokenExpiration now =>
    cases hs
    exact h.checkedBy (checkTokenExpiration_checkedBy p now)
  | handleDisconnect c =>
    simp only [step, Option.ite_none_right_eq_some, Option.some.injEq] at hs
    exact hs.2 ▸ h.handleDisconnect c

end Proxy

end AlaFois
