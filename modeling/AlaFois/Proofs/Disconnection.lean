import AlaFois.Model.Node
import AlaFois.Proofs.Expiration

/-!
# Disconnection while handlers wait

`handleDisconnect` runs once, at the close event. It leaves no trace of the connection as long
as nothing registers the connection afterwards and the two indexes it works from, that of the
documents and that of the tokens, have every registration.
-/

namespace AlaFois

open DocService

namespace DocService

def Absent (s : DocService) (c : ConnectionId) : Prop := s.joined c = [] ∧ ∀ d, ¬s.Holds d c

lemma joined_apply_of_ne {s : DocService} (h : s.WF) (op : DocOp) {c : ConnectionId}
    (hne : op.conn ≠ c) : (s.apply op).joined c = s.joined c := by
  cases op with
  | joinToDoc c' d => exact (joined_joinToDoc h c' c d).trans (if_neg (Ne.symm hne))
  | attach c' ds =>
    change (s.onAttachDocMessage c' ds).joined c = s.joined c
    induction ds generalizing s with
    | nil => rfl
    | cons d ds ih =>
      exact (ih (wf_joinToDoc h c' d) hne).trans
        ((joined_joinToDoc h c' c d).trans (if_neg (Ne.symm hne)))
  | detach c' rs =>
    rcases joined_detach h c' c rs with ⟨-, he, -⟩ | ⟨-, hj⟩
    · exact absurd he.symm hne
    · exact hj
  | disconnect c' => exact (joined_disconnect s c' c).trans (if_neg (Ne.symm hne))

/-- What is done for other connections does not bring an absent one in. -/
lemma Absent.foldl {s : DocService} (h : s.WF) {c : ConnectionId} (ha : s.Absent c)
    (ops : List DocOp) (hops : ∀ op ∈ ops, op.conn ≠ c) :
    (ops.foldl DocService.apply s).Absent c := by
  induction ops generalizing s with
  | nil => exact ha
  | cons op ops ih =>
    have hne := hops op List.mem_cons_self
    refine ih (wf_apply h op) ⟨?_, fun d hh => ?_⟩ fun o ho => hops o (List.mem_cons_of_mem op ho)
    · rw [joined_apply_of_ne h op hne]
      exact ha.1
    · refine ha.2 d (holds_apply_of_not_joins h op ?_ hh)
      cases op <;> simp only [DocOp.Joins, DocOp.conn] at hne ⊢
      · exact hne
      · exact hne
      · exact not_false
      · exact not_false

lemma detachOk_disconnects (cs : List ConnectionId) (s : DocService) :
    Stepper.Guarded (fun s op => some (s.apply op)) DetachOk s (cs.map DocOp.disconnect) := by
  induction cs generalizing s with
  | nil => trivial
  | cons c cs ih => exact ⟨trivial, ih _⟩

end DocService

namespace Proxy

/-- In no document, without an index entry and in no list. -/
def Absent (p : Proxy) (c : ConnectionId) : Prop :=
  p.docService.Absent c ∧ ∀ t cs, p.tokenConnections.get t = some cs → c ∉ cs

structure Tidy (p : Proxy) : Prop where
  covered : ∀ c, p.docService.Covered c
  away : ∀ c, p.connected c = false → p.Absent c
  lists : ∀ t cs, p.tokenConnections.get t = some cs →
    cs.Nodup ∧ ∀ c ∈ cs, (p.conns c).tokenId = some t

lemma tidy_init : init.Tidy where
  covered := covered_init
  away c _ := by
    refine ⟨⟨rfl, fun d hh => ?_⟩, fun t cs ht => by simp [init] at ht⟩
    obtain ⟨doc, hd, -⟩ := hh
    simp [init, DocService.init] at hd
  lists t cs ht := by simp [init] at ht

variable {p q : Proxy}

/-- Only the state and the token of a connection matter. -/
lemma Tidy.congr (h : p.Tidy) (hc : ∀ c, q.connected c = p.connected c)
    (ht : ∀ c, (q.conns c).tokenId = (p.conns c).tokenId) (hd : q.docService = p.docService)
    (hl : q.tokenConnections = p.tokenConnections) : q.Tidy where
  covered := hd ▸ h.covered
  away c hn := by
    rw [hc] at hn
    unfold Absent
    rw [hd, hl]
    exact h.away c hn
  lists t cs hget := by
    rw [hl] at hget
    simp only [ht]
    exact h.lists t cs hget

lemma Tidy.send (h : p.Tidy) (c : ConnectionId) (m : ServerMessage) : (p.send c m).Tidy :=
  h.congr (by simp [connected]) (by simp) (by simp) (by simp)

/-- Changes of the membership of connected connections. -/
lemma Tidy.withDocOps (hw : p.WF) (h : p.Tidy) (ops : List DocOp)
    (hops : ∀ op ∈ ops, p.connected op.conn = true)
    (hok : Stepper.Guarded (fun s op => some (s.apply op)) DetachOk p.docService ops) :
    { p with docService := ops.foldl DocService.apply p.docService }.Tidy where
  covered c := covered_foldl hw.docService hok (h.covered c)
  away c hn := by
    obtain ⟨hdoc, hlists⟩ := h.away c hn
    refine ⟨hdoc.foldl hw.docService ops fun op hop he => ?_, hlists⟩
    have hcon := hops op hop
    rw [he] at hcon
    exact Bool.false_ne_true (hn.symm.trans hcon)
  lists := h.lists

lemma connected_accept (p : Proxy) (c c' : ConnectionId) (payload : JWTPayload) :
    (p.accept c payload).connected c' = p.connected c' := by
  unfold connected
  rw [conns_accept]
  split
  · rename_i he
    rw [he]
  · rfl

lemma Tidy.accept (h : p.Tidy) {c : ConnectionId} (hc : p.connected c = true)
    (hnew : ∀ t cs, p.tokenConnections.get t = some cs → c ∉ cs) (payload : JWTPayload) :
    (p.accept c payload).Tidy := by
  have htoken : ∀ t cs, p.tokenConnections.get t = some cs → ∀ c' ∈ cs,
      ((p.accept c payload).conns c').tokenId = some t := by
    intro t cs ht c' hc'
    have hne : c' ≠ c := fun he => hnew t cs ht (he ▸ hc')
    rw [conns_accept, if_neg hne]
    exact (h.lists t cs ht).2 c' hc'
  refine ⟨h.covered, fun c' hn => ?_, fun t cs ht => ?_⟩
  · rw [connected_accept] at hn
    obtain ⟨hdoc, hlists⟩ := h.away c' hn
    refine ⟨hdoc, fun t cs ht => ?_⟩
    rw [get_accept] at ht
    split at ht
    · cases ht
      rw [List.mem_append, List.mem_singleton, mem_connectionsOf]
      rintro (⟨old, hold, hmem⟩ | rfl)
      · exact hlists _ old hold hmem
      · exact Bool.false_ne_true (hn.symm.trans hc)
    · exact hlists t cs ht
  · rw [get_accept] at ht
    split at ht
    · rename_i he
      cases ht
      have hself : ((p.accept c payload).conns c).tokenId = some payload.tokenId := by
        rw [conns_accept, if_pos rfl]
      unfold connectionsOf
      cases hold : p.tokenConnections.get payload.tokenId with
      | none =>
        subst he
        simpa using hself
      | some old =>
        subst he
        refine ⟨((h.lists _ old hold).1).append (List.nodup_singleton c) ?_, fun c' hc' => ?_⟩
        · simpa using hnew _ old hold
        · rcases List.mem_append.mp hc' with hm | hm
          · exact htoken _ old hold c' hm
          · rw [List.mem_singleton.mp hm]
            exact hself
    · exact ⟨(h.lists t cs ht).1, htoken t cs ht⟩

lemma Tidy.openConnection (h : p.Tidy) {c : ConnectionId}
    (hc : (p.conns c).readyState = .connecting) : (p.openConnection c).Tidy := by
  obtain ⟨-, hnot⟩ := h.away c (by simp [connected, hc])
  refine ⟨h.covered, fun c' hn => ?_, fun t cs ht => ⟨(h.lists t cs ht).1, fun c' hc' => ?_⟩⟩
  · refine h.away c' ?_
    unfold connected at hn ⊢
    rw [conns_openConnection] at hn
    split at hn
    · simp at hn
    · exact hn
  · have hne : c' ≠ c := fun he => hnot t cs ht (he ▸ hc')
    rw [conns_openConnection, if_neg hne]
    exact (h.lists t cs ht).2 c' hc'

lemma Tidy.finishJoin (hw : p.WF) (h : p.Tidy) {c : ConnectionId} (d : DocKey) (status : Status)
    (hc : status = .ok → p.connected c = true) : (p.finishJoin c d status).Tidy := by
  cases status with
  | err message => exact h.send c _
  | ok =>
    refine (h.withDocOps hw [.joinToDoc c d] ?_ ⟨trivial, trivial⟩).send c _
    intro op hop
    rw [List.mem_singleton.mp hop]
    exact hc rfl

lemma Tidy.joinAnswered (hw : p.WF) (h : p.Tidy) {c : ConnectionId} (d : DocKey)
    (response : DocIsPublicResponse) (hc : response = .ok true → p.connected c = true) :
    (p.joinAnswered c d response).Tidy := by
  obtain ⟨h₁, h₂, h₃⟩ := docIsPublicAnswered_eq p d response
  have hcon : ∀ c', (p.docIsPublicAnswered d response).1.connected c' = p.connected c' := by
    intro c'
    unfold connected
    rw [h₁]
  refine Tidy.finishJoin (hw.congr h₁ h₂ h₃) (h.congr hcon (by simp [h₁]) h₂ h₃) d _ fun hok => ?_
  rw [hcon]
  apply hc
  rcases response with (_ | _) | _
  · cases hok
  · rfl
  · cases hok

lemma Tidy.applied (hw : p.WF) (h : p.Tidy) {c : ConnectionId}
    (response : CheckClientTokenResponse)
    (hok : ∀ payload, response = .ok payload → p.connected c = true ∧
      ∀ t cs, p.tokenConnections.get t = some cs → c ∉ cs) :
    (p.connectionAnswered c response).Tidy ∧ (p.onSetToken c response).Tidy := by
  cases response with
  | error status => exact ⟨h.send c _, h.send c _⟩
  | ok payload =>
    obtain ⟨hc, hnew⟩ := hok payload rfl
    have hacc := h.accept hc hnew payload
    have hstate : (p.conns c).readyState ≠ .connecting := ne_connecting_of_connected hc
    constructor
    · unfold Proxy.connectionAnswered
      rw [applyToken_ok]
      exact hacc.send c _
    · unfold Proxy.onSetToken
      rw [applyToken_ok]
      refine (hacc.withDocOps (hw.accept hstate payload) [.disconnect c] ?_
        ⟨trivial, trivial⟩).send c _
      intro op hop
      rw [List.mem_singleton.mp hop]
      exact (connected_accept p c c payload).trans hc

lemma Tidy.onUpdateTokenMessage (hw : p.WF) (h : p.Tidy) (m : UpdateTokenMessage)
    (hok : ∀ cs ∈ p.tokenConnections.get m.oldTokenId, ∀ rights ∈ p.firstAccess cs,
      Stepper.Guarded (fun s op => some (s.apply op)) DetachOk p.docService
        (cs.flatMap (updateOps (updateDiff rights m)))) : (p.onUpdateTokenMessage m).Tidy := by
  rcases hw.onUpdateTokenMessage_cases m with ⟨heq, -⟩ | ⟨cs, rights, hup⟩
  · rwa [heq]
  · have hcon : ∀ c, (p.onUpdateTokenMessage m).connected c = p.connected c := by
      intro c
      unfold connected
      rw [hup.conns]
      split <;> rfl
    have hlisted : ∀ c ∈ cs, p.connected c = true := by
      intro c hc
      by_contra hn
      exact (h.away c (Bool.eq_false_iff.mpr hn)).2 _ cs hup.listed hc
    have hdoc := h.withDocOps hw (cs.flatMap (updateOps (updateDiff rights m))) (by
      intro op hop
      obtain ⟨c, hc, hop⟩ := List.mem_flatMap.mp hop
      have hconn : op.conn = c := by
        simp only [updateOps, List.mem_cons, List.not_mem_nil, or_false] at hop
        rcases hop with rfl | rfl <;> rfl
      rw [hconn]
      exact hlisted c hc) (hok cs hup.listed rights hup.first)
    refine ⟨?_, fun c hn => ⟨?_, fun t cs' ht => ?_⟩, fun t cs' ht => ?_⟩
    · rw [hup.docService]
      exact hdoc.covered
    · rw [hcon] at hn
      rw [hup.docService]
      exact (hdoc.away c hn).1
    · rw [hcon] at hn
      rw [hup.lists] at ht
      split at ht
      · cases ht
        exact (h.away c hn).2 _ _ hup.listed
      · split at ht
        · cases ht
        · exact (h.away c hn).2 t cs' ht
    · rw [hup.lists] at ht
      split at ht
      · rename_i he
        cases ht
        refine ⟨(h.lists _ _ hup.listed).1, fun c hc => ?_⟩
        rw [hup.conns, if_pos hc, he]
        rfl
      · split at ht
        · cases ht
        · rename_i hold
          refine ⟨(h.lists t cs' ht).1, fun c hc => ?_⟩
          have htoken := (h.lists t cs' ht).2 c hc
          rw [hup.conns, if_neg]
          · exact htoken
          · intro hcs
            have htoken' := (h.lists _ cs hup.listed).2 c hcs
            exact hold (Option.some.inj (htoken.symm.trans htoken'))

lemma Tidy.checkedBy (hw : p.WF) (h : p.Tidy) (hp : p.CheckedBy q) : q.Tidy := by
  have hcon : ∀ c, q.connected c = p.connected c := by
    intro c
    unfold connected
    rcases hp.conns c with hc | hc
    · rw [hc]
    · rw [hc]
      unfold closeConn WebSocketConnection.isOpen
      by_cases ho : (p.conns c).readyState = .open
      · simp [ho]
      · simp [ho]
  obtain ⟨cs, hcs⟩ := hp.docService
  have hfold : q.docService = (cs.map DocOp.disconnect).foldl DocService.apply p.docService := by
    rw [hcs, List.foldl_map]
    rfl
  refine ⟨fun c => ?_, fun c hn => ⟨⟨?_, fun d hh => ?_⟩, fun t cs' ht => ?_⟩, fun t cs' ht => ?_⟩
  · rw [hfold]
    exact covered_foldl hw.docService (detachOk_disconnects cs _) (h.covered c)
  · rw [hcon] at hn
    rw [List.eq_nil_iff_forall_not_mem]
    intro r hr
    have hr' := hp.shrinks.joined hr
    rw [(h.away c hn).1.1] at hr'
    exact List.not_mem_nil hr'
  · rw [hcon] at hn
    exact (h.away c hn).1.2 d (hp.shrinks.holds hh)
  · rw [hcon] at hn
    exact (h.away c hn).2 t cs' (hp.lists t cs' ht)
  · refine ⟨(h.lists t cs' (hp.lists t cs' ht)).1, fun c hc => ?_⟩
    have htoken := (h.lists t cs' (hp.lists t cs' ht)).2 c hc
    rcases hp.conns c with hc' | hc'
    · rw [hc', htoken]
    · rw [hc', closeConn_tokenId, htoken]

/-- The close event removes the connection from everything. -/
lemma Tidy.handleDisconnect (hw : p.WF) (h : p.Tidy) (c : ConnectionId) :
    (p.handleDisconnect c).Tidy := by
  have htoken : ∀ c', ((p.handleDisconnect c).conns c').tokenId = (p.conns c').tokenId := by
    intro c'
    rw [conns_handleDisconnect]
    split
    · rename_i he
      rw [he]
    · rfl
  have hlist : ∀ t cs, (p.handleDisconnect c).tokenConnections.get t = some cs →
      ∃ old, p.tokenConnections.get t = some old ∧ cs.Nodup ∧ (∀ c' ∈ cs, c' ∈ old) ∧ c ∉ cs := by
    intro t cs ht
    obtain ⟨old, hold, hcs⟩ := get_handleDisconnect p c t cs ht
    obtain ⟨hnd, hown⟩ := h.lists t old hold
    refine ⟨old, hold, ?_⟩
    rw [hcs]
    split
    · exact ⟨hnd.erase c, fun c' hc' => List.mem_of_mem_erase hc', hnd.not_mem_erase⟩
    · rename_i hne
      exact ⟨hnd, fun c' hc' => hc', fun hc => hne (hown c hc)⟩
  refine ⟨fun c' => ?_, fun c' hn => ⟨?_, fun t cs ht hc' => ?_⟩, fun t cs ht => ?_⟩
  · rw [docService_handleDisconnect]
    exact covered_disconnect c (h.covered c')
  · rw [docService_handleDisconnect]
    by_cases hc : c' = c
    · subst hc
      refine ⟨by rw [joined_disconnect, if_pos rfl], ?_⟩
      exact (disconnect_removes_iff hw.refreshed c').mpr (h.covered c')
    · have hn' : p.connected c' = false := by
        unfold connected at hn ⊢
        rwa [conns_handleDisconnect, if_neg hc] at hn
      exact (h.away c' hn').1.foldl hw.docService [.disconnect c]
        (by simpa [DocOp.conn] using Ne.symm hc)
  · obtain ⟨old, hold, -, hsub, hnot⟩ := hlist t cs ht
    by_cases hc : c' = c
    · exact hnot (hc ▸ hc')
    · have hn' : p.connected c' = false := by
        unfold connected at hn ⊢
        rwa [conns_handleDisconnect, if_neg hc] at hn
      exact (h.away c' hn').2 t old hold (hsub c' hc')
  · obtain ⟨old, hold, hnd, hsub, -⟩ := hlist t cs ht
    refine ⟨hnd, fun c' hc' => ?_⟩
    rw [htoken]
    exact (h.lists t old hold).2 c' (hsub c' hc')

end Proxy

lemma HandlerCall.conn_of_answeredBy {call answered : HandlerCall}
    (h : call.answeredBy answered = true) : answered.conn = call.conn := by
  unfold HandlerCall.answeredBy at h
  split at h
  · simp only [decide_eq_true_eq] at h
    exact h.symm
  · simp only [decide_eq_true_eq] at h
    exact h.1.symm
  · simp only [decide_eq_true_eq] at h
    exact h.symm
  · cases h

namespace Proxy

variable {p q : Proxy}

/-- The rest of a handler registers an accepted token, or leaves the sockets and the lists. -/
lemma resume_accept {call : HandlerCall} (h : p.resume call = some q) :
    (call.payload = none ∧ q.conns = p.conns ∧ q.tokenConnections = p.tokenConnections) ∨
      ∃ payload, call.payload = some payload ∧ q.conns = (p.accept call.conn payload).conns ∧
        q.tokenConnections = (p.accept call.conn payload).tokenConnections := by
  cases call with
  | handleConnection c answer =>
    rcases answer with _ | payload | status
    · cases h
    · cases h
      right
      exact ⟨payload, rfl, by simp [connectionAnswered, applyToken_ok, HandlerCall.conn],
        by simp [connectionAnswered, applyToken_ok, HandlerCall.conn]⟩
    · cases h
      left
      exact ⟨rfl, by simp [connectionAnswered, Proxy.applyToken],
        by simp [connectionAnswered, Proxy.applyToken]⟩
  | onJoin c d answer =>
    cases answer with
    | none => cases h
    | some response =>
      cases h
      exact .inl ⟨rfl, joinAnswered_eq p c d response⟩
  | onSetToken c answer =>
    rcases answer with _ | payload | status
    · cases h
    · cases h
      right
      exact ⟨payload, rfl, by simp [Proxy.onSetToken, applyToken_ok, HandlerCall.conn],
        by simp [Proxy.onSetToken, applyToken_ok, HandlerCall.conn]⟩
    · cases h
      left
      exact ⟨rfl, by simp [Proxy.onSetToken, Proxy.applyToken],
        by simp [Proxy.onSetToken, Proxy.applyToken]⟩

lemma resume_readyState {call : HandlerCall} (h : p.resume call = some q) (c : ConnectionId) :
    (q.conns c).readyState = (p.conns c).readyState := by
  rcases resume_accept h with ⟨-, hc, -⟩ | ⟨payload, -, hc, -⟩
  · rw [hc]
  · rw [hc, conns_accept]
    split
    · rename_i he
      rw [he]
    · rfl

lemma WF.resume (hw : p.WF) {call : HandlerCall}
    (hc : (p.conns call.conn).readyState ≠ .connecting) (h : p.resume call = some q) : q.WF := by
  cases call with
  | handleConnection c answer =>
    rcases answer with _ | response
    · cases h
    · cases h
      exact (hw.initClient hc (some response)).send c _
  | onJoin c d answer =>
    rcases answer with _ | response
    · cases h
    · cases h
      exact hw.joinAnswered hc d response
  | onSetToken c answer =>
    rcases answer with _ | response
    · cases h
    · cases h
      exact hw.onSetToken hc response

lemma readyState_handleConnection_none (p : Proxy) (c : ConnectionId) :
    ((p.handleConnection c none).conns c).readyState = .open := by
  simp [Proxy.handleConnection, Proxy.initClient, conns_openConnection]

end Proxy

namespace Node

structure WF (n : Node) : Prop where
  proxy : n.proxy.WF
  calls : ∀ call ∈ n.calls, (n.proxy.conns call.conn).readyState ≠ .connecting

lemma wf_init : init.WF where
  proxy := Proxy.wf_init
  calls call h := by simp [init] at h

/-- The same calls, and no socket back to its state before the connection. -/
lemma WF.withProxy {n : Node} (h : n.WF) {p : Proxy} (hp : p.WF)
    (hs : ∀ c, (p.conns c).readyState = .connecting → (n.proxy.conns c).readyState = .connecting)
    (calls : List HandlerCall) (hcalls : ∀ call ∈ calls, call ∈ n.calls) :
    (⟨p, calls⟩ : Node).WF :=
  ⟨hp, fun call hcall => mt (hs call.conn) (h.calls call (hcalls call hcall))⟩

lemma WF.suspend {n : Node} (h : n.WF) {call : HandlerCall}
    (hc : (n.proxy.conns call.conn).readyState ≠ .connecting) : (n.suspend call).WF := by
  refine ⟨h.proxy, fun call' hcall => ?_⟩
  rcases List.mem_cons.mp hcall with rfl | hold
  · exact hc
  · exact h.calls call' hold

/-- What a step does: every handler that suspends leaves the proxy alone. -/
inductive Outcome (n : Node) : NodeAction → Node → Prop
  | opening (c : ConnectionId) (hc : (n.proxy.conns c).readyState = .connecting) :
    Outcome n (.handleConnection c true)
      ⟨n.proxy.openConnection c, .handleConnection c none :: n.calls⟩
  | opened (c : ConnectionId) (hc : (n.proxy.conns c).readyState = .connecting) :
    Outcome n (.handleConnection c false) { n with proxy := n.proxy.handleConnection c none }
  | failed (c : ConnectionId) (d : DocKey) : Outcome n (.onJoin c d) n
  | joined (c : ConnectionId) (d : DocKey) (status : Status) (hc : n.proxy.connected c = true) :
    Outcome n (.onJoin c d) { n with proxy := n.proxy.finishJoin c d status }
  | suspended (a : NodeAction) (call : HandlerCall) (hc : n.proxy.connected call.conn = true)
    (hpay : call.payload = none) (ha : (∃ c d, a = .onJoin c d) ∨ ∃ c, a = .onSetToken c) :
    Outcome n a (n.suspend call)
  | answered (call answered : HandlerCall) (hcall : call ∈ n.calls)
    (hans : call.answeredBy answered = true) :
    Outcome n (.apiAnswers call answered) { n with calls := answered :: n.calls.erase call }
  | resumed (call : HandlerCall) (q : Proxy) (hcall : call ∈ n.calls)
    (hq : n.proxy.resume call = some q) : Outcome n (.resume call) ⟨q, n.calls.erase call⟩
  | updated (m : UpdateTokenMessage) :
    Outcome n (.onUpdateTokenMessage m) { n with proxy := n.proxy.onUpdateTokenMessage m }
  | checked (now : Int) :
    Outcome n (.checkTokenExpiration now) { n with proxy := n.proxy.checkTokenExpiration now }
  | disconnected (c : ConnectionId) (hc : n.proxy.connected c = true) :
    Outcome n (.handleDisconnect c) { n with proxy := n.proxy.handleDisconnect c }

theorem step_cases {n n' : Node} {a : NodeAction} (hs : n.step a = some n') : Outcome n a n' := by
  cases a with
  | handleConnection c hasToken =>
    simp only [step, Option.ite_none_right_eq_some] at hs
    obtain ⟨hc, hs⟩ := hs
    cases hasToken with
    | true =>
      cases hs
      exact .opening c hc
    | false =>
      cases hs
      exact .opened c hc
  | onJoin c d =>
    simp only [step, Option.ite_none_right_eq_some] at hs
    obtain ⟨hc, hs⟩ := hs
    split at hs
    · cases hs
      exact .failed c d
    · cases hs
      exact .joined c d .ok hc
    · cases hs
      exact .joined c d _ hc
    · cases hs
      exact .suspended _ (.onJoin c d none) hc rfl (.inl ⟨c, d, rfl⟩)
  | onSetToken c =>
    simp only [step, Option.ite_none_right_eq_some, Option.some.injEq] at hs
    obtain ⟨hc, rfl⟩ := hs
    exact .suspended _ (.onSetToken c none) hc rfl (.inr ⟨c, rfl⟩)
  | apiAnswers call answered =>
    simp only [step, Option.ite_none_right_eq_some, Option.some.injEq] at hs
    obtain ⟨⟨hcall, hans⟩, rfl⟩ := hs
    exact .answered call answered hcall hans
  | resume call =>
    simp only [step, Option.ite_none_right_eq_some, Option.map_eq_some_iff] at hs
    obtain ⟨hcall, q, hq, rfl⟩ := hs
    exact .resumed call q hcall hq
  | onUpdateTokenMessage m =>
    cases hs
    exact .updated m
  | checkTokenExpiration now =>
    cases hs
    exact .checked now
  | handleDisconnect c =>
    simp only [step, Option.ite_none_right_eq_some, Option.some.injEq] at hs
    obtain ⟨hc, rfl⟩ := hs
    exact .disconnected c hc

/-- No step takes a socket back to its state before the connection. -/
lemma connecting_step {n n' : Node} {a : NodeAction} (h : n.WF) (hs : n.step a = some n')
    {c : ConnectionId} (hc : (n'.proxy.conns c).readyState = .connecting) :
    (n.proxy.conns c).readyState = .connecting := by
  cases step_cases hs with
  | opening c' hc' =>
    rw [Proxy.conns_openConnection] at hc
    split at hc
    · cases hc
    · exact hc
  | opened c' hc' =>
    by_cases he : c = c'
    · rw [he, Proxy.readyState_handleConnection_none] at hc
      cases hc
    · rwa [(Proxy.handleConnection_eq n.proxy c' none).2 c he] at hc
  | failed c' d => exact hc
  | joined c' d status hc' => rwa [(Proxy.finishJoin_eq n.proxy c' d status).1] at hc
  | suspended a call hc' hpay ha => exact hc
  | answered call answered hcall hans => exact hc
  | resumed call q hcall hq => exact (Proxy.resume_readyState hq c).symm.trans hc
  | updated m =>
    rcases h.proxy.onUpdateTokenMessage_cases m with ⟨heq, -⟩ | ⟨cs, rights, hup⟩
    · rwa [heq] at hc
    · rw [hup.conns] at hc
      split at hc
      · exact hc
      · exact hc
  | checked now =>
    exact ((Proxy.checkTokenExpiration_checkedBy n.proxy now).connecting_iff c).mp hc
  | disconnected c' hc' =>
    rw [Proxy.conns_handleDisconnect] at hc
    split at hc
    · cases hc
    · exact hc

lemma wf_step {n n' : Node} {a : NodeAction} (h : n.WF) (hs : n.step a = some n') : n'.WF := by
  have hback := fun c => connecting_step h hs (c := c)
  cases step_cases hs with
  | opening c hc =>
    refine ⟨h.proxy.openConnection hc, fun call hcall => ?_⟩
    rcases List.mem_cons.mp hcall with rfl | hold
    · simp [HandlerCall.conn, Proxy.conns_openConnection]
    · exact mt (hback call.conn) (h.calls call hold)
  | opened c hc => exact h.withProxy (h.proxy.handleConnection hc none) hback _ fun _ hm => hm
  | failed c d => exact h
  | joined c d status hc =>
    exact h.withProxy (h.proxy.finishJoin (Proxy.ne_connecting_of_connected hc) d status) hback _
      fun _ hm => hm
  | suspended a call hc hpay ha => exact h.suspend (Proxy.ne_connecting_of_connected hc)
  | answered call answered hcall hans =>
    refine ⟨h.proxy, fun call' hm => ?_⟩
    rcases List.mem_cons.mp hm with rfl | hold
    · rw [HandlerCall.conn_of_answeredBy hans]
      exact h.calls call hcall
    · exact h.calls call' (List.mem_of_mem_erase hold)
  | resumed call q hcall hq =>
    exact h.withProxy (h.proxy.resume (h.calls call hcall) hq) hback _
      fun _ => List.mem_of_mem_erase
  | updated m => exact h.withProxy (h.proxy.onUpdateTokenMessage m) hback _ fun _ hm => hm
  | checked now =>
    exact h.withProxy (h.proxy.checkedBy (Proxy.checkTokenExpiration_checkedBy n.proxy now)) hback
      _ fun _ hm => hm
  | disconnected c hc => exact h.withProxy (h.proxy.handleDisconnect c) hback _ fun _ hm => hm

/-! ### No trace of a closed connection -/

/-- After the close event, with no handler of the connection left, nothing holds it. -/
def NoTrace (n : Node) : Prop :=
  ∀ c, (n.proxy.conns c).readyState = .closed → (∀ call ∈ n.calls, call.conn ≠ c) →
    (∀ d, ¬n.proxy.docService.Holds d c) ∧
      n.proxy.docService.connectionsToDocs.get c = none ∧ ∀ t, c ∉ n.proxy.connectionsOf t

/-- A positive answer finds its connection not yet closed, and an accepted token finds it in no
list; and no detach message of an update takes a connection out of a document it is alone in
while it stays in another. -/
def ReturnOk (n : Node) : NodeAction → Prop
  | .resume (.onJoin c _ (some (.ok true))) => n.proxy.connected c
  | .resume call => call.payload ≠ none → n.proxy.connected call.conn ∧
      ∀ e ∈ n.proxy.tokenConnections.entries, call.conn ∉ e.2
  | .onUpdateTokenMessage m =>
    ∀ cs ∈ n.proxy.tokenConnections.get m.oldTokenId, ∀ rights ∈ n.proxy.firstAccess cs,
      Stepper.Guarded (fun s op => some (s.apply op)) DetachOk n.proxy.docService
        (cs.flatMap (Proxy.updateOps (Proxy.updateDiff rights m)))
  | _ => True

instance (n : Node) (a : NodeAction) : Decidable (n.ReturnOk a) := by
  unfold ReturnOk
  split <;> infer_instance

lemma tidy_resume {n : Node} (h : n.WF) (ht : n.proxy.Tidy) {call : HandlerCall}
    (hcall : call ∈ n.calls) {q : Proxy} (hq : n.proxy.resume call = some q)
    (hok : n.ReturnOk (.resume call)) : q.Tidy := by
  have hentries : ∀ c, (∀ e ∈ n.proxy.tokenConnections.entries, c ∉ e.2) →
      ∀ t cs, n.proxy.tokenConnections.get t = some cs → c ∉ cs :=
    fun c hc t cs hget => hc (t, cs) ((JsMap.mem_entries_iff _ _ _).mpr hget)
  cases call with
  | handleConnection c answer =>
    rcases answer with _ | response
    · cases hq
    · cases hq
      refine (ht.applied h.proxy response fun payload he => ?_).1
      subst he
      obtain ⟨hc, hlists⟩ := hok (by simp [HandlerCall.payload])
      exact ⟨hc, hentries c hlists⟩
  | onJoin c d answer =>
    rcases answer with _ | response
    · cases hq
    · cases hq
      refine ht.joinAnswered h.proxy d response fun he => ?_
      subst he
      exact hok
  | onSetToken c answer =>
    rcases answer with _ | response
    · cases hq
    · cases hq
      refine (ht.applied h.proxy response fun payload he => ?_).2
      subst he
      obtain ⟨hc, hlists⟩ := hok (by simp [HandlerCall.payload])
      exact ⟨hc, hentries c hlists⟩

lemma tidy_step {n n' : Node} {a : NodeAction} (h : n.WF) (ht : n.proxy.Tidy)
    (hok : n.ReturnOk a) (hs : n.step a = some n') : n'.proxy.Tidy := by
  cases step_cases hs with
  | opening c hc => exact ht.openConnection hc
  | opened c hc =>
    refine Proxy.Tidy.send (p := ((n.proxy.openConnection c).initClient c none).1)
      ((ht.openConnection hc).congr (fun c' => ?_) (fun c' => ?_) rfl rfl) c (.connectResponse .ok)
    · simp only [Proxy.initClient, Proxy.connected, Proxy.conns_modify]
      split
      · rename_i he
        rw [he]
      · rfl
    · simp only [Proxy.initClient, Proxy.conns_modify]
      split
      · rename_i he
        rw [he]
      · rfl
  | failed c d => exact ht
  | joined c d status hc => exact ht.finishJoin h.proxy d status fun _ => hc
  | suspended a call hc hpay ha => exact ht
  | answered call answered hcall hans => exact ht
  | resumed call q hcall hq => exact tidy_resume h ht hcall hq hok
  | updated m => exact ht.onUpdateTokenMessage h.proxy m hok
  | checked now => exact ht.checkedBy h.proxy (Proxy.checkTokenExpiration_checkedBy n.proxy now)
  | disconnected c hc => exact ht.handleDisconnect h.proxy c

/-- In runs that meet `ReturnOk`, nothing holds a connection after its close event. -/
theorem no_trace_after_disconnect (as : List NodeAction) (n : Node)
    (hrun : Stepper.run step init as = some n) (hok : Stepper.Guarded step ReturnOk init as) :
    n.NoTrace := by
  have hinv := Stepper.run_invariant (fun n : Node => n.WF ∧ n.proxy.Tidy)
    (fun n a n' hn hop hs => ⟨wf_step hn.1 hs, tidy_step hn.1 hn.2 hop hs⟩)
    hrun hok ⟨wf_init, Proxy.tidy_init⟩
  intro c hclosed _
  obtain ⟨⟨hjoined, hholds⟩, hlists⟩ := hinv.2.away c (by simp [Proxy.connected, hclosed])
  refine ⟨hholds, (hinv.1.proxy.docService.joined_eq_nil_iff c).mp hjoined, fun t hc => ?_⟩
  obtain ⟨cs, hget, hmem⟩ := Proxy.mem_connectionsOf.mp hc
  exact hlists t cs hget hmem

/-- The close event comes while the API still looks at the join request. -/
theorem no_trace_after_refused_join :
    ∃ n, Stepper.run step init [.handleConnection "c" false, .onJoin "c" "doc",
        .handleDisconnect "c",
        .apiAnswers (.onJoin "c" "doc" none) (.onJoin "c" "doc" (some (.ok false))),
        .resume (.onJoin "c" "doc" (some (.ok false)))] = some n ∧ n.NoTrace := by
  obtain ⟨n, hrun⟩ : ∃ n, Stepper.run step init [.handleConnection "c" false, .onJoin "c" "doc",
      .handleDisconnect "c",
      .apiAnswers (.onJoin "c" "doc" none) (.onJoin "c" "doc" (some (.ok false))),
      .resume (.onJoin "c" "doc" (some (.ok false)))] = some n := ⟨_, rfl⟩
  exact ⟨n, hrun, no_trace_after_disconnect _ n hrun (by decide)⟩

/-- The same run with a public document. -/
theorem member_after_disconnect :
    ¬∀ (as : List NodeAction) (n : Node), Stepper.run step init as = some n → n.NoTrace := by
  intro h
  have hrun := (h [.handleConnection "c" false, .onJoin "c" "doc", .handleDisconnect "c",
    .apiAnswers (.onJoin "c" "doc" none) (.onJoin "c" "doc" (some (.ok true))),
    .resume (.onJoin "c" "doc" (some (.ok true)))] _ rfl "c" (by decide) (by decide)).1 "doc"
  revert hrun
  decide

end Node

end AlaFois
