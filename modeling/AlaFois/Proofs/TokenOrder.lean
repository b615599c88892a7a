import AlaFois.Model.TokenSwitch
import AlaFois.Proofs.Disconnection
import AlaFois.Proofs.HistoryAccess
import AlaFois.Proofs.Verdicts

/-!
# Tokens in the order of their messages

A handler of setToken applies its token when its own answer has come. The connection ends up with the
token that was applied last, which is the one that was sent last as long as no handler is overtaken.
-/

namespace AlaFois

open DocService Stepper

/-! ### The answers of the API -/

lemma isSome_of_validate {env : ApiEnv} {now : Int} {claims : Claims}
    {payload : JWTPayload Json} (h : validate env now claims = some payload) :
    payload.expiredAt.isSome = true := by
  obtain ⟨-, -, -, -, ms, hms, -⟩ := validate_eq_some h
  rw [hms]
  rfl

/-- Whatever its collections hold, the API answers as the proxy relies on it to. -/
theorem isDated_checkClientToken (db : Database) (env : QueryEnv) (now : Int) (jwt : String)
    (token : Option TokenRecord) : (db.checkClientToken env now jwt token).isDated = true := by
  have hanswer : ∀ payload : JWTPayload Json, payload.expiredAt.isSome = true →
      (Database.answer payload token).isDated = true := by
    intro payload hdated
    unfold Database.answer
    cases token with
    | none =>
      dsimp only
      split
      · exact hdated
      · rfl
    | some record =>
      dsimp only
      split
      · rfl
      · exact hdated
  unfold Database.checkClientToken
  split
  · rfl
  · rfl
  · split
    · rfl
    · rename_i payload hpayload
      have hdated := isSome_of_validate hpayload
      split
      · split
        · split
          · rfl
          · split
            · exact hanswer payload hdated
            · rfl
        · rfl
      · exact hanswer payload hdated

/-! ### What a step of the instance does to one connection -/

namespace Node

/-- The operations on documents that an action may perform. -/
def Performs (n : Node) (a : NodeAction) : DocOp → Prop
  | .joinToDoc c d => ∃ access, (c, d, access) ∈ n.grants a
  | .disconnect _ => True
  | .attach c _ | .detach c _ =>
    ∃ m, a = .onUpdateTokenMessage m ∧ c ∈ n.proxy.connectionsOf m.oldTokenId

variable {n n' : Node}

lemma docOps_finishJoin (p : Proxy) (c : ConnectionId) (d : DocKey) (status : Status) :
    (p.finishJoin c d status).docService =
      (if status = .ok then [DocOp.joinToDoc c d] else []).foldl DocService.apply p.docService := by
  cases status with
  | ok => simp [Proxy.finishJoin, DocService.apply]
  | err message => simp [Proxy.finishJoin]

/-- What the rest of a handler does to the documents. -/
lemma docOps_resume {call : HandlerCall} {q : Proxy} (hq : n.proxy.resume call = some q) :
    ∃ ops : List DocOp, q.docService = ops.foldl DocService.apply n.proxy.docService ∧
      ∀ op ∈ ops, n.Performs (.resume call) op := by
  cases call with
  | handleConnection c answer =>
    rcases answer with _ | payload | status
    · cases hq
    · cases hq
      exact ⟨[], by simp [Proxy.connectionAnswered, Proxy.applyToken_ok, Proxy.accept], by simp⟩
    · cases hq
      exact ⟨[], by simp [Proxy.connectionAnswered, Proxy.applyToken], by simp⟩
  | onJoin c d answer =>
    rcases answer with _ | (_ | _) | status
    · cases hq
    · cases hq
      exact ⟨[], docOps_finishJoin n.proxy c d (.err "Unauthorized"), by simp⟩
    · cases hq
      refine ⟨[.joinToDoc c d], docOps_finishJoin _ c d .ok, fun op hop => ?_⟩
      cases List.mem_singleton.mp hop
      exact ⟨_, List.mem_singleton_self _⟩
    · cases hq
      exact ⟨[], docOps_finishJoin n.proxy c d (.err "Internal error"), by simp⟩
  | onSetToken c answer =>
    rcases answer with _ | payload | status
    · cases hq
    · cases hq
      exact ⟨[.disconnect c], by
        simp [Proxy.onSetToken, Proxy.applyToken_ok, Proxy.accept, DocService.apply],
        by simp [Performs]⟩
    · cases hq
      exact ⟨[], by simp [Proxy.onSetToken, Proxy.applyToken], by simp⟩

/-- A join is performed when it is granted at once. -/
lemma docOps_onJoin {c : ConnectionId} {d : DocKey} (hs : n.step (.onJoin c d) = some n') :
    ∃ ops : List DocOp, n'.proxy.docService = ops.foldl DocService.apply n.proxy.docService ∧
      ∀ op ∈ ops, n.Performs (.onJoin c d) op := by
  simp only [step, Option.ite_none_right_eq_some] at hs
  obtain ⟨-, hs⟩ := hs
  cases hdoc : n.proxy.docAccess c d with
  | granted =>
    simp only [hdoc, Option.some.injEq] at hs
    subst hs
    refine ⟨[.joinToDoc c d], docOps_finishJoin n.proxy c d .ok, ?_⟩
    simp [Performs, grants, hdoc]
  | denied =>
    simp only [hdoc, Option.some.injEq] at hs
    subst hs
    exact ⟨[], docOps_finishJoin n.proxy c d (.err "Unauthorized"), by simp⟩
  | ask =>
    simp only [hdoc, Option.some.injEq] at hs
    subst hs
    exact ⟨[], rfl, by simp⟩
  | typeError =>
    simp only [hdoc, Option.some.injEq] at hs
    subst hs
    exact ⟨[], rfl, by simp⟩

/-- What a step does to the documents. -/
lemma docOps_step (h : n.WF) {a : NodeAction} (hs : n.step a = some n') :
    ∃ ops : List DocOp, n'.proxy.docService = ops.foldl DocService.apply n.proxy.docService ∧
      ∀ op ∈ ops, n.Performs a op := by
  have hnone : n'.proxy.docService = n.proxy.docService →
      ∃ ops : List DocOp, n'.proxy.docService = ops.foldl DocService.apply n.proxy.docService ∧
        ∀ op ∈ ops, n.Performs a op := fun he => ⟨[], he, by simp⟩
  cases step_cases hs with
  | opening c hc => exact hnone rfl
  | opened c hc => exact hnone (Proxy.handleConnection_eq n.proxy c none).1
  | failed c d => exact hnone rfl
  | joined c d status hc => exact docOps_onJoin hs
  | suspended a call hc hpay ha => exact hnone rfl
  | answered call answered hcall hans => exact hnone rfl
  | resumed call q hcall hq => exact docOps_resume hq
  | updated m =>
    rcases h.proxy.onUpdateTokenMessage_cases m with ⟨heq, -⟩ | ⟨cs, rights, hup⟩
    · exact hnone (congrArg Proxy.docService heq)
    · refine ⟨_, hup.docService, fun op hop => ?_⟩
      obtain ⟨c, hc, hop⟩ := List.mem_flatMap.mp hop
      have hlisted : c ∈ n.proxy.connectionsOf m.oldTokenId :=
        Proxy.mem_connectionsOf.mpr ⟨cs, hup.listed, hc⟩
      simp only [Proxy.updateOps, List.mem_cons, List.not_mem_nil, or_false] at hop
      rcases hop with rfl | rfl <;> exact ⟨m, rfl, hlisted⟩
  | checked now =>
    obtain ⟨cs, hcs⟩ := (Proxy.checkTokenExpiration_checkedBy n.proxy now).docService
    refine ⟨cs.map .disconnect, ?_, fun op hop => ?_⟩
    · rw [hcs, List.foldl_map]
      rfl
    · obtain ⟨c, -, rfl⟩ := List.mem_map.mp hop
      trivial
  | disconnected c hc =>
    exact ⟨[.disconnect c], Proxy.docService_handleDisconnect n.proxy c, by simp [Performs]⟩

end Node

namespace DocService

lemma covered_apply_of_ne {s : DocService} (h : s.WF) (op : DocOp) {c : ConnectionId}
    (hne : op.conn ≠ c) (hc : s.Covered c) : (s.apply op).Covered c := by
  cases op with
  | joinToDoc c₀ d => exact covered_joinToDoc h c₀ d hc
  | attach c₀ ds => exact covered_attach h c₀ ds hc
  | detach c₀ rs =>
    exact (shrinks_detach s c₀ rs).covered (joined_apply_of_ne h (.detach c₀ rs) hne) hc
  | disconnect c₀ => exact covered_disconnect c₀ hc

/-- Operations on other connections, leaves and joins: the index still covers the connection, and it
has got into no document but those it has joined. -/
lemma covered_holds_foldl {s : DocService} (h : s.WF) {c : ConnectionId} (hc : s.Covered c)
    (ds : List DocKey) (ops : List DocOp)
    (hops : ∀ op ∈ ops, op.conn ≠ c ∨ op = .disconnect c ∨ ∃ d ∈ ds, op = .joinToDoc c d) :
    (ops.foldl DocService.apply s).Covered c ∧
      ∀ d, (ops.foldl DocService.apply s).Holds d c → s.Holds d c ∨ d ∈ ds := by
  induction ops generalizing s with
  | nil => exact ⟨hc, fun d hh => .inl hh⟩
  | cons op ops ih =>
    have hrest := fun o ho => hops o (List.mem_cons_of_mem op ho)
    have hone : (s.apply op).Covered c ∧ ∀ d, (s.apply op).Holds d c → s.Holds d c ∨ d ∈ ds := by
      rcases hops op List.mem_cons_self with hne | rfl | ⟨d₀, hd₀, rfl⟩
      · refine ⟨covered_apply_of_ne h op hne hc, fun d hh => .inl ?_⟩
        refine holds_apply_of_not_joins h op ?_ hh
        cases op <;> simp_all [DocOp.Joins, DocOp.conn]
      · exact ⟨covered_disconnect c hc, fun d hh => .inl ((shrinks_disconnect s c).holds hh)⟩
      · refine ⟨covered_joinToDoc h c d₀ hc, fun d hh => ?_⟩
        rcases (holds_joinToDoc h c c d₀ d).mp hh with hold | ⟨rfl, -⟩
        · exact .inl hold
        · exact .inr hd₀
    obtain ⟨hcovered, hholds⟩ := ih (wf_apply h op) hone.1 hrest
    refine ⟨hcovered, fun d hh => ?_⟩
    rcases hholds d hh with hh | hd
    · exact hone.2 d hh
    · exact .inr hd

end DocService

/-! ### The events -/

/-- The message whose token was applied last. -/
def lastApplied : List SwitchEvent → Option Nat
  | [] => none
  | .applied i :: _ => some i
  | .joined _ :: events => lastApplied events

/-- The documents joined since then. -/
def joinedSince : List SwitchEvent → List DocKey
  | .joined d :: events => d :: joinedSince events
  | _ => []

lemma exists_applied_of_mem {events : List SwitchEvent} {i : Nat} (h : .applied i ∈ events) :
    ∃ j, lastApplied events = some j := by
  induction events with
  | nil => cases h
  | cons e events ih =>
    cases e with
    | applied j => exact ⟨j, rfl⟩
    | joined d =>
      refine ih ?_
      simpa using h

lemma applied_mem_of_last {events : List SwitchEvent} {i : Nat} (h : lastApplied events = some i) :
    .applied i ∈ events := by
  induction events with
  | nil => cases h
  | cons e events ih =>
    cases e with
    | applied j =>
      cases h
      exact List.mem_cons_self
    | joined d => exact List.mem_cons_of_mem _ (ih h)

/-- What has been joined since the last application has been joined since every earlier one. -/
lemma joined_mem_of_since {after before : List SwitchEvent} {i : Nat} {d : DocKey}
    (h : d ∈ joinedSince (after ++ .applied i :: before)) : .joined d ∈ after := by
  induction after with
  | nil => cases h
  | cons e after ih =>
    cases e with
    | applied j => cases h
    | joined d' =>
      rcases List.mem_cons.mp h with rfl | h
      · exact List.mem_cons_self
      · exact List.mem_cons_of_mem _ (ih h)

lemma lastApplied_append (ds : List DocKey) (events : List SwitchEvent) :
    lastApplied (ds.map .joined ++ events) = lastApplied events := by
  induction ds with
  | nil => rfl
  | cons d ds ih => exact ih

lemma joinedSince_append (ds : List DocKey) (events : List SwitchEvent) :
    joinedSince (ds.map .joined ++ events) = ds ++ joinedSince events := by
  induction ds with
  | nil => rfl
  | cons d ds ih => exact congrArg (d :: ·) ih

/-! ### The messages -/

def SetTokenStage.applied : SetTokenStage → Option JWTPayload
  | .finished response => response.payload
  | _ => none

def SetTokenStage.accepted : SetTokenStage → Option JWTPayload
  | .answered response | .finished response => response.payload
  | .waiting => none

/-- The fields of a connection that a token sets. -/
def WebSocketConnection.tokenFields (conn : WebSocketConnection) :
    Option TokenId × Option Access × Option JsDate :=
  (conn.tokenId, conn.access, conn.tokenExpiredAt)

def JWTPayload.tokenFields (payload : JWTPayload) :
    Option TokenId × Option Access × Option JsDate :=
  (some payload.tokenId, some (createAccessObject payload.docs), payload.expiredAt)

namespace TokenSwitch

variable {c : ConnectionId} {s t : TokenSwitch}

/-- The payload of a message whose token has been applied. -/
def applied (s : TokenSwitch) (i : Nat) : Option JWTPayload :=
  s.messages[i]?.bind SetTokenStage.applied

/-- The payload of a message whose token the API has accepted. -/
def accepted (s : TokenSwitch) (i : Nat) : Option JWTPayload :=
  s.messages[i]?.bind SetTokenStage.accepted

/-- All handlers of the messages have finished. -/
def Finished (s : TokenSwitch) : Prop := ∀ m ∈ s.messages, ∃ response, m = .finished response

/-- The last message in sending order whose token was accepted. -/
def IsLast (s : TokenSwitch) (i : Nat) (payload : JWTPayload) : Prop :=
  s.accepted i = some payload ∧ ∀ j, i < j → s.accepted j = none

/-- The connection has the token that was sent last, and is in no document that it has not joined
since that token was applied. -/
def LastWins (c : ConnectionId) (s : TokenSwitch) : Prop :=
  ∀ i payload, s.IsLast i payload →
    (s.node.proxy.conns c).tokenFields = payload.tokenFields ∧
    ∀ d, s.node.proxy.docService.Holds d c →
      ∃ after before, s.events = after ++ .applied i :: before ∧ .joined d ∈ after

/-- The token that was applied last says the same as the one that was sent last. -/
def LastAgrees (s : TokenSwitch) : Prop :=
  ∀ i payload, s.IsLast i payload → ∀ j payload', lastApplied s.events = some j →
    s.applied j = some payload' → payload'.tokenFields = payload.tokenFields

/-- No accepted token is applied after that of a later message. -/
def InTurn (s : TokenSwitch) : SwitchAction → Prop
  | .resume i => s.accepted i ≠ none → ∀ m ∈ s.messages.drop (i + 1), m.applied = none
  | _ => True

instance (s : TokenSwitch) : (a : SwitchAction) → Decidable (s.InTurn a)
  | .resume _ => inferInstanceAs (Decidable (_ → _))
  | .setToken | .apiAnswers _ _ | .node _ => isTrue trivial

/-! ### The invariant -/

/-- The handlers that wait for the connection are those of its joins, or its opening before the
first message. -/
def Waits (c : ConnectionId) (s : TokenSwitch) (call : HandlerCall) : Prop :=
  (∃ d answer, call = .onJoin c d answer) ∨
    s.messages = [] ∧ ∃ answer, call = .handleConnection c answer

structure Wf (c : ConnectionId) (s : TokenSwitch) : Prop where
  node : s.node.WF
  covered : s.node.proxy.docService.Covered c
  calls : ∀ call ∈ s.node.calls, call.conn = c → s.Waits c call
  opened : s.messages ≠ [] → (s.node.proxy.conns c).readyState ≠ .connecting
  dated : ∀ i payload, s.accepted i = some payload → payload.expiredAt.isSome = true
  events : ∀ i, .applied i ∈ s.events ↔ ∃ payload, s.applied i = some payload
  fields : ∀ i payload, lastApplied s.events = some i → s.applied i = some payload →
    (s.node.proxy.conns c).tokenFields = payload.tokenFields
  members : ∀ i, lastApplied s.events = some i → ∀ d, s.node.proxy.docService.Holds d c →
    d ∈ joinedSince s.events

lemma wf_init (c : ConnectionId) : init.Wf c where
  node := Node.wf_init
  covered := covered_init c
  calls call hcall := by simp [init, Node.init] at hcall
  opened h := absurd rfl h
  dated i payload h := by simp [accepted, init] at h
  events i := by simp [applied, init]
  fields i payload h := by simp [lastApplied, init] at h
  members i h := by simp [lastApplied, init] at h

lemma accepted_of_applied {i : Nat} {payload : JWTPayload} (h : s.applied i = some payload) :
    s.accepted i = some payload := by
  obtain ⟨m, hm, hpayload⟩ := Option.bind_eq_some_iff.mp h
  refine Option.bind_eq_some_iff.mpr ⟨m, hm, ?_⟩
  cases m with
  | finished response => exact hpayload
  | _ => cases hpayload

lemma Finished.accepted_eq (h : s.Finished) (i : Nat) : s.accepted i = s.applied i := by
  unfold accepted applied
  cases hm : s.messages[i]? with
  | none => rfl
  | some m =>
    obtain ⟨response, rfl⟩ := h m (List.mem_of_getElem? hm)
    rfl

/-- The message that a step sets is in a new stage, the others stay in theirs. -/
lemma applied_set {i : Nat} {old new : SetTokenStage} (hi : s.messages[i]? = some old)
    (ht : t.messages = s.messages.set i new) (j : Nat) :
    t.applied j = (if j = i then new.applied else s.applied j) ∧
      t.accepted j = if j = i then new.accepted else s.accepted j := by
  have hlt : i < s.messages.length := (List.getElem?_eq_some_iff.mp hi).1
  unfold applied accepted
  rw [ht]
  by_cases hj : j = i
  · subst hj
    simp [hlt]
  · simp [List.getElem?_set_ne (Ne.symm hj), hj]

/-- A new message has no token yet. -/
lemma applied_append (ht : t.messages = s.messages ++ [.waiting]) (j : Nat) :
    t.applied j = s.applied j ∧ t.accepted j = s.accepted j := by
  unfold applied accepted
  rw [ht]
  rcases Nat.lt_trichotomy j s.messages.length with hj | hj | hj
  · rw [List.getElem?_append_left hj]
    exact ⟨rfl, rfl⟩
  · subst hj
    simp [SetTokenStage.applied, SetTokenStage.accepted]
  · have hend : (s.messages ++ [.waiting])[j]? = none := by
      rw [List.getElem?_eq_none_iff, List.length_append]
      exact hj
    rw [List.getElem?_eq_none (Nat.le_of_lt hj), hend]
    exact ⟨rfl, rfl⟩

lemma ne_nil_of_applied {i : Nat} {payload : JWTPayload} (h : s.applied i = some payload) :
    s.messages ≠ [] := by
  rintro hnil
  simp [applied, hnil] at h

lemma mem_joins {n : Node} {a : NodeAction} {d : DocKey} :
    d ∈ joins c n a ↔ ∃ access, (c, d, access) ∈ n.grants a := by
  unfold joins
  rw [List.mem_filterMap]
  constructor
  · rintro ⟨⟨c', d', access⟩, hgranted, hd⟩
    simp only [Option.ite_none_right_eq_some, Option.some.injEq] at hd
    obtain ⟨rfl, rfl⟩ := hd
    exact ⟨access, hgranted⟩
  · rintro ⟨access, hgranted⟩
    exact ⟨_, hgranted, if_pos rfl⟩

/-- What an action does to the documents of the connection. -/
lemma docs_step {n n' : Node} (h : n.WF) (hc : n.proxy.docService.Covered c) {a : NodeAction}
    (ha : retokens c n a = false) (hs : n.step a = some n') :
    n'.proxy.docService.Covered c ∧ ∀ d, n'.proxy.docService.Holds d c →
      n.proxy.docService.Holds d c ∨ d ∈ joins c n a := by
  obtain ⟨ops, hdoc, hops⟩ := Node.docOps_step h hs
  have hunlisted : ∀ m, a = .onUpdateTokenMessage m → c ∉ n.proxy.connectionsOf m.oldTokenId := by
    rintro m rfl
    simpa [retokens] using ha
  rw [hdoc]
  refine covered_holds_foldl h.proxy.docService hc (joins c n a) ops fun op hop => ?_
  have hperforms := hops op hop
  by_cases hne : op.conn = c
  · refine .inr ?_
    cases op with
    | joinToDoc c' d =>
      obtain rfl : c' = c := hne
      exact .inr ⟨d, mem_joins.mpr hperforms, rfl⟩
    | disconnect c' =>
      obtain rfl : c' = c := hne
      exact .inl rfl
    | attach c' ds =>
      obtain rfl : c' = c := hne
      obtain ⟨m, ha, hlisted⟩ := hperforms
      exact absurd hlisted (hunlisted m ha)
    | detach c' rs =>
      obtain rfl : c' = c := hne
      obtain ⟨m, ha, hlisted⟩ := hperforms
      exact absurd hlisted (hunlisted m ha)
  · exact .inl hne

/-- What an action does to the token of the connection, when none of its tokens is on the way. -/
lemma tokenFields_step {n n' : Node} (h : n.WF)
    (hopen : (n.proxy.conns c).readyState ≠ .connecting)
    (hcalls : ∀ call ∈ n.calls, call.conn = c → call.payload = none) {a : NodeAction}
    (ha : retokens c n a = false) (hs : n.step a = some n') :
    (n'.proxy.conns c).tokenFields = (n.proxy.conns c).tokenFields := by
  cases Node.step_cases hs with
  | opening c' hc' =>
    have hne : c ≠ c' := fun he => hopen (he ▸ hc')
    rw [Proxy.conns_openConnection, if_neg hne]
  | opened c' hc' =>
    have hne : c ≠ c' := fun he => hopen (he ▸ hc')
    rw [(Proxy.handleConnection_eq n.proxy c' none).2 c hne]
  | failed c' d => rfl
  | joined c' d status hc' => rw [(Proxy.finishJoin_eq n.proxy c' d status).1]
  | suspended a call hc' hpay ha => rfl
  | answered call answered hcall hans => rfl
  | resumed call q hcall hq =>
    rcases Proxy.resume_accept hq with ⟨-, hconns, -⟩ | ⟨payload, hpayload, hconns, -⟩
    · rw [hconns]
    · have hne : c ≠ call.conn := by
        rintro rfl
        rw [hcalls call hcall rfl] at hpayload
        cases hpayload
      rw [hconns, Proxy.conns_accept, if_neg hne]
  | updated m =>
    rcases h.proxy.onUpdateTokenMessage_cases m with ⟨heq, -⟩ | ⟨cs, rights, hup⟩
    · rw [heq]
    · have hc : c ∉ cs := fun hc => by
        have hlisted : c ∈ n.proxy.connectionsOf m.oldTokenId :=
          Proxy.mem_connectionsOf.mpr ⟨cs, hup.listed, hc⟩
        simp [retokens, hlisted] at ha
      rw [hup.conns, if_neg hc]
  | checked now =>
    rcases (Proxy.checkTokenExpiration_checkedBy n.proxy now).conns c with he | he
    · rw [he]
    · rw [he]
      simp [WebSocketConnection.tokenFields]
  | disconnected c' hc' =>
    rw [Proxy.conns_handleDisconnect]
    split
    · rename_i he
      rw [he]
      rfl
    · rfl

/-- The calls of the connection after an action of the instance. -/
lemma Wf.waits (h : s.Wf c) {a : NodeAction} {n : Node} (ha : retokens c s.node a = false)
    (hs : s.node.step a = some n) {call : HandlerCall} (hcall : call ∈ n.calls)
    (hconn : call.conn = c) : s.Waits c call := by
  rcases Node.mem_calls_step hs hcall with hold | ⟨c', rfl, rfl⟩ | ⟨c', d, rfl⟩ | ⟨c', rfl, rfl⟩ |
    ⟨asked, hasked, hans, -⟩
  · exact h.calls call hold hconn
  · obtain rfl : c' = c := hconn
    refine .inr ⟨?_, none, rfl⟩
    by_contra hne
    simp only [Node.step, Option.ite_none_right_eq_some] at hs
    exact h.opened hne hs.1
  · obtain rfl : c' = c := hconn
    exact .inl ⟨d, none, rfl⟩
  · obtain rfl : c' = c := hconn
    simp [retokens] at ha
  · rcases h.calls asked hasked (HandlerCall.conn_of_answeredBy hans ▸ hconn) with
      ⟨d, answer, rfl⟩ | ⟨hnil, answer, rfl⟩
    · cases call with
      | onJoin c' d' answer' =>
        obtain rfl : c' = c := hconn
        exact .inl ⟨d', answer', rfl⟩
      | _ => simp [HandlerCall.answeredBy] at hans
    · cases call with
      | handleConnection c' answer' =>
        obtain rfl : c' = c := hconn
        exact .inr ⟨hnil, answer', rfl⟩
      | _ => simp [HandlerCall.answeredBy] at hans

lemma Wf.node_step (h : s.Wf c) {a : NodeAction} {n : Node} (ha : retokens c s.node a = false)
    (hs : s.node.step a = some n) :
    Wf c { s with node := n, events := (joins c s.node a).map .joined ++ s.events } := by
  obtain ⟨hcovered, hholds⟩ := docs_step h.node h.covered ha hs
  have hfields : s.messages ≠ [] →
      (n.proxy.conns c).tokenFields = (s.node.proxy.conns c).tokenFields := by
    intro hne
    refine tokenFields_step h.node (h.opened hne) (fun call hcall hconn => ?_) ha hs
    rcases h.calls call hcall hconn with ⟨d, answer, rfl⟩ | ⟨hnil, -⟩
    · rfl
    · exact absurd hnil hne
  exact {
    node := Node.wf_step h.node hs
    covered := hcovered
    calls := fun call hcall hconn => h.waits ha hs hcall hconn
    opened := fun hne => mt (Node.connecting_step h.node hs) (h.opened hne)
    dated := h.dated
    events := fun i => by
      refine Iff.trans ?_ (h.events i)
      simp
    fields := fun i payload hlast hi => by
      rw [lastApplied_append] at hlast
      exact (hfields (ne_nil_of_applied hi)).trans (h.fields i payload hlast hi)
    members := fun i hlast d hh => by
      rw [lastApplied_append] at hlast
      rw [joinedSince_append, List.mem_append]
      rcases hholds d hh with hold | hd
      · exact .inr (h.members i hlast d hold)
      · exact .inl hd }

lemma Wf.setToken (h : s.Wf c) (hc : s.node.proxy.connected c = true)
    (hopening : isOpening c s.node = false) :
    Wf c { s with messages := s.messages ++ [.waiting] } := by
  have hsame := fun j => applied_append (t := { s with messages := s.messages ++ [.waiting] }) rfl j
  exact {
    node := h.node
    covered := h.covered
    calls := fun call hcall hconn => by
      rcases h.calls call hcall hconn with hjoin | ⟨-, answer, rfl⟩
      · exact .inl hjoin
      · have hopen : isOpening c s.node = true := List.any_eq_true.mpr ⟨_, hcall, by simp⟩
        rw [hopening] at hopen
        cases hopen
    opened := fun _ => Proxy.ne_connecting_of_connected hc
    dated := fun i payload hi => h.dated i payload ((hsame i).2 ▸ hi)
    events := fun i => by
      rw [(hsame i).1]
      exact h.events i
    fields := fun i payload hlast hi => h.fields i payload hlast ((hsame i).1 ▸ hi)
    members := h.members }

/-- A message goes on to another stage in which no token has been applied. -/
lemma Wf.restage (h : s.Wf c) {i : Nat} {old new : SetTokenStage} (hi : s.messages[i]? = some old)
    (hold : old.applied = none) (hnew : new.applied = none)
    (hdated : ∀ payload, new.accepted = some payload → payload.expiredAt.isSome = true)
    (hmessages : t.messages = s.messages.set i new) (hevents : t.events = s.events)
    (hwf : t.node.WF) (hcalls : t.node.calls = s.node.calls)
    (hconns : t.node.proxy.conns = s.node.proxy.conns)
    (hdoc : t.node.proxy.docService = s.node.proxy.docService) : t.Wf c := by
  have hset := fun j => applied_set hi hmessages j
  have happlied : ∀ j, t.applied j = s.applied j := by
    intro j
    rw [(hset j).1]
    split
    · rename_i hj
      simp [hj, applied, hi, hold, hnew]
    · rfl
  have hne : s.messages ≠ [] := List.ne_nil_of_mem (List.mem_of_getElem? hi)
  exact {
    node := hwf
    covered := hdoc ▸ h.covered
    calls := fun call hcall hconn =>
      (h.calls call (hcalls ▸ hcall) hconn).imp_right fun hnil => absurd hnil.1 hne
    opened := fun _ => hconns ▸ h.opened hne
    dated := fun j payload hj => by
      rw [(hset j).2] at hj
      split at hj
      · exact hdated payload hj
      · exact h.dated j payload hj
    events := fun j => by
      rw [happlied, hevents]
      exact h.events j
    fields := fun j payload hlast hj => by
      rw [hconns]
      exact h.fields j payload (hevents ▸ hlast) (happlied j ▸ hj)
    members := fun j hlast d hh => by
      rw [hevents] at hlast ⊢
      exact h.members j hlast d (hdoc ▸ hh) }

lemma readyState_onSetToken (p : Proxy) (response : CheckClientTokenResponse) (c' : ConnectionId) :
    ((p.onSetToken c response).conns c').readyState = (p.conns c').readyState := by
  have hresume : p.resume (.onSetToken c (some response)) = some (p.onSetToken c response) := rfl
  exact Proxy.resume_readyState hresume c'

lemma Wf.onSetToken (h : s.Wf c) {i : Nat} {response : CheckClientTokenResponse}
    (hi : s.messages[i]? = some (.answered response)) :
    Node.WF { s.node with proxy := s.node.proxy.onSetToken c response } := by
  have hne : s.messages ≠ [] := List.ne_nil_of_mem (List.mem_of_getElem? hi)
  refine h.node.withProxy (h.node.proxy.onSetToken (h.opened hne) response) (fun c' hc' => ?_) _
    fun _ hcall => hcall
  rwa [readyState_onSetToken] at hc'

/-- An accepted token replaces the one before it, and the connection leaves its documents. -/
lemma Wf.accept (h : s.Wf c) {i : Nat} {payload : JWTPayload}
    (hi : s.messages[i]? = some (.answered (.ok payload))) :
    Wf c {
      node := { s.node with proxy := s.node.proxy.onSetToken c (.ok payload) }
      messages := s.messages.set i (.finished (.ok payload))
      events := .applied i :: s.events } := by
  have hset := fun j => applied_set
    (t := {
      node := { s.node with proxy := s.node.proxy.onSetToken c (.ok payload) }
      messages := s.messages.set i (.finished (.ok payload))
      events := .applied i :: s.events }) hi rfl j
  have hdoc : (s.node.proxy.onSetToken c (.ok payload)).docService =
      s.node.proxy.docService.disconnect c := by
    simp [Proxy.onSetToken, Proxy.applyToken_ok, Proxy.accept]
  have hdated : payload.expiredAt.isSome = true :=
    h.dated i payload (by
      simp [accepted, hi, SetTokenStage.accepted, CheckClientTokenResponse.payload])
  have hne : s.messages ≠ [] := List.ne_nil_of_mem (List.mem_of_getElem? hi)
  exact {
    node := h.onSetToken hi
    covered := hdoc ▸ covered_disconnect c h.covered
    calls := fun call hcall hconn =>
      (h.calls call hcall hconn).imp_right fun hnil => absurd hnil.1 hne
    opened := fun _ => by
      rw [readyState_onSetToken]
      exact h.opened hne
    dated := fun j payload' hj => by
      rw [(hset j).2] at hj
      split at hj
      · obtain rfl : payload = payload' := Option.some.inj hj
        exact hdated
      · exact h.dated j payload' hj
    events := fun j => by
      rw [(hset j).1]
      by_cases hj : j = i
      · simp [hj, SetTokenStage.applied, CheckClientTokenResponse.payload]
      · rw [if_neg hj, ← h.events j]
        simp [hj]
    fields := fun j payload' hlast hj => by
      obtain rfl : i = j := Option.some.inj hlast
      rw [(hset i).1, if_pos rfl] at hj
      obtain rfl : payload = payload' := Option.some.inj hj
      obtain ⟨expiredAt, he⟩ := Option.isSome_iff_exists.mp hdated
      simp [Proxy.onSetToken, Proxy.applyToken_ok, Proxy.conns_accept,
        WebSocketConnection.tokenFields, JWTPayload.tokenFields, he]
    members := fun j hlast d hh => by
      rw [hdoc] at hh
      exact absurd hh ((disconnect_removes_iff h.node.proxy.refreshed c).mpr h.covered d) }

lemma wf_step (h : s.Wf c) {a : SwitchAction} (hs : s.step c a = some t) : t.Wf c := by
  cases a with
  | setToken =>
    simp only [step, Option.ite_none_right_eq_some, Option.some.injEq] at hs
    obtain ⟨⟨hc, hopening⟩, rfl⟩ := hs
    exact h.setToken hc (Bool.eq_false_iff.mpr hopening)
  | apiAnswers i response =>
    simp only [step, Option.ite_none_right_eq_some, Option.some.injEq] at hs
    obtain ⟨⟨hi, hdated⟩, rfl⟩ := hs
    refine h.restage hi rfl rfl (fun payload hpayload => ?_) rfl rfl h.node rfl rfl rfl
    simp only [SetTokenStage.accepted] at hpayload
    simpa [CheckClientTokenResponse.isDated, hpayload] using hdated
  | resume i =>
    simp only [step] at hs
    split at hs
    · rename_i response hi
      cases hs
      cases response with
      | ok payload => exact h.accept hi
      | error status =>
        refine h.restage hi rfl rfl (fun payload hpayload => ?_) rfl rfl (h.onSetToken hi) rfl ?_ ?_
        · cases hpayload
        · simp [Proxy.onSetToken, Proxy.applyToken]
        · simp [Proxy.onSetToken, Proxy.applyToken]
    · cases hs
  | node a =>
    simp only [step] at hs
    split at hs
    · cases hs
    · rename_i ha
      obtain ⟨n, hn, rfl⟩ := Option.map_eq_some_iff.mp hs
      exact h.node_step (Bool.eq_false_iff.mpr ha) hn

/-! ### Handlers that are not overtaken -/

/-- No later message than the one whose token was applied last has had its token applied. -/
def Ordered (s : TokenSwitch) : Prop :=
  ∀ i, lastApplied s.events = some i → ∀ j, i < j → s.applied j = none

lemma ordered_step (h : s.Ordered) {a : SwitchAction} (hg : s.InTurn a)
    (hs : s.step c a = some t) : t.Ordered := by
  intro i hlast j hij
  cases a with
  | setToken =>
    simp only [step, Option.ite_none_right_eq_some, Option.some.injEq] at hs
    obtain ⟨-, rfl⟩ := hs
    rw [(applied_append rfl j).1]
    exact h i hlast j hij
  | apiAnswers k response =>
    simp only [step, Option.ite_none_right_eq_some, Option.some.injEq] at hs
    obtain ⟨⟨hk, -⟩, rfl⟩ := hs
    rw [(applied_set hk rfl j).1]
    split
    · rfl
    · exact h i hlast j hij
  | resume k =>
    simp only [step] at hs
    split at hs
    · rename_i response hk
      cases hs
      rw [(applied_set hk rfl j).1]
      cases response with
      | ok payload =>
        obtain rfl : k = i := Option.some.inj hlast
        have haccepted : s.accepted k ≠ none := by
          simp [accepted, hk, SetTokenStage.accepted, CheckClientTokenResponse.payload]
        rw [if_neg (Nat.ne_of_gt hij)]
        unfold applied
        cases hm : s.messages[j]? with
        | none => rfl
        | some m =>
          refine hg haccepted m ?_
          have hdrop : (s.messages.drop (k + 1))[j - (k + 1)]? = some m := by
            rw [List.getElem?_drop, Nat.add_sub_cancel' hij, hm]
          exact List.mem_of_getElem? hdrop
      | error status =>
        split
        · rfl
        · exact h i hlast j hij
    · cases hs
  | node a =>
    simp only [step] at hs
    split at hs
    · cases hs
    · obtain ⟨n, -, rfl⟩ := Option.map_eq_some_iff.mp hs
      rw [lastApplied_append] at hlast
      exact h i hlast j hij

lemma Ordered.lastAgrees (h : s.Ordered) (hs : s.Finished) : s.LastAgrees := by
  rintro i payload ⟨hi, hafter⟩ j payload' hlast hj
  have happlied : s.applied i = some payload := hs.accepted_eq i ▸ hi
  rcases Nat.lt_trichotomy i j with hij | rfl | hij
  · have hnone := hafter j hij
    rw [accepted_of_applied hj] at hnone
    cases hnone
  · rw [happlied] at hj
    rw [Option.some.inj hj]
  · rw [h j hlast i hij] at happlied
    cases happlied

/-- With all handlers finished the connection has the token applied last; of the documents it is only
in those it has joined since. -/
lemma Wf.lastWins_iff (h : s.Wf c) (hs : s.Finished) : s.LastWins c ↔ s.LastAgrees := by
  have hlast : ∀ i payload, s.IsLast i payload → ∃ j payload', lastApplied s.events = some j ∧
      s.applied j = some payload' := by
    rintro i payload ⟨hi, -⟩
    rw [hs.accepted_eq] at hi
    obtain ⟨j, hj⟩ := exists_applied_of_mem ((h.events i).mpr ⟨payload, hi⟩)
    obtain ⟨payload', hj'⟩ := (h.events j).mp (applied_mem_of_last hj)
    exact ⟨j, payload', hj, hj'⟩
  constructor
  · intro hwins i payload hi j payload' hj hj'
    rw [← h.fields j payload' hj hj']
    exact (hwins i payload hi).1
  · intro hagrees i payload hi
    obtain ⟨j, payload', hj, hj'⟩ := hlast i payload hi
    refine ⟨(h.fields j payload' hj hj').trans (hagrees i payload hi j payload' hj hj'), ?_⟩
    intro d hh
    have hmem : .applied i ∈ s.events :=
      (h.events i).mpr ⟨payload, hs.accepted_eq i ▸ hi.1⟩
    obtain ⟨after, before, hsplit⟩ := List.append_of_mem hmem
    exact ⟨after, before, hsplit, joined_mem_of_since (hsplit ▸ h.members j hj d hh)⟩

/-- When all handlers have finished, the last accepted token of the connection has won exactly if the
token that was applied last says the same, as it does if no accepted token is applied after that of a
later message. -/
theorem last_token_wins_iff (c : ConnectionId) (as : List SwitchAction) (s : TokenSwitch)
    (hrun : run (step c) init as = some s) (hs : s.Finished) :
    (s.LastWins c ↔ s.LastAgrees) ∧ (Guarded (step c) InTurn init as → s.LastWins c) := by
  have hwf : s.Wf c := run_invariant_of_step (Wf c) (fun _ _ _ h ht => wf_step h ht) hrun (wf_init c)
  refine ⟨hwf.lastWins_iff hs, fun hguard => (hwf.lastWins_iff hs).mpr ?_⟩
  have hordered : s.Ordered := run_invariant Ordered (fun _ _ _ h hg ht => ordered_step h hg ht) hrun
    hguard (by simp [Ordered, init, lastApplied])
  exact hordered.lastAgrees hs

/-- A payload with the right to read one document. -/
def reader (tokenId : TokenId) (docId : DocKey) : JWTPayload :=
  ⟨tokenId, "consumer", "user", some (.time 1000), [⟨docId, [.read]⟩]⟩

lemma finished_of_two {first second : CheckClientTokenResponse}
    (h : s.messages = [.finished first, .finished second]) : s.Finished := by
  intro m hm
  rw [h] at hm
  simp only [List.mem_cons, List.not_mem_nil, or_false] at hm
  rcases hm with rfl | rfl
  · exact ⟨first, rfl⟩
  · exact ⟨second, rfl⟩

/-- The answer to the first message comes after the second token has been applied. -/
theorem earlier_token_wins :
    ¬∀ (c : ConnectionId) (as : List SwitchAction) (s : TokenSwitch),
      run (step c) init as = some s → s.Finished → s.LastWins c := by
  intro h
  obtain ⟨s, hrun, hmessages, htoken⟩ : ∃ s, run (step "conn") init
      [.node (.handleConnection "conn" false), .setToken, .setToken,
        .apiAnswers 1 (.ok (reader "new" "doc")), .resume 1,
        .apiAnswers 0 (.ok (reader "old" "doc")), .resume 0] = some s ∧
      s.messages = [.finished (.ok (reader "old" "doc")), .finished (.ok (reader "new" "doc"))] ∧
      (s.node.proxy.conns "conn").tokenId = some "old" := ⟨_, rfl, rfl, rfl⟩
  have hfinished : s.Finished := finished_of_two hmessages
  have hlast : s.IsLast 1 (reader "new" "doc") := by
    refine ⟨by simp [accepted, hmessages]; rfl, fun j hj => ?_⟩
    simp [accepted, hmessages, List.getElem?_eq_none (l := [_, _]) hj]
  have hwins := congrArg Prod.fst (h "conn" _ s hrun hfinished 1 _ hlast).1
  simp [WebSocketConnection.tokenFields, JWTPayload.tokenFields, htoken, reader] at hwins

/-- A second token is applied after the first one, with a join before and after it. -/
theorem later_token_wins : ∃ s, run (step "conn") init
      [.node (.handleConnection "conn" false), .setToken, .apiAnswers 0 (.ok (reader "old" "doc")),
        .resume 0, .node (.onJoin "conn" "doc"), .setToken,
        .apiAnswers 1 (.ok (reader "new" "other")), .resume 1, .node (.onJoin "conn" "other")] =
      some s ∧ s.LastWins "conn" := by
  obtain ⟨s, hrun, hmessages⟩ : ∃ s, run (step "conn") init
      [.node (.handleConnection "conn" false), .setToken, .apiAnswers 0 (.ok (reader "old" "doc")),
        .resume 0, .node (.onJoin "conn" "doc"), .setToken,
        .apiAnswers 1 (.ok (reader "new" "other")), .resume 1, .node (.onJoin "conn" "other")] =
      some s ∧
      s.messages = [.finished (.ok (reader "old" "doc")), .finished (.ok (reader "new" "other"))] :=
    ⟨_, rfl, rfl⟩
  have hfinished : s.Finished := finished_of_two hmessages
  exact ⟨s, hrun, (last_token_wins_iff "conn" _ s hrun hfinished).2 (by decide)⟩

end TokenSwitch

end AlaFois
