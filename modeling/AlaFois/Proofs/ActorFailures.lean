import AlaFois.Model.ActorCalls

/-!
# What becomes of an actor's failure

A call of an actor can reject long after the handler has returned to its caller. The handlers of
changes and of `syncStart` have it awaited through every layer; `syncComplete` lets it go.
-/

namespace AlaFois

open Stepper

/-! ### The layers -/

section Layers

variable {build : DocKey → Except Thrown Unit}
  {answer : ∀ call : RemoteCall, Except Thrown call.Reply} {docId : DocKey} {c : ConnectionId}

namespace ActorService

variable {s : ActorService}

/-- The actor is there or can be built. -/
def Reaches (build : DocKey → Except Thrown Unit) (s : ActorService) (docId : DocKey) : Prop :=
  (s.getOrCreateActor build docId).isOk = true

/-- What the call of a method comes to. -/
def outcome (build : DocKey → Except Thrown Unit)
    (answer : ∀ call : RemoteCall, Except Thrown call.Reply) (s : ActorService) (docId : DocKey)
    (call : ActorCall) : Except Thrown call.Reply :=
  match s.getOrCreateActor build docId with
  | .error e => .error e
  | .ok _ =>
    (answer (.actor docId call)).mapError fun _ =>
      .messageError docId ActorConnectionError.message

lemma outcome_of_reaches (h : s.Reaches build docId) {call : ActorCall} :
    s.outcome build answer docId call = (answer (.actor docId call)).mapError fun _ =>
      .messageError docId ActorConnectionError.message := by
  unfold Reaches at h
  unfold outcome
  cases hbuild : s.getOrCreateActor build docId with
  | error e =>
    rw [hbuild] at h
    cases h
  | ok s => rfl

lemma result_call (call : ActorCall) :
    (s.call build docId call).2.result answer = s.outcome build answer docId call := by
  unfold ActorService.call outcome
  cases s.getOrCreateActor build docId with
  | error e => rfl
  | ok s =>
    refine (Async.result_catches _ _).trans ?_
    rw [Async.result_await]
    cases answer (.actor docId call) <;> rfl

lemma unhandled_call (call : ActorCall) :
    (s.call build docId call).2.unhandled answer = [] := by
  unfold ActorService.call
  cases s.getOrCreateActor build docId with
  | error e => rfl
  | ok s =>
    refine (Async.unhandled_catches _ _).trans ?_
    rw [Async.result_await]
    cases answer (.actor docId call) <;> rfl

/-- Only the actor is awaited, and only once. -/
lemma awaited_call (call : ActorCall) :
    ((s.call build docId call).2.awaited answer).Sublist [RemoteCall.actor docId call] := by
  unfold ActorService.call
  cases s.getOrCreateActor build docId with
  | error e => exact List.nil_sublist _
  | ok s =>
    refine List.Sublist.trans ?_ (List.Sublist.refl _)
    rw [Async.awaited_catches, Async.result_await, Async.awaited_await]
    cases answer (.actor docId call) <;> exact List.Sublist.refl _

end ActorService

/-- A failure of the producer is caught. -/
lemma unhandled_publish (answer : ∀ call : RemoteCall, Except Thrown call.Reply)
    (message : ChangesPubsubMessage) :
    (Pubsub.publish message).unhandled answer = [] := by
  simp only [Pubsub.publish, Async.unhandled_drops, Async.result_catches, Async.unhandled_catches,
    Async.result_await, Async.unhandled_await]
  cases answer (.send message) <;> rfl

namespace ActorMessage

/-- The connection passes the check of the handler and, for changes, is in the document. -/
def Passes (p : Proxy) (c : ConnectionId) : ActorMessage → Prop
  | .changes docId _ =>
    p.checkWriteAccess c docId = some .ok ∧
      (p.docService.assertClientJoined c docId).isOk = true
  | .syncStart docId _ => p.checkReadAccess c docId = some .ok
  | .syncComplete docId _ => p.checkWriteAccess c docId = some .ok

instance (p : Proxy) (c : ConnectionId) : (m : ActorMessage) → Decidable (m.Passes p c)
  | .changes _ _ => inferInstanceAs (Decidable (_ ∧ _))
  | .syncStart _ _ | .syncComplete _ _ => inferInstanceAs (Decidable (_ = _))

/-- The handler awaits what `ActorService` returns for its call. -/
def isAwaited : ActorMessage → Bool
  | .syncComplete _ _ => false
  | _ => true

/-- What a handler replies when it has awaited the call. -/
def response (docId : DocKey) : (call : ActorCall) → call.Reply → Option ServerMessage
  | .applyDiff _ _, syncNeeded => if syncNeeded = true then some (.requestSync syncNeeded) else none
  | .syncStart _, data => some (.syncResponse docId data.1 data.2)
  | .syncComplete _ _, _ => none

end ActorMessage

/-! ### The handlers -/

/-- What a handler awaits in its `try`, with its reply. -/
def tried {α : Type} (a : Promise α) (f : α → Option ServerMessage) :
    Promise (Option ServerMessage) :=
  (a.bind fun x => .pure (f x)).catches WsGateway.reply

/-- The reply, or the message of the error that has been caught. -/
def replied {α : Type} (f : α → Option ServerMessage) : Except Thrown α → Option ServerMessage
  | .ok x => f x
  | .error e => some e.toMessage

lemma result_tried {α : Type} (a : Promise α) (f : α → Option ServerMessage) :
    (tried a f).result answer = .ok (replied f (a.result answer)) := by
  rw [tried, Async.result_catches, Async.result_bind]
  cases a.result answer <;> rfl

lemma unhandled_tried {α : Type} (a : Promise α) (f : α → Option ServerMessage) :
    (tried a f).unhandled answer = a.unhandled answer := by
  rw [tried, Async.unhandled_catches, Async.unhandled_bind, Async.result_bind]
  cases a.result answer <;>
    simp [Async.follow, Async.recover, Async.pure, WsGateway.reply]

lemma awaited_tried {α : Type} (a : Promise α) (f : α → Option ServerMessage) :
    (tried a f).awaited answer = a.awaited answer := by
  rw [tried, Async.awaited_catches, Async.awaited_bind, Async.result_bind]
  cases a.result answer <;>
    simp [Async.follow, Async.recover, Async.pure, WsGateway.reply]

/-- What comes of the handler when the connection may send the message. -/
structure Handled (build : DocKey → Except Thrown Unit)
    (answer : ∀ call : RemoteCall, Except Thrown call.Reply) (s : ActorService) (c : ConnectionId)
    (m : ActorMessage) (promise : Promise (Option ServerMessage)) : Prop where
  result : promise.result answer = .ok (if m.isAwaited then
    replied (ActorMessage.response m.docId (m.call c)) (s.outcome build answer m.docId (m.call c))
    else none)
  unhandled : promise.unhandled answer = if m.isAwaited then [] else
    Async.rejection (s.outcome build answer m.docId (m.call c))
  awaited : (promise.awaited answer).Sublist [RemoteCall.actor m.docId (m.call c)]

variable {g : WsGateway} {s : ActorService}

/-- A handler that awaits the call of the actor. -/
lemma handled_of_awaited {m : ActorMessage} (hm : m.isAwaited = true)
    {a : Promise (m.call c).Reply}
    (hresult : a.result answer = s.outcome build answer m.docId (m.call c))
    (hunhandled : a.unhandled answer = [])
    (hawaited : (a.awaited answer).Sublist [RemoteCall.actor m.docId (m.call c)]) :
    Handled build answer s c m (tried a (ActorMessage.response m.docId (m.call c))) := by
  constructor
  · rw [result_tried, hresult, if_pos hm]
  · rw [unhandled_tried, hunhandled, if_pos hm]
  · rw [awaited_tried]
    exact hawaited

lemma handled_onChanges {changes : Changes}
    (h : (ActorMessage.changes docId changes).Passes g.proxy c) :
    Handled build answer g.actorService c (.changes docId changes)
      (g.onChanges build c docId changes).2 := by
  obtain ⟨hcheck, hjoined⟩ := h
  cases hdoc : g.proxy.docService.assertClientJoined c docId with
  | error e =>
    rw [hdoc] at hjoined
    cases hjoined
  | ok doc =>
    have hpublished := unhandled_publish answer (.changes c doc.id changes)
    simp only [WsGateway.onChanges, WsGateway.checked, hcheck, WsGateway.applyChanges,
      DocService.applyChanges, hdoc, Except.map]
    refine handled_of_awaited rfl ?_ ?_ ?_
    · exact (Async.result_bind _ _).trans (ActorService.result_call _)
    · refine (Async.unhandled_bind _ _).trans ?_
      rw [hpublished]
      exact ActorService.unhandled_call _
    · exact ((Async.awaited_bind _ _).symm ▸ ActorService.awaited_call _)

lemma handled_onSyncStart {vector : StateVector}
    (h : (ActorMessage.syncStart docId vector).Passes g.proxy c) :
    Handled build answer g.actorService c (.syncStart docId vector)
      (g.onSyncStart build c docId vector).2 := by
  have hcheck : g.proxy.checkReadAccess c docId = some .ok := h
  simp only [WsGateway.onSyncStart, WsGateway.checked, hcheck]
  exact handled_of_awaited rfl (ActorService.result_call _) (ActorService.unhandled_call _)
    (ActorService.awaited_call _)

/-- The handler of `syncComplete` awaits nothing; the promise of the call is dropped. -/
lemma handled_onSyncComplete {changes : Changes}
    (h : (ActorMessage.syncComplete docId changes).Passes g.proxy c) :
    Handled build answer g.actorService c (.syncComplete docId changes)
      (g.onSyncComplete build c docId changes).2 := by
  have hcheck : g.proxy.checkWriteAccess c docId = some .ok := h
  simp only [WsGateway.onSyncComplete, WsGateway.checked, hcheck]
  have hresult : (g.actorService.syncComplete build c docId changes).2.result answer =
      g.actorService.outcome build answer docId (.syncComplete changes c) :=
    ActorService.result_call _
  have hunhandled : (g.actorService.syncComplete build c docId changes).2.unhandled answer = [] :=
    ActorService.unhandled_call _
  constructor
  · rfl
  · refine (unhandled_tried _ _).trans ?_
    simp only [WsGateway.syncComplete, Async.unhandled_drops, hresult, hunhandled]
    simp [ActorMessage.isAwaited, Async.pure, ActorMessage.docId, ActorMessage.call]
  · exact List.nil_sublist _

lemma handled (build : DocKey → Except Thrown Unit)
    (answer : ∀ call : RemoteCall, Except Thrown call.Reply) (m : ActorMessage)
    (h : m.Passes g.proxy c) :
    Handled build answer g.actorService c m (g.handle build c m).2 := by
  cases m with
  | changes docId changes => exact handled_onChanges h
  | syncStart docId vector => exact handled_onSyncStart h
  | syncComplete docId changes => exact handled_onSyncComplete h

/-- The call of the actor is made, and rejects. -/
def Rejects (build : DocKey → Except Thrown Unit)
    (answer : ∀ call : RemoteCall, Except Thrown call.Reply) (s : ActorService) (c : ConnectionId)
    (m : ActorMessage) : Prop :=
  s.Reaches build m.docId ∧ ∃ e, answer (.actor m.docId (m.call c)) = .error e

/-- What the call comes to, by what can go wrong with it. -/
lemma outcome_cases (build : DocKey → Except Thrown Unit)
    (answer : ∀ call : RemoteCall, Except Thrown call.Reply) (s : ActorService) (c : ConnectionId)
    (m : ActorMessage) :
    (¬s.Reaches build m.docId ∧ ∃ e, s.outcome build answer m.docId (m.call c) = .error e) ∨
    (Rejects build answer s c m ∧ s.outcome build answer m.docId (m.call c) =
      .error (.messageError m.docId ActorConnectionError.message)) ∨
    (s.Reaches build m.docId ∧ ¬Rejects build answer s c m ∧
      ∃ r, s.outcome build answer m.docId (m.call c) = .ok r) := by
  unfold Rejects ActorService.Reaches ActorService.outcome
  cases hbuild : s.getOrCreateActor build m.docId with
  | error e => exact .inl ⟨by simp [Except.isOk, Except.toBool], e, rfl⟩
  | ok s' =>
    cases hanswer : answer (.actor m.docId (m.call c)) with
    | error e => exact .inr (.inl ⟨⟨rfl, e, rfl⟩, by simp [Except.mapError]⟩)
    | ok r => exact .inr (.inr ⟨rfl, by simp, r, by simp [Except.mapError]⟩)

/-- The reply to a failed call is an error message that names the document, unless its id is
empty. -/
lemma replied_failure (m : ActorMessage) (f : (m.call c).Reply → Option ServerMessage) :
    (∃ text, replied f (.error (.messageError m.docId ActorConnectionError.message)) =
      some (.error (some m.docId) text)) ↔ m.docId ≠ "" := by
  simp only [replied, Thrown.toMessage, messageError, Option.some.injEq, ServerMessage.error.injEq]
  by_cases h : m.docId = "" <;> simp [h]

end Layers

open Async Process

variable {build : DocKey → Except Thrown Unit}
  {answer : ∀ call : RemoteCall, Except Thrown call.Reply}

/-- The handler's promise has resolved, with an error message for the document if the actor's call
rejects, or it waits for that call, which has not been answered. No promise has rejected on which
nobody has set a handler. -/
structure Reported (build : DocKey → Except Thrown Unit)
    (answer : ∀ call : RemoteCall, Except Thrown call.Reply) (s : ActorService) (c : ConnectionId)
    (m : ActorMessage) (ts : List Turn)
    (q : Process RemoteCall RemoteCall.Reply Thrown (Option ServerMessage)) : Prop where
  resolves : (∃ next, q.main = .awaits (.actor m.docId (m.call c)) next ∧ .main ∉ ts) ∨
    ∃ reply, q.main = .settled (.ok reply) ∧
      (Rejects build answer s c m → ∃ text, reply = some (.error (some m.docId) text))
  handled : ∀ e, .settled (.error e) ∉ q.dropped

/-- The call does not reject, or it is awaited and the id is not empty. What is not awaited needs an
actor that can be built. -/
def Contained (build : DocKey → Except Thrown Unit)
    (answer : ∀ call : RemoteCall, Except Thrown call.Reply) (s : ActorService) (c : ConnectionId)
    (m : ActorMessage) : Prop :=
  (Rejects build answer s c m → m.isAwaited = true ∧ m.docId ≠ "") ∧
    (m.isAwaited = false → s.Reaches build m.docId)

/-- Whatever the order of the answers, what is reported is what comes of the computation. -/
lemma forall_reported_iff {s : ActorService} {c : ConnectionId} {m : ActorMessage}
    {a : Promise (Option ServerMessage)}
    (ha : (a.awaited answer).Sublist [RemoteCall.actor m.docId (m.call c)]) :
    (∀ ts q, run (step answer) (start a) ts = some q → Reported build answer s c m ts q) ↔
      (∃ reply, a.result answer = .ok reply ∧
        (Rejects build answer s c m → ∃ text, reply = some (.error (some m.docId) text))) ∧
      a.unhandled answer = [] := by
  constructor
  · intro hall
    obtain ⟨ts, q, hrun, hq⟩ := exists_completed answer (wf_start a)
    have hreported := hall ts q hrun
    obtain ⟨r, hr⟩ := hq.1
    constructor
    · rcases hreported.resolves with ⟨next, hwaits, -⟩ | ⟨reply, hsettled, herror⟩
      · rw [hr] at hwaits
        cases hwaits
      · refine ⟨reply, ?_, herror⟩
        rcases settled_or_waits hrun with hresult | ⟨call, next, hwaits, -⟩
        · exact (Async.settled.inj (hsettled.symm.trans hresult)).symm
        · rw [hr] at hwaits
          cases hwaits
    · refine List.eq_nil_iff_forall_not_mem.mpr fun e he => ?_
      exact hreported.handled e (settled_mem_of_unhandled hrun hq he)
  · rintro ⟨⟨reply, hresult, herror⟩, hunhandled⟩ ts q hrun
    refine ⟨?_, fun e he => ?_⟩
    · rcases settled_or_waits hrun with hsettled | ⟨call, next, hwaits, hmem, hcount⟩
      · exact .inr ⟨reply, hresult ▸ hsettled, herror⟩
      · obtain rfl : call = .actor m.docId (m.call c) := List.mem_singleton.mp (ha.subset hmem)
        have hlen : (a.awaited answer).length ≤ 1 := ha.length_le
        exact .inl ⟨next, hwaits, List.count_eq_zero.mp (by omega)⟩
    · have hmem := mem_unhandled hrun he
      rw [hunhandled] at hmem
      cases hmem

/-- Over every order in which the answers come, the handler reports what becomes of its actor call
exactly when the call does not reject or the handler awaits it and the id is not empty. -/
theorem actor_failures_reported_iff (build : DocKey → Except Thrown Unit)
    (answer : ∀ call : RemoteCall, Except Thrown call.Reply) (g : WsGateway) (c : ConnectionId)
    (m : ActorMessage) (h : m.Passes g.proxy c) :
    (∀ ts q, run (step answer) (start (g.handle build c m).2) ts = some q →
      Reported build answer g.actorService c m ts q) ↔
      Contained build answer g.actorService c m := by
  obtain ⟨hresult, hunhandled, hawaited⟩ := handled build answer m h
  rw [forall_reported_iff hawaited, hresult, hunhandled]
  simp only [Except.ok.injEq, exists_eq_left']
  unfold Contained
  cases hm : m.isAwaited with
  | true =>
    simp only [if_true, and_true, true_and, Bool.true_eq_false, false_imp_iff]
    refine imp_congr_right fun hrejects => ?_
    rcases outcome_cases build answer g.actorService c m with
      ⟨hreach, -⟩ | ⟨-, houtcome⟩ | ⟨-, hnot, -⟩
    · exact absurd hrejects.1 hreach
    · rw [houtcome]
      exact replied_failure m _
    · exact absurd hrejects hnot
  | false =>
    simp only [Bool.false_eq_true, if_false, false_and, imp_false, reduceCtorEq, exists_false,
      true_imp_iff]
    refine and_congr_right fun hnot => ?_
    rcases outcome_cases build answer g.actorService c m with
      ⟨hreach, e, houtcome⟩ | ⟨hrejects, -⟩ | ⟨hreach, -, r, houtcome⟩
    · rw [houtcome]
      exact iff_of_false (by simp [rejection]) hreach
    · exact absurd hrejects hnot
    · rw [houtcome]
      exact iff_of_true rfl hreach

/-- A failing actor, and a producer that sends. -/
def failingActor : ∀ call : RemoteCall, Except Thrown call.Reply
  | .actor _ _ => .error .other
  | .send _ => .ok ()

/-- A gateway with one connection, which may read and write one document and is in it. -/
def WsGateway.oneEditor : WsGateway where
  proxy :=
    { Proxy.init.modify "conn" fun conn =>
        { conn with access := some (createAccessObject [⟨"doc", [.read, .write]⟩]) } with
      docService := DocService.init.joinToDoc "conn" "doc" }
  actorService := ⟨[]⟩

/-- The failure of a `syncComplete` is left without a handler, and the client hears nothing. -/
theorem syncComplete_failure_escapes :
    ¬∀ (build : DocKey → Except Thrown Unit)
      (answer : ∀ call : RemoteCall, Except Thrown call.Reply) (g : WsGateway) (c : ConnectionId)
      (m : ActorMessage), m.Passes g.proxy c →
      ∀ ts q, run (step answer) (start (g.handle build c m).2) ts = some q →
        Reported build answer g.actorService c m ts q := by
  intro h
  obtain ⟨q, hrun, hdropped⟩ : ∃ q, run (step failingActor)
      (start (WsGateway.oneEditor.handle (fun _ => .ok ()) "conn" (.syncComplete "doc" "AA==")).2)
      [.dropped 0] = some q ∧
      q.dropped = [.settled (.error (.messageError "doc" ActorConnectionError.message))] :=
    ⟨_, rfl, rfl⟩
  have hreported := h (fun _ => .ok ()) failingActor WsGateway.oneEditor "conn"
    (.syncComplete "doc" "AA==") (by decide) _ q hrun
  exact hreported.handled _ (hdropped ▸ List.mem_cons_self)

/-- The failure of a `syncStart` comes back as an error message. -/
theorem syncStart_failure_reported :
    ∃ q : Process RemoteCall RemoteCall.Reply Thrown (Option ServerMessage),
      run (step failingActor)
        (start (WsGateway.oneEditor.handle (fun _ => .ok ()) "conn" (.syncStart "doc" "AA==")).2)
        [.main] = some q ∧
      Reported (fun _ => .ok ()) failingActor WsGateway.oneEditor.actorService "conn"
        (.syncStart "doc" "AA==") [.main] q := by
  obtain ⟨q, hrun⟩ : ∃ q, run (step failingActor)
      (start (WsGateway.oneEditor.handle (fun _ => .ok ()) "conn" (.syncStart "doc" "AA==")).2)
      [.main] = some q := ⟨_, rfl⟩
  refine ⟨q, hrun, (actor_failures_reported_iff (fun _ => .ok ()) failingActor WsGateway.oneEditor
    "conn" (.syncStart "doc" "AA==") (by decide)).mpr ⟨?_, ?_⟩ _ q hrun⟩
  · exact fun _ => ⟨rfl, by decide⟩
  · exact fun h => nomatch h

/-! ### The gateway with its waiting calls -/

namespace Gateway

def on (g : Gateway) (c : ConnectionId) : ActorMessage → Gateway × Emitted
  | .changes docId changes => g.onChanges c docId changes
  | .syncStart docId vector => g.onSyncStart c docId vector
  | .syncComplete docId changes => g.onSyncComplete c docId changes

/-- The request of the message. -/
def request (c : ConnectionId) (m : ActorMessage) : ActorRequest := ⟨c, m.docId, m.call c⟩

/-- Until the actor's answer the gateway does what the computation does, and it waits for the calls
that the handler awaits. -/
theorem on_eq {g : Gateway} {w : WsGateway} (hw : w.proxy = g.node.proxy) {c : ConnectionId}
    {m : ActorMessage} (h : m.Passes w.proxy c) :
    (g.on c m).1.node.proxy = (w.handle build c m).1.proxy ∧
      (g.on c m).2.actorCalls = [request c m] ∧
      (g.on c m).1.waiting =
        if m.isAwaited = true then request c m :: g.waiting else g.waiting := by
  cases m with
  | changes docId changes =>
    obtain ⟨hcheck, hjoined⟩ := h
    cases hdoc : w.proxy.docService.assertClientJoined c docId with
    | error e =>
      rw [hdoc] at hjoined
      cases hjoined
    | ok doc =>
      have hwrite : g.node.proxy.checkWriteAccess c docId = some .ok := hw ▸ hcheck
      have hassert : g.node.proxy.docService.assertClientJoined c docId = .ok doc := hw ▸ hdoc
      simp only [on, onChanges, hwrite, DocService.applyChanges, hassert, WsGateway.handle,
        WsGateway.onChanges, WsGateway.checked, hcheck, WsGateway.applyChanges, hdoc, Except.map,
        applied]
      refine ⟨?_, rfl, rfl⟩
      rw [hw]
      rfl
  | syncStart docId vector =>
    have hcheck : w.proxy.checkReadAccess c docId = some .ok := h
    have hread : g.node.proxy.checkReadAccess c docId = some .ok := hw ▸ hcheck
    simp only [on, onSyncStart, hread, WsGateway.handle, WsGateway.onSyncStart,
      WsGateway.checked, hcheck]
    exact ⟨hw.symm, rfl, rfl⟩
  | syncComplete docId changes =>
    have hcheck : w.proxy.checkWriteAccess c docId = some .ok := h
    have hwrite : g.node.proxy.checkWriteAccess c docId = some .ok := hw ▸ hcheck
    simp only [on, onSyncComplete, hwrite, WsGateway.handle, WsGateway.onSyncComplete,
      WsGateway.checked, hcheck]
    exact ⟨hw.symm, rfl, rfl⟩

/-- What the gateway is told of the answer of an actor. -/
def told : (call : ActorCall) → Except Thrown call.Reply → ActorReply
  | _, .error _ => .threw
  | .applyDiff _ _, .ok syncNeeded => .applyDiff syncNeeded
  | .syncStart _, .ok data => .syncStart data.1 data.2
  | .syncComplete _ _, .ok _ => .syncComplete

/-- With the answer it sends what the handler's promise resolves to. -/
theorem actorReplied_eq (g : Gateway) {w : WsGateway} {c : ConnectionId} {m : ActorMessage}
    (h : m.Passes w.proxy c) (hm : m.isAwaited = true)
    (hreach : w.actorService.Reaches build m.docId) :
    ∃ reply, (w.handle build c m).2.result answer = .ok reply ∧
      g.actorReplied (request c m) (told (m.call c) (answer (.actor m.docId (m.call c)))) =
        reply.elim g (g.send c) := by
  refine ⟨_, (handled build answer m h).result, ?_⟩
  rw [if_pos hm, ActorService.outcome_of_reaches hreach]
  generalize answer (.actor m.docId (m.call c)) = o
  cases m with
  | changes docId changes =>
    cases o with
    | error e => rfl
    | ok syncNeeded =>
      cases syncNeeded <;> rfl
  | syncStart docId vector => cases o <;> rfl
  | syncComplete docId changes => cases hm

end Gateway

end AlaFois
