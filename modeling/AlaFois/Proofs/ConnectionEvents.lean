import AlaFois.Model.ConnectionEvents
import AlaFois.Proofs.OneSocket
import Mathlib.Data.List.Chain

/-!
# What the listeners of a connection are told

With one call of `connect`, 'connect' and 'disconnect' take turns. A reconnection is not announced,
so the events are what they should be as long as the connection is made once.
-/

namespace AlaFois

open Stepper

/-- The events between one 'disconnect' and the next. -/
def sections : List EmittedEvent → List (List EmittedEvent)
  | [] => [[]]
  | .disconnect :: events => [] :: sections events
  | event :: events =>
    match sections events with
    | [] => [[event]]
    | first :: rest => (event :: first) :: rest

/-- 'connect' comes first, and then 'disconnect' and 'connect' take turns. -/
def Alternating (events : List EmittedEvent) : Prop :=
  (events.filter (· ≠ .reconnect)).head? ≠ some .disconnect ∧
    (events.filter (· ≠ .reconnect)).IsChain (· ≠ ·)

/-- Every 'connect' after the first 'disconnect' has its 'reconnect' before the next one, and there
is no other 'reconnect'. -/
def Announced (events : List EmittedEvent) : Prop :=
  .reconnect ∉ (sections events).headD [] ∧
    ∀ es ∈ (sections events).tail, es.count .reconnect = es.count .connect

instance (events : List EmittedEvent) : Decidable (Alternating events) :=
  inferInstanceAs (Decidable (_ ∧ _))

instance (events : List EmittedEvent) : Decidable (Announced events) :=
  inferInstanceAs (Decidable (_ ∧ _))

/-- The flow of the test: connected, dropped and connected again. -/
example : Alternating [.connect, .disconnect, .connect, .reconnect] ∧
    Announced [.connect, .disconnect, .connect, .reconnect] := by decide

namespace WsConnection

variable {s t : WsConnection} {n k : Nat} {socket : WebSocket} {a : ConnectionAction}

/-- `handleClose` will be called when the socket closes. -/
def ListensAt (s : WsConnection) (n : Nat) : Prop :=
  ∃ socket, s.sockets[n]? = some socket ∧ socket.closeListener = true ∧ socket.readyState ≠ .closed

/-- Between 'disconnect' and the next 'connect'. -/
structure Down (s : WsConnection) : Prop where
  job : s.job ≠ some .addListeners
  quiet : ∀ n, ¬s.ListensAt n

/-- Between 'connect' and the next 'disconnect'. -/
structure Up (s : WsConnection) : Prop where
  one : ∀ n k, s.ListensAt n → s.ListensAt k → n = k
  adding : s.job = some .addListeners → ∀ n, ¬s.ListensAt n

lemma listensAt_of_modify {f : WebSocket → WebSocket}
    (hf : ∀ socket, s.sockets[n]? = some socket → (f socket).closeListener = true →
      (f socket).readyState ≠ .closed → socket.closeListener = true ∧ socket.readyState ≠ .closed)
    (h : (s.modify n f).ListensAt k) : s.ListensAt k := by
  refine socket_of_modify (fun socket hget hlistens => ?_) h
  exact hf socket hget hlistens.1 hlistens.2

lemma listensAt_connectFn (h : s.connectFn.ListensAt k) : s.ListensAt k := by
  obtain ⟨socket, hget, hlistens, hopen⟩ := h
  by_cases hk : k < s.sockets.length
  · rw [WsConnection.connectFn, List.getElem?_append_left hk] at hget
    exact ⟨socket, hget, hlistens, hopen⟩
  · rw [WsConnection.connectFn, List.getElem?_append_right (Nat.le_of_not_lt hk)] at hget
    have hnew : socket = .new := by simpa using List.mem_of_getElem? hget
    rw [hnew] at hlistens
    cases hlistens

/-- The listeners are added to the current socket. -/
lemma listensAt_addListeners (h : s.addListeners.ListensAt k) :
    k = s.sockets.length - 1 ∨ s.ListensAt k := by
  obtain ⟨socket, hget, hlistens, hopen⟩ := h
  obtain ⟨socket', hget', ⟨-, rfl⟩ | ⟨rfl, -⟩⟩ := getElem?_modify hget
  · exact .inl rfl
  · exact .inr ⟨socket, hget', hlistens, hopen⟩

lemma listensAt_messageHandler {status : Status} {again : Bool}
    (h : (s.messageHandler n socket again status).ListensAt k) : s.ListensAt k :=
  socket_of_messageHandler (fun _ _ hlistens => hlistens) h

lemma listensAt_ended {failed again : Bool} {code : Nat}
    (h : (s.ended n socket failed code again).ListensAt k) : k ≠ n ∧ s.ListensAt k := by
  obtain ⟨other, hget, hlistens, hopen⟩ := h
  have hk : k ≠ n := by
    rintro rfl
    exact hopen (Sound.closed_of_ended_self hget)
  exact ⟨hk, other, (Sound.getElem?_ended_ne hk).symm.trans hget, hlistens, hopen⟩

lemma job_messageHandler {status : Status} {again : Bool}
    (h : status ≠ .ok ∨ socket.promise ≠ .pending) :
    (s.messageHandler n socket again status).job = s.job := by
  cases status with
  | ok => rw [messageHandler, if_neg (h.resolve_left (fun hne => hne rfl))]
  | err message =>
    unfold messageHandler reject
    dsimp only
    split_ifs <;> rfl

/-! ### What a step emits -/

lemma emits_connectResponse (hget : s.sockets[n]? = some socket) (status : Status) (again : Bool) :
    status = .ok ∧ socket.promise = .pending ∧
        s.emits (.connectResponse n status again) = [.connect] ∨
      (status ≠ .ok ∨ socket.promise ≠ .pending) ∧
        s.emits (.connectResponse n status again) = [] := by
  cases status with
  | ok =>
    by_cases hp : socket.promise = .pending
    · exact .inl ⟨rfl, hp, by simp [emits, hget, hp]⟩
    · exact .inr ⟨.inr hp, by simp [emits, hget, hp]⟩
  | err message => exact .inr ⟨.inl (by simp), rfl⟩

lemma emits_ended (hget : s.sockets[n]? = some socket) {failed again : Bool} {code : Nat} :
    s.emits (.ended n failed code again) =
      if socket.closeListener then [.disconnect] else [] := by
  simp [emits, hget]

/-- Only 'connect' follows a 'disconnect'. -/
lemma Down.step (h : s.Down) (ht : s.step a = some t) :
    s.emits a = [] ∧ t.Down ∨ s.emits a = [.connect] ∧ t.Up := by
  cases step_cases ht with
  | connect => exact .inl ⟨rfl, h.job, h.quiet⟩
  | connectFn hpos => exact .inl ⟨rfl, h.job, fun n hn => h.quiet n (listensAt_connectFn hn)⟩
  | addListeners hjob => exact absurd hjob h.job
  | reconnect hjob => exact .inl ⟨rfl, by simp [WsConnection.connect], h.quiet⟩
  | opened n socket hjob hget hconn =>
    refine .inl ⟨rfl, h.job, fun k hk => h.quiet k (listensAt_of_modify ?_ hk)⟩
    intro socket' hget' hlistens _
    rw [hget] at hget'
    cases hget'
    exact ⟨hlistens, by simp [hconn]⟩
  | connectResponse n socket status again hjob hget hopen =>
    have hquiet : ∀ k, ¬(s.messageHandler n socket again status).ListensAt k := fun k hk =>
      h.quiet k (listensAt_messageHandler hk)
    rcases emits_connectResponse hget status again with
      ⟨-, -, hemits⟩ | ⟨hrest, hemits⟩
    · exact .inr ⟨hemits, fun n _ hn _ => absurd hn (hquiet n), fun _ => hquiet⟩
    · exact .inl ⟨hemits, by simp [job_messageHandler hrest, hjob], hquiet⟩
  | ended n socket failed code again hjob hget hopen =>
    have hlistener : socket.closeListener = false := by
      by_contra hlistens
      exact h.quiet n ⟨socket, hget, by simpa using hlistens, hopen⟩
    refine .inl ⟨by rw [emits_ended hget, hlistener]; rfl, Sound.job_ended hjob, fun k hk => ?_⟩
    exact h.quiet k (listensAt_ended hk).2

/-- Only the socket that is listened to ends the connection; another 'connect' is possible where
`connect` has been called more than once. -/
lemma Up.step (h : s.Up) (ht : s.step a = some t) :
    s.emits a = [] ∧ t.Up ∨ s.emits a = [.disconnect] ∧ t.Down ∨ s.emits a = [.connect] := by
  -- a step that adds no listener to a socket
  have hkeep : (∀ n, t.ListensAt n → s.ListensAt n) →
      (t.job = some .addListeners → s.job = some .addListeners) → t.Up := fun hback hjob =>
    ⟨fun n k hn hk => h.one n k (hback n hn) (hback k hk),
      fun hadding n hn => h.adding (hjob hadding) n (hback n hn)⟩
  cases step_cases ht with
  | connect => exact .inl ⟨rfl, hkeep (fun _ hn => hn) id⟩
  | connectFn hpos => exact .inl ⟨rfl, hkeep (fun _ hn => listensAt_connectFn hn) id⟩
  | addListeners hjob =>
    have hlast : ∀ n, s.addListeners.ListensAt n → n = s.sockets.length - 1 := fun n hn =>
      (listensAt_addListeners hn).resolve_right (h.adding hjob n)
    refine .inl ⟨rfl, fun n k hn hk => (hlast n hn).trans (hlast k hk).symm, ?_⟩
    simp [WsConnection.addListeners]
  | reconnect hjob =>
    exact .inl ⟨rfl, hkeep (fun _ hn => hn) (by simp [WsConnection.connect])⟩
  | opened n socket hjob hget hconn =>
    refine .inl ⟨rfl, hkeep (fun k hk => listensAt_of_modify ?_ hk) id⟩
    intro socket' hget' hlistens _
    rw [hget] at hget'
    cases hget'
    exact ⟨hlistens, by simp [hconn]⟩
  | connectResponse n socket status again hjob hget hopen =>
    rcases emits_connectResponse hget status again with ⟨-, -, hemits⟩ | ⟨hrest, hemits⟩
    · exact .inr (.inr hemits)
    · refine .inl ⟨hemits, hkeep (fun _ hk => listensAt_messageHandler hk) fun hadding => ?_⟩
      rwa [job_messageHandler hrest] at hadding
  | ended n socket failed code again hjob hget hopen =>
    have hnot : (s.ended n socket failed code again).job ≠ some .addListeners :=
      Sound.job_ended hjob
    rw [emits_ended hget]
    cases hlistens : socket.closeListener with
    | true =>
      refine .inr (.inl ⟨rfl, hnot, fun k hk => ?_⟩)
      obtain ⟨hne, hold⟩ := listensAt_ended hk
      exact hne (h.one k n hold ⟨socket, hget, hlistens, hopen⟩)
    | false =>
      exact .inl ⟨rfl, hkeep (fun _ hk => (listensAt_ended hk).2) fun hadding =>
        absurd hadding hnot⟩

/-! ### One call of connect -/

/-- The listeners are about to be added, or one waits for the end of the socket. -/
def Held (s : WsConnection) : Prop := s.job = some .addListeners ∨ ∃ n, s.ListensAt n

lemma busyAt_of_listensAt (h : s.ListensAt n) : s.BusyAt n := by
  obtain ⟨socket, hget, hlistens, hopen⟩ := h
  exact ⟨socket, hget, hopen, .inr hlistens⟩

lemma listensAt_modify {f : WebSocket → WebSocket}
    (hf : ∀ socket, s.sockets[n]? = some socket → socket.closeListener = true →
      socket.readyState ≠ .closed →
      (f socket).closeListener = true ∧ (f socket).readyState ≠ .closed)
    (h : s.ListensAt k) : (s.modify n f).ListensAt k := by
  obtain ⟨socket, hget, hlistens, hopen⟩ := h
  by_cases hk : k = n
  · subst hk
    refine ⟨f socket, ?_, hf socket hget hlistens hopen⟩
    simp [hget]
  · refine ⟨socket, ?_, hlistens, hopen⟩
    simp [hget, Ne.symm hk]

/-- 'connect' is emitted when the promise of an open socket resolves. -/
lemma resolved_of_emits (ht : s.step a = some t) (hemits : s.emits a = [.connect]) :
    ∃ n socket, s.job = none ∧ s.sockets[n]? = some socket ∧ socket.readyState ≠ .closed ∧
      socket.promise = .pending ∧ t = s.resolve n := by
  cases step_cases ht with
  | connect => cases hemits
  | connectFn hpos => cases hemits
  | addListeners hjob => cases hemits
  | reconnect hjob => cases hemits
  | opened n socket hjob hget hconn => cases hemits
  | ended n socket failed code again hjob hget hopen =>
    rw [emits_ended hget] at hemits
    split at hemits <;> cases hemits
  | connectResponse n socket status again hjob hget hopen =>
    rcases emits_connectResponse hget status again with ⟨rfl, hpending, -⟩ | ⟨-, hnot⟩
    · exact ⟨n, socket, hjob, hget, by simp [hopen], hpending, if_pos hpending⟩
    · cases hnot.symm.trans hemits

lemma held_of_emits (ht : s.step a = some t) (hemits : s.emits a = [.connect]) : t.Held := by
  obtain ⟨n, socket, -, -, -, -, rfl⟩ := resolved_of_emits ht hemits
  exact .inl rfl

/-- While a listener waits for the end of a socket, no promise is waited for. -/
lemma Held.emits_ne_connect (h : s.Held) (hs : s.Sound) (ht : s.step a = some t) :
    s.emits a ≠ [.connect] := by
  intro hemits
  obtain ⟨n, socket, hjob, hget, hopen, hpending, -⟩ := resolved_of_emits ht hemits
  obtain ⟨k, hk⟩ := h.resolve_left (by simp [hjob])
  have heq := hs.loop.eq_of_busyAt ⟨socket, hget, hopen, .inl hpending⟩ (busyAt_of_listensAt hk)
  subst heq
  obtain ⟨socket', hget', hlistens, -⟩ := hk
  rw [hget] at hget'
  cases hget'
  simp [hs.loop.closeListener_eq_false hget hopen hpending] at hlistens

lemma Held.step (h : s.Held) (hs : s.Sound) (ht : s.step a = some t) (hemits : s.emits a = []) :
    t.Held := by
  cases step_cases ht with
  | connect => exact h
  | connectFn hpos =>
    rcases h with hadding | ⟨n, socket, hget, hlistens⟩
    · exact .inl hadding
    · refine .inr ⟨n, socket, ?_, hlistens⟩
      exact (List.getElem?_append_left (List.getElem?_eq_some_iff.mp hget).1).trans hget
  | addListeners hjob =>
    obtain ⟨socket, hws, hopen⟩ := hs.adding hjob
    refine .inr ⟨s.sockets.length - 1, { socket with closeListener := true }, ?_, rfl, hopen⟩
    have hget : s.sockets[s.sockets.length - 1]? = some socket := hws
    simp [WsConnection.addListeners, modifyWs, hget]
  | reconnect hjob =>
    obtain ⟨n, hn⟩ := h.resolve_left (by simp [hjob])
    exact absurd (busyAt_of_listensAt hn) (hs.loop.not_busyAt (.inl (by simp [hjob])))
  | opened n socket hjob hget hconn =>
    rcases h with hadding | ⟨k, hk⟩
    · exact .inl hadding
    · refine .inr ⟨k, listensAt_modify (fun socket' _ hlistens _ => ?_) hk⟩
      exact ⟨hlistens, by simp⟩
  | connectResponse n socket status again hjob hget hopen =>
    obtain ⟨k, hk⟩ := h.resolve_left (by simp [hjob])
    refine .inr ⟨k, ?_⟩
    rcases emits_connectResponse hget status again with ⟨-, -, hconnect⟩ | ⟨hrest, -⟩
    · cases hconnect.symm.trans hemits
    · cases status with
      | ok => rwa [messageHandler, if_neg (hrest.resolve_left fun hne => hne rfl)]
      | err message =>
        by_cases hp : socket.promise = .pending
        · rw [messageHandler, if_pos hp, ListensAt, sockets_reject]
          exact listensAt_modify (f := fun socket => { socket with promise := .rejected })
            (fun _ _ hlistens hopen => ⟨hlistens, hopen⟩) hk
        · rwa [messageHandler, if_neg hp]
  | ended n socket failed code again hjob hget hopen =>
    obtain ⟨k, socket', hget', hlistens, hopen'⟩ := h.resolve_left (by simp [hjob])
    have hk : k ≠ n := by
      rintro rfl
      rw [hget] at hget'
      cases hget'
      rw [emits_ended hget, hlistens] at hemits
      cases hemits
    exact .inr ⟨k, socket', (Sound.getElem?_ended_ne hk).trans hget', hlistens, hopen'⟩

end WsConnection

namespace EmittingConnection

variable {s t : EmittingConnection} {a : ConnectionAction}

/-- The law of the events. -/
def Lawful (s : EmittingConnection) : Prop := Alternating s.emitted ∧ Announced s.emitted

instance (s : EmittingConnection) : Decidable s.Lawful := inferInstanceAs (Decidable (_ ∧ _))

/-- No handshake succeeds once the connection has been made. -/
def ConnectsOnce (s : EmittingConnection) : ConnectionAction → Prop
  | .connectResponse n .ok _ => s.connection.PendingAt n → s.emitted = []
  | .connectResponse _ (.err _) _ | .ended _ _ _ _ | .opened _ | .connect | .connectFn
  | .resume => True

lemma step_eq_some (ht : s.step a = some t) : s.connection.step a = some t.connection ∧
    t.emitted = s.emitted ++ s.connection.emits a := by
  obtain ⟨connection, hstep, rfl⟩ := Option.map_eq_some_iff.mp ht
  exact ⟨hstep, rfl⟩

lemma connectsOnce_iff :
    s.ConnectsOnce a ↔ (s.connection.emits a = [.connect] → s.emitted = []) := by
  cases a with
  | connectResponse n status again =>
    cases status with
    | err message => simp [ConnectsOnce, WsConnection.emits]
    | ok =>
      refine imp_congr_left ?_
      cases hget : s.connection.sockets[n]? with
      | none => simp [WsConnection.PendingAt, WsConnection.emits, hget]
      | some socket => simp [WsConnection.PendingAt, WsConnection.emits, hget]
  | ended n failed code again =>
    refine iff_of_true trivial fun hemits => ?_
    cases hget : s.connection.sockets[n]? with
    | none => simp [WsConnection.emits, hget] at hemits
    | some socket =>
      rw [WsConnection.emits_ended hget] at hemits
      split at hemits <;> cases hemits
  | opened n => simp [ConnectsOnce, WsConnection.emits]
  | connect => simp [ConnectsOnce, WsConnection.emits]
  | connectFn => simp [ConnectsOnce, WsConnection.emits]
  | resume => simp [ConnectsOnce, WsConnection.emits]

/-- Before, during and after the only connection. -/
inductive Once (s : EmittingConnection) : Prop
  | before (hemitted : s.emitted = []) (hdown : s.connection.Down)
  | during (hemitted : s.emitted = [.connect]) (hup : s.connection.Up)
  | after (hemitted : s.emitted = [.connect, .disconnect]) (hdown : s.connection.Down)

lemma Once.lawful (h : s.Once) : s.Lawful := by
  rw [Lawful]
  cases h with
  | before hemitted _ =>
    rw [hemitted]
    decide
  | during hemitted _ =>
    rw [hemitted]
    decide
  | after hemitted _ =>
    rw [hemitted]
    decide

lemma once_init : init.Once := .before rfl ⟨by simp [init, WsConnection.init], by
  rintro n ⟨socket, hget, -⟩
  cases hget⟩

lemma Once.step (h : s.Once) (hok : s.ConnectsOnce a) (ht : s.step a = some t) : t.Once := by
  obtain ⟨hstep, hemitted⟩ := step_eq_some ht
  have honce := connectsOnce_iff.mp hok
  cases h with
  | before hbefore hdown =>
    rw [hbefore] at hemitted
    rcases hdown.step hstep with ⟨hemits, hdown⟩ | ⟨hemits, hup⟩
    · exact .before (by rw [hemitted, hemits]; rfl) hdown
    · exact .during (by rw [hemitted, hemits]; rfl) hup
  | during hduring hup =>
    rw [hduring] at hemitted honce
    rcases hup.step hstep with ⟨hemits, hup⟩ | ⟨hemits, hdown⟩ | hemits
    · exact .during (by rw [hemitted, hemits]; rfl) hup
    · exact .after (by rw [hemitted, hemits]; rfl) hdown
    · cases honce hemits
  | after hafter hdown =>
    rw [hafter] at hemitted honce
    rcases hdown.step hstep with ⟨hemits, hdown⟩ | ⟨hemits, -⟩
    · exact .after (by rw [hemitted, hemits]; rfl) hdown
    · cases honce hemits

/-- Another 'connect' is one too many, or one that is not announced. -/
lemma Once.connectsOnce (h : s.Once) (ht : s.step a = some t) (hlawful : t.Lawful) :
    s.ConnectsOnce a := by
  refine connectsOnce_iff.mpr fun hemits => ?_
  obtain ⟨-, hemitted⟩ := step_eq_some ht
  rw [Lawful, hemitted, hemits] at hlawful
  cases h with
  | before hbefore _ => exact hbefore
  | during hduring _ =>
    rw [hduring] at hlawful
    exact absurd hlawful (by decide)
  | after hafter _ =>
    rw [hafter] at hlawful
    exact absurd hlawful (by decide)

/-- What holds after one call of `connect`. -/
structure Flow (s : EmittingConnection) : Prop where
  sound : s.connection.Sound
  unannounced : .reconnect ∉ s.emitted
  alternating : Alternating s.emitted
  phase : s.emitted.getLast? ≠ some .connect ∧ s.connection.Down ∨
    s.emitted.getLast? = some .connect ∧ s.connection.Up ∧ s.connection.Held

lemma filter_eq_self {events : List EmittedEvent} (h : .reconnect ∉ events) :
    events.filter (· ≠ .reconnect) = events :=
  List.filter_eq_self.mpr fun event hevent => by
    simp only [ne_eq, decide_not, Bool.not_eq_true', decide_eq_false_iff_not]
    rintro rfl
    exact h hevent

lemma alternating_append {events : List EmittedEvent} {event : EmittedEvent}
    (h : Alternating events) (hnot : .reconnect ∉ events) (hevent : event ≠ .reconnect)
    (hlast : events.getLast? ≠ some event) (hfirst : events ≠ [] ∨ event = .connect) :
    Alternating (events ++ [event]) := by
  have hnot' : .reconnect ∉ events ++ [event] := by simp [hnot, Ne.symm hevent]
  unfold Alternating at h ⊢
  rw [filter_eq_self hnot] at h
  rw [filter_eq_self hnot']
  refine ⟨?_, ?_⟩
  · cases events with
    | nil => simp [hfirst.resolve_left (fun hne => hne rfl)]
    | cons first rest => exact h.1
  · rw [List.isChain_append]
    refine ⟨h.2, List.isChain_singleton _, fun last hmem first hfirst => ?_⟩
    obtain rfl : event = first := by simpa using hfirst
    rintro rfl
    exact hlast hmem

lemma flow_connected : (⟨WsConnection.init.connect, []⟩ : EmittingConnection).Flow where
  sound := .connected
  unannounced := by simp
  alternating := by
    unfold Alternating
    decide
  phase := by
    refine .inl ⟨by simp, by simp [WsConnection.connect, WsConnection.init], ?_⟩
    rintro n ⟨socket, hget, -⟩
    cases hget

lemma Flow.step (h : s.Flow) (ha : a ≠ .connect) (ht : s.step a = some t) : t.Flow := by
  obtain ⟨hstep, hemitted⟩ := step_eq_some ht
  have hsound := h.sound.step ha hstep
  -- nothing is emitted, or one event that is not the last one again
  have hquiet : s.connection.emits a = [] → t.emitted = s.emitted := fun hemits => by
    rw [hemitted, hemits, List.append_nil]
  have hlast {event : EmittedEvent} (hemits : s.connection.emits a = [event]) :
      t.emitted.getLast? = some event := by
    rw [hemitted, hemits, List.getLast?_concat]
  have hone {event : EmittedEvent} (hemits : s.connection.emits a = [event])
      (hevent : event ≠ .reconnect) : .reconnect ∉ t.emitted := by
    rw [hemitted, hemits]
    simp [h.unannounced, Ne.symm hevent]
  rcases h.phase with ⟨hnot, hdown⟩ | ⟨hconnect, hup, hheld⟩
  · rcases hdown.step hstep with ⟨hemits, hdown'⟩ | ⟨hemits, hup'⟩
    · have hsame := hquiet hemits
      exact ⟨hsound, hsame ▸ h.unannounced, hsame ▸ h.alternating, .inl ⟨hsame ▸ hnot, hdown'⟩⟩
    · refine ⟨hsound, hone hemits (by simp), ?_, .inr ⟨hlast hemits, hup', ?_⟩⟩
      · rw [hemitted, hemits]
        exact alternating_append h.alternating h.unannounced (by simp) hnot (.inr rfl)
      · exact WsConnection.held_of_emits hstep hemits
  · rcases hup.step hstep with ⟨hemits, hup'⟩ | ⟨hemits, hdown'⟩ | hemits
    · have hsame := hquiet hemits
      exact ⟨hsound, hsame ▸ h.unannounced, hsame ▸ h.alternating,
        .inr ⟨hsame ▸ hconnect, hup', hheld.step h.sound hstep hemits⟩⟩
    · refine ⟨hsound, hone hemits (by simp), ?_, .inl ⟨by simp [hlast hemits], hdown'⟩⟩
      rw [hemitted, hemits]
      refine alternating_append h.alternating h.unannounced (by simp) (by simp [hconnect]) (.inl ?_)
      rintro hnil
      simp [hnil] at hconnect
    · exact absurd hemits (hheld.emits_ne_connect h.sound hstep)

/-- At every moment of a run the events are what they should be exactly when the connection is made
at most once; and after a single call of `connect` 'connect' and 'disconnect' take turns anyway. -/
theorem announced_iff (as : List ConnectionAction) :
    ((∀ bs, bs <+: as → ∀ t, run step init bs = some t → t.Lawful) ↔
      Guarded step ConnectsOnce init as) ∧
    ((∀ a ∈ as, a ≠ .connect) → ∀ t, run step init (.connect :: as) = some t →
      Alternating t.emitted) := by
  refine ⟨?_, fun honce t hrun => ?_⟩
  · exact strengthened_iff_guarded Once Lawful (fun _ h => h.lawful)
      (fun _ _ _ h hok ht => h.step hok ht)
      (fun _ _ _ h ht hlawful => h.connectsOnce ht hlawful) as once_init
  · have hrun' : run step ⟨WsConnection.init.connect, []⟩ as = some t := hrun
    exact (run_invariant Flow (fun _ _ _ h ha ht => h.step ha ht) hrun'
      (guarded_of_mem fun a ha _ => honce a ha) flow_connected).alternating

/-- The connection drops and is made again, and nothing tells of it. -/
theorem reconnect_not_emitted :
    ¬∀ (as : List ConnectionAction) (t : EmittingConnection),
      run step init as = some t → t.Lawful := by
  intro h
  obtain ⟨t, hrun, hemitted⟩ : ∃ t, run step init
      [.connect, .connectFn, .opened 0, .connectResponse 0 .ok true, .resume,
        .ended 0 true 1006 true, .resume, .connectFn, .opened 1, .connectResponse 1 .ok true,
        .resume] = some t ∧
      t.emitted = [.connect, .disconnect, .connect] := ⟨_, rfl, rfl⟩
  have hlawful := h _ t hrun
  rw [Lawful, hemitted] at hlawful
  exact absurd hlawful (by decide)

/-- Refused at first, connected, dropped, and connected again. -/
def twoConnections : List ConnectionAction :=
  [.connectFn, .opened 0, .connectResponse 0 (.err "Invalid token") true, .connectFn, .opened 1,
    .connectResponse 1 .ok true, .resume, .ended 1 true 1006 true, .resume, .connectFn, .opened 2,
    .connectResponse 2 .ok true, .resume]

theorem alternating_two_connections : ∃ t, run step init (.connect :: twoConnections) = some t ∧
    t.emitted = [.connect, .disconnect, .connect] ∧ Alternating t.emitted :=
  ⟨_, rfl, rfl, (announced_iff twoConnections).2 (by simp [twoConnections]) _ rfl⟩

end EmittingConnection

end AlaFois
