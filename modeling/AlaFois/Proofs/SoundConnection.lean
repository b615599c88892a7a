import AlaFois.Proofs.ConnectLoop

/-!
# Connections that may be disposed

What the sockets of a connection look like between two events, through the events and through
`dispose`, which a client can call at any of these points.
-/

namespace AlaFois

namespace WebSocket

variable {socket : WebSocket}

@[simp] lemma promise_dispose : socket.dispose.promise = socket.promise := by
  unfold dispose close
  split <;> rfl

@[simp] lemma closeListener_dispose : socket.dispose.closeListener = false := by
  unfold dispose close
  split <;> rfl

@[simp] lemma dispose_eq_closed :
    socket.dispose.readyState = .closed ↔ socket.readyState = .closed := by
  unfold dispose close
  split <;> simp_all

@[simp] lemma dispose_ne_connecting : socket.dispose.readyState ≠ .connecting := by
  unfold dispose close
  split <;> simp_all

@[simp] lemma dispose_ne_open : socket.dispose.readyState ≠ .open := by
  unfold dispose close
  split <;> simp_all

lemma busy_of_dispose (h : socket.dispose.Busy) : socket.Busy := by
  simp only [Busy, promise_dispose, closeListener_dispose, ne_eq, dispose_eq_closed,
    Bool.false_eq_true, or_false] at h
  exact ⟨h.1, .inl h.2⟩

end WebSocket

namespace WsConnection

variable {s t : WsConnection} {n k : Nat} {socket : WebSocket}

/-- What holds of a connection between its events, also once it has been disposed. -/
structure Sound (s : WsConnection) : Prop where
  loop : s.OneLoop
  fresh : ∀ (n : Nat) (socket : WebSocket), s.sockets[n]? = some socket →
    socket.readyState = .connecting → socket.promise = .pending
  listening : ∀ socket, s.ws = some socket → socket.promise = .resolved →
    socket.readyState = .open → socket.closeListener = true ∨ s.job = some .addListeners
  adding : s.job = some .addListeners → ∃ socket, s.ws = some socket ∧ socket.readyState ≠ .closed

namespace Sound

lemma connected : init.connect.Sound where
  loop := .connected
  fresh := by simp [init, WsConnection.connect]
  listening := by simp [init, WsConnection.connect, ws]
  adding := by simp [init, WsConnection.connect]

lemma fresh_modify (h : s.Sound) {f : WebSocket → WebSocket}
    (hf : ∀ socket, s.sockets[n]? = some socket → (f socket).readyState = .connecting →
      (f socket).promise = .pending) :
    ∀ (k : Nat) (socket : WebSocket), (s.modify n f).sockets[k]? = some socket →
      socket.readyState = .connecting → socket.promise = .pending := by
  intro k socket hget hconn
  obtain ⟨socket', hget', ⟨rfl, rfl⟩ | ⟨rfl, -⟩⟩ := getElem?_modify hget
  · exact hf socket' hget' hconn
  · exact h.fresh k socket hget' hconn

lemma rejected {again : Bool} (h : s.Sound) (hloop : (s.reject n again).OneLoop)
    (hget : s.sockets[n]? = some socket) (hconn : socket.readyState ≠ .connecting)
    (hjob : s.job = none) : (s.reject n again).Sound := by
  have hnone : (s.reject n again).job = none := by cases again <;> exact hjob
  refine ⟨hloop, fun k other hother hfresh => ?_, fun other hws hresolved hopen => ?_, ?_⟩
  · rw [sockets_reject] at hother
    refine h.fresh_modify (fun socket' hget' hc => ?_) k other hother hfresh
    rw [hget] at hget'
    cases hget'
    exact absurd hc hconn
  · rw [ws, sockets_reject] at hws
    obtain ⟨other', hws', ⟨rfl, -⟩ | rfl⟩ := ws_modify hws
    · cases hresolved
    · rw [hnone]
      simpa [hjob] using h.listening other hws' hresolved hopen
  · simp [hnone]

lemma resolved (h : s.Sound) (hloop : (s.resolve n).OneLoop) (hget : s.sockets[n]? = some socket)
    (hopen : socket.readyState = .open) (hpending : socket.promise = .pending) :
    (s.resolve n).Sound := by
  have hlast := (h.loop.busy n ⟨socket, hget, by simp [hopen], .inl hpending⟩).1
  refine ⟨hloop, h.fresh_modify fun socket' hget' hc => ?_, fun _ _ _ _ => .inr rfl, fun _ => ?_⟩
  · rw [hget] at hget'
    cases hget'
    simp [hopen] at hc
  · refine ⟨{ socket with promise := .resolved }, ?_, by simp [hopen]⟩
    rw [ws_eq (by simpa [resolve] using hlast)]
    simp [resolve, hget]

/-- A step that closes a socket. -/
lemma closed (h : s.Sound) (hjob : s.job = none) (hloop : t.OneLoop)
    (htjob : t.job ≠ some .addListeners) (hlength : t.sockets.length = s.sockets.length)
    (hsockets : ∀ (k : Nat) (socket : WebSocket), t.sockets[k]? = some socket →
      socket.readyState = .closed ∨ s.sockets[k]? = some socket) : t.Sound where
  loop := hloop
  fresh := by
    intro k socket hget hconn
    rcases hsockets k socket hget with hclosed | hold
    · simp [hclosed] at hconn
    · exact h.fresh k socket hold hconn
  listening := by
    intro socket hws hresolved hopen
    rw [ws, hlength] at hws
    rcases hsockets _ socket hws with hclosed | hold
    · simp [hclosed] at hopen
    · exact .inl (by simpa [hjob] using h.listening socket hold hresolved hopen)
  adding := fun hadding => absurd hadding htjob

lemma job_ended {failed again : Bool} {code : Nat} (hjob : s.job = none) :
    (s.ended n socket failed code again).job ≠ some .addListeners := by
  have herror : ∀ u : WsConnection, u.job = none →
      (if failed then u.onError n socket again else u).job = none := by
    intro u hu
    unfold onError reject
    split_ifs <;> exact hu
  unfold WsConnection.ended handleClose
  dsimp only
  split_ifs <;> simp_all

lemma sockets_ended_eq (s : WsConnection) (n : Nat) (socket : WebSocket) (failed : Bool) (code : Nat)
    (again : Bool) :
    (s.ended n socket failed code again).sockets = (s.modify n (WebSocket.ended code)).sockets ∨
      (s.ended n socket failed code again).sockets =
        ((s.modify n (WebSocket.ended code)).modify n fun socket =>
          { socket with promise := .rejected }).sockets := by
  unfold WsConnection.ended handleClose onError reject
  dsimp only
  split_ifs <;> simp

lemma getElem?_ended_ne {failed again : Bool} {code : Nat} (h : k ≠ n) :
    (s.ended n socket failed code again).sockets[k]? = s.sockets[k]? := by
  rcases sockets_ended_eq s n socket failed code again with hs | hs
  · simp [hs, Ne.symm h]
  · simp [hs, Ne.symm h]

lemma closed_of_ended_self {failed again : Bool} {code : Nat} {other : WebSocket}
    (h : (s.ended n socket failed code again).sockets[n]? = some other) :
    other.readyState = .closed := by
  rcases sockets_ended_eq s n socket failed code again with hs | hs
  · rw [hs, sockets_modify, List.getElem?_modify_eq] at h
    obtain ⟨other', -, rfl⟩ := Option.map_eq_some_iff.mp h
    rfl
  · rw [hs, sockets_modify, sockets_modify, List.getElem?_modify_eq, List.getElem?_modify_eq] at h
    obtain ⟨other', hother, rfl⟩ := Option.map_eq_some_iff.mp h
    obtain ⟨other'', -, rfl⟩ := Option.map_eq_some_iff.mp hother
    rfl

lemma sockets_ended {failed again : Bool} {code : Nat} :
    (s.ended n socket failed code again).sockets.length = s.sockets.length ∧
      ∀ (k : Nat) (other : WebSocket),
        (s.ended n socket failed code again).sockets[k]? = some other →
        other.readyState = .closed ∨ s.sockets[k]? = some other := by
  refine ⟨?_, fun k other hget => ?_⟩
  · rcases sockets_ended_eq s n socket failed code again with h | h <;> simp [h]
  · by_cases hk : k = n
    · subst hk
      exact .inl (closed_of_ended_self hget)
    · exact .inr ((getElem?_ended_ne hk).symm.trans hget)

lemma step {a : ConnectionAction} (h : s.Sound) (ha : a ≠ .connect) (ht : s.step a = some t) :
    t.Sound := by
  have hloop := h.loop.step ha ht
  cases step_cases ht with
  | connect => exact absurd rfl ha
  | connectFn hpos =>
    have hws : s.connectFn.ws = some .new := by simp [ws, WsConnection.connectFn]
    refine ⟨hloop, fun k socket hget hconn => ?_, fun socket hsocket hresolved => ?_, fun hjob => ?_⟩
    · by_cases hk : k < s.sockets.length
      · rw [WsConnection.connectFn, List.getElem?_append_left hk] at hget
        exact h.fresh k socket hget hconn
      · rw [WsConnection.connectFn, List.getElem?_append_right (Nat.le_of_not_lt hk)] at hget
        have hnew : socket = .new := by
          have hmem := List.mem_of_getElem? hget
          simpa using hmem
        rw [hnew]
        rfl
    · rw [hws] at hsocket
      cases hsocket
      cases hresolved
    · exact ⟨.new, hws, by simp [WebSocket.new]⟩
  | addListeners hjob =>
    refine ⟨hloop, h.fresh_modify (fun _ => h.fresh _ _), fun socket hws _ _ => .inl ?_, by
      simp [WsConnection.addListeners]⟩
    obtain ⟨socket', -, rfl⟩ := Option.map_eq_some_iff.mp (ws_modifyWs.symm.trans hws)
    rfl
  | reconnect hjob =>
    refine ⟨hloop, h.fresh, fun socket hws hresolved hopen => .inl ?_, by
      simp [WsConnection.connect]⟩
    simpa [hjob] using h.listening socket hws hresolved hopen
  | opened n socket hjob hget hconn =>
    refine ⟨hloop, ?_, fun socket' hws hresolved hopen => ?_, by simp [hjob]⟩
    · exact h.fresh_modify fun _ _ hc => by cases hc
    · obtain ⟨socket'', hws', ⟨rfl, hn⟩ | rfl⟩ := ws_modify hws
      · rw [hget] at hn
        cases hn
        have hpending : socket.promise = .pending := h.fresh n socket hget hconn
        cases hpending.symm.trans hresolved
      · exact h.listening socket' hws' hresolved hopen
  | connectResponse n socket status again hjob hget hopen =>
    cases status with
    | ok =>
      by_cases hp : socket.promise = .pending
      · rw [messageHandler, if_pos hp] at hloop ⊢
        exact h.resolved hloop hget hopen hp
      · rwa [messageHandler, if_neg hp]
    | err message =>
      by_cases hp : socket.promise = .pending
      · rw [messageHandler, if_pos hp] at hloop ⊢
        exact h.rejected hloop hget (by simp [hopen]) hjob
      · rwa [messageHandler, if_neg hp]
  | ended n socket failed code again hjob hget hopen =>
    exact h.closed hjob hloop (job_ended hjob) sockets_ended.1 sockets_ended.2

lemma dispose (h : s.Sound) : s.dispose.Sound where
  loop := by
    refine ⟨fun n hbusy => ?_, fun socket hws _ _ => ?_, h.loop.attempts⟩
    · have hold := h.loop.busy n (busyAt_of_modify (fun _ => WebSocket.busy_of_dispose) hbusy)
      rw [WsConnection.dispose, modifyWs, sockets_modify, List.length_modify]
      exact hold
    · obtain ⟨socket', -, rfl⟩ := Option.map_eq_some_iff.mp (ws_modifyWs.symm.trans hws)
      exact WebSocket.closeListener_dispose
  fresh := h.fresh_modify fun socket _ hconn => absurd hconn (by simp)
  listening := by
    intro socket hws _ hopen
    obtain ⟨socket', -, rfl⟩ := Option.map_eq_some_iff.mp (ws_modifyWs.symm.trans hws)
    exact absurd hopen (by simp)
  adding := by
    intro hjob
    obtain ⟨socket, hws, hopen⟩ := h.adding hjob
    exact ⟨socket.dispose, by rw [WsConnection.dispose, ws_modifyWs, hws]; rfl, by simpa using hopen⟩

end Sound

/-- After `dispose` only a promise can be waited for. -/
lemma Sound.not_busyAt_dispose (h : s.Sound) (hsettles : ∀ n, ¬s.SettlesAt n) :
    ¬s.dispose.BusyAt n := by
  intro hbusy
  have hold := busyAt_of_modify (fun _ => WebSocket.busy_of_dispose) hbusy
  have hn : n = s.sockets.length - 1 := by
    have hlast := (h.loop.busy n hold).1
    omega
  rw [hn] at hbusy
  obtain ⟨socket, hget, hopen, hwaits⟩ := busyAt_modify_self.mp hbusy
  simp only [ne_eq, WebSocket.dispose_eq_closed, WebSocket.promise_dispose,
    WebSocket.closeListener_dispose, Bool.false_eq_true, or_false] at hopen hwaits
  exact hsettles _ ⟨socket, hget, by simp [WebSocket.canSettle, hopen, hwaits]⟩

/-- An event of a socket ends no call of `connect`. -/
lemma connected_of_socketEvent {a : ConnectionAction} (ha : a.socketEvent = true)
    (ht : s.step a = some t) : t.connected = s.connected := by
  cases step_cases ht with
  | connect => cases ha
  | connectFn hpos => cases ha
  | addListeners hjob => cases ha
  | reconnect hjob => cases ha
  | opened n socket hjob hget hconn => rfl
  | connectResponse n socket status again hjob hget hopen =>
    unfold messageHandler reject
    split <;> split_ifs <;> rfl
  | ended n socket failed code again hjob hget hopen =>
    unfold WsConnection.ended handleClose onError reject
    dsimp only
    split_ifs <;> rfl

/-- Without attempts and without a socket that is waited for, a connection only closes sockets. -/
lemma Sound.step_of_idle {a : ConnectionAction} (h : s.Sound) (hattempts : s.attempts = 0)
    (hjob : s.job = none) (hidle : ∀ n, ¬s.BusyAt n) (ha : a ≠ .connect) (ht : s.step a = some t) :
    t = s ∨ ∃ n code, t = s.modify n (WebSocket.ended code) := by
  cases step_cases ht with
  | connect => exact absurd rfl ha
  | connectFn hpos => omega
  | addListeners hrest => cases hjob.symm.trans hrest
  | reconnect hrest => cases hjob.symm.trans hrest
  | opened n socket hjob hget hconn =>
    exact absurd ⟨socket, hget, by simp [hconn], .inl (h.fresh n socket hget hconn)⟩ (hidle n)
  | connectResponse n socket status again hjob hget hopen =>
    have hp : socket.promise ≠ .pending := fun hp =>
      hidle n ⟨socket, hget, by simp [hopen], .inl hp⟩
    left
    cases status <;> exact if_neg hp
  | ended n socket failed code again hjob hget hopen =>
    refine .inr ⟨n, code, ended_eq (fun hq => ?_) (fun hc => ?_)⟩
    · exact hidle n ⟨socket, hget, hopen, .inl hq.2⟩
    · exact hidle n ⟨socket, hget, hopen, .inr hc.1⟩

end WsConnection

end AlaFois
