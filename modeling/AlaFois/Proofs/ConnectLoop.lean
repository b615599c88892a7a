import AlaFois.Proofs.Handshake

/-!
# One call of connect

A client calls `connect` once for each connection it makes. Then one thing at a time keeps the
connection going: a scheduled attempt, a socket that a listener waits for, or a job.
-/

namespace AlaFois

open Stepper

/-- A listener that acts on the connection waits for an event of the socket. -/
def WebSocket.Busy (socket : WebSocket) : Prop :=
  socket.readyState ≠ .closed ∧ (socket.promise = .pending ∨ socket.closeListener = true)

namespace WsConnection

variable {s t : WsConnection} {n k : Nat} {socket : WebSocket}

def BusyAt (s : WsConnection) (n : Nat) : Prop :=
  ∃ socket, s.sockets[n]? = some socket ∧ socket.Busy

/-- No socket closes without an error while its promise is pending. -/
def EndsAnswered (s : WsConnection) : ConnectionAction → Prop
  | .ended n failed _ _ => s.PendingAt n → failed = true
  | _ => True

structure OneLoop (s : WsConnection) : Prop where
  busy : ∀ n, s.BusyAt n → n + 1 = s.sockets.length ∧ s.attempts = 0 ∧ s.job = none
  exclusive : ∀ socket, s.ws = some socket → socket.readyState ≠ .closed →
    socket.promise = .pending → socket.closeListener = false
  attempts : 0 < s.attempts → s.attempts = 1 ∧ s.job = none

lemma busyAt_iff (hget : s.sockets[n]? = some socket) : s.BusyAt n ↔ socket.Busy := by
  simp [BusyAt, hget]

lemma busyAt_of_settlesAt (h : s.SettlesAt n) : s.BusyAt n := by
  obtain ⟨socket, hget, hsettle⟩ := h
  have hboth : socket.promise = .pending ∧ socket.readyState ≠ .closed := by
    simpa [WebSocket.canSettle] using hsettle
  exact ⟨socket, hget, hboth.2, .inl hboth.1⟩

lemma busyAt_modify_ne {f : WebSocket → WebSocket} (h : k ≠ n) :
    (s.modify n f).BusyAt k ↔ s.BusyAt k := by
  simp [BusyAt, Ne.symm h]

lemma busyAt_modify_self {f : WebSocket → WebSocket} :
    (s.modify n f).BusyAt n ↔ ∃ socket, s.sockets[n]? = some socket ∧ (f socket).Busy := by
  simp [BusyAt]

lemma busyAt_of_modify {f : WebSocket → WebSocket} (hf : ∀ socket, (f socket).Busy → socket.Busy)
    (h : (s.modify n f).BusyAt k) : s.BusyAt k :=
  socket_of_modify (fun socket _ => hf socket) h

lemma busyAt_of_reject {again : Bool} (h : (s.reject n again).BusyAt k) : s.BusyAt k := by
  rw [BusyAt, sockets_reject] at h
  refine busyAt_of_modify ?_ h
  rintro socket ⟨hopen, hwaits⟩
  exact ⟨hopen, .inr (hwaits.resolve_left (by simp))⟩

lemma not_busy_ended {code : Nat} : ¬(socket.ended code).Busy := fun hbusy => hbusy.1 rfl

namespace OneLoop

lemma connected : init.connect.OneLoop where
  busy := by simp [init, WsConnection.connect, BusyAt]
  exclusive := by simp [init, WsConnection.connect, ws]
  attempts := by simp [init, WsConnection.connect]

lemma attempts_eq_zero (h : s.OneLoop) (hjob : s.job ≠ none) : s.attempts = 0 := by
  by_contra hpos
  exact hjob (h.attempts (Nat.pos_of_ne_zero hpos)).2

lemma not_busyAt (h : s.OneLoop) (hrest : s.job ≠ none ∨ 0 < s.attempts) : ¬s.BusyAt n := by
  intro hbusy
  obtain ⟨-, hattempts, hjob⟩ := h.busy n hbusy
  rcases hrest with hrest | hrest
  · exact hrest hjob
  · omega

/-- A busy socket is the only one. -/
lemma eq_of_busyAt (h : s.OneLoop) (hn : s.BusyAt n) (hk : s.BusyAt k) : k = n := by
  have hn := (h.busy n hn).1
  have hk := (h.busy k hk).1
  omega

/-- After a change that leaves the busy socket idle nothing is busy. -/
lemma not_busyAt_modify (h : s.OneLoop) {f : WebSocket → WebSocket} (hn : s.BusyAt n)
    (hf : ∀ socket, s.sockets[n]? = some socket → ¬(f socket).Busy) : ¬(s.modify n f).BusyAt k := by
  by_cases hk : k = n
  · subst hk
    rw [busyAt_modify_self]
    rintro ⟨socket, hget, hbusy⟩
    exact hf socket hget hbusy
  · rw [busyAt_modify_ne hk]
    exact fun hbusy => hk (h.eq_of_busyAt hn hbusy)

/-- A state without busy sockets. -/
lemma of_idle (hidle : ∀ n, ¬s.BusyAt n)
    (hattempts : 0 < s.attempts → s.attempts = 1 ∧ s.job = none) : s.OneLoop where
  busy := fun n hbusy => absurd hbusy (hidle n)
  exclusive := by
    intro socket hws hopen hpending
    exact absurd ⟨socket, hws, hopen, .inl hpending⟩ (hidle _)
  attempts := hattempts

lemma connectFn (h : s.OneLoop) (hpos : 0 < s.attempts) : s.connectFn.OneLoop where
  busy := by
    rintro n ⟨socket, hget, hbusy⟩
    obtain ⟨hone, hjob⟩ := h.attempts hpos
    have hlast : n = s.sockets.length := by
      by_contra hne
      have hlt : n < (s.sockets ++ [WebSocket.new]).length :=
        (List.getElem?_eq_some_iff.mp hget).1
      have hlt' : n < s.sockets.length := by simp at hlt; omega
      rw [WsConnection.connectFn, List.getElem?_append_left hlt'] at hget
      exact h.not_busyAt (.inr hpos) ⟨socket, hget, hbusy⟩
    exact ⟨by simp [WsConnection.connectFn, hlast], by simp [WsConnection.connectFn, hone], hjob⟩
  exclusive := by
    intro socket hws _ _
    have hnew : s.connectFn.ws = some .new := by simp [ws, WsConnection.connectFn]
    rw [hnew] at hws
    cases hws
    rfl
  attempts := by
    have hone := (h.attempts hpos).1
    simp [WsConnection.connectFn, hone]

lemma addListeners (h : s.OneLoop) (hjob : s.job ≠ none) : s.addListeners.OneLoop where
  busy := by
    intro n hbusy
    refine ⟨?_, h.attempts_eq_zero hjob, rfl⟩
    have hn : n = s.sockets.length - 1 := by
      by_contra hne
      exact h.not_busyAt (.inl hjob) ((busyAt_modify_ne hne).mp hbusy)
    obtain ⟨socket, hget, -⟩ := hbusy
    have hlt := (List.getElem?_eq_some_iff.mp hget).1
    simp only [WsConnection.addListeners, modifyWs, sockets_modify, List.length_modify] at hlt ⊢
    omega
  exclusive := by
    intro socket hws hopen hpending
    obtain ⟨socket', hws', rfl⟩ := Option.map_eq_some_iff.mp (ws_modifyWs.symm.trans hws)
    exact absurd ⟨socket', hws', hopen, .inl hpending⟩ (h.not_busyAt (.inl hjob))
  attempts := fun hpos => absurd (h.attempts_eq_zero hjob) (Nat.pos_iff_ne_zero.mp hpos)

lemma opened (h : s.OneLoop) (hget : s.sockets[n]? = some socket)
    (hconn : socket.readyState = .connecting) :
    (s.modify n fun socket => { socket with readyState := .open }).OneLoop where
  busy := by
    intro k hbusy
    rw [sockets_modify, List.length_modify]
    refine h.busy k ?_
    by_cases hk : k = n
    · subst hk
      obtain ⟨socket', hget', -, hwaits⟩ := busyAt_modify_self.mp hbusy
      rw [hget] at hget'
      cases hget'
      exact ⟨socket, hget, by simp [hconn], hwaits⟩
    · exact (busyAt_modify_ne hk).mp hbusy
  exclusive := by
    intro socket' hws hopen hpending
    obtain ⟨socket'', hws', ⟨rfl, hn⟩ | rfl⟩ := ws_modify hws
    · rw [hget] at hn
      cases hn
      exact h.exclusive socket hws' (by simp [hconn]) hpending
    · exact h.exclusive socket' hws' hopen hpending
  attempts := h.attempts

/-- The socket whose promise is pending has no close listener yet. -/
lemma closeListener_eq_false (h : s.OneLoop) (hget : s.sockets[n]? = some socket)
    (hopen : socket.readyState ≠ .closed) (hpending : socket.promise = .pending) :
    socket.closeListener = false := by
  have hlast := (h.busy n ⟨socket, hget, hopen, .inl hpending⟩).1
  exact h.exclusive socket ((ws_eq hlast).trans hget) hopen hpending

lemma messageHandler {status : Status} {again : Bool} (h : s.OneLoop)
    (hget : s.sockets[n]? = some socket) (hopen : socket.readyState = .open) :
    (s.messageHandler n socket again status).OneLoop := by
  by_cases hp : socket.promise = .pending
  · have hne : socket.readyState ≠ .closed := by simp [hopen]
    have hbusy : s.BusyAt n := ⟨socket, hget, hne, .inl hp⟩
    have hlistener := h.closeListener_eq_false hget hne hp
    obtain ⟨-, hattempts, hjob⟩ := h.busy n hbusy
    have hidle (promise : PromiseState) (hsettled : promise ≠ .pending) (k : Nat) :
        ¬(s.modify n fun socket => { socket with promise := promise }).BusyAt k := by
      refine h.not_busyAt_modify hbusy fun socket' hget' => ?_
      rw [hget] at hget'
      cases hget'
      simp [WebSocket.Busy, hlistener, hsettled]
    cases status with
    | ok =>
      rw [WsConnection.messageHandler, if_pos hp]
      exact of_idle (hidle .resolved (by simp)) fun hpos =>
        absurd hattempts (Nat.pos_iff_ne_zero.mp hpos)
    | err message =>
      rw [WsConnection.messageHandler, if_pos hp]
      cases again with
      | true => exact of_idle (hidle .rejected (by simp)) fun _ => ⟨congrArg Nat.succ hattempts, hjob⟩
      | false =>
        exact of_idle (hidle .rejected (by simp)) fun hpos =>
          absurd hattempts (Nat.pos_iff_ne_zero.mp hpos)
  · cases status <;> rwa [WsConnection.messageHandler, if_neg hp]

lemma ended {failed again : Bool} {code : Nat} (h : s.OneLoop)
    (hget : s.sockets[n]? = some socket) (hopen : socket.readyState ≠ .closed) :
    (s.ended n socket failed code again).OneLoop := by
  have hidle (hbusy : s.BusyAt n) (k : Nat) : ¬(s.modify n (WebSocket.ended code)).BusyAt k :=
    h.not_busyAt_modify hbusy fun _ _ => not_busy_ended
  by_cases hp : socket.promise = .pending
  · have hbusy : s.BusyAt n := ⟨socket, hget, hopen, .inl hp⟩
    have hlistener := h.closeListener_eq_false hget hopen hp
    obtain ⟨-, hattempts, hjob⟩ := h.busy n hbusy
    simp only [WsConnection.ended, hlistener, onError, hp, if_true, Bool.false_eq_true, if_false]
    cases failed with
    | false => exact of_idle (hidle hbusy) fun hpos => absurd hattempts (Nat.pos_iff_ne_zero.mp hpos)
    | true =>
      refine of_idle (fun k hk => hidle hbusy k (busyAt_of_reject hk)) fun hpos => ?_
      cases again with
      | true => exact ⟨congrArg Nat.succ hattempts, hjob⟩
      | false => exact absurd hattempts (Nat.pos_iff_ne_zero.mp hpos)
  · by_cases hl : socket.closeListener = true
    · have hbusy : s.BusyAt n := ⟨socket, hget, hopen, .inr hl⟩
      have hattempts := (h.busy n hbusy).2.1
      have hnone : ∀ m : Nat, m = s.attempts → ¬0 < m := by omega
      simp only [WsConnection.ended, hl, onError, hp, if_true, if_false, ite_self]
      refine of_idle (fun k => ?_) fun hpos => absurd hpos ?_
      · unfold handleClose
        split <;> exact hidle hbusy k
      · unfold handleClose
        split <;> exact hnone _ rfl
    · have hquiet : ¬s.BusyAt n := by
        rw [busyAt_iff hget]
        rintro ⟨-, hwaits⟩
        exact hwaits.elim hp hl
      rw [ended_eq (fun hq => hp hq.2) (fun hc => hl hc.1)]
      refine ⟨fun k hk => ?_, fun socket' hws hopen' hpending => ?_, h.attempts⟩
      · rw [sockets_modify, List.length_modify]
        exact h.busy k (busyAt_of_modify (fun _ hb => absurd hb not_busy_ended) hk)
      · obtain ⟨socket'', hws', ⟨rfl, -⟩ | rfl⟩ := ws_modify hws
        · exact absurd rfl hopen'
        · exact h.exclusive socket' hws' hopen' hpending

lemma step {a : ConnectionAction} (h : s.OneLoop) (ha : a ≠ .connect) (ht : s.step a = some t) :
    t.OneLoop := by
  cases step_cases ht with
  | connect => exact absurd rfl ha
  | connectFn hpos => exact h.connectFn hpos
  | addListeners hjob => exact h.addListeners (by simp [hjob])
  | reconnect hjob =>
    have hne : s.job ≠ none := by simp [hjob]
    exact of_idle (fun n => h.not_busyAt (.inl hne))
      fun _ => ⟨congrArg Nat.succ (h.attempts_eq_zero hne), rfl⟩
  | opened n socket hjob hget hconn => exact h.opened hget hconn
  | connectResponse n socket status again hjob hget hopen => exact h.messageHandler hget hopen
  | ended n socket failed code again hjob hget hopen => exact h.ended hget hopen

/-- Nothing but the pending promise keeps the connection going. -/
lemma not_goesOnWithout (h : s.OneLoop) (hbusy : s.BusyAt n) : ¬s.GoesOnWithout n := by
  obtain ⟨hlast, hattempts, -⟩ := h.busy n hbusy
  rintro (hpos | ⟨k, hk, hsettles⟩ | ⟨hother, -⟩)
  · omega
  · exact hk (h.eq_of_busyAt hbusy (busyAt_of_settlesAt hsettles))
  · exact hother hlast

lemma keepsGoing_iff {a : ConnectionAction} (h : s.OneLoop) (ht : s.step a = some t) :
    s.KeepsGoing a ↔ s.EndsAnswered a := by
  cases step_cases ht with
  | connectResponse n socket status again hjob hget hopen =>
    cases status with
    | err message => exact Iff.rfl
    | ok =>
      refine iff_of_true (fun hpending => .inl ?_) trivial
      have hp := (pendingAt_iff hget).mp hpending
      exact (h.busy n ⟨socket, hget, by simp [hopen], .inl hp⟩).1
  | ended n socket failed code again hjob hget hopen =>
    refine imp_congr_right fun hpending => or_iff_left ?_
    have hp := (pendingAt_iff hget).mp hpending
    rintro (hreconnects | hgoes)
    · have hl := ((reconnectsAt_iff hget).mp hreconnects).1
      rw [h.closeListener_eq_false hget hopen hp] at hl
      cases hl
    · exact h.not_goesOnWithout ⟨socket, hget, hopen, .inl hp⟩ hgoes
  | connect => exact Iff.rfl
  | connectFn hpos => exact Iff.rfl
  | addListeners hjob => exact Iff.rfl
  | reconnect hjob => exact Iff.rfl
  | opened n socket hjob hget hconn => exact Iff.rfl

end OneLoop

/-- After a single call of `connect`, a connection is stuck at no moment exactly when no socket
closes without an error before its answer. -/
theorem never_stuck_iff_of_one_connect (as : List ConnectionAction)
    (hbudget : ∀ a ∈ as, a.withinBudget) (honce : ∀ a ∈ as, a ≠ .connect) :
    (∀ bs, bs <+: .connect :: as → ∀ t, run WsConnection.step init bs = some t → ¬t.Stuck) ↔
      Guarded WsConnection.step EndsAnswered init.connect as := by
  have hall : ∀ a ∈ ConnectionAction.connect :: as, a.withinBudget :=
    List.forall_mem_cons.mpr ⟨trivial, hbudget⟩
  rw [never_stuck_iff _ hall, guarded_cons (show init.step .connect = some init.connect from rfl)]
  refine (and_iff_right trivial).trans ?_
  exact guarded_congr OneLoop (· ≠ .connect) (fun _ _ _ ha h ht => h.step ha ht)
    (fun _ _ _ _ h ht => h.keepsGoing_iff ht) honce OneLoop.connected

end WsConnection

end AlaFois
