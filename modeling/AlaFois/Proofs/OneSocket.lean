import AlaFois.Proofs.SoundConnection

/-!
# One socket at a time

A retry makes a new socket and leaves the last one as it is. An attempt that failed at the
transport has closed its socket; one that the server has refused with its answer has not.
-/

namespace AlaFois

open Stepper

/-- The socket is open or connecting. -/
def WebSocket.Live (socket : WebSocket) : Prop :=
  socket.readyState = .open ∨ socket.readyState = .connecting

instance (socket : WebSocket) : Decidable socket.Live := inferInstanceAs (Decidable (_ ∨ _))

namespace WsConnection

variable {s t : WsConnection} {n k : Nat} {socket socket' : WebSocket}

def LiveAt (s : WsConnection) (n : Nat) : Prop :=
  ∃ socket, s.sockets[n]? = some socket ∧ socket.Live

/-- The socket is still there although its promise has been rejected. -/
def RefusedAt (s : WsConnection) (n : Nat) : Prop :=
  ∃ socket, s.sockets[n]? = some socket ∧ socket.Live ∧ socket.promise = .rejected

def AtMostOneLive (s : WsConnection) : Prop := ∀ n k, s.LiveAt n → s.LiveAt k → n = k

/-- No socket is open or connecting when another one is made. -/
def OpensAlone (s : WsConnection) : ConnectionEvent → Prop
  | .action .connectFn => ∀ n, ¬s.LiveAt n
  | _ => True

/-- No refused socket is still open when another one is made. -/
def ClosesRefused (s : WsConnection) : ConnectionEvent → Prop
  | .action .connectFn => ∀ n, ¬s.RefusedAt n
  | _ => True

lemma closesRefused_connectFn : s.ClosesRefused (.action .connectFn) ↔
    ∀ socket ∈ s.sockets, ¬(socket.Live ∧ socket.promise = .rejected) := by
  constructor
  · intro h socket hmem hrefused
    obtain ⟨n, hget⟩ := List.mem_iff_getElem?.mp hmem
    exact h n ⟨socket, hget, hrefused⟩
  · rintro h n ⟨socket, hget, hrefused⟩
    exact h socket (List.mem_of_getElem? hget) hrefused

instance (s : WsConnection) : (e : ConnectionEvent) → Decidable (s.ClosesRefused e)
  | .action .connectFn => decidable_of_iff' _ closesRefused_connectFn
  | .action .connect | .action .resume | .action (.opened _) | .action (.connectResponse _ _ _)
  | .action (.ended _ _ _ _) | .dispose => isTrue trivial

/-! ### Sockets that come and go -/

lemma liveAt_of_modify {f : WebSocket → WebSocket}
    (hf : ∀ socket, s.sockets[n]? = some socket → (f socket).Live → socket.Live)
    (h : (s.modify n f).LiveAt k) : s.LiveAt k := socket_of_modify hf h

lemma not_live_of_closed (h : socket.readyState = .closed) : ¬socket.Live := by
  simp [WebSocket.Live, h]

lemma not_live_dispose : ¬socket.dispose.Live := by simp [WebSocket.Live]

lemma liveAt_of_messageHandler {status : Status} {again : Bool}
    (h : (s.messageHandler n socket again status).LiveAt k) : s.LiveAt k :=
  socket_of_messageHandler (P := WebSocket.Live) (fun _ _ hlive => hlive) h

/-- A socket that has ended is closed, and the others are as they were. -/
lemma getElem?_of_liveAt_ended {failed again : Bool} {code : Nat}
    (hget : (s.ended n socket failed code again).sockets[k]? = some socket') (hlive : socket'.Live) :
    s.sockets[k]? = some socket' :=
  (Sound.sockets_ended.2 k socket' hget).resolve_left fun hclosed =>
    not_live_of_closed hclosed hlive

lemma liveAt_connectFn : s.connectFn.LiveAt k ↔ s.LiveAt k ∨ k = s.sockets.length := by
  rcases Nat.lt_trichotomy k s.sockets.length with hlt | rfl | hgt
  · have hget : s.connectFn.sockets[k]? = s.sockets[k]? := List.getElem?_append_left hlt
    have hne : k ≠ s.sockets.length := Nat.ne_of_lt hlt
    simp only [LiveAt, hget, hne, or_false]
  · refine iff_of_true ⟨.new, ?_, .inr rfl⟩ (.inr rfl)
    simp [WsConnection.connectFn]
  · have hnone : s.sockets[k]? = none := List.getElem?_eq_none (Nat.le_of_lt hgt)
    have hnone' : s.connectFn.sockets[k]? = none := by
      refine List.getElem?_eq_none ?_
      simp only [WsConnection.connectFn, List.length_append, List.length_singleton]
      omega
    have hne : k ≠ s.sockets.length := Nat.ne_of_gt hgt
    simp [LiveAt, hnone, hnone', hne]

/-- Only `connectFn` makes a socket. -/
lemma liveAt_of_step {a : ConnectionAction} (ha : a ≠ .connectFn) (ht : s.step a = some t)
    (h : t.LiveAt k) : s.LiveAt k := by
  cases step_cases ht with
  | connect => exact h
  | connectFn hpos => exact absurd rfl ha
  | addListeners hjob =>
    exact liveAt_of_modify (f := fun socket => { socket with closeListener := true })
      (fun _ _ hlive => hlive) h
  | reconnect hjob => exact h
  | opened n socket hjob hget hconn =>
    refine liveAt_of_modify (fun socket' hget' _ => ?_) h
    rw [hget] at hget'
    cases hget'
    exact .inr hconn
  | connectResponse n socket status again hjob hget hopen => exact liveAt_of_messageHandler h
  | ended n socket failed code again hjob hget hopen =>
    obtain ⟨socket', hget', hlive⟩ := h
    exact ⟨socket', getElem?_of_liveAt_ended hget' hlive, hlive⟩

lemma atMostOneLive_connectFn : s.connectFn.AtMostOneLive ↔ ∀ n, ¬s.LiveAt n := by
  constructor
  · intro h n hn
    have hlt : n < s.sockets.length := by
      obtain ⟨socket, hget, -⟩ := hn
      exact (List.getElem?_eq_some_iff.mp hget).1
    have heq := h n s.sockets.length (liveAt_connectFn.mpr (.inl hn))
      (liveAt_connectFn.mpr (.inr rfl))
    omega
  · intro h n k hn hk
    have hn' := (liveAt_connectFn.mp hn).resolve_left (h n)
    have hk' := (liveAt_connectFn.mp hk).resolve_left (h k)
    rw [hn', hk']

lemma atMostOneLive_next {e : ConnectionEvent} (h : s.AtMostOneLive) (ht : s.next e = some t) :
    t.AtMostOneLive ↔ s.OpensAlone e := by
  cases e with
  | dispose =>
    cases ht
    have hback : ∀ n, s.dispose.LiveAt n → s.LiveAt n := fun n =>
      liveAt_of_modify fun _ _ hlive => absurd hlive not_live_dispose
    exact iff_of_true (fun n k hn hk => h n k (hback n hn) (hback k hk)) trivial
  | action a =>
    by_cases ha : a = .connectFn
    · subst ha
      have hstep : s.step .connectFn = some t := ht
      cases step_cases hstep
      exact atMostOneLive_connectFn
    · have hback : ∀ n, t.LiveAt n → s.LiveAt n := fun n => liveAt_of_step ha ht
      have halone : s.OpensAlone (.action a) := by
        cases a <;> trivial
      exact iff_of_true (fun n k hn hk => h n k (hback n hn) (hback k hk)) halone

/-! ### One call of connect -/

/-- Every live socket is refused, or a listener waits for it, or `connect` is about to add its
listeners to it. -/
structure Tended (s : WsConnection) : Prop where
  sound : s.Sound
  tended : ∀ n, s.LiveAt n →
    s.RefusedAt n ∨ s.BusyAt n ∨ (n + 1 = s.sockets.length ∧ s.job = some .addListeners)

lemma refusedAt_iff (hget : s.sockets[n]? = some socket) :
    s.RefusedAt n ↔ socket.Live ∧ socket.promise = .rejected := by
  simp [RefusedAt, hget]

namespace Tended

lemma connected : init.connect.Tended where
  sound := .connected
  tended := by simp [init, WsConnection.connect, LiveAt]

/-- While no listeners are about to be added, a live socket is refused or waited for. -/
lemma refused_or_busy (h : s.Tended) (hjob : s.job ≠ some .addListeners) (hlive : s.LiveAt n) :
    s.RefusedAt n ∨ s.BusyAt n := by
  rcases h.tended n hlive with hrefused | hbusy | ⟨-, hadding⟩
  · exact .inl hrefused
  · exact .inr hbusy
  · exact absurd hadding hjob

/-- The socket is as it was. -/
lemma of_same (h : s.Tended) (hjob : s.job ≠ some .addListeners)
    (hold : s.sockets[n]? = some socket) (hnew : t.sockets[n]? = some socket)
    (hlive : socket.Live) : t.RefusedAt n ∨ t.BusyAt n := by
  rcases h.refused_or_busy hjob ⟨socket, hold, hlive⟩ with hrefused | hbusy
  · exact .inl ((refusedAt_iff hnew).mpr ((refusedAt_iff hold).mp hrefused))
  · exact .inr ((busyAt_iff hnew).mpr ((busyAt_iff hold).mp hbusy))

/-- Before `connectFn` only refused sockets are live. -/
lemma refused_of_attempts (h : s.Tended) (hpos : 0 < s.attempts) (hlive : s.LiveAt n) :
    s.RefusedAt n := by
  have hjob := (h.sound.loop.attempts hpos).2
  exact (h.refused_or_busy (by simp [hjob]) hlive).resolve_right
    (h.sound.loop.not_busyAt (.inr hpos))

lemma connectFn (h : s.Tended) (hpos : 0 < s.attempts) (hsound : s.connectFn.Sound) :
    s.connectFn.Tended where
  sound := hsound
  tended := by
    intro n hlive
    rcases liveAt_connectFn.mp hlive with hold | rfl
    · obtain ⟨socket, hget, hrefused⟩ := h.refused_of_attempts hpos hold
      have hlt := (List.getElem?_eq_some_iff.mp hget).1
      exact .inl ⟨socket, (List.getElem?_append_left hlt).trans hget, hrefused⟩
    · refine .inr (.inl ⟨.new, ?_, by simp [WebSocket.Busy, WebSocket.new]⟩)
      simp [WsConnection.connectFn]

lemma addListeners (h : s.Tended) (hjob : s.job = some .addListeners)
    (hsound : s.addListeners.Sound) : s.addListeners.Tended where
  sound := hsound
  tended := by
    rintro n ⟨socket, hget, hlive⟩
    obtain ⟨socket', hget', ⟨rfl, rfl⟩ | ⟨rfl, hn⟩⟩ := getElem?_modify hget
    · exact .inr (.inl ⟨_, hget, fun hclosed => not_live_of_closed hclosed hlive, .inr rfl⟩)
    · rcases h.tended n ⟨socket, hget', hlive⟩ with hrefused | hbusy | ⟨hlast, -⟩
      · exact .inl ((refusedAt_iff hget).mpr ((refusedAt_iff hget').mp hrefused))
      · exact absurd hbusy (h.sound.loop.not_busyAt (.inl (by simp [hjob])))
      · omega

lemma opened (h : s.Tended) (hjob : s.job = none)
    (hsound : (s.modify n fun socket => { socket with readyState := .open }).Sound)
    (hget : s.sockets[n]? = some socket) (hconn : socket.readyState = .connecting) :
    (s.modify n fun socket => { socket with readyState := .open }).Tended where
  sound := hsound
  tended := by
    rintro k ⟨socket', hget', hlive⟩
    obtain ⟨old, hold, ⟨rfl, rfl⟩ | ⟨rfl, -⟩⟩ := getElem?_modify hget'
    · -- a socket that opens is the one that is waited for
      rw [hget] at hold
      cases hold
      exact .inr (.inl ⟨_, hget', by simp, .inl (h.sound.fresh k socket hget hconn)⟩)
    · exact (h.of_same (by simp [hjob]) hold hget' hlive).imp_right .inl

lemma messageHandler {status : Status} {again : Bool} (h : s.Tended) (hjob : s.job = none)
    (hget : s.sockets[n]? = some socket) (hopen : socket.readyState = .open)
    (hsound : (s.messageHandler n socket again status).Sound) :
    (s.messageHandler n socket again status).Tended := by
  by_cases hp : socket.promise = .pending
  · have hbusy : s.BusyAt n := ⟨socket, hget, by simp [hopen], .inl hp⟩
    refine ⟨hsound, ?_⟩
    rintro k ⟨socket', hget', hlive⟩
    cases status with
    | ok =>
      rw [WsConnection.messageHandler, if_pos hp] at hget' ⊢
      obtain ⟨old, hold, ⟨rfl, rfl⟩ | ⟨rfl, hk⟩⟩ := getElem?_modify hget'
      · have hlast := (h.sound.loop.busy k hbusy).1
        exact .inr (.inr ⟨by simpa [resolve] using hlast, rfl⟩)
      · exact (h.of_same (by simp [hjob]) hold hget' hlive).imp_right .inl
    | err message =>
      rw [WsConnection.messageHandler, if_pos hp] at hget' ⊢
      have hmodify := hget'
      rw [sockets_reject] at hmodify
      obtain ⟨old, hold, ⟨rfl, rfl⟩ | ⟨rfl, hk⟩⟩ := getElem?_modify hmodify
      · exact .inl ⟨_, hget', hlive, rfl⟩
      · exact (h.of_same (by simp [hjob]) hold hget' hlive).imp_right .inl
  · cases status <;> rwa [WsConnection.messageHandler, if_neg hp]

lemma step {a : ConnectionAction} (h : s.Tended) (ha : a ≠ .connect) (ht : s.step a = some t) :
    t.Tended := by
  have hsound := h.sound.step ha ht
  cases step_cases ht with
  | connect => exact absurd rfl ha
  | connectFn hpos => exact h.connectFn hpos hsound
  | addListeners hjob => exact h.addListeners hjob hsound
  | reconnect hjob =>
    refine ⟨hsound, ?_⟩
    rintro n ⟨socket, hget, hlive⟩
    exact (h.of_same (by simp [hjob]) hget hget hlive).imp_right .inl
  | opened n socket hjob hget hconn => exact h.opened hjob hsound hget hconn
  | connectResponse n socket status again hjob hget hopen =>
    exact h.messageHandler hjob hget hopen hsound
  | ended n socket failed code again hjob hget hopen =>
    refine ⟨hsound, ?_⟩
    rintro k ⟨socket', hget', hlive⟩
    have hold := getElem?_of_liveAt_ended hget' hlive
    exact (h.of_same (by simp [hjob]) hold hget' hlive).imp_right .inl

lemma dispose (h : s.Tended) : s.dispose.Tended where
  sound := h.sound.dispose
  tended := by
    rintro n ⟨socket, hget, hlive⟩
    obtain ⟨old, hold, ⟨rfl, -⟩ | ⟨rfl, hn⟩⟩ := getElem?_modify hget
    · exact absurd hlive not_live_dispose
    · rcases h.tended n ⟨socket, hold, hlive⟩ with hrefused | hbusy | ⟨hlast, -⟩
      · exact .inl ((refusedAt_iff hget).mpr ((refusedAt_iff hold).mp hrefused))
      · exact .inr (.inl ((busyAt_iff hget).mpr ((busyAt_iff hold).mp hbusy)))
      · omega

lemma next {e : ConnectionEvent} (h : s.Tended) (he : e ≠ .action .connect)
    (ht : s.next e = some t) : t.Tended := by
  cases e with
  | dispose =>
    cases ht
    exact h.dispose
  | action a => exact h.step (fun ha => he (congrArg _ ha)) ht

/-- After a single `connect`, sockets are left behind by refusals only. -/
lemma opensAlone_iff {e : ConnectionEvent} (h : s.Tended) (ht : s.next e = some t) :
    s.OpensAlone e ↔ s.ClosesRefused e := by
  by_cases he : e = .action .connectFn
  · subst he
    have hpos : 0 < s.attempts := by
      have hstep : s.step .connectFn = some t := ht
      cases step_cases hstep
      assumption
    constructor
    · rintro halone n ⟨socket, hget, hlive, -⟩
      exact halone n ⟨socket, hget, hlive⟩
    · intro hclosed n hlive
      exact hclosed n (h.refused_of_attempts hpos hlive)
  · have hboth : s.OpensAlone e ∧ s.ClosesRefused e := by
      rcases e with a | _
      · cases a <;> first | exact ⟨trivial, trivial⟩ | exact absurd rfl he
      · exact ⟨trivial, trivial⟩
    exact iff_of_true hboth.1 hboth.2

end Tended

lemma atMostOneLive_init : init.AtMostOneLive := by
  rintro n k ⟨socket, hget, -⟩
  cases hget

/-- At most one socket is open or connecting at every moment of a run exactly when none is at each
call of `connectFn`; and after a single call of `connect` exactly when no refused socket is open
at a later call of `connectFn`. -/
theorem at_most_one_live_iff (es : List ConnectionEvent) :
    ((∀ ds, ds <+: es → ∀ t, run next init ds = some t → t.AtMostOneLive) ↔
      Guarded next OpensAlone init es) ∧
    ((∀ e ∈ es, e ≠ .action .connect) →
      ((∀ ds, ds <+: .action .connect :: es → ∀ t, run next init ds = some t → t.AtMostOneLive) ↔
        Guarded next ClosesRefused init.connect es)) := by
  have hruns : ∀ es : List ConnectionEvent,
      (∀ ds, ds <+: es → ∀ t, run next init ds = some t → t.AtMostOneLive) ↔
        Guarded next OpensAlone init es := fun es =>
    invariant_iff_guarded (fun _ => True) AtMostOneLive (fun _ _ _ _ _ => trivial)
      (fun _ _ _ _ h ht => atMostOneLive_next h ht) es trivial atMostOneLive_init
  refine ⟨hruns es, fun honce => ?_⟩
  rw [hruns, guarded_cons (show init.next (.action .connect) = some init.connect from rfl)]
  refine (and_iff_right trivial).trans ?_
  exact guarded_congr Tended (· ≠ .action .connect) (fun _ _ _ he h ht => h.next he ht)
    (fun _ _ _ _ h ht => h.opensAlone_iff ht) honce Tended.connected

/-- The server refuses a token and leaves the socket open, and the retry makes the next one. -/
theorem two_sockets_after_refusal :
    ¬∀ es : List ConnectionEvent, ∀ t, run next init es = some t → t.AtMostOneLive := by
  intro h
  obtain ⟨t, ht⟩ : ∃ t, run next init [.action .connect, .action .connectFn, .action (.opened 0),
      .action (.connectResponse 0 (.err "Invalid token") true), .action .connectFn] = some t :=
    ⟨_, rfl⟩
  have hone := h _ t ht 0 1
  cases ht
  exact absurd (hone ⟨_, rfl, .inl rfl⟩ ⟨_, rfl, .inr rfl⟩) (by simp)

/-- A socket that fails, one that is accepted and drops, and a third, which is disposed. -/
theorem one_socket_after_failure : ∃ t, run next init [.action .connect, .action .connectFn,
      .action (.ended 0 true 1006 true), .action .connectFn, .action (.opened 1),
      .action (.connectResponse 1 .ok true), .action .resume, .action (.ended 1 false 1006 true),
      .action .resume, .action .connectFn, .dispose] = some t ∧ t.AtMostOneLive := by
  obtain ⟨t, hrun⟩ : ∃ t, run next init [.action .connect, .action .connectFn,
      .action (.ended 0 true 1006 true), .action .connectFn, .action (.opened 1),
      .action (.connectResponse 1 .ok true), .action .resume, .action (.ended 1 false 1006 true),
      .action .resume, .action .connectFn, .dispose] = some t := ⟨_, rfl⟩
  refine ⟨t, hrun, ((at_most_one_live_iff _).2 ?_).mpr ?_ _ List.prefix_rfl t hrun⟩
  · simp
  · decide

end WsConnection

end AlaFois
