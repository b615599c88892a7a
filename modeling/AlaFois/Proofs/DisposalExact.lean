import AlaFois.Proofs.Disposal

/-!
# When a disposed client has ended

A client that does nothing more, whatever happens, is at an end: every promise that is pending,
every job and every timer that is left can be made to open a socket or to send something.
-/

namespace AlaFois.ClientLife

open Stepper

variable {s t : ClientLife} {i : Nat} {c : ClientConnection}

lemma Ends.step {a : LifeAction} (h : s.Ends) (ha : a.byUser = false) (ht : s.step a = some t) :
    t.Ends ∧ t.opened = s.opened ∧ t.accepted = s.accepted := by
  have hstep := h [a] (by simpa using ha) t (by simp [run, ht])
  refine ⟨fun as has u hu => ?_, hstep.1, hstep.2.1⟩
  have hrest := h (a :: as) (List.forall_mem_cons.mpr ⟨ha, has⟩) u
    (run_cons_eq_some.mpr ⟨t, ht, hu⟩)
  exact ⟨hrest.1.trans hstep.1.symm, hrest.2.1.trans hstep.2.1.symm, hrest.2.2⟩

lemma sum_map_modify {α : Type*} {l : List α} {x : α} {g : α → Nat} {f : α → α} {k : Nat}
    (hget : l[i]? = some x) (hf : g (f x) = g x + k) :
    ((l.modify i f).map g).sum = (l.map g).sum + k := by
  induction l generalizing i with
  | nil => cases hget
  | cons y l ih =>
    cases i with
    | zero =>
      cases hget
      simp only [List.modify_zero_cons, List.map_cons, List.sum_cons, hf]
      omega
    | succ i =>
      have hrest := ih (by simpa using hget)
      simp only [List.modify_succ_cons, List.map_cons, List.sum_cons, hrest]
      omega

/-- What a connection does on an event, as a step of the client. -/
lemma step_connection {a : ConnectionAction} {u : WsConnection} (hget : s.connections[i]? = some c)
    (ha : a ≠ .connect) (hidle : a.socketEvent = true → s.idle = true)
    (hu : c.connection.step a = some u) :
    s.step (.connection i a) = some (s.modify i fun c => { c with connection := u }) := by
  have hnot : ¬(a = .connect ∨ (a.socketEvent = true ∧ s.idle = false)) := by
    rintro (hconnect | ⟨hevent, hbusy⟩)
    · exact ha hconnect
    · rw [hidle hevent] at hbusy
      cases hbusy
  simp only [ClientLife.step, hget, Option.bind_some, if_neg hnot, hu, Option.map_some]

/-- An action of a connection leaves a client that ends one that ends. -/
lemma Ends.connection {a : ConnectionAction} {u : WsConnection} (h : s.Ends) (hwf : s.Wf)
    (hget : s.connections[i]? = some c) (ha : a ≠ .connect)
    (hidle : a.socketEvent = true → s.idle = true) (hu : c.connection.step a = some u) :
    ∃ t, t.Ends ∧ t.Wf ∧ t.opened = s.opened ∧
      t = s.modify i (fun c => { c with connection := u }) ∧
      t.connections[i]? = some { c with connection := u } := by
  obtain ⟨hends, hopened, -⟩ := h.step rfl (step_connection hget ha hidle hu)
  exact ⟨_, hends, hwf.connection hget ha hidle hu, hopened, rfl, by simp [hget]⟩

lemma Ends.attempts (h : s.Ends) (hwf : s.Wf) (hget : s.connections[i]? = some c) :
    c.connection.attempts = 0 := by
  by_contra hne
  have hpos := Nat.pos_of_ne_zero hne
  obtain ⟨t, -, -, hopened, rfl, -⟩ := h.connection hwf hget (a := .connectFn) (by simp)
    (by simp [ConnectionAction.socketEvent]) (if_pos hpos)
  have hmore : (s.modify i fun d => { d with connection := c.connection.connectFn }).opened =
      s.opened + 1 := by
    refine sum_map_modify hget ?_
    simp [WsConnection.connectFn]
  omega

lemma Ends.job_ne_reconnect (h : s.Ends) (hwf : s.Wf) (hget : s.connections[i]? = some c) :
    c.connection.job ≠ some .reconnect := by
  intro hjob
  have hu : c.connection.step .resume = some { c.connection with job := none }.connect := by
    simp [WsConnection.step, hjob]
  obtain ⟨t, hends, htwf, -, -, htget⟩ := h.connection hwf hget (by simp)
    (by simp [ConnectionAction.socketEvent]) hu
  cases hends.attempts htwf htget

lemma step_ended {n : Nat} (failed : Bool) {socket : WebSocket} (hrest : c.running = false)
    (hsocket : c.connection.sockets[n]? = some socket) (hopen : socket.readyState ≠ .closed) :
    c.connection.step (.ended n failed 1006 true) =
      some (c.connection.ended n socket failed 1006 true) := by
  simp [WsConnection.step, WsConnection.waiting, job_eq_none hrest, hsocket, hopen]

/-- A promise that is pending fails, and another attempt is made. -/
lemma Ends.not_settlesAt (h : s.Ends) (hwf : s.Wf) (hidle : s.idle = true)
    (hget : s.connections[i]? = some c) (n : Nat) : ¬c.connection.SettlesAt n := by
  rintro ⟨socket, hsocket, hsettle⟩
  have hboth : socket.promise = .pending ∧ socket.readyState ≠ .closed := by
    simpa [WebSocket.canSettle] using hsettle
  have hrest := not_running_of_idle hidle (List.mem_of_getElem? hget)
  obtain ⟨t, hends, htwf, -, -, htget⟩ := h.connection hwf hget (by simp) (fun _ => hidle)
    (step_ended true hrest hsocket hboth.2)
  have hnone := hends.attempts htwf htget
  have hlive : 0 < (c.connection.ended n socket true 1006 true).attempts := by
    simp only [WsConnection.ended, WsConnection.onError, hboth.1, WsConnection.reject,
      WsConnection.handleClose, if_true]
    split_ifs <;> exact Nat.succ_pos _
  simp only at hnone
  omega

/-- A socket that `handleClose` listens to closes, and the connection connects again. -/
lemma Ends.not_busyAt (h : s.Ends) (hwf : s.Wf) (hidle : s.idle = true)
    (hget : s.connections[i]? = some c) (n : Nat) : ¬c.connection.BusyAt n := by
  rintro ⟨socket, hsocket, hopen, hwaits⟩
  have hp : socket.promise ≠ .pending := fun hp =>
    h.not_settlesAt hwf hidle hget n ⟨socket, hsocket, by simp [WebSocket.canSettle, hp, hopen]⟩
  have hrest := not_running_of_idle hidle (List.mem_of_getElem? hget)
  obtain ⟨t, hends, htwf, -, -, htget⟩ := h.connection hwf hget (by simp) (fun _ => hidle)
    (step_ended false hrest hsocket hopen)
  refine hends.job_ne_reconnect htwf htget ?_
  simp [WsConnection.ended, WsConnection.handleClose, hwaits.resolve_left hp, wsCloseStatusNormal]

/-! ### Jobs -/

lemma idle_iff : s.idle = true ↔
    ∀ (j : Nat) (d : ClientConnection), s.connections[j]? = some d → d.running = false := by
  rw [idle, List.all_eq_true]
  simp only [Bool.not_eq_true']
  constructor
  · intro h j d hget
    exact h d (List.mem_of_getElem? hget)
  · intro h d hd
    obtain ⟨j, hget⟩ := List.mem_iff_getElem?.mp hd
    exact h j d hget

/-- Once the only thing that was running has run, the client is idle. -/
lemma idle_of_only (hwf : s.Wf) (hget : s.connections[i]? = some c) (hrunning : c.running = true)
    (hothers : ∀ (j : Nat) (d : ClientConnection), t.connections[j]? = some d → j ≠ i →
      ∃ e, s.connections[j]? = some e ∧ (d.running = true → e.running = true))
    (hself : ∀ d, t.connections[i]? = some d → d.running = false) : t.idle = true := by
  rw [idle_iff]
  intro j d hd
  by_cases hj : j = i
  · exact hself d (hj ▸ hd)
  · obtain ⟨e, he, hold⟩ := hothers j d hd hj
    by_contra hne
    exact hj (hwf.one j i e c he hget (hold (Bool.not_eq_false _ ▸ hne)) hrunning)

lemma getElem?_connected {j : Nat} {d : ClientConnection}
    (h : (s.connected i).connections[j]? = some d) :
    ∃ e, s.connections[j]? = some e ∧ d.connection = e.connection ∧
      (j ≠ i → d.connecting = e.connecting) ∧ (j = i → d.connecting = false) := by
  obtain ⟨e, he, hd⟩ := getElem?_connections_modify (s := s.modify i fun c =>
    { c with connecting := false }) h
  obtain ⟨e', he', ⟨rfl, hj⟩ | ⟨rfl, hj⟩⟩ := getElem?_connections_modify he
  · refine ⟨e', he', ?_, fun hne => absurd hj hne, fun _ => ?_⟩ <;>
      obtain ⟨rfl, -⟩ | ⟨rfl, -⟩ := hd <;> rfl
  · refine ⟨e, he', ?_, fun _ => ?_, fun heq => absurd heq hj⟩ <;>
      obtain ⟨rfl, -⟩ | ⟨rfl, -⟩ := hd <;> rfl

/-- The call of `connect` goes on, and starts the ping. -/
lemma idle_connected (hwf : s.Wf) (hget : s.connections[i]? = some c)
    (hresumable : c.resumable = true) : (s.connected i).idle = true := by
  refine idle_of_only hwf hget ((running_eq c).mpr (.inr hresumable)) (fun j d hd hj => ?_)
    fun d hd => ?_
  · obtain ⟨e, he, hconnection, hsame, -⟩ := getElem?_connected hd
    refine ⟨e, he, fun hrunning => ?_⟩
    rw [running_eq, resumable_eq, hconnection, hsame hj] at hrunning
    rwa [running_eq, resumable_eq]
  · obtain ⟨e, he, hconnection, -, hdone⟩ := getElem?_connected hd
    rw [hget] at he
    cases he
    by_contra hrunning
    rw [Bool.not_eq_false, running_eq, resumable_eq, hconnection, hdone rfl] at hrunning
    rcases hrunning with hjob | hconnecting
    · exact hjob (hwf.single c (List.mem_of_getElem? hget) hresumable)
    · cases hconnecting.1

lemma ping_connected (hget : s.connections[i]? = some c) :
    ∃ d ∈ (s.connected i).connections, d.ping.pending = true := by
  let t := s.modify i fun c => { c with connecting := false }
  have hlt : t.current < t.connections.length := by
    have hi := (List.getElem?_eq_some_iff.mp hget).1
    simp only [t, current, connections_modify, List.length_modify]
    omega
  refine ⟨{ t.connections[t.current] with ping := t.connections[t.current].ping.tick }, ?_, ?_⟩
  · refine List.mem_of_getElem? (i := t.current) ?_
    change (t.connections.modify t.current _)[t.current]? = _
    rw [List.getElem?_modify_eq, List.getElem?_eq_getElem hlt]
    rfl
  · simp [Ping.pending, Ping.tick]

lemma Ends.settled (h : s.Ends) (hwf : s.Wf) (hidle : s.idle = true) : s.Settled := by
  intro c hc
  obtain ⟨i, hget⟩ := List.mem_iff_getElem?.mp hc
  exact ⟨h.attempts hwf hget, not_running_of_idle hidle hc, h.not_settlesAt hwf hidle hget⟩

lemma Ends.ping (h : s.Ends) (hsettled : s.Settled) : ∀ c ∈ s.connections, c.ping.pending = false :=
  (h [] (by simp) s rfl).2.2 hsettled

/-- A call of `connect` that goes on starts a ping. -/
lemma Ends.not_resumable (h : s.Ends) (hwf : s.Wf) (hget : s.connections[i]? = some c) :
    c.resumable = false := by
  by_contra hresumable
  rw [Bool.not_eq_false] at hresumable
  have hstep : s.step (.connected i) = some (s.connected i) := by
    simp [ClientLife.step, hget, hresumable]
  have hends := (h.step rfl hstep).1
  have hsettled := hends.settled (hwf.step hstep) (idle_connected hwf hget hresumable)
  obtain ⟨d, hd, hpending⟩ := ping_connected hget
  rw [hends.ping hsettled d hd] at hpending
  cases hpending

/-- The rest of `connect` listens to the last socket. -/
lemma busyAt_addListeners {w : WsConnection} (h : w.Sound) (hjob : w.job = some .addListeners) :
    w.addListeners.BusyAt (w.sockets.length - 1) := by
  obtain ⟨socket, hws, hopen⟩ := h.adding hjob
  exact ⟨{ socket with closeListener := true }, by
    simp [WsConnection.addListeners, WsConnection.modifyWs, show w.sockets[w.sockets.length - 1]? =
      some socket from hws], hopen, .inr rfl⟩

/-- Nothing is running in a client that ends. -/
lemma Ends.idle (h : s.Ends) (hwf : s.Wf) : s.idle = true := by
  rw [idle_iff]
  intro i c hget
  by_contra hrunning
  rw [Bool.not_eq_false] at hrunning
  rcases (running_eq c).mp hrunning with hjob | hresumable
  · cases hkind : c.connection.job with
    | none => exact hjob hkind
    | some job =>
      cases job with
      | reconnect => exact h.job_ne_reconnect hwf hget hkind
      | addListeners =>
        have hu : c.connection.step .resume = some c.connection.addListeners := by
          simp [WsConnection.step, hkind]
        obtain ⟨t, hends, htwf, -, ht, htget⟩ := h.connection hwf hget (by simp)
          (by simp [ConnectionAction.socketEvent]) hu
        have hidle : t.idle = true := by
          refine idle_of_only hwf hget hrunning (fun j d hd hj => ?_) fun d hd => ?_
          · rw [ht] at hd
            obtain ⟨e, he, ⟨-, heq⟩ | ⟨rfl, -⟩⟩ := getElem?_connections_modify hd
            · exact absurd heq hj
            · exact ⟨d, he, id⟩
          · rw [htget] at hd
            cases hd
            by_contra hstill
            rw [Bool.not_eq_false, running_eq, hends.not_resumable htwf htget] at hstill
            simp [WsConnection.addListeners] at hstill
        exact hends.not_busyAt htwf hidle htget _
          (busyAt_addListeners (hwf.sound c (List.mem_of_getElem? hget)) hkind)
  · rw [h.not_resumable hwf hget] at hresumable
    cases hresumable

/-! ### The state that is left -/

lemma accepted_send {socket : WebSocket} (hget : s.connections[i]? = some c)
    (hws : c.connection.ws = some socket) (hopen : socket.readyState = .open) :
    (s.send i).1.accepted = s.accepted ++ [i] := by
  simp [send, hget, hws, hopen]

/-- The awareness of a container that has not been disposed sends from time to time. -/
lemma Ends.silent (h : s.Ends) (hidle : s.idle = true) (hget : s.connections[i]? = some c)
    (hopen : c.isOpen = true) : i ∉ s.containers := by
  intro hmem
  have hstep : s.step (.send i .awareness) = some (s.send i).1 := by
    have hcan : s.canSend i .awareness = true := by
      simpa [canSend, hidle, containers] using hmem
    simp [ClientLife.step, hcan]
  obtain ⟨socket, hws, hready⟩ := isOpen_eq.mp hopen
  have hsame := (h.step rfl hstep).2.2
  rw [accepted_send hget hws hready] at hsame
  simp at hsame

lemma Ends.over (h : s.Ends) (hwf : s.Wf) : s.Over := by
  have hidle := h.idle hwf
  have hsettled := h.settled hwf hidle
  refine ⟨fun c hc => ?_, fun i c hget hopen => h.silent hidle hget hopen⟩
  obtain ⟨i, hget⟩ := List.mem_iff_getElem?.mp hc
  exact ⟨hsettled c hc, h.not_busyAt hwf hidle hget, h.ping hsettled c hc⟩

lemma settlesAt_dispose {w : WsConnection} {n : Nat} (h : w.SettlesAt n) : w.dispose.SettlesAt n := by
  obtain ⟨socket, hget, hsettle⟩ := h
  by_cases hn : w.sockets.length - 1 = n
  · refine ⟨socket.dispose, by simp [WsConnection.dispose, WsConnection.modifyWs, hn, hget], ?_⟩
    simpa [WebSocket.canSettle] using hsettle
  · exact ⟨socket, by simp [WsConnection.dispose, WsConnection.modifyWs, hn, hget], hsettle⟩

lemma settled_of_disposed (h : (disposed c).Settled) : c.Settled where
  attempts := h.attempts
  running := h.running
  settles := fun n hn => h.settles n (settlesAt_dispose hn)

lemma loose_dispose : s.dispose.1.loose = s.loose := by
  have hloose (u : ClientLife) : u.disposeDocs.1.loose = u.loose := by
    have hcontainers := loose_disposeContainers (s := u) (u.docs.entries.map Prod.snd)
    unfold disposeDocs
    split
    · rename_i v hv
      rwa [hv] at hcontainers
    · rename_i v hv
      rwa [hv] at hcontainers
  unfold dispose
  dsimp only
  split
  · rfl
  · exact hloose _

lemma messenger_of_dispose (h : s.dispose.2 = false) : s.messenger ≠ none := by
  intro hnone
  have hthrew : s.dispose.2 = true := by
    unfold dispose
    dsimp only
    split
    · rfl
    · rename_i hsome
      cases hnone.symm.trans hsome
  rw [hthrew] at h
  cases h

lemma established_of_over (hmessenger : s.messenger ≠ none) (h : s.dispose.1.Over) :
    s.Established := by
  have hself : ∀ c, s.connections[s.current]? = some c →
      s.dispose.1.connections[s.current]? = some (disposed c) := by
    intro c hget
    simp [hget]
  have hother : ∀ i c, s.connections[i]? = some c → i ≠ s.current →
      s.dispose.1.connections[i]? = some c := by
    intro i c hget hi
    simp [hget, Ne.symm hi]
  refine ⟨hmessenger, fun c hc => ?_, fun c hc => ?_, fun i c hget hi => ?_⟩
  · obtain ⟨i, hget⟩ := List.mem_iff_getElem?.mp hc
    by_cases hi : i = s.current
    · subst hi
      exact settled_of_disposed (h.each _ (List.mem_of_getElem? (hself c hget))).settled
    · exact (h.each _ (List.mem_of_getElem? (hother i c hget hi))).settled
  · obtain ⟨i, hget⟩ := List.mem_iff_getElem?.mp hc
    by_cases hi : i = s.current
    · subst hi
      exact (ping_not_pending.mp (h.each _ (List.mem_of_getElem? (hself c hget))).ping).2
    · exact (ping_not_pending.mp (h.each _ (List.mem_of_getElem? (hother i c hget hi))).ping).2
  · have hget' := hother i c hget hi
    have hover := h.each c (List.mem_of_getElem? hget')
    refine ⟨hover.busy, (ping_not_pending.mp hover.ping).1, fun hopen hmem => ?_⟩
    exact h.silent i c hget' hopen (List.mem_append_left _ (loose_dispose.symm ▸ hmem))

lemma wf_of_run {as : List LifeAction} (h : run step init as = some s) : s.Wf :=
  run_invariant_of_step Wf (fun _ _ _ hs ht => hs.step ht) h wf_init

/-- `dispose` ends a client if and only if its connection is established. -/
theorem dispose_ends_iff (as : List LifeAction) (s : ClientLife) (h : run step init as = some s) :
    (s.dispose.2 = false ∧ s.dispose.1.Ends) ↔ s.Established := by
  have hwf := wf_of_run h
  have hwf' : s.dispose.1.Wf := hwf.step (a := .dispose) rfl
  constructor
  · rintro ⟨hthrew, hends⟩
    exact established_of_over (messenger_of_dispose hthrew) (hends.over hwf')
  · intro hestablished
    obtain ⟨hthrew, hover⟩ := hestablished.dispose hwf
    exact ⟨hthrew, hover.ends hwf'⟩

lemma established_of_one (h : s.connections = [c]) (hmessenger : s.messenger ≠ none)
    (hsettled : c.Settled) (htimers : c.ping.others = 0) : s.Established where
  messenger := hmessenger
  settled := by simpa [Settled, h] using hsettled
  timers := by simpa [h] using htimers
  earlier := by
    intro i d hget hi
    have hlt := (List.getElem?_eq_some_iff.mp hget).1
    simp only [current, h, List.length_singleton] at hlt hi
    omega

/-- A client that has connected and is disposed then. -/
theorem dispose_ends_connected : ∃ s, run step init
    [.connect, .connection 0 .connectFn, .connection 0 (.opened 0),
      .connection 0 (.connectResponse 0 .ok true), .connection 0 .resume, .connected 0,
      .construct, .record "a" 0] = some s ∧ s.dispose.2 = false ∧ s.dispose.1.Ends := by
  obtain ⟨s, hrun⟩ : ∃ s, run step init
    [.connect, .connection 0 .connectFn, .connection 0 (.opened 0),
      .connection 0 (.connectResponse 0 .ok true), .connection 0 .resume, .connected 0,
      .construct, .record "a" 0] = some s := ⟨_, rfl⟩
  refine ⟨s, hrun, (dispose_ends_iff _ s hrun).mpr ?_⟩
  cases hrun
  refine established_of_one rfl (by decide) ⟨by decide, by decide, fun n hn => ?_⟩ rfl
  obtain ⟨socket, hget, hsettle⟩ := hn
  have hsocket : socket ∈ [(⟨.open, .resolved, true, none⟩ : WebSocket)] :=
    List.mem_of_getElem? hget
  rw [List.mem_singleton.mp hsocket] at hsettle
  cases hsettle

/-- While the first call of `connect` still waits, `dispose` throws, and what it has begun goes
on: the connection is made, and the ping started. -/
theorem dispose_while_connecting : ∃ s t, run step init [.connect] = some s ∧
    run step s.dispose.1 [.connection 0 .connectFn, .connection 0 (.opened 0),
      .connection 0 (.connectResponse 0 .ok true), .connection 0 .resume, .connected 0] = some t ∧
    s.dispose.2 = true ∧ ¬s.dispose.1.Ends ∧ t.opened = s.opened + 1 ∧
    ∃ c ∈ t.connections, c.ping.pending = true := by
  obtain ⟨s, hrun⟩ : ∃ s, run step init [.connect] = some s := ⟨_, rfl⟩
  obtain ⟨t, hrest⟩ : ∃ t, run step s.dispose.1 [.connection 0 .connectFn, .connection 0 (.opened 0),
      .connection 0 (.connectResponse 0 .ok true), .connection 0 .resume, .connected 0] =
      some t := by
    cases hrun
    exact ⟨_, rfl⟩
  have hopened : t.opened = s.opened + 1 := by
    cases hrun
    cases hrest
    decide
  have hnot : ¬s.dispose.1.Ends := by
    intro hends
    have hsame := (hends _ (by decide) t hrest).1
    have hdispose : s.dispose.1.opened = s.opened := by
      cases hrun
      decide
    omega
  refine ⟨s, t, hrun, hrest, ?_, hnot, hopened, ?_⟩
  · cases hrun
    rfl
  · cases hrun
    cases hrest
    decide

end AlaFois.ClientLife
