import Mathlib.Algebra.Ring.Nat
import AlaFois.Proofs.ClientLifeSpec

/-!
# What is left of a disposed client

A client is at an end when no attempt of a connection can open a socket any more, no timer of a
ping is pending and nothing sends through an open socket. `dispose` brings this about for a client
whose connection is there; what is still under way then goes on as if nothing had happened.
-/

namespace AlaFois

open Stepper

namespace ClientConnection

/-- None of the promises of the connection is pending and could still be settled, and no attempt
is to come. -/
structure Settled (c : ClientConnection) : Prop where
  attempts : c.connection.attempts = 0
  running : c.running = false
  settles : ∀ n, ¬c.connection.SettlesAt n

/-- The connection opens no socket any more and waits for nothing. -/
structure Over (c : ClientConnection) : Prop where
  settled : c.Settled
  busy : ∀ n, ¬c.connection.BusyAt n
  ping : c.ping.pending = false

end ClientConnection

namespace ClientLife

variable {s t : ClientLife} {i j : Nat} {c : ClientConnection}

/-- The number of the sockets that have been opened. -/
def opened (s : ClientLife) : Nat := (s.connections.map fun c => c.connection.sockets.length).sum

def Settled (s : ClientLife) : Prop := ∀ c ∈ s.connections, c.Settled

/-- Whatever happens without a call of the user, no socket is opened, no data is accepted by an
open one, and with the promises settled no timer of a ping is pending. -/
def Ends (s : ClientLife) : Prop :=
  ∀ as, (∀ a ∈ as, a.byUser = false) → ∀ t, run step s as = some t →
    t.opened = s.opened ∧ t.accepted = s.accepted ∧
      (t.Settled → ∀ c ∈ t.connections, c.ping.pending = false)

/-- `connect` has finished and no reconnection is under way; the connections of earlier calls of
`connect`, if there are any, are over. -/
structure Established (s : ClientLife) : Prop where
  messenger : s.messenger ≠ none
  settled : s.Settled
  timers : ∀ c ∈ s.connections, c.ping.others = 0
  earlier : ∀ i c, s.connections[i]? = some c → i ≠ s.current →
    (∀ n, ¬c.connection.BusyAt n) ∧ c.ping.timeout = false ∧ (c.isOpen = true → i ∉ s.loose)

/-! ### Clients at an end -/

/-- The containers that have not been disposed. -/
def containers (s : ClientLife) : List Nat := s.loose ++ s.docs.entries.map Prod.snd

/-- Every connection is over, and no container sends through an open socket. -/
structure Over (s : ClientLife) : Prop where
  each : ∀ c ∈ s.connections, c.Over
  silent : ∀ (i : Nat) (c : ClientConnection), s.connections[i]? = some c → c.isOpen = true →
    i ∉ s.containers

lemma send_eq (h : ∀ c, s.connections[i]? = some c → c.isOpen = false) : (s.send i).1 = s := by
  unfold send
  split
  · rfl
  · rename_i socket hsocket
    obtain ⟨c, hget, hws⟩ := Option.bind_eq_some_iff.mp hsocket
    have hclosed := h c hget
    simp only [ClientConnection.isOpen, hws, Option.any_some, decide_eq_false_iff_not] at hclosed
    split
    · rfl
    · rename_i hopen
      exact absurd hopen hclosed
    · rfl
    · rfl

lemma opened_modify {f : ClientConnection → ClientConnection}
    (hf : ∀ c, s.connections[i]? = some c →
      (f c).connection.sockets.length = c.connection.sockets.length)
    (ht : t.connections = s.connections.modify i f) : t.opened = s.opened := by
  rw [opened, opened, ht]
  congr 1
  apply List.ext_getElem?
  intro j
  rw [List.getElem?_map, List.getElem?_map]
  by_cases hj : i = j
  · subst hj
    cases hget : s.connections[i]? with
    | none => simp [hget]
    | some c => simp [hget, hf c hget]
  · simp [hj]

lemma isOpen_eq : c.isOpen = true ↔
    ∃ socket, c.connection.ws = some socket ∧ socket.readyState = .open := by
  simp [ClientConnection.isOpen, Option.any_eq_true]

lemma ping_not_pending {ping : Ping} :
    ping.pending = false ↔ ping.timeout = false ∧ ping.others = 0 := by
  cases h : ping.timeout <;> simp [Ping.pending, h]

lemma job_eq_none (h : c.running = false) : c.connection.job = none := by
  by_contra hne
  rw [(running_eq c).mpr (.inl hne)] at h
  cases h

/-- A connection that is over stays so, and its sockets at most close. -/
lemma over_connection {a : ConnectionAction} {u : WsConnection} (h : c.Over)
    (hsound : c.connection.Sound) (ha : a ≠ .connect) (hu : c.connection.step a = some u) :
    ({ c with connection := u } : ClientConnection).Over ∧
      u.sockets.length = c.connection.sockets.length ∧
      (({ c with connection := u } : ClientConnection).isOpen = true → c.isOpen = true) := by
  have hjob := job_eq_none h.settled.running
  rcases hsound.step_of_idle h.settled.attempts hjob h.busy ha hu with rfl | ⟨n, code, rfl⟩
  · exact ⟨h, rfl, id⟩
  · have hbusy : ∀ k, ¬(c.connection.modify n (WebSocket.ended code)).BusyAt k := fun k hk =>
      h.busy k (WsConnection.busyAt_of_modify
        (fun _ hb => absurd hb WsConnection.not_busy_ended) hk)
    refine ⟨⟨⟨h.settled.attempts, h.settled.running, fun k hk => ?_⟩, hbusy, h.ping⟩, by simp,
      fun hopen => ?_⟩
    · exact hbusy k (WsConnection.busyAt_of_settlesAt hk)
    · obtain ⟨socket, hws, hopen⟩ := isOpen_eq.mp hopen
      obtain ⟨socket', hws', ⟨rfl, -⟩ | rfl⟩ := WsConnection.ws_modify hws
      · cases hopen
      · exact isOpen_eq.mpr ⟨socket, hws', hopen⟩

/-- A change of one connection that keeps it over. -/
lemma Over.modify (h : s.Over) {f : ClientConnection → ClientConnection}
    (hover : ∀ c, s.connections[i]? = some c → (f c).Over)
    (hopen : ∀ c, s.connections[i]? = some c → (f c).isOpen = true → c.isOpen = true)
    (ht : t.connections = s.connections.modify i f) (hcontainers : t.containers ⊆ s.containers) :
    t.Over where
  each := by
    rw [ht]
    intro d hd
    rcases mem_connections_modify hd with hd | ⟨c, hget, rfl⟩
    · exact h.each d hd
    · exact hover c hget
  silent := by
    rw [ht]
    intro j d hd hdopen hmem
    obtain ⟨c, hc, ⟨rfl, rfl⟩ | ⟨rfl, -⟩⟩ := getElem?_connections_modify hd
    · exact h.silent _ c hc (hopen c hc hdopen) (hcontainers hmem)
    · exact h.silent j _ hc hdopen (hcontainers hmem)

lemma Over.of_containers (h : s.Over) (ht : t.connections = s.connections)
    (hcontainers : t.containers ⊆ s.containers) : t.Over :=
  ⟨ht ▸ h.each, fun i c hc hopen hmem => h.silent i c (ht ▸ hc) hopen (hcontainers hmem)⟩

lemma disposeContainers_eq {containers : List Nat}
    (h : ∀ i ∈ containers, ∀ c, s.connections[i]? = some c → c.isOpen = false) :
    (disposeContainers containers s).1 = s := by
  induction containers with
  | nil => rfl
  | cons i containers ih =>
    have hsend := send_eq (h i List.mem_cons_self)
    unfold disposeContainers
    split
    · rename_i u hu
      rwa [hu] at hsend
    · rename_i u hu
      rw [hu] at hsend
      obtain rfl : u = s := hsend
      exact ih fun j hj => h j (List.mem_cons_of_mem i hj)

lemma disposeDocs_cases (h : ∀ i ∈ s.docs.entries.map Prod.snd, ∀ c,
      s.connections[i]? = some c → c.isOpen = false) :
    s.disposeDocs.1 = s ∨ s.disposeDocs.1 = { s with docs := .empty } := by
  have hcontainers := disposeContainers_eq h
  unfold disposeDocs
  split
  · rename_i u hu
    rw [hu] at hcontainers
    exact .inl hcontainers
  · rename_i u hu
    rw [hu] at hcontainers
    obtain rfl : u = s := hcontainers
    exact .inr rfl

lemma containers_record {id : DocKey} (hi : i ∈ s.loose) :
    (s.record id i).containers ⊆ s.containers := by
  have hvalue {id' : DocKey} {j : Nat} (hget : s.docs.get id' = some j) : j ∈ s.containers := by
    refine List.mem_append_right _ (List.mem_map.mpr ⟨(id', j), ?_, rfl⟩)
    exact (JsMap.mem_entries_iff _ _ _).mpr hget
  intro j hj
  rcases List.mem_append.mp hj with hj | hj
  · rcases List.mem_append.mp hj with hj | hj
    · exact hvalue (Option.mem_toList.mp hj)
    · exact List.mem_append_left _ (List.mem_of_mem_erase hj)
  · obtain ⟨⟨id', j'⟩, hmem, rfl⟩ := List.mem_map.mp hj
    have hget := (JsMap.mem_entries_iff _ _ _).mp hmem
    rw [record, JsMap.get_set] at hget
    split at hget
    · cases hget
      exact List.mem_append_left _ hi
    · exact hvalue hget

lemma disposed_isOpen (c : ClientConnection) : (disposed c).isOpen = false := by
  rw [← Bool.not_eq_true, isOpen_eq]
  rintro ⟨socket, hws, hopen⟩
  obtain ⟨socket', -, rfl⟩ := Option.map_eq_some_iff.mp (WsConnection.ws_modifyWs.symm.trans hws)
  simp at hopen

lemma disposed_over (h : c.Settled) (hothers : c.ping.others = 0)
    (hbusy : ∀ n, ¬c.connection.dispose.BusyAt n) : (disposed c).Over where
  settled := ⟨h.attempts, h.running, fun n hn => hbusy n (WsConnection.busyAt_of_settlesAt hn)⟩
  busy := hbusy
  ping := ping_not_pending.mpr ⟨rfl, hothers⟩

lemma containers_disposeDocs_subset :
    ({ s with docs := .empty } : ClientLife).containers ⊆ s.containers := by
  intro j hj
  rcases List.mem_append.mp hj with hj | hj
  · exact List.mem_append_left _ hj
  · cases hj

lemma Over.dispose (h : s.Over) : s.dispose.1.Over ∧ s.dispose.1.accepted = s.accepted := by
  let u := s.modify s.current disposed
  have hu : u.Over := by
    refine h.modify (fun c hc => ?_) (fun c _ hopen => ?_) rfl (fun _ hj => hj)
    · have hover := h.each c (List.mem_of_getElem? hc)
      refine disposed_over hover.settled (ping_not_pending.mp hover.ping).2 fun n hn => ?_
      exact hover.busy n (WsConnection.busyAt_of_modify (fun _ => WebSocket.busy_of_dispose) hn)
    · rw [disposed_isOpen] at hopen
      cases hopen
  have hclosed : ∀ i ∈ u.docs.entries.map Prod.snd, ∀ c, u.connections[i]? = some c →
      c.isOpen = false := by
    intro i hi c hc
    by_contra hopen
    exact hu.silent i c hc (Bool.not_eq_false _ ▸ hopen) (List.mem_append_right _ hi)
  have hcases : s.dispose.1 = u ∨ s.dispose.1 = { u with docs := .empty } := by
    unfold ClientLife.dispose
    dsimp only
    split
    · exact .inl rfl
    · exact disposeDocs_cases hclosed
  rcases hcases with hd | hd
  · rw [hd]
    exact ⟨hu, rfl⟩
  · rw [hd]
    exact ⟨hu.of_containers rfl containers_disposeDocs_subset, rfl⟩

/-- Whoever still sends finds no open socket. -/
lemma Over.isOpen_eq_false (h : s.Over) (hwf : s.Wf) {sender : Sender} (hs : sender ≠ .user)
    (hcan : s.canSend i sender = true) :
    ∀ c, s.connections[i]? = some c → c.isOpen = false := by
  intro c hget
  cases sender with
  | user => exact absurd rfl hs
  | awareness =>
    by_contra hopen
    simp only [canSend, decide_eq_true_eq] at hcan
    exact h.silent i c hget (Bool.not_eq_false _ ▸ hopen) (List.mem_append.mpr hcan.2)
  | listener =>
    -- the socket that delivers messages is one that `handleClose` listens to
    simp only [canSend, hget, Option.any_some] at hcan
    obtain ⟨socket, hws, hboth⟩ := (Option.any_eq_true _ _).mp hcan
    simp only [decide_eq_true_eq] at hboth
    have hc := List.mem_of_getElem? hget
    have hover := h.each c hc
    have hlistens : socket.closeListener = true := by
      simpa [job_eq_none hover.settled.running] using
        (hwf.sound c hc).listening socket hws hboth.2 hboth.1
    exact absurd ⟨socket, hws, by simp [hboth.1], .inr hlistens⟩ (hover.busy _)

/-- Without a call of the user a client at an end stays there, and does nothing. -/
lemma Over.step {a : LifeAction} (h : s.Over) (hwf : s.Wf) (ha : a.byUser = false)
    (ht : s.step a = some t) : t.Over ∧ t.opened = s.opened ∧ t.accepted = s.accepted := by
  cases a with
  | connect => cases ha
  | construct => cases ha
  | disposeDocs => cases ha
  | connection i a =>
    obtain ⟨c, hget, ht⟩ := Option.bind_eq_some_iff.mp ht
    have hc := List.mem_of_getElem? hget
    have hsame : ∀ {d}, s.connections[i]? = some d → d = c :=
      fun hd => Option.mem_unique hd hget
    split at ht
    · cases ht
    · rename_i hnot
      obtain ⟨u, hu, rfl⟩ := Option.map_eq_some_iff.mp ht
      obtain ⟨hover, hlength, hopen⟩ := over_connection (h.each c hc) (hwf.sound c hc)
        (fun hconnect => hnot (.inl hconnect)) hu
      refine ⟨h.modify ?_ ?_ rfl (fun _ hj => hj), opened_modify ?_ rfl, rfl⟩
      · intro d hd
        rw [hsame hd]
        exact hover
      · intro d hd
        rw [hsame hd]
        exact hopen
      · intro d hd
        rw [hsame hd]
        exact hlength
  | connected i =>
    obtain ⟨c, hget, ht⟩ := Option.bind_eq_some_iff.mp ht
    obtain ⟨hresumable, -⟩ := Option.ite_none_right_eq_some.mp ht
    have hrest := (h.each c (List.mem_of_getElem? hget)).settled.running
    rw [(running_eq c).mpr (.inr hresumable)] at hrest
    cases hrest
  | ping i own =>
    obtain ⟨c, hget, ht⟩ := Option.bind_eq_some_iff.mp ht
    obtain ⟨-, ht⟩ := Option.ite_none_right_eq_some.mp ht
    obtain ⟨ping, hfire, -⟩ := Option.map_eq_some_iff.mp ht
    have hnone := ping_not_pending.mp (h.each c (List.mem_of_getElem? hget)).ping
    simp [Ping.fire, hnone.1, hnone.2] at hfire
  | send i sender =>
    obtain ⟨hcan, ht⟩ := Option.ite_none_right_eq_some.mp ht
    cases ht
    have huser : sender ≠ .user := by
      rintro rfl
      cases ha
    rw [send_eq (h.isOpen_eq_false hwf huser hcan)]
    exact ⟨h, rfl, rfl⟩
  | record id i =>
    obtain ⟨hi, ht⟩ := Option.ite_none_right_eq_some.mp ht
    cases ht
    exact ⟨h.of_containers rfl (containers_record hi), rfl, rfl⟩
  | dispose =>
    cases ht
    refine ⟨h.dispose.1, opened_modify (fun c _ => ?_) connections_dispose, h.dispose.2⟩
    simp [disposed, WsConnection.dispose, WsConnection.modifyWs]

lemma Over.ends (h : s.Over) (hwf : s.Wf) : s.Ends := by
  intro as
  induction as generalizing s with
  | nil =>
    intro _ t ht
    cases ht
    exact ⟨rfl, rfl, fun _ c hc => (h.each c hc).ping⟩
  | cons a as ih =>
    intro hquiet t hrun
    obtain ⟨u, hu, hrun⟩ := run_cons_eq_some.mp hrun
    obtain ⟨ha, hrest⟩ := List.forall_mem_cons.mp hquiet
    obtain ⟨hover, hopened, haccepted⟩ := h.step hwf ha hu
    obtain ⟨hopened', haccepted', hpings⟩ := ih hover (hwf.step hu) hrest t hrun
    exact ⟨hopened'.trans hopened, haccepted'.trans haccepted, hpings⟩

/-! ### An established connection -/

/-- A socket that can still be sent to without an error, if not with success. -/
lemma send_snd (h : ∀ c, s.connections[i]? = some c → ∀ socket, c.connection.ws = some socket →
    socket.readyState ≠ .connecting) : (s.send i).2 = false := by
  unfold send
  split
  · rfl
  · rename_i socket hsocket
    obtain ⟨c, hget, hws⟩ := Option.bind_eq_some_iff.mp hsocket
    have hne := h c hget socket hws
    split
    · rename_i hconn
      exact absurd hconn hne
    · rfl
    · rfl
    · rfl

lemma disposeContainers_snd (containers : List Nat)
    (h : ∀ c ∈ s.connections, ∀ socket, c.connection.ws = some socket →
      socket.readyState ≠ .connecting) : (disposeContainers containers s).2 = false := by
  induction containers generalizing s with
  | nil => rfl
  | cons i containers ih =>
    have hsend := send_snd (s := s) (i := i) fun c hget => h c (List.mem_of_getElem? hget)
    have hsame := connections_send (s := s) (i := i)
    unfold disposeContainers
    split
    · rename_i u hu
      rw [hu] at hsend
      cases hsend
    · rename_i u hu
      rw [hu] at hsame
      exact ih (hsame ▸ h)

lemma loose_send : (s.send i).1.loose = s.loose := by
  unfold send
  split
  · rfl
  · split <;> rfl

lemma loose_disposeContainers (containers : List Nat) :
    (disposeContainers containers s).1.loose = s.loose := by
  induction containers generalizing s with
  | nil => rfl
  | cons i containers ih =>
    have hsend := loose_send (s := s) (i := i)
    unfold disposeContainers
    split
    · rename_i u hu
      rwa [hu] at hsend
    · rename_i u hu
      rw [hu] at hsend
      rw [ih, ← hsend]

/-- The containers of `Client.docs` are all disposed, and the others are not. -/
lemma disposeDocs_eq (h : ∀ c ∈ s.connections, ∀ socket, c.connection.ws = some socket →
      socket.readyState ≠ .connecting) :
    s.disposeDocs.2 = false ∧ s.disposeDocs.1.connections = s.connections ∧
      s.disposeDocs.1.containers = s.loose := by
  have hthrew := disposeContainers_snd (s.docs.entries.map Prod.snd) h
  have hloose := loose_disposeContainers (s := s) (s.docs.entries.map Prod.snd)
  refine ⟨?_, connections_disposeDocs, ?_⟩
  · unfold disposeDocs
    split
    · rename_i u hu
      rw [hu] at hthrew
      cases hthrew
    · rfl
  · unfold disposeDocs
    split
    · rename_i u hu
      rw [hu] at hthrew
      cases hthrew
    · rename_i u hu
      rw [hu] at hloose
      simpa [containers, JsMap.empty] using hloose

/-- `dispose` brings a client whose connection is established to an end. -/
lemma Established.dispose (h : s.Established) (hwf : s.Wf) :
    s.dispose.2 = false ∧ s.dispose.1.Over := by
  let u := s.modify s.current disposed
  have hdispose : s.dispose = u.disposeDocs := by
    unfold ClientLife.dispose
    dsimp only
    split
    · rename_i hnone
      exact absurd hnone h.messenger
    · rfl
  have hready : ∀ c ∈ u.connections, ∀ socket, c.connection.ws = some socket →
      socket.readyState ≠ .connecting := by
    intro c hc socket hws hconn
    rcases mem_connections_modify hc with hc | ⟨c, hget, rfl⟩
    · have hpending := (hwf.sound c hc).fresh _ socket hws hconn
      exact (h.settled c hc).settles _ ⟨socket, hws, by simp [WebSocket.canSettle, hconn, hpending]⟩
    · obtain ⟨socket', -, rfl⟩ :=
        Option.map_eq_some_iff.mp (WsConnection.ws_modifyWs.symm.trans hws)
      exact WebSocket.dispose_ne_connecting hconn
  obtain ⟨hthrew, hconnections, hcontainers⟩ := disposeDocs_eq hready
  rw [hdispose]
  refine ⟨hthrew, ⟨fun d hd => ?_, fun j d hd hopen hmem => ?_⟩⟩
  · rw [hconnections] at hd
    obtain ⟨j, hget⟩ := List.mem_iff_getElem?.mp hd
    obtain ⟨c, hc, ⟨rfl, -⟩ | ⟨rfl, hj⟩⟩ := getElem?_connections_modify hget
    · have hmem := List.mem_of_getElem? hc
      exact disposed_over (h.settled c hmem) (h.timers c hmem) fun n =>
        (hwf.sound c hmem).not_busyAt_dispose (h.settled c hmem).settles
    · have hmem := List.mem_of_getElem? hc
      obtain ⟨hbusy, htimeout, -⟩ := h.earlier j d hc hj
      exact ⟨h.settled d hmem, hbusy, ping_not_pending.mpr ⟨htimeout, h.timers d hmem⟩⟩
  · rw [hconnections] at hd
    rw [hcontainers] at hmem
    obtain ⟨c, hc, ⟨rfl, -⟩ | ⟨rfl, hj⟩⟩ := getElem?_connections_modify hd
    · rw [disposed_isOpen] at hopen
      cases hopen
    · exact (h.earlier j d hc hj).2.2 hopen hmem

end ClientLife

end AlaFois
