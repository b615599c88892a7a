import AlaFois.Proofs.SoundConnection
import AlaFois.Model.ClientLife

/-!
# What the steps of a client keep

Every connection that a client has made stays sound, and at most one thing is running: a job of a
connection, or a call of `connect` whose promise has resolved.
-/

namespace AlaFois.ClientLife

open Stepper

variable {s t : ClientLife} {i j : Nat} {c : ClientConnection}

/-! ### The connections after a step -/

@[simp] lemma connections_modify {f : ClientConnection → ClientConnection} :
    (s.modify i f).connections = s.connections.modify i f := rfl

@[simp] lemma connections_send : (s.send i).1.connections = s.connections := by
  unfold send
  split
  · rfl
  · split <;> rfl

@[simp] lemma connections_disposeContainers (containers : List Nat) :
    (disposeContainers containers s).1.connections = s.connections := by
  induction containers generalizing s with
  | nil => rfl
  | cons i containers ih =>
    have hsend := connections_send (s := s) (i := i)
    unfold disposeContainers
    split
    · rename_i u hu
      rwa [hu] at hsend
    · rename_i u hu
      rw [hu] at hsend
      rw [ih, ← hsend]

@[simp] lemma connections_disposeDocs : s.disposeDocs.1.connections = s.connections := by
  have hcontainers := connections_disposeContainers (s := s) (s.docs.entries.map Prod.snd)
  unfold disposeDocs
  split
  · rename_i u hu
    rwa [hu] at hcontainers
  · rename_i u hu
    rwa [hu] at hcontainers

/-- What `dispose` does to the connection of the client. -/
def disposed (c : ClientConnection) : ClientConnection :=
  { c with ping := c.ping.dispose, connection := c.connection.dispose }

@[simp] lemma connections_dispose :
    s.dispose.1.connections = s.connections.modify s.current disposed := by
  unfold dispose
  dsimp only
  split
  · rfl
  · rw [connections_disposeDocs]
    rfl

lemma connections_pingFired (s : ClientLife) (i : Nat) (ping : Ping) :
    ∃ ping', (s.pingFired i ping).connections =
      s.connections.modify i fun c => { c with ping := ping' } := by
  have hsend := connections_send (s := s) (i := i)
  unfold pingFired
  split
  · rename_i u hu
    rw [hu] at hsend
    exact ⟨ping, by rw [connections_modify, hsend]⟩
  · rename_i u hu
    rw [hu] at hsend
    exact ⟨ping.tick, by rw [connections_modify, hsend]⟩

/-! ### Reachable states -/

/-- The connections are sound, and at most one thing is running. -/
structure Wf (s : ClientLife) : Prop where
  sound : ∀ c ∈ s.connections, c.connection.Sound
  one : ∀ (i j : Nat) (c d : ClientConnection), s.connections[i]? = some c →
    s.connections[j]? = some d → c.running = true → d.running = true → i = j
  single : ∀ c ∈ s.connections, c.resumable = true → c.connection.job = none

lemma wf_init : init.Wf := ⟨by simp [init], by simp [init], by simp [init]⟩

lemma Wf.congr (h : s.Wf) (ht : t.connections = s.connections) : t.Wf :=
  ⟨ht ▸ h.sound, ht ▸ h.one, ht ▸ h.single⟩

lemma getElem?_connections_modify {f : ClientConnection → ClientConnection} {d : ClientConnection}
    (h : (s.connections.modify i f)[j]? = some d) :
    ∃ c, s.connections[j]? = some c ∧ (d = f c ∧ j = i ∨ d = c ∧ j ≠ i) := by
  by_cases hj : i = j
  · subst hj
    rw [List.getElem?_modify_eq] at h
    obtain ⟨c, hget, rfl⟩ := Option.map_eq_some_iff.mp h
    exact ⟨c, hget, .inl ⟨rfl, rfl⟩⟩
  · simp only [List.getElem?_modify, hj, if_false, id_map'] at h
    exact ⟨d, h, .inr ⟨rfl, Ne.symm hj⟩⟩

lemma mem_connections_modify {f : ClientConnection → ClientConnection} {d : ClientConnection}
    (h : d ∈ s.connections.modify i f) :
    d ∈ s.connections ∨ ∃ c, s.connections[i]? = some c ∧ d = f c := by
  obtain ⟨j, hget⟩ := List.mem_iff_getElem?.mp h
  obtain ⟨c, hget', ⟨rfl, rfl⟩ | ⟨rfl, -⟩⟩ := getElem?_connections_modify hget
  · exact .inr ⟨c, hget', rfl⟩
  · exact .inl (List.mem_of_getElem? hget')

lemma not_running_of_idle (h : s.idle = true) (hc : c ∈ s.connections) : c.running = false := by
  simp only [idle, List.all_eq_true, Bool.not_eq_true'] at h
  exact h c hc

/-- A change of one connection that starts nothing unless the client is idle. -/
lemma Wf.modify (h : s.Wf) {f : ClientConnection → ClientConnection}
    (hsound : ∀ c, s.connections[i]? = some c → (f c).connection.Sound)
    (hsingle : ∀ c, s.connections[i]? = some c → (f c).resumable = true →
      (f c).connection.job = none)
    (hrunning : ∀ c, s.connections[i]? = some c → (f c).running = true →
      c.running = true ∨ s.idle = true)
    (ht : t.connections = s.connections.modify i f) : t.Wf where
  sound := by
    rw [ht]
    intro d hd
    rcases mem_connections_modify hd with hd | ⟨c, hget, rfl⟩
    · exact h.sound d hd
    · exact hsound c hget
  one := by
    rw [ht]
    intro j k d e hd he hrd hre
    obtain ⟨c, hc, ⟨rfl, rfl⟩ | ⟨rfl, hji⟩⟩ := getElem?_connections_modify hd
    · obtain ⟨c', hc', ⟨rfl, rfl⟩ | ⟨rfl, hki⟩⟩ := getElem?_connections_modify he
      · rfl
      · rcases hrunning c hc hrd with hold | hidle
        · exact h.one _ _ c _ hc hc' hold hre
        · rw [not_running_of_idle hidle (List.mem_of_getElem? hc')] at hre
          cases hre
    · obtain ⟨c', hc', ⟨rfl, rfl⟩ | ⟨rfl, hki⟩⟩ := getElem?_connections_modify he
      · rcases hrunning c' hc' hre with hold | hidle
        · exact h.one _ _ _ c' hc hc' hrd hold
        · rw [not_running_of_idle hidle (List.mem_of_getElem? hc)] at hrd
          cases hrd
      · exact h.one _ _ _ _ hc hc' hrd hre
  single := by
    rw [ht]
    intro d hd
    rcases mem_connections_modify hd with hd | ⟨c, hget, rfl⟩
    · exact h.single d hd
    · exact hsingle c hget

lemma resumable_eq (c : ClientConnection) :
    c.resumable = true ↔ c.connecting = true ∧ c.connection.connected = true := by
  simp [ClientConnection.resumable]

lemma running_eq (c : ClientConnection) :
    c.running = true ↔ c.connection.job ≠ none ∨ c.resumable = true := by
  simp [ClientConnection.running]

/-- A change that leaves the connection alone and does not let a call of `connect` wait. -/
lemma Wf.modify_same (h : s.Wf) {f : ClientConnection → ClientConnection}
    (hconnection : ∀ c, (f c).connection = c.connection)
    (hconnecting : ∀ c, (f c).connecting = true → c.connecting = true)
    (ht : t.connections = s.connections.modify i f) : t.Wf := by
  have hresumable : ∀ c, (f c).resumable = true → c.resumable = true := by
    intro c hc
    rw [resumable_eq, hconnection] at hc
    exact (resumable_eq c).mpr ⟨hconnecting c hc.1, hc.2⟩
  refine h.modify (fun c hc => ?_) (fun c hc hr => ?_) (fun c hc hr => .inl ?_) ht
  · rw [hconnection]
    exact h.sound c (List.mem_of_getElem? hc)
  · rw [hconnection]
    exact h.single c (List.mem_of_getElem? hc) (hresumable c hr)
  · rw [running_eq, hconnection] at hr
    exact (running_eq c).mpr (hr.imp_right (hresumable c))

lemma Wf.connection (h : s.Wf) {a : ConnectionAction} {u : WsConnection}
    (hget : s.connections[i]? = some c) (ha : a ≠ .connect)
    (hidle : a.socketEvent = true → s.idle = true) (hu : c.connection.step a = some u) :
    (s.modify i fun c => { c with connection := u }).Wf := by
  have hc := List.mem_of_getElem? hget
  have hsame : ∀ {d}, s.connections[i]? = some d → d = c :=
    fun hd => Option.mem_unique hd hget
  have hsound := (h.sound c hc).step ha hu
  by_cases hevent : a.socketEvent = true
  · -- nothing runs before the event, and only what the connection does afterwards
    have hrest := not_running_of_idle (hidle hevent) hc
    have hconnected := WsConnection.connected_of_socketEvent hevent hu
    refine h.modify (fun _ _ => hsound) (fun d hd hr => ?_) (fun _ _ _ => .inr (hidle hevent)) rfl
    rw [hsame hd, resumable_eq, hconnected] at hr
    rw [(running_eq c).mpr (.inr ((resumable_eq c).mpr hr))] at hrest
    cases hrest
  · -- a job has been run to its end, which leaves none
    have hdone (hjob : c.connection.job ≠ none) (hnone : u.job = none) :
        (s.modify i fun c => { c with connection := u }).Wf :=
      h.modify (fun _ _ => hsound) (fun _ _ _ => hnone)
        (fun d hd _ => .inl ((running_eq d).mpr (.inl (hsame hd ▸ hjob)))) rfl
    cases WsConnection.step_cases hu with
    | connect => exact absurd rfl ha
    | connectFn hpos =>
      refine h.modify (fun _ _ => hsound) (fun d hd hr => ?_) (fun d hd hr => .inl ?_) rfl
      · rw [hsame hd] at hr
        exact h.single c hc hr
      · rw [hsame hd] at hr ⊢
        exact hr
    | addListeners hjob => exact hdone (by simp [hjob]) rfl
    | reconnect hjob => exact hdone (by simp [hjob]) rfl
    | opened n socket hjob hopened hconn => exact absurd rfl hevent
    | connectResponse n socket status again hjob hopened hopen => exact absurd rfl hevent
    | ended n socket failed code again hjob hopened hopen => exact absurd rfl hevent

lemma Wf.connect (h : s.Wf) : s.connect.Wf := by
  let new : ClientConnection := ⟨WsConnection.init.connect, .new, true⟩
  have hnew : new.running = false := rfl
  have hold : ∀ {i : Nat} {d : ClientConnection}, s.connect.connections[i]? = some d →
      d.running = true → s.connections[i]? = some d := by
    intro i d hget hrunning
    by_cases hi : i < s.connections.length
    · rwa [ClientLife.connect, List.getElem?_append_left hi] at hget
    · rw [ClientLife.connect, List.getElem?_append_right (Nat.le_of_not_lt hi)] at hget
      have hd : d = new := by simpa using List.mem_of_getElem? hget
      rw [hd, hnew] at hrunning
      cases hrunning
  refine ⟨fun d hd => ?_, fun i j d e hd he hrd hre => ?_, fun d hd hr => ?_⟩
  · rcases List.mem_append.mp hd with hd | hd
    · exact h.sound d hd
    · rw [List.mem_singleton.mp hd]
      exact .connected
  · exact h.one i j d e (hold hd hrd) (hold he hre) hrd hre
  · rcases List.mem_append.mp hd with hd | hd
    · exact h.single d hd hr
    · rw [List.mem_singleton.mp hd]
      rfl

lemma Wf.step {a : LifeAction} (h : s.Wf) (ht : s.step a = some t) : t.Wf := by
  cases a with
  | connect =>
    cases ht
    exact h.connect
  | connection i a =>
    obtain ⟨c, hget, ht⟩ := Option.bind_eq_some_iff.mp ht
    split at ht
    · cases ht
    · rename_i hnot
      obtain ⟨u, hu, rfl⟩ := Option.map_eq_some_iff.mp ht
      simp only [not_or, not_and, Bool.not_eq_false] at hnot
      exact h.connection hget hnot.1 hnot.2 hu
  | connected i =>
    obtain ⟨c, hget, ht⟩ := Option.bind_eq_some_iff.mp ht
    obtain ⟨-, ht⟩ := Option.ite_none_right_eq_some.mp ht
    cases ht
    have hfirst : (s.modify i fun c => { c with connecting := false }).Wf :=
      h.modify_same (by simp) (by simp) rfl
    exact hfirst.modify_same (i := _) (by simp) (by simp) rfl
  | ping i own =>
    obtain ⟨c, hget, ht⟩ := Option.bind_eq_some_iff.mp ht
    obtain ⟨-, ht⟩ := Option.ite_none_right_eq_some.mp ht
    obtain ⟨ping, -, rfl⟩ := Option.map_eq_some_iff.mp ht
    obtain ⟨ping', hping⟩ := connections_pingFired s i ping
    exact h.modify_same (by simp) (by simp) hping
  | send i sender =>
    obtain ⟨-, ht⟩ := Option.ite_none_right_eq_some.mp ht
    cases ht
    exact h.congr connections_send
  | construct =>
    obtain ⟨i, -, rfl⟩ := Option.map_eq_some_iff.mp ht
    exact h.congr rfl
  | record id i =>
    obtain ⟨-, ht⟩ := Option.ite_none_right_eq_some.mp ht
    cases ht
    exact h.congr rfl
  | disposeDocs =>
    cases ht
    exact h.congr connections_disposeDocs
  | dispose =>
    cases ht
    refine h.modify ?_ ?_ ?_ connections_dispose
    · exact fun c hc => (h.sound c (List.mem_of_getElem? hc)).dispose
    · exact fun c hc => h.single c (List.mem_of_getElem? hc)
    · exact fun c _ => .inl

end AlaFois.ClientLife
