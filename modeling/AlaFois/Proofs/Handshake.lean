import AlaFois.Lib.Stepper
import AlaFois.Model.Handshake

/-!
# Connections that never get stuck

A connection whose current socket has closed goes on through a promise that a listener can still
settle, through a scheduled call of `connectFn` or through `handleClose`. What can break this off
is a socket that closes without an error while its promise is pending.
-/

namespace AlaFois

open Stepper

/-- The action leaves an attempt to `promiseRetry`, if it needs one. -/
def ConnectionAction.withinBudget : ConnectionAction → Prop
  | .connectResponse _ _ again => again = true
  | .ended _ _ _ again => again = true
  | _ => True

namespace WsConnection

variable {s t : WsConnection} {n k : Nat} {socket : WebSocket}

def PendingAt (s : WsConnection) (n : Nat) : Prop :=
  ∃ socket, s.sockets[n]? = some socket ∧ socket.promise = .pending

def SettlesAt (s : WsConnection) (n : Nat) : Prop :=
  ∃ socket, s.sockets[n]? = some socket ∧ socket.canSettle = true

/-- `handleClose` is called when the socket closes, and connects again. -/
def ReconnectsAt (s : WsConnection) (n code : Nat) : Prop :=
  ∃ socket, s.sockets[n]? = some socket ∧ socket.closeListener = true ∧ code ≠ wsCloseStatusNormal

/-- An attempt that can still settle, or one that is to come. -/
def Live (s : WsConnection) : Prop :=
  0 < s.attempts ∨ s.job = some .reconnect ∨ ∃ n, s.SettlesAt n

/-- The current socket has not closed, or it closed normally after a completed handshake. -/
def Usable (s : WsConnection) : Prop :=
  ∀ socket, s.ws = some socket → socket.readyState = .closed →
    socket.promise = .resolved ∧ socket.closeCode = some wsCloseStatusNormal

def Stuck (s : WsConnection) : Prop := ¬s.Usable ∧ ¬s.Live

/-- The connection goes on without the promise of the socket: through a scheduled attempt, the
promise of another socket, or a current socket that is another one. -/
def GoesOnWithout (s : WsConnection) (n : Nat) : Prop :=
  0 < s.attempts ∨ (∃ k, k ≠ n ∧ s.SettlesAt k) ∨ (n + 1 ≠ s.sockets.length ∧ s.Usable)

/-- A pending promise is settled by an answer to a current socket or by an error, or the
connection goes on without it. -/
def KeepsGoing (s : WsConnection) : ConnectionAction → Prop
  | .connectResponse n .ok _ => s.PendingAt n → n + 1 = s.sockets.length ∨ s.GoesOnWithout n
  | .ended n failed code _ =>
    s.PendingAt n → failed = true ∨ s.ReconnectsAt n code ∨ s.GoesOnWithout n
  | _ => True

/-- A current socket whose promise is settled has its close listener, or an attempt is to come. -/
structure Wf (s : WsConnection) : Prop where
  listening : ∀ socket, s.ws = some socket → socket.promise = .resolved →
    socket.closeListener = true ∨ s.job = some .addListeners
  retrying : ∀ socket, s.ws = some socket → socket.promise = .rejected → 0 < s.attempts

/-! ### The sockets after a step -/

@[simp] lemma sockets_modify {f : WebSocket → WebSocket} :
    (s.modify n f).sockets = s.sockets.modify n f := rfl

@[simp] lemma attempts_modify {f : WebSocket → WebSocket} :
    (s.modify n f).attempts = s.attempts := rfl

@[simp] lemma job_modify {f : WebSocket → WebSocket} : (s.modify n f).job = s.job := rfl

lemma sockets_reject {again : Bool} : (s.reject n again).sockets =
    (s.modify n fun socket => { socket with promise := .rejected }).sockets := by
  cases again <;> rfl

lemma getElem?_modify {f : WebSocket → WebSocket} (h : (s.modify n f).sockets[k]? = some socket) :
    ∃ socket', s.sockets[k]? = some socket' ∧
      (socket = f socket' ∧ k = n ∨ socket = socket' ∧ k ≠ n) := by
  by_cases hk : n = k
  · subst hk
    rw [sockets_modify, List.getElem?_modify_eq] at h
    obtain ⟨socket', hget, rfl⟩ := Option.map_eq_some_iff.mp h
    exact ⟨socket', hget, .inl ⟨rfl, rfl⟩⟩
  · simp only [sockets_modify, List.getElem?_modify, hk, if_false, id_map'] at h
    exact ⟨socket, h, .inr ⟨rfl, Ne.symm hk⟩⟩

/-- What a change of one socket does not bring about was there before. -/
lemma socket_of_modify {P : WebSocket → Prop} {f : WebSocket → WebSocket}
    (hf : ∀ socket, s.sockets[n]? = some socket → P (f socket) → P socket)
    (h : ∃ socket, (s.modify n f).sockets[k]? = some socket ∧ P socket) :
    ∃ socket, s.sockets[k]? = some socket ∧ P socket := by
  obtain ⟨socket, hget, hsocket⟩ := h
  obtain ⟨socket', hget', ⟨rfl, rfl⟩ | ⟨rfl, -⟩⟩ := getElem?_modify hget
  · exact ⟨socket', hget', hf socket' hget' hsocket⟩
  · exact ⟨socket, hget', hsocket⟩

/-- A message of the server settles at most a promise. -/
lemma socket_of_messageHandler {P : WebSocket → Prop} {status : Status} {again : Bool}
    (hP : ∀ socket promise, P { socket with promise := promise } → P socket)
    (h : ∃ socket', (s.messageHandler n socket again status).sockets[k]? = some socket' ∧
      P socket') : ∃ socket', s.sockets[k]? = some socket' ∧ P socket' := by
  cases status with
  | ok =>
    by_cases hp : socket.promise = .pending
    · rw [messageHandler, if_pos hp] at h
      exact socket_of_modify (fun other _ => hP other .resolved) h
    · rwa [messageHandler, if_neg hp] at h
  | err message =>
    by_cases hp : socket.promise = .pending
    · rw [messageHandler, if_pos hp, sockets_reject] at h
      exact socket_of_modify (fun other _ => hP other .rejected) h
    · rwa [messageHandler, if_neg hp] at h

lemma settlesAt_modify_ne {f : WebSocket → WebSocket} (h : k ≠ n) :
    (s.modify n f).SettlesAt k ↔ s.SettlesAt k := by
  simp [SettlesAt, Ne.symm h]

lemma settlesAt_modify_self {f : WebSocket → WebSocket} :
    (s.modify n f).SettlesAt n ↔ ∃ socket, s.sockets[n]? = some socket ∧ (f socket).canSettle := by
  simp [SettlesAt]

/-- A socket that was not the current one does not become it. -/
lemma ws_modify_ne {f : WebSocket → WebSocket} (h : n + 1 ≠ s.sockets.length) :
    (s.modify n f).ws = s.ws := by
  have hne : n ≠ s.sockets.length - 1 ∨ s.sockets = [] := by
    by_cases hnil : s.sockets = []
    · exact .inr hnil
    · have hpos := List.length_pos_iff.mpr hnil
      exact .inl (by omega)
  rcases hne with hne | hnil
  · simp [ws, hne]
  · simp [ws, hnil]

lemma ws_eq (h : n + 1 = s.sockets.length) : s.ws = s.sockets[n]? := by
  have hn : s.sockets.length - 1 = n := by omega
  rw [ws, hn]

lemma ws_modify {f : WebSocket → WebSocket} (h : (s.modify n f).ws = some socket) :
    ∃ socket', s.ws = some socket' ∧
      (socket = f socket' ∧ s.sockets[n]? = some socket' ∨ socket = socket') := by
  have hlength : (s.modify n f).sockets.length - 1 = s.sockets.length - 1 := by simp
  rw [ws, hlength, sockets_modify] at h
  by_cases hn : n = s.sockets.length - 1
  · rw [← hn, List.getElem?_modify_eq] at h
    obtain ⟨socket', hget, rfl⟩ := Option.map_eq_some_iff.mp h
    exact ⟨socket', by rw [ws, ← hn, hget], .inl ⟨rfl, hget⟩⟩
  · simp only [List.getElem?_modify, hn, if_false, id_map'] at h
    exact ⟨socket, h, .inr rfl⟩

lemma ws_modifyWs {f : WebSocket → WebSocket} : (s.modifyWs f).ws = s.ws.map f := by
  simp [ws, modifyWs]

lemma usable_congr (h : t.ws = s.ws) : t.Usable ↔ s.Usable := by rw [Usable, Usable, h]

lemma usable_of_ws (h : t.ws = some socket) (hopen : socket.readyState ≠ .closed) : t.Usable := by
  intro socket' hws hclosed
  rw [h] at hws
  cases hws
  exact absurd hclosed hopen

lemma not_stuck_of_live (h : t.Live) : ¬t.Stuck := fun hstuck => hstuck.2 h

lemma not_stuck_of_usable (h : t.Usable) : ¬t.Stuck := fun hstuck => hstuck.1 h

/-- If the change leaves no promise for socket `n` to settle, the others are what goes on. -/
lemma live_modify_iff {f : WebSocket → WebSocket} (hjob : s.job ≠ some .reconnect)
    (hf : ∀ socket, s.sockets[n]? = some socket → (f socket).canSettle = false) :
    (s.modify n f).Live ↔ 0 < s.attempts ∨ ∃ k, k ≠ n ∧ s.SettlesAt k := by
  have hn : ¬(s.modify n f).SettlesAt n := by
    rw [settlesAt_modify_self]
    rintro ⟨socket, hget, hsettle⟩
    rw [hf socket hget] at hsettle
    cases hsettle
  have hexists : (∃ k, (s.modify n f).SettlesAt k) ↔ ∃ k, k ≠ n ∧ s.SettlesAt k := by
    constructor
    · rintro ⟨k, hk⟩
      have hkn : k ≠ n := fun he => hn (he ▸ hk)
      exact ⟨k, hkn, (settlesAt_modify_ne hkn).mp hk⟩
    · rintro ⟨k, hkn, hk⟩
      exact ⟨k, (settlesAt_modify_ne hkn).mpr hk⟩
  simp [Live, hexists, hjob]

/-- The same for a change that makes the socket useless if it is the current one. -/
lemma not_stuck_modify_iff {f : WebSocket → WebSocket} (hjob : s.job ≠ some .reconnect)
    (hf : ∀ socket, s.sockets[n]? = some socket → (f socket).canSettle = false)
    (hcurrent : n + 1 = s.sockets.length → ¬(s.modify n f).Usable) :
    ¬(s.modify n f).Stuck ↔ s.GoesOnWithout n := by
  have hlive := live_modify_iff hjob hf
  have husable : (s.modify n f).Usable ↔ n + 1 ≠ s.sockets.length ∧ s.Usable := by
    by_cases hlast : n + 1 = s.sockets.length
    · exact iff_of_false (hcurrent hlast) fun h => h.1 hlast
    · rw [usable_congr (ws_modify_ne hlast), and_iff_right hlast]
  rw [Stuck, hlive, husable, ← not_or, not_not, GoesOnWithout, or_comm, or_assoc]

/-- A change that settles no promise and closes no socket. -/
lemma not_stuck_modify {f : WebSocket → WebSocket} (hs : ¬s.Stuck)
    (hpromise : ∀ socket, (f socket).promise = socket.promise)
    (hclosed : ∀ socket, s.sockets[n]? = some socket →
      ((f socket).readyState = .closed ↔ socket.readyState = .closed))
    (hcode : ∀ socket, (f socket).closeCode = socket.closeCode) : ¬(s.modify n f).Stuck := by
  have hget : ∀ k, (s.modify n f).sockets[k]? =
      if n = k then (s.sockets[k]?).map f else s.sockets[k]? := by
    intro k
    by_cases hn : n = k <;> simp [hn]
  have hlive : s.Live → (s.modify n f).Live := by
    rintro (hatt | hjob | ⟨k, socket, hk, hsettle⟩)
    · exact .inl hatt
    · exact .inr (.inl hjob)
    · refine .inr (.inr ⟨k, ?_⟩)
      by_cases hn : n = k
      · refine ⟨f socket, by simp [hn, hk], ?_⟩
        simpa [WebSocket.canSettle, hpromise, hclosed socket (hn ▸ hk)] using hsettle
      · exact ⟨socket, by simp [hn, hk], hsettle⟩
  have husable : s.Usable → (s.modify n f).Usable := by
    intro hu socket hws hcl
    obtain ⟨socket', hws', ⟨rfl, hn⟩ | rfl⟩ := ws_modify hws
    · rw [hpromise, hcode]
      exact hu socket' hws' ((hclosed socket' hn).mp hcl)
    · exact hu socket hws' hcl
  exact fun hstuck => hs ⟨fun hu => hstuck.1 (husable hu), fun hl => hstuck.2 (hlive hl)⟩

/-! ### What a step does -/

lemma waiting_eq_some : s.waiting n = some socket ↔ s.job = none ∧ s.sockets[n]? = some socket := by
  simp [waiting]

/-- What a step does, and what has enabled it. -/
inductive StepOutcome (s : WsConnection) : ConnectionAction → WsConnection → Prop
  | connect : StepOutcome s .connect s.connect
  | connectFn (hpos : 0 < s.attempts) : StepOutcome s .connectFn s.connectFn
  | addListeners (hjob : s.job = some .addListeners) : StepOutcome s .resume s.addListeners
  | reconnect (hjob : s.job = some .reconnect) :
    StepOutcome s .resume { s with job := none }.connect
  | opened (n : Nat) (socket : WebSocket) (hjob : s.job = none)
    (hget : s.sockets[n]? = some socket) (hconn : socket.readyState = .connecting) :
    StepOutcome s (.opened n) (s.modify n fun socket => { socket with readyState := .open })
  | connectResponse (n : Nat) (socket : WebSocket) (status : Status) (again : Bool)
    (hjob : s.job = none) (hget : s.sockets[n]? = some socket)
    (hopen : socket.readyState = .open) :
    StepOutcome s (.connectResponse n status again) (s.messageHandler n socket again status)
  | ended (n : Nat) (socket : WebSocket) (failed : Bool) (code : Nat) (again : Bool)
    (hjob : s.job = none) (hget : s.sockets[n]? = some socket)
    (hopen : socket.readyState ≠ .closed) :
    StepOutcome s (.ended n failed code again) (s.ended n socket failed code again)

lemma step_cases {a : ConnectionAction} (h : s.step a = some t) : s.StepOutcome a t := by
  cases a with
  | connect =>
    cases h
    exact .connect
  | connectFn =>
    obtain ⟨hpos, h⟩ := Option.ite_none_right_eq_some.mp h
    cases h
    exact .connectFn hpos
  | resume =>
    simp only [step] at h
    split at h
    · cases h
    · rename_i hjob
      cases h
      exact .addListeners hjob
    · rename_i hjob
      cases h
      exact .reconnect hjob
  | opened n =>
    obtain ⟨socket, hwait, h⟩ := Option.bind_eq_some_iff.mp h
    obtain ⟨hconn, h⟩ := Option.ite_none_right_eq_some.mp h
    cases h
    exact .opened n socket (waiting_eq_some.mp hwait).1 (waiting_eq_some.mp hwait).2 hconn
  | connectResponse n status again =>
    obtain ⟨socket, hwait, h⟩ := Option.bind_eq_some_iff.mp h
    obtain ⟨hopen, h⟩ := Option.ite_none_right_eq_some.mp h
    obtain ⟨hjob, hget⟩ := waiting_eq_some.mp hwait
    cases h
    exact .connectResponse n socket status again hjob hget hopen
  | ended n failed code again =>
    obtain ⟨socket, hwait, h⟩ := Option.bind_eq_some_iff.mp h
    obtain ⟨hopen, h⟩ := Option.ite_none_right_eq_some.mp h
    obtain ⟨hjob, hget⟩ := waiting_eq_some.mp hwait
    cases h
    exact .ended n socket failed code again hjob hget hopen

lemma pendingAt_iff (hget : s.sockets[n]? = some socket) :
    s.PendingAt n ↔ socket.promise = .pending := by
  simp [PendingAt, hget]

lemma reconnectsAt_iff {code : Nat} (hget : s.sockets[n]? = some socket) :
    s.ReconnectsAt n code ↔ socket.closeListener = true ∧ code ≠ wsCloseStatusNormal := by
  simp [ReconnectsAt, hget]

lemma live_reject : (s.reject n true).Live := .inl (Nat.succ_pos s.attempts)

lemma live_handleClose {code : Nat} (h : code ≠ wsCloseStatusNormal) : (s.handleClose code).Live := by
  rw [handleClose, if_pos h]
  exact .inr (.inl rfl)

/-- The answer of the server settles a pending promise. -/
lemma not_stuck_messageHandler {status : Status} (hs : ¬s.Stuck)
    (hget : s.sockets[n]? = some socket) (hopen : socket.readyState = .open) :
    ¬(s.messageHandler n socket true status).Stuck ↔
      s.KeepsGoing (.connectResponse n status true) := by
  by_cases hp : socket.promise = .pending
  · cases status with
    | err message =>
      rw [messageHandler, if_pos hp]
      exact iff_of_true (not_stuck_of_live live_reject) trivial
    | ok =>
      rw [messageHandler, if_pos hp, KeepsGoing, pendingAt_iff hget, imp_iff_right hp]
      by_cases hlast : n + 1 = s.sockets.length
      · refine iff_of_true (not_stuck_of_usable ?_) (.inl hlast)
        have hws : (s.resolve n).ws = some { socket with promise := .resolved } := by
          rw [ws_eq (by simpa [resolve] using hlast)]
          simp [resolve, hget]
        exact usable_of_ws hws (by simp [hopen])
      · rw [or_iff_right hlast]
        have hf : ∀ socket' : WebSocket, s.sockets[n]? = some socket' →
            { socket' with promise := .resolved }.canSettle = false := by
          intro socket' _
          simp [WebSocket.canSettle]
        exact not_stuck_modify_iff (s := { s with job := some .addListeners }) (by simp) hf
          fun h => absurd h hlast
  · have hkeeps : s.KeepsGoing (.connectResponse n status true) := by
      cases status with
      | ok => exact fun h => absurd ((pendingAt_iff hget).mp h) hp
      | err message => trivial
    have heq : s.messageHandler n socket true status = s := by
      cases status <;> exact if_neg hp
    rw [heq]
    exact iff_of_true hs hkeeps

/-- An end that no listener acts on. -/
lemma ended_eq {failed again : Bool} {code : Nat}
    (hquiet : ¬(failed = true ∧ socket.promise = .pending))
    (hclose : ¬(socket.closeListener = true ∧ code ≠ wsCloseStatusNormal)) :
    s.ended n socket failed code again = s.modify n (WebSocket.ended code) := by
  have herror : ∀ u : WsConnection, (if failed then u.onError n socket again else u) = u := by
    intro u
    by_cases hf : failed = true
    · rw [if_pos hf, onError, if_neg fun hp => hquiet ⟨hf, hp⟩]
    · rw [if_neg hf]
  have hhandle : ∀ u : WsConnection,
      (if socket.closeListener then u.handleClose code else u) = u := by
    intro u
    by_cases hl : socket.closeListener = true
    · rw [if_pos hl, handleClose, if_neg fun hc => hclose ⟨hl, hc⟩]
    · rw [if_neg hl]
  simp only [ended, herror, hhandle]

/-- A current socket whose promise is settled does not leave the connection stuck. -/
lemma not_stuck_ended_settled {code : Nat} (h : s.Wf) (hs : ¬s.Stuck) (hjob : s.job = none)
    (hget : s.sockets[n]? = some socket) (hp : socket.promise ≠ .pending)
    (hclose : ¬(socket.closeListener = true ∧ code ≠ wsCloseStatusNormal)) :
    ¬(s.modify n (WebSocket.ended code)).Stuck := by
  have hlive : s.Live → (s.modify n (WebSocket.ended code)).Live := by
    rintro (hatt | hjob | ⟨k, hk⟩)
    · exact .inl hatt
    · exact .inr (.inl hjob)
    · have hkn : k ≠ n := by
        rintro rfl
        obtain ⟨socket', hget', hsettle⟩ := hk
        rw [hget] at hget'
        cases hget'
        simp [WebSocket.canSettle, hp] at hsettle
      exact .inr (.inr ⟨k, (settlesAt_modify_ne hkn).mpr hk⟩)
  by_cases hlast : n + 1 = s.sockets.length
  · have hws : s.ws = some socket := (ws_eq hlast).trans hget
    cases hpromise : socket.promise with
    | pending => exact absurd hpromise hp
    | rejected => exact not_stuck_of_live (.inl (h.retrying socket hws hpromise))
    | resolved =>
      have hlistens : socket.closeListener = true := by
        simpa [hjob] using h.listening socket hws hpromise
      have hcode : code = wsCloseStatusNormal := by
        by_contra hne
        exact hclose ⟨hlistens, hne⟩
      refine not_stuck_of_usable fun socket' hws' _ => ?_
      have hended : (s.modify n (WebSocket.ended code)).ws = some (socket.ended code) := by
        rw [ws_eq (by simpa using hlast)]
        simp [hget]
      rw [hended] at hws'
      cases hws'
      exact ⟨hpromise, congrArg some hcode⟩
  · intro hstuck
    have hws := ws_modify_ne (f := WebSocket.ended code) hlast
    exact hs ⟨fun hu => hstuck.1 ((usable_congr hws).mpr hu), fun hl => hstuck.2 (hlive hl)⟩

lemma not_stuck_ended {failed : Bool} {code : Nat} (h : s.Wf) (hs : ¬s.Stuck) (hjob : s.job = none)
    (hget : s.sockets[n]? = some socket) :
    ¬(s.ended n socket failed code true).Stuck ↔ s.KeepsGoing (.ended n failed code true) := by
  rw [KeepsGoing, pendingAt_iff hget, reconnectsAt_iff hget]
  by_cases hclose : socket.closeListener = true ∧ code ≠ wsCloseStatusNormal
  · refine iff_of_true (not_stuck_of_live ?_) fun _ => .inr (.inl hclose)
    simp only [ended, if_pos hclose.1]
    exact live_handleClose hclose.2
  · by_cases hp : socket.promise = .pending
    · by_cases hf : failed = true
      · refine iff_of_true (not_stuck_of_live (.inl ?_)) fun _ => .inl hf
        simp only [ended, onError, reject, handleClose, hf, hp, if_true]
        split <;> (try split) <;> exact Nat.succ_pos _
      · rw [ended_eq (fun hq => hf hq.1) hclose, imp_iff_right hp, or_iff_right hf,
          or_iff_right hclose]
        have hsilent : ∀ socket' : WebSocket, s.sockets[n]? = some socket' →
            (socket'.ended code).canSettle = false := by
          intro socket' _
          simp [WebSocket.ended, WebSocket.canSettle]
        refine not_stuck_modify_iff (by simp [hjob]) hsilent fun hlast husable => ?_
        have hended : (s.modify n (WebSocket.ended code)).ws = some (socket.ended code) := by
          rw [ws_eq (by simpa using hlast)]
          simp [hget]
        have hresolved := (husable _ hended rfl).1
        simp [WebSocket.ended, hp] at hresolved
    · rw [ended_eq (fun hq => hp hq.2) hclose]
      exact iff_of_true (not_stuck_ended_settled h hs hjob hget hp hclose)
        fun hpending => absurd hpending hp

/-! ### Well-formedness -/

lemma wf_init : init.Wf := ⟨by simp [init, ws], by simp [init, ws]⟩

lemma Wf.modify {f : WebSocket → WebSocket} (h : s.Wf)
    (hpromise : ∀ socket, (f socket).promise = socket.promise)
    (hlistener : ∀ socket, socket.closeListener = true → (f socket).closeListener = true) :
    (s.modify n f).Wf where
  listening := by
    intro socket hws hresolved
    obtain ⟨socket', hws', ⟨rfl, -⟩ | rfl⟩ := ws_modify hws
    · rw [hpromise] at hresolved
      exact (h.listening socket' hws' hresolved).imp_left (hlistener socket')
    · exact h.listening socket hws' hresolved
  retrying := by
    intro socket hws hrejected
    obtain ⟨socket', hws', ⟨rfl, -⟩ | rfl⟩ := ws_modify hws
    · rw [hpromise] at hrejected
      exact h.retrying socket' hws' hrejected
    · exact h.retrying socket hws' hrejected

lemma Wf.resolve (h : s.Wf) : (s.resolve n).Wf where
  listening := fun _ _ _ => .inr rfl
  retrying := by
    intro socket hws hrejected
    obtain ⟨socket', hws', ⟨rfl, -⟩ | rfl⟩ := ws_modify hws
    · cases hrejected
    · exact h.retrying socket hws' hrejected

lemma Wf.reject (h : s.Wf) : (s.reject n true).Wf where
  listening := by
    intro socket hws hresolved
    obtain ⟨socket', hws', ⟨rfl, -⟩ | rfl⟩ := ws_modify hws
    · cases hresolved
    · exact h.listening socket hws' hresolved
  retrying := fun _ _ _ => Nat.succ_pos s.attempts

lemma Wf.handleClose {code : Nat} (h : s.Wf) (hjob : s.job = none) : (s.handleClose code).Wf := by
  unfold WsConnection.handleClose
  split
  · refine ⟨fun socket hws hresolved => .inl ?_, h.retrying⟩
    simpa [hjob] using h.listening socket hws hresolved
  · exact h

lemma Wf.ended {failed : Bool} {code : Nat} (h : s.Wf) (hjob : s.job = none) :
    (s.ended n socket failed code true).Wf := by
  have hclosed : (s.modify n (WebSocket.ended code)).Wf := h.modify (fun _ => rfl) fun _ hl => hl
  have herror : ∀ u : WsConnection, u.Wf → u.job = none →
      (if failed then u.onError n socket true else u).Wf ∧
        (if failed then u.onError n socket true else u).job = none := by
    intro u hu hujob
    unfold onError
    split
    · split
      · exact ⟨hu.reject, hujob⟩
      · exact ⟨hu, hujob⟩
    · exact ⟨hu, hujob⟩
  obtain ⟨hwf, hnone⟩ := herror _ hclosed hjob
  unfold WsConnection.ended
  dsimp only
  split
  · exact hwf.handleClose hnone
  · exact hwf

lemma wf_step {a : ConnectionAction} (h : s.Wf) (hbudget : a.withinBudget)
    (ht : s.step a = some t) : t.Wf := by
  cases step_cases ht with
  | connect => exact ⟨h.listening, fun _ _ _ => Nat.succ_pos s.attempts⟩
  | connectFn hpos =>
    have hws : s.connectFn.ws = some .new := by simp [ws, WsConnection.connectFn]
    refine ⟨fun socket hsocket hresolved => ?_, fun socket hsocket hrejected => ?_⟩
    · rw [hws] at hsocket
      cases hsocket
      cases hresolved
    · rw [hws] at hsocket
      cases hsocket
      cases hrejected
  | addListeners hjob =>
    refine ⟨fun socket hws _ => .inl ?_, fun socket hws hrejected => ?_⟩
    · obtain ⟨socket', -, rfl⟩ := Option.map_eq_some_iff.mp (ws_modifyWs.symm.trans hws)
      rfl
    · obtain ⟨socket', hws', ⟨rfl, -⟩ | rfl⟩ := ws_modify hws
      · exact h.retrying socket' hws' hrejected
      · exact h.retrying socket hws' hrejected
  | reconnect hjob =>
    refine ⟨fun socket hws hresolved => .inl ?_, fun _ _ _ => Nat.succ_pos s.attempts⟩
    simpa [hjob] using h.listening socket hws hresolved
  | opened n socket hjob hget hconn => exact h.modify (fun _ => rfl) fun _ hl => hl
  | connectResponse n socket status again hjob hget hopen =>
    cases (hbudget : again = true)
    unfold messageHandler
    split <;> split
    · exact h.resolve
    · exact h
    · exact h.reject
    · exact h
  | ended n socket failed code again hjob hget hopen =>
    cases (hbudget : again = true)
    exact h.ended hjob

/-- Under the condition, and only then, a step does not leave a connection stuck. -/
theorem not_stuck_step {a : ConnectionAction} (h : s.Wf) (hs : ¬s.Stuck)
    (hbudget : a.withinBudget) (ht : s.step a = some t) : ¬t.Stuck ↔ s.KeepsGoing a := by
  cases step_cases ht with
  | connect => exact iff_of_true (not_stuck_of_live (.inl (Nat.succ_pos s.attempts))) trivial
  | connectFn hpos =>
    refine iff_of_true (not_stuck_of_live (.inr (.inr ⟨s.sockets.length, .new, ?_, rfl⟩))) trivial
    simp [WsConnection.connectFn]
  | addListeners hjob =>
    refine iff_of_true ?_ trivial
    -- the job was to add the listeners, not to connect again
    have hs' : ¬({ s with job := none, connected := true } : WsConnection).Stuck := fun hstuck =>
      hs ⟨hstuck.1, fun hl => hstuck.2 (hl.imp_right (.imp_left fun hr => by simp [hjob] at hr))⟩
    exact not_stuck_modify hs' (fun _ => rfl) (fun _ _ => Iff.rfl) fun _ => rfl
  | reconnect hjob =>
    exact iff_of_true (not_stuck_of_live (.inl (Nat.succ_pos s.attempts))) trivial
  | opened n socket hjob hget hconn =>
    refine iff_of_true (not_stuck_modify hs (fun _ => rfl) (fun socket' hget' => ?_) fun _ => rfl)
      trivial
    rw [hget] at hget'
    cases hget'
    simp [hconn]
  | connectResponse n socket status again hjob hget hopen =>
    cases (hbudget : again = true)
    exact not_stuck_messageHandler hs hget hopen
  | ended n socket failed code again hjob hget hopen =>
    cases (hbudget : again = true)
    exact not_stuck_ended h hs hjob hget

lemma not_stuck_init : ¬init.Stuck := not_stuck_of_usable (by simp [Usable, init, ws])

/-- A connection is stuck at no moment of a run exactly when every step of it meets the
condition. -/
theorem never_stuck_iff (as : List ConnectionAction) (hbudget : ∀ a ∈ as, a.withinBudget) :
    (∀ bs, bs <+: as → ∀ t, run step init bs = some t → ¬t.Stuck) ↔
      Guarded step KeepsGoing init as :=
  invariant_iff_guarded_of_kind ConnectionAction.withinBudget Wf (fun s => ¬s.Stuck)
    (fun _ _ _ hb hwf ht => wf_step hwf hb ht)
    (fun _ _ _ hb hwf hs ht => not_stuck_step hwf hs hb ht) as hbudget wf_init not_stuck_init

/-- The server closes a socket on which its answer is still to come. -/
theorem stuck_before_answer :
    ¬∀ as : List ConnectionAction, (∀ a ∈ as, a.withinBudget) → ∀ t,
      run step init as = some t → ¬t.Stuck := by
  intro h
  obtain ⟨t, ht⟩ : ∃ t, run step init
      [.connect, .connectFn, .opened 0, .ended 0 false 1001 true] = some t := ⟨_, rfl⟩
  refine h _ (by simp [ConnectionAction.withinBudget]) t ht ⟨fun husable => ?_, ?_⟩
  · cases ht
    cases (husable _ rfl rfl).1
  · cases ht
    rintro (hattempts | hjob | ⟨n, socket, hget, hsettle⟩)
    · cases hattempts
    · cases hjob
    · obtain ⟨hn, rfl⟩ := List.getElem?_eq_some_iff.mp hget
      obtain rfl : n = 0 := Nat.lt_one_iff.mp hn
      cases hsettle

/-- A socket that fails, one that is refused, and a third. -/
theorem never_stuck_refused : ∃ t, run step init [.connect, .connectFn, .opened 0,
      .ended 0 true 1006 true, .connectFn, .opened 1,
      .connectResponse 1 (.err "Invalid token") true, .connectFn] = some t ∧ ¬t.Stuck := by
  obtain ⟨t, hrun⟩ : ∃ t, run step init [.connect, .connectFn, .opened 0,
      .ended 0 true 1006 true, .connectFn, .opened 1,
      .connectResponse 1 (.err "Invalid token") true, .connectFn] = some t := ⟨_, rfl⟩
  refine ⟨t, hrun, (never_stuck_iff _ ?_).mpr ?_ _ List.prefix_rfl t hrun⟩
  · simp [ConnectionAction.withinBudget]
  · exact guarded_of_mem (by simp [KeepsGoing])

end WsConnection

end AlaFois
