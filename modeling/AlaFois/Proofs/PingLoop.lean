import AlaFois.Lib.Stepper
import AlaFois.Model.ClientLife
import AlaFois.Model.PingLoop

/-!
# One timer for one loop

A second `start` leaves the first timer behind, and an error in the callback sets no timer any
more. In a run without the two, the pending timers are always the one of `timeoutId`, or none.
-/

namespace AlaFois

open Stepper

namespace PingLoop

variable {s t : PingLoop} {a : PingAction}

/-- One timer is pending once the loop has been started, and none once it has been stopped. -/
def OneTimer (s : PingLoop) : Prop :=
  (s.last = some .start → s.timers.length = 1) ∧ (s.last = some .stop → s.timers = [])

/-- The loop is not started again before it has been stopped, and no timer runs out while the
socket is connecting. -/
def PingOk (s : PingLoop) : PingAction → Prop
  | .call .start => s.last ≠ some .start
  | .fired _ => s.ws ≠ some .connecting
  | .call .stop | .socket _ => True

instance (s : PingLoop) : (a : PingAction) → Decidable (s.PingOk a)
  | .call .start => inferInstanceAs (Decidable (s.last ≠ some .start))
  | .fired _ => inferInstanceAs (Decidable (s.ws ≠ some .connecting))
  | .call .stop | .socket _ => isTrue trivial

/-- What every good run keeps: the pending timer is the one that is remembered. -/
def Remembered (s : PingLoop) : Prop :=
  s.timers = if s.last = some .start then [s.timeoutId] else []

lemma Remembered.oneTimer (h : s.Remembered) : s.OneTimer := by
  constructor
  · intro hlast
    rw [h, if_pos hlast]
    rfl
  · intro hlast
    rw [h, if_neg (by simp [hlast])]

lemma remembered_new (ws : Option ReadyState) : (new ws).Remembered := rfl

/-! ### The callback -/

lemma sendJson_eq_none : s.sendJson = none ↔ s.ws = some .connecting := by
  unfold sendJson
  split <;> simp_all

lemma sendJson_eq_some (h : s.sendJson = some t) : ∃ sent, t = { s with sent := sent } := by
  unfold sendJson at h
  split at h
  · exact ⟨s.sent, (Option.some.inj h).symm⟩
  · cases h
  · exact ⟨s.sent + 1, (Option.some.inj h).symm⟩
  · exact ⟨s.sent + 1, (Option.some.inj h).symm⟩
  · exact ⟨s.sent + 1, (Option.some.inj h).symm⟩

lemma callback_of_connecting (h : s.ws = some .connecting) : s.callback = s := by
  rw [callback, sendJson_eq_none.mpr h]

/-- Where the socket takes the ping, or there is none, the next timer is set. -/
lemma callback_of_not_connecting (h : s.ws ≠ some .connecting) :
    ∃ sent, s.callback = { s with sent := sent }.tick := by
  cases hsent : s.sendJson with
  | none => exact absurd (sendJson_eq_none.mp hsent) h
  | some t =>
    obtain ⟨sent, rfl⟩ := sendJson_eq_some hsent
    exact ⟨sent, by rw [callback, hsent]⟩

lemma step_fired {id : Nat} (ht : s.step (.fired id) = some t) :
    id ∈ s.timers ∧ t = s.fired id := by
  simp only [step, Option.ite_none_right_eq_some, Option.some.injEq] at ht
  exact ⟨ht.1, ht.2.symm⟩

/-- In a good state only the remembered timer can run out. -/
lemma Remembered.of_mem (h : s.Remembered) {id : Nat} (hid : id ∈ s.timers) :
    s.last = some .start ∧ s.timers.erase id = [] := by
  by_cases hlast : s.last = some .start
  · rw [h, if_pos hlast] at hid ⊢
    obtain rfl := List.mem_singleton.mp hid
    exact ⟨hlast, by simp⟩
  · rw [h, if_neg hlast] at hid
    cases hid

/-! ### Steps -/

lemma remembered_step (h : s.Remembered) (hok : s.PingOk a) (ht : s.step a = some t) :
    t.Remembered := by
  cases a with
  | call c =>
    cases c with
    | start =>
      cases ht
      have hnone : s.timers = [] := by rw [h, if_neg hok]
      simp [Remembered, start, tick, hnone]
    | stop =>
      cases ht
      have hnone : s.timers.erase s.timeoutId = [] := by
        rw [h]
        split <;> simp
      simpa [Remembered, stop, clearTimeout] using hnone
  | fired id =>
    obtain ⟨hid, rfl⟩ := step_fired ht
    obtain ⟨hlast, hnone⟩ := h.of_mem hid
    obtain ⟨sent, hfired⟩ := callback_of_not_connecting (s := s.clearTimeout id) hok
    rw [fired, hfired]
    simp [Remembered, tick, clearTimeout, hlast, hnone]
  | socket ws =>
    cases ht
    exact h

lemma pingOk_of_oneTimer (h : s.Remembered) (ht : s.step a = some t) (hone : t.OneTimer) :
    s.PingOk a := by
  cases a with
  | call c =>
    cases c with
    | start =>
      cases ht
      intro hlast
      -- the timer of the first start is still there
      have htwo : s.start.timers.length = 1 := hone.1 rfl
      have hold : s.timers = [s.timeoutId] := by rw [h, if_pos hlast]
      simp [start, tick, hold] at htwo
    | stop => trivial
  | fired id =>
    obtain ⟨hid, rfl⟩ := step_fired ht
    obtain ⟨hlast, hnone⟩ := h.of_mem hid
    intro hconn
    have hfired : s.fired id = s.clearTimeout id := callback_of_connecting hconn
    rw [hfired] at hone
    have hnot : (s.timers.erase id).length = 1 := hone.1 hlast
    simp [hnone] at hnot
  | socket ws => trivial

/-- Through every run of starts, stops, timers and changes of the socket exactly one timer is
pending after a start and none after a stop, exactly when the loop is not started twice and its
timers do not run out while the socket is connecting. -/
theorem one_timer_iff (ws : Option ReadyState) (as : List PingAction) :
    (∀ bs, bs <+: as → ∀ t, run step (new ws) bs = some t → t.OneTimer) ↔
      Guarded step PingOk (new ws) as :=
  strengthened_iff_guarded Remembered OneTimer (fun _ h => h.oneTimer)
    (fun _ _ _ h hok ht => remembered_step h hok ht)
    (fun _ _ _ h ht hone => pingOk_of_oneTimer h ht hone) as (remembered_new ws)

/-- The timer runs out while a lost connection is made again, and no ping follows. -/
theorem ping_lost :
    ¬∀ (ws : Option ReadyState) (as : List PingAction) (t : PingLoop),
      run step (new ws) as = some t → t.OneTimer := by
  intro h
  obtain ⟨t, hrun, hlast, hnone⟩ : ∃ t, run step (new (some .open))
      [.call .start, .socket (some .connecting), .fired 1, .socket (some .open)] = some t ∧
      t.last = some .start ∧ t.timers = [] := ⟨_, rfl, rfl, rfl⟩
  have hone := (h _ _ t hrun).1 hlast
  simp [hnone] at hone

/-! ### The loop of a client -/

/-- The numbers of timers are not used twice. -/
structure Fresh (s : PingLoop) : Prop where
  nodup : s.timers.Nodup
  timers : ∀ id ∈ s.timers, id < s.nextId
  timeoutId : s.timeoutId < s.nextId

lemma fresh_new (ws : Option ReadyState) : (new ws).Fresh :=
  ⟨List.nodup_nil, by simp [new], Nat.zero_lt_one⟩

lemma Fresh.tick (h : s.Fresh) : s.tick.Fresh where
  nodup := by
    refine h.nodup.append (List.nodup_singleton _) fun id hid hnew => ?_
    rw [List.mem_singleton.mp hnew] at hid
    exact Nat.lt_irrefl _ (h.timers _ hid)
  timers id hid := by
    rcases List.mem_append.mp hid with hold | hnew
    · exact Nat.lt_succ_of_lt (h.timers id hold)
    · rw [List.mem_singleton.mp hnew]
      exact Nat.lt_succ_self _
  timeoutId := Nat.lt_succ_self _

lemma Fresh.clearTimeout (h : s.Fresh) (id : Nat) : (s.clearTimeout id).Fresh where
  nodup := h.nodup.erase id
  timers id' hid' := h.timers id' (List.mem_of_mem_erase hid')
  timeoutId := h.timeoutId

lemma Fresh.step (h : s.Fresh) (ht : s.step a = some t) : t.Fresh := by
  cases a with
  | call c =>
    cases c with
    | start =>
      cases ht
      exact ⟨h.tick.nodup, h.tick.timers, h.tick.timeoutId⟩
    | stop =>
      cases ht
      exact ⟨(h.clearTimeout _).nodup, (h.clearTimeout _).timers, h.timeoutId⟩
  | fired id =>
    obtain ⟨hid, rfl⟩ := step_fired ht
    have hclear := h.clearTimeout id
    by_cases hconn : (s.clearTimeout id).ws = some .connecting
    · rwa [fired, callback_of_connecting hconn]
    · obtain ⟨sent, hfired⟩ := callback_of_not_connecting hconn
      rw [fired, hfired]
      exact Fresh.tick ⟨hclear.nodup, hclear.timers, hclear.timeoutId⟩
  | socket ws =>
    cases ht
    exact ⟨h.nodup, h.timers, h.timeoutId⟩

/-- The timer of `timeoutId`, and the number of the others. -/
def ping (s : PingLoop) : Ping := ⟨s.timeoutId ∈ s.timers, (s.timers.erase s.timeoutId).length⟩

lemma Fresh.ping_tick (h : s.Fresh) : s.tick.ping = s.ping.tick := by
  have hnew : s.nextId ∉ s.timers := fun hid => Nat.lt_irrefl _ (h.timers _ hid)
  have herase : (s.timers ++ [s.nextId]).erase s.nextId = s.timers := by
    rw [List.erase_append_right _ hnew]
    simp
  by_cases hmem : s.timeoutId ∈ s.timers
  · have hpos := List.length_pos_of_mem hmem
    have hcount : s.timers.length - 1 + 1 = s.timers.length := Nat.sub_add_cancel hpos
    simp [ping, PingLoop.tick, Ping.tick, herase, hmem, List.length_erase_of_mem, hcount]
  · simp [ping, PingLoop.tick, Ping.tick, herase, hmem, List.erase_of_not_mem]

lemma Fresh.ping_stop (h : s.Fresh) : s.stop.ping = s.ping.dispose := by
  have hgone : s.timeoutId ∉ s.timers.erase s.timeoutId := h.nodup.not_mem_erase
  simp [ping, stop, PingLoop.clearTimeout, Ping.dispose, hgone, List.erase_of_not_mem]

lemma Fresh.ping_fire (h : s.Fresh) {id : Nat} (hid : id ∈ s.timers) :
    s.ping.fire (id = s.timeoutId) = some (s.clearTimeout id).ping := by
  by_cases hown : id = s.timeoutId
  · subst hown
    have hstop : (s.clearTimeout s.timeoutId).ping = s.ping.dispose := h.ping_stop
    rw [hstop]
    simp [Ping.fire, Ping.dispose, ping, hid]
  · have hmem : id ∈ s.timers.erase s.timeoutId := (List.mem_erase_of_ne hown).mpr hid
    have hpos := List.length_pos_of_mem hmem
    have hkeep : s.timeoutId ∈ s.timers.erase id ↔ s.timeoutId ∈ s.timers :=
      List.mem_erase_of_ne (Ne.symm hown)
    have hrest : ((s.timers.erase id).erase s.timeoutId).length =
        (s.timers.erase s.timeoutId).length - 1 := by
      rw [List.erase_comm, List.length_erase_of_mem hmem]
    simp [Ping.fire, ping, PingLoop.clearTimeout, hown, hpos, hkeep, hrest]

/-- What the model of the client makes of the ping: it knows of one timer that it is remembered,
and counts the others. -/
def pinged (s : PingLoop) : PingAction → Option Ping
  | .call .start => some s.ping.tick
  | .call .stop => some s.ping.dispose
  | .fired id => (s.ping.fire (id = s.timeoutId)).map fun ping =>
      if s.ws = some .connecting then ping else ping.tick
  | .socket _ => some s.ping

lemma Fresh.ping_step (h : s.Fresh) (ht : s.step a = some t) : s.pinged a = some t.ping := by
  cases a with
  | call c =>
    cases c with
    | start =>
      cases ht
      exact congrArg some h.ping_tick.symm
    | stop =>
      cases ht
      exact congrArg some h.ping_stop.symm
  | fired id =>
    obtain ⟨hid, rfl⟩ := step_fired ht
    simp only [pinged, h.ping_fire hid, Option.map_some, Option.some.injEq]
    by_cases hconn : s.ws = some .connecting
    · have hfired : s.fired id = s.clearTimeout id := callback_of_connecting hconn
      rw [if_pos hconn, hfired]
    · obtain ⟨sent, hfired⟩ := callback_of_not_connecting (s := s.clearTimeout id) hconn
      rw [if_neg hconn, fired, hfired]
      exact (h.clearTimeout id).ping_tick.symm
  | socket ws =>
    cases ht
    rfl

/-- In every run, nothing is lost where the timers are only counted. -/
theorem ping_run {ws : Option ReadyState} {as : List PingAction}
    (hrun : run step (new ws) as = some s) (ht : s.step a = some t) : s.pinged a = some t.ping :=
  Fresh.ping_step (run_invariant_of_step Fresh (fun _ _ _ h ht => h.step ht) hrun (fresh_new ws)) ht

end PingLoop

end AlaFois
