import AlaFois.Lib.Stepper
import AlaFois.Model.SyncRounds

/-!
# One round of sync at a time

While there is a `syncPromise` there is one round that has not ended, and its listener and its
timer are there exactly while it waits. Every ending takes both away.
-/

namespace AlaFois

open Stepper

namespace SyncingContainer

variable {Doc : Type*} {y : Yjs Doc} {s t : SyncingContainer Doc} {r : Nat}

/-- The rounds that wait for a response. -/
def waitingRounds (s : SyncingContainer Doc) : List Nat :=
  s.syncPromise.toList.filter fun round => s.rounds[round]? = some .waiting

/-- The round has not ended. -/
def unended (s : SyncingContainer Doc) (round : Nat) : Bool :=
  (s.rounds[round]?).any fun stage => !stage.isEnded

structure Wf (s : SyncingContainer Doc) : Prop where
  current : ∀ r, s.unended r = true ↔ s.syncPromise = some r
  listeners : s.listeners = s.waitingRounds
  timers : s.timers = s.waitingRounds
  starts_lt : ∀ r ∈ s.starts, r < s.rounds.length
  starts_nodup : s.starts.Nodup
  completed : ∀ r ∈ s.completes,
    s.rounds[r]? = some (.settled true) ∨ s.rounds[r]? = some (.ended true)
  completes_nodup : s.completes.Nodup
  called : ∀ call ∈ s.calls, call.round < s.rounds.length

/-- The message makes a listener call `sync`. -/
def callsSync (y : Yjs Doc) (s : SyncingContainer Doc) : ServerMessage → Bool
  | .joinResponse _ .ok => true
  | .requestSync _ => true
  | .updateToken _ _ => true
  | .broadcastChanges docId changes =>
    let applied := y.applyUpdate s.doc (y.toUint8Array changes)
    if docId = s.id ∧ ¬s.disposed then !applied.threw && y.needSync applied.doc else false
  | _ => false

/-- What the listeners do with a message before `sync` or without it. -/
def received (y : Yjs Doc) (s : SyncingContainer Doc) : ServerMessage → SyncingContainer Doc
  | .joinResponse docId .ok => if docId = s.id then { s with log := s.log ++ [.joined] } else s
  | .broadcastChanges docId changes =>
    if docId = s.id ∧ ¬s.disposed then
      { s with doc := (y.applyUpdate s.doc (y.toUint8Array changes)).doc }
    else s
  | .syncResponse docId vector changes => s.listeners.foldl (handler docId vector changes) s
  | _ => s

lemma receive_eq (s : SyncingContainer Doc) (sendFails : Bool) (m : ServerMessage) :
    s.receive y sendFails m =
      if s.callsSync y m then (s.received y m).sync y sendFails else s.received y m := by
  cases m with
  | joinResponse docId status => cases status <;> rfl
  | broadcastChanges docId changes =>
    simp only [receive, callsSync, received, handleReceiveChanges]
    by_cases hown : docId = s.id ∧ ¬s.disposed
    · simp only [if_pos hown]
    · simp only [if_neg hown, Bool.false_eq_true, if_false]
  | _ => rfl

/-! ### What a step does -/

/-- The rest of the round throws. -/
def fails (y : Yjs Doc) (s : SyncingContainer Doc) (round : Nat) (sendFails : Bool) : Bool :=
  match s.rounds[round]? with
  | some (.answered vector changes) =>
    let applied := y.applyUpdate s.doc (y.toUint8Array changes)
    applied.threw || (y.encodeStateAsUpdate applied.doc (some (y.toUint8Array vector))).isNone ||
      sendFails
  | _ => true

/-- What a step does: only the last four concern the promise of a round, which is the current
one. -/
inductive StepOutcome (y : Yjs Doc) (s : SyncingContainer Doc) :
    SyncAction → SyncingContainer Doc → Prop
  | quiet (a : SyncAction) (doc : Doc) (disposed : Bool) (entries : List SyncLog)
    (hentries : ∀ e ∈ entries, e = .join)
    (ha : ∀ m sendFails, a = .receive m sendFails → s.callsSync y m = false)
    (hprocess : ∀ r sendFails, a ≠ .process r sendFails) :
    StepOutcome y s a { s with doc := doc, disposed := disposed, log := s.log ++ entries }
  | synced (m : ServerMessage) (sendFails : Bool) (hcalls : s.callsSync y m = true) :
    StepOutcome y s (.receive m sendFails) ((s.received y m).sync y sendFails)
  | answered (m : ServerMessage) (sendFails : Bool) (hcalls : s.callsSync y m = false)
    (r : Nat) (hr : s.syncPromise = some r) (vector : StateVector) (changes : Changes)
    (hwaiting : s.rounds[r]? = some .waiting) :
    StepOutcome y s (.receive m sendFails)
      { s with
        rounds := s.rounds.set r (.answered vector changes), listeners := [], timers := [] }
  | timedOut (r : Nat) (hr : s.syncPromise = some r) (hwaiting : s.rounds[r]? = some .waiting) :
    StepOutcome y s (.timeout r)
      { s with rounds := s.rounds.set r .timedOut, listeners := [], timers := [] }
  | processed (r : Nat) (sendFails : Bool) (hr : s.syncPromise = some r) (stage : RoundStage)
    (hstage : s.rounds[r]? = some stage)
    (hwaited : stage = .timedOut ∨ ∃ vector changes, stage = .answered vector changes) (ok : Bool)
    (hok : ok = !s.fails y r sendFails) (doc : Doc) (entries : List SyncLog)
    (hentries : entries = [] ∨ ok = true ∧ ∃ changes, entries = [.syncComplete r changes]) :
    StepOutcome y s (.process r sendFails)
      { s with
        doc := doc, rounds := s.rounds.set r (.settled ok), log := s.log ++ entries }
  | finished (r : Nat) (hr : s.syncPromise = some r) (ok : Bool)
    (hstage : s.rounds[r]? = some (.settled ok)) :
    StepOutcome y s (.finish r)
      { s with rounds := s.rounds.set r (.ended ok), syncPromise := none }

lemma Wf.current_of (h : s.Wf) {stage : RoundStage} (hstage : s.rounds[r]? = some stage)
    (hended : stage.isEnded = false) : s.syncPromise = some r := by
  refine (h.current r).mp ?_
  simp [unended, hstage, hended]

/-- A round that waits is the current one, and the only one with a listener and a timer. -/
lemma Wf.waiting (h : s.Wf) (hwaiting : s.rounds[r]? = some .waiting) :
    s.syncPromise = some r ∧ s.listeners = [r] ∧ s.timers = [r] := by
  have hr := h.current_of hwaiting rfl
  have hrounds : s.waitingRounds = [r] := by simp [waitingRounds, hr, hwaiting]
  exact ⟨hr, h.listeners.trans hrounds, h.timers.trans hrounds⟩

lemma Wf.not_waiting (h : s.Wf) (hnone : ∀ r : Nat, s.rounds[r]? ≠ some RoundStage.waiting) :
    s.listeners = [] ∧ s.timers = [] := by
  have hrounds : s.waitingRounds = [] := by simp [waitingRounds, hnone]
  exact ⟨h.listeners.trans hrounds, h.timers.trans hrounds⟩

lemma settleWait_clear (h : s.Wf) (hwaiting : s.rounds[r]? = some .waiting) (stage : RoundStage) :
    (s.clear r).settleWait r stage =
      { s with rounds := s.rounds.set r stage, listeners := [], timers := [] } := by
  obtain ⟨-, hlisteners, htimers⟩ := h.waiting hwaiting
  have hcleared : (s.clear r).rounds[r]? = some .waiting := hwaiting
  rw [settleWait, if_pos hcleared]
  simp [setRound, clear, hlisteners, htimers]

/-- A response reaches the round that waits, if it is for the document of the container. -/
lemma foldl_handler (h : s.Wf) (docId : DocKey) (vector : StateVector) (changes : Changes) :
    s.listeners.foldl (handler docId vector changes) s = s ∨
      ∃ r, s.syncPromise = some r ∧ s.rounds[r]? = some .waiting ∧
        s.listeners.foldl (handler docId vector changes) s =
          { s with
            rounds := s.rounds.set r (.answered vector changes), listeners := [], timers := [] } := by
  by_cases hwaits : ∃ r : Nat, s.rounds[r]? = some RoundStage.waiting
  · obtain ⟨r, hwaiting⟩ := hwaits
    obtain ⟨hr, hlisteners, -⟩ := h.waiting hwaiting
    rw [hlisteners, List.foldl_cons, List.foldl_nil, handler]
    by_cases hown : docId = s.id
    · rw [if_pos hown, settleWait_clear h hwaiting]
      exact .inr ⟨r, hr, hwaiting, rfl⟩
    · exact .inl (if_neg hown)
  · rw [(h.not_waiting fun r hr => hwaits ⟨r, hr⟩).1]
    exact .inl rfl

lemma process_cases (h : s.Wf) {sendFails : Bool} (ht : s.process y r sendFails = some t) :
    StepOutcome y s (.process r sendFails) t := by
  unfold process at ht
  split at ht
  · rename_i vector changes hstage
    have hr := h.current_of hstage rfl
    have hfailed : s.fails y r sendFails = true →
        StepOutcome y s (.process r sendFails)
          ({ s with doc := (y.applyUpdate s.doc (y.toUint8Array changes)).doc }.setRound r
            (.settled false)) := by
      intro hfails
      simpa [setRound] using StepOutcome.processed (y := y) (s := s) r sendFails hr _ hstage
        (.inr ⟨vector, changes, rfl⟩) false (by rw [hfails]; rfl)
        (y.applyUpdate s.doc (y.toUint8Array changes)).doc [] (.inl rfl)
    dsimp only at ht
    split at ht
    · rename_i hthrew
      cases ht
      exact hfailed (by simp [fails, hstage, hthrew])
    · rename_i hthrew
      split at ht
      · rename_i hencode
        cases ht
        exact hfailed (by simp [fails, hstage, hencode])
      · rename_i returnChanges hencode
        split at ht
        · rename_i hsend
          cases ht
          exact hfailed (by simp [fails, hstage, hsend])
        · rename_i hsend
          cases ht
          have hfails : s.fails y r sendFails = false := by
            simp [fails, hstage, hthrew, hencode, hsend]
          exact .processed r sendFails hr _ hstage (.inr ⟨vector, changes, rfl⟩) true
            (by rw [hfails]; rfl) _ _ (.inr ⟨rfl, _, rfl⟩)
  · rename_i hstage
    cases ht
    have hfails : s.fails y r sendFails = true := by simp [fails, hstage]
    simpa [setRound] using StepOutcome.processed (y := y) (s := s) r sendFails
      (h.current_of hstage rfl) _ hstage (.inl rfl) false (by rw [hfails]; rfl) s.doc [] (.inl rfl)
  · cases ht

theorem step_cases (h : s.Wf) {a : SyncAction} (ht : s.step y a = some t) :
    StepOutcome y s a t := by
  cases a with
  | connected =>
    cases ht
    exact .quiet .connected s.doc s.disposed [.join] (by simp) (by simp) (by simp)
  | receive m sendFails =>
    have hreceive : s.receive y sendFails m = t := Option.some.inj ht
    rw [receive_eq] at hreceive
    subst hreceive
    by_cases hcalls : s.callsSync y m = true
    · rw [if_pos hcalls]
      exact .synced m sendFails hcalls
    · rw [if_neg hcalls]
      have hnot : s.callsSync y m = false := Bool.eq_false_iff.mpr hcalls
      have hquiet (doc : Doc) : StepOutcome y s (.receive m sendFails) { s with doc := doc } := by
        have hout := StepOutcome.quiet (y := y) (s := s) (.receive m sendFails) doc s.disposed []
          (by simp) (by rintro _ _ ⟨⟩; exact hnot) (by simp)
        simpa using hout
      cases m with
      | joinResponse docId status =>
        cases status with
        | ok => exact absurd rfl hcalls
        | err message => exact hquiet s.doc
      | broadcastChanges docId changes =>
        simp only [received]
        split
        · exact hquiet _
        · exact hquiet s.doc
      | syncResponse docId vector changes =>
        rcases foldl_handler h docId vector changes with hsame | ⟨r, hr, hwaiting, heq⟩
        · rw [received, hsame]
          exact hquiet s.doc
        · rw [received, heq]
          exact .answered _ sendFails hnot r hr vector changes hwaiting
      | _ => exact hquiet s.doc
  | malformedResponse =>
    cases ht
    simpa using StepOutcome.quiet (y := y) (s := s) .malformedResponse s.doc s.disposed [] (by simp)
      (by simp) (by simp)
  | edit update =>
    cases ht
    simpa using StepOutcome.quiet (y := y) (s := s) (.edit update)
      (y.applyUpdate s.doc update).doc s.disposed [] (by simp) (by simp) (by simp)
  | timeout r =>
    obtain ⟨hmem, ht⟩ := Option.ite_none_right_eq_some.mp ht
    have hwaiting : s.rounds[r]? = some .waiting := by
      rw [h.timers] at hmem
      simp only [waitingRounds, List.mem_filter, decide_eq_true_eq] at hmem
      exact hmem.2
    rw [settleWait_clear h hwaiting] at ht
    cases ht
    exact .timedOut r (h.waiting hwaiting).1 hwaiting
  | process r sendFails => exact process_cases h ht
  | finish r =>
    simp only [step, finish] at ht
    split at ht
    · rename_i ok hstage
      cases ht
      exact .finished r (h.current_of hstage rfl) ok hstage
    · cases ht
  | dispose =>
    cases ht
    simpa using StepOutcome.quiet (y := y) (s := s) .dispose s.doc true [] (by simp) (by simp)
      (by simp)

/-! ### The invariant -/

lemma wf_new (id : DocKey) : (new y id).Wf where
  current := by simp [new, unended]
  listeners := rfl
  timers := rfl
  starts_lt := by simp [new, starts]
  starts_nodup := by simp [new, starts]
  completed := by simp [new, completes]
  completes_nodup := by simp [new, completes]
  called := by simp [new]

lemma starts_append (entries : List SyncLog) :
    ({ s with log := s.log ++ entries } : SyncingContainer Doc).starts =
      s.starts ++ entries.filterMap SyncLog.start := List.filterMap_append

lemma completes_append (entries : List SyncLog) :
    ({ s with log := s.log ++ entries } : SyncingContainer Doc).completes =
      s.completes ++ entries.filterMap SyncLog.complete := List.filterMap_append

/-- A step that concerns neither the rounds nor the messages of sync. -/
lemma Wf.congr (h : s.Wf) (hrounds : t.rounds = s.rounds) (hpromise : t.syncPromise = s.syncPromise)
    (hlisteners : t.listeners = s.listeners) (htimers : t.timers = s.timers)
    (hstarts : t.starts = s.starts) (hcompletes : t.completes = s.completes)
    (hcalls : ∀ call ∈ t.calls, call.round < s.rounds.length) : t.Wf where
  current := by
    simp only [unended, hrounds, hpromise]
    exact h.current
  listeners := by
    rw [hlisteners, h.listeners]
    simp only [waitingRounds, hrounds, hpromise]
  timers := by
    rw [htimers, h.timers]
    simp only [waitingRounds, hrounds, hpromise]
  starts_lt := by
    rw [hstarts, hrounds]
    exact h.starts_lt
  starts_nodup := hstarts ▸ h.starts_nodup
  completed := by
    rw [hcompletes, hrounds]
    exact h.completed
  completes_nodup := hcompletes ▸ h.completes_nodup
  called := by
    rw [hrounds]
    exact hcalls

lemma starts_received {m : ServerMessage} (hcalls : s.callsSync y m = true) :
    (s.received y m).starts = s.starts ∧ (s.received y m).completes = s.completes := by
  cases m with
  | joinResponse docId status =>
    cases status with
    | ok =>
      simp only [received]
      split
      · exact ⟨(starts_append _).trans (List.append_nil _),
          (completes_append _).trans (List.append_nil _)⟩
      · exact ⟨rfl, rfl⟩
    | err message => cases hcalls
  | broadcastChanges docId changes =>
    simp only [received]
    split <;> exact ⟨rfl, rfl⟩
  | syncResponse docId vector changes => cases hcalls
  | _ => exact ⟨rfl, rfl⟩

/-- A message on which a listener calls `sync` leaves the promises alone. -/
lemma received_same {m : ServerMessage} (hcalls : s.callsSync y m = true) :
    (s.received y m).rounds = s.rounds ∧ (s.received y m).syncPromise = s.syncPromise ∧
      (s.received y m).listeners = s.listeners ∧ (s.received y m).timers = s.timers ∧
      (s.received y m).calls = s.calls := by
  cases m with
  | joinResponse docId status =>
    cases status with
    | ok =>
      simp only [received]
      split <;> exact ⟨rfl, rfl, rfl, rfl, rfl⟩
    | err message => cases hcalls
  | broadcastChanges docId changes =>
    simp only [received]
    split <;> exact ⟨rfl, rfl, rfl, rfl, rfl⟩
  | syncResponse docId vector changes => cases hcalls
  | _ => exact ⟨rfl, rfl, rfl, rfl, rfl⟩

lemma Wf.received (h : s.Wf) {m : ServerMessage} (hcalls : s.callsSync y m = true) :
    (s.received y m).Wf := by
  obtain ⟨hrounds, hpromise, hlisteners, htimers, hsame⟩ := received_same hcalls
  obtain ⟨hstarts, hcompletes⟩ := starts_received hcalls
  refine h.congr hrounds hpromise hlisteners htimers hstarts hcompletes ?_
  rw [hsame]
  exact h.called

lemma Wf.lt_of_current (h : s.Wf) (hr : s.syncPromise = some r) : r < s.rounds.length := by
  have hunended := (h.current r).mpr hr
  by_contra hge
  rw [unended, List.getElem?_eq_none (Nat.le_of_not_lt hge)] at hunended
  cases hunended

/-- A round that is begun when there is none. -/
lemma Wf.begin (h : s.Wf) (hnone : s.syncPromise = none) (stage : RoundStage)
    (hstage : stage.isEnded = false) (hrounds : t.rounds = s.rounds ++ [stage])
    (hpromise : t.syncPromise = some s.rounds.length)
    (hlisteners : t.listeners = if stage = .waiting then [s.rounds.length] else [])
    (htimers : t.timers = if stage = .waiting then [s.rounds.length] else [])
    (hstarts : t.starts = s.starts ∨ t.starts = s.starts ++ [s.rounds.length])
    (hcompletes : t.completes = s.completes)
    (hcalls : t.calls = s.calls ++ [⟨s.rounds.length, true⟩]) : t.Wf := by
  have hnew : t.rounds[s.rounds.length]? = some stage := by simp [hrounds]
  have hold : ∀ r, r < s.rounds.length → t.rounds[r]? = s.rounds[r]? := by
    intro r hlt
    rw [hrounds, List.getElem?_append_left hlt]
  have hlength : t.rounds.length = s.rounds.length + 1 := by simp [hrounds]
  have hwaiting : t.waitingRounds = if stage = .waiting then [s.rounds.length] else [] := by
    by_cases hw : stage = .waiting <;> simp [waitingRounds, hpromise, hnew, hw]
  exact {
    current := by
      intro r
      rw [hpromise, Option.some.injEq]
      rcases Nat.lt_trichotomy r s.rounds.length with hlt | rfl | hgt
      · have hended : s.unended r = false := by
          rw [Bool.eq_false_iff, ne_eq, h.current r, hnone]
          simp
        rw [unended, hold r hlt]
        rw [unended] at hended
        simp [hended, Nat.ne_of_gt hlt]
      · simp [unended, hnew, hstage]
      · have hout : t.rounds[r]? = none := List.getElem?_eq_none (by omega)
        simp [unended, hout, Nat.ne_of_lt hgt]
    listeners := hlisteners.trans hwaiting.symm
    timers := htimers.trans hwaiting.symm
    starts_lt := by
      intro r hr
      rcases hstarts with hsame | hadded
      · have := h.starts_lt r (hsame ▸ hr)
        omega
      · rcases List.mem_append.mp (hadded ▸ hr) with hr | hr
        · have := h.starts_lt r hr
          omega
        · rw [List.mem_singleton.mp hr]
          omega
    starts_nodup := by
      rcases hstarts with hsame | hadded
      · exact hsame ▸ h.starts_nodup
      · rw [hadded]
        refine List.nodup_append.mpr ⟨h.starts_nodup, List.nodup_singleton _, ?_⟩
        intro a ha b hb
        rw [List.mem_singleton.mp hb]
        exact Nat.ne_of_lt (h.starts_lt a ha)
    completed := by
      intro r hr
      have hdone := h.completed r (hcompletes ▸ hr)
      have hlt : r < s.rounds.length := by
        rcases hdone with hdone | hdone <;> exact (List.getElem?_eq_some_iff.mp hdone).1
      rw [hold r hlt]
      exact hdone
    completes_nodup := hcompletes ▸ h.completes_nodup
    called := by
      intro call hcall
      rcases List.mem_append.mp (hcalls ▸ hcall) with hcall | hcall
      · have := h.called call hcall
        omega
      · rw [List.mem_singleton.mp hcall, hlength]
        exact Nat.lt_succ_self _ }

lemma Wf.sync (h : s.Wf) (sendFails : Bool) : (s.sync y sendFails).Wf := by
  unfold SyncingContainer.sync
  split
  · rename_i r hr
    refine h.congr rfl rfl rfl rfl rfl rfl fun call hcall => ?_
    rcases List.mem_append.mp hcall with hcall | hcall
    · exact h.called call hcall
    · rw [List.mem_singleton.mp hcall]
      exact h.lt_of_current hr
  · rename_i hnone
    have hidle : s.waitingRounds = [] := by simp [waitingRounds, hnone]
    have hlisteners := h.listeners.trans hidle
    have htimers := h.timers.trans hidle
    cases sendFails with
    | true =>
      exact h.begin hnone (.settled false) rfl rfl rfl hlisteners htimers (.inl rfl) rfl rfl
    | false =>
      refine h.begin hnone .waiting rfl rfl rfl ?_ ?_ (.inr ?_) ?_ rfl
      · simp [syncProcess, hlisteners]
      · simp [syncProcess, htimers]
      · exact starts_append _
      · exact (completes_append _).trans (List.append_nil _)

lemma unended_set (hlt : r < s.rounds.length) {stage : RoundStage}
    (hrounds : t.rounds = s.rounds.set r stage) (r' : Nat) :
    t.unended r' = if r' = r then !stage.isEnded else s.unended r' := by
  by_cases hr : r' = r
  · subst hr
    simp [unended, hrounds, hlt]
  · simp [unended, hrounds, hr, Ne.symm hr]

/-- The current round goes on to a stage in which it does not wait. -/
lemma Wf.advance (h : s.Wf) (hr : s.syncPromise = some r) (stage : RoundStage)
    (hstage : stage ≠ .waiting) (hrounds : t.rounds = s.rounds.set r stage)
    (hpromise : t.syncPromise = if stage.isEnded then none else some r)
    (hlisteners : t.listeners = []) (htimers : t.timers = []) (hstarts : t.starts = s.starts)
    (hcompleted : r ∈ s.completes → stage = .ended true)
    (hcompletes : t.completes = s.completes ∨
      r ∉ s.completes ∧ stage = .settled true ∧ t.completes = s.completes ++ [r])
    (hcalls : t.calls = s.calls) : t.Wf := by
  have hlt := h.lt_of_current hr
  have hself : t.rounds[r]? = some stage := by simp [hrounds, hlt]
  have hother : ∀ r', r' ≠ r → t.rounds[r']? = s.rounds[r']? := by
    intro r' hne
    rw [hrounds, List.getElem?_set_ne (Ne.symm hne)]
  have hlength : t.rounds.length = s.rounds.length := by simp [hrounds]
  have hidle : t.waitingRounds = [] := by
    by_cases hended : stage.isEnded = true <;> simp [waitingRounds, hpromise, hended, hself, hstage]
  have hdone : ∀ r' ∈ s.completes,
      t.rounds[r']? = some (.settled true) ∨ t.rounds[r']? = some (.ended true) := by
    intro r' hr'
    by_cases he : r' = r
    · subst he
      rw [hself, hcompleted hr']
      exact .inr rfl
    · rw [hother r' he]
      exact h.completed r' hr'
  exact {
    current := by
      intro r'
      rw [unended_set hlt hrounds, hpromise]
      by_cases he : r' = r
      · cases hended : stage.isEnded <;> simp [he]
      · have hold : s.unended r' = false := by
          rw [Bool.eq_false_iff, ne_eq, h.current r', hr]
          simpa using Ne.symm he
        cases stage.isEnded <;> simp [he, hold, Ne.symm he]
    listeners := hlisteners.trans hidle.symm
    timers := htimers.trans hidle.symm
    starts_lt := by
      rw [hstarts, hlength]
      exact h.starts_lt
    starts_nodup := hstarts ▸ h.starts_nodup
    completed := by
      rcases hcompletes with hsame | ⟨-, hok, hadded⟩
      · rw [hsame]
        exact hdone
      · intro r' hr'
        rcases List.mem_append.mp (hadded ▸ hr') with hr' | hr'
        · exact hdone r' hr'
        · rw [List.mem_singleton.mp hr', hself, hok]
          exact .inl rfl
    completes_nodup := by
      rcases hcompletes with hsame | ⟨hfresh, -, hadded⟩
      · exact hsame ▸ h.completes_nodup
      · rw [hadded]
        refine List.nodup_append.mpr ⟨h.completes_nodup, List.nodup_singleton _, ?_⟩
        rintro a ha b hb rfl
        exact hfresh (List.mem_singleton.mp hb ▸ ha)
    called := by
      rw [hcalls, hlength]
      exact h.called }

/-- A round that has sent its syncComplete is settled. -/
lemma Wf.not_completed (h : s.Wf) {stage : RoundStage} (hstage : s.rounds[r]? = some stage)
    (hunsettled : stage ≠ .settled true ∧ stage ≠ .ended true) : r ∉ s.completes := by
  intro hr
  rcases h.completed r hr with hdone | hdone
  · exact hunsettled.1 (Option.some.inj (hstage.symm.trans hdone))
  · exact hunsettled.2 (Option.some.inj (hstage.symm.trans hdone))

lemma Wf.of_current (h : s.Wf) (hr : s.syncPromise = some r) {stage : RoundStage}
    (hstage : s.rounds[r]? = some stage) (hwaits : stage ≠ .waiting) :
    s.listeners = [] ∧ s.timers = [] := by
  have hidle : s.waitingRounds = [] := by simp [waitingRounds, hr, hstage, hwaits]
  exact ⟨h.listeners.trans hidle, h.timers.trans hidle⟩

theorem wf_step (h : s.Wf) {a : SyncAction} (ht : s.step y a = some t) : t.Wf := by
  cases step_cases h ht with
  | quiet _ doc disposed entries hentries ha hprocess =>
    have hnone : ∀ e ∈ entries, e.start = none ∧ e.complete = none := by
      intro e he
      rw [hentries e he]
      exact ⟨rfl, rfl⟩
    refine h.congr rfl rfl rfl rfl ?_ ?_ h.called
    · refine (starts_append (s := s) entries).trans ?_
      rw [List.filterMap_eq_nil_iff.mpr fun e he => (hnone e he).1, List.append_nil]
    · refine (completes_append (s := s) entries).trans ?_
      rw [List.filterMap_eq_nil_iff.mpr fun e he => (hnone e he).2, List.append_nil]
  | synced m sendFails hcalls => exact (h.received hcalls).sync sendFails
  | answered m sendFails hcalls r hr vector changes hwaiting =>
    have hfresh := h.not_completed hwaiting (by simp)
    exact h.advance hr (.answered vector changes) (by simp) rfl hr rfl rfl rfl
      (fun hmem => absurd hmem hfresh) (.inl rfl) rfl
  | timedOut r hr hwaiting =>
    have hfresh := h.not_completed hwaiting (by simp)
    exact h.advance hr .timedOut (by simp) rfl hr rfl rfl rfl
      (fun hmem => absurd hmem hfresh) (.inl rfl) rfl
  | processed r sendFails hr stage hstage hwaited ok hok doc entries hentries =>
    have hkinds : stage ≠ .waiting ∧ stage ≠ .settled true ∧ stage ≠ .ended true := by
      rcases hwaited with rfl | ⟨vector, changes, rfl⟩ <;> simp
    have hfresh := h.not_completed hstage hkinds.2
    obtain ⟨hlisteners, htimers⟩ := h.of_current hr hstage hkinds.1
    refine h.advance hr (.settled ok) (by simp) rfl hr hlisteners htimers ?_
      (fun hmem => absurd hmem hfresh) ?_ rfl
    · refine (starts_append (s := s) entries).trans ?_
      rcases hentries with rfl | ⟨-, changes, rfl⟩ <;> exact List.append_nil _
    · have happend := completes_append (s := s) entries
      rcases hentries with rfl | ⟨rfl, changes, rfl⟩
      · exact .inl (happend.trans (List.append_nil _))
      · exact .inr ⟨hfresh, rfl, happend⟩
  | finished r hr ok hstage =>
    obtain ⟨hlisteners, htimers⟩ := h.of_current hr hstage (by simp)
    refine h.advance hr (.ended ok) (by simp) rfl rfl hlisteners htimers rfl ?_ (.inl rfl) rfl
    intro hmem
    rcases h.completed r hmem with hdone | hdone
    · cases hstage.symm.trans hdone
      rfl
    · cases hstage.symm.trans hdone

/-! ### Single flight -/

/-- At most one syncStart whose round has not ended, one listener and one timer; at most one
syncComplete for each round; and no listener and no timer without a `syncPromise`. -/
structure SingleFlight (s : SyncingContainer Doc) : Prop where
  starts : (s.starts.filter s.unended).length ≤ 1
  listeners : s.listeners.length ≤ 1
  timers : s.timers.length ≤ 1
  completes : ∀ r, s.completes.count r ≤ 1
  idle : s.syncPromise = none → s.listeners = [] ∧ s.timers = []

lemma length_waitingRounds (s : SyncingContainer Doc) : s.waitingRounds.length ≤ 1 := by
  unfold waitingRounds
  refine Nat.le_trans (List.length_filter_le _ _) ?_
  cases s.syncPromise <;> simp

lemma Wf.singleFlight (h : s.Wf) : s.SingleFlight where
  starts := by
    have hcurrent : ∀ r ∈ s.starts.filter s.unended, s.syncPromise = some r := fun r hr =>
      (h.current r).mp (List.mem_filter.mp hr).2
    have hnodup := h.starts_nodup.filter s.unended
    match hopen : s.starts.filter s.unended with
    | [] => simp
    | [_] => simp
    | a :: b :: rest =>
      rw [hopen] at hcurrent hnodup
      have ha := hcurrent a (by simp)
      have hb := hcurrent b (by simp)
      have heq : a = b := Option.some.inj (ha.symm.trans hb)
      simp [heq] at hnodup
  listeners := h.listeners ▸ length_waitingRounds s
  timers := h.timers ▸ length_waitingRounds s
  completes := fun r => List.nodup_iff_count_le_one.mp h.completes_nodup r
  idle := by
    intro hnone
    rw [h.listeners, h.timers]
    simp [waitingRounds, hnone]

lemma wf_run {id : DocKey} {as : List SyncAction} (hrun : run (step y) (new y id) as = some t) :
    t.Wf :=
  run_invariant_of_step Wf (fun _ _ _ h ht => wf_step h ht) hrun (wf_new id)

/-- In every state of every run the rounds of sync are single-flight and clean up. -/
theorem single_flight {id : DocKey} {as : List SyncAction}
    (hrun : run (step y) (new y id) as = some t) : t.SingleFlight := (wf_run hrun).singleFlight

/-- A round that is answered late by another document, shared by a second call, and times out; one
that the socket refuses; and one that is completed. -/
theorem single_flight_three_rounds : ∃ t, run (step Yjs.oneEdit) (new Yjs.oneEdit "doc")
      [.receive (.requestSync true) false, .receive (.syncResponse "other" "" "") false,
        .receive (.joinResponse "doc" .ok) false, .timeout 0, .process 0 false, .finish 0,
        .receive (.requestSync true) true, .finish 1, .receive (.requestSync true) false,
        .receive (.syncResponse "doc" "AA==" "AQE=") false, .process 2 false, .finish 2] = some t ∧
    t.starts = [0, 2] ∧ t.completes = [2] ∧ t.SingleFlight := by
  obtain ⟨t, hrun, hstarts, hcompletes⟩ : ∃ t, run (step Yjs.oneEdit) (new Yjs.oneEdit "doc")
      [.receive (.requestSync true) false, .receive (.syncResponse "other" "" "") false,
        .receive (.joinResponse "doc" .ok) false, .timeout 0, .process 0 false, .finish 0,
        .receive (.requestSync true) true, .finish 1, .receive (.requestSync true) false,
        .receive (.syncResponse "doc" "AA==" "AQE=") false, .process 2 false, .finish 2] = some t ∧
      t.starts = [0, 2] ∧ t.completes = [2] := ⟨_, rfl, rfl, rfl⟩
  exact ⟨t, hrun, hstarts, hcompletes, single_flight hrun⟩

/-! ### A round that nothing interrupts -/

/-- A call of `sync` is the one of the container in which a round is one step. -/
theorem sync_refines (s : SyncingContainer Doc) :
    (s.sync y false).container = (s.container.sync y).1 ∧
      (s.sync y false).sent = s.sent ++ (s.container.sync y).2 := by
  cases hr : s.syncPromise with
  | some r => simp [SyncingContainer.sync, DocContainer.sync, container, sent, hr]
  | none =>
    simp [SyncingContainer.sync, DocContainer.sync, syncProcess, container, sent, hr,
      SyncLog.message]

/-- The rest of a round that is answered, if nothing comes between, is the response of that
container. -/
theorem round_refines (h : s.Wf) (hwaiting : s.rounds[r]? = some .waiting) (vector : StateVector)
    (changes : Changes) :
    ∃ t, run (step y) s [.receive (.syncResponse s.id vector changes) false, .process r false,
        .finish r] = some t ∧
      t.container = (s.container.syncResponse y vector changes).1 ∧
      t.sent = s.sent ++ (s.container.syncResponse y vector changes).2 := by
  obtain ⟨hr, hlisteners, -⟩ := h.waiting hwaiting
  have hlt := h.lt_of_current hr
  have hanswered : s.receive y false (.syncResponse s.id vector changes) =
      { s with
        rounds := s.rounds.set r (.answered vector changes), listeners := [], timers := [] } := by
    rw [receive, hlisteners, List.foldl_cons, List.foldl_nil, handler, if_pos rfl,
      settleWait_clear h hwaiting]
  cases happly : y.applyUpdate s.doc (y.toUint8Array changes) with | mk doc threw
  cases threw with
  | true =>
    simp [run, step, hanswered, process, happly, finish, setRound, hlt, container, sent,
      DocContainer.syncResponse, DocContainer.syncFailed, hr]
  | false =>
    cases hencode : y.encodeStateAsUpdate doc (some (y.toUint8Array vector)) <;>
      simp [run, step, hanswered, process, happly, hencode, finish, setRound, hlt, container, sent,
        DocContainer.syncResponse, DocContainer.syncFailed, hr, SyncLog.message]

end SyncingContainer

end AlaFois
