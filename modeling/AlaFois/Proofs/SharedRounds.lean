import AlaFois.Proofs.SyncFlight

/-!
# Calls that share a round

The call of `sync` that starts a round catches what the round throws. A call that comes during the
round is given its promise, and with it the rejection.
-/

namespace AlaFois

open Stepper

namespace SyncingContainer

variable {Doc : Type*} {y : Yjs Doc} {s t : SyncingContainer Doc} {r : Nat} {call : SyncCall}

/-- No call has rejected. -/
def NoneRejected (s : SyncingContainer Doc) : Prop :=
  ∀ call ∈ s.calls, s.promise call ≠ .rejected

/-- Without a round in flight every call has resolved. -/
def AllResolved (s : SyncingContainer Doc) : Prop :=
  s.NoneRejected ∧ (s.syncPromise = none → ∀ call ∈ s.calls, s.promise call = .resolved)

/-- A round that fails has no call but the one that has started it, and no call comes between its
failure and the end of that call. -/
def FailsAlone (y : Yjs Doc) (s : SyncingContainer Doc) : SyncAction → Prop
  | .process r sendFails =>
    s.fails y r sendFails = true → ∀ call ∈ s.calls, call.round = r → call.starter = true
  | .receive m _ => s.callsSync y m = true →
    ∀ r, s.syncPromise = some r → s.rounds[r]? ≠ some (.settled false)
  | _ => True

/-! ### The promises after a step -/

lemma promise_eq {stage : RoundStage} (hstage : s.rounds[call.round]? = some stage) :
    s.promise call = stage.promise call.starter := by
  simp [promise, hstage]

lemma promise_congr (h : t.rounds[call.round]? = s.rounds[call.round]?) :
    t.promise call = s.promise call := by
  simp only [promise, h]

/-- A round that goes on to another stage settles its own calls. -/
lemma noneRejected_set (h : s.NoneRejected) {stage : RoundStage}
    (hstage : s.rounds[r]? = some stage) (stage' : RoundStage)
    (hrounds : t.rounds = s.rounds.set r stage') (hcalls : t.calls = s.calls) :
    t.NoneRejected ↔
      ∀ call ∈ s.calls, call.round = r → stage'.promise call.starter ≠ .rejected := by
  have hlt := (List.getElem?_eq_some_iff.mp hstage).1
  have hself : t.rounds[r]? = some stage' := by simp [hrounds, hlt]
  constructor
  · rintro ht call hcall rfl
    rw [← promise_eq hself]
    exact ht call (hcalls ▸ hcall)
  · intro hown call hcall
    rw [hcalls] at hcall
    by_cases hr : call.round = r
    · rw [promise_eq (hr ▸ hself)]
      exact hown call hcall hr
    · rw [promise_congr (s := s) (by rw [hrounds, List.getElem?_set_ne (Ne.symm hr)])]
      exact h call hcall

/-- Going on without a verdict changes the promise of no call. -/
lemma noneRejected_of_same (h : s.NoneRejected) {stage stage' : RoundStage}
    (hstage : s.rounds[r]? = some stage) (hrounds : t.rounds = s.rounds.set r stage')
    (hcalls : t.calls = s.calls)
    (hsame : ∀ starter, stage'.promise starter = .rejected → stage.promise starter = .rejected) :
    t.NoneRejected := by
  refine (noneRejected_set h hstage stage' hrounds hcalls).mpr fun call hcall hr hrejected => ?_
  refine h call hcall ?_
  rw [promise_eq (hr ▸ hstage)]
  exact hsame call.starter hrejected

/-- A call that is given a promise is given a rejection only if the round has failed already. -/
lemma promise_false_ne_rejected {stage : RoundStage} (hended : stage.isEnded = false) :
    stage.promise false ≠ .rejected ↔ stage ≠ .settled false := by
  cases stage with
  | settled ok => cases ok <;> simp [RoundStage.promise]
  | ended ok => cases hended
  | _ => simp [RoundStage.promise]

/-- The stage in which `syncProcess` returns its promise. -/
lemma rounds_syncProcess (s : SyncingContainer Doc) (sendFails : Bool) :
    ∃ stage : RoundStage, (s.syncProcess y sendFails).rounds = s.rounds ++ [stage] ∧
      stage.promise true ≠ .rejected := by
  cases sendFails with
  | true => exact ⟨.settled false, rfl, by simp [RoundStage.promise]⟩
  | false => exact ⟨.waiting, rfl, by simp [RoundStage.promise]⟩

lemma noneRejected_sync (h : s.Wf) (hs : s.NoneRejected) (sendFails : Bool) :
    (s.sync y sendFails).NoneRejected ↔
      ∀ r, s.syncPromise = some r → s.rounds[r]? ≠ some (.settled false) := by
  unfold SyncingContainer.sync
  split
  · rename_i r hr
    obtain ⟨stage, hstage⟩ : ∃ stage, s.rounds[r]? = some stage :=
      ⟨_, List.getElem?_eq_getElem (h.lt_of_current hr)⟩
    have hended : stage.isEnded = false := by
      have hopen := (h.current r).mpr hr
      simpa [unended, hstage] using hopen
    have hgiven : s.promise ⟨r, false⟩ = stage.promise false := promise_eq hstage
    constructor
    · intro ht r' hr' hfailed
      cases hr.symm.trans hr'
      have hnew : s.promise ⟨r, false⟩ ≠ .rejected := ht ⟨r, false⟩ (by simp)
      rw [hgiven, promise_false_ne_rejected hended] at hnew
      exact hnew (Option.some.inj (hstage.symm.trans hfailed))
    · intro hguard call hcall
      rcases List.mem_append.mp hcall with hcall | hcall
      · exact hs call hcall
      · have hnew : stage ≠ .settled false := fun heq => hguard r hr (heq ▸ hstage)
        rw [List.mem_singleton.mp hcall]
        exact fun hrejected =>
          (promise_false_ne_rejected hended).mpr hnew (hgiven.symm.trans hrejected)
  · rename_i hnone
    refine iff_of_true ?_ (by simp [hnone])
    obtain ⟨stage, hrounds, hstage⟩ := rounds_syncProcess (y := y) s sendFails
    intro call hcall
    rcases List.mem_append.mp hcall with hcall | hcall
    · refine fun hrejected => hs call hcall ?_
      rw [← hrejected]
      refine (promise_congr ?_).symm
      exact (congrArg (·[call.round]?) hrounds).trans
        (List.getElem?_append_left (h.called call hcall))
    · have hnew : (s.syncProcess y sendFails).rounds[s.rounds.length]? = some stage := by
        rw [hrounds]
        simp
      rw [List.mem_singleton.mp hcall]
      exact fun hrejected => hstage ((promise_eq hnew).symm.trans hrejected)

/-- A step keeps every call from rejecting exactly when it meets the condition. -/
theorem noneRejected_step (h : s.Wf) (hs : s.NoneRejected) {a : SyncAction}
    (ht : s.step y a = some t) : t.NoneRejected ↔ s.FailsAlone y a := by
  cases step_cases h ht with
  | quiet a doc disposed entries hentries ha hprocess =>
    refine iff_of_true hs ?_
    cases a with
    | receive m sendFails =>
      intro hcalls
      rw [ha m sendFails rfl] at hcalls
      cases hcalls
    | process r sendFails => exact absurd rfl (hprocess r sendFails)
    | _ => trivial
  | synced m sendFails hcalls =>
    obtain ⟨hrounds, hpromise, -, -, hsame⟩ := received_same hcalls
    have hreceived : (s.received y m).NoneRejected := by
      intro call hcall
      rw [hsame] at hcall
      rw [promise_congr (s := s) (by rw [hrounds])]
      exact hs call hcall
    rw [noneRejected_sync (h.received hcalls) hreceived, hrounds, hpromise]
    exact (imp_iff_right hcalls).symm
  | answered m sendFails hcalls r hr vector changes hwaiting =>
    refine iff_of_true (noneRejected_of_same hs hwaiting rfl rfl fun _ hrejected => ?_) ?_
    · cases hrejected
    · intro hsync
      rw [hcalls] at hsync
      cases hsync
  | timedOut r hr hwaiting =>
    refine iff_of_true (noneRejected_of_same hs hwaiting rfl rfl fun _ hrejected => ?_) trivial
    cases hrejected
  | processed r sendFails hr stage hstage hwaited ok hok doc entries hentries =>
    refine Iff.trans (noneRejected_set hs hstage (.settled ok) rfl rfl) ?_
    have hsettled : ∀ starter, (RoundStage.settled ok).promise starter ≠ .rejected ↔
        (s.fails y r sendFails = true → starter = true) := by
      intro starter
      rw [hok]
      cases s.fails y r sendFails <;> cases starter <;> simp [RoundStage.promise]
    simp only [hsettled, FailsAlone]
    exact ⟨fun hall hfails call hcall hround => hall call hcall hround hfails,
      fun hall call hcall hround hfails => hall hfails call hcall hround⟩
  | finished r hr ok hstage =>
    refine iff_of_true (noneRejected_of_same hs hstage rfl rfl fun starter hrejected => ?_) trivial
    cases starter <;> cases ok <;> simp_all [RoundStage.promise]

/-! ### Whole runs -/

/-- Without a round in flight no promise is pending. -/
lemma Wf.allResolved_iff (h : s.Wf) : s.AllResolved ↔ s.NoneRejected := by
  refine ⟨And.left, fun hs => ⟨hs, fun hnone call hcall => ?_⟩⟩
  obtain ⟨stage, hstage⟩ : ∃ stage, s.rounds[call.round]? = some stage :=
    ⟨_, List.getElem?_eq_getElem (h.called call hcall)⟩
  have hended : stage.isEnded = true := by
    by_contra hopen
    have hr := h.current_of hstage (Bool.eq_false_iff.mpr hopen)
    rw [hnone] at hr
    cases hr
  have hpromise : s.promise call = stage.promise call.starter := promise_eq hstage
  have hnot := hs call hcall
  rw [hpromise] at hnot ⊢
  cases stage with
  | ended ok =>
    revert hnot
    simp only [RoundStage.promise]
    split <;> simp
  | _ => cases hended

/-- The timer and the jobs of the round. -/
def SyncAction.ends (r : Nat) (a : SyncAction) : Prop :=
  a = .timeout r ∨ a = .process r false ∨ a = .finish r

lemma exists_finish {ok : Bool} (hstage : s.rounds[r]? = some (.settled ok)) :
    ∃ t, s.step y (.finish r) = some t ∧ t.syncPromise = none := by
  refine ⟨{ s.setRound r (.ended ok) with syncPromise := none }, ?_, rfl⟩
  simp only [step, finish, hstage]

lemma exists_process (h : s.Wf) {stage : RoundStage} (hstage : s.rounds[r]? = some stage)
    (hwaited : stage = .timedOut ∨ ∃ vector changes, stage = .answered vector changes) :
    ∃ t ok, s.step y (.process r false) = some t ∧ t.rounds[r]? = some (.settled ok) := by
  have henabled : ∃ t, s.step y (.process r false) = some t := by
    rcases hwaited with rfl | ⟨vector, changes, rfl⟩
    · exact ⟨_, by simp only [step, process, hstage]; rfl⟩
    · simp only [step, process, hstage]
      split
      · exact ⟨_, rfl⟩
      · split
        · exact ⟨_, rfl⟩
        · exact ⟨_, rfl⟩
  obtain ⟨t, ht⟩ := henabled
  have hlt := (List.getElem?_eq_some_iff.mp hstage).1
  cases step_cases h ht with
  | quiet _ _ _ _ _ _ hprocess => exact absurd rfl (hprocess r false)
  | processed _ _ _ _ _ _ ok _ _ _ _ => exact ⟨_, ok, ht, by simp [hlt]⟩

/-- A round in flight comes to its end through its own timer and jobs. -/
theorem Wf.exists_end (h : s.Wf) (hr : s.syncPromise = some r) :
    ∃ as t, (∀ a ∈ as, SyncAction.ends r a) ∧ run (step y) s as = some t ∧ t.syncPromise = none := by
  have hsettled : ∀ (u : SyncingContainer Doc) (ok : Bool), u.rounds[r]? = some (.settled ok) →
      ∃ t, run (step y) u [.finish r] = some t ∧ t.syncPromise = none := by
    intro u ok hstage
    obtain ⟨t, ht, hnone⟩ := exists_finish (y := y) hstage
    exact ⟨t, run_cons_eq_some.mpr ⟨t, ht, rfl⟩, hnone⟩
  have hwaited : ∀ (u : SyncingContainer Doc) (stage : RoundStage), u.Wf →
      u.rounds[r]? = some stage →
      stage = .timedOut ∨ (∃ vector changes, stage = .answered vector changes) →
      ∃ t, run (step y) u [.process r false, .finish r] = some t ∧ t.syncPromise = none := by
    intro u stage hu hstage hkind
    obtain ⟨v, ok, hv, hset⟩ := exists_process (y := y) hu hstage hkind
    obtain ⟨t, ht, hnone⟩ := hsettled v ok hset
    exact ⟨t, run_cons_eq_some.mpr ⟨v, hv, ht⟩, hnone⟩
  obtain ⟨stage, hstage⟩ : ∃ stage, s.rounds[r]? = some stage :=
    ⟨_, List.getElem?_eq_getElem (h.lt_of_current hr)⟩
  cases stage with
  | waiting =>
    have hmem : r ∈ s.timers := by simp [(h.waiting hstage).2.2]
    have ht : s.step y (.timeout r) = some ((s.clear r).settleWait r .timedOut) := if_pos hmem
    have hlt := h.lt_of_current hr
    obtain ⟨t, hrun, hnone⟩ := hwaited _ .timedOut (wf_step h ht)
      (by rw [settleWait_clear h hstage]; simp [hlt]) (.inl rfl)
    exact ⟨[.timeout r, .process r false, .finish r], t, by simp [SyncAction.ends],
      run_cons_eq_some.mpr ⟨_, ht, hrun⟩, hnone⟩
  | answered vector changes =>
    obtain ⟨t, hrun, hnone⟩ := hwaited s _ h hstage (.inr ⟨vector, changes, rfl⟩)
    exact ⟨[.process r false, .finish r], t, by simp [SyncAction.ends], hrun, hnone⟩
  | timedOut =>
    obtain ⟨t, hrun, hnone⟩ := hwaited s _ h hstage (.inl rfl)
    exact ⟨[.process r false, .finish r], t, by simp [SyncAction.ends], hrun, hnone⟩
  | settled ok =>
    obtain ⟨t, hrun, hnone⟩ := hsettled s ok hstage
    exact ⟨[.finish r], t, by simp [SyncAction.ends], hrun, hnone⟩
  | ended ok =>
    have hopen := (h.current r).mpr hr
    simp [unended, hstage, RoundStage.isEnded] at hopen

/-- At no moment of a run has a call of `sync` rejected, and all of them have resolved whenever no
round is in flight, exactly when every round that fails fails alone. A round in flight can always
come to its end. -/
theorem sync_resolves_iff (id : DocKey) (as : List SyncAction) :
    ((∀ bs, bs <+: as → ∀ t, run (step y) (new y id) bs = some t → t.AllResolved) ↔
      Guarded (step y) (FailsAlone y) (new y id) as) ∧
    ∀ t, run (step y) (new y id) as = some t → ∀ r, t.syncPromise = some r →
      ∃ cs u, (∀ a ∈ cs, SyncAction.ends r a) ∧ run (step y) t cs = some u ∧
        u.syncPromise = none := by
  refine ⟨?_, fun t hrun r hr => (wf_run hrun).exists_end hr⟩
  have hnone : (new y id).NoneRejected := by simp [NoneRejected, new]
  rw [← invariant_iff_guarded Wf NoneRejected (fun _ _ _ h ht => wf_step h ht)
    (fun _ _ _ h hs ht => noneRejected_step h hs ht) as (wf_new id) hnone]
  exact forall₄_congr fun bs _ t hrun => (wf_run hrun).allResolved_iff

/-- Two calls share a round that times out; the second one rejects. -/
theorem shared_round_rejects :
    ¬∀ (id : DocKey) (as : List SyncAction) (t : SyncingContainer Bool),
      run (step Yjs.oneEdit) (new Yjs.oneEdit id) as = some t → t.AllResolved := by
  intro h
  obtain ⟨t, ht, hcall⟩ : ∃ t, run (step Yjs.oneEdit) (new Yjs.oneEdit "doc")
      [.receive (.requestSync true) false, .receive (.requestSync true) false, .timeout 0,
        .process 0 false] = some t ∧
      ⟨0, false⟩ ∈ t.calls ∧ t.promise ⟨0, false⟩ = .rejected := ⟨_, rfl, by decide, rfl⟩
  exact (h "doc" _ t ht).1 ⟨0, false⟩ hcall.1 hcall.2

end SyncingContainer

end AlaFois
