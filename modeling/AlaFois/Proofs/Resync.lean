import AlaFois.Proofs.SyncFlight

/-!
# Synchronization after a join

A container syncs on every successful join, since its connection may be a new one. A join that is
answered while a round of the old connection is still in flight is not followed by one.
-/

namespace AlaFois

open Stepper

namespace SyncingContainer

variable {Doc : Type*} {y : Yjs Doc} {s t : SyncingContainer Doc} {r : Nat}

/-- The latest join of the document has not been followed by a syncStart. -/
def Owes (s : SyncingContainer Doc) : Prop :=
  ∃ before after, s.log = before ++ .joined :: after ∧ ∀ e ∈ after, e ≠ .joined ∧ e.start = none

/-- The join has been swallowed: no round is in flight that could end with another one. -/
def Swallows (s : SyncingContainer Doc) : Prop := s.syncPromise = none ∧ s.Owes

/-- A join of the document finds no round in flight and a socket that takes the syncStart. -/
def SyncsOnJoin (s : SyncingContainer Doc) : SyncAction → Prop
  | .receive m sendFails =>
    m = .joinResponse s.id .ok → s.syncPromise = none ∧ sendFails = false
  | _ => True

instance (s : SyncingContainer Doc) : (a : SyncAction) → Decidable (s.SyncsOnJoin a)
  | .receive m sendFails =>
    inferInstanceAs
      (Decidable (m = .joinResponse s.id .ok → s.syncPromise = none ∧ sendFails = false))
  | .connected | .malformedResponse | .edit _ | .timeout _ | .process _ _ | .finish _ | .dispose =>
    isTrue trivial

/-! ### The log -/

lemma not_owes_nil (h : s.log = []) : ¬s.Owes := by
  rintro ⟨before, after, hlog, -⟩
  simp [h] at hlog

lemma owes_joined (h : t.log = s.log ++ [.joined]) : t.Owes := ⟨s.log, [], h, by simp⟩

lemma not_owes_start {vector : StateVector} (h : t.log = s.log ++ [.syncStart r vector]) :
    ¬t.Owes := by
  rintro ⟨before, after, hlog, hafter⟩
  rw [h] at hlog
  rcases List.eq_nil_or_concat after with rfl | ⟨rest, e, rfl⟩
  · have hlast := congrArg List.getLast? hlog
    simp at hlast
  · rw [List.concat_eq_append] at hlog hafter
    have hsplit : s.log ++ [.syncStart r vector] = (before ++ .joined :: rest) ++ [e] := by
      simpa using hlog
    have he := (List.append_inj' hsplit rfl).2
    have hstart := (hafter e (by simp)).2
    rw [← List.singleton_inj.mp he] at hstart
    cases hstart

/-- What is neither a join nor a syncStart changes nothing. -/
lemma owes_append (entries : List SyncLog) (h : t.log = s.log ++ entries)
    (hentries : ∀ e ∈ entries, e ≠ .joined ∧ e.start = none) : t.Owes ↔ s.Owes := by
  constructor
  · rintro ⟨before, after, hlog, hafter⟩
    rw [h] at hlog
    rcases List.append_eq_append_iff.mp hlog with ⟨rest, hbefore, hrest⟩ | ⟨rest, hold, hrest⟩
    · have hmem : SyncLog.joined ∈ entries := by
        rw [hrest]
        simp
      exact absurd rfl (hentries .joined hmem).1
    · cases rest with
      | nil =>
        rw [List.nil_append] at hrest
        exact absurd rfl (hentries .joined (hrest ▸ List.mem_cons_self ..)).1
      | cons e rest =>
        simp only [List.cons_append, List.cons.injEq] at hrest
        obtain ⟨rfl, rfl⟩ := hrest
        exact ⟨before, rest, hold, fun e he => hafter e (List.mem_append_left _ he)⟩
  · rintro ⟨before, after, hlog, hafter⟩
    refine ⟨before, after ++ entries, by simp [h, hlog], fun e he => ?_⟩
    rcases List.mem_append.mp he with he | he
    · exact hafter e he
    · exact hentries e he

/-! ### Steps -/

/-- A round that is begun answers for every join before it. -/
lemma not_owes_begun (hnone : s.syncPromise = none) : ¬(s.sync y false).Owes := by
  unfold SyncingContainer.sync
  split
  · rename_i r hr
    rw [hnone] at hr
    cases hr
  · exact not_owes_start (s := s) rfl

/-- A call that finds a round in flight, or a socket that throws, sends nothing. -/
lemma owes_sync (sendFails : Bool) (h : s.syncPromise = none → sendFails = true) :
    (s.sync y sendFails).Owes ↔ s.Owes := by
  have hlog : (s.sync y sendFails).log = s.log := by
    unfold SyncingContainer.sync
    split
    · rfl
    · rename_i hnone
      rw [h hnone]
      rfl
  exact owes_append [] (by rw [hlog, List.append_nil]) (by simp)

lemma syncPromise_sync (sendFails : Bool) : (s.sync y sendFails).syncPromise ≠ none := by
  unfold SyncingContainer.sync
  split
  · rename_i r hr
    simp [hr]
  · simp

/-- Of the messages only a join of the document is recorded. -/
lemma owes_received {m : ServerMessage} (hcalls : s.callsSync y m = true)
    (hm : m ≠ .joinResponse s.id .ok) : (s.received y m).Owes ↔ s.Owes := by
  have hlog : (s.received y m).log = s.log := by
    cases m with
    | joinResponse docId status =>
      cases status with
      | ok =>
        have hne : docId ≠ s.id := by
          rintro rfl
          exact hm rfl
        simp [received, hne]
      | err message => cases hcalls
    | broadcastChanges docId changes =>
      simp only [received]
      split <;> rfl
    | syncResponse docId vector changes => cases hcalls
    | _ => rfl
  exact owes_append [] (by rw [hlog, List.append_nil]) (by simp)

/-- A step that meets the condition leaves no join owed. -/
lemma not_owes_step (h : s.Wf) (hs : ¬s.Owes) {a : SyncAction} (hg : s.SyncsOnJoin a)
    (ht : s.step y a = some t) : ¬t.Owes := by
  cases step_cases h ht with
  | quiet _ doc disposed entries hentries ha hprocess =>
    refine mt (owes_append (s := s) entries rfl fun e he => ?_).mp hs
    rw [hentries e he]
    exact ⟨by simp, rfl⟩
  | synced m sendFails hcalls =>
    obtain ⟨-, hpromise, -, -, -⟩ := received_same hcalls
    by_cases hm : m = .joinResponse s.id .ok
    · obtain ⟨hnone, rfl⟩ := hg hm
      exact not_owes_begun (hpromise.trans hnone)
    · have hreceived : ¬(s.received y m).Owes := mt (owes_received hcalls hm).mp hs
      by_cases hsends : (s.received y m).syncPromise = none ∧ sendFails = false
      · obtain ⟨hnone, rfl⟩ := hsends
        exact not_owes_begun hnone
      · refine mt (owes_sync sendFails fun hnone => ?_).mp hreceived
        exact eq_true_of_ne_false fun hfails => hsends ⟨hnone, hfails⟩
  | answered m sendFails hcalls r hr vector changes hwaiting => exact hs
  | timedOut r hr hwaiting => exact hs
  | processed r sendFails hr stage hstage hwaited ok hok doc entries hentries =>
    refine mt (owes_append (s := s) entries rfl ?_).mp hs
    rcases hentries with rfl | ⟨-, changes, rfl⟩ <;> simp [SyncLog.start]
  | finished r hr ok hstage => exact hs

/-- A join that does not meet the condition is owed while the round goes on. -/
lemma owes_of_not_syncsOnJoin {a : SyncAction} (hg : ¬s.SyncsOnJoin a)
    (ht : s.step y a = some t) : t.syncPromise ≠ none ∧ t.Owes := by
  cases a with
  | receive m sendFails =>
    simp only [SyncsOnJoin, Classical.not_imp] at hg
    obtain ⟨rfl, hg⟩ := hg
    have ht' : { s with log := s.log ++ [SyncLog.joined] }.sync y sendFails = t := by
      simpa [step, receive] using ht
    subst ht'
    refine ⟨syncPromise_sync sendFails, (owes_sync sendFails fun hnone => ?_).mpr (owes_joined rfl)⟩
    exact eq_true_of_ne_false fun hfails => hg ⟨hnone, hfails⟩
  | _ => exact absurd trivial hg

/-- A join stays owed until the round ends, and then it is swallowed. -/
lemma owes_or_swallows (h : s.Wf) (hs : s.syncPromise ≠ none ∧ s.Owes) {a : SyncAction}
    (ht : s.step y a = some t) : (t.syncPromise ≠ none ∧ t.Owes) ∨ ¬¬t.Swallows := by
  obtain ⟨hflight, howes⟩ := hs
  cases step_cases h ht with
  | quiet _ doc disposed entries hentries ha hprocess =>
    refine .inl ⟨hflight, (owes_append (s := s) entries rfl fun e he => ?_).mpr howes⟩
    rw [hentries e he]
    exact ⟨by simp, rfl⟩
  | synced m sendFails hcalls =>
    obtain ⟨-, hpromise, -, -, -⟩ := received_same hcalls
    have hsame := owes_sync (y := y) (s := s.received y m) sendFails fun hnone =>
      absurd (hpromise.symm.trans hnone) hflight
    refine .inl ⟨syncPromise_sync sendFails, hsame.mpr ?_⟩
    by_cases hm : m = .joinResponse s.id .ok
    · subst hm
      exact owes_joined (s := s) (by simp [received])
    · exact (owes_received hcalls hm).mpr howes
  | answered m sendFails hcalls r hr vector changes hwaiting => exact .inl ⟨hflight, howes⟩
  | timedOut r hr hwaiting => exact .inl ⟨hflight, howes⟩
  | processed r sendFails hr stage hstage hwaited ok hok doc entries hentries =>
    refine .inl ⟨hflight, (owes_append (s := s) entries rfl ?_).mpr howes⟩
    rcases hentries with rfl | ⟨-, changes, rfl⟩ <;> simp [SyncLog.start]
  | finished r hr ok hstage => exact .inr (not_not_intro ⟨rfl, howes⟩)

/-! ### Whole runs -/

/-- If every join of a run meets the condition then none is swallowed; and in a run that ends
without a round in flight one is swallowed if some join does not meet it. -/
theorem no_join_swallowed (id : DocKey) (as : List SyncAction) :
    (Guarded (step y) SyncsOnJoin (new y id) as →
      ∀ bs, bs <+: as → ∀ t, run (step y) (new y id) bs = some t → ¬t.Swallows) ∧
    ∀ t, run (step y) (new y id) as = some t → t.syncPromise = none →
      (∀ bs, bs <+: as → ∀ u, run (step y) (new y id) bs = some u → ¬u.Swallows) →
      Guarded (step y) SyncsOnJoin (new y id) as := by
  constructor
  · rintro hguard bs ⟨cs, rfl⟩ t hrun hswallows
    have hguard' := ((guarded_append hrun).mp hguard).1
    have hinv : t.Wf ∧ ¬t.Owes :=
      run_invariant (fun s => s.Wf ∧ ¬s.Owes)
        (fun _ _ _ hs hg ht => ⟨wf_step hs.1 ht, not_owes_step hs.1 hs.2 hg ht⟩) hrun hguard'
        ⟨wf_new id, not_owes_nil rfl⟩
    exact hinv.2 hswallows.2
  · intro t hrun hnone hall
    exact guarded_of_not_doomed Wf (fun s => ¬s.Swallows) (fun s => s.syncPromise ≠ none ∧ s.Owes)
      (fun _ _ _ hs ht => wf_step hs ht) (fun _ _ _ _ hg ht => owes_of_not_syncsOnJoin hg ht)
      (fun _ _ _ hs hd ht => owes_or_swallows hs hd ht) hrun (fun hd => hd.1 hnone) (wf_new id) hall

/-- The connection is lost during a round; the join on the next one is answered before the round
times out. -/
theorem join_swallowed :
    ¬∀ (id : DocKey) (as : List SyncAction) (t : SyncingContainer Bool),
      run (step Yjs.oneEdit) (new Yjs.oneEdit id) as = some t → ¬t.Swallows := by
  intro h
  obtain ⟨t, hrun, hnone, hlog⟩ : ∃ t, run (step Yjs.oneEdit) (new Yjs.oneEdit "doc")
      [.receive (.requestSync true) false, .connected, .receive (.joinResponse "doc" .ok) false,
        .timeout 0, .process 0 false, .finish 0] = some t ∧ t.syncPromise = none ∧
      t.log = [.syncStart 0 "AA==", .join] ++ .joined :: [] := ⟨_, rfl, rfl, rfl⟩
  exact h "doc" _ t hrun ⟨hnone, _, _, hlog, by simp⟩

/-- The round of the lost connection times out before the join on the next one is answered. -/
theorem join_followed_by_sync : ∃ t, run (step Yjs.oneEdit) (new Yjs.oneEdit "doc")
      [.receive (.requestSync true) false, .connected, .timeout 0, .process 0 false, .finish 0,
        .receive (.joinResponse "doc" .ok) false, .timeout 1, .process 1 false, .finish 1] = some t ∧
    ¬t.Swallows := by
  obtain ⟨t, hrun⟩ : ∃ t, run (step Yjs.oneEdit) (new Yjs.oneEdit "doc")
      [.receive (.requestSync true) false, .connected, .timeout 0, .process 0 false, .finish 0,
        .receive (.joinResponse "doc" .ok) false, .timeout 1, .process 1 false, .finish 1] =
      some t := ⟨_, rfl⟩
  exact ⟨t, hrun, (no_join_swallowed (y := Yjs.oneEdit) "doc" _).1 (by decide) _ List.prefix_rfl t
    hrun⟩

end SyncingContainer

end AlaFois
