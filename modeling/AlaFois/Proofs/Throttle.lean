import AlaFois.Lib.Stepper
import AlaFois.Model.Throttle
import AlaFois.Proofs.Durability

/-!
# One request to synchronize at a time

While a timer of a user is pending the actor asks that user for nothing, and every answer that asks
sets one. The next one comes when the timer has run out.
-/

namespace AlaFois

open Stepper

/-- With unique keys, the keys that are left after an entry is removed. -/
lemma map_fst_erase {α β : Type*} [DecidableEq α] [DecidableEq β] {l : List (α × β)} {a : α} {b : β}
    (hkeys : (l.map Prod.fst).Nodup) (hmem : (a, b) ∈ l) :
    (l.erase (a, b)).map Prod.fst = (l.map Prod.fst).erase a := by
  induction l with
  | nil => cases hmem
  | cons e l ih =>
    by_cases he : e = (a, b)
    · subst he
      rw [List.erase_cons_head, List.map_cons, List.erase_cons_head]
    · have hmem' : (a, b) ∈ l := List.mem_of_ne_of_mem (Ne.symm he) hmem
      obtain ⟨hfresh, hkeys'⟩ := List.nodup_cons.mp hkeys
      have hne : e.1 ≠ a := by
        rintro rfl
        exact hfresh (List.mem_map.mpr ⟨_, hmem', rfl⟩)
      rw [List.erase_cons_tail (by simpa using he), List.map_cons, List.map_cons,
        List.erase_cons_tail (by simpa using hne), ih hkeys' hmem']

namespace TimedHandler

variable {Doc : Type*} {y : Yjs Doc} {clientSyncAwaitMs : Nat} {s t : TimedHandler Doc}

/-- A user is in `syncAwait` exactly while one timer for the user is pending, and there are never
two; an answer asks for synchronization exactly when the document needs it and no timer is pending;
two such answers to one user are far enough apart. -/
structure Throttled (y : Yjs Doc) (clientSyncAwaitMs : Nat) (s : TimedHandler Doc) : Prop where
  timers : s.handler.timers = s.due.map Prod.fst
  single : ∀ u, s.handler.timers.count u = if s.handler.syncAwait.has u then 1 else 0
  exact : ∀ a ∈ s.answers, a.syncNeeded = true ↔ y.needSync a.doc = true ∧ a.pending = false
  spaced : s.answers.Pairwise fun a b => a.syncNeeded = true → b.syncNeeded = true →
    a.userId = b.userId → a.time + clientSyncAwaitMs ≤ b.time

/-- The timer of an answer is pending until its time has come, and no step of a call but the first
changes the document. -/
structure Invariant (y : Yjs Doc) (clientSyncAwaitMs : Nat) (s : TimedHandler Doc) : Prop
    extends Throttled y clientSyncAwaitMs s where
  updated : ∀ w, s.handler.saving = some w → s.handler.ydoc = s.updated
  waiting : ∀ a ∈ s.answers, a.syncNeeded = true →
    (a.userId, a.time + clientSyncAwaitMs) ∈ s.due ∨ a.time + clientSyncAwaitMs ≤ s.now

/-! ### What the calls do -/

/-- A method that is not suspended on its writes has not asked for synchronization. -/
inductive Invoked (y : Yjs Doc) (s : DocHandler Doc) (call : ActorCall) :
    DocHandler Doc × Option ActorReply → Prop
  | replied (reply : ActorReply) (hreply : ∀ syncNeeded, reply ≠ .applyDiff syncNeeded) :
    Invoked y s call ({ s with ydoc := update y s.ydoc call }, some reply)
  | saving (w : Saving) (hw : w.awaiting = awaiting call) :
    Invoked y s call ({ s with ydoc := update y s.ydoc call, saving := some w }, none)

lemma invoked (s : DocHandler Doc) (call : ActorCall) : Invoked y s call (s.invoke y call) := by
  cases call with
  | applyDiff changes userId =>
    simp only [DocHandler.invoke, DocHandler.applyDiff, DocHandler.awaitSaveDiff,
      DocHandler.saveDiff, Bool.false_and, Bool.false_eq_true, if_false]
    split
    · rename_i heq
      split at heq
      · cases heq
        exact .replied .threw (by simp)
      · split at heq <;> cases heq
        exact .replied .threw (by simp)
    · rename_i heq
      split at heq
      · cases heq
      · split at heq <;> cases heq
    · rename_i heq
      split at heq
      · cases heq
      · split at heq <;> cases heq
        exact .saving _ rfl
  | syncStart vector =>
    refine .replied (s.syncStart y vector) fun syncNeeded => ?_
    unfold DocHandler.syncStart
    split <;> simp
  | syncComplete changes userId =>
    simp only [DocHandler.invoke, DocHandler.syncComplete, DocHandler.awaitSaveDiff,
      DocHandler.saveDiff, Bool.true_and]
    split
    · rename_i heq
      split at heq
      · cases heq
        exact .replied .threw (by simp)
      · split at heq
        · cases heq
        · split at heq <;> cases heq
          exact .replied .threw (by simp)
    · rename_i heq
      split at heq
      · cases heq
      · split at heq
        · cases heq
          exact .replied .syncComplete (by simp)
        · split at heq <;> cases heq
    · rename_i heq
      split at heq
      · cases heq
      · split at heq
        · cases heq
        · split at heq <;> cases heq
          exact .saving _ rfl

lemma replied_of_ne {awaiting : Awaiting} {reply : ActorReply}
    (h : ∀ syncNeeded, reply ≠ .applyDiff syncNeeded) :
    s.replied clientSyncAwaitMs awaiting reply = s := by
  cases awaiting with
  | applyDiff userId =>
    cases reply with
    | applyDiff syncNeeded => exact absurd rfl (h syncNeeded)
    | _ => rfl
  | syncComplete => rfl

namespace Invariant

lemma activate {id : DocKey} {state : Option Bytes} {now : Nat}
    (h : TimedHandler.activate y id state now = some s) : s.Invariant y clientSyncAwaitMs := by
  obtain ⟨handler, hact, rfl⟩ := Option.map_eq_some_iff.mp h
  have hfresh : handler.timers = [] ∧ handler.syncAwait = .empty ∧ handler.saving = none := by
    unfold DocHandler.onActivate at hact
    split at hact
    · cases hact
      exact ⟨rfl, rfl, rfl⟩
    · obtain ⟨-, hact⟩ := Option.ite_none_left_eq_some.mp hact
      cases hact
      exact ⟨rfl, rfl, rfl⟩
  obtain ⟨htimers, hawait, hsaving⟩ := hfresh
  exact {
    timers := htimers
    single := by simp [htimers, hawait, JsMap.has]
    exact := by simp
    spaced := List.Pairwise.nil
    updated := by simp [hsaving]
    waiting := by simp }

lemma nodup (h : s.Invariant y clientSyncAwaitMs) : (s.due.map Prod.fst).Nodup := by
  rw [← h.timers, List.nodup_iff_count_le_one]
  intro u
  rw [h.single u]
  split <;> simp

/-- A user is in `syncAwait` exactly while a timer is pending. -/
lemma has_eq (h : s.Invariant y clientSyncAwaitMs) (u : UserId) :
    s.handler.syncAwait.has u = s.isPending u := by
  have hcount := h.single u
  rw [isPending, ← h.timers]
  by_cases hhas : s.handler.syncAwait.has u = true
  · rw [if_pos hhas] at hcount
    have hmem : u ∈ s.handler.timers := List.count_pos_iff.mp (by omega)
    simp [hhas, hmem]
  · rw [if_neg hhas] at hcount
    have hmem : u ∉ s.handler.timers := List.count_eq_zero.mp hcount
    simp [Bool.eq_false_iff.mpr hhas, hmem]

/-- A step that touches neither the timers nor the map. -/
lemma of_same (h : s.Invariant y clientSyncAwaitMs)
    (htimers : t.handler.timers = s.handler.timers)
    (hawait : t.handler.syncAwait = s.handler.syncAwait) (hdue : t.due = s.due)
    (hanswers : t.answers = s.answers) (hnow : s.now ≤ t.now)
    (hupdated : ∀ w, t.handler.saving = some w → t.handler.ydoc = t.updated) :
    t.Invariant y clientSyncAwaitMs where
  timers := by rw [htimers, hdue, h.timers]
  single := by
    rw [htimers, hawait]
    exact h.single
  exact := hanswers ▸ h.exact
  spaced := hanswers ▸ h.spaced
  updated := hupdated
  waiting := by
    rw [hanswers, hdue]
    intro a ha hneeded
    rcases h.waiting a ha hneeded with hdue | hpast
    · exact .inl hdue
    · exact .inr (Nat.le_trans hpast hnow)

/-- An answer that does not ask for anything. -/
lemma answered_false (h : s.Invariant y clientSyncAwaitMs) {u : UserId}
    (hask : ¬(y.needSync s.updated = true ∧ s.isPending u = false)) :
    ({ s with answers := s.answers ++ [⟨u, false, s.now, s.updated, s.isPending u⟩] } :
      TimedHandler Doc).Invariant y clientSyncAwaitMs where
  timers := h.timers
  single := h.single
  exact := by
    refine List.forall_mem_append.mpr ⟨h.exact, fun a ha => ?_⟩
    rw [List.mem_singleton.mp ha]
    exact iff_of_false (by simp) hask
  spaced := by
    refine List.pairwise_append.mpr ⟨h.spaced, List.pairwise_singleton _ _, ?_⟩
    intro a _ b hb _ hneeded
    rw [List.mem_singleton.mp hb] at hneeded
    cases hneeded
  updated := h.updated
  waiting := by
    intro a ha hneeded
    rcases List.mem_append.mp ha with ha | ha
    · exact h.waiting a ha hneeded
    · rw [List.mem_singleton.mp ha] at hneeded
      cases hneeded

/-- An answer that asks for synchronization, with the timer that it sets. -/
lemma answered_true (h : s.Invariant y clientSyncAwaitMs) {u : UserId}
    (hneeds : y.needSync s.updated = true) (hidle : s.isPending u = false)
    (hsaving : s.handler.saving = none) :
    ({ s with
      handler := { s.handler with
        syncAwait := s.handler.syncAwait.set u true, timers := u :: s.handler.timers }
      due := (u, s.now + clientSyncAwaitMs) :: s.due
      answers := s.answers ++ [⟨u, true, s.now, s.updated, s.isPending u⟩] } :
      TimedHandler Doc).Invariant y clientSyncAwaitMs where
  timers := by simp only [h.timers, List.map_cons]
  single := by
    intro v
    have hcount := h.single v
    by_cases hv : v = u
    · subst hv
      rw [h.has_eq, hidle] at hcount
      simpa [List.count_cons] using hcount
    · rw [JsMap.has_set_ne _ _ hv, List.count_cons_of_ne (Ne.symm hv)]
      exact hcount
  exact := by
    refine List.forall_mem_append.mpr ⟨h.exact, fun a ha => ?_⟩
    rw [List.mem_singleton.mp ha]
    exact iff_of_true rfl ⟨hneeds, hidle⟩
  spaced := by
    refine List.pairwise_append.mpr ⟨h.spaced, List.pairwise_singleton _ _, ?_⟩
    intro a ha b hb hneeded _ huser
    rw [List.mem_singleton.mp hb] at huser ⊢
    rcases h.waiting a ha hneeded with hdue | hpast
    · -- a timer that is still pending would have kept the user from being asked
      have hpending : s.isPending u = true :=
        decide_eq_true (List.mem_map.mpr ⟨_, hdue, huser⟩)
      rw [hidle] at hpending
      cases hpending
    · exact hpast
  updated := by simp [hsaving]
  waiting := by
    intro a ha hneeded
    rcases List.mem_append.mp ha with ha | ha
    · exact (h.waiting a ha hneeded).imp_left (List.mem_cons_of_mem _)
    · rw [List.mem_singleton.mp ha]
      exact .inl (List.mem_cons_self ..)

/-- The rest of a method, once its writes are done. -/
lemma saved (h : s.Invariant y clientSyncAwaitMs) (awaiting : Awaiting)
    (hdoc : s.handler.ydoc = s.updated) (hsaving : s.handler.saving = none) :
    ({ s with handler := (s.handler.saved y awaiting).1 }.replied clientSyncAwaitMs awaiting
      (s.handler.saved y awaiting).2).Invariant y clientSyncAwaitMs := by
  cases awaiting with
  | syncComplete => exact h
  | applyDiff u =>
    unfold DocHandler.saved
    dsimp only
    rw [h.has_eq]
    by_cases hask : (!s.isPending u && y.needSync s.handler.ydoc) = true
    · rw [if_pos hask]
      simp only [Bool.and_eq_true, Bool.not_eq_true'] at hask
      simp only [replied, if_true]
      exact h.answered_true (hdoc ▸ hask.2) hask.1 hsaving
    · rw [if_neg hask]
      simp only [replied, Bool.false_eq_true, if_false]
      refine h.answered_false fun hboth => hask ?_
      simp [hdoc, hboth.1, hboth.2]

lemma fire (h : s.Invariant y clientSyncAwaitMs) {u : UserId} {time : Nat}
    (hmem : (u, time) ∈ s.due) (htime : time ≤ s.now) {handler : DocHandler Doc}
    (hexpired : s.handler.syncAwaitExpired u = some handler) :
    ({ s with handler := handler, due := s.due.erase (u, time) } :
      TimedHandler Doc).Invariant y clientSyncAwaitMs := by
  unfold DocHandler.syncAwaitExpired at hexpired
  obtain ⟨hpending, hexpired⟩ := Option.ite_none_right_eq_some.mp hexpired
  cases hexpired
  exact {
    timers := by
      rw [map_fst_erase h.nodup hmem, ← h.timers]
    single := by
      intro v
      have hcount := h.single v
      by_cases hv : v = u
      · subst hv
        have hpos := List.count_pos_iff.mpr hpending
        rw [JsMap.has_delete_self, if_neg Bool.false_ne_true, List.count_erase_self]
        split at hcount <;> omega
      · rw [JsMap.has_delete_ne _ hv, List.count_erase_of_ne hv]
        exact hcount
    exact := h.exact
    spaced := h.spaced
    updated := h.updated
    waiting := by
      intro a ha hneeded
      rcases h.waiting a ha hneeded with hdue | hpast
      · by_cases he : (a.userId, a.time + clientSyncAwaitMs) = (u, time)
        · exact .inr (Nat.le_trans (Nat.le_of_eq (congrArg Prod.snd he)) htime)
        · exact .inl ((List.mem_erase_of_ne he).mpr hdue)
      · exact .inr hpast }

lemma step (h : s.Invariant y clientSyncAwaitMs) {a : TimedAction}
    (ht : s.step y clientSyncAwaitMs a = some t) : t.Invariant y clientSyncAwaitMs := by
  cases a with
  | call call =>
    simp only [TimedHandler.step] at ht
    obtain ⟨hidle, ht⟩ := Option.ite_none_right_eq_some.mp ht
    have hout := invoked (y := y) s.handler call
    generalize s.handler.invoke y call = result at hout ht
    cases hout with
    | replied reply hreply =>
      simp only [replied_of_ne hreply] at ht
      cases ht
      exact h.of_same rfl rfl rfl rfl (Nat.le_refl _) (by simp [hidle])
    | saving w hw =>
      cases ht
      exact h.of_same rfl rfl rfl rfl (Nat.le_refl _) fun _ _ => rfl
  | updateOne =>
    obtain ⟨w, hw, rfl⟩ := Option.map_eq_some_iff.mp ht
    exact h.of_same rfl rfl rfl rfl (Nat.le_refl _) fun _ _ => h.updated w hw
  | create =>
    obtain ⟨w, hw, rfl⟩ := Option.map_eq_some_iff.mp ht
    exact h.of_same rfl rfl rfl rfl (Nat.le_refl _) fun _ _ => h.updated w hw
  | resume =>
    simp only [TimedHandler.step] at ht
    split at ht
    · rename_i w handler reply hw hresume
      cases ht
      have hnone : ({ s with handler := { s.handler with saving := none } } :
          TimedHandler Doc).Invariant y clientSyncAwaitMs :=
        h.of_same rfl rfl rfl rfl (Nat.le_refl _) (by simp)
      unfold DocHandler.resume at hresume
      rw [hw] at hresume
      obtain ⟨-, hresume⟩ := Option.ite_none_right_eq_some.mp hresume
      have hsaved := hnone.saved w.awaiting (h.updated w hw) rfl
      rw [Option.some.inj hresume] at hsaved
      exact hsaved
    · cases ht
  | writeFailed =>
    obtain ⟨w, hw, rfl⟩ := Option.map_eq_some_iff.mp ht
    exact h.of_same rfl rfl rfl rfl (Nat.le_refl _) (by simp)
  | fire u time =>
    simp only [TimedHandler.step] at ht
    obtain ⟨⟨hmem, htime⟩, ht⟩ := Option.ite_none_right_eq_some.mp ht
    obtain ⟨handler, hexpired, rfl⟩ := Option.map_eq_some_iff.mp ht
    exact h.fire hmem htime hexpired
  | elapse ms =>
    cases ht
    exact h.of_same rfl rfl rfl rfl (Nat.le_add_right _ _) h.updated

end Invariant

/-- Every run of calls, writes and timers of one activation is throttled. -/
theorem throttled_run {id : DocKey} {state : Option Bytes} {now : Nat} {as : List TimedAction}
    (hactivate : activate y id state now = some s)
    (hrun : run (step y clientSyncAwaitMs) s as = some t) : t.Throttled y clientSyncAwaitMs :=
  (run_invariant_of_step (Invariant y clientSyncAwaitMs) (fun _ _ _ h ht => h.step ht) hrun
    (Invariant.activate hactivate)).toThrottled

/-- Documents that wait for an edit they have been told of and never get. -/
def waitingEdit : Yjs Bool where
  newDoc := false
  applyUpdate doc update := ⟨doc || update != [], false⟩
  encodeStateAsUpdate _ _ := some []
  encodeStateVector _ := []
  pendingDs _ := false
  pendingStructs doc := doc
  toUint8Array text := text.toList.map fun c => UInt8.ofNat c.toNat
  fromUint8Array bytes := String.ofList (bytes.map fun b => Char.ofNat b.toNat)

/-- A user is asked, not asked again before the timer has run out, and asked again after it, while
another user is asked on the first change. -/
theorem throttled_two_users : ∃ s t, activate waitingEdit "doc" none 0 = some s ∧
    run (step waitingEdit 3000) s [.call (.applyDiff "a" "u"), .updateOne, .create, .resume,
      .elapse 5, .call (.applyDiff "b" "u"), .create, .updateOne, .resume,
      .call (.applyDiff "c" "v"), .updateOne, .create, .resume, .elapse 3000, .fire "u" 3000,
      .call (.applyDiff "d" "u"), .updateOne, .create, .resume] = some t ∧
    t.answers.map (·.syncNeeded) = [true, false, true, true] ∧ t.Throttled waitingEdit 3000 := by
  obtain ⟨s, t, hactivate, hrun, hanswers⟩ : ∃ s t, activate waitingEdit "doc" none 0 = some s ∧
      run (step waitingEdit 3000) s [.call (.applyDiff "a" "u"), .updateOne, .create, .resume,
        .elapse 5, .call (.applyDiff "b" "u"), .create, .updateOne, .resume,
        .call (.applyDiff "c" "v"), .updateOne, .create, .resume, .elapse 3000, .fire "u" 3000,
        .call (.applyDiff "d" "u"), .updateOne, .create, .resume] = some t ∧
      t.answers.map (·.syncNeeded) = [true, false, true, true] := ⟨_, _, rfl, rfl, rfl⟩
  exact ⟨s, t, hactivate, hrun, hanswers, throttled_run hactivate hrun⟩

end TimedHandler

end AlaFois
