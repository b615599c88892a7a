import Mathlib.Tactic.Common

/-!
# Guarded runs of a partial step function

`run step s as` takes the actions `as` one after the other and fails at the first that
is not enabled. `Guarded` says of the same run that every action is taken in a state
that meets the guard; the induction rule turns a step lemma into a run lemma.
-/

namespace Stepper

variable {σ α : Type*} {step : σ → α → Option σ} {guard : σ → α → Prop}

/-- The state after the actions, if every one of them is enabled in its turn. -/
def run (step : σ → α → Option σ) : σ → List α → Option σ
  | s, [] => some s
  | s, a :: as =>
    match step s a with
    | none => none
    | some s' => run step s' as

/-- Every action of the run is taken in a state that meets the guard. -/
def Guarded (step : σ → α → Option σ) (guard : σ → α → Prop) : σ → List α → Prop
  | _, [] => True
  | s, a :: as =>
    match step s a with
    | none => True
    | some s' => guard s a ∧ Guarded step guard s' as

/-- Guards that can be decided make a concrete run decidable. -/
instance decidableGuarded (step : σ → α → Option σ) (guard : σ → α → Prop)
    [hg : ∀ s a, Decidable (guard s a)] : ∀ s as, Decidable (Guarded step guard s as)
  | _, [] => isTrue trivial
  | s, a :: as =>
    match h : step s a with
    | none => isTrue (by simp [Guarded, h])
    | some s' =>
      have := decidableGuarded step guard s' as
      decidable_of_iff (guard s a ∧ Guarded step guard s' as) (by simp [Guarded, h])

lemma run_cons_eq_some {s s' : σ} {a : α} {as : List α} :
    run step s (a :: as) = some s' ↔ ∃ t, step s a = some t ∧ run step t as = some s' := by
  cases h : step s a <;> simp [run, h]

lemma run_cons {s t : σ} {a : α} (h : step s a = some t) (as : List α) :
    run step s (a :: as) = run step t as := by
  simp [run, h]

lemma exists_step_of_run_cons {s s' : σ} {a : α} {as : List α}
    (h : run step s (a :: as) = some s') : ∃ t, step s a = some t ∧ run step t as = some s' := by
  rwa [run_cons_eq_some] at h

lemma run_append {s t : σ} {as bs : List α} (h : run step s as = some t) :
    run step s (as ++ bs) = run step t bs := by
  induction as generalizing s with
  | nil =>
    cases h
    rfl
  | cons a as ih =>
    obtain ⟨u, hu, hrun⟩ := exists_step_of_run_cons h
    simp [run, hu, ih hrun]

lemma run_initial {s t : σ} {as bs : List α} (h : run step s bs = some t) (hbegin : as <+: bs) :
    ∃ u, run step s as = some u := by
  induction as generalizing s bs with
  | nil => exact ⟨s, rfl⟩
  | cons a as ih =>
    obtain ⟨cs, rfl⟩ := hbegin
    obtain ⟨u, hu, hrun⟩ := exists_step_of_run_cons h
    obtain ⟨v, hv⟩ := ih hrun (List.prefix_append as cs)
    exact ⟨v, (run_cons hu as).trans hv⟩

lemma guarded_cons {s t : σ} {a : α} {as : List α} (h : step s a = some t) :
    Guarded step guard s (a :: as) ↔ guard s a ∧ Guarded step guard t as := by
  simp [Guarded, h]

lemma guarded_append {s t : σ} {as bs : List α} (h : run step s as = some t) :
    Guarded step guard s (as ++ bs) ↔ Guarded step guard s as ∧ Guarded step guard t bs := by
  induction as generalizing s with
  | nil => cases h; simp [Guarded]
  | cons a as ih =>
    obtain ⟨u, hu, hrun⟩ := exists_step_of_run_cons h
    rw [List.cons_append, guarded_cons hu, guarded_cons hu, ih hrun, and_assoc]

lemma guard_of_guarded {s t t' : σ} {as bs : List α} {a : α}
    (h : Guarded step guard s (as ++ a :: bs)) (hrun : run step s as = some t)
    (ht : step t a = some t') : guard t a :=
  ((guarded_cons ht).mp ((guarded_append hrun).mp h).2).1

lemma guarded_of_mem {s : σ} {as : List α} (h : ∀ a ∈ as, ∀ t, guard t a) :
    Guarded step guard s as := by
  induction as generalizing s with
  | nil => trivial
  | cons a as ih =>
    cases ht : step s a with
    | none => simp [Guarded, ht]
    | some t =>
      rw [guarded_cons ht]
      exact ⟨h a List.mem_cons_self s, ih fun b hb => h b (List.mem_cons_of_mem a hb)⟩

/-- What a guarded step preserves, a guarded run preserves. -/
theorem run_invariant (inv : σ → Prop)
    (hstep : ∀ s a s', inv s → guard s a → step s a = some s' → inv s')
    {s s' : σ} {as : List α} (hrun : run step s as = some s')
    (hguard : Guarded step guard s as) (h : inv s) : inv s' := by
  induction as generalizing s with
  | nil => cases hrun; exact h
  | cons a as ih =>
    obtain ⟨t, ht, hrun⟩ := exists_step_of_run_cons hrun
    obtain ⟨hg, hguard⟩ := (guarded_cons ht).mp hguard
    exact ih hrun hguard (hstep s a t h hg ht)

/-- What every step preserves, every run preserves. -/
theorem run_invariant_of_step (inv : σ → Prop)
    (hstep : ∀ s a s', inv s → step s a = some s' → inv s')
    {s s' : σ} {as : List α} (hrun : run step s as = some s') (h : inv s) : inv s' := by
  induction as generalizing s with
  | nil => cases hrun; exact h
  | cons a as ih =>
    obtain ⟨t, ht, hrun⟩ := exists_step_of_run_cons hrun
    exact ih hrun (hstep s a t h ht)

/-- If an action of a kind settles the state and none of the kind is enabled in a settled state,
then a run has at most one action of the kind. -/
theorem eq_of_settles (inv settled : σ → Prop) (settles : α → Prop)
    (hinv : ∀ s a s', inv s → step s a = some s' → inv s')
    (hset : ∀ s a s', inv s → settles a → step s a = some s' → settled s')
    (hstep : ∀ s a s', inv s → settled s → step s a = some s' → settled s' ∧ ¬settles a)
    {s s' : σ} {as : List α} (hrun : run step s as = some s') (h : inv s) {a b : α}
    (ha : a ∈ as) (hb : b ∈ as) (hsa : settles a) (hsb : settles b) : a = b := by
  have hnone : ∀ (as : List α) (s s' : σ), run step s as = some s' → inv s → settled s →
      ∀ c ∈ as, ¬settles c := by
    intro as
    induction as with
    | nil => simp
    | cons a as ih =>
      intro s s' hrun h hs c hc
      obtain ⟨t, ht, hrun⟩ := exists_step_of_run_cons hrun
      obtain ⟨hs', hnot⟩ := hstep s a t h hs ht
      rcases List.mem_cons.mp hc with rfl | hc
      · exact hnot
      · exact ih t s' hrun (hinv s a t h ht) hs' c hc
  induction as generalizing s with
  | nil => cases ha
  | cons c as ih =>
    obtain ⟨t, ht, hrun⟩ := exists_step_of_run_cons hrun
    have htinv := hinv s c t h ht
    by_cases hc : settles c
    · have hafter := hnone as t s' hrun htinv (hset s c t h hc ht)
      rcases List.mem_cons.mp ha with rfl | ha
      · rcases List.mem_cons.mp hb with rfl | hb
        · rfl
        · exact absurd hsb (hafter b hb)
      · exact absurd hsa (hafter a ha)
    · have hane : a ≠ c := fun he => hc (he ▸ hsa)
      have hbne : b ≠ c := fun he => hc (he ▸ hsb)
      exact ih hrun htinv (List.mem_of_ne_of_mem hane ha) (List.mem_of_ne_of_mem hbne hb)

/-- If the guard is exactly what a step needs to keep the invariant, then a run keeps it
throughout exactly when every step meets the guard. Only the actions of a kind are considered. -/
theorem invariant_iff_guarded_of_kind (kind : α → Prop) (wf inv : σ → Prop)
    (hwf : ∀ s a s', kind a → wf s → step s a = some s' → wf s')
    (hstep : ∀ s a s', kind a → wf s → inv s → step s a = some s' → (inv s' ↔ guard s a))
    {s : σ} (as : List α) (hkind : ∀ a ∈ as, kind a) (hs : wf s) (h : inv s) :
    (∀ bs, bs <+: as → ∀ s', run step s bs = some s' → inv s') ↔ Guarded step guard s as := by
  induction as generalizing s with
  | nil =>
    refine iff_of_true (fun bs hbs s' hrun => ?_) trivial
    rw [List.prefix_nil.mp hbs] at hrun
    cases hrun
    exact h
  | cons a as ih =>
    obtain ⟨ha, hrest⟩ := List.forall_mem_cons.mp hkind
    cases ht : step s a with
    | none =>
      refine iff_of_true (fun bs hbs s' hrun => ?_) (by simp [Guarded, ht])
      rcases List.prefix_cons_iff.mp hbs with rfl | ⟨cs, rfl, -⟩
      · cases hrun
        exact h
      · simp [run, ht] at hrun
    | some t =>
      have htwf := hwf s a t ha hs ht
      have hiff := hstep s a t ha hs h ht
      have hrun := run_cons ht
      rw [guarded_cons ht]
      constructor
      · intro hall
        have hinv : inv t := hall [a] (by simp) t (by rw [hrun]; rfl)
        refine ⟨hiff.mp hinv, (ih hrest htwf hinv).mp fun bs hbs s' hbs' => ?_⟩
        exact hall (a :: bs) (by simpa using hbs) s' ((hrun bs).trans hbs')
      · rintro ⟨hg, hguard⟩ bs hbs s' hbs'
        rcases List.prefix_cons_iff.mp hbs with rfl | ⟨cs, rfl, hcs⟩
        · cases hbs'
          exact h
        · exact (ih hrest htwf (hiff.mpr hg)).mpr hguard cs hcs s' ((hrun cs).symm.trans hbs')

/-- The same for all actions. -/
theorem invariant_iff_guarded (wf inv : σ → Prop)
    (hwf : ∀ s a s', wf s → step s a = some s' → wf s')
    (hstep : ∀ s a s', wf s → inv s → step s a = some s' → (inv s' ↔ guard s a))
    {s : σ} (as : List α) (hs : wf s) (h : inv s) :
    (∀ bs, bs <+: as → ∀ s', run step s bs = some s' → inv s') ↔ Guarded step guard s as :=
  invariant_iff_guarded_of_kind (fun _ => True) wf inv (fun s a s' _ => hwf s a s')
    (fun s a s' _ => hstep s a s') as (fun _ _ => trivial) hs h

/-- The same for a property that is not an invariant by itself: a stronger one is kept by the guarded
steps, and a step from it that keeps the property meets the guard. -/
theorem strengthened_iff_guarded (inv good : σ → Prop) (hgood : ∀ s, inv s → good s)
    (hkeep : ∀ s a s', inv s → guard s a → step s a = some s' → inv s')
    (hneed : ∀ s a s', inv s → step s a = some s' → good s' → guard s a)
    {s : σ} (as : List α) (h : inv s) :
    (∀ bs, bs <+: as → ∀ s', run step s bs = some s' → good s') ↔ Guarded step guard s as := by
  constructor
  · induction as generalizing s with
    | nil => exact fun _ => trivial
    | cons a as ih =>
      intro hall
      cases ht : step s a with
      | none => simp [Guarded, ht]
      | some t =>
        have hrun := run_cons ht
        have hg : guard s a := hneed s a t h ht (hall [a] (by simp) t (by rw [hrun]; rfl))
        refine (guarded_cons ht).mpr ⟨hg, ih (hkeep s a t h hg ht) fun bs hbs s' hs' => ?_⟩
        exact hall (a :: bs) (by simpa using hbs) s' ((hrun bs).trans hs')
  · rintro hguard bs ⟨cs, rfl⟩ t hrun
    exact hgood t (run_invariant inv hkeep hrun ((guarded_append hrun).mp hguard).1 h)

/-- A property of the steps of a run: with an invariant that the guard keeps and under which it is
exactly what makes a step good, all steps are good exactly when they all meet the guard. -/
theorem steps_iff_guarded (inv : σ → Prop) (good : σ → α → σ → Prop)
    (hkeep : ∀ s a s', inv s → guard s a → step s a = some s' → inv s')
    (hgood : ∀ s a s', inv s → step s a = some s' → (good s a s' ↔ guard s a))
    {s : σ} (as : List α) (h : inv s) :
    (∀ bs a, bs ++ [a] <+: as → ∀ t t', run step s bs = some t → step t a = some t' →
      good t a t') ↔ Guarded step guard s as := by
  induction as generalizing s with
  | nil =>
    refine iff_of_true (fun bs a hbs => ?_) trivial
    simp at hbs
  | cons b as ih =>
    cases hu : step s b with
    | none =>
      refine iff_of_true (fun bs a hbs t t' hrun ht => ?_) (by simp [Guarded, hu])
      cases bs with
      | nil =>
        cases hrun
        obtain rfl : a = b := by simpa using hbs
        rw [hu] at ht
        cases ht
      | cons c bs =>
        obtain rfl : c = b := (List.cons_prefix_cons.mp hbs).1
        simp [run, hu] at hrun
    | some u =>
      rw [guarded_cons hu]
      constructor
      · intro hall
        have hg : guard s b := (hgood s b u h hu).mp (hall [] b (by simp) s u rfl hu)
        refine ⟨hg, (ih (hkeep s b u h hg hu)).mp fun bs a hbs t t' hrun ht => ?_⟩
        exact hall (b :: bs) a (by simpa using hbs) t t' ((run_cons hu bs).trans hrun) ht
      · rintro ⟨hg, hguard⟩ bs a hbs t t' hrun ht
        cases bs with
        | nil =>
          cases hrun
          obtain rfl : a = b := by simpa using hbs
          exact (hgood s a t' h ht).mpr hg
        | cons c bs =>
          obtain ⟨rfl, hrest⟩ := List.cons_prefix_cons.mp hbs
          obtain ⟨v, hv, hrun⟩ := exists_step_of_run_cons hrun
          cases hu.symm.trans hv
          exact (ih (hkeep s c u h hg hu)).mpr hguard bs a hrest t t' hrun ht

/-- If a step keeps the invariant exactly when it had it and meets the guard, then at the end of a
run it holds exactly when it held at the start and every step has met the guard. The steps are those
that are regular. -/
theorem kept_iff_guarded (wf inv : σ → Prop) (regular : σ → α → Prop)
    (hwf : ∀ s a s', wf s → regular s a → step s a = some s' → wf s')
    (hstep : ∀ s a s', wf s → regular s a → step s a = some s' → (inv s' ↔ inv s ∧ guard s a))
    {s s' : σ} {as : List α} (hrun : run step s as = some s')
    (hregular : Guarded step regular s as) (hs : wf s) :
    inv s' ↔ inv s ∧ Guarded step guard s as := by
  induction as generalizing s with
  | nil =>
    cases hrun
    exact (and_iff_left trivial).symm
  | cons a as ih =>
    obtain ⟨t, ht, hrun⟩ := exists_step_of_run_cons hrun
    obtain ⟨ha, hregular⟩ := (guarded_cons ht).mp hregular
    rw [ih hrun hregular (hwf s a t hs ha ht), hstep s a t hs ha ht, guarded_cons ht, and_assoc]

/-- If a step that does not meet the guard dooms the state, and a doomed state stays doomed until
the invariant fails, then a run that keeps the invariant and does not end doomed is guarded. -/
theorem guarded_of_not_doomed (wf inv doomed : σ → Prop)
    (hwf : ∀ s a s', wf s → step s a = some s' → wf s')
    (hbreak : ∀ s a s', wf s → ¬guard s a → step s a = some s' → doomed s')
    (hdoomed : ∀ s a s', wf s → doomed s → step s a = some s' → doomed s' ∨ ¬inv s')
    {s s' : σ} {as : List α} (hrun : run step s as = some s') (hend : ¬doomed s') (hs : wf s)
    (hinv : ∀ bs, bs <+: as → ∀ t, run step s bs = some t → inv t) :
    Guarded step guard s as := by
  have hstays : ∀ (as : List α) (s : σ), run step s as = some s' → wf s → doomed s →
      ¬∀ bs, bs <+: as → ∀ t, run step s bs = some t → inv t := by
    intro as
    induction as with
    | nil =>
      intro s hrun _ hd
      cases hrun
      exact absurd hd hend
    | cons a as ih =>
      intro s hrun hs hd hinv
      obtain ⟨t, ht, hrun⟩ := exists_step_of_run_cons hrun
      rcases hdoomed s a t hs hd ht with hd' | hnot
      · refine ih t hrun (hwf s a t hs ht) hd' fun bs hbs u hu => ?_
        exact hinv (a :: bs) (by simpa using hbs) u ((run_cons ht bs).trans hu)
      · exact hnot (hinv [a] (by simp) t (run_cons ht []))
  induction as generalizing s with
  | nil => trivial
  | cons a as ih =>
    obtain ⟨t, ht, hrun⟩ := exists_step_of_run_cons hrun
    have hrest : ∀ bs, bs <+: as → ∀ u, run step t bs = some u → inv u := fun bs hbs u hu =>
      hinv (a :: bs) (by simpa using hbs) u ((run_cons ht bs).trans hu)
    refine (guarded_cons ht).mpr ⟨?_, ih hrun (hwf s a t hs ht) hrest⟩
    by_contra hg
    exact hstays as t hrun (hwf s a t hs ht) (hbreak s a t hs hg ht) hrest

/-- A guard that keeps an invariant under which it implies another one. -/
lemma guarded_mono {guard' : σ → α → Prop} (inv : σ → Prop)
    (hinv : ∀ s a s', inv s → guard s a → step s a = some s' → inv s')
    (hguard : ∀ s a s', inv s → guard s a → step s a = some s' → guard' s a)
    {s : σ} {as : List α} (h : inv s) (hg : Guarded step guard s as) :
    Guarded step guard' s as := by
  induction as generalizing s with
  | nil => trivial
  | cons a as ih =>
    cases ht : step s a with
    | none => simp [Guarded, ht]
    | some t =>
      obtain ⟨ha, hrest⟩ := (guarded_cons ht).mp hg
      exact (guarded_cons ht).mpr ⟨hguard s a t h ha ht, ih (hinv s a t h ha ht) hrest⟩

/-- Guards that agree on every step from a state of a run agree on the run. -/
lemma guarded_congr {guard' : σ → α → Prop} (inv : σ → Prop)
    (kind : α → Prop) (hinv : ∀ s a s', kind a → inv s → step s a = some s' → inv s')
    (hguard : ∀ s a s', kind a → inv s → step s a = some s' → (guard s a ↔ guard' s a))
    {s : σ} {as : List α} (hkind : ∀ a ∈ as, kind a) (h : inv s) :
    Guarded step guard s as ↔ Guarded step guard' s as := by
  induction as generalizing s with
  | nil => exact Iff.rfl
  | cons a as ih =>
    obtain ⟨ha, hrest⟩ := List.forall_mem_cons.mp hkind
    cases ht : step s a with
    | none => simp [Guarded, ht]
    | some t =>
      rw [guarded_cons ht, guarded_cons ht, hguard s a t ha h ht, ih hrest (hinv s a t ha h ht)]

/-- Where each step is some steps of another system on the view of the state, each run is a run of that
system. -/
theorem run_refines {τ β : Type*} {step' : τ → β → Option τ} (view : σ → τ) (acts : α → List β)
    (inv : σ → Prop) (hinv : ∀ s a s', inv s → step s a = some s' → inv s')
    (hsim : ∀ s a s', inv s → step s a = some s' →
      run step' (view s) (acts a) = some (view s'))
    {s s' : σ} {as : List α} (hrun : run step s as = some s') (h : inv s) :
    run step' (view s) (as.flatMap acts) = some (view s') := by
  induction as generalizing s with
  | nil =>
    cases hrun
    rfl
  | cons a as ih =>
    obtain ⟨t, ht, hrun⟩ := exists_step_of_run_cons hrun
    rw [List.flatMap_cons, run_append (hsim s a t h ht)]
    exact ih hrun (hinv s a t h ht)

end Stepper
