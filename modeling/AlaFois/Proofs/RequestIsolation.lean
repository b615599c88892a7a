import AlaFois.Proofs.StorageMemoize

/-!
# Requests do not see each other

What the calls of a request find, run and return is what they would if there were no other request:
whatever else goes wrong, no call returns a value that was computed for another one.
-/

namespace AlaFois

open Stepper

variable {R M : Type*} [DecidableEq R]

/-! ### The stores -/

namespace AsyncStorageService

variable {storage : AsyncStorageService R} {r r' : R}

/-- The store of one request. -/
def only (r : R) (storage : AsyncStorageService R) : AsyncStorageService R :=
  ⟨fun r' => if r' = r then storage.asyncStore r' else none⟩

lemma getData_only (k : StorageKey) : (storage.only r).getData r k = storage.getData r k := by
  simp [getData, getStore, only]

lemma only_update (store : Option (JsMap StorageKey JsValue)) :
    only r ⟨Function.update storage.asyncStore r store⟩ =
      ⟨Function.update (storage.only r).asyncStore r store⟩ := by
  simp only [only, mk.injEq]
  funext r'
  by_cases hr : r' = r
  · subst hr
    simp
  · simp [hr]

lemma only_update_ne (hr : r' ≠ r) (store : Option (JsMap StorageKey JsValue)) :
    only r ⟨Function.update storage.asyncStore r' store⟩ = storage.only r := by
  simp only [only, mk.injEq]
  funext r''
  by_cases hr' : r'' = r
  · subst hr'
    simp [Ne.symm hr]
  · simp [hr']

lemma setData_only (k : StorageKey) (v : JsValue) :
    (storage.only r).setData r k v = (storage.setData r k v).map (only r) := by
  unfold setData getStore
  have hstore : (storage.only r).asyncStore r = storage.asyncStore r := if_pos rfl
  rw [hstore]
  cases storage.asyncStore r with
  | none => rfl
  | some store => exact congrArg Except.ok (only_update (some (store.set k v))).symm

lemma only_of_setData {k : StorageKey} {v : JsValue} {storage' : AsyncStorageService R}
    (hr : r' ≠ r) (h : storage.setData r' k v = .ok storage') :
    storage'.only r = storage.only r := by
  unfold setData at h
  split at h
  · cases h
  · cases h
    exact only_update_ne hr _

end AsyncStorageService

namespace StorageMemoize

variable {key : M → StorageKey} {s t : StorageMemoize R M} {a : MemoizeAction R M} {r r' : R} {m : M}

/-- What there is of one request. -/
def only (r : R) (s : StorageMemoize R M) : StorageMemoize R M where
  storage := s.storage.only r
  original := s.original
  frames := s.frames.filter fun frame => frame.request = r
  calls r' m := if r' = r then s.calls r' m else ⟨0, [], []⟩

/-- The request in which something is done, if it is done in one. -/
def requestOf : MemoizeAction R M → Option R
  | .use r _ _ | .setData r _ _ | .call r _ | .returned r _ | .thrown r => some r
  | .disableMemoize _ => none

lemma only_init : (init : StorageMemoize R M).only r = init := by
  simp [only, init, AsyncStorageService.only]

/-! ### Steps of the request -/

lemma only_pop {frame : MethodFrame R M} {frames : List (MethodFrame R M)}
    (hframes : s.frames = frame :: frames) (hr : frame.request = r) :
    (s.only r).frames = frame :: ({ s with frames := frames }.only r).frames := by
  simp [only, hframes, hr]

lemma only_pop_ne {frame : MethodFrame R M} {frames : List (MethodFrame R M)}
    (hframes : s.frames = frame :: frames) (hr : frame.request ≠ r) :
    { s with frames := frames }.only r = s.only r := by
  simp [only, hframes, hr]

variable [DecidableEq M]

lemma only_record (f : MethodCalls → MethodCalls) :
    (s.record r m f).only r = (s.only r).record r m f := by
  simp only [only, record, StorageMemoize.mk.injEq, true_and]
  funext r' m'
  by_cases hr : r' = r <;> simp [hr]

lemma only_record_ne (hr : r' ≠ r) (f : MethodCalls → MethodCalls) :
    (s.record r' m f).only r = s.only r := by
  simp only [only, record, StorageMemoize.mk.injEq, true_and]
  funext r'' m'
  by_cases hr' : r'' = r
  · subst hr'
    simp [Ne.symm hr]
  · simp [hr']

lemma only_apply (memoized : Bool) :
    (s.apply r m memoized).only r = (s.only r).apply r m memoized := by
  rw [apply, only_record, apply]
  simp [only]

lemma only_apply_ne (hr : r' ≠ r) (memoized : Bool) :
    (s.apply r' m memoized).only r = s.only r := by
  rw [apply, only_record_ne hr]
  simp [only, hr]

lemma memoizer_only : (s.only r).memoizer key r m = (s.memoizer key r m).map (only r) := by
  have hget : (s.only r).storage.getData r (key m) = s.storage.getData r (key m) :=
    AsyncStorageService.getData_only (key m)
  have horig : (s.only r).original m = s.original m := rfl
  unfold memoizer
  rw [hget, horig]
  cases s.original m with
  | true => exact congrArg Except.ok (only_apply false).symm
  | false =>
    cases s.storage.getData r (key m) with
    | error e => rfl
    | ok v =>
      cases hv : v.truthy with
      | true =>
        simp only [hv, Bool.false_eq_true, if_true, if_false]
        exact congrArg Except.ok (only_record _).symm
      | false =>
        simp only [hv, Bool.false_eq_true, if_false]
        exact congrArg Except.ok (only_apply true).symm

lemma applied_only {frame : MethodFrame R M} (hr : frame.request = r) (value : JsValue) :
    (s.only r).applied key frame value = (s.applied key frame value).map (only r) := by
  subst hr
  unfold applied
  cases frame.memoized with
  | true =>
    have hset : (s.only frame.request).storage.setData frame.request (key frame.method) value =
        (s.storage.setData frame.request (key frame.method) value).map
          (AsyncStorageService.only frame.request) :=
      AsyncStorageService.setData_only _ value
    rw [if_pos rfl, if_pos rfl, hset]
    cases s.storage.setData frame.request (key frame.method) value with
    | error e => rfl
    | ok storage =>
      refine congrArg Except.ok (Eq.symm ?_)
      exact only_record _
  | false => exact congrArg Except.ok (only_record _).symm

/-- What is done in the request does the same when there is no other one. -/
lemma only_step (hr : requestOf a = some r ∨ requestOf a = none) (ht : s.step key a = some t) :
    (s.only r).step key a = some (t.only r) := by
  cases a with
  | use r' req res =>
    obtain rfl : r' = r := by simpa [requestOf] using hr
    simp only [step, Option.ite_none_left_eq_some, Option.some.injEq] at ht ⊢
    obtain ⟨hnone, rfl⟩ := ht
    refine ⟨by simpa [only, AsyncStorageService.only] using hnone, ?_⟩
    simp only [only, StorageMemoize.mk.injEq, and_true]
    exact (AsyncStorageService.only_update _).symm
  | setData r' k v =>
    obtain rfl : r' = r := by simpa [requestOf] using hr
    have hset : (s.only r').storage.setData r' k v =
        (s.storage.setData r' k v).map (AsyncStorageService.only r') :=
      AsyncStorageService.setData_only k v
    simp only [step] at ht ⊢
    rw [hset]
    cases hstep : s.storage.setData r' k v with
    | error e =>
      simp only [hstep] at ht
      cases ht
      rfl
    | ok storage =>
      simp only [hstep] at ht
      cases ht
      rfl
  | call r' m =>
    obtain rfl : r' = r := by simpa [requestOf] using hr
    simp only [step] at ht ⊢
    rw [memoizer_only]
    cases hmemo : s.memoizer key r' m with
    | error e =>
      simp only [hmemo] at ht
      cases ht
      rfl
    | ok u =>
      simp only [hmemo] at ht
      cases ht
      rfl
  | returned r' value =>
    obtain rfl : r' = r := by simpa [requestOf] using hr
    obtain ⟨frame, frames, hframes, rfl, hend⟩ := step_returned ht
    have happ : (({ s with frames := frames }.ran frame.request frame.method value).only
        frame.request).applied key frame value =
          (({ s with frames := frames }.ran frame.request frame.method value).applied key frame
            value).map (only frame.request) := applied_only rfl value
    have hran : ({ s with frames := frames }.ran frame.request frame.method value).only
        frame.request = { s.only frame.request with
          frames := ({ s with frames := frames }.only frame.request).frames }.ran frame.request
            frame.method value := only_record _
    rw [hran] at happ
    simp only [step, only_pop hframes rfl, if_true]
    rw [happ]
    rcases hend with ⟨e, herr, rfl⟩ | hok
    · rw [herr]
      exact congrArg some hran.symm
    · rw [hok]
      rfl
  | thrown r' =>
    obtain rfl : r' = r := by simpa [requestOf] using hr
    obtain ⟨frame, frames, hframes, rfl, rfl⟩ := step_thrown ht
    simp only [step, only_pop hframes rfl, if_true]
    rfl
  | disableMemoize m =>
    cases ht
    rfl

/-! ### Steps of the other requests -/

/-- What is done in another request leaves what there is of this one. -/
lemma only_step_ne (hr : requestOf a = some r') (hne : r' ≠ r) (ht : s.step key a = some t) :
    t.only r = s.only r := by
  cases a with
  | use r₁ req res =>
    obtain rfl : r₁ = r' := Option.some.inj hr
    simp only [step, Option.ite_none_left_eq_some, Option.some.injEq] at ht
    obtain ⟨-, rfl⟩ := ht
    simp only [only, StorageMemoize.mk.injEq, and_true]
    exact AsyncStorageService.only_update_ne hne _
  | setData r₁ k v =>
    obtain rfl : r₁ = r' := Option.some.inj hr
    simp only [step] at ht
    split at ht
    · cases ht
      rfl
    · rename_i storage hset
      cases ht
      simp only [only, StorageMemoize.mk.injEq, and_true]
      exact AsyncStorageService.only_of_setData hne hset
  | call r₁ m =>
    obtain rfl : r₁ = r' := Option.some.inj hr
    rcases step_call ht with ⟨-, rfl⟩ | ⟨-, ⟨e, -, rfl⟩ | ⟨v, -, ⟨-, rfl⟩ | ⟨-, rfl⟩⟩⟩
    · exact only_apply_ne hne false
    · rfl
    · exact only_record_ne hne _
    · exact only_apply_ne hne true
  | returned r₁ value =>
    obtain rfl : r₁ = r' := Option.some.inj hr
    obtain ⟨frame, frames, hframes, rfl, ⟨e, -, rfl⟩ | happ⟩ := step_returned ht
    · exact (only_record_ne hne _).trans (only_pop_ne hframes hne)
    · obtain ⟨storage, rfl, hset⟩ := applied_eq_ok happ
      refine (only_record_ne hne _).trans ?_
      have hran : ({ s with frames := frames }.ran frame.request frame.method value).only r =
          s.only r := (only_record_ne hne _).trans (only_pop_ne hframes hne)
      rw [← hran]
      simp only [only, StorageMemoize.mk.injEq, and_true]
      rcases hset with ⟨-, hset⟩ | ⟨-, rfl⟩
      · exact AsyncStorageService.only_of_setData hne hset
      · rfl
  | thrown r₁ =>
    obtain rfl : r₁ = r' := Option.some.inj hr
    obtain ⟨frame, frames, hframes, rfl, rfl⟩ := step_thrown ht
    exact only_pop_ne hframes hne
  | disableMemoize m => cases hr

lemma only_run (r : R) {as : List (MemoizeAction R M)} (hrun : run (step key) s as = some t) :
    run (step key) (s.only r) (as.filter fun a => (requestOf a).all (· = r)) =
      some (t.only r) := by
  induction as generalizing s with
  | nil =>
    cases hrun
    rfl
  | cons a as ih =>
    obtain ⟨u, hu, hrun⟩ := run_cons_eq_some.mp hrun
    cases hreq : requestOf a with
    | none =>
      rw [List.filter_cons_of_pos (by simp [hreq])]
      exact run_cons_eq_some.mpr ⟨_, only_step (Or.inr hreq) hu, ih hrun⟩
    | some r' =>
      by_cases hr : r' = r
      · subst hr
        rw [List.filter_cons_of_pos (by simp [hreq])]
        exact run_cons_eq_some.mpr ⟨_, only_step (Or.inl hreq) hu, ih hrun⟩
      · rw [List.filter_cons_of_neg (by simpa [hreq] using hr), ← only_step_ne hreq hr hu]
        exact ih hrun

/-- In every run, what there is of a request is what there would be if only this request had done
anything: the values its calls return are those of its own methods. -/
theorem request_alone (r : R) {as : List (MemoizeAction R M)}
    (hrun : run (step key) init as = some t) :
    run (step key) init (as.filter fun a => (requestOf a).all (· = r)) = some (t.only r) := by
  have honly := only_run r hrun
  rwa [only_init] at honly

end StorageMemoize

end AlaFois
