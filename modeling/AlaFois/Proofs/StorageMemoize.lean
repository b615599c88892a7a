import AlaFois.Lib.Stepper
import AlaFois.Model.StorageMemoize

/-!
# One run for a request

A result is found again only if it counts as true, so a method runs again after it has returned
`null`, `0` or an empty text, after it has thrown, and in the middle of its own run.
-/

namespace AlaFois

open Stepper

namespace StorageMemoize

variable {R M : Type*} [DecidableEq R] [DecidableEq M] {key : M → StorageKey}
  {s t : StorageMemoize R M} {a : MemoizeAction R M} {r : R} {m : M}

/-- In a request a method is started once, and every call returns the value of this run. -/
def RunsOnce (s : StorageMemoize R M) : Prop :=
  ∀ r m, s.original m = false →
    (s.calls r m).started ≤ 1 ∧ ∀ v ∈ (s.calls r m).returned, (s.calls r m).ran = [v]

/-- The first call finds nothing that counts as true, and a later one the value of the one run, which
counts as true. -/
def Found (key : M → StorageKey) (s : StorageMemoize R M) : MemoizeAction R M → Prop
  | .call r m => s.original m = false → ∀ storedValue,
      s.storage.getData r (key m) = .ok storedValue →
        if (s.calls r m).started = 0 then storedValue.truthy = false
        else storedValue.truthy = true ∧ (s.calls r m).ran = [storedValue]
  | _ => True

/-- A later call comes after the one run has returned a value that counts as true. -/
def HasValue (s : StorageMemoize R M) : MemoizeAction R M → Prop
  | .call r m => s.original m = false → (s.calls r m).started = 0 ∨
      ∃ v, (s.calls r m).ran = [v] ∧ v.truthy = true
  | _ => True

/-- The runs of a method in a request that have not ended. -/
def pending (s : StorageMemoize R M) (r : R) (m : M) : Nat :=
  s.frames.countP fun f => f.request = r ∧ f.method = m

/-- Every run that goes on or has returned was started. -/
def Counted (s : StorageMemoize R M) : Prop :=
  ∀ r m, s.pending r m + (s.calls r m).ran.length ≤ (s.calls r m).started

/-! ### Steps -/

lemma step_call (ht : s.step key (.call r m) = some t) :
    (s.original m = true ∧ t = s.apply r m false) ∨ (s.original m = false ∧
      ((∃ e, s.storage.getData r (key m) = .error e ∧ t = s) ∨
        ∃ v, s.storage.getData r (key m) = .ok v ∧
          ((v.truthy = true ∧ t = s.returns r m v) ∨
            (v.truthy = false ∧ t = s.apply r m true)))) := by
  simp only [step, memoizer] at ht
  cases horig : s.original m with
  | true =>
    simp only [horig, if_true, Option.some.injEq] at ht
    exact Or.inl ⟨rfl, ht.symm⟩
  | false =>
    refine Or.inr ⟨rfl, ?_⟩
    cases hget : s.storage.getData r (key m) with
    | error e =>
      simp only [horig, hget] at ht
      exact Or.inl ⟨e, rfl, (Option.some.inj ht).symm⟩
    | ok v =>
      refine Or.inr ⟨v, rfl, ?_⟩
      cases hv : v.truthy with
      | true =>
        simp only [horig, hget, hv, if_true, Bool.false_eq_true, if_false] at ht
        exact Or.inl ⟨rfl, (Option.some.inj ht).symm⟩
      | false =>
        simp only [horig, hget, hv, Bool.false_eq_true, if_false] at ht
        exact Or.inr ⟨rfl, (Option.some.inj ht).symm⟩

lemma step_returned {value : JsValue} (ht : s.step key (.returned r value) = some t) :
    ∃ frame frames, s.frames = frame :: frames ∧ frame.request = r ∧
      ((∃ e, ({ s with frames := frames }.ran r frame.method value).applied key frame value =
          .error e ∧ t = { s with frames := frames }.ran r frame.method value) ∨
        ({ s with frames := frames }.ran r frame.method value).applied key frame value = .ok t) := by
  simp only [step] at ht
  split at ht
  · cases ht
  · rename_i frame frames hframes
    split at ht
    · rename_i hr
      refine ⟨frame, frames, hframes, hr, ?_⟩
      split at ht
      · rename_i e he
        exact Or.inl ⟨e, he, (Option.some.inj ht).symm⟩
      · rename_i u hu
        cases ht
        exact Or.inr hu
    · cases ht

lemma step_thrown (ht : s.step key (.thrown r) = some t) :
    ∃ frame frames, s.frames = frame :: frames ∧ frame.request = r ∧
      t = { s with frames := frames } := by
  simp only [step] at ht
  split at ht
  · cases ht
  · rename_i frame frames hframes
    simp only [Option.ite_none_right_eq_some, Option.some.injEq] at ht
    exact ⟨frame, frames, hframes, ht.1, ht.2.symm⟩

omit [DecidableEq R] in
/-- A method that is not disabled now was not disabled before. -/
lemma original_of_disableMemoize {m' : M} (horig : Function.update s.original m true m' = false) :
    s.original m' = false := by
  by_cases hm : m' = m
  · simp [hm] at horig
  · exact (Function.update_of_ne hm true s.original).symm.trans horig

/-- Where a method has returned, its value is kept unless it was called not to be. -/
lemma applied_eq_ok {frame : MethodFrame R M} {value : JsValue}
    (h : s.applied key frame value = .ok t) :
    ∃ storage, t = { s with storage := storage }.returns frame.request frame.method value ∧
      ((frame.memoized = true ∧
          s.storage.setData frame.request (key frame.method) value = .ok storage) ∨
        (frame.memoized = false ∧ storage = s.storage)) := by
  unfold applied at h
  cases hmemo : frame.memoized with
  | true =>
    simp only [hmemo, if_true] at h
    split at h
    · cases h
    · rename_i storage hset
      cases h
      exact ⟨storage, rfl, Or.inl ⟨rfl, hset⟩⟩
  | false =>
    simp only [hmemo, Bool.false_eq_true, if_false] at h
    cases h
    exact ⟨s.storage, rfl, Or.inr ⟨rfl, rfl⟩⟩

lemma applied_eq_error {frame : MethodFrame R M} {value : JsValue} {e : String}
    (h : s.applied key frame value = .error e) :
    frame.memoized = true ∧ s.storage.getStore frame.request = .error e := by
  unfold applied AsyncStorageService.setData at h
  split at h
  · rename_i hmemo
    refine ⟨hmemo, ?_⟩
    cases hstore : s.storage.getStore frame.request with
    | error e' =>
      simp only [hstore] at h
      cases h
      rfl
    | ok store =>
      simp only [hstore] at h
      cases h
  · cases h

/-! ### What the calls have done -/

/-- The calls of one method in one request change, and perhaps the frames; the rest is as before. -/
lemma calls_record (f : MethodCalls → MethodCalls) (r' : R) (m' : M) :
    (s.record r m f).calls r' m' =
      if r' = r ∧ m' = m then f (s.calls r' m') else s.calls r' m' := rfl

lemma pending_cons (frame : MethodFrame R M) (frames : List (MethodFrame R M))
    (h : s.frames = frame :: frames) (r : R) (m : M) :
    s.pending r m = { s with frames := frames }.pending r m +
      if frame.request = r ∧ frame.method = m then 1 else 0 := by
  simp [pending, h, List.countP_cons]

lemma Counted.apply (h : s.Counted) (r : R) (m : M) (memoized : Bool) :
    (s.apply r m memoized).Counted := by
  intro r' m'
  have hold := h r' m'
  have hnew : (s.apply r m memoized).pending r' m' =
      s.pending r' m' + if r = r' ∧ m = m' then 1 else 0 := by
    simp [pending, StorageMemoize.apply, record, List.countP_cons]
  rw [hnew, StorageMemoize.apply, calls_record]
  by_cases he : r' = r ∧ m' = m
  · obtain ⟨rfl, rfl⟩ := he
    simp only [and_self, if_true]
    omega
  · rw [if_neg he, if_neg fun h => he ⟨h.1.symm, h.2.symm⟩]
    exact hold

lemma Counted.returns (h : s.Counted) (r : R) (m : M) (v : JsValue) : (s.returns r m v).Counted := by
  intro r' m'
  rw [StorageMemoize.returns, calls_record]
  split
  · exact h r' m'
  · exact h r' m'

/-- The innermost method has returned. -/
lemma Counted.ran {frame : MethodFrame R M} {frames : List (MethodFrame R M)} (h : s.Counted)
    (hframes : s.frames = frame :: frames) (v : JsValue) :
    ({ s with frames := frames }.ran frame.request frame.method v).Counted := by
  intro r' m'
  have hold := h r' m'
  rw [pending_cons frame frames hframes] at hold
  rw [StorageMemoize.ran, calls_record]
  by_cases he : r' = frame.request ∧ m' = frame.method
  · obtain ⟨rfl, rfl⟩ := he
    rw [if_pos ⟨rfl, rfl⟩] at hold ⊢
    simp only [List.length_append, List.length_singleton]
    change { s with frames := frames }.pending _ _ + _ ≤ _
    omega
  · rw [if_neg he]
    change { s with frames := frames }.pending _ _ + (s.calls r' m').ran.length ≤
      (s.calls r' m').started
    omega

lemma Counted.step (h : s.Counted) (ht : s.step key a = some t) : t.Counted := by
  cases a with
  | use r req res =>
    simp only [StorageMemoize.step, Option.ite_none_left_eq_some, Option.some.injEq] at ht
    obtain ⟨-, rfl⟩ := ht
    exact h
  | setData r k value =>
    simp only [StorageMemoize.step] at ht
    split at ht <;> cases ht <;> exact h
  | call r m =>
    rcases step_call ht with ⟨-, rfl⟩ | ⟨-, ⟨e, -, rfl⟩ | ⟨v, -, ⟨-, rfl⟩ | ⟨-, rfl⟩⟩⟩
    · exact h.apply r m false
    · exact h
    · exact h.returns r m v
    · exact h.apply r m true
  | returned r value =>
    obtain ⟨frame, frames, hframes, rfl, ⟨e, -, rfl⟩ | happ⟩ := step_returned ht
    · exact h.ran hframes value
    · obtain ⟨storage, rfl, -⟩ := applied_eq_ok happ
      exact (h.ran hframes value).returns frame.request frame.method value
  | thrown r =>
    obtain ⟨frame, frames, hframes, -, rfl⟩ := step_thrown ht
    intro r' m'
    have hold := h r' m'
    rw [pending_cons frame frames hframes] at hold
    change { s with frames := frames }.pending _ _ + (s.calls r' m').ran.length ≤
      (s.calls r' m').started
    omega
  | disableMemoize m =>
    cases ht
    exact h

/-! ### One run -/

/-- While the one run goes on, it has returned nothing, and nor has a call. -/
lemma RunsOnce.of_frame {frame : MethodFrame R M} {frames : List (MethodFrame R M)} (h : s.RunsOnce)
    (hc : s.Counted) (hframes : s.frames = frame :: frames)
    (horig : s.original frame.method = false) :
    (s.calls frame.request frame.method).ran = [] ∧
      (s.calls frame.request frame.method).returned = [] := by
  have hcount := hc frame.request frame.method
  rw [pending_cons frame frames hframes, if_pos ⟨rfl, rfl⟩] at hcount
  obtain ⟨hone, hret⟩ := h frame.request frame.method horig
  have hran : (s.calls frame.request frame.method).ran = [] :=
    List.length_eq_zero_iff.mp (by omega)
  refine ⟨hran, List.eq_nil_iff_forall_not_mem.mpr fun v hv => ?_⟩
  have hval := hret v hv
  rw [hran] at hval
  cases hval

/-- What happens in the calls of a method that is disabled does not matter. -/
lemma RunsOnce.record (h : s.RunsOnce) (r : R) (m : M) (f : MethodCalls → MethodCalls)
    (hf : s.original m = false → (f (s.calls r m)).started ≤ 1 ∧
      ∀ v ∈ (f (s.calls r m)).returned, (f (s.calls r m)).ran = [v]) :
    (s.record r m f).RunsOnce := by
  intro r' m' horig
  rw [calls_record]
  split
  · rename_i he
    obtain ⟨rfl, rfl⟩ := he
    exact hf horig
  · exact h r' m' horig

lemma RunsOnce.apply (h : s.RunsOnce) (r : R) (m : M) (memoized : Bool)
    (hnew : s.original m = false → (s.calls r m).started = 0) :
    (s.apply r m memoized).RunsOnce := by
  have hframes : { s with frames := ⟨r, m, memoized⟩ :: s.frames }.RunsOnce := h
  refine hframes.record r m _ fun horig => ⟨?_, (h r m horig).2⟩
  exact Nat.le_of_eq (congrArg Nat.succ (hnew horig))

lemma RunsOnce.returns (h : s.RunsOnce) (r : R) (m : M) (v : JsValue)
    (hran : s.original m = false → (s.calls r m).ran = [v]) : (s.returns r m v).RunsOnce := by
  refine h.record r m _ fun horig => ⟨(h r m horig).1, fun w hw => ?_⟩
  rcases List.mem_append.mp hw with hold | hnew
  · exact (h r m horig).2 w hold
  · rw [List.mem_singleton.mp hnew]
    exact hran horig

lemma RunsOnce.ran {frame : MethodFrame R M} {frames : List (MethodFrame R M)} (h : s.RunsOnce)
    (hc : s.Counted) (hframes : s.frames = frame :: frames) (v : JsValue) :
    ({ s with frames := frames }.ran frame.request frame.method v).RunsOnce := by
  have hpop : { s with frames := frames }.RunsOnce := h
  refine hpop.record _ _ _ fun horig => ⟨(h _ _ horig).1, fun w hw => ?_⟩
  have hnone : (s.calls frame.request frame.method).returned = [] :=
    (h.of_frame hc hframes horig).2
  change w ∈ (s.calls frame.request frame.method).returned at hw
  rw [hnone] at hw
  cases hw

lemma RunsOnce.step (h : s.RunsOnce) (hc : s.Counted) (hfound : s.Found key a)
    (ht : s.step key a = some t) : t.RunsOnce := by
  cases a with
  | use r req res =>
    simp only [StorageMemoize.step, Option.ite_none_left_eq_some, Option.some.injEq] at ht
    obtain ⟨-, rfl⟩ := ht
    exact h
  | setData r k value =>
    simp only [StorageMemoize.step] at ht
    split at ht <;> cases ht <;> exact h
  | call r m =>
    rcases step_call ht with ⟨hdis, rfl⟩ | ⟨horig, ⟨e, -, rfl⟩ | ⟨v, hget, hv⟩⟩
    · exact h.apply r m false fun horig => absurd hdis (by simp [horig])
    · exact h
    · have hslot := hfound horig v hget
      rcases hv with ⟨htrue, rfl⟩ | ⟨hfalse, rfl⟩
      · split at hslot
        · simp [htrue] at hslot
        · exact h.returns r m v fun _ => hslot.2
      · split at hslot
        · rename_i hnew
          exact h.apply r m true fun _ => hnew
        · simp [hfalse] at hslot
  | returned r value =>
    obtain ⟨frame, frames, hframes, rfl, ⟨e, -, rfl⟩ | happ⟩ := step_returned ht
    · exact h.ran hc hframes value
    · obtain ⟨storage, rfl, -⟩ := applied_eq_ok happ
      refine (h.ran hc hframes value).returns _ _ _ fun horig => ?_
      have hnone := (h.of_frame hc hframes horig).1
      simp [StorageMemoize.ran, StorageMemoize.record, hnone]
  | thrown r =>
    obtain ⟨frame, frames, -, -, rfl⟩ := step_thrown ht
    exact h
  | disableMemoize m =>
    cases ht
    exact fun r' m' horig => h r' m' (original_of_disableMemoize horig)

/-- A call that finds something else runs the method again or returns what is not its own. -/
lemma found_of_runsOnce (hc : s.Counted) (ht : s.step key a = some t) (hone : t.RunsOnce) :
    s.Found key a := by
  cases a with
  | call r m =>
    intro horig v hget
    rcases step_call ht with ⟨hdis, -⟩ | ⟨-, ⟨e, herr, -⟩ | ⟨w, hget', hv⟩⟩
    · simp [horig] at hdis
    · cases hget.symm.trans herr
    · cases hget.symm.trans hget'
      rcases hv with ⟨htrue, rfl⟩ | ⟨hfalse, rfl⟩
      · have hval : (s.calls r m).ran = [v] := by
          have hret := (hone r m horig).2 v
          simp only [returns, calls_record] at hret
          simpa using hret
        have hcount := hc r m
        rw [hval, List.length_singleton] at hcount
        rw [if_neg (by omega)]
        exact ⟨htrue, hval⟩
      · have hstarted : (s.calls r m).started + 1 ≤ 1 := by
          have hstart := (hone r m horig).1
          simpa [apply, record] using hstart
        rw [if_pos (by omega)]
        exact hfalse
  | use | setData | returned | thrown | disableMemoize => trivial

/-! ### Keys of one method -/

/-- Every method has a key of its own. -/
structure OwnKey (key : M → StorageKey) : Prop where
  injective : Function.Injective key
  request : ∀ m, key m ≠ .REQ_KEY ∧ key m ≠ .RES_KEY

/-- Other code keeps nothing under the key of a method. -/
def OtherKey (key : M → StorageKey) : MemoizeAction R M → Prop
  | .setData _ k _ => ∀ m, key m ≠ k
  | _ => True

/-- In the store is what the last run has returned. -/
structure Kept (key : M → StorageKey) (s : StorageMemoize R M) : Prop where
  counted : s.Counted
  stored : ∀ r m, s.original m = false →
    (s.storage.asyncStore r).bind (·.get (key m)) = (s.calls r m).ran.getLast?
  memoized : ∀ frame ∈ s.frames, s.original frame.method = false → frame.memoized = true
  present : ∀ r m, s.original m = false → (s.calls r m).started ≠ 0 →
    (s.storage.asyncStore r).isSome

lemma kept_init : (init : StorageMemoize R M).Kept key where
  counted _ _ := Nat.le_refl 0
  stored _ _ _ := rfl
  memoized _ hframe := by cases hframe
  present _ _ _ hstarted := absurd rfl hstarted

omit [DecidableEq R] in
lemma getData_eq_ok_iff {storage : AsyncStorageService R} {k : StorageKey} {v : JsValue} :
    storage.getData r k = .ok v ↔ (storage.asyncStore r).isSome ∧
      v = ((storage.asyncStore r).bind (·.get k)).getD .undefined := by
  unfold AsyncStorageService.getData AsyncStorageService.getStore
  cases storage.asyncStore r with
  | none => simp
  | some store => simp [eq_comm]

/-- With keys of their own, what a method finds is what its last run has returned. -/
lemma Kept.found_iff (h : s.Kept key) : s.Found key a ↔ s.HasValue a := by
  cases a with
  | call r m =>
    refine forall_congr' fun horig => ?_
    have hcount := h.counted r m
    constructor
    · intro hfound
      by_cases hstarted : (s.calls r m).started = 0
      · exact Or.inl hstarted
      · have hslot := hfound _ (getData_eq_ok_iff.mpr ⟨h.present r m horig hstarted, rfl⟩)
        rw [if_neg hstarted] at hslot
        exact Or.inr ⟨_, hslot.2, hslot.1⟩
    · intro hvalue v hget
      obtain ⟨-, rfl⟩ := getData_eq_ok_iff.mp hget
      rw [h.stored r m horig]
      rcases hvalue with hnew | ⟨v, hran, htrue⟩
      · have hnone : (s.calls r m).ran = [] := List.length_eq_zero_iff.mp (by omega)
        rw [if_pos hnew, hnone]
        rfl
      · rw [hran, List.length_singleton] at hcount
        rw [if_neg (by omega), hran]
        exact ⟨htrue, rfl⟩
  | use | setData | returned | thrown | disableMemoize => exact Iff.rfl

/-- What is kept is found in its slot, and the other slots and stores are as before. -/
lemma slots_of_setData {storage storage' : AsyncStorageService R} {k : StorageKey} {v : JsValue}
    (h : storage.setData r k v = .ok storage') :
    (storage'.asyncStore r).bind (·.get k) = some v ∧
      (∀ r' k', ¬(r' = r ∧ k' = k) → (storage'.asyncStore r').bind (·.get k') =
        (storage.asyncStore r').bind (·.get k')) ∧
      ∀ r', (storage.asyncStore r').isSome → (storage'.asyncStore r').isSome := by
  unfold AsyncStorageService.setData AsyncStorageService.getStore at h
  cases hstore : storage.asyncStore r with
  | none => simp [hstore] at h
  | some store =>
    simp only [hstore] at h
    cases h
    refine ⟨by simp, fun r' k' hne => ?_, fun r' hsome => ?_⟩
    · by_cases hr : r' = r
      · subst hr
        simp [hstore, JsMap.get_set_ne _ _ fun hk => hne ⟨rfl, hk⟩]
      · simp [hr]
    · by_cases hr : r' = r
      · subst hr
        simp
      · simpa [hr] using hsome

omit [DecidableEq R] in
lemma get_getInitialStore {k : StorageKey} (hreq : k ≠ .REQ_KEY) (hres : k ≠ .RES_KEY)
    (req res : JsValue) : (AsyncStorageService.getInitialStore req res).get k = none := by
  rw [AsyncStorageService.getInitialStore, JsMap.get_set_ne _ _ hres, JsMap.get_set_ne _ _ hreq,
    JsMap.get_empty]

/-- Another store, in which the slots of the methods are the same. -/
lemma Kept.storage (h : s.Kept key) {storage : AsyncStorageService R}
    (hslot : ∀ r m, (storage.asyncStore r).bind (·.get (key m)) =
      (s.storage.asyncStore r).bind (·.get (key m)))
    (hpresent : ∀ r, (s.storage.asyncStore r).isSome → (storage.asyncStore r).isSome) :
    { s with storage := storage }.Kept key where
  counted := h.counted
  stored r m horig := (hslot r m).trans (h.stored r m horig)
  memoized := h.memoized
  present r m horig hstarted := hpresent r (h.present r m horig hstarted)

lemma Kept.use (h : s.Kept key) (hown : OwnKey key) (req res : JsValue)
    (hnone : s.storage.asyncStore r = none) :
    { s with storage := s.storage.use r req res }.Kept key := by
  refine h.storage (fun r' m => ?_) fun r' hsome => ?_
  · by_cases hr : r' = r
    · subst hr
      simp [AsyncStorageService.use, hnone,
        get_getInitialStore (hown.request m).1 (hown.request m).2]
    · simp [AsyncStorageService.use, hr]
  · by_cases hr : r' = r
    · subst hr
      simp [AsyncStorageService.use]
    · simpa [AsyncStorageService.use, hr] using hsome

lemma Kept.setData (h : s.Kept key) {storage : AsyncStorageService R} {k : StorageKey}
    {v : JsValue} (hset : s.storage.setData r k v = .ok storage) (hother : ∀ m, key m ≠ k) :
    { s with storage := storage }.Kept key := by
  obtain ⟨-, hslot, hpresent⟩ := slots_of_setData hset
  exact h.storage (fun r' m => hslot r' (key m) fun he => hother m he.2) hpresent

lemma Kept.apply (h : s.Kept key) {memoized : Bool}
    (hmemo : s.original m = false → memoized = true ∧ (s.storage.asyncStore r).isSome) :
    (s.apply r m memoized).Kept key where
  counted := h.counted.apply r m memoized
  stored r' m' horig := by
    rw [StorageMemoize.apply, calls_record]
    split <;> exact h.stored r' m' horig
  memoized frame hframe horig := by
    rcases List.mem_cons.mp hframe with rfl | hold
    · exact (hmemo horig).1
    · exact h.memoized frame hold horig
  present r' m' horig hstarted := by
    by_cases he : r' = r ∧ m' = m
    · obtain ⟨rfl, rfl⟩ := he
      exact (hmemo horig).2
    · rw [StorageMemoize.apply, calls_record, if_neg he] at hstarted
      exact h.present r' m' horig hstarted

lemma Kept.returns (h : s.Kept key) (r : R) (m : M) (v : JsValue) :
    (s.returns r m v).Kept key where
  counted := h.counted.returns r m v
  stored r' m' horig := by
    rw [StorageMemoize.returns, calls_record]
    split <;> exact h.stored r' m' horig
  memoized := h.memoized
  present r' m' horig hstarted := by
    rw [StorageMemoize.returns, calls_record] at hstarted
    split at hstarted <;> exact h.present r' m' horig hstarted

/-- The store of a request in which a method is running is there. -/
lemma Kept.present_of_frame {frame : MethodFrame R M} {frames : List (MethodFrame R M)}
    (h : s.Kept key) (hframes : s.frames = frame :: frames)
    (horig : s.original frame.method = false) :
    (s.storage.asyncStore frame.request).isSome := by
  have hcount := h.counted frame.request frame.method
  rw [pending_cons frame frames hframes, if_pos ⟨rfl, rfl⟩] at hcount
  exact h.present _ _ horig (by omega)

/-- The method has returned, and the store has the value from now on. -/
lemma Kept.ran {frame : MethodFrame R M} {frames : List (MethodFrame R M)} (h : s.Kept key)
    (hframes : s.frames = frame :: frames) {v : JsValue} {storage : AsyncStorageService R}
    (hown : s.original frame.method = false →
      (storage.asyncStore frame.request).bind (·.get (key frame.method)) = some v)
    (hslot : ∀ r m, ¬(r = frame.request ∧ m = frame.method) →
      (storage.asyncStore r).bind (·.get (key m)) =
        (s.storage.asyncStore r).bind (·.get (key m)))
    (hpresent : ∀ r, (s.storage.asyncStore r).isSome → (storage.asyncStore r).isSome) :
    { { s with frames := frames }.ran frame.request frame.method v with
      storage := storage }.Kept key where
  counted := h.counted.ran hframes v
  stored r m horig := by
    change _ = (({ s with frames := frames }.ran frame.request frame.method v).calls r m).ran.getLast?
    rw [StorageMemoize.ran, calls_record]
    by_cases he : r = frame.request ∧ m = frame.method
    · rw [if_pos he]
      obtain ⟨rfl, rfl⟩ := he
      rw [hown horig, List.getLast?_concat]
    · rw [if_neg he]
      exact (hslot r m he).trans (h.stored r m horig)
  memoized frame' hframe := h.memoized frame' (hframes ▸ List.mem_cons_of_mem frame hframe)
  present r m horig hstarted := by
    refine hpresent r (h.present r m horig fun hzero => hstarted ?_)
    change (({ s with frames := frames }.ran frame.request frame.method v).calls r m).started = 0
    rw [StorageMemoize.ran, calls_record]
    split <;> exact hzero

lemma Kept.step (h : s.Kept key) (hown : OwnKey key) (hother : OtherKey key a)
    (ht : s.step key a = some t) : t.Kept key := by
  cases a with
  | use r req res =>
    simp only [StorageMemoize.step, Option.ite_none_left_eq_some, Option.some.injEq] at ht
    obtain ⟨hnone, rfl⟩ := ht
    exact h.use hown req res (by simpa using hnone)
  | setData r k value =>
    simp only [StorageMemoize.step] at ht
    split at ht
    · cases ht
      exact h
    · rename_i storage hset
      cases ht
      exact h.setData hset hother
  | call r m =>
    rcases step_call ht with ⟨hdis, rfl⟩ | ⟨-, ⟨e, -, rfl⟩ | ⟨v, hget, ⟨-, rfl⟩ | ⟨-, rfl⟩⟩⟩
    · exact h.apply fun horig => absurd hdis (by simp [horig])
    · exact h
    · exact h.returns r m v
    · exact h.apply fun _ => ⟨rfl, (getData_eq_ok_iff.mp hget).1⟩
  | returned r value =>
    obtain ⟨frame, frames, hframes, rfl, ⟨e, herr, rfl⟩ | happ⟩ := step_returned ht
    · -- there is no store, so the method was disabled in the meantime
      refine h.ran hframes (fun horig => ?_) (fun _ _ _ => rfl) fun _ hsome => hsome
      have hstore : s.storage.getStore frame.request = .error e := (applied_eq_error herr).2
      have hsome := h.present_of_frame hframes horig
      cases hget : s.storage.asyncStore frame.request with
      | none => simp [hget] at hsome
      | some store => simp [AsyncStorageService.getStore, hget] at hstore
    · obtain ⟨storage, rfl, ⟨-, hset⟩ | ⟨hmemo, rfl⟩⟩ := applied_eq_ok happ
      · obtain ⟨hvalue, hslot, hpresent⟩ := slots_of_setData hset
        refine Kept.returns (h.ran hframes (fun _ => hvalue) (fun r' m' hne => ?_) hpresent)
          frame.request frame.method value
        exact hslot r' (key m') fun he => hne ⟨he.1, hown.injective he.2⟩
      · refine Kept.returns (h.ran hframes (fun horig => ?_) (fun _ _ _ => rfl) fun _ hsome => hsome)
          frame.request frame.method value
        have hframe : frame ∈ s.frames := hframes ▸ List.mem_cons_self
        exact absurd (h.memoized frame hframe horig) (by simp [hmemo])
  | thrown r =>
    obtain ⟨frame, frames, hframes, -, rfl⟩ := step_thrown ht
    exact
      { counted := h.counted.step ht
        stored := h.stored
        memoized := fun frame' hframe =>
          h.memoized frame' (hframes ▸ List.mem_cons_of_mem frame hframe)
        present := h.present }
  | disableMemoize m =>
    cases ht
    exact
      { counted := h.counted
        stored := fun r' m' horig => h.stored r' m' (original_of_disableMemoize horig)
        memoized := fun frame hframe horig =>
          h.memoized frame hframe (original_of_disableMemoize horig)
        present := fun r' m' horig => h.present r' m' (original_of_disableMemoize horig) }

/-- Whatever the methods return, and however the calls of the requests, nested ones among them, come
between each other: in every request every method runs once and every call returns the value of
this run, exactly when the first call finds nothing that counts as true and the later ones the value
of the run. With keys of their own, exactly when no method is called again before its run has
returned a value that counts as true. -/
theorem runs_once_iff (key : M → StorageKey) (as : List (MemoizeAction R M)) :
    ((∀ bs, bs <+: as → ∀ t, run (step key) init bs = some t → t.RunsOnce) ↔
        Guarded (step key) (Found key) init as) ∧
      (OwnKey key → (∀ a ∈ as, OtherKey key a) →
        ((∀ bs, bs <+: as → ∀ t, run (step key) init bs = some t → t.RunsOnce) ↔
          Guarded (step key) HasValue init as)) := by
  have hfound : (∀ bs, bs <+: as → ∀ t, run (step key) init bs = some t → t.RunsOnce) ↔
      Guarded (step key) (Found key) init as :=
    strengthened_iff_guarded (fun s => s.Counted ∧ s.RunsOnce) RunsOnce (fun _ h => h.2)
      (fun _ _ _ h hfound ht => ⟨h.1.step ht, h.2.step h.1 hfound ht⟩)
      (fun _ _ _ h ht hone => found_of_runsOnce h.1 ht hone) as
      ⟨fun _ _ => Nat.le_refl 0, fun _ _ _ => ⟨Nat.zero_le 1, by simp [init]⟩⟩
  refine ⟨hfound, fun hown hother => hfound.trans ?_⟩
  exact guarded_congr (Kept key) (OtherKey key) (fun _ _ _ ha h ht => h.step hown ha ht)
    (fun _ _ _ _ h _ => h.found_iff) hother kept_init

/-- A method that returns an object, as an `async` one does, called twice in a request. -/
def objectTwice : List (MemoizeAction Unit Unit) :=
  [.use () (.object 0) (.object 1), .call () (), .returned () (.object 2), .call () ()]

theorem runs_once_object : ∃ t,
    run (step fun _ => .symbol 0) init objectTwice = some t ∧
      (t.calls () ()).returned = [.object 2, .object 2] ∧ t.RunsOnce := by
  have hown : OwnKey fun _ : Unit => StorageKey.symbol 0 :=
    ⟨Function.injective_of_subsingleton _, by simp⟩
  refine ⟨_, rfl, rfl, ((runs_once_iff _ objectTwice).2 hown ?_).mpr ?_ _ List.prefix_rfl _ rfl⟩
  · simp [objectTwice, OtherKey]
  · exact ⟨trivial, fun _ => Or.inl rfl, trivial, fun _ => Or.inr ⟨_, rfl, rfl⟩, trivial⟩

/-- `getTld` is called twice in a request to an IP address. -/
theorem getTld_runs_again :
    ¬∀ (key : Unit → StorageKey) (as : List (MemoizeAction Unit Unit))
      (t : StorageMemoize Unit Unit), OwnKey key → (∀ a ∈ as, OtherKey key a) →
        run (step key) init as = some t → t.RunsOnce := by
  intro h
  have hown : OwnKey fun _ : Unit => StorageKey.symbol 0 :=
    ⟨Function.injective_of_subsingleton _, by simp⟩
  let tld := TldService.getTld ⟨some, fun host => host = "127.0.0.1"⟩
    ⟨some "127.0.0.1", none, none⟩
  let as : List (MemoizeAction Unit Unit) :=
    [.use () (.object 0) (.object 1), .call () (), .returned () tld, .call () ()]
  obtain ⟨t, hrun, horig, htwice⟩ : ∃ t, run (step fun _ => .symbol 0) init as = some t ∧
      t.original () = false ∧ (t.calls () ()).started = 2 := ⟨_, rfl, rfl, rfl⟩
  have hone := (h _ as t hown (by simp [as, OtherKey]) hrun () () horig).1
  rw [htwice] at hone
  exact absurd hone (by decide)

end StorageMemoize

end AlaFois
