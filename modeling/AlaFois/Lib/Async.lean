import AlaFois.Lib.Stepper
import Mathlib.Data.List.Flatten

/-!
# Asynchronous computations

A computation awaits calls whose outcomes come later. A promise that is neither awaited nor returned
goes on by itself, and if it rejects then nobody handles it. `result` and `unhandled` say what comes
of a computation when the outcomes of its calls are given; a `Process` takes the outcomes one at a
time, in any order, and ends with the same.
-/

/-- A computation with calls in `κ`; the outcome of a call is a reply in `ρ` or an error in `ε`. -/
inductive Async (κ : Type) (ρ : κ → Type) (ε : Type) : Type → Type 1
  | settled {α : Type} (result : Except ε α) : Async κ ρ ε α
  | awaits {α : Type} (call : κ) (next : Except ε (ρ call) → Async κ ρ ε α) : Async κ ρ ε α
  | drops {α : Type} (dropped : Async κ ρ ε Unit) (rest : Async κ ρ ε α) : Async κ ρ ε α

namespace Async

variable {κ : Type} {ρ : κ → Type} {ε α β : Type}

def pure (a : α) : Async κ ρ ε α := .settled (.ok a)

def throw (e : ε) : Async κ ρ ε α := .settled (.error e)

def await (call : κ) : Async κ ρ ε (ρ call) := .awaits call .settled

def bind : Async κ ρ ε α → (α → Async κ ρ ε β) → Async κ ρ ε β
  | .settled (.ok a), f => f a
  | .settled (.error e), _ => .settled (.error e)
  | .awaits call next, f => .awaits call fun r => (next r).bind f
  | .drops dropped rest, f => .drops dropped (rest.bind f)

/-- `try` around a computation that is awaited in it. -/
def catches : Async κ ρ ε α → (ε → Async κ ρ ε α) → Async κ ρ ε α
  | .settled (.ok a), _ => .settled (.ok a)
  | .settled (.error e), f => f e
  | .awaits call next, f => .awaits call fun r => (next r).catches f
  | .drops dropped rest, f => .drops dropped (rest.catches f)

/-! ### What comes of a computation -/

section Outcomes

variable (answer : ∀ call, Except ε (ρ call))

def result : Async κ ρ ε α → Except ε α
  | .settled r => r
  | .awaits call next => (next (answer call)).result
  | .drops _ rest => rest.result

/-- The calls that are awaited before the computation settles. -/
def awaited : Async κ ρ ε α → List κ
  | .settled _ => []
  | .awaits call next => call :: (next (answer call)).awaited
  | .drops _ rest => rest.awaited

def rejection : Except ε α → List ε
  | .ok _ => []
  | .error e => [e]

/-- The rejections of promises that are dropped. -/
def unhandled : {α : Type} → Async κ ρ ε α → List ε
  | _, .settled _ => []
  | _, .awaits call next => (next (answer call)).unhandled
  | _, .drops dropped rest =>
    rejection (dropped.result answer) ++ dropped.unhandled ++ rest.unhandled

/-- The number of outcomes that are waited for, also by dropped promises. -/
def work : {α : Type} → Async κ ρ ε α → Nat
  | _, .settled _ => 0
  | _, .awaits call next => (next (answer call)).work + 1
  | _, .drops dropped rest => dropped.work + rest.work

end Outcomes

variable {answer : ∀ call, Except ε (ρ call)}

@[simp] lemma result_settled (r : Except ε α) :
    (settled r : Async κ ρ ε α).result answer = r := rfl

@[simp] lemma result_drops (dropped : Async κ ρ ε Unit) (rest : Async κ ρ ε α) :
    (drops dropped rest).result answer = rest.result answer := rfl

@[simp] lemma result_await (call : κ) :
    (await call : Async κ ρ ε (ρ call)).result answer = answer call := rfl

@[simp] lemma unhandled_settled (r : Except ε α) :
    (settled r : Async κ ρ ε α).unhandled answer = [] := rfl

@[simp] lemma unhandled_drops (dropped : Async κ ρ ε Unit) (rest : Async κ ρ ε α) :
    (drops dropped rest).unhandled answer =
      rejection (dropped.result answer) ++ dropped.unhandled answer ++ rest.unhandled answer := rfl

@[simp] lemma unhandled_await (call : κ) :
    (await call : Async κ ρ ε (ρ call)).unhandled answer = [] := rfl

@[simp] lemma awaited_settled (r : Except ε α) :
    (settled r : Async κ ρ ε α).awaited answer = [] := rfl

@[simp] lemma awaited_drops (dropped : Async κ ρ ε Unit) (rest : Async κ ρ ε α) :
    (drops dropped rest).awaited answer = rest.awaited answer := rfl

@[simp] lemma awaited_await (call : κ) :
    (await call : Async κ ρ ε (ρ call)).awaited answer = [call] := rfl

/-- What follows a computation, when it has settled. -/
def follow (f : α → Async κ ρ ε β) : Except ε α → Async κ ρ ε β
  | .ok a => f a
  | .error e => .settled (.error e)

/-- What follows a `try`, when it has settled. -/
def recover (f : ε → Async κ ρ ε α) : Except ε α → Async κ ρ ε α
  | .ok a => .settled (.ok a)
  | .error e => f e

lemma result_bind (a : Async κ ρ ε α) (f : α → Async κ ρ ε β) :
    (a.bind f).result answer = (follow f (a.result answer)).result answer := by
  induction a with
  | settled r => cases r <;> rfl
  | awaits call next ih => exact ih (answer call) f
  | drops dropped rest _ ih => exact ih f

lemma unhandled_bind (a : Async κ ρ ε α) (f : α → Async κ ρ ε β) :
    (a.bind f).unhandled answer =
      a.unhandled answer ++ (follow f (a.result answer)).unhandled answer := by
  induction a with
  | settled r => cases r <;> rfl
  | awaits call next ih => exact ih (answer call) f
  | drops dropped rest _ ih => simp only [bind, unhandled_drops, result_drops, ih, List.append_assoc]

lemma awaited_bind (a : Async κ ρ ε α) (f : α → Async κ ρ ε β) :
    (a.bind f).awaited answer =
      a.awaited answer ++ (follow f (a.result answer)).awaited answer := by
  induction a with
  | settled r => cases r <;> rfl
  | awaits call next ih => exact congrArg (call :: ·) (ih (answer call) f)
  | drops dropped rest _ ih => exact ih f

lemma result_catches (a : Async κ ρ ε α) (f : ε → Async κ ρ ε α) :
    (a.catches f).result answer = (recover f (a.result answer)).result answer := by
  induction a with
  | settled r => cases r <;> rfl
  | awaits call next ih => exact ih (answer call) f
  | drops dropped rest _ ih => exact ih f

lemma unhandled_catches (a : Async κ ρ ε α) (f : ε → Async κ ρ ε α) :
    (a.catches f).unhandled answer =
      a.unhandled answer ++ (recover f (a.result answer)).unhandled answer := by
  induction a with
  | settled r => cases r <;> rfl
  | awaits call next ih => exact ih (answer call) f
  | drops dropped rest _ ih =>
    simp only [catches, unhandled_drops, result_drops, ih, List.append_assoc]

lemma awaited_catches (a : Async κ ρ ε α) (f : ε → Async κ ρ ε α) :
    (a.catches f).awaited answer =
      a.awaited answer ++ (recover f (a.result answer)).awaited answer := by
  induction a with
  | settled r => cases r <;> rfl
  | awaits call next ih => exact congrArg (call :: ·) (ih (answer call) f)
  | drops dropped rest _ ih => exact ih f

/-! ### Running a computation -/

/-- The computation up to where it waits or settles, and the promises that it has dropped so far. -/
def launch : {α : Type} → Async κ ρ ε α → Async κ ρ ε α × List (Async κ ρ ε Unit)
  | _, .settled r => (.settled r, [])
  | _, .awaits call next => (.awaits call next, [])
  | _, .drops dropped rest =>
    (rest.launch.1, dropped.launch.1 :: (dropped.launch.2 ++ rest.launch.2))

lemma result_launch (a : Async κ ρ ε α) : a.launch.1.result answer = a.result answer := by
  induction a with
  | drops dropped rest _ ih => exact ih
  | _ => rfl

lemma awaited_launch (a : Async κ ρ ε α) : a.launch.1.awaited answer = a.awaited answer := by
  induction a with
  | drops dropped rest _ ih => exact ih
  | _ => rfl

/-- The rejections that nobody handles of promises that have been dropped, and of those that they
drop themselves. -/
def rejections (answer : ∀ call, Except ε (ρ call)) (dropped : List (Async κ ρ ε Unit)) : List ε :=
  dropped.flatMap fun a => rejection (a.result answer) ++ a.unhandled answer

lemma rejections_append (as bs : List (Async κ ρ ε Unit)) :
    rejections answer (as ++ bs) = rejections answer as ++ rejections answer bs :=
  List.flatMap_append

lemma rejections_cons (a : Async κ ρ ε Unit) (as : List (Async κ ρ ε Unit)) :
    rejections answer (a :: as) =
      rejection (a.result answer) ++ a.unhandled answer ++ rejections answer as := rfl

lemma unhandled_launch (answer : ∀ call, Except ε (ρ call)) (a : Async κ ρ ε α) :
    (a.launch.1.unhandled answer ++ rejections answer a.launch.2).Perm (a.unhandled answer) := by
  classical
  induction a with
  | settled r => rfl
  | awaits call next => simp [launch, rejections]
  | drops dropped rest ihd ih =>
    rw [List.perm_iff_count] at *
    intro e
    have hdropped := ihd e
    have hrest := ih e
    simp only [launch, rejections_cons, rejections_append, unhandled_drops, result_launch,
      List.count_append] at *
    omega

/-- What the promises that have been dropped wait for. -/
def works (answer : ∀ call, Except ε (ρ call)) (dropped : List (Async κ ρ ε Unit)) : Nat :=
  dropped.foldr (fun a n => a.work answer + n) 0

lemma works_cons (a : Async κ ρ ε Unit) (as : List (Async κ ρ ε Unit)) :
    works answer (a :: as) = a.work answer + works answer as := rfl

lemma works_append (as bs : List (Async κ ρ ε Unit)) :
    works answer (as ++ bs) = works answer as + works answer bs := by
  induction as with
  | nil => exact (Nat.zero_add _).symm
  | cons a as ih =>
    rw [List.cons_append, works_cons, works_cons, ih, Nat.add_assoc]

lemma work_launch (answer : ∀ call, Except ε (ρ call)) (a : Async κ ρ ε α) :
    a.launch.1.work answer + works answer a.launch.2 = a.work answer := by
  induction a with
  | settled r => rfl
  | awaits call next => rfl
  | drops dropped rest ihd ih =>
    simp only [launch, works_cons, works_append, work]
    omega

/-- The computation waits or has settled. -/
def IsLaunched : Async κ ρ ε α → Prop
  | .drops _ _ => False
  | _ => True

lemma isLaunched_launch (a : Async κ ρ ε α) :
    a.launch.1.IsLaunched ∧ ∀ b ∈ a.launch.2, b.IsLaunched := by
  induction a with
  | settled r => exact ⟨trivial, by simp [launch]⟩
  | awaits call next => exact ⟨trivial, by simp [launch]⟩
  | drops dropped rest ihd ih =>
    refine ⟨ih.1, fun b hb => ?_⟩
    rcases List.mem_cons.mp hb with rfl | hb
    · exact ihd.1
    · rcases List.mem_append.mp hb with hb | hb
      · exact ihd.2 b hb
      · exact ih.2 b hb

/-- A computation with the promises that have been dropped so far. -/
structure Process (κ : Type) (ρ : κ → Type) (ε α : Type) : Type 1 where
  main : Async κ ρ ε α
  dropped : List (Async κ ρ ε Unit)

/-- Whose call is answered. -/
inductive Turn
  | main
  | dropped (i : Nat)
deriving DecidableEq

namespace Process

def start (a : Async κ ρ ε α) : Process κ ρ ε α := ⟨a.launch.1, a.launch.2⟩

def step (answer : ∀ call, Except ε (ρ call)) (p : Process κ ρ ε α) :
    Turn → Option (Process κ ρ ε α)
  | .main =>
    match p.main with
    | .awaits call next =>
      let launched := (next (answer call)).launch
      some ⟨launched.1, p.dropped ++ launched.2⟩
    | _ => none
  | .dropped i =>
    match p.dropped[i]? with
    | some (.awaits call next) =>
      let launched := (next (answer call)).launch
      some ⟨p.main, p.dropped.set i launched.1 ++ launched.2⟩
    | _ => none

/-- The rejections that nobody handles. -/
def unhandled (answer : ∀ call, Except ε (ρ call)) (p : Process κ ρ ε α) : List ε :=
  p.main.unhandled answer ++ rejections answer p.dropped

def work (answer : ∀ call, Except ε (ρ call)) (p : Process κ ρ ε α) : Nat :=
  p.main.work answer + works answer p.dropped

/-- Everything has been launched. -/
def Wf (p : Process κ ρ ε α) : Prop := p.main.IsLaunched ∧ ∀ b ∈ p.dropped, b.IsLaunched

variable {p q : Process κ ρ ε α}

lemma wf_start (a : Async κ ρ ε α) : (start a).Wf := isLaunched_launch a

/-- What a step does: one call is answered, and what follows it is launched. -/
inductive StepOutcome (answer : ∀ call, Except ε (ρ call)) (p : Process κ ρ ε α) :
    Turn → Process κ ρ ε α → Prop
  | main (call : κ) (next : Except ε (ρ call) → Async κ ρ ε α) (hmain : p.main = .awaits call next) :
      StepOutcome answer p .main
        ⟨(next (answer call)).launch.1, p.dropped ++ (next (answer call)).launch.2⟩
  | dropped (as bs : List (Async κ ρ ε Unit)) (call : κ) (next : Except ε (ρ call) → Async κ ρ ε Unit)
      (hdropped : p.dropped = as ++ .awaits call next :: bs) :
      StepOutcome answer p (.dropped as.length)
        ⟨p.main, as ++ (next (answer call)).launch.1 :: bs ++ (next (answer call)).launch.2⟩

lemma step_cases {t : Turn} (h : p.step answer t = some q) : StepOutcome answer p t q := by
  cases t with
  | main =>
    simp only [step] at h
    split at h
    · rename_i call next hmain
      cases h
      exact .main call next hmain
    · cases h
  | dropped i =>
    simp only [step] at h
    split at h
    · rename_i call next hdropped
      cases h
      obtain ⟨hi, hget⟩ := List.getElem?_eq_some_iff.mp hdropped
      have hsplit : p.dropped = p.dropped.take i ++ .awaits call next :: p.dropped.drop (i + 1) := by
        rw [← hget, ← List.drop_eq_getElem_cons hi, List.take_append_drop]
      have hlen : (p.dropped.take i).length = i := List.length_take_of_le (Nat.le_of_lt hi)
      have houtcome : StepOutcome answer p (.dropped _) _ := .dropped _ _ call next hsplit
      rw [hlen] at houtcome
      rw [List.set_eq_take_append_cons_drop, if_pos hi]
      exact houtcome
    · cases h

lemma wf_step (h : p.Wf) {t : Turn} (hstep : p.step answer t = some q) : q.Wf := by
  cases step_cases hstep with
  | main call next hmain =>
    obtain ⟨hlaunched, hdropped⟩ := isLaunched_launch (next (answer call))
    refine ⟨hlaunched, fun b hb => ?_⟩
    rcases List.mem_append.mp hb with hb | hb
    · exact h.2 b hb
    · exact hdropped b hb
  | dropped as bs call next hsplit =>
    obtain ⟨hlaunched, hdropped⟩ := isLaunched_launch (next (answer call))
    refine ⟨h.1, fun b hb => ?_⟩
    simp only [List.mem_append, List.mem_cons] at hb
    rcases hb with (hb | rfl | hb) | hb
    · exact h.2 b (by simp [hsplit, hb])
    · exact hlaunched
    · exact h.2 b (by simp [hsplit, hb])
    · exact hdropped b hb

/-- What is left after the turns: the result is the same, the calls that have been answered in its own
turns are no longer awaited, and the same rejections stay unhandled. -/
structure Remains (answer : ∀ call, Except ε (ρ call)) (p : Process κ ρ ε α) (ts : List Turn)
    (q : Process κ ρ ε α) : Prop where
  wf : p.Wf → q.Wf
  result : q.main.result answer = p.main.result answer
  awaited : ∃ calls : List κ, p.main.awaited answer = calls ++ q.main.awaited answer ∧
    calls.length = ts.count .main
  unhandled : (q.unhandled answer).Perm (p.unhandled answer)

lemma remains_step {t : Turn} (hstep : p.step answer t = some q) : Remains answer p [t] q := by
  classical
  refine ⟨fun h => wf_step h hstep, ?_, ?_, ?_⟩
  · cases step_cases hstep with
    | main call next hmain =>
      rw [hmain]
      exact result_launch _
    | dropped as bs call next hsplit => rfl
  · cases step_cases hstep with
    | main call next hmain =>
      refine ⟨[call], ?_, rfl⟩
      rw [hmain]
      exact congrArg (call :: ·) (awaited_launch _).symm
    | dropped as bs call next hsplit => exact ⟨[], rfl, rfl⟩
  · rw [List.perm_iff_count]
    intro e
    cases step_cases hstep with
    | main call next hmain =>
      have hnext := (unhandled_launch answer (next (answer call))).count_eq e
      simp only [unhandled, hmain, Async.unhandled, rejections_append, List.count_append] at *
      omega
    | dropped as bs call next hsplit =>
      have hnext := (unhandled_launch answer (next (answer call))).count_eq e
      simp only [unhandled, hsplit, Async.unhandled, Async.result, rejections_append,
        rejections_cons, result_launch, List.count_append] at *
      omega

/-- In every order of the answers the same remains. -/
theorem remains_run {ts : List Turn} (hrun : Stepper.run (step answer) p ts = some q) :
    Remains answer p ts q := by
  induction ts generalizing p with
  | nil =>
    cases hrun
    exact ⟨id, rfl, ⟨[], rfl, rfl⟩, .refl _⟩
  | cons t ts ih =>
    obtain ⟨r, hr, hrun⟩ := Stepper.run_cons_eq_some.mp hrun
    have hfirst := remains_step hr
    have hrest := ih hrun
    obtain ⟨first, hfirst', hlen⟩ := hfirst.awaited
    obtain ⟨rest, hrest', hlen'⟩ := hrest.awaited
    refine ⟨fun h => hrest.wf (hfirst.wf h), hrest.result.trans hfirst.result,
      ⟨first ++ rest, ?_, ?_⟩, hrest.unhandled.trans hfirst.unhandled⟩
    · rw [hfirst', hrest', List.append_assoc]
    · rw [List.length_append, hlen, hlen', ← List.count_append, List.singleton_append]

lemma work_step {t : Turn} (hstep : p.step answer t = some q) :
    q.work answer + 1 = p.work answer := by
  cases step_cases hstep with
  | main call next hmain =>
    have hnext := work_launch answer (next (answer call))
    simp only [work, hmain, Async.work, works_append]
    omega
  | dropped as bs call next hsplit =>
    have hnext := work_launch answer (next (answer call))
    simp only [work, hsplit, Async.work, works_append, works_cons]
    omega

/-- Nothing is waited for. -/
def Completed (p : Process κ ρ ε α) : Prop :=
  (∃ r, p.main = .settled r) ∧ ∀ b ∈ p.dropped, ∃ r, b = .settled r

lemma IsLaunched.cases {a : Async κ ρ ε β} (h : a.IsLaunched) :
    (∃ r, a = .settled r) ∨ ∃ call next, a = .awaits call next := by
  cases a with
  | settled r => exact .inl ⟨r, rfl⟩
  | awaits call next => exact .inr ⟨call, next, rfl⟩
  | drops dropped rest => cases h

/-- As long as something is waited for, its answer may come. -/
lemma exists_step (answer : ∀ call, Except ε (ρ call)) (h : p.Wf) (hp : ¬p.Completed) :
    ∃ t q, p.step answer t = some q := by
  rcases IsLaunched.cases h.1 with ⟨r, hr⟩ | ⟨call, next, hmain⟩
  · have hsome : ∃ b ∈ p.dropped, ¬∃ r, b = .settled r := by
      by_contra hnone
      push Not at hnone
      exact hp ⟨⟨r, hr⟩, hnone⟩
    obtain ⟨b, hb, hwaits⟩ := hsome
    rcases IsLaunched.cases (h.2 b hb) with hset | ⟨call, next, rfl⟩
    · exact absurd hset hwaits
    · obtain ⟨i, hi, hget⟩ := List.mem_iff_getElem.mp hb
      have hget' : p.dropped[i]? = some (.awaits call next) := by
        rw [List.getElem?_eq_getElem hi, hget]
      exact ⟨.dropped i, _, by simp only [step, hget']; rfl⟩
  · exact ⟨.main, _, by simp only [step, hmain]; rfl⟩

/-- A process can be completed. -/
theorem exists_completed (answer : ∀ call, Except ε (ρ call)) (h : p.Wf) :
    ∃ ts q, Stepper.run (step answer) p ts = some q ∧ q.Completed := by
  induction hn : p.work answer generalizing p with
  | zero =>
    by_contra hnone
    have hp : ¬p.Completed := fun hp => hnone ⟨[], p, rfl, hp⟩
    obtain ⟨t, q, hq⟩ := exists_step answer h hp
    have hwork := work_step hq
    omega
  | succ n ih =>
    by_cases hp : p.Completed
    · exact ⟨[], p, rfl, hp⟩
    · obtain ⟨t, q, hq⟩ := exists_step answer h hp
      have hwork := work_step hq
      obtain ⟨ts, r, hrun, hr⟩ := ih (wf_step h hq) (by omega)
      exact ⟨t :: ts, r, Stepper.run_cons_eq_some.mpr ⟨q, hq, hrun⟩, hr⟩

/-! ### What the computation determines -/

variable {a : Async κ ρ ε α}

/-- The computation has settled with its result, or waits for one of its calls that has not been
answered. -/
theorem settled_or_waits {ts : List Turn} (hrun : Stepper.run (step answer) (start a) ts = some q) :
    q.main = .settled (a.result answer) ∨
      ∃ call next, q.main = .awaits call next ∧ call ∈ a.awaited answer ∧
        ts.count .main < (a.awaited answer).length := by
  have h := remains_run hrun
  obtain ⟨calls, hcalls, hlen⟩ := h.awaited
  rw [show (start a).main.awaited answer = a.awaited answer from awaited_launch a] at hcalls
  rcases IsLaunched.cases (h.wf (wf_start a)).1 with ⟨r, hr⟩ | ⟨call, next, hmain⟩
  · refine .inl ?_
    have hresult := h.result.trans (result_launch a)
    rw [hr] at hresult ⊢
    rw [← hresult]
    rfl
  · refine .inr ⟨call, next, hmain, ?_, ?_⟩
    · rw [hcalls, hmain]
      exact List.mem_append_right _ List.mem_cons_self
    · rw [hcalls, hmain, List.length_append, hlen]
      exact Nat.lt_add_of_pos_right (Nat.succ_pos _)

/-- A promise that has been dropped rejects only with a rejection of the computation. -/
theorem mem_unhandled {ts : List Turn} (hrun : Stepper.run (step answer) (start a) ts = some q)
    {e : ε} (he : .settled (.error e) ∈ q.dropped) : e ∈ a.unhandled answer := by
  have hperm := (remains_run hrun).unhandled.trans (unhandled_launch answer a)
  refine hperm.subset (List.mem_append_right _ ?_)
  exact List.mem_flatMap.mpr ⟨_, he, by simp [rejection]⟩

/-- When nothing is waited for, every rejection of the computation is that of a dropped promise. -/
theorem settled_mem_of_unhandled {ts : List Turn}
    (hrun : Stepper.run (step answer) (start a) ts = some q) (hq : q.Completed) {e : ε}
    (he : e ∈ a.unhandled answer) : .settled (.error e) ∈ q.dropped := by
  have hperm := (remains_run hrun).unhandled.trans (unhandled_launch answer a)
  obtain ⟨r, hr⟩ := hq.1
  have hmem := hperm.symm.subset he
  rw [unhandled, hr, unhandled_settled, List.nil_append] at hmem
  obtain ⟨b, hb, heb⟩ := List.mem_flatMap.mp hmem
  obtain ⟨r, rfl⟩ := hq.2 b hb
  cases r with
  | ok a => simp [rejection] at heb
  | error e' =>
    obtain rfl : e = e' := by simpa [rejection] using heb
    exact hb

end Process

end Async
