import AlaFois.Lib.Async
import AlaFois.Lib.JsMap
import Mathlib.Logic.Function.Basic

/-!
# Requests on a shared store

A server answers many requests at a time. Each one is a computation, and a call that it awaits is
performed on the store as the other requests have left it. What a request does can depend on the
store only through what its calls have told it, so a rule that its code obeys for all outcomes of
its calls is obeyed in every interleaving.
-/

namespace Async

variable {κ : Type} {ρ : κ → Type} {ε α β : Type}

instance : Monad (Async κ ρ ε) where
  pure := Async.pure
  bind := Async.bind

/-- A call that has been performed, with its outcome. -/
structure Performed (κ : Type) (ρ : κ → Type) (ε : Type) where
  call : κ
  outcome : Except ε (ρ call)

/-- Told of these calls and perhaps of others, the computation makes only calls that are allowed by
then, whatever possible outcome they have, and settles as `post` says. -/
def Obeys (possible : (call : κ) → Except ε (ρ call) → Prop)
    (allowed : List (Performed κ ρ ε) → κ → Prop) : {α : Type} →
    (List (Performed κ ρ ε) → Except ε α → Prop) → List (Performed κ ρ ε) → Async κ ρ ε α → Prop
  | _, post, told, .settled r => ∀ told', told ⊆ told' → post told' r
  | _, post, told, .awaits call next => ∀ told', told ⊆ told' → allowed told' call ∧
      ∀ outcome, possible call outcome →
        Obeys possible allowed post (⟨call, outcome⟩ :: told') (next outcome)
  | _, post, told, .drops dropped rest =>
    Obeys possible allowed (fun _ _ => True) told dropped ∧ Obeys possible allowed post told rest

section Rules

variable {possible : (call : κ) → Except ε (ρ call) → Prop}
  {allowed : List (Performed κ ρ ε) → κ → Prop} {told told' : List (Performed κ ρ ε)}
  {post post' : List (Performed κ ρ ε) → Except ε α → Prop}
  {postβ : List (Performed κ ρ ε) → Except ε β → Prop}

lemma Obeys.learn {a : Async κ ρ ε α} (h : Obeys possible allowed post told a)
    (hsub : told ⊆ told') : Obeys possible allowed post told' a := by
  induction a with
  | settled r => exact fun told'' h' => h told'' (List.Subset.trans hsub h')
  | awaits call next => exact fun told'' h' => h told'' (List.Subset.trans hsub h')
  | drops dropped rest ihd ih => exact ⟨ihd h.1, ih h.2⟩

/-- What is said of a result stays said, whatever else is told. -/
lemma Obeys.imp {a : Async κ ρ ε α} (h : Obeys possible allowed post told a)
    (hpost : ∀ told' r, told ⊆ told' → (∀ told'', told' ⊆ told'' → post told'' r) → post' told' r) :
    Obeys possible allowed post' told a := by
  induction a generalizing told with
  | settled r =>
    exact fun told' h' => hpost told' r h' fun told'' h'' => h told'' (List.Subset.trans h' h'')
  | awaits call next ih =>
    intro told' h'
    refine ⟨(h told' h').1, fun outcome hout => ih outcome ((h told' h').2 outcome hout) ?_⟩
    intro told'' r h''
    exact hpost told'' r (List.Subset.trans h' (List.Subset.trans (List.subset_cons_self _ _) h''))
  | drops dropped rest _ ih => exact ⟨h.1, ih h.2 hpost⟩

lemma Obeys.mono {a : Async κ ρ ε α} (h : Obeys possible allowed post told a)
    (hpost : ∀ told' r, told ⊆ told' → post told' r → post' told' r) :
    Obeys possible allowed post' told a :=
  h.imp fun told' r hsub hr => hpost told' r hsub (hr told' (List.Subset.refl _))

lemma Obeys.await {call : κ} {post : List (Performed κ ρ ε) → Except ε (ρ call) → Prop}
    (hcall : ∀ told', told ⊆ told' → allowed told' call)
    (hpost : ∀ told' outcome, told ⊆ told' → possible call outcome → ⟨call, outcome⟩ ∈ told' →
      post told' outcome) :
    Obeys possible allowed post told (Async.await call) := by
  intro told' hsub
  refine ⟨hcall told' hsub, fun outcome hout told'' hsub' => ?_⟩
  refine hpost told'' outcome (fun e he => hsub' (List.mem_cons_of_mem _ (hsub he))) hout ?_
  exact hsub' List.mem_cons_self

lemma Obeys.bind {a : Async κ ρ ε α} {f : α → Async κ ρ ε β}
    (h : Obeys possible allowed
      (fun told r => Obeys possible allowed postβ told (follow f r)) told a) :
    Obeys possible allowed postβ told (a >>= f) := by
  induction a generalizing told with
  | settled r =>
    have hr := h told (List.Subset.refl told)
    cases r <;> exact hr
  | awaits call next ih =>
    intro told' hsub
    exact ⟨(h told' hsub).1, fun outcome hout => ih outcome ((h told' hsub).2 outcome hout)⟩
  | drops dropped rest _ ih => exact ⟨h.1, ih h.2⟩

lemma Obeys.catches {a : Async κ ρ ε α} {f : ε → Async κ ρ ε α}
    (h : Obeys possible allowed
      (fun told r => Obeys possible allowed post told (recover f r)) told a) :
    Obeys possible allowed post told (a.catches f) := by
  induction a generalizing told with
  | settled r =>
    have hr := h told (List.Subset.refl told)
    cases r <;> exact hr
  | awaits call next ih =>
    intro told' hsub
    exact ⟨(h told' hsub).1, fun outcome hout => ih outcome ((h told' hsub).2 outcome hout)⟩
  | drops dropped rest _ ih => exact ⟨h.1, ih h.2⟩

/-- The rule for a `try` around a computation, where nothing is said of errors. -/
lemma Obeys.orElse {mid : List (Performed κ ρ ε) → α → Prop} {a : Async κ ρ ε α}
    {f : ε → Async κ ρ ε α}
    (ha : Obeys possible allowed (fun told r => ∀ x, r = .ok x → mid told x) told a)
    (hf : ∀ told' e, told ⊆ told' →
      Obeys possible allowed (fun told r => ∀ x, r = .ok x → mid told x) told' (f e)) :
    Obeys possible allowed (fun told r => ∀ x, r = .ok x → mid told x) told (a.catches f) := by
  refine Obeys.catches (ha.imp fun told' r hsub hr => ?_)
  cases r with
  | error e => exact hf told' e hsub
  | ok x => exact hr

/-- The rule for a sequence, where nothing is said of errors. -/
lemma Obeys.andThen {mid : List (Performed κ ρ ε) → α → Prop} {a : Async κ ρ ε α}
    {f : α → Async κ ρ ε β} (herror : ∀ told e, postβ told (.error e))
    (ha : Obeys possible allowed (fun told r => ∀ x, r = .ok x → mid told x) told a)
    (hf : ∀ told' x, told ⊆ told' → mid told' x → Obeys possible allowed postβ told' (f x)) :
    Obeys possible allowed postβ told (a >>= f) := by
  refine Obeys.bind (ha.mono fun told' r hsub hr => ?_)
  cases r with
  | error e => exact fun told'' _ => herror told'' e
  | ok x => exact hf told' x hsub (hr x rfl)

lemma Obeys.launch {a : Async κ ρ ε α} (h : Obeys possible allowed post told a) :
    Obeys possible allowed post told a.launch.1 ∧
      ∀ b ∈ a.launch.2, Obeys possible allowed (fun _ _ => True) told b := by
  induction a with
  | settled r => exact ⟨h, by simp [Async.launch]⟩
  | awaits call next => exact ⟨h, by simp [Async.launch]⟩
  | drops dropped rest ihd ih =>
    refine ⟨(ih h.2).1, fun b hb => ?_⟩
    rcases List.mem_cons.mp hb with rfl | hb
    · exact (ihd h.1).1
    · rcases List.mem_append.mp hb with hb | hb
      · exact (ihd h.1).2 b hb
      · exact (ih h.2).2 b hb

end Rules

/-! ### Many requests -/

/-- The call whose outcome the turn brings. -/
def Process.awaiting (p : Process κ ρ ε α) : Turn → Option κ
  | .main =>
    match p.main with
    | .awaits call _ => some call
    | _ => none
  | .dropped i =>
    match p.dropped[i]? with
    | some (.awaits call _) => some call
    | _ => none

/-- A request with what is left of its computation; `told` are its calls that have been performed,
the last one first. -/
structure Task (ι κ : Type) (ρ : κ → Type) (ε α : Type) : Type 1 where
  request : ι
  process : Process κ ρ ε α
  told : List (Performed κ ρ ε)

/-- What the request has been answered. -/
def Task.response {ι : Type} (task : Task ι κ ρ ε α) : Option (Except ε α) :=
  match task.process.main with
  | .settled r => some r
  | _ => none

/-- All requests so far, also those that have been answered, and the store. -/
structure Pool (ι κ : Type) (ρ : κ → Type) (ε α σ : Type) : Type 1 where
  store : σ
  tasks : JsMap Nat (Task ι κ ρ ε α)

/-- A request arrives; the outcome of a call that it awaits comes; something else changes the store.
-/
inductive PoolAction (ι κ : Type) (ρ : κ → Type) (ε ξ : Type)
  | start (id : Nat) (request : ι)
  | proceed (id : Nat) (turn : Turn) (answer : ∀ call, Except ε (ρ call))
  | outside (x : ξ)

/-- How requests run: the computation of each, what a call does to a store with an outcome that it
can have there, and what else happens to the store. -/
structure Server (ι κ : Type) (ρ : κ → Type) (ε α σ ξ : Type) : Type 1 where
  code : ι → Async κ ρ ε α
  exec : σ → (call : κ) → Except ε (ρ call) → Option σ
  outside : σ → ξ → Option σ

namespace Server

variable {ι σ ξ : Type}

def init (store : σ) : Pool ι κ ρ ε α σ := ⟨store, .empty⟩

def step (server : Server ι κ ρ ε α σ ξ) (s : Pool ι κ ρ ε α σ) :
    PoolAction ι κ ρ ε ξ → Option (Pool ι κ ρ ε α σ)
  | .start id request =>
    if s.tasks.has id then none
    else some { s with tasks := s.tasks.set id ⟨request, .start (server.code request), []⟩ }
  | .proceed id turn answer =>
    (s.tasks.get id).bind fun task =>
      (task.process.awaiting turn).bind fun call =>
        (server.exec s.store call (answer call)).bind fun store =>
          (task.process.step answer turn).map fun process =>
            ⟨store, s.tasks.set id ⟨task.request, process, ⟨call, answer call⟩ :: task.told⟩⟩
  | .outside x => (server.outside s.store x).map fun store => { s with store := store }

variable {server : Server ι κ ρ ε α σ ξ} {s s' : Pool ι κ ρ ε α σ}

/-- What a step does. -/
inductive StepOutcome (server : Server ι κ ρ ε α σ ξ) (s : Pool ι κ ρ ε α σ) :
    PoolAction ι κ ρ ε ξ → Pool ι κ ρ ε α σ → Prop
  | start (id : Nat) (request : ι) (hnew : s.tasks.get id = none) :
      StepOutcome server s (.start id request)
        { s with tasks := s.tasks.set id ⟨request, .start (server.code request), []⟩ }
  | proceed (id : Nat) (turn : Turn) (answer : ∀ call, Except ε (ρ call)) (task : Task ι κ ρ ε α)
      (call : κ) (store : σ) (process : Process κ ρ ε α) (hget : s.tasks.get id = some task)
      (hcall : task.process.awaiting turn = some call)
      (hexec : server.exec s.store call (answer call) = some store)
      (hstep : task.process.step answer turn = some process) :
      StepOutcome server s (.proceed id turn answer)
        ⟨store, s.tasks.set id ⟨task.request, process, ⟨call, answer call⟩ :: task.told⟩⟩
  | outside (x : ξ) (store : σ) (houtside : server.outside s.store x = some store) :
      StepOutcome server s (.outside x) { s with store := store }

lemma step_cases {a : PoolAction ι κ ρ ε ξ} (h : server.step s a = some s') :
    StepOutcome server s a s' := by
  cases a with
  | start id request =>
    simp only [step] at h
    split at h
    · cases h
    · rename_i hnew
      cases h
      exact .start id request (by simpa [JsMap.has] using hnew)
  | proceed id turn answer =>
    simp only [step, Option.bind_eq_some_iff, Option.map_eq_some_iff] at h
    obtain ⟨task, hget, call, hcall, store, hexec, process, hstep, rfl⟩ := h
    exact .proceed id turn answer task call store process hget hcall hexec hstep
  | outside x =>
    simp only [step, Option.map_eq_some_iff] at h
    obtain ⟨store, houtside, rfl⟩ := h
    exact .outside x store houtside

/-! ### What the code of every request obeys -/

def Possible (server : Server ι κ ρ ε α σ ξ) (call : κ) (outcome : Except ε (ρ call)) : Prop :=
  ∃ s s', server.exec s call outcome = some s'

variable {allowed : ι → List (Performed κ ρ ε) → κ → Prop}
  {post : ι → List (Performed κ ρ ε) → Except ε α → Prop}

/-- What is left of a computation, and what it has dropped, goes on to obey. -/
structure TaskObeys (server : Server ι κ ρ ε α σ ξ)
    (allowed : ι → List (Performed κ ρ ε) → κ → Prop)
    (post : ι → List (Performed κ ρ ε) → Except ε α → Prop) (task : Task ι κ ρ ε α) : Prop where
  main : Obeys server.Possible (allowed task.request) (post task.request) task.told
    task.process.main
  dropped : ∀ b ∈ task.process.dropped,
    Obeys server.Possible (allowed task.request) (fun _ _ => True) task.told b

def Obedient (server : Server ι κ ρ ε α σ ξ)
    (allowed : ι → List (Performed κ ρ ε) → κ → Prop)
    (post : ι → List (Performed κ ρ ε) → Except ε α → Prop) (s : Pool ι κ ρ ε α σ) : Prop :=
  ∀ id task, s.tasks.get id = some task → server.TaskObeys allowed post task

lemma obedient_init (store : σ) : server.Obedient allowed post (init store) := fun id task h => by
  simp [init] at h

/-- The awaited call is allowed, and what follows it obeys. -/
lemma TaskObeys.proceed {task : Task ι κ ρ ε α} {turn : Turn}
    {answer : ∀ call, Except ε (ρ call)} {call : κ} {process : Process κ ρ ε α}
    (h : server.TaskObeys allowed post task) (hcall : task.process.awaiting turn = some call)
    (hpossible : server.Possible call (answer call))
    (hstep : task.process.step answer turn = some process) :
    allowed task.request task.told call ∧
      server.TaskObeys allowed post ⟨task.request, process, ⟨call, answer call⟩ :: task.told⟩ := by
  have hsub : task.told ⊆ ⟨call, answer call⟩ :: task.told := List.subset_cons_self _ _
  cases Process.step_cases hstep with
  | main call' next hmain =>
    obtain rfl : call' = call := by simpa [Process.awaiting, hmain] using hcall
    have hobeys := h.main
    rw [hmain] at hobeys
    obtain ⟨hallowed, hnext⟩ := hobeys task.told (List.Subset.refl _)
    have hlaunch := (hnext (answer call') hpossible).launch
    refine ⟨hallowed, hlaunch.1, fun b hb => ?_⟩
    rcases List.mem_append.mp hb with hb | hb
    · exact (h.dropped b hb).learn hsub
    · exact hlaunch.2 b hb
  | dropped as bs call' next hsplit =>
    obtain rfl : call' = call := by simpa [Process.awaiting, hsplit] using hcall
    obtain ⟨hallowed, hnext⟩ :=
      h.dropped (.awaits call' next) (by simp [hsplit]) task.told (List.Subset.refl _)
    have hlaunch := (hnext (answer call') hpossible).launch
    refine ⟨hallowed, h.main.learn hsub, fun b hb => ?_⟩
    simp only [List.mem_append, List.mem_cons] at hb
    rcases hb with (hb | rfl | hb) | hb
    · exact (h.dropped b (by simp [hsplit, hb])).learn hsub
    · exact hlaunch.1
    · exact (h.dropped b (by simp [hsplit, hb])).learn hsub
    · exact hlaunch.2 b hb

lemma Obedient.set {id : Nat} {task : Task ι κ ρ ε α} {store : σ}
    (h : server.Obedient allowed post s) (htask : server.TaskObeys allowed post task) :
    server.Obedient allowed post ⟨store, s.tasks.set id task⟩ := by
  intro id' task' hget
  by_cases hid : id' = id
  · subst hid
    rw [JsMap.get_set_self] at hget
    cases hget
    exact htask
  · rw [JsMap.get_set_ne _ _ hid] at hget
    exact h id' task' hget

lemma Obedient.step (hcode : ∀ i, Obeys server.Possible (allowed i) (post i) [] (server.code i))
    (h : server.Obedient allowed post s) {a : PoolAction ι κ ρ ε ξ}
    (hs : server.step s a = some s') : server.Obedient allowed post s' := by
  cases step_cases hs with
  | start id request hnew =>
    obtain ⟨hmain, hdropped⟩ := (hcode request).launch
    exact h.set ⟨hmain, hdropped⟩
  | proceed id turn answer task call store process hget hcall hexec hstep =>
    exact h.set ((h id task hget).proceed hcall ⟨_, _, hexec⟩ hstep).2
  | outside x store houtside => exact h

theorem obedient_run (hcode : ∀ i, Obeys server.Possible (allowed i) (post i) [] (server.code i))
    {as : List (PoolAction ι κ ρ ε ξ)} (hrun : Stepper.run server.step s as = some s')
    (h : server.Obedient allowed post s) : server.Obedient allowed post s' :=
  Stepper.run_invariant_of_step _ (fun _ _ _ h hs => h.step hcode hs) hrun h

/-- What a request has been answered is as `post` says. -/
lemma Obedient.response (h : server.Obedient allowed post s) {id : Nat} {task : Task ι κ ρ ε α}
    {r : Except ε α} (hget : s.tasks.get id = some task) (hr : task.response = some r) :
    post task.request task.told r := by
  have hmain := (h id task hget).main
  unfold Task.response at hr
  split at hr
  · rename_i r' hsettled
    cases hr
    rw [hsettled] at hmain
    exact hmain task.told (List.Subset.refl _)
  · cases hr

/-- The calls that have been performed were allowed, and still are if what is allowed stays so. -/
lemma told_allowed_step {a : PoolAction ι κ ρ ε ξ}
    (hmono : ∀ i told told' call, told ⊆ told' → allowed i told call → allowed i told' call)
    (hobey : server.Obedient allowed post s)
    (h : ∀ id task, s.tasks.get id = some task →
      ∀ e ∈ task.told, allowed task.request task.told e.call)
    (hs : server.step s a = some s') :
    ∀ id task, s'.tasks.get id = some task →
      ∀ e ∈ task.told, allowed task.request task.told e.call := by
  intro id' task' hget'
  cases step_cases hs with
  | start id request hnew =>
    by_cases hid : id' = id
    · subst hid
      rw [JsMap.get_set_self] at hget'
      cases hget'
      simp
    · rw [JsMap.get_set_ne _ _ hid] at hget'
      exact h id' task' hget'
  | proceed id turn answer task call store process hget hcall hexec hstep =>
    by_cases hid : id' = id
    · subst hid
      rw [JsMap.get_set_self] at hget'
      cases hget'
      have hallowed := ((hobey id' task hget).proceed hcall ⟨_, _, hexec⟩ hstep).1
      intro e he
      refine hmono _ _ _ _ (List.subset_cons_self _ _) ?_
      rcases List.mem_cons.mp he with rfl | he
      · exact hallowed
      · exact h id' task hget e he
    · rw [JsMap.get_set_ne _ _ hid] at hget'
      exact h id' task' hget'
  | outside x store houtside => exact h id' task' hget'

/-! ### What a request has been told -/

/-- What the requests that are new since `s₀` have been told they were told by stores with `Q`. -/
def ToldBy (server : Server ι κ ρ ε α σ ξ) (Q : σ → Prop) (s₀ s : Pool ι κ ρ ε α σ) : Prop :=
  ∀ id task, s.tasks.get id = some task → s₀.tasks.get id = none →
    ∀ e ∈ task.told, ∃ t t', Q t ∧ server.exec t e.call e.outcome = some t'

lemma ToldBy.step {Q : σ → Prop} {s₀ : Pool ι κ ρ ε α σ} (h : server.ToldBy Q s₀ s)
    (hQ : Q s.store) {a : PoolAction ι κ ρ ε ξ} (hs : server.step s a = some s') :
    server.ToldBy Q s₀ s' := by
  cases step_cases hs with
  | start id request hnew =>
    intro id' task' hget hold
    by_cases hid : id' = id
    · subst hid
      rw [JsMap.get_set_self] at hget
      cases hget
      simp
    · rw [JsMap.get_set_ne _ _ hid] at hget
      exact h id' task' hget hold
  | proceed id turn answer task call store process hget hcall hexec hstep =>
    intro id' task' hget' hold
    by_cases hid : id' = id
    · subst hid
      rw [JsMap.get_set_self] at hget'
      cases hget'
      intro e he
      rcases List.mem_cons.mp he with rfl | he
      · exact ⟨s.store, store, hQ, hexec⟩
      · exact h id' task hget hold e he
    · rw [JsMap.get_set_ne _ _ hid] at hget'
      exact h id' task' hget' hold
  | outside x store houtside => exact h

/-- If all stores of a run have `Q`, then what the requests that arrive in it are told is told by
stores with `Q`. -/
theorem toldBy_run {Q : σ → Prop} {as : List (PoolAction ι κ ρ ε ξ)}
    (hrun : Stepper.run server.step s as = some s')
    (hQ : ∀ bs, bs <+: as → ∀ t, Stepper.run server.step s bs = some t → Q t.store) :
    server.ToldBy Q s s' := by
  have hmain : ∀ (as : List (PoolAction ι κ ρ ε ξ)) (u : Pool ι κ ρ ε α σ), server.ToldBy Q s u →
      Stepper.run server.step u as = some s' →
      (∀ bs, bs <+: as → ∀ t, Stepper.run server.step u bs = some t → Q t.store) →
      server.ToldBy Q s s' := by
    intro as
    induction as with
    | nil =>
      intro u h hrun _
      cases hrun
      exact h
    | cons a as ih =>
      intro u h hrun hQ
      obtain ⟨v, hv, hrun⟩ := Stepper.run_cons_eq_some.mp hrun
      refine ih v (h.step (hQ [] List.nil_prefix u rfl) hv) hrun fun bs hbs t ht => ?_
      exact hQ (a :: bs) (by simpa using hbs) t (Stepper.run_cons_eq_some.mpr ⟨v, hv, ht⟩)
  refine hmain as s (fun id task hget hnone => ?_) hrun hQ
  rw [hnone] at hget
  cases hget

/-- A request stays what it is, and knows what it has been told. -/
lemma task_of_step {a : PoolAction ι κ ρ ε ξ} (hs : server.step s a = some s') {id : Nat}
    {task : Task ι κ ρ ε α} (hget : s.tasks.get id = some task) :
    ∃ task', s'.tasks.get id = some task' ∧ task'.request = task.request ∧
      task.told ⊆ task'.told := by
  cases step_cases hs with
  | start id' request hnew =>
    have hid : id ≠ id' := by
      rintro rfl
      rw [hnew] at hget
      cases hget
    exact ⟨task, by rw [JsMap.get_set_ne _ _ hid, hget], rfl, List.Subset.refl _⟩
  | proceed id' turn answer task' call store process hget' hcall hexec hstep =>
    by_cases hid : id = id'
    · subst hid
      rw [hget] at hget'
      cases hget'
      exact ⟨_, JsMap.get_set_self _ _ _, rfl, List.subset_cons_self _ _⟩
    · exact ⟨task, by rw [JsMap.get_set_ne _ _ hid, hget], rfl, List.Subset.refl _⟩
  | outside x store houtside => exact ⟨task, hget, rfl, List.Subset.refl _⟩

lemma request_of_run {as : List (PoolAction ι κ ρ ε ξ)}
    (hrun : Stepper.run server.step s as = some s') {id : Nat} {task : Task ι κ ρ ε α}
    (hget : s.tasks.get id = some task) :
    ∃ task', s'.tasks.get id = some task' ∧ task'.request = task.request := by
  refine Stepper.run_invariant_of_step
    (fun s : Pool ι κ ρ ε α σ => ∃ task', s.tasks.get id = some task' ∧ task'.request = task.request)
    ?_ hrun ⟨task, hget, rfl⟩
  rintro u a v ⟨task', hget', hreq⟩ hs
  obtain ⟨task'', hget'', hreq', -⟩ := task_of_step hs hget'
  exact ⟨task'', hget'', hreq'.trans hreq⟩

/-- A request that is new has been started. -/
lemma start_mem_of_run {as : List (PoolAction ι κ ρ ε ξ)}
    (hrun : Stepper.run server.step s as = some s') {id : Nat} {task : Task ι κ ρ ε α}
    (hget : s'.tasks.get id = some task) (hnew : s.tasks.get id = none) :
    .start id task.request ∈ as := by
  induction as generalizing s with
  | nil =>
    cases hrun
    rw [hnew] at hget
    cases hget
  | cons a as ih =>
    obtain ⟨u, hu, hrun⟩ := Stepper.run_cons_eq_some.mp hrun
    cases hget' : u.tasks.get id with
    | none => exact List.mem_cons_of_mem _ (ih hrun hget')
    | some task' =>
      obtain ⟨task'', hget'', hreq⟩ := request_of_run hrun hget'
      rw [hget] at hget''
      cases hget''
      rw [hreq]
      cases step_cases hu with
      | start id' request hnew' =>
        by_cases hid : id = id'
        · subst hid
          rw [JsMap.get_set_self] at hget'
          cases hget'
          exact List.mem_cons_self
        · rw [JsMap.get_set_ne _ _ hid, hnew] at hget'
          cases hget'
      | proceed id' turn answer task₀ call store process hget₀ hcall hexec hstep =>
        by_cases hid : id = id'
        · subst hid
          rw [hget₀] at hnew
          cases hnew
        · rw [JsMap.get_set_ne _ _ hid, hnew] at hget'
          cases hget'
      | outside x store houtside =>
        rw [hnew] at hget'
        cases hget'

/-- A request whose code awaits nothing is answered at once. -/
lemma response_of_settled {as : List (PoolAction ι κ ρ ε ξ)} {store : σ}
    (hrun : Stepper.run server.step (init store) as = some s') {id : Nat} {task : Task ι κ ρ ε α}
    (hget : s'.tasks.get id = some task) {r : Except ε α}
    (hcode : server.code task.request = .settled r) : task.response = some r := by
  have hmain := Stepper.run_invariant_of_step (fun s : Pool ι κ ρ ε α σ => ∀ id task,
    s.tasks.get id = some task → ∀ r, server.code task.request = .settled r →
      task.process.main = .settled r) ?_ hrun (fun id task hget => by simp [init] at hget)
      id task hget r hcode
  · simp only [Task.response, hmain]
  · intro s a s' h hs id' task' hget' r hcode
    cases step_cases hs with
    | start id request hnew =>
      by_cases hid : id' = id
      · subst hid
        rw [JsMap.get_set_self] at hget'
        cases hget'
        simp only [Process.start, hcode, launch]
      · rw [JsMap.get_set_ne _ _ hid] at hget'
        exact h id' task' hget' r hcode
    | proceed id turn answer task call store process hget hcall hexec hstep =>
      by_cases hid : id' = id
      · subst hid
        rw [JsMap.get_set_self] at hget'
        cases hget'
        have hsettled := h id' task hget r hcode
        cases Process.step_cases hstep with
        | main call' next hmain =>
          rw [hsettled] at hmain
          cases hmain
        | dropped as bs call' next hsplit => exact hsettled
      · rw [JsMap.get_set_ne _ _ hid] at hget'
        exact h id' task' hget' r hcode
    | outside x store houtside => exact h id' task' hget' r hcode

/-- A request whose calls have had the outcomes of `answer` goes on to the result that its computation
has with these. -/
def Follows (server : Server ι κ ρ ε α σ ξ) (answer : ∀ call, Except ε (ρ call))
    (task : Task ι κ ρ ε α) : Prop :=
  (∀ e ∈ task.told, e.outcome = answer e.call) →
    task.process.main.result answer = (server.code task.request).result answer

lemma follows_step {answer : ∀ call, Except ε (ρ call)} {s₀ : Pool ι κ ρ ε α σ}
    (h : ∀ id task, s.tasks.get id = some task → s₀.tasks.get id = none →
      server.Follows answer task) {a : PoolAction ι κ ρ ε ξ} (hs : server.step s a = some s') :
    ∀ id task, s'.tasks.get id = some task → s₀.tasks.get id = none →
      server.Follows answer task := by
  intro id' task' hget' hold
  cases step_cases hs with
  | start id request hnew =>
    by_cases hid : id' = id
    · subst hid
      rw [JsMap.get_set_self] at hget'
      cases hget'
      exact fun _ => result_launch _
    · rw [JsMap.get_set_ne _ _ hid] at hget'
      exact h id' task' hget' hold
  | proceed id turn answer' task call store process hget hcall hexec hstep =>
    by_cases hid : id' = id
    · subst hid
      rw [JsMap.get_set_self] at hget'
      cases hget'
      intro htold
      obtain ⟨hcalled, hrest⟩ := List.forall_mem_cons.mp htold
      rw [← h id' task hget hold hrest]
      cases Process.step_cases hstep with
      | main call' next hmain =>
        obtain rfl : call' = call := by simpa [Process.awaiting, hmain] using hcall
        have hcalled' : answer' call' = answer call' := hcalled
        rw [hmain, hcalled']
        exact result_launch _
      | dropped as bs call' next hsplit => rfl
    · rw [JsMap.get_set_ne _ _ hid] at hget'
      exact h id' task' hget' hold
  | outside x store houtside => exact h id' task' hget' hold

/-- A request whose calls have had the outcomes of `answer` is answered with the result of its
computation. -/
theorem response_of_told {answer : ∀ call, Except ε (ρ call)} {as : List (PoolAction ι κ ρ ε ξ)}
    (hrun : Stepper.run server.step s as = some s') {id : Nat} {task : Task ι κ ρ ε α}
    (hget : s'.tasks.get id = some task) (hnew : s.tasks.get id = none)
    (htold : ∀ e ∈ task.told, e.outcome = answer e.call) {r : Except ε α}
    (hr : task.response = some r) : r = (server.code task.request).result answer := by
  have hfollows : ∀ id task, s'.tasks.get id = some task → s.tasks.get id = none →
      server.Follows answer task := by
    refine Stepper.run_invariant_of_step (fun t : Pool ι κ ρ ε α σ => ∀ id task,
      t.tasks.get id = some task → s.tasks.get id = none → server.Follows answer task)
      (fun _ _ _ h hs => follows_step h hs) hrun fun id task hget hnew => ?_
    rw [hnew] at hget
    cases hget
  rw [← hfollows id task hget hnew htold]
  unfold Task.response at hr
  split at hr
  · rename_i r' hsettled
    cases hr
    rw [hsettled]
    rfl
  · cases hr

/-! ### Requests that are hidden from the others -/

variable {high : ι → Bool}

/-- The action belongs to a request of `s` that is high. -/
def hides (high : ι → Bool) (s : Pool ι κ ρ ε α σ) : PoolAction ι κ ρ ε ξ → Bool
  | .start id _ | .proceed id _ _ => (s.tasks.get id).any (high ·.request)
  | .outside _ => false

/-- `t` has the requests of `s` that are not high, as they are in `s`. -/
def Shows (high : ι → Bool) (R : σ → σ → Prop) (s t : Pool ι κ ρ ε α σ) : Prop :=
  R s.store t.store ∧
    ∀ id, t.tasks.get id = (s.tasks.get id).filter fun task => !high task.request

/-- As long as all requests are valid, the calls of high ones cannot be seen through `R`, and all else
does the same on both sides. -/
structure Unwinding (server : Server ι κ ρ ε α σ ξ)
    (allowed : ι → List (Performed κ ρ ε) → κ → Prop) (valid : ι → Prop) (high : ι → Bool)
    (R : σ → σ → Prop) : Prop where
  hidden : ∀ i told call outcome s s' t, valid i → high i = true → allowed i told call → R s t →
    server.exec s call outcome = some s' → R s' t
  shown : ∀ i told call outcome s s' t, valid i → high i = false → allowed i told call → R s t →
    server.exec s call outcome = some s' → ∃ t', server.exec t call outcome = some t' ∧ R s' t'
  outside : ∀ x s s' t, R s t → server.outside s x = some s' →
    ∃ t', server.outside t x = some t' ∧ R s' t'

variable {valid : ι → Prop} {R : σ → σ → Prop} {t : Pool ι κ ρ ε α σ}

lemma Shows.set_high (h : Shows high R s t) {id : Nat} {task : Task ι κ ρ ε α} {store : σ}
    (hhigh : high task.request = true)
    (hold : ∀ task', s.tasks.get id = some task' → task'.request = task.request)
    (hR : R store t.store) : Shows high R ⟨store, s.tasks.set id task⟩ t := by
  refine ⟨hR, fun id' => ?_⟩
  rw [h.2 id']
  by_cases hid : id' = id
  · subst hid
    simp only [JsMap.get_set_self, Option.filter_some, hhigh, Bool.not_true, Bool.false_eq_true,
      if_false]
    cases hget : s.tasks.get id' with
    | none => rfl
    | some task' => simp [Option.filter_some, hold task' hget, hhigh]
  · rw [JsMap.get_set_ne _ _ hid]

lemma Shows.set_low (h : Shows high R s t) {id : Nat} {task : Task ι κ ρ ε α} {store store' : σ}
    (hlow : high task.request = false) (hR : R store store') :
    Shows high R ⟨store, s.tasks.set id task⟩ ⟨store', t.tasks.set id task⟩ := by
  refine ⟨hR, fun id' => ?_⟩
  by_cases hid : id' = id
  · subst hid
    simp [Option.filter_some, hlow]
  · rw [JsMap.get_set_ne _ _ hid, JsMap.get_set_ne _ _ hid]
    exact h.2 id'

/-- A step of a high request shows nothing, and the other steps can be taken all the same. -/
lemma Shows.step (hunwind : server.Unwinding allowed valid high R)
    (hobey : server.Obedient allowed post s) (h : Shows high R s t) {a : PoolAction ι κ ρ ε ξ}
    (hs : server.step s a = some s') {u : Pool ι κ ρ ε α σ}
    (hvalid : ∀ id task, u.tasks.get id = some task → valid task.request)
    (hlater : ∀ id task, s'.tasks.get id = some task →
      ∃ task', u.tasks.get id = some task' ∧ task'.request = task.request) :
    if hides high u a then Shows high R s' t
    else ∃ t', server.step t a = some t' ∧ Shows high R s' t' := by
  cases step_cases hs with
  | start id request hnew =>
    obtain ⟨task', hu, hreq⟩ := hlater id _ (JsMap.get_set_self _ _ _)
    have hhides : hides high u (.start id request : PoolAction ι κ ρ ε ξ) = high request := by
      simp [hides, hu, hreq]
    rw [hhides]
    split
    · rename_i hhigh
      refine h.set_high hhigh (fun task' hget => ?_) h.1
      rw [hnew] at hget
      cases hget
    · rename_i hlow
      have hnew' : t.tasks.has id = false := by simp [JsMap.has, h.2 id, hnew]
      refine ⟨_, if_neg (by simp [hnew']), ?_⟩
      exact h.set_low (by simpa using hlow) h.1
  | proceed id turn answer task call store process hget hcall hexec hstep =>
    obtain ⟨task', hu, hreq⟩ := hlater id _ (JsMap.get_set_self _ _ _)
    have hhides : hides high u (.proceed id turn answer : PoolAction ι κ ρ ε ξ) =
        high task.request := by
      simp [hides, hu, hreq]
    have hallowed := ((hobey id task hget).proceed hcall ⟨_, _, hexec⟩ hstep).1
    have hok : valid task.request := hreq ▸ hvalid id task' hu
    rw [hhides]
    split
    · rename_i hhigh
      refine h.set_high hhigh (fun task' hget' => ?_) ?_
      · rw [hget] at hget'
        cases hget'
        rfl
      · exact hunwind.hidden _ _ _ _ _ _ _ hok hhigh hallowed h.1 hexec
    · rename_i hlow
      have hlow' : high task.request = false := by simpa using hlow
      obtain ⟨store', hexec', hR⟩ := hunwind.shown _ _ _ _ _ _ _ hok hlow' hallowed h.1 hexec
      have hget' : t.tasks.get id = some task := by simp [h.2 id, hget, Option.filter_some, hlow']
      refine ⟨_, ?_, h.set_low hlow' hR⟩
      simp [Server.step, hget', hcall, hexec', hstep]
  | outside x store houtside =>
    obtain ⟨store', houtside', hR⟩ := hunwind.outside _ _ _ _ h.1 houtside
    exact ⟨⟨store', t.tasks⟩, by simp [Server.step, houtside'], hR, h.2⟩

/-- Without the high requests, the run goes on for the others as it did with them. -/
theorem exists_purged (hunwind : server.Unwinding allowed valid high R)
    (hcode : ∀ i, Obeys server.Possible (allowed i) (post i) [] (server.code i))
    {as : List (PoolAction ι κ ρ ε ξ)} (hrun : Stepper.run server.step s as = some s')
    (hvalid : ∀ id task, s'.tasks.get id = some task → valid task.request)
    (hobey : server.Obedient allowed post s) (h : Shows high R s t) :
    ∃ t', Stepper.run server.step t (as.filter fun a => !hides high s' a) = some t' ∧
      Shows high R s' t' := by
  induction as generalizing s t with
  | nil =>
    cases hrun
    exact ⟨t, rfl, h⟩
  | cons a as ih =>
    obtain ⟨u, hu, hrun⟩ := Stepper.run_cons_eq_some.mp hrun
    have hnext := h.step hunwind hobey hu hvalid fun _ _ hget => request_of_run hrun hget
    split at hnext
    · rename_i hhides
      rw [List.filter_cons_of_neg (by simp [hhides])]
      exact ih hrun (hobey.step hcode hu) hnext
    · rename_i hshown
      obtain ⟨t₁, ht₁, hnext⟩ := hnext
      obtain ⟨t', ht', hshows⟩ := ih hrun (hobey.step hcode hu) hnext
      rw [List.filter_cons_of_pos (by simp [hshown])]
      exact ⟨t', Stepper.run_cons_eq_some.mpr ⟨t₁, ht₁, ht'⟩, hshows⟩

end Server

end Async
