import AlaFois.Lib.JsMap

/-!
# A synchronous message bus

Publishing a message calls its subscribers one after the other; a subscriber can publish in its
middle, which calls the subscribers of that message before it goes on. An exception ends the
publication, and what has been done before it stays. When no message leads back to itself, the bus
does what direct calls would do.
-/

namespace Bus

variable {ε σ μ κ : Type} [DecidableEq κ]

/-- A subscriber is given the bus to publish on. -/
abbrev Subscriber (ε σ μ : Type) : Type := (μ → EStateM ε σ Unit) → μ → EStateM ε σ Unit

abbrev Subscribers (κ ε σ μ : Type) : Type := JsMap κ (List (Subscriber ε σ μ))

def subscribersOf (subs : Subscribers κ ε σ μ) (key : κ) : List (Subscriber ε σ μ) :=
  (subs.get key).getD []

def subscribe (subs : Subscribers κ ε σ μ) (key : κ) (sub : Subscriber ε σ μ) :
    Subscribers κ ε σ μ :=
  subs.set key (subscribersOf subs key ++ [sub])

/-- Each publication in the middle of another one takes one of the places on the stack. -/
def publish (key : μ → κ) (subs : Subscribers κ ε σ μ) (overflow : ε) :
    Nat → μ → EStateM ε σ Unit
  | 0, _ => throw overflow
  | n + 1, m => (subscribersOf subs (key m)).forM fun sub => sub (publish key subs overflow n) m

@[simp] lemma subscribersOf_empty (key : κ) :
    subscribersOf (.empty : Subscribers κ ε σ μ) key = [] := rfl

lemma subscribersOf_subscribe (subs : Subscribers κ ε σ μ) (key key' : κ) (sub : Subscriber ε σ μ) :
    subscribersOf (subscribe subs key sub) key' =
      if key' = key then subscribersOf subs key ++ [sub] else subscribersOf subs key' := by
  by_cases h : key' = key
  · rw [if_pos h, h]
    simp [subscribersOf, subscribe]
  · rw [if_neg h]
    simp [subscribersOf, subscribe, JsMap.get_set_ne _ _ h]

/-- The state in which a computation ends, with an exception or without. -/
def finalState {α : Type} (x : EStateM ε σ α) (s : σ) : σ :=
  match x s with
  | .ok _ s' => s'
  | .error _ s' => s'

lemma get_bind_apply {α : Type} (f : σ → EStateM ε σ α) (s : σ) :
    ((get : EStateM ε σ σ) >>= f) s = f s s := rfl

lemma bind_of_ok {α β : Type} {x : EStateM ε σ α} {f : α → EStateM ε σ β} {s s' : σ} {a : α}
    (h : x s = .ok a s') : (x >>= f) s = f a s' := by
  change EStateM.bind x f s = _
  rw [EStateM.bind, h]

lemma bind_of_error {α β : Type} {x : EStateM ε σ α} {f : α → EStateM ε σ β} {s s' : σ} {e : ε}
    (h : x s = .error e s') : (x >>= f) s = .error e s' := by
  change EStateM.bind x f s = _
  rw [EStateM.bind, h]

lemma finalState_get_bind {α : Type} (f : σ → EStateM ε σ α) (s : σ) :
    finalState ((get : EStateM ε σ σ) >>= f) s = finalState (f s) s := rfl

lemma finalState_bind_of_ok {α β : Type} {x : EStateM ε σ α} {f : α → EStateM ε σ β} {s s' : σ}
    {a : α} (h : x s = .ok a s') : finalState (x >>= f) s = finalState (f a) s' := by
  rw [finalState, bind_of_ok h, finalState]

lemma finalState_bind_of_error {α β : Type} {x : EStateM ε σ α} {f : α → EStateM ε σ β} {s s' : σ}
    {e : ε} (h : x s = .error e s') : finalState (x >>= f) s = s' := by
  rw [finalState, bind_of_error h]

/-- A loop whose rounds do not fail. -/
lemma forM_eq_ok {α : Type} {x : α → EStateM ε σ Unit} {f : σ → α → σ}
    (hx : ∀ a s, x a s = .ok () (f s a)) (as : List α) (s : σ) :
    as.forM x s = .ok () (as.foldl f s) := by
  induction as generalizing s with
  | nil => rfl
  | cons a as ih =>
    exact (bind_of_ok (hx a s)).trans (ih (f s a))

lemma forM_singleton {α : Type} (x : α → EStateM ε σ Unit) (a : α) : [a].forM x = x a := by
  have hone : (x a >>= fun _ => pure ()) = x a := bind_pure_unit
  exact hone

lemma publish_of_single {key : μ → κ} {subs : Subscribers κ ε σ μ} {overflow : ε} {n : Nat} {m : μ}
    {sub : Subscriber ε σ μ} (h : subscribersOf subs (key m) = [sub]) :
    publish key subs overflow (n + 1) m = sub (publish key subs overflow n) m := by
  rw [publish, h, forM_singleton]

lemma publish_of_none {key : μ → κ} {subs : Subscribers κ ε σ μ} {overflow : ε} {n : Nat} {m : μ}
    (h : subscribersOf subs (key m) = []) : publish key subs overflow (n + 1) m = pure () := by
  rw [publish, h]
  rfl

/-- Where the subscribers of each message, given a bus that does the direct calls for all messages of
lower rank, do its direct call, publishing does it too, as soon as the stack is as deep as the
rank. -/
theorem publish_eq {key : μ → κ} {subs : Subscribers κ ε σ μ} (overflow : ε) {rank : μ → Nat}
    {direct : μ → EStateM ε σ Unit}
    (hdirect : ∀ m bus, (∀ m', rank m' < rank m → bus m' = direct m') →
      (subscribersOf subs (key m)).forM (fun sub => sub bus m) = direct m) :
    ∀ n m, rank m < n → publish key subs overflow n m = direct m := by
  intro n
  induction n with
  | zero => exact fun m h => absurd h (Nat.not_lt_zero _)
  | succ n ih =>
    intro m hm
    exact hdirect m _ fun m' hm' => ih m' (Nat.lt_of_lt_of_le hm' (Nat.lt_succ_iff.mp hm))

end Bus
