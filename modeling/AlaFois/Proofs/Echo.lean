import AlaFois.Lib.Stepper
import AlaFois.Proofs.Attendance

/-!
# The local broadcast and its echo

A publication reaches a member at most twice: from the instance of its author at the call, and
from its own instance when the topic hands it over. Only an instance where the author has left
in the meantime does both.
-/

namespace AlaFois

open DocService Stepper

namespace Fabric

variable {I : Type*}

/-- Every call has led to at most one message to each connection. -/
def AtMostOnce (s : Fabric I) : Prop := (s.sent.map fun e => (e.1, e.2.1)).Nodup

instance (s : Fabric I) : Decidable s.AtMostOnce := inferInstanceAs (Decidable (List.Nodup _))

/-- A publication is handed to an instance where its author is still a member or none of those
who got it at the call is one any more. -/
def DeliverOk (s : Fabric I) : FabricAction I → Prop
  | .deliver i k => ∀ p, s.topic[k]? = some p →
      (s.services i).Holds p.message.docId p.message.author ∨
        ∀ c ∈ p.audience, ¬(s.services i).Holds p.message.docId c
  | _ => True

/-- What a run says about a message that was sent. -/
structure SentOk (home : ConnectionId → I) (s : Fabric I) (k : Nat) (c : ConnectionId)
    (message : ServerMessage) (p : Publication) : Prop where
  published : s.topic[k]? = some p
  message : message = p.message.broadcast
  other : c ≠ p.message.author
  origin : c ∈ p.audience ∨ k ∈ s.delivered (home c)

/-- The instances and the record of the messages agree. -/
structure WF (home : ConnectionId → I) (s : Fabric I) : Prop where
  services : ∀ i, (s.services i).WF
  home_eq : ∀ i d c, (s.services i).Holds d c → home c = i
  delivered : ∀ i, ∀ k ∈ s.delivered i, k < s.topic.length
  sent : ∀ k c message, (k, c, message) ∈ s.sent → ∃ p, s.SentOk home k c message p
  audience : ∀ k p, s.topic[k]? = some p → ∀ c ∈ p.audience,
    (k, c, p.message.broadcast) ∈ s.sent

variable {home : ConnectionId → I} {s t : Fabric I}

lemma wf_init : (init : Fabric I).WF home where
  services _ := DocService.wf_init
  home_eq i d c h := by
    obtain ⟨doc, hd, -⟩ := h
    simp [init, DocService.init] at hd
  delivered i k h := by simp [init] at h
  sent k c message h := by simp [init] at h
  audience k p h := by simp [init] at h

/-! ### One step -/

variable [DecidableEq I]

/-- What an action does to the topic and to what has been sent. -/
inductive Stepped (home : ConnectionId → I) (s t : Fabric I) : FabricAction I → Prop
  | membership (op : DocOp) (services : t.services = Function.update s.services (home op.conn)
        ((s.services (home op.conn)).apply op))
      (topic : t.topic = s.topic) (delivered : t.delivered = s.delivered)
      (sent : t.sent = s.sent) : Stepped home s t (.membership op)
  | refused (m : ChangesPubsubMessage)
      (hm : ¬∃ effects, (s.services (home m.author)).applyMessage m = .ok effects)
      (same : t = s) : Stepped home s t (.apply m)
  | published (m : ChangesPubsubMessage) (effects : ApplyEffects)
      (hm : (s.services (home m.author)).applyMessage m = .ok effects)
      (services : t.services = s.services)
      (topic : t.topic = s.topic ++ [⟨effects.published, effects.sent.map Prod.fst⟩])
      (delivered : t.delivered = s.delivered)
      (sent : t.sent = s.sent ++ effects.sent.map (s.topic.length, ·)) :
      Stepped home s t (.apply m)
  | delivered (i : I) (k : Nat) (p : Publication) (hp : s.topic[k]? = some p)
      (fresh : k ∉ s.delivered i) (services : t.services = s.services) (topic : t.topic = s.topic)
      (delivered : t.delivered = Function.update s.delivered i (k :: s.delivered i))
      (sent : t.sent = s.sent ++
        ((s.services i).onChangesOrAwarenessMessage p.message).map (k, ·)) :
      Stepped home s t (.deliver i k)

lemma step_cases {a : FabricAction I} (h : step home s a = some t) : Stepped home s t a := by
  cases a with
  | membership op =>
    cases h
    exact .membership op rfl rfl rfl rfl
  | apply m =>
    simp only [step] at h
    cases hm : (s.services (home m.author)).applyMessage m with
    | error e =>
      simp only [hm, Option.some.injEq] at h
      exact .refused m (by simp [hm]) h.symm
    | ok effects =>
      simp only [hm, Option.some.injEq] at h
      subst h
      exact .published m effects hm rfl rfl rfl rfl
  | deliver i k =>
    simp only [step] at h
    cases hp : s.topic[k]? with
    | none => simp [hp] at h
    | some p =>
      simp only [hp, Option.ite_none_left_eq_some, Option.some.injEq] at h
      obtain ⟨hfresh, rfl⟩ := h
      exact .delivered i k p hp hfresh rfl rfl rfl rfl

/-- Publications keep their place in the topic. -/
lemma getElem?_topic_step {a : FabricAction I} (h : step home s a = some t) {k : Nat}
    {p : Publication} (hp : s.topic[k]? = some p) : t.topic[k]? = some p := by
  have hlt : k < s.topic.length := (List.getElem?_eq_some_iff.mp hp).1
  cases step_cases h with
  | membership op _ htopic => rw [htopic, hp]
  | refused m _ hsame => rw [hsame, hp]
  | published m effects _ _ htopic => rw [htopic, List.getElem?_append_left hlt, hp]
  | delivered i k' p' _ _ _ htopic => rw [htopic, hp]

/-- What was sent stays sent. -/
lemma sent_subset_step {a : FabricAction I} (h : step home s a = some t) : s.sent ⊆ t.sent := by
  cases step_cases h with
  | membership op _ _ _ hsent => rw [hsent]; exact fun _ he => he
  | refused m _ hsame => rw [hsame]; exact fun _ he => he
  | published m effects _ _ _ _ hsent => rw [hsent]; exact List.subset_append_left _ _
  | delivered i k p _ _ _ _ _ hsent => rw [hsent]; exact List.subset_append_left _ _

lemma delivered_step {a : FabricAction I} (h : step home s a = some t) {i : I} {k : Nat} :
    k ∈ t.delivered i ↔ k ∈ s.delivered i ∨ a = .deliver i k := by
  cases step_cases h with
  | membership op _ _ hdelivered => simp [hdelivered]
  | refused m _ hsame => simp [hsame]
  | published m effects _ _ _ hdelivered => simp [hdelivered]
  | delivered j k' p _ _ _ _ hdelivered =>
    rw [hdelivered]
    by_cases hj : i = j
    · subst hj
      simp only [Function.update_self, List.mem_cons, FabricAction.deliver.injEq, true_and]
      rw [or_comm, eq_comm]
    · simp only [Function.update_of_ne hj, FabricAction.deliver.injEq, Ne.symm hj, false_and,
        or_false]

lemma SentOk.step {a : FabricAction I} (h : Fabric.step home s a = some t) {k : Nat}
    {c : ConnectionId} {message : ServerMessage} {p : Publication}
    (hs : s.SentOk home k c message p) : t.SentOk home k c message p where
  published := getElem?_topic_step h hs.published
  message := hs.message
  other := hs.other
  origin := hs.origin.imp_right fun hk => (delivered_step h).mpr (.inl hk)

/-- A message of a step answers a call in it, or a publication that it hands over. -/
lemma sentOk_step (hwf : s.WF home) {a : FabricAction I} (h : Fabric.step home s a = some t)
    {k : Nat} {c : ConnectionId} {message : ServerMessage} (hsent : (k, c, message) ∈ t.sent)
    (hnew : (k, c, message) ∉ s.sent) : ∃ p, t.SentOk home k c message p := by
  cases step_cases h with
  | membership op _ _ _ he => exact absurd (he ▸ hsent) hnew
  | refused m _ he => exact absurd (he ▸ hsent) hnew
  | published m effects hm _ htopic _ he =>
    have happlied := applied_of_ok (hwf.services _) hm
    rw [he, List.mem_append] at hsent
    obtain ⟨⟨c', message'⟩, hmem, heq⟩ := List.mem_map.mp (hsent.resolve_left hnew)
    cases heq
    obtain ⟨-, hne, hmessage⟩ := (happlied.sent c message).mp hmem
    refine ⟨⟨effects.published, effects.sent.map Prod.fst⟩, ?_, ?_, ?_, .inl ?_⟩
    · rw [htopic]
      simp
    · rw [hmessage, happlied.published]
    · rwa [happlied.published]
    · exact List.mem_map_of_mem (f := Prod.fst) hmem
  | delivered i k' p hp _ _ _ hdelivered he =>
    rw [he, List.mem_append] at hsent
    obtain ⟨⟨c', message'⟩, hmem, heq⟩ := List.mem_map.mp (hsent.resolve_left hnew)
    cases heq
    obtain ⟨hholds, hauthor, hmessage⟩ :=
      (mem_onChangesOrAwarenessMessage (hwf.services i) p.message c message).mp hmem
    refine ⟨p, getElem?_topic_step h hp, hmessage, ?_, .inr ?_⟩
    · rintro rfl
      exact hauthor hholds
    · rw [hdelivered, hwf.home_eq i _ c hholds]
      simp

/-- Only its own instance makes a connection a member. -/
lemma home_step (hwf : s.WF home) {a : FabricAction I} (h : Fabric.step home s a = some t) {i : I}
    {d : DocKey} {c : ConnectionId} (hh : (t.services i).Holds d c) : home c = i := by
  cases step_cases h with
  | membership op hservices =>
    rw [hservices] at hh
    by_cases hi : i = home op.conn
    · subst hi
      rw [Function.update_self] at hh
      by_cases hj : op.Joins c
      · cases op with
        | joinToDoc conn _ => exact congrArg home (Eq.symm hj)
        | attach conn _ => exact congrArg home (Eq.symm hj)
        | detach _ _ => exact hj.elim
        | disconnect _ => exact hj.elim
      · exact hwf.home_eq _ d c (holds_apply_of_not_joins (hwf.services _) op hj hh)
    · rw [Function.update_of_ne hi] at hh
      exact hwf.home_eq i d c hh
  | refused m _ hsame => exact hwf.home_eq i d c (hsame ▸ hh)
  | published m effects _ hservices => exact hwf.home_eq i d c (hservices ▸ hh)
  | delivered j k p _ _ hservices => exact hwf.home_eq i d c (hservices ▸ hh)

/-- The audience of a publication has been sent its message. -/
lemma audience_step (hwf : s.WF home) {a : FabricAction I} (h : Fabric.step home s a = some t)
    {k : Nat} {p : Publication} (hp : t.topic[k]? = some p) {c : ConnectionId}
    (hc : c ∈ p.audience) : (k, c, p.message.broadcast) ∈ t.sent := by
  by_cases hk : k < s.topic.length
  · have hold := getElem?_topic_step h (List.getElem?_eq_getElem hk)
    cases hold.symm.trans hp
    exact sent_subset_step h (hwf.audience k _ (List.getElem?_eq_getElem hk) c hc)
  · cases step_cases h with
    | membership op _ htopic => exact absurd (List.getElem?_eq_some_iff.mp (htopic ▸ hp)).1 hk
    | refused m _ hsame => exact absurd (List.getElem?_eq_some_iff.mp (hsame ▸ hp)).1 hk
    | delivered i k' p' _ _ _ htopic =>
      exact absurd (List.getElem?_eq_some_iff.mp (htopic ▸ hp)).1 hk
    | published m effects hm _ htopic _ hsent =>
      have happlied := applied_of_ok (hwf.services _) hm
      rw [htopic, List.getElem?_append_right (by omega)] at hp
      have hlast : k = s.topic.length := by
        have := (List.getElem?_eq_some_iff.mp hp).1
        simp only [List.length_cons, List.length_nil] at this
        omega
      subst hlast
      simp only [Nat.sub_self, List.getElem?_cons_zero, Option.some.injEq] at hp
      subst hp
      obtain ⟨⟨c', message⟩, hmem, rfl⟩ := List.mem_map.mp hc
      have hmessage := ((happlied.sent c' message).mp hmem).2.2
      rw [hsent, happlied.published, ← hmessage]
      exact List.mem_append_right _ (List.mem_map_of_mem hmem)

lemma wf_step (hwf : s.WF home) {a : FabricAction I} (h : Fabric.step home s a = some t) :
    t.WF home where
  services i := by
    cases step_cases h with
    | membership op hservices =>
      rw [hservices]
      by_cases hi : i = home op.conn
      · subst hi
        simpa using wf_apply (hwf.services _) op
      · simpa [hi] using hwf.services i
    | refused m _ hsame => exact hsame ▸ hwf.services i
    | published m effects _ hservices => exact hservices ▸ hwf.services i
    | delivered j k p _ _ hservices => exact hservices ▸ hwf.services i
  home_eq i d c hh := home_step hwf h hh
  delivered i k hk := by
    have hp : ∃ p, s.topic[k]? = some p := by
      rcases (delivered_step h).mp hk with hk | rfl
      · exact ⟨_, List.getElem?_eq_getElem (hwf.delivered i k hk)⟩
      · cases step_cases h with
        | delivered i k p hp => exact ⟨p, hp⟩
    obtain ⟨p, hp⟩ := hp
    exact (List.getElem?_eq_some_iff.mp (getElem?_topic_step h hp)).1
  sent k c message hsent := by
    by_cases hold : (k, c, message) ∈ s.sent
    · obtain ⟨p, hp⟩ := hwf.sent k c message hold
      exact ⟨p, hp.step h⟩
    · exact sentOk_step hwf h hsent hold
  audience k p hp c hc := audience_step hwf h hp hc

lemma wf_run {as : List (FabricAction I)} (hrun : run (step home) init as = some s) :
    s.WF home :=
  run_invariant_of_step (WF home) (fun _ _ _ hwf h => wf_step hwf h) hrun wf_init

/-! ### At most one message to each connection -/

/-- Messages to different connections stay different under the place of their publication. -/
lemma nodup_placed {sent : List Sent} (h : (sent.map Prod.fst).Nodup) (k : Nat) :
    ((sent.map (k, ·)).map fun e => (e.1, e.2.1)).Nodup := by
  have hpair : (sent.map (k, ·)).map (fun e => (e.1, e.2.1)) =
      (sent.map Prod.fst).map (k, ·) := by
    simp
  rw [hpair]
  exact h.map fun _ _ he => (Prod.mk.inj he).2

/-- Handing over a publication repeats no message exactly when `DeliverOk` says so. -/
lemma atMostOnce_step (hwf : s.WF home) (hs : s.AtMostOnce) {a : FabricAction I}
    (h : step home s a = some t) : t.AtMostOnce ↔ s.DeliverOk a := by
  cases step_cases h with
  | membership op _ _ _ he => exact iff_of_true (by rwa [AtMostOnce, he]) trivial
  | refused m _ he => exact iff_of_true (he ▸ hs) trivial
  | published m effects hm _ _ _ he =>
    refine iff_of_true ?_ trivial
    rw [AtMostOnce, he, List.map_append, List.nodup_append']
    refine ⟨hs, nodup_placed (applied_of_ok (hwf.services _) hm).nodup _, ?_⟩
    · -- the place of a new publication is none of those used before
      intro e hold hnew
      obtain ⟨⟨k, c, message⟩, hsent, rfl⟩ := List.mem_map.mp hold
      obtain ⟨p, hp⟩ := hwf.sent k c message hsent
      have hlt := (List.getElem?_eq_some_iff.mp hp.published).1
      simp only [List.map_map, List.mem_map, Function.comp_apply, Prod.mk.injEq] at hnew
      obtain ⟨-, -, hk, -⟩ := hnew
      omega
  | delivered i k p hp hfresh _ _ _ he =>
    have hreceives (c : ConnectionId) : (k, c) ∈
        (((s.services i).onChangesOrAwarenessMessage p.message).map (k, ·)).map
          (fun e => (e.1, e.2.1)) ↔
        (s.services i).Holds p.message.docId c ∧
          ¬(s.services i).Holds p.message.docId p.message.author := by
      simp [mem_onChangesOrAwarenessMessage (hwf.services i)]
    have hnodup := nodup_placed
      (nodup_onChangesOrAwarenessMessage (hwf.services i) p.message) k
    rw [AtMostOnce, he, List.map_append, List.nodup_append']
    constructor
    · rintro ⟨-, -, hdisjoint⟩ p' hp'
      cases hp.symm.trans hp'
      by_contra hcon
      push Not at hcon
      obtain ⟨hauthor, c, hc, hholds⟩ := hcon
      have hold := List.mem_map_of_mem (f := fun e : Nat × Sent => (e.1, e.2.1))
        (hwf.audience k p hp c hc)
      exact hdisjoint hold ((hreceives c).mpr ⟨hholds, hauthor⟩)
    · intro hok
      refine ⟨hs, hnodup, ?_⟩
      intro e hold hnew
      obtain ⟨⟨k', c, message⟩, hsent, rfl⟩ := List.mem_map.mp hold
      have hk : k' = k := by
        simp only [List.map_map, List.mem_map, Function.comp_apply, Prod.mk.injEq] at hnew
        obtain ⟨-, -, hk, -⟩ := hnew
        exact hk.symm
      subst hk
      obtain ⟨hholds, hauthor⟩ := (hreceives c).mp hnew
      obtain ⟨p', hp'⟩ := hwf.sent k' c message hsent
      cases hp.symm.trans hp'.published
      rcases hp'.origin with hc | hdelivered
      · exact ((hok p hp).resolve_left hauthor) c hc hholds
      · rw [hwf.home_eq i _ c hholds] at hdelivered
        exact hfresh hdelivered

/-- Every call leads to at most one message to each connection, throughout a run, exactly when no
publication is handed to an instance that its author has left and a receiver has not. -/
theorem at_most_once_iff (home : ConnectionId → I) (as : List (FabricAction I)) :
    (∀ bs, bs <+: as → ∀ s, run (step home) init bs = some s → s.AtMostOnce) ↔
      Guarded (step home) DeliverOk init as :=
  invariant_iff_guarded (WF home) AtMostOnce (fun _ _ _ hwf h => wf_step hwf h)
    (fun _ _ _ hwf hs h => atMostOnce_step hwf hs h) as wf_init (by simp [AtMostOnce, init])

/-- The author disconnects before its own instance gets the echo. -/
theorem sent_again_after_author_left :
    ∃ s, run (step fun _ => ()) init
        [.membership (.joinToDoc "a" "d"), .membership (.joinToDoc "b" "d"),
          .apply (.changes "a" "d" "x"), .membership (.disconnect "a"), .deliver () 0] = some s ∧
      (0, "b", .broadcastChanges "d" "x") ∈ s.sent ∧ ¬s.AtMostOnce := by
  refine ⟨_, rfl, ?_, ?_⟩
  · decide
  · decide

/-! ### No broadcast is lost, none goes back -/

/-- A message that is nowhere on the way to a connection is handed to its instance later and is
passed on there, as long as the connection stays a member until then. -/
lemma sent_of_delivered {k : Nat} {p : Publication} {c : ConnectionId}
    (hc : home c ≠ home p.message.author) (hwf : s.WF home) (hp : s.topic[k]? = some p)
    (hk : k ∉ s.delivered (home c)) {as : List (FabricAction I)}
    (hrun : run (step home) s as = some t)
    (hmember : Guarded (step home) (fun u _ => k ∉ u.delivered (home c) →
      (u.services (home c)).Holds p.message.docId c) s as)
    (hdone : k ∈ t.delivered (home c)) : (k, c, p.message.broadcast) ∈ t.sent := by
  let inv (u : Fabric I) : Prop := u.WF home ∧ u.topic[k]? = some p ∧
    (k ∈ u.delivered (home c) → (k, c, p.message.broadcast) ∈ u.sent)
  have hstep (u : Fabric I) (a : FabricAction I) (v : Fabric I) (hu : inv u)
      (hholds : k ∉ u.delivered (home c) → (u.services (home c)).Holds p.message.docId c)
      (h : step home u a = some v) : inv v := by
    obtain ⟨hwf, hp, hsent⟩ := hu
    refine ⟨wf_step hwf h, getElem?_topic_step h hp, fun hk => ?_⟩
    by_cases hold : k ∈ u.delivered (home c)
    · exact sent_subset_step h (hsent hold)
    · have ha := ((delivered_step h).mp hk).resolve_left hold
      subst ha
      cases step_cases h with
      | delivered i k p' hp' _ _ _ _ he =>
        cases hp.symm.trans hp'
        -- members are held by their own instance only, so the author is none of this one's
        have hauthor : ¬(u.services (home c)).Holds p.message.docId p.message.author :=
          fun hh => hc (hwf.home_eq _ _ _ hh).symm
        rw [he]
        refine List.mem_append_right _ (List.mem_map_of_mem ?_)
        exact (mem_onChangesOrAwarenessMessage (hwf.services _) p.message c _).mpr
          ⟨hholds hold, hauthor, rfl⟩
  have hinv : inv t :=
    run_invariant inv hstep hrun hmember ⟨hwf, hp, fun hin => absurd hin hk⟩
  exact hinv.2.2 hdone

/-- When a publication has been handed to every instance, every connection but its author that
was a member at its instance until then has been sent the message, and the author has not. -/
theorem delivered_to_members_only (home : ConnectionId → I) {as bs : List (FabricAction I)}
    {m : ChangesPubsubMessage} {effects : ApplyEffects} {s₀ s₁ s : Fabric I}
    (hbefore : run (step home) init as = some s₀)
    (hok : (s₀.services (home m.author)).applyMessage m = .ok effects)
    (hcall : step home s₀ (.apply m) = some s₁) (hafter : run (step home) s₁ bs = some s)
    (hall : ∀ i, s₀.topic.length ∈ s.delivered i) :
    (∀ c, c ≠ m.author →
      Guarded (step home) (fun t _ => s₀.topic.length ∉ t.delivered (home c) →
        (t.services (home c)).Holds m.docId c) s₁ bs →
      (s₀.topic.length, c, m.broadcast) ∈ s.sent) ∧
    ∀ message, (s₀.topic.length, m.author, message) ∉ s.sent := by
  have hwf₀ := wf_run hbefore
  have hwf₁ := wf_step hwf₀ hcall
  have hwf : s.WF home :=
    run_invariant_of_step (WF home) (fun _ _ _ hwf h => wf_step hwf h) hafter hwf₁
  have happlied := applied_of_ok (hwf₀.services _) hok
  cases step_cases hcall with
  | refused m hm => exact absurd ⟨effects, hok⟩ hm
  | published m effects' hm hservices htopic hdelivered hsent =>
    cases hok.symm.trans hm
    let p : Publication := ⟨effects.published, effects.sent.map Prod.fst⟩
    have hmessage : p.message = m := happlied.published
    have hp : s₁.topic[s₀.topic.length]? = some p := by simp [htopic, p]
    have hfresh (i : I) : s₀.topic.length ∉ s₁.delivered i := fun hin =>
      absurd (hwf₀.delivered i _ (hdelivered ▸ hin)) (lt_irrefl _)
    constructor
    · intro c hne hmember
      by_cases hc : home c = home m.author
      · -- the connection got the message from the call itself
        have hholds : (s₁.services (home c)).Holds m.docId c := by
          cases bs with
          | nil =>
            cases hafter
            exact absurd (hall (home c)) (hfresh (home c))
          | cons a bs =>
            obtain ⟨u, hu, -⟩ := run_cons_eq_some.mp hafter
            exact ((guarded_cons hu).mp hmember).1 (hfresh (home c))
        rw [hservices, hc] at hholds
        have hin : (s₀.topic.length, c, m.broadcast) ∈ s₁.sent := by
          rw [hsent]
          exact List.mem_append_right _
            (List.mem_map_of_mem ((happlied.sent c _).mpr ⟨hholds, hne, rfl⟩))
        exact run_invariant_of_step (fun u => (s₀.topic.length, c, m.broadcast) ∈ u.sent)
          (fun _ _ _ hin h => sent_subset_step h hin) hafter hin
      · rw [← hmessage] at hc hmember ⊢
        exact sent_of_delivered hc hwf₁ hp (hfresh _) hafter hmember (hall _)
    · intro message hin
      obtain ⟨p', hp'⟩ := hwf.sent _ _ _ hin
      have hstays := run_invariant_of_step (fun u => u.topic[s₀.topic.length]? = some p)
        (fun _ _ _ hin h => getElem?_topic_step h hin) hafter hp
      cases hstays.symm.trans hp'.published
      exact hp'.other (by rw [hmessage])

/-- Connection `b` is at another instance than the author and gets the message there. -/
theorem delivered_to_other_instance : ∃ s : Fabric Bool,
    run (step fun c => decide (c = "b")) init
        [.membership (.joinToDoc "a" "d"), .membership (.joinToDoc "b" "d"),
          .apply (.changes "a" "d" "x"), .deliver false 0, .deliver true 0] = some s ∧
      (0, "b", .broadcastChanges "d" "x") ∈ s.sent ∧ ∀ message, (0, "a", message) ∉ s.sent := by
  let home (c : ConnectionId) : Bool := decide (c = "b")
  obtain ⟨s₀, hbefore⟩ : ∃ s₀, run (step home) init
      [.membership (.joinToDoc "a" "d"), .membership (.joinToDoc "b" "d")] = some s₀ := ⟨_, rfl⟩
  obtain ⟨effects, hok⟩ : ∃ effects,
      (s₀.services (home "a")).applyMessage (.changes "a" "d" "x") = .ok effects := by
    cases hbefore
    exact ⟨_, rfl⟩
  obtain ⟨s₁, hcall⟩ : ∃ s₁, step home s₀ (.apply (.changes "a" "d" "x")) = some s₁ := by
    cases hbefore
    exact ⟨_, rfl⟩
  obtain ⟨s, hafter⟩ : ∃ s, run (step home) s₁ [.deliver false 0, .deliver true 0] = some s := by
    cases hbefore
    cases hcall
    exact ⟨_, rfl⟩
  have hall : ∀ i, s₀.topic.length ∈ s.delivered i := by
    cases hbefore
    cases hcall
    cases hafter
    decide
  have hmember : Guarded (step home) (fun t _ => s₀.topic.length ∉ t.delivered (home "b") →
      (t.services (home "b")).Holds "d" "b") s₁ [.deliver false 0, .deliver true 0] := by
    cases hbefore
    cases hcall
    decide
  obtain ⟨hsent, hself⟩ := delivered_to_members_only (m := .changes "a" "d" "x") home
    hbefore hok hcall hafter hall
  have hlength : s₀.topic.length = 0 := by
    cases hbefore
    rfl
  rw [hlength] at hsent hself hmember
  refine ⟨s, ?_, hsent "b" (by decide) hmember, hself⟩
  rw [show [FabricAction.membership (.joinToDoc "a" "d"), .membership (.joinToDoc "b" "d"),
    .apply (.changes "a" "d" "x"), .deliver false 0, .deliver true 0] =
    [.membership (.joinToDoc "a" "d"), .membership (.joinToDoc "b" "d")] ++
      [.apply (.changes "a" "d" "x"), .deliver false 0, .deliver true 0] from rfl,
    run_append hbefore, run_cons_eq_some]
  exact ⟨s₁, hcall, hafter⟩

end Fabric

end AlaFois
