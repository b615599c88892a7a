import AlaFois.Lib.Stepper
import AlaFois.Model.ClientDocs

/-!
# One live container per document

A container that is neither disposed nor in `docs` nor waiting for its join is lost: no call of the
client reaches it again. This happens where a join fails, and where a second call for an id goes on
after a first one has recorded its container.
-/

namespace AlaFois.ClientDocs

open Stepper

variable {s s' : ClientDocs} {a : DocsAction} {id : DocKey} {c : Nat} {call : OpenCall}

/-- Constructed and not disposed. -/
def Live (s : ClientDocs) (c : Nat) : Prop := c < s.constructed.length ∧ c ∉ s.disposed

/-- A call waits for the join of the container. -/
def Pending (s : ClientDocs) (c : Nat) : Prop := ∃ call ∈ s.opening, call.container = c

def Recorded (s : ClientDocs) (c : Nat) : Prop := ∃ id, s.docs.get id = some c

/-- The live containers are the values of `docs`, one for each id, and they are what `getDoc` has
returned. -/
structure OneEach (s : ClientDocs) : Prop where
  values : ∀ c, s.Live c ↔ s.Recorded c
  one : ∀ c c', s.Live c → s.Live c' → s.constructed[c]? = s.constructed[c']? → c = c'
  returned : ∀ answer ∈ s.returned, s.docs.get answer.1 = some answer.2

/-- `disposeDocs` finds the socket connected, or nothing to dispose. -/
def Connected (s : ClientDocs) : DocsAction → Prop
  | .disposeDocs connecting => connecting = true → s.docs.entries = []
  | _ => True

/-- No join fails, and a call that goes on finds no container of its id in `docs`. -/
def Orderly (s : ClientDocs) : DocsAction → Prop
  | .getDoc _ => True
  | .joinResponse .ok => True
  | .joinResponse (.err _) => ∀ call ∈ s.opening, call.joined = true
  | .joinFailed _ => False
  | .resume => ∀ call ∈ s.next, s.docs.get call.id = none
  | .disposeDocs connecting => connecting = true → s.docs.entries = []

instance : ∀ s a, Decidable (Orderly s a)
  | _, .getDoc _ => isTrue trivial
  | _, .joinResponse .ok => isTrue trivial
  | s, .joinResponse (.err _) =>
    inferInstanceAs (Decidable (∀ call ∈ s.opening, call.joined = true))
  | _, .joinFailed _ => isFalse not_false
  | s, .resume => inferInstanceAs (Decidable (∀ call ∈ s.next, s.docs.get call.id = none))
  | s, .disposeDocs connecting =>
    inferInstanceAs (Decidable (connecting = true → s.docs.entries = []))

lemma connected_of_orderly (h : s.Orderly a) : s.Connected a := by
  cases a with
  | disposeDocs connecting => exact h
  | _ => trivial

/-- What holds as long as `disposeDocs` does not throw. -/
structure Wf (s : ClientDocs) : Prop where
  opened : ∀ call ∈ s.opening, s.constructed[call.container]? = some call.id
  undisposed : ∀ call ∈ s.opening, call.container ∉ s.disposed
  unrecorded : ∀ call ∈ s.opening, s.docs.get call.id ≠ some call.container
  distinct : ∀ call ∈ s.opening, ∀ call' ∈ s.opening, call.container = call'.container →
    call = call'
  recorded : ∀ id c, s.docs.get id = some c → s.constructed[c]? = some id ∧ c ∉ s.disposed
  disposed : ∀ c ∈ s.disposed, c < s.constructed.length

/-- No container is lost. -/
def Kept (s : ClientDocs) : Prop := ∀ c, s.Live c → s.Pending c ∨ s.Recorded c

lemma mem_values_iff : c ∈ s.docs.entries.map Prod.snd ↔ s.Recorded c := by
  simp only [List.mem_map, Prod.exists, exists_eq_right, Recorded]
  exact exists_congr fun id => s.docs.mem_entries_iff id c

lemma disposeDocs_eq {connecting : Bool} (h : s.Connected (.disposeDocs connecting)) :
    s.disposeDocs connecting =
      { s with
        disposed := s.disposed ++ s.docs.entries.map Prod.snd
        docs := .empty
        returned := [] } := by
  unfold disposeDocs
  split
  · rename_i c rest hentries
    simp [h rfl] at hentries
  · rfl

lemma next_mem (h : s.next = some call) : call ∈ s.opening := List.mem_of_find?_eq_some h

namespace Wf

lemma lt_of_pending (h : s.Wf) (hcall : call ∈ s.opening) :
    call.container < s.constructed.length :=
  (List.getElem?_eq_some_iff.mp (h.opened call hcall)).1

lemma live_of_pending (h : s.Wf) (hcall : call ∈ s.opening) : s.Live call.container :=
  ⟨h.lt_of_pending hcall, h.undisposed call hcall⟩

lemma live_of_recorded (h : s.Wf) (hc : s.docs.get id = some c) : s.Live c :=
  ⟨(List.getElem?_eq_some_iff.mp (h.recorded id c hc).1).1, (h.recorded id c hc).2⟩

/-- The id of a container is the one it has been constructed with. -/
lemma id_eq (h : s.Wf) {id' : DocKey} (hc : s.docs.get id = some c)
    (hc' : s.docs.get id' = some c) : id = id' := by
  have hid := (h.recorded id c hc).1
  rw [(h.recorded id' c hc').1] at hid
  exact (Option.some.inj hid).symm

lemma not_recorded (h : s.Wf) (hcall : call ∈ s.opening) : ¬s.Recorded call.container := by
  rintro ⟨id, hid⟩
  have hsame := (h.recorded id _ hid).1
  rw [h.opened call hcall] at hsame
  obtain rfl := Option.some.inj hsame
  exact h.unrecorded call hcall hid

lemma init : init.Wf where
  opened := by simp [ClientDocs.init]
  undisposed := by simp [ClientDocs.init]
  unrecorded := by simp [ClientDocs.init]
  distinct := by simp [ClientDocs.init]
  recorded := by simp [ClientDocs.init]
  disposed := by simp [ClientDocs.init]

/-- Calls that end leave the others as they are. -/
lemma of_opening (h : s.Wf) {opening : List OpenCall}
    (hsub : ∀ call ∈ opening, call ∈ s.opening) : Wf { s with opening := opening } where
  opened call hcall := h.opened call (hsub call hcall)
  undisposed call hcall := h.undisposed call (hsub call hcall)
  unrecorded call hcall := h.unrecorded call (hsub call hcall)
  distinct call hcall call' hcall' := h.distinct call (hsub call hcall) call' (hsub call' hcall')
  recorded := h.recorded
  disposed := h.disposed

lemma getDoc (h : s.Wf) (id : DocKey) : (s.getDoc id).Wf := by
  unfold ClientDocs.getDoc
  split
  · exact ⟨h.opened, h.undisposed, h.unrecorded, h.distinct, h.recorded, h.disposed⟩
  · rename_i hnone
    have hgrow {c : Nat} {id' : DocKey} (hc : s.constructed[c]? = some id') :
        (s.constructed ++ [id])[c]? = some id' := by
      rw [List.getElem?_append_left (List.getElem?_eq_some_iff.mp hc).1, hc]
    constructor
    · intro call hcall
      rcases List.mem_append.mp hcall with hcall | hcall
      · exact hgrow (h.opened call hcall)
      · obtain rfl := List.mem_singleton.mp hcall
        simp
    · intro call hcall hdisposed
      rcases List.mem_append.mp hcall with hcall | hcall
      · exact h.undisposed call hcall hdisposed
      · obtain rfl := List.mem_singleton.mp hcall
        exact Nat.lt_irrefl _ (h.disposed _ hdisposed)
    · intro call hcall
      rcases List.mem_append.mp hcall with hcall | hcall
      · exact h.unrecorded call hcall
      · obtain rfl := List.mem_singleton.mp hcall
        simp [hnone]
    · intro call hcall call' hcall' heq
      rcases List.mem_append.mp hcall with hcall | hcall <;>
        rcases List.mem_append.mp hcall' with hcall' | hcall'
      · exact h.distinct call hcall call' hcall' heq
      · obtain rfl := List.mem_singleton.mp hcall'
        exact absurd heq (Nat.ne_of_lt (h.lt_of_pending hcall))
      · obtain rfl := List.mem_singleton.mp hcall
        exact absurd heq (Nat.ne_of_gt (h.lt_of_pending hcall'))
      · rw [List.mem_singleton.mp hcall, List.mem_singleton.mp hcall']
    · exact fun id' c hc => ⟨hgrow (h.recorded id' c hc).1, (h.recorded id' c hc).2⟩
    · intro c hc
      have hlt := h.disposed c hc
      simp only [List.length_append, List.length_singleton]
      omega

lemma joinResponse (h : s.Wf) (status : Status) : (s.joinResponse status).Wf := by
  cases status with
  | ok =>
    have hmem {call : OpenCall} (hcall : call ∈ (s.joinResponse .ok).opening) :
        ∃ call₀ ∈ s.opening, call = { call₀ with joined := true } := by
      obtain ⟨call₀, hcall₀, rfl⟩ := List.mem_map.mp hcall
      exact ⟨call₀, hcall₀, rfl⟩
    constructor
    · intro call hcall
      obtain ⟨call₀, hcall₀, rfl⟩ := hmem hcall
      exact h.opened call₀ hcall₀
    · intro call hcall
      obtain ⟨call₀, hcall₀, rfl⟩ := hmem hcall
      exact h.undisposed call₀ hcall₀
    · intro call hcall
      obtain ⟨call₀, hcall₀, rfl⟩ := hmem hcall
      exact h.unrecorded call₀ hcall₀
    · intro call hcall call' hcall' heq
      obtain ⟨call₀, hcall₀, rfl⟩ := hmem hcall
      obtain ⟨call₁, hcall₁, rfl⟩ := hmem hcall'
      rw [h.distinct call₀ hcall₀ call₁ hcall₁ heq]
    · exact h.recorded
    · exact h.disposed
  | err message => exact h.of_opening fun call hcall => List.mem_of_mem_filter hcall

lemma resume (h : s.Wf) (hcall : call ∈ s.opening) : (s.resume call).Wf := by
  have hrest : Wf { s with opening := s.opening.filter (·.container ≠ call.container) } :=
    h.of_opening fun call' hcall' => List.mem_of_mem_filter hcall'
  refine ⟨hrest.opened, hrest.undisposed, ?_, hrest.distinct, ?_, h.disposed⟩
  · intro call' hcall'
    have hne : call'.container ≠ call.container := by
      simpa using (List.mem_filter.mp hcall').2
    simp only [ClientDocs.resume, JsMap.get_set]
    split
    · exact fun he => hne (Option.some.inj he).symm
    · exact hrest.unrecorded call' hcall'
  · intro id c hc
    simp only [ClientDocs.resume, JsMap.get_set] at hc
    split at hc
    · rename_i hid
      obtain rfl := Option.some.inj hc
      exact ⟨hid ▸ h.opened call hcall, h.undisposed call hcall⟩
    · exact h.recorded id c hc

lemma disposeDocs (h : s.Wf) {connecting : Bool} (hcon : s.Connected (.disposeDocs connecting)) :
    (s.disposeDocs connecting).Wf := by
  rw [disposeDocs_eq hcon]
  refine ⟨h.opened, ?_, by simp, h.distinct, by simp, ?_⟩
  · intro call hcall hmem
    rcases List.mem_append.mp hmem with hmem | hmem
    · exact h.undisposed call hcall hmem
    · exact h.not_recorded hcall (mem_values_iff.mp hmem)
  · intro c hmem
    rcases List.mem_append.mp hmem with hmem | hmem
    · exact h.disposed c hmem
    · obtain ⟨id, hid⟩ := mem_values_iff.mp hmem
      exact (h.live_of_recorded hid).1

lemma step (h : s.Wf) (hcon : s.Connected a) (ht : s.step a = some s') : s'.Wf := by
  cases a with
  | getDoc id =>
    obtain ⟨-, ht⟩ := Option.ite_none_left_eq_some.mp ht
    cases ht
    exact h.getDoc id
  | joinResponse status =>
    cases ht
    exact h.joinResponse status
  | joinFailed c =>
    obtain ⟨-, ht⟩ := Option.ite_none_right_eq_some.mp ht
    cases ht
    exact h.of_opening fun call hcall => List.mem_of_mem_filter hcall
  | resume =>
    obtain ⟨call, hnext, rfl⟩ := Option.map_eq_some_iff.mp ht
    exact h.resume (next_mem hnext)
  | disposeDocs connecting =>
    cases ht
    exact h.disposeDocs hcon

end Wf

/-! ### Lost containers -/

lemma kept_getDoc (s : ClientDocs) (id : DocKey) : (s.getDoc id).Kept ↔ s.Kept := by
  unfold ClientDocs.getDoc
  split
  · exact Iff.rfl
  · constructor
    · intro hkept c hlive
      have hlt : c < (s.constructed ++ [id]).length := by
        simpa using Nat.lt_succ_of_lt hlive.1
      rcases hkept c ⟨hlt, hlive.2⟩ with ⟨call, hcall, rfl⟩ | hrec
      · rcases List.mem_append.mp hcall with hcall | hcall
        · exact .inl ⟨call, hcall, rfl⟩
        · obtain rfl := List.mem_singleton.mp hcall
          exact absurd hlive.1 (Nat.lt_irrefl _)
      · exact .inr hrec
    · rintro hkept c ⟨hlt, hdisposed⟩
      rcases Nat.lt_succ_iff_lt_or_eq.mp (by simpa using hlt) with hlt | rfl
      · rcases hkept c ⟨hlt, hdisposed⟩ with ⟨call, hcall, rfl⟩ | hrec
        · exact .inl ⟨call, List.mem_append_left _ hcall, rfl⟩
        · exact .inr hrec
      · exact .inl ⟨_, List.mem_append_right _ (List.mem_singleton_self _), rfl⟩

lemma kept_disposeDocs {connecting : Bool} (hcon : s.Connected (.disposeDocs connecting)) :
    (s.disposeDocs connecting).Kept ↔ s.Kept := by
  rw [disposeDocs_eq hcon]
  have hlive (c : Nat) : Live { s with
        disposed := s.disposed ++ s.docs.entries.map Prod.snd
        docs := .empty
        returned := [] } c ↔ s.Live c ∧ ¬s.Recorded c := by
    simp only [Live, List.mem_append, mem_values_iff, not_or, and_assoc]
  constructor
  · intro hkept c hc
    by_cases hr : s.Recorded c
    · exact .inr hr
    · rcases hkept c ((hlive c).mpr ⟨hc, hr⟩) with hp | ⟨id, hid⟩
      · exact .inl hp
      · cases hid
  · intro hkept c hc
    obtain ⟨hc, hr⟩ := (hlive c).mp hc
    exact .inl ((hkept c hc).resolve_right hr)

namespace Wf

lemma kept_joinResponse (h : s.Wf) (status : Status) :
    (s.joinResponse status).Kept ↔ s.Kept ∧ s.Orderly (.joinResponse status) := by
  cases status with
  | ok =>
    have hpending (c : Nat) : (s.joinResponse .ok).Pending c ↔ s.Pending c := by
      simp [Pending, ClientDocs.joinResponse]
    rw [and_iff_left (show s.Orderly (.joinResponse .ok) from trivial)]
    exact forall_congr' fun c => imp_congr_right fun _ => or_congr_left (hpending c)
  | err message =>
    constructor
    · intro hkept
      constructor
      · intro c hlive
        rcases hkept c hlive with ⟨call, hcall, rfl⟩ | hrec
        · exact .inl ⟨call, List.mem_of_mem_filter hcall, rfl⟩
        · exact .inr hrec
      · intro call hcall
        rcases hkept _ (h.live_of_pending hcall) with ⟨call', hcall', heq⟩ | hrec
        · obtain ⟨hmem, hjoined⟩ := List.mem_filter.mp hcall'
          rwa [h.distinct call' hmem call hcall heq] at hjoined
        · exact absurd hrec (h.not_recorded hcall)
    · rintro ⟨hkept, hjoined⟩ c hlive
      rcases hkept c hlive with ⟨call, hcall, rfl⟩ | hrec
      · exact .inl ⟨call, List.mem_filter.mpr ⟨hcall, hjoined call hcall⟩, rfl⟩
      · exact .inr hrec

/-- The container of a join that fails is lost. -/
lemma not_kept_joinFailed (h : s.Wf) (hcall : call ∈ s.opening) :
    ¬(s.joinFailed call.container).Kept := by
  intro hkept
  rcases hkept _ (h.live_of_pending hcall) with ⟨call', hcall', heq⟩ | hrec
  · simpa [heq] using (List.mem_filter.mp hcall').2
  · exact h.not_recorded hcall hrec

/-- A container that has been recorded under the id is lost when the call goes on. -/
lemma kept_resume (h : s.Wf) (hcall : call ∈ s.opening) :
    (s.resume call).Kept ↔ s.Kept ∧ s.docs.get call.id = none := by
  have hpending (c : Nat) :
      (s.resume call).Pending c ↔ s.Pending c ∧ c ≠ call.container := by
    constructor
    · rintro ⟨call', hcall', rfl⟩
      obtain ⟨hmem, hne⟩ := List.mem_filter.mp hcall'
      exact ⟨⟨call', hmem, rfl⟩, by simpa using hne⟩
    · rintro ⟨⟨call', hcall', rfl⟩, hne⟩
      exact ⟨call', List.mem_filter.mpr ⟨hcall', by simpa using hne⟩, rfl⟩
  have hrecorded (c : Nat) : (s.resume call).Recorded c ↔
      c = call.container ∨ ∃ id, id ≠ call.id ∧ s.docs.get id = some c := by
    constructor
    · rintro ⟨id, hid⟩
      by_cases hsame : id = call.id
      · rw [ClientDocs.resume, hsame, JsMap.get_set_self] at hid
        exact .inl (Option.some.inj hid).symm
      · rw [ClientDocs.resume, JsMap.get_set_ne _ _ hsame] at hid
        exact .inr ⟨id, hsame, hid⟩
    · rintro (rfl | ⟨id, hsame, hid⟩)
      · exact ⟨call.id, JsMap.get_set_self _ _ _⟩
      · exact ⟨id, (JsMap.get_set_ne _ _ hsame).trans hid⟩
  constructor
  · intro hkept
    constructor
    · intro c hlive
      rcases hkept c hlive with hp | hr
      · exact .inl ((hpending c).mp hp).1
      · rcases (hrecorded c).mp hr with rfl | ⟨id, -, hid⟩
        · exact .inl ⟨call, hcall, rfl⟩
        · exact .inr ⟨id, hid⟩
    · rw [Option.eq_none_iff_forall_ne_some]
      intro c hc
      rcases hkept c (h.live_of_recorded hc) with hp | hr
      · obtain ⟨call', hcall', rfl⟩ := ((hpending c).mp hp).1
        exact h.not_recorded hcall' ⟨call.id, hc⟩
      · rcases (hrecorded c).mp hr with rfl | ⟨id, hsame, hid⟩
        · exact h.unrecorded call hcall hc
        · exact hsame (h.id_eq hid hc)
  · rintro ⟨hkept, hnone⟩ c hlive
    by_cases hsame : c = call.container
    · exact .inr ((hrecorded c).mpr (.inl hsame))
    · rcases hkept c hlive with hp | ⟨id, hid⟩
      · exact .inl ((hpending c).mpr ⟨hp, hsame⟩)
      · refine .inr ((hrecorded c).mpr (.inr ⟨id, fun he => ?_, hid⟩))
        rw [he, hnone] at hid
        cases hid

/-- A step loses a container exactly if it is not orderly, and what is lost stays lost. -/
lemma kept_step (h : s.Wf) (hcon : s.Connected a) (ht : s.step a = some s') :
    s'.Kept ↔ s.Kept ∧ s.Orderly a := by
  cases a with
  | getDoc id =>
    obtain ⟨-, ht⟩ := Option.ite_none_left_eq_some.mp ht
    cases ht
    exact (kept_getDoc s id).trans (and_iff_left trivial).symm
  | joinResponse status =>
    cases ht
    exact h.kept_joinResponse status
  | joinFailed c =>
    obtain ⟨hany, ht⟩ := Option.ite_none_right_eq_some.mp ht
    cases ht
    obtain ⟨call, hcall, hc⟩ := List.any_eq_true.mp hany
    obtain ⟨rfl, -⟩ := of_decide_eq_true hc
    exact iff_of_false (h.not_kept_joinFailed hcall) fun hand => hand.2
  | resume =>
    obtain ⟨call, hnext, rfl⟩ := Option.map_eq_some_iff.mp ht
    rw [h.kept_resume (next_mem hnext)]
    simp [Orderly, hnext]
  | disposeDocs connecting =>
    cases ht
    exact (kept_disposeDocs hcon).trans (and_iff_left hcon).symm

end Wf

lemma kept_init : init.Kept := fun _ hlive => absurd hlive.1 (Nat.not_lt_zero _)

/-- A run whose steps are connected loses no container if and only if it is orderly. -/
lemma kept_iff {as : List DocsAction} (hrun : run step init as = some s)
    (hcon : Guarded step Connected init as) : s.Kept ↔ Guarded step Orderly init as :=
  (kept_iff_guarded Wf Kept Connected (fun _ _ _ hwf ha ht => hwf.step ha ht)
    (fun _ _ _ hwf ha ht => hwf.kept_step ha ht) hrun hcon Wf.init).trans (and_iff_right kept_init)

/-- In an orderly step what has been returned stays in `docs`, or is disposed of with it. -/
lemma returned_step (ha : s.Orderly a) (ht : s.step a = some s')
    (hreturned : ∀ answer ∈ s.returned, s.docs.get answer.1 = some answer.2) :
    ∀ answer ∈ s'.returned, s'.docs.get answer.1 = some answer.2 := by
  cases a with
  | getDoc id =>
    obtain ⟨-, ht⟩ := Option.ite_none_left_eq_some.mp ht
    cases ht
    unfold getDoc
    split
    · rename_i c hc
      intro answer hmem
      rcases List.mem_append.mp hmem with hmem | hmem
      · exact hreturned answer hmem
      · obtain rfl := List.mem_singleton.mp hmem
        exact hc
    · exact hreturned
  | joinResponse status =>
    cases ht
    cases status <;> exact hreturned
  | joinFailed c => exact ha.elim
  | resume =>
    obtain ⟨call, hnext, rfl⟩ := Option.map_eq_some_iff.mp ht
    have hnone : s.docs.get call.id = none := ha call hnext
    intro answer hmem
    rcases List.mem_append.mp hmem with hmem | hmem
    · have hget := hreturned answer hmem
      refine (JsMap.get_set_ne _ _ fun he => ?_).trans hget
      rw [he, hnone] at hget
      cases hget
    · obtain rfl := List.mem_singleton.mp hmem
      exact JsMap.get_set_self _ _ _
  | disposeDocs connecting =>
    cases ht
    rw [disposeDocs_eq (connected_of_orderly ha)]
    simp

lemma OneEach.of_kept (h : s.Wf) (hkept : s.Kept) (hopen : s.opening = [])
    (hreturned : ∀ answer ∈ s.returned, s.docs.get answer.1 = some answer.2) : s.OneEach := by
  have hvalues (c : Nat) : s.Live c ↔ s.Recorded c := by
    constructor
    · intro hlive
      refine (hkept c hlive).resolve_left ?_
      rintro ⟨call, hcall, -⟩
      rw [hopen] at hcall
      cases hcall
    · rintro ⟨id, hid⟩
      exact h.live_of_recorded hid
  refine ⟨hvalues, fun c c' hc hc' hsame => ?_, hreturned⟩
  obtain ⟨id, hid⟩ := (hvalues c).mp hc
  obtain ⟨id', hid'⟩ := (hvalues c').mp hc'
  rw [(h.recorded id c hid).1, (h.recorded id' c' hid').1] at hsame
  rw [Option.some.inj hsame, hid'] at hid
  exact (Option.some.inj hid).symm

/-- Whenever no call of `getDoc` waits there is one live container for each document that has been
returned, if no join has failed, no call has gone on while `docs` had another container of its id,
and `disposeDocs` has not thrown. As long as `disposeDocs` does not throw, this is needed, too. -/
theorem one_each_iff {as : List DocsAction} (hrun : run step init as = some s)
    (hopen : s.opening = []) :
    (Guarded step Orderly init as → s.OneEach) ∧
      (Guarded step Connected init as → s.OneEach → Guarded step Orderly init as) := by
  constructor
  · intro hguard
    have hcon : Guarded step Connected init as :=
      guarded_mono (fun _ => True) (fun _ _ _ _ _ _ => trivial)
        (fun _ _ _ _ ha _ => connected_of_orderly ha) trivial hguard
    have hwf : s.Wf :=
      run_invariant Wf (fun _ _ _ hwf ha ht => hwf.step ha ht) hrun hcon Wf.init
    have hreturned : ∀ answer ∈ s.returned, s.docs.get answer.1 = some answer.2 :=
      run_invariant (fun s => ∀ answer ∈ s.returned, s.docs.get answer.1 = some answer.2)
        (fun _ _ _ hret ha ht => returned_step ha ht hret) hrun hguard
        (fun _ hmem => absurd hmem List.not_mem_nil)
    exact .of_kept hwf ((kept_iff hrun hcon).mpr hguard) hopen hreturned
  · intro hcon hone
    exact (kept_iff hrun hcon).mp fun c hlive => .inr ((hone.values c).mp hlive)

/-- Two calls of different ids that overlap, a third one, and a new start. -/
theorem one_each_of_overlap : ∃ s, run step init
      [.getDoc "a", .getDoc "b", .joinResponse .ok, .resume, .resume, .getDoc "a",
        .disposeDocs false, .getDoc "b", .joinResponse .ok, .resume] = some s ∧
    s.opening = [] ∧ s.OneEach := by
  obtain ⟨s, hrun⟩ : ∃ s, run step init
      [.getDoc "a", .getDoc "b", .joinResponse .ok, .resume, .resume, .getDoc "a",
        .disposeDocs false, .getDoc "b", .joinResponse .ok, .resume] = some s := ⟨_, rfl⟩
  have hopen : s.opening = [] := by
    cases hrun
    rfl
  exact ⟨s, hrun, hopen, (one_each_iff hrun hopen).1 (by decide)⟩

/-- Two calls of one id that overlap construct a container each; `docs` keeps the second, and the
first caller has the first. -/
theorem two_live_containers : ∃ s, run step init
      [.getDoc "a", .getDoc "a", .joinResponse .ok, .resume, .resume] = some s ∧
    s.opening = [] ∧ s.returned = [("a", 0), ("a", 1)] ∧ s.docs.get "a" = some 1 ∧
    s.Live 0 ∧ s.Live 1 ∧ ¬s.OneEach := by
  refine ⟨_, rfl, rfl, rfl, rfl, ⟨by decide, by decide⟩, ⟨by decide, by decide⟩, fun hone => ?_⟩
  have hfirst := hone.returned ("a", 0) (by decide)
  revert hfirst
  decide

/-! ### Calls that do not overlap -/

/-- `getDoc` is not called for an id that another call waits for. -/
def Separate (s : ClientDocs) : DocsAction → Prop
  | .getDoc id => ∀ call ∈ s.opening, call.id ≠ id
  | .resume => True
  | a => s.Orderly a

/-- The calls that wait are for different ids, of which `docs` has no container. -/
structure Apart (s : ClientDocs) : Prop where
  same : ∀ call ∈ s.opening, ∀ call' ∈ s.opening, call.id = call'.id →
    call.container = call'.container
  free : ∀ call ∈ s.opening, s.docs.get call.id = none

lemma Apart.of_opening (h : s.Apart) {opening : List OpenCall}
    (hsub : ∀ call ∈ opening, call ∈ s.opening) : Apart { s with opening := opening } where
  same call hcall call' hcall' := h.same call (hsub call hcall) call' (hsub call' hcall')
  free call hcall := h.free call (hsub call hcall)

lemma Apart.step (h : s.Apart) (ha : s.Separate a) (ht : s.step a = some s') : s'.Apart := by
  cases a with
  | getDoc id =>
    obtain ⟨-, ht⟩ := Option.ite_none_left_eq_some.mp ht
    cases ht
    unfold getDoc
    split
    · exact ⟨h.same, h.free⟩
    · rename_i hnone
      constructor
      · intro call hcall call' hcall' heq
        rcases List.mem_append.mp hcall with hcall | hcall <;>
          rcases List.mem_append.mp hcall' with hcall' | hcall'
        · exact h.same call hcall call' hcall' heq
        · obtain rfl := List.mem_singleton.mp hcall'
          exact absurd heq (ha call hcall)
        · obtain rfl := List.mem_singleton.mp hcall
          exact absurd heq.symm (ha call' hcall')
        · rw [List.mem_singleton.mp hcall, List.mem_singleton.mp hcall']
      · intro call hcall
        rcases List.mem_append.mp hcall with hcall | hcall
        · exact h.free call hcall
        · obtain rfl := List.mem_singleton.mp hcall
          exact hnone
  | joinResponse status =>
    cases ht
    cases status with
    | ok =>
      constructor
      · intro call hcall call' hcall' heq
        obtain ⟨call₀, hcall₀, rfl⟩ := List.mem_map.mp hcall
        obtain ⟨call₁, hcall₁, rfl⟩ := List.mem_map.mp hcall'
        exact h.same call₀ hcall₀ call₁ hcall₁ heq
      · intro call hcall
        obtain ⟨call₀, hcall₀, rfl⟩ := List.mem_map.mp hcall
        exact h.free call₀ hcall₀
    | err message => exact h.of_opening fun call hcall => List.mem_of_mem_filter hcall
  | joinFailed c => exact ha.elim
  | resume =>
    obtain ⟨call, hnext, rfl⟩ := Option.map_eq_some_iff.mp ht
    have hrest : Apart { s with opening := s.opening.filter (·.container ≠ call.container) } :=
      h.of_opening fun call' hcall' => List.mem_of_mem_filter hcall'
    refine ⟨hrest.same, fun call' hcall' => ?_⟩
    obtain ⟨hmem, hne⟩ := List.mem_filter.mp hcall'
    refine (JsMap.get_set_ne _ _ fun heq => ?_).trans (h.free call' hmem)
    simp [h.same call' hmem call (next_mem hnext) heq] at hne
  | disposeDocs connecting =>
    cases ht
    rw [disposeDocs_eq (connected_of_orderly ha)]
    exact ⟨h.same, fun _ _ => rfl⟩

/-- Without overlapping calls of one id, a run is orderly if no join fails. -/
theorem orderly_of_separate {as : List DocsAction} (h : Guarded step Separate init as) :
    Guarded step Orderly init as := by
  refine guarded_mono Apart (fun _ _ _ hapart ha ht => hapart.step ha ht) ?_
    ⟨by simp [init], by simp [init]⟩ h
  intro s a s' hapart ha ht
  cases a with
  | getDoc id => trivial
  | resume => exact fun call hnext => hapart.free call (next_mem hnext)
  | _ => exact ha

end AlaFois.ClientDocs
