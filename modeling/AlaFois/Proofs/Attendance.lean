import AlaFois.Model.Fabric
import AlaFois.Proofs.Membership

/-!
# Instances that only see joins and disconnects

Without detaching, the index of a connection lists exactly the stored managers that contain it,
and `disconnect` takes the connection out of the relation and nothing else. Who is a member
decides whom a change reaches.
-/

namespace AlaFois

namespace DocService

/-- The index and the stored managers agree. -/
structure Plain (s : DocService) : Prop where
  wf : s.WF
  covered : ∀ c, s.Covered c
  indexed : ∀ c, ∀ r ∈ s.joined c, ∃ d, s.docs.get d = some r ∧ c ∈ (s.managers r).connections

lemma plain_init : init.Plain where
  wf := wf_init
  covered c d hh := by
    obtain ⟨doc, hd, -⟩ := hh
    simp [init] at hd
  indexed c r hr := by simp [init, joined] at hr

variable {s : DocService}

lemma member_of_holds {d : DocKey} {c : ConnectionId} {r : ManagerRef} (hh : s.Holds d c)
    (hd : s.docs.get d = some r) : c ∈ (s.managers r).connections := by
  obtain ⟨doc, hdoc, hc⟩ := hh
  cases hdoc.symm.trans hd
  exact hc

lemma Plain.joinToDoc (h : s.Plain) (c : ConnectionId) (d : DocKey) :
    (s.joinToDoc c d).Plain where
  wf := wf_joinToDoc h.wf c d
  covered c' := covered_joinToDoc h.wf c d (h.covered c')
  indexed c' r hr := by
    have hold : r ∈ s.joined c' → ∃ d', (s.joinToDoc c d).docs.get d' = some r ∧
        c' ∈ ((s.joinToDoc c d).managers r).connections := by
      intro hr
      obtain ⟨d', hd', hc'⟩ := h.indexed c' r hr
      have hstored := docs_joinToDoc_of_some (c := c) (d := d) hd'
      exact ⟨d', hstored, member_of_holds ((holds_joinToDoc h.wf c c' d d').mpr (.inl ⟨r, hd', hc'⟩))
        hstored⟩
    rw [joined_joinToDoc h.wf] at hr
    split at hr
    · rename_i hc
      subst hc
      rcases List.mem_append.mp hr with hr | hr
      · exact hold hr
      · cases List.mem_singleton.mp hr
        have hstored := (getOrCreate_spec h.wf d).stored
        exact ⟨d, hstored,
          member_of_holds ((holds_joinToDoc h.wf c' c' d d).mpr (.inr ⟨rfl, rfl⟩)) hstored⟩
    · exact hold hr

theorem Plain.holds_disconnect (h : s.Plain) (c c' : ConnectionId) (d : DocKey) :
    (s.disconnect c).Holds d c' ↔ s.Holds d c' ∧ c' ≠ c := by
  rw [DocService.holds_disconnect]
  constructor
  · rintro ⟨-, doc, hd, hc', hnot⟩
    refine ⟨⟨doc, hd, hc'⟩, ?_⟩
    rintro rfl
    obtain ⟨doc', hj, hd'⟩ := h.covered c' d ⟨doc, hd, hc'⟩
    cases hd.symm.trans hd'
    exact hnot ⟨rfl, hj⟩
  · rintro ⟨⟨doc, hd, hc'⟩, hne⟩
    refine ⟨?_, doc, hd, hc', fun he => hne he.1⟩
    rintro ⟨r, hr, hid, honly⟩
    obtain ⟨d', hd', -⟩ := h.indexed c r hr
    have hsame : d' = d := (h.wf.docs_id d' r hd').symm.trans hid
    subst hsame
    cases hd.symm.trans hd'
    exact hne (honly c' hc')

lemma Plain.disconnect (h : s.Plain) (c : ConnectionId) : (s.disconnect c).Plain where
  wf := (shrinks_disconnect s c).wf h.wf
  covered c' := covered_disconnect c (h.covered c')
  indexed c' r hr := by
    rw [joined_disconnect] at hr
    split at hr
    · cases hr
    · rename_i hne
      obtain ⟨d, hd, hc'⟩ := h.indexed c' r hr
      obtain ⟨doc, hdoc, hmem⟩ := (h.holds_disconnect c c' d).mpr ⟨⟨r, hd, hc'⟩, hne⟩
      cases hd.symm.trans ((shrinks_disconnect s c).docs d doc hdoc)
      exact ⟨d, hdoc, hmem⟩

lemma mem_broadcast (m : DocManager) (author k : ConnectionId) (message message' : ServerMessage) :
    (k, message') ∈ m.broadcast author message ↔
      k ∈ m.connections ∧ k ≠ author ∧ message' = message := by
  simp only [DocManager.broadcast, List.mem_map, List.mem_filter, decide_eq_true_eq, ne_eq,
    Prod.mk.injEq]
  constructor
  · rintro ⟨x, ⟨hx, hne⟩, rfl, rfl⟩
    exact ⟨hx, hne, rfl⟩
  · rintro ⟨hx, hne, rfl⟩
    exact ⟨k, ⟨hx, hne⟩, rfl, rfl⟩

/-- The changes of a member go to every other member here, to the other instances and to the
actor. -/
theorem applyChanges_of_holds (h : s.WF) {c : ConnectionId} {d : DocKey} (hh : s.Holds d c)
    (changes : Changes) :
    ∃ effects, s.applyChanges c d changes = .ok effects ∧
      effects.published = .changes c d changes ∧ effects.actorCall = some (d, c, changes) ∧
      ∀ k m, (k, m) ∈ effects.sent ↔ s.Holds d k ∧ k ≠ c ∧ m = .broadcastChanges d changes := by
  obtain ⟨doc, hd, hc⟩ := hh
  have hid := h.docs_id d doc hd
  have hassert : s.assertClientJoined c d = .ok (s.managers doc) := by
    simp [assertClientJoined, hd, hc]
  refine ⟨_, by rw [applyChanges, hassert]; rfl, by simp [hid], rfl, fun k m => ?_⟩
  simp only [DocManager.broadcastDiff, mem_broadcast, hid, Holds, hd, Option.some.injEq,
    exists_eq_left']

lemma nodup_broadcast (m : DocManager) (author : ConnectionId) (message : ServerMessage) :
    ((m.broadcast author message).map Prod.fst).Nodup := by
  simp only [DocManager.broadcast, List.map_map]
  exact (List.map_id' _).symm ▸ m.nodup.filter _

/-- Changes and awareness are treated alike. -/
lemma onChangesOrAwarenessMessage_eq (h : s.WF) (m : ChangesPubsubMessage) :
    s.onChangesOrAwarenessMessage m = match s.docs.get m.docId with
      | none => []
      | some doc =>
        if (s.managers doc).contains m.author then []
        else (s.managers doc).broadcast m.author m.broadcast := by
  cases m with
  | changes author docId data =>
    simp only [onChangesOrAwarenessMessage, ChangesPubsubMessage.docId]
    cases hd : s.docs.get docId with
    | none => rfl
    | some doc => simp only [DocManager.broadcastDiff, h.docs_id docId doc hd]; rfl
  | awareness author docId data =>
    simp only [onChangesOrAwarenessMessage, ChangesPubsubMessage.docId]
    cases hd : s.docs.get docId with
    | none => rfl
    | some doc => simp only [DocManager.broadcastAwareness, h.docs_id docId doc hd]; rfl

/-- An instance without the author passes the message on to its members. -/
theorem mem_onChangesOrAwarenessMessage (h : s.WF) (m : ChangesPubsubMessage) (k : ConnectionId)
    (message : ServerMessage) : (k, message) ∈ s.onChangesOrAwarenessMessage m ↔
      s.Holds m.docId k ∧ ¬s.Holds m.docId m.author ∧ message = m.broadcast := by
  rw [onChangesOrAwarenessMessage_eq h]
  cases hd : s.docs.get m.docId with
  | none => simp [Holds, hd]
  | some doc =>
    have hmember (c : ConnectionId) : s.Holds m.docId c ↔ c ∈ (s.managers doc).connections := by
      simp [Holds, hd]
    simp only [hmember, DocManager.contains_iff]
    by_cases hauthor : m.author ∈ (s.managers doc).connections
    · simp [hauthor]
    · simp only [hauthor, ↓reduceIte, mem_broadcast, not_false_eq_true, true_and]
      constructor
      · rintro ⟨hk, -, rfl⟩
        exact ⟨hk, rfl⟩
      · rintro ⟨hk, rfl⟩
        refine ⟨hk, ?_, rfl⟩
        rintro rfl
        exact hauthor hk

lemma nodup_onChangesOrAwarenessMessage (h : s.WF) (m : ChangesPubsubMessage) :
    ((s.onChangesOrAwarenessMessage m).map Prod.fst).Nodup := by
  rw [onChangesOrAwarenessMessage_eq h]
  split
  · exact List.nodup_nil
  · split
    · exact List.nodup_nil
    · exact nodup_broadcast _ _ _

lemma mem_onChangesMessage (h : s.WF) (author k : ConnectionId) (d : DocKey)
    (changes : Changes) (m : ServerMessage) :
    (k, m) ∈ s.onChangesOrAwarenessMessage (.changes author d changes) ↔
      s.Holds d k ∧ ¬s.Holds d author ∧ m = .broadcastChanges d changes :=
  mem_onChangesOrAwarenessMessage h (.changes author d changes) k m

/-- What a call of `applyChanges` or `applyAwareness` has done if it did not throw. -/
structure Applied (s : DocService) (m : ChangesPubsubMessage) (effects : ApplyEffects) : Prop where
  author : s.Holds m.docId m.author
  published : effects.published = m
  sent : ∀ k message, (k, message) ∈ effects.sent ↔
    s.Holds m.docId k ∧ k ≠ m.author ∧ message = m.broadcast
  nodup : (effects.sent.map Prod.fst).Nodup

/-- What is done for a client that has joined is done with the manager of the document. -/
lemma joined_of_map (h : s.WF) {author : ConnectionId} {docId : DocKey} {effects : ApplyEffects}
    {f : DocManager → ApplyEffects} (he : (s.assertClientJoined author docId).map f = .ok effects) :
    ∃ doc, s.docs.get docId = some doc ∧ author ∈ (s.managers doc).connections ∧
      (s.managers doc).id = docId ∧ f (s.managers doc) = effects := by
  cases ha : s.assertClientJoined author docId with
  | error e => simp [ha, Except.map] at he
  | ok manager =>
    obtain ⟨doc, hd, rfl, hc⟩ := assertClientJoined_ok ha
    simp only [ha, Except.map, Except.ok.injEq] at he
    exact ⟨doc, hd, hc, h.docs_id docId doc hd, he⟩

lemma applied_of_ok (h : s.WF) {m : ChangesPubsubMessage} {effects : ApplyEffects}
    (he : s.applyMessage m = .ok effects) : s.Applied m effects := by
  have hassert : ∃ doc, s.docs.get m.docId = some doc ∧
      m.author ∈ (s.managers doc).connections ∧ effects.published = m ∧
      effects.sent = (s.managers doc).broadcast m.author m.broadcast := by
    cases m with
    | changes author docId data =>
      obtain ⟨doc, hd, hc, hid, rfl⟩ := joined_of_map h he
      exact ⟨doc, hd, hc, by rw [hid], by rw [DocManager.broadcastDiff, hid]; rfl⟩
    | awareness author docId data =>
      obtain ⟨doc, hd, hc, hid, rfl⟩ := joined_of_map h he
      exact ⟨doc, hd, hc, by rw [hid], by rw [DocManager.broadcastAwareness, hid]; rfl⟩
  obtain ⟨doc, hd, hc, hpublished, hsent⟩ := hassert
  refine ⟨⟨doc, hd, hc⟩, hpublished, fun k message => ?_, hsent ▸ nodup_broadcast _ _ _⟩
  rw [hsent, mem_broadcast]
  simp [Holds, hd]

end DocService

end AlaFois
