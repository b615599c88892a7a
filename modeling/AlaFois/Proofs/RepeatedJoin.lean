import AlaFois.Lib.Reactive
import AlaFois.Proofs.DocServiceSpec

/-!
# Joining a document twice

A second join files the same manager a second time under the connection. The index is only ever
read as a set of references, so that nothing the service does afterwards tells the difference.
-/

namespace AlaFois

namespace DocService

/-- The same managers stored under the same keys, and the same references filed for every
connection, however often. -/
structure Similar (s t : DocService) : Prop where
  docs : ∀ d, s.docs.get d = t.docs.get d
  managers : s.managers = t.managers
  nextRef : s.nextRef = t.nextRef
  joined : ∀ c r, r ∈ s.joined c ↔ r ∈ t.joined c

variable {s t : DocService}

lemma Similar.refl (s : DocService) : s.Similar s :=
  ⟨fun _ => rfl, rfl, rfl, fun _ _ => Iff.rfl⟩

lemma Similar.holds (h : s.Similar t) (d : DocKey) (c : ConnectionId) :
    s.Holds d c ↔ t.Holds d c := by
  simp only [Holds, h.docs, h.managers]

lemma Similar.update (h : s.Similar t) (r : ManagerRef) (f : DocManager → DocManager) :
    (s.update r f).Similar (t.update r f) where
  docs := h.docs
  managers := by simp only [DocService.update, h.managers]
  nextRef := h.nextRef
  joined := h.joined

/-- Filing a reference, or all of them away, under one connection. -/
lemma Similar.index (h : s.Similar t) (c : ConnectionId)
    {index index' : JsMap ConnectionId (List ManagerRef)}
    (hself : ∀ r, r ∈ (index.get c).getD [] ↔ r ∈ (index'.get c).getD [])
    (hother : ∀ c', c' ≠ c → index.get c' = s.connectionsToDocs.get c' ∧
      index'.get c' = t.connectionsToDocs.get c') :
    Similar { s with connectionsToDocs := index } { t with connectionsToDocs := index' } where
  docs := h.docs
  managers := h.managers
  nextRef := h.nextRef
  joined c' r := by
    by_cases hc : c' = c
    · subst hc
      exact hself r
    · obtain ⟨hs, ht⟩ := hother c' hc
      simp only [DocService.joined, hs, ht]
      exact h.joined c' r

/-! ### The operations -/

lemma Similar.getOrCreate (h : s.Similar t) (d : DocKey) :
    (s.getOrCreate d).1 = (t.getOrCreate d).1 ∧
      (s.getOrCreate d).2.Similar (t.getOrCreate d).2 := by
  unfold DocService.getOrCreate
  rw [h.docs d]
  cases ht : t.docs.get d with
  | some doc => exact ⟨rfl, h⟩
  | none =>
    refine ⟨h.nextRef, ⟨fun d' => ?_, ?_, ?_, h.joined⟩⟩
    · simp only [JsMap.get_set, h.docs, h.nextRef]
    · simp only [h.managers, h.nextRef]
    · simp only [h.nextRef]

lemma Similar.joinToDoc (h : s.Similar t) (c : ConnectionId) (d : DocKey) :
    (s.joinToDoc c d).Similar (t.joinToDoc c d) := by
  obtain ⟨href, hcreated⟩ := h.getOrCreate d
  rw [joinToDoc_eq, joinToDoc_eq, href]
  refine (hcreated.update (t.getOrCreate d).1 (·.addConnection c)).index c (fun r => ?_) ?_
  · simp only [JsMap.get_set_self, Option.getD_some, List.mem_append]
    exact or_congr_left (hcreated.joined c r)
  · intro c' hc
    exact ⟨JsMap.get_set_ne _ _ hc, JsMap.get_set_ne _ _ hc⟩

lemma Similar.detachDoc (h : s.Similar t) (c : ConnectionId) (d : DocKey) :
    (s.detachDoc c d).Similar (t.detachDoc c d) := by
  by_cases hheld : s.Holds d c
  · obtain ⟨doc, hs, hc⟩ := hheld
    have ht : t.docs.get d = some doc := h.docs d ▸ hs
    rw [detachDoc_of_holds hs hc, detachDoc_of_holds ht (h.managers ▸ hc), h.managers]
    have hupdate := h.update doc (·.removeConnection c)
    split
    · have hindex : Similar
          { s.update doc (·.removeConnection c) with
            connectionsToDocs := s.connectionsToDocs.delete c }
          { t.update doc (·.removeConnection c) with
            connectionsToDocs := t.connectionsToDocs.delete c } :=
        hupdate.index c (by simp)
          fun c' hc' => ⟨JsMap.get_delete_ne _ hc', JsMap.get_delete_ne _ hc'⟩
      exact ⟨fun d' => by simp only [JsMap.get_delete, h.docs], hindex.managers, hindex.nextRef,
        hindex.joined⟩
    · exact hupdate
  · rw [detachDoc_of_not_holds hheld, detachDoc_of_not_holds fun ht => hheld ((h.holds d c).mpr ht)]
    exact h

lemma Similar.onlyMember (h : s.Similar t) (c : ConnectionId) (r : ManagerRef) :
    s.OnlyMember c r ↔ t.OnlyMember c r := by
  simp only [OnlyMember, h.managers]

/-- The loop of `disconnect` empties the same managers whatever order and number its references
come in. -/
lemma Similar.disconnect (h : s.Similar t) (c : ConnectionId) :
    (s.disconnect c).Similar (t.disconnect c) := by
  obtain ⟨s', hs', hsdocs, hsman⟩ := left_disconnect s c
  obtain ⟨t', ht', htdocs, htman⟩ := left_disconnect t c
  have hdropped : ∀ d, (∃ r ∈ s.joined c, (s.managers r).id = d ∧ s.OnlyMember c r) ↔
      ∃ r ∈ t.joined c, (t.managers r).id = d ∧ t.OnlyMember c r := by
    intro d
    simp only [h.joined, h.managers, h.onlyMember]
  refine ⟨fun d => ?_, ?_, ?_, fun c' r => ?_⟩
  · rw [hsdocs, htdocs]
    rcases hs'.docs d with ⟨hex, hs⟩ | ⟨hnone, hs⟩
    · rcases ht'.docs d with ⟨-, ht⟩ | ⟨hnone, -⟩
      · rw [hs, ht]
      · exact absurd ((hdropped d).mp hex) hnone
    · rcases ht'.docs d with ⟨hex, -⟩ | ⟨-, ht⟩
      · exact absurd ((hdropped d).mpr hex) hnone
      · rw [hs, ht, h.docs d]
  · rw [hsman, htman]
    funext r
    rw [hs'.managers, ht'.managers, h.managers]
    by_cases hr : r ∈ t.joined c
    · rw [if_pos ((h.joined c r).mpr hr), if_pos hr]
    · rw [if_neg fun hs => hr ((h.joined c r).mp hs), if_neg hr]
  · rw [(shrinks_disconnect s c).nextRef, (shrinks_disconnect t c).nextRef, h.nextRef]
  · rw [joined_disconnect, joined_disconnect]
    split
    · rfl
    · exact h.joined c' r

lemma Similar.apply (h : s.Similar t) (op : DocOp) : (s.apply op).Similar (t.apply op) := by
  cases op with
  | joinToDoc c d => exact h.joinToDoc c d
  | attach c ds => exact List.foldl_rel h fun d _ _ _ hst => hst.joinToDoc c d
  | detach c rs =>
    refine List.foldl_rel h fun removed _ _ _ hst => ?_
    cases removed with
    | key d => exact hst.detachDoc c d
    | entry _ => exact hst
  | disconnect c => exact h.disconnect c

lemma Similar.assertClientJoined (h : s.Similar t) (c : ConnectionId) (d : DocKey) :
    s.assertClientJoined c d = t.assertClientJoined c d := by
  simp only [DocService.assertClientJoined, h.docs, h.managers]

/-- Similar states give the same answers and stay similar. -/
theorem similarity_call : Reactive.Similarity DocService.call Similar where
  answer s t call h := by
    cases call with
    | op op => rfl
    | applyChanges c d changes =>
      simp only [call, applyChanges, h.assertClientJoined]
    | applyAwareness c d awareness =>
      simp only [call, applyAwareness, h.assertClientJoined]
    | deliver message =>
      cases message <;> simp only [call, onChangesOrAwarenessMessage, h.docs, h.managers]
  next s t call h := by
    cases call with
    | op op => exact h.apply op
    | applyChanges c d changes => exact h
    | applyAwareness c d awareness => exact h
    | deliver message => exact h

/-! ### The second join -/

lemma addConnection_of_mem {m : DocManager} {c : ConnectionId} (h : c ∈ m.connections) :
    m.addConnection c = m := dif_pos h

/-- A document joined finds its manager, with the connection in it and filed under it. -/
lemma getOrCreate_joinToDoc (s : DocService) (c : ConnectionId) (d : DocKey) :
    ∃ doc, (s.joinToDoc c d).getOrCreate d = (doc, s.joinToDoc c d) ∧
      c ∈ ((s.joinToDoc c d).managers doc).connections ∧ doc ∈ (s.joinToDoc c d).joined c := by
  have hstored : (s.getOrCreate d).2.docs.get d = some (s.getOrCreate d).1 := by
    unfold DocService.getOrCreate
    cases hd : s.docs.get d with
    | some doc => exact hd
    | none => exact JsMap.get_set_self _ _ _
  refine ⟨(s.getOrCreate d).1, ?_, ?_, ?_⟩
  · have hget : (s.joinToDoc c d).docs.get d = some (s.getOrCreate d).1 := hstored
    rw [DocService.getOrCreate, hget]
  · rw [managers_joinToDoc, update_managers_self, DocManager.mem_addConnection]
    exact .inr rfl
  · rw [joinToDoc_eq, DocService.joined, JsMap.get_set_self]
    exact List.mem_append_right _ (List.mem_singleton_self _)

/-- Joining a document once more only files its manager once more. -/
lemma similar_joinToDoc_of_joined {c : ConnectionId} {d : DocKey} {doc : ManagerRef}
    (hcreated : s.getOrCreate d = (doc, s)) (hmem : c ∈ (s.managers doc).connections)
    (hfiled : doc ∈ s.joined c) : (s.joinToDoc c d).Similar s := by
  have hsame : s.update doc (·.addConnection c) = s := by
    simp only [DocService.update, addConnection_of_mem hmem, Function.update_eq_self]
  rw [joinToDoc_eq, hcreated, hsame]
  refine (Similar.refl s).index c (fun r => ?_) fun c' hc => ⟨JsMap.get_set_ne _ _ hc, rfl⟩
  simp only [JsMap.get_set_self, Option.getD_some, List.mem_append, List.mem_singleton]
  constructor
  · rintro (hr | rfl)
    · exact hr
    · exact hfiled
  · exact .inl

lemma similar_joinToDoc_twice (s : DocService) (c : ConnectionId) (d : DocKey) :
    ((s.joinToDoc c d).joinToDoc c d).Similar (s.joinToDoc c d) := by
  obtain ⟨doc, hcreated, hmem, hfiled⟩ := getOrCreate_joinToDoc s c d
  exact similar_joinToDoc_of_joined hcreated hmem hfiled

/-- For every state, connection and document, and for every sequence of calls after it, a second
join changes neither what the calls send, publish and throw nor who is in which document. -/
theorem joinToDoc_twice (s : DocService) (c : ConnectionId) (d : DocKey) (calls : List DocCall) :
    Reactive.answers DocService.call ((s.joinToDoc c d).joinToDoc c d) calls =
        Reactive.answers DocService.call (s.joinToDoc c d) calls ∧
      ∀ d' c', (Reactive.final DocService.call ((s.joinToDoc c d).joinToDoc c d) calls).Holds d' c' ↔
        (Reactive.final DocService.call (s.joinToDoc c d) calls).Holds d' c' := by
  have h := similar_joinToDoc_twice s c d
  exact ⟨similarity_call.answers_eq h calls, (similarity_call.final h calls).holds⟩

end DocService

end AlaFois
