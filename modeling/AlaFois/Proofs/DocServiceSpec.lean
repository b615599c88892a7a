import AlaFois.Model.DocService
import Mathlib.Order.Basic
import Mathlib.Order.Nat

/-!
# What the operations of `DocService` do to its membership

One specification lemma for each operation, stated with `Holds`: a connection is in the
manager found under a docId. The later modules cite these and never unfold the operations.
-/

namespace AlaFois

namespace DocService

/-- The manager stored under `docId` contains the connection. -/
def Holds (s : DocService) (docId : DocKey) (conn : ConnectionId) : Prop :=
  ∃ doc, s.docs.get docId = some doc ∧ conn ∈ (s.managers doc).connections

/-- The docIds whose stored manager contains the connection. -/
def held (s : DocService) (conn : ConnectionId) : List DocKey :=
  (s.docs.entries.filter (fun e => conn ∈ (s.managers e.2).connections)).map Prod.fst

lemma mem_held {s : DocService} {d : DocKey} {c : ConnectionId} : d ∈ s.held c ↔ s.Holds d c := by
  simp only [held, List.mem_map, List.mem_filter, decide_eq_true_eq, Prod.exists,
    exists_and_right, exists_eq_right, JsMap.mem_entries_iff, Holds]

instance (s : DocService) (d : DocKey) (c : ConnectionId) : Decidable (s.Holds d c) :=
  decidable_of_iff _ mem_held

/-- Keys name the managers stored under them, every reference points to an allocated
manager, and the index files no empty list. -/
structure WF (s : DocService) : Prop where
  docs_id : ∀ d doc, s.docs.get d = some doc → (s.managers doc).id = d
  docs_lt : ∀ d doc, s.docs.get d = some doc → doc < s.nextRef
  joined_lt : ∀ c, ∀ doc ∈ s.joined c, doc < s.nextRef
  index_ne : ∀ c, s.connectionsToDocs.get c ≠ some []

lemma wf_init : init.WF where
  docs_id d doc h := by simp [init] at h
  docs_lt d doc h := by simp [init] at h
  joined_lt c doc h := by simp [init, joined] at h
  index_ne c h := by simp [init] at h

lemma WF.joined_eq_nil_iff {s : DocService} (h : s.WF) (c : ConnectionId) :
    s.joined c = [] ↔ s.connectionsToDocs.get c = none := by
  unfold joined
  cases hg : s.connectionsToDocs.get c with
  | none => simp
  | some rs =>
    have hne : rs ≠ [] := by
      rintro rfl
      exact h.index_ne c hg
    simp [hne]

lemma WF.docs_inj {s : DocService} (h : s.WF) {d d' : DocKey} {doc : ManagerRef}
    (hd : s.docs.get d = some doc) (hd' : s.docs.get d' = some doc) : d = d' :=
  (h.docs_id d doc hd).symm.trans (h.docs_id d' doc hd')

@[simp] lemma update_docs (s : DocService) (r : ManagerRef) (f) : (s.update r f).docs = s.docs := rfl
@[simp] lemma update_joined (s : DocService) (r : ManagerRef) (f) (c : ConnectionId) :
    (s.update r f).joined c = s.joined c := rfl
@[simp] lemma update_managers_self (s : DocService) (r : ManagerRef) (f) :
    (s.update r f).managers r = f (s.managers r) := by simp [update]
lemma update_managers_ne (s : DocService) {r r' : ManagerRef} (f) (h : r' ≠ r) :
    (s.update r f).managers r' = s.managers r' := by simp [update, h]

lemma wf_update {s : DocService} (h : s.WF) (r : ManagerRef) (f : DocManager → DocManager)
    (hf : ∀ m, (f m).id = m.id) : (s.update r f).WF where
  docs_id d doc hd := by
    by_cases hr : doc = r
    · subst hr
      rw [update_managers_self, hf]
      exact h.docs_id d doc hd
    · rw [update_managers_ne s f hr]
      exact h.docs_id d doc hd
  docs_lt := h.docs_lt
  joined_lt := h.joined_lt
  index_ne := h.index_ne

/-! ### Joining -/

/-- `getOrCreate` stores a manager under the key and changes the members of no document. -/
structure Created (s t : DocService) (d : DocKey) (doc : ManagerRef) : Prop where
  wf : t.WF
  stored : t.docs.get d = some doc
  others : ∀ d', d' ≠ d → t.docs.get d' = s.docs.get d'
  holds : ∀ d' c, t.Holds d' c ↔ s.Holds d' c
  index : t.connectionsToDocs = s.connectionsToDocs
  managers : ∀ r, r < s.nextRef → t.managers r = s.managers r
  nextRef : s.nextRef ≤ t.nextRef

lemma getOrCreate_spec {s : DocService} (h : s.WF) (d : DocKey) :
    Created s (s.getOrCreate d).2 d (s.getOrCreate d).1 := by
  unfold getOrCreate
  cases hd : s.docs.get d with
  | some doc => exact ⟨h, hd, fun _ _ => rfl, fun _ _ => Iff.rfl, rfl, fun _ _ => rfl, le_rfl⟩
  | none =>
    have hne : ∀ {d' doc}, s.docs.get d' = some doc → doc ≠ s.nextRef :=
      fun hd' => Nat.ne_of_lt (h.docs_lt _ _ hd')
    refine ⟨⟨?_, ?_, ?_, h.index_ne⟩, by simp, fun d' hd' => JsMap.get_set_ne _ _ hd', ?_, rfl, ?_,
      Nat.le_succ _⟩
    · intro d' doc hd'
      by_cases he : d' = d
      · subst he
        simp only [JsMap.get_set_self, Option.some.injEq] at hd'
        subst hd'
        simp [DocManager.new]
      · simp only [JsMap.get_set_ne _ _ he] at hd'
        simp only [Function.update_of_ne (hne hd')]
        exact h.docs_id d' doc hd'
    · intro d' doc hd'
      by_cases he : d' = d
      · subst he
        simp only [JsMap.get_set_self, Option.some.injEq] at hd'
        subst hd'
        exact Nat.lt_succ_self _
      · simp only [JsMap.get_set_ne _ _ he] at hd'
        exact Nat.lt_succ_of_lt (h.docs_lt d' doc hd')
    · intro c doc hdoc
      exact Nat.lt_succ_of_lt (h.joined_lt c doc hdoc)
    · intro d' c
      by_cases he : d' = d
      · subst he
        simp [Holds, hd]
      · simp only [Holds, JsMap.get_set_ne _ _ he]
        refine exists_congr fun doc => and_congr_right fun hdoc => ?_
        rw [Function.update_of_ne (hne hdoc)]
    · intro r hr
      exact Function.update_of_ne (Nat.ne_of_lt hr) _ _

lemma joinToDoc_eq (s : DocService) (c : ConnectionId) (d : DocKey) :
    s.joinToDoc c d =
      { (s.getOrCreate d).2.update (s.getOrCreate d).1 (·.addConnection c) with
        connectionsToDocs := (s.getOrCreate d).2.connectionsToDocs.set c
          ((s.getOrCreate d).2.joined c ++ [(s.getOrCreate d).1]) } := rfl

lemma joined_joinToDoc {s : DocService} (h : s.WF) (c c' : ConnectionId) (d : DocKey) :
    (s.joinToDoc c d).joined c' =
      if c' = c then s.joined c ++ [(s.getOrCreate d).1] else s.joined c' := by
  have hi := (getOrCreate_spec h d).index
  rw [joinToDoc_eq]
  simp only [joined, hi, JsMap.get_set]
  split <;> rfl

lemma wf_joinToDoc {s : DocService} (h : s.WF) (c : ConnectionId) (d : DocKey) :
    (s.joinToDoc c d).WF := by
  have hg := getOrCreate_spec h d
  have hu := wf_update hg.wf (s.getOrCreate d).1 (·.addConnection c)
    (fun m => m.addConnection_id c)
  refine ⟨hu.docs_id, hu.docs_lt, ?_, ?_⟩
  · intro c' doc hdoc
    have hlt : ∀ r, r < s.nextRef → r < (s.joinToDoc c d).nextRef := fun r hr =>
      lt_of_lt_of_le hr hg.nextRef
    rw [joined_joinToDoc h] at hdoc
    split at hdoc
    · rcases List.mem_append.mp hdoc with hm | hm
      · exact hlt doc (h.joined_lt c doc hm)
      · rw [List.mem_singleton.mp hm]
        exact hg.wf.docs_lt d _ hg.stored
    · exact hlt doc (h.joined_lt c' doc hdoc)
  · intro c' hc'
    rw [joinToDoc_eq, JsMap.get_set] at hc'
    split at hc'
    · simp at hc'
    · exact hg.wf.index_ne c' hc'

lemma docs_joinToDoc (s : DocService) (c : ConnectionId) (d d' : DocKey) :
    (s.joinToDoc c d).docs.get d' = (s.getOrCreate d).2.docs.get d' := rfl

lemma managers_joinToDoc (s : DocService) (c : ConnectionId) (d : DocKey) (r : ManagerRef) :
    (s.joinToDoc c d).managers r =
      ((s.getOrCreate d).2.update (s.getOrCreate d).1 (·.addConnection c)).managers r := rfl

theorem holds_joinToDoc {s : DocService} (h : s.WF) (c c' : ConnectionId) (d d' : DocKey) :
    (s.joinToDoc c d).Holds d' c' ↔ s.Holds d' c' ∨ (d' = d ∧ c' = c) := by
  have hg := getOrCreate_spec h d
  rw [← hg.holds]
  simp only [Holds, docs_joinToDoc, managers_joinToDoc]
  by_cases he : d' = d
  · subst he
    simp [hg.stored]
  · have hne : ∀ {doc}, (s.getOrCreate d).2.docs.get d' = some doc → doc ≠ (s.getOrCreate d).1 :=
      fun hd' hr => he (hg.wf.docs_inj (hr ▸ hd') hg.stored)
    simp only [he, false_and, or_false]
    refine exists_congr fun doc => and_congr_right fun hdoc => ?_
    rw [update_managers_ne _ _ (hne hdoc)]

/-- A message attaches the connection to each of its documents. -/
theorem attach_spec {s : DocService} (h : s.WF) (c : ConnectionId) (ds : List DocKey) :
    (s.onAttachDocMessage c ds).WF ∧ ∀ d' c', (s.onAttachDocMessage c ds).Holds d' c' ↔
      s.Holds d' c' ∨ (d' ∈ ds ∧ c' = c) := by
  induction ds generalizing s with
  | nil => exact ⟨h, by simp [onAttachDocMessage]⟩
  | cons d ds ih =>
    obtain ⟨hwf, hholds⟩ := ih (wf_joinToDoc h c d)
    refine ⟨hwf, fun d' c' => ?_⟩
    have he : s.onAttachDocMessage c (d :: ds) = (s.joinToDoc c d).onAttachDocMessage c ds := rfl
    rw [he, hholds, holds_joinToDoc h]
    simp only [List.mem_cons]
    tauto

/-! ### Detaching -/

/-- The connection is the only member of the document. -/
def Alone (s : DocService) (d : DocKey) (c : ConnectionId) : Prop :=
  s.Holds d c ∧ ∀ c', s.Holds d c' → c' = c

lemma alone_iff {s : DocService} {d : DocKey} {c : ConnectionId} {doc : ManagerRef}
    (hd : s.docs.get d = some doc) :
    s.Alone d c ↔ c ∈ (s.managers doc).connections ∧ ∀ x ∈ (s.managers doc).connections, x = c := by
  simp [Alone, Holds, hd]

lemma detachDoc_of_not_holds {s : DocService} {c : ConnectionId} {d : DocKey}
    (h : ¬s.Holds d c) : s.detachDoc c d = s := by
  unfold detachDoc
  cases hd : s.docs.get d with
  | none => rfl
  | some doc =>
    have hc : (s.managers doc).contains c = false := by
      simpa [Holds, hd, DocManager.contains] using h
    simp [hc]

lemma detachDoc_of_holds {s : DocService} {c : ConnectionId} {d : DocKey} {doc : ManagerRef}
    (hd : s.docs.get d = some doc) (hc : c ∈ (s.managers doc).connections) :
    s.detachDoc c d =
      if ((s.managers doc).removeConnection c).isEmpty then
        { s.update doc (·.removeConnection c) with
          connectionsToDocs := s.connectionsToDocs.delete c
          docs := s.docs.delete d }
      else s.update doc (·.removeConnection c) := by
  unfold detachDoc
  simp only [hd, DocManager.contains_iff, hc, if_true, update_managers_self]
  rfl

theorem holds_detachDoc {s : DocService} (h : s.WF) (c c' : ConnectionId) (d d' : DocKey) :
    (s.detachDoc c d).Holds d' c' ↔ s.Holds d' c' ∧ ¬(d' = d ∧ c' = c) := by
  by_cases hh : s.Holds d c
  · obtain ⟨doc, hd, hc⟩ := hh
    have hother : d' ≠ d → ((s.update doc (·.removeConnection c)).Holds d' c' ↔ s.Holds d' c') := by
      intro he
      simp only [Holds, update_docs]
      refine exists_congr fun doc' => and_congr_right fun hd' => ?_
      have hne : doc' ≠ doc := by
        rintro rfl
        exact he (h.docs_inj hd' hd)
      rw [update_managers_ne _ _ hne]
    rw [detachDoc_of_holds hd hc]
    split
    · rename_i hempty
      rw [DocManager.isEmpty_removeConnection] at hempty
      by_cases he : d' = d
      · subst he
        simp only [Holds, JsMap.get_delete_self, reduceCtorEq, false_and, exists_false, true_and,
          false_iff, not_and, not_not, hd, Option.some.injEq, exists_eq_left']
        exact hempty c'
      · rw [show ¬(d' = d ∧ c' = c) ↔ True by simp [he], and_true, ← hother he]
        simp [Holds, JsMap.get_delete_ne _ he]
    · by_cases he : d' = d
      · subst he
        simp [Holds, hd]
      · rw [show ¬(d' = d ∧ c' = c) ↔ True by simp [he], and_true, ← hother he]
  · rw [detachDoc_of_not_holds hh]
    constructor
    · intro h'
      refine ⟨h', ?_⟩
      rintro ⟨rfl, rfl⟩
      exact hh h'
    · exact And.left

/-- Detaching drops every reference of a connection that was alone in the document. -/
lemma joined_detachDoc (s : DocService) (c c' : ConnectionId) (d : DocKey) :
    (s.Alone d c ∧ c' = c ∧ (s.detachDoc c d).joined c' = []) ∨
      (¬(s.Alone d c ∧ c' = c) ∧ (s.detachDoc c d).joined c' = s.joined c') := by
  by_cases hh : s.Holds d c
  · obtain ⟨doc, hd, hc⟩ := hh
    rw [detachDoc_of_holds hd hc, alone_iff hd, ← DocManager.isEmpty_removeConnection]
    by_cases hempty : ((s.managers doc).removeConnection c).isEmpty = true
    · by_cases he : c' = c
      · left
        simp [hempty, he, hc, joined]
      · right
        simp [hempty, he, joined, JsMap.get_delete_ne]
    · right
      simp [hempty]
  · right
    rw [detachDoc_of_not_holds hh]
    exact ⟨fun hn => hh hn.1.1, rfl⟩

/-- `t` stores no new manager and no new member compared with `s`. -/
structure Shrinks (s t : DocService) : Prop where
  docs : ∀ d doc, t.docs.get d = some doc → s.docs.get d = some doc
  members : ∀ doc c, c ∈ (t.managers doc).connections → c ∈ (s.managers doc).connections
  ids : ∀ doc, (t.managers doc).id = (s.managers doc).id
  index : ∀ c rs, t.connectionsToDocs.get c = some rs → s.connectionsToDocs.get c = some rs
  nextRef : t.nextRef = s.nextRef

lemma Shrinks.joined {s t : DocService} (h : s.Shrinks t) {c : ConnectionId} {doc : ManagerRef}
    (hdoc : doc ∈ t.joined c) : doc ∈ s.joined c := by
  unfold DocService.joined at hdoc ⊢
  cases hg : t.connectionsToDocs.get c with
  | none => simp [hg] at hdoc
  | some rs =>
    rw [h.index c rs hg]
    simpa [hg] using hdoc

lemma Shrinks.refl (s : DocService) : s.Shrinks s :=
  ⟨fun _ _ h => h, fun _ _ h => h, fun _ => rfl, fun _ _ h => h, rfl⟩

lemma Shrinks.trans {s t u : DocService} (h : s.Shrinks t) (h' : t.Shrinks u) : s.Shrinks u where
  docs d doc hd := h.docs d doc (h'.docs d doc hd)
  members doc c hc := h.members doc c (h'.members doc c hc)
  ids doc := (h'.ids doc).trans (h.ids doc)
  index c rs hrs := h.index c rs (h'.index c rs hrs)
  nextRef := h'.nextRef.trans h.nextRef

lemma Shrinks.wf {s t : DocService} (h : s.Shrinks t) (hs : s.WF) : t.WF where
  docs_id d doc hd := (h.ids doc).trans (hs.docs_id d doc (h.docs d doc hd))
  docs_lt d doc hd := h.nextRef ▸ hs.docs_lt d doc (h.docs d doc hd)
  joined_lt c doc hdoc := h.nextRef ▸ hs.joined_lt c doc (h.joined hdoc)
  index_ne c hc := hs.index_ne c (h.index c [] hc)

lemma Shrinks.holds {s t : DocService} (h : s.Shrinks t) {d : DocKey} {c : ConnectionId}
    (hh : t.Holds d c) : s.Holds d c := by
  obtain ⟨doc, hd, hc⟩ := hh
  exact ⟨doc, h.docs d doc hd, h.members doc c hc⟩

lemma shrinks_update_remove (s : DocService) (r : ManagerRef) (c : ConnectionId) :
    s.Shrinks (s.update r (·.removeConnection c)) where
  docs _ _ h := h
  members doc c' hc' := by
    by_cases hr : doc = r
    · subst hr
      simp only [update_managers_self, DocManager.mem_removeConnection] at hc'
      exact hc'.1
    · rwa [update_managers_ne _ _ hr] at hc'
  ids doc := by
    by_cases hr : doc = r
    · subst hr
      simp
    · rw [update_managers_ne _ _ hr]
  index _ _ h := h
  nextRef := rfl

lemma shrinks_delete_docs (s : DocService) (d : DocKey) :
    s.Shrinks { s with docs := s.docs.delete d } where
  docs d' doc h := by
    simp only [JsMap.get_delete] at h
    split at h
    · cases h
    · exact h
  members _ _ h := h
  ids _ := rfl
  index _ _ h := h
  nextRef := rfl

lemma shrinks_delete_index (s : DocService) (c : ConnectionId) :
    s.Shrinks { s with connectionsToDocs := s.connectionsToDocs.delete c } where
  docs _ _ h := h
  members _ _ h := h
  ids _ := rfl
  index c' rs h := by
    simp only [JsMap.get_delete] at h
    split at h
    · cases h
    · exact h
  nextRef := rfl

lemma shrinks_detachDoc (s : DocService) (c : ConnectionId) (d : DocKey) :
    s.Shrinks (s.detachDoc c d) := by
  by_cases hh : s.Holds d c
  · obtain ⟨doc, hd, hc⟩ := hh
    have hu := shrinks_update_remove s doc c
    rw [detachDoc_of_holds hd hc]
    split
    · exact (hu.trans (shrinks_delete_docs _ d)).trans (shrinks_delete_index _ c)
    · exact hu
  · rw [detachDoc_of_not_holds hh]
    exact Shrinks.refl s

@[simp] lemma onDetach_nil (s : DocService) (c : ConnectionId) : s.onDetachDocMessage c [] = s := rfl

@[simp] lemma onDetach_key (s : DocService) (c : ConnectionId) (d : DocKey) (rs : List RemovedDoc) :
    s.onDetachDocMessage c (.key d :: rs) = (s.detachDoc c d).onDetachDocMessage c rs := rfl

@[simp] lemma onDetach_entry (s : DocService) (c : ConnectionId) (a : AccessData)
    (rs : List RemovedDoc) :
    s.onDetachDocMessage c (.entry a :: rs) = s.onDetachDocMessage c rs := rfl

lemma shrinks_detach (s : DocService) (c : ConnectionId) (rs : List RemovedDoc) :
    s.Shrinks (s.onDetachDocMessage c rs) := by
  induction rs generalizing s with
  | nil => exact Shrinks.refl s
  | cons r rs ih =>
    cases r with
    | key d => exact (shrinks_detachDoc s c d).trans (ih _)
    | entry a => exact ih s

/-- A message detaches the connection from the documents it names by their id. -/
theorem holds_detach {s : DocService} (h : s.WF) (c c' : ConnectionId) (rs : List RemovedDoc)
    (d' : DocKey) : (s.onDetachDocMessage c rs).Holds d' c' ↔
      s.Holds d' c' ∧ ¬(c' = c ∧ .key d' ∈ rs) := by
  induction rs generalizing s with
  | nil => simp
  | cons r rs ih =>
    cases r with
    | key d =>
      rw [onDetach_key, ih ((shrinks_detachDoc s c d).wf h), holds_detachDoc h]
      simp only [List.mem_cons, RemovedDoc.key.injEq]
      tauto
    | entry a =>
      rw [onDetach_entry, ih h]
      simp

lemma alone_detachDoc {s : DocService} (h : s.WF) (c : ConnectionId) (d d' : DocKey) :
    (s.detachDoc c d).Alone d' c ↔ s.Alone d' c ∧ d' ≠ d := by
  simp only [Alone, holds_detachDoc h]
  constructor
  · rintro ⟨⟨hh, hne⟩, hall⟩
    have hd : d' ≠ d := by simpa using hne
    exact ⟨⟨hh, fun c' hc' => hall c' ⟨hc', fun he => hd he.1⟩⟩, hd⟩
  · rintro ⟨⟨hh, hall⟩, hd⟩
    exact ⟨⟨hh, fun he => hd he.1⟩, fun c' hc' => hall c' hc'.1⟩

/-- A message keeps the references of the connection, or drops them all because the
connection was alone in one of the documents. -/
lemma joined_detach {s : DocService} (h : s.WF) (c c' : ConnectionId) (rs : List RemovedDoc) :
    ((∃ d, .key d ∈ rs ∧ s.Alone d c) ∧ c' = c ∧ (s.onDetachDocMessage c rs).joined c' = []) ∨
      (¬((∃ d, .key d ∈ rs ∧ s.Alone d c) ∧ c' = c) ∧
        (s.onDetachDocMessage c rs).joined c' = s.joined c') := by
  induction rs generalizing s with
  | nil => right; simp
  | cons r rs ih =>
    cases r with
    | entry a =>
      rw [onDetach_entry]
      simpa using ih h
    | key d =>
      have hrest := ih ((shrinks_detachDoc s c d).wf h)
      have hfirst := joined_detachDoc s c c' d
      simp only [alone_detachDoc h] at hrest
      rw [onDetach_key]
      simp only [List.mem_cons, RemovedDoc.key.injEq]
      rcases hfirst with ⟨ha, hcc, hnil⟩ | ⟨hna, heq⟩
      · left
        refine ⟨⟨d, .inl rfl, ha⟩, hcc, ?_⟩
        rcases hrest with ⟨-, -, hn⟩ | ⟨-, hn⟩
        · exact hn
        · exact hn.trans hnil
      · rcases hrest with ⟨⟨d', hd', ha', -⟩, hcc, hn⟩ | ⟨hnot, hn⟩
        · exact .inl ⟨⟨d', .inr hd', ha'⟩, hcc, hn⟩
        · right
          refine ⟨?_, hn.trans heq⟩
          rintro ⟨⟨d', hd' | hd', ha'⟩, hcc⟩
          · exact hna ⟨hd' ▸ ha', hcc⟩
          · by_cases hdd : d' = d
            · exact hna ⟨hdd ▸ ha', hcc⟩
            · exact hnot ⟨⟨d', hd', ha', hdd⟩, hcc⟩

/-! ### Disconnecting -/

/-- A manager that has no member other than the connection. -/
def OnlyMember (s : DocService) (c : ConnectionId) (doc : ManagerRef) : Prop :=
  ∀ x ∈ (s.managers doc).connections, x = c

instance (s : DocService) (c : ConnectionId) (doc : ManagerRef) : Decidable (s.OnlyMember c doc) :=
  inferInstanceAs (Decidable (∀ x ∈ _, _))

lemma managers_disconnectFrom (s : DocService) (c : ConnectionId) (r r' : ManagerRef) :
    (disconnectFrom c s r).managers r' =
      if r' = r then (s.managers r').removeConnection c else s.managers r' := by
  have he : (disconnectFrom c s r).managers = (s.update r (·.removeConnection c)).managers := by
    unfold disconnectFrom
    dsimp only
    split <;> rfl
  rw [he]
  split
  · rename_i h
    rw [h, update_managers_self]
  · rename_i h
    exact update_managers_ne _ _ h

lemma docs_disconnectFrom (s : DocService) (c : ConnectionId) (r : ManagerRef) (d : DocKey) :
    (disconnectFrom c s r).docs.get d =
      if (s.managers r).id = d ∧ s.OnlyMember c r then none else s.docs.get d := by
  unfold disconnectFrom
  simp only [update_managers_self, DocManager.isEmpty_removeConnection,
    DocManager.removeConnection_id]
  split
  · rename_i h
    have ho : s.OnlyMember c r := h
    by_cases hd : (s.managers r).id = d
    · simp [hd, ho]
    · simp [hd, JsMap.get_delete_ne _ (Ne.symm hd)]
  · rename_i h
    have ho : ¬s.OnlyMember c r := h
    simp [ho]

lemma index_disconnectFrom (s : DocService) (c : ConnectionId) (r : ManagerRef) :
    (disconnectFrom c s r).connectionsToDocs = s.connectionsToDocs := by
  unfold disconnectFrom
  dsimp only
  split <;> rfl

lemma shrinks_disconnectFrom (s : DocService) (c : ConnectionId) (r : ManagerRef) :
    s.Shrinks (disconnectFrom c s r) := by
  have hu := shrinks_update_remove s r c
  unfold disconnectFrom
  dsimp only
  split
  · exact hu.trans (shrinks_delete_docs _ _)
  · exact hu

lemma onlyMember_disconnectFrom (s : DocService) (c : ConnectionId) (r r' : ManagerRef) :
    (disconnectFrom c s r).OnlyMember c r' ↔ s.OnlyMember c r' := by
  unfold OnlyMember
  rw [managers_disconnectFrom]
  split
  · simp only [DocManager.mem_removeConnection]
    constructor
    · intro h x hx
      by_contra hxc
      exact hxc (h x ⟨hx, hxc⟩)
    · intro h x hx
      exact h x hx.1
  · rfl

/-- The loop of `disconnect` over the references `rs`. -/
structure Left (s t : DocService) (c : ConnectionId) (rs : List ManagerRef) : Prop where
  managers : ∀ r, t.managers r = if r ∈ rs then (s.managers r).removeConnection c else s.managers r
  docs : ∀ d, (∃ r ∈ rs, (s.managers r).id = d ∧ s.OnlyMember c r) ∧ t.docs.get d = none ∨
    (¬∃ r ∈ rs, (s.managers r).id = d ∧ s.OnlyMember c r) ∧ t.docs.get d = s.docs.get d
  index : t.connectionsToDocs = s.connectionsToDocs

lemma removeConnection_idem (m : DocManager) (c : ConnectionId) :
    (m.removeConnection c).removeConnection c = m.removeConnection c := by
  simp [DocManager.removeConnection, List.filter_filter]

lemma left_foldl (s : DocService) (c : ConnectionId) (rs : List ManagerRef) :
    Left s (rs.foldl (disconnectFrom c) s) c rs := by
  induction rs generalizing s with
  | nil => exact ⟨by simp, fun d => .inr (by simp), rfl⟩
  | cons r rs ih =>
    have hrest := ih (disconnectFrom c s r)
    rw [List.foldl_cons]
    refine ⟨fun r' => ?_, fun d => ?_, hrest.index.trans (index_disconnectFrom s c r)⟩
    · rw [hrest.managers r', managers_disconnectFrom]
      by_cases h : r' = r
      · subst h
        by_cases h' : r' ∈ rs <;> simp [h', removeConnection_idem]
      · simp [h]
    · have hids : ∀ r', ((disconnectFrom c s r).managers r').id = (s.managers r').id :=
        (shrinks_disconnectFrom s c r).ids
      have hd := hrest.docs d
      simp only [hids, onlyMember_disconnectFrom, docs_disconnectFrom] at hd
      simp only [List.mem_cons, exists_eq_or_imp]
      split at hd
      · rename_i hr
        left
        exact ⟨.inl hr, by rcases hd with ⟨-, h⟩ | ⟨-, h⟩ <;> exact h⟩
      · rename_i hr
        rcases hd with ⟨hex, h⟩ | ⟨hnex, h⟩
        · exact .inl ⟨.inr hex, h⟩
        · exact .inr ⟨not_or.mpr ⟨hr, hnex⟩, h⟩

lemma shrinks_foldl_disconnectFrom (s : DocService) (c : ConnectionId) (rs : List ManagerRef) :
    s.Shrinks (rs.foldl (disconnectFrom c) s) := by
  induction rs generalizing s with
  | nil => exact Shrinks.refl s
  | cons r rs ih => exact (shrinks_disconnectFrom s c r).trans (ih _)

lemma shrinks_disconnect (s : DocService) (c : ConnectionId) : s.Shrinks (s.disconnect c) := by
  unfold disconnect
  split
  · exact Shrinks.refl s
  · exact (shrinks_foldl_disconnectFrom s c _).trans (shrinks_delete_index _ c)

lemma joined_disconnect (s : DocService) (c c' : ConnectionId) :
    (s.disconnect c).joined c' = if c' = c then [] else s.joined c' := by
  unfold disconnect
  split
  · rename_i h
    split
    · rename_i hc
      simp [joined, hc, h]
    · rfl
  · rename_i rs h
    simp only [joined, (left_foldl s c rs).index, JsMap.get_delete]
    split <;> rfl

/-- `disconnect` works through the references that the index files under the connection. -/
lemma left_disconnect (s : DocService) (c : ConnectionId) :
    ∃ t, Left s t c (s.joined c) ∧ (s.disconnect c).docs = t.docs ∧
      (s.disconnect c).managers = t.managers := by
  unfold disconnect joined
  cases h : s.connectionsToDocs.get c with
  | none => exact ⟨s, left_foldl s c [], rfl, rfl⟩
  | some rs => exact ⟨rs.foldl (disconnectFrom c) s, left_foldl s c rs, rfl, rfl⟩

/-- The document loses its entry in `docs` when the connection leaves. -/
def Dropped (s : DocService) (c : ConnectionId) (d : DocKey) : Prop :=
  ∃ r ∈ s.joined c, (s.managers r).id = d ∧ s.OnlyMember c r

instance (s : DocService) (c : ConnectionId) (d : DocKey) : Decidable (s.Dropped c d) :=
  inferInstanceAs (Decidable (∃ _ ∈ _, _))

/-- After `disconnect` the members are those of documents that kept their entry, without the
connection itself where the index had the manager. -/
theorem holds_disconnect (s : DocService) (c c' : ConnectionId) (d : DocKey) :
    (s.disconnect c).Holds d c' ↔ ¬s.Dropped c d ∧
      ∃ doc, s.docs.get d = some doc ∧ c' ∈ (s.managers doc).connections ∧
        ¬(c' = c ∧ doc ∈ s.joined c) := by
  obtain ⟨t, ht, hdocs, hman⟩ := left_disconnect s c
  simp only [Holds, hdocs, hman]
  have hmem : ∀ doc, c' ∈ (t.managers doc).connections ↔
      c' ∈ (s.managers doc).connections ∧ ¬(c' = c ∧ doc ∈ s.joined c) := by
    intro doc
    rw [ht.managers]
    split
    · rename_i h
      simp [h]
    · rename_i h
      simp [h]
  simp only [hmem]
  rcases ht.docs d with ⟨hdrop, hget⟩ | ⟨hkeep, hget⟩
  · have hd : s.Dropped c d := hdrop
    simp [hget, hd]
  · have hd : ¬s.Dropped c d := hkeep
    simp [hget, hd]

end DocService

end AlaFois
