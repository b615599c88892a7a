import AlaFois.Lib.Stepper
import AlaFois.Proofs.DocServiceSpec
import Mathlib.Data.Set.Insert

/-!
# Membership over whole runs

The purpose of `DocService` is a relation between documents and connections: joining adds
a pair, detaching removes pairs, and disconnecting removes every pair of one connection.
The first section states this relation; the rest proves when the service refines it. All
operations but `disconnect` always do. `disconnect` works from references kept in
`connectionsToDocs`, and misses in two ways: the index of the connection may lack a
document, and it may hold a manager that `docs` has already replaced.
-/

namespace AlaFois

open DocService

/-! ### The relation that the service maintains -/

/-- What an operation does to the pairs of a document and a member. -/
def DocOp.spec (m : Set (DocKey × ConnectionId)) : DocOp → Set (DocKey × ConnectionId)
  | .joinToDoc conn docId => insert (docId, conn) m
  | .attach conn docs => m ∪ {p | p.1 ∈ docs ∧ p.2 = conn}
  | .detach connId docs => {p ∈ m | ¬(p.2 = connId ∧ .key p.1 ∈ docs)}
  | .disconnect connId => {p ∈ m | p.2 ≠ connId}

/-- The operation makes the connection a member of a document. -/
def DocOp.Joins (c : ConnectionId) : DocOp → Prop
  | .joinToDoc conn _ => conn = c
  | .attach conn _ => conn = c
  | _ => False

namespace DocService

/-- The pairs of a docId and a member of the manager stored under it. -/
def members (s : DocService) : Set (DocKey × ConnectionId) := {p | s.Holds p.1 p.2}

/-- The service after a sequence of operations. -/
def runOps (ops : List DocOp) : DocService := ops.foldl DocService.apply init

/-- Every document that holds the connection is stored under a manager that the index lists. -/
def Covered (s : DocService) (c : ConnectionId) : Prop :=
  ∀ d, s.Holds d c → ∃ doc ∈ s.joined c, s.docs.get d = some doc

/-- The index lists the stored manager of a document whenever it lists any manager of it. -/
def Refreshed (s : DocService) : Prop :=
  ∀ c d, s.Holds d c → (∃ r ∈ s.joined c, (s.managers r).id = d) →
    ∃ doc ∈ s.joined c, s.docs.get d = some doc

/-- No manager that the leaving connection would empty shares its id with a stored manager
that has other members. -/
def DisconnectOk (s : DocService) : DocOp → Prop
  | .disconnect c => ∀ r ∈ s.joined c, s.OnlyMember c r →
      ∀ c', s.Holds (s.managers r).id c' → c' = c
  | _ => True

instance (s : DocService) (d : DocKey) (c : ConnectionId) : Decidable (s.Alone d c) :=
  match h : s.docs.get d with
  | none => isFalse fun ha => by
      obtain ⟨doc, hd, -⟩ := ha.1
      simp [h] at hd
  | some _ => decidable_of_iff _ (alone_iff h).symm

/-- A detached connection that was alone in one of the documents keeps no other document. -/
def DetachOk (s : DocService) : DocOp → Prop
  | .detach c docs => (∃ d ∈ s.held c, .key d ∈ docs ∧ s.Alone d c) →
      ∀ d ∈ s.held c, .key d ∈ docs
  | _ => True

instance (s : DocService) (op : DocOp) : Decidable (s.DetachOk op) := by
  unfold DetachOk
  split <;> infer_instance

/-! ### One step -/

lemma wf_apply {s : DocService} (h : s.WF) (op : DocOp) : (s.apply op).WF := by
  cases op with
  | joinToDoc c d => exact wf_joinToDoc h c d
  | attach c ds => exact (attach_spec h c ds).1
  | detach c rs => exact (shrinks_detach s c rs).wf h
  | disconnect c => exact (shrinks_disconnect s c).wf h

lemma wf_runOps (ops : List DocOp) : (runOps ops).WF :=
  List.foldlRecOn ops _ wf_init fun _ h op _ => wf_apply h op

/-- Every operation but `disconnect` refines the relation. -/
theorem members_apply {s : DocService} (h : s.WF) (op : DocOp) (hop : ∀ c, op ≠ .disconnect c) :
    (s.apply op).members = op.spec s.members := by
  ext ⟨d, c⟩
  cases op with
  | joinToDoc c' d' =>
    change (s.joinToDoc c' d').Holds d c ↔ _
    rw [holds_joinToDoc h]
    simp [DocOp.spec, members, Set.mem_insert_iff, or_comm]
  | attach c' ds => exact (attach_spec h c' ds).2 d c
  | detach c' rs => exact holds_detach h c' c rs d
  | disconnect c' => exact absurd rfl (hop c')

lemma holds_disconnect_self (s : DocService) (c : ConnectionId) (d : DocKey) :
    (s.disconnect c).Holds d c ↔ ¬s.Dropped c d ∧
      ∃ doc, s.docs.get d = some doc ∧ c ∈ (s.managers doc).connections ∧ doc ∉ s.joined c := by
  simp [holds_disconnect]

lemma holds_disconnect_other (s : DocService) {c c' : ConnectionId} (hc : c' ≠ c) (d : DocKey) :
    (s.disconnect c).Holds d c' ↔ ¬s.Dropped c d ∧ s.Holds d c' := by
  rw [holds_disconnect]
  simp [hc, Holds]

/-- Disconnecting keeps the other members exactly when no replaced manager is in the way. -/
lemma disconnect_keeps_iff (s : DocService) (c : ConnectionId) :
    (∀ c', c' ≠ c → ∀ d, (s.disconnect c).Holds d c' ↔ s.Holds d c') ↔
      s.DisconnectOk (.disconnect c) := by
  constructor
  · intro h r hr honly c' hh
    by_contra hc
    have hkept := (h c' hc _).mpr hh
    rw [holds_disconnect_other s hc] at hkept
    exact hkept.1 ⟨r, hr, rfl, honly⟩
  · intro h c' hc d
    rw [holds_disconnect_other s hc]
    constructor
    · exact And.right
    · intro hh
      refine ⟨?_, hh⟩
      rintro ⟨r, hr, rfl, honly⟩
      exact hc (h r hr honly c' hh)

/-- Disconnecting removes the connection exactly when the index covers it. -/
lemma disconnect_removes_iff {s : DocService} (hs : s.Refreshed) (c : ConnectionId) :
    (∀ d, ¬(s.disconnect c).Holds d c) ↔ s.Covered c := by
  constructor
  · intro h d hh
    obtain ⟨doc, hd, hc⟩ := hh
    have hnot := h d
    rw [holds_disconnect_self] at hnot
    by_cases hdrop : s.Dropped c d
    · obtain ⟨r, hr, hid, -⟩ := hdrop
      exact hs c d ⟨doc, hd, hc⟩ ⟨r, hr, hid⟩
    · by_contra hcov
      exact hnot ⟨hdrop, doc, hd, hc, fun hj => hcov ⟨doc, hj, hd⟩⟩
  · intro h d hh
    rw [holds_disconnect_self] at hh
    obtain ⟨-, doc, hd, hc, hj⟩ := hh
    obtain ⟨doc', hj', hd'⟩ := h d ⟨doc, hd, hc⟩
    exact hj (Option.some.inj (hd.symm.trans hd') ▸ hj')

/-- `disconnect` refines the relation exactly when it misses in neither way. -/
theorem members_disconnect_iff {s : DocService} (hs : s.Refreshed) (c : ConnectionId) :
    (s.disconnect c).members = DocOp.spec s.members (.disconnect c) ↔
      s.DisconnectOk (.disconnect c) ∧ s.Covered c := by
  rw [← disconnect_keeps_iff, ← disconnect_removes_iff hs]
  constructor
  · intro h
    have hmem : ∀ d c', (s.disconnect c).Holds d c' ↔ s.Holds d c' ∧ c' ≠ c := fun d c' =>
      Set.ext_iff.mp h (d, c')
    exact ⟨fun c' hc d => by rw [hmem]; simp [hc], fun d hh => ((hmem d c).mp hh).2 rfl⟩
  · rintro ⟨hkeep, hgone⟩
    ext ⟨d, c'⟩
    change (s.disconnect c).Holds d c' ↔ s.Holds d c' ∧ c' ≠ c
    by_cases hc : c' = c
    · simpa [hc] using hgone d
    · simpa [hc] using hkeep c' hc d

/-! ### The index over a run -/

lemma docs_joinToDoc_of_some {s : DocService} {c : ConnectionId} {d d' : DocKey}
    {doc : ManagerRef} (h : s.docs.get d' = some doc) :
    (s.joinToDoc c d).docs.get d' = some doc := by
  rw [docs_joinToDoc]
  unfold getOrCreate
  cases hd : s.docs.get d with
  | some doc' => exact h
  | none =>
    have hne : d' ≠ d := by
      rintro rfl
      simp [h] at hd
    simp [JsMap.get_set_ne _ _ hne, h]

lemma covered_joinToDoc {s : DocService} (h : s.WF) (c₀ : ConnectionId) (d₀ : DocKey)
    {c : ConnectionId} (hc : s.Covered c) : (s.joinToDoc c₀ d₀).Covered c := by
  intro d hh
  rw [joined_joinToDoc h]
  rcases (holds_joinToDoc h c₀ c d₀ d).mp hh with hold | ⟨rfl, rfl⟩
  · obtain ⟨doc, hj, hd⟩ := hc d hold
    refine ⟨doc, ?_, docs_joinToDoc_of_some hd⟩
    split
    · rename_i he
      exact List.mem_append_left _ (he ▸ hj)
    · exact hj
  · exact ⟨(s.getOrCreate d).1, by simp, (getOrCreate_spec h d).stored⟩

lemma covered_attach {s : DocService} (h : s.WF) (c₀ : ConnectionId) (ds : List DocKey)
    {c : ConnectionId} (hc : s.Covered c) : (s.onAttachDocMessage c₀ ds).Covered c := by
  induction ds generalizing s with
  | nil => exact hc
  | cons d ds ih => exact ih (wf_joinToDoc h c₀ d) (covered_joinToDoc h c₀ d hc)

/-- Operations that only remove keep a connection covered as long as they keep its index. -/
lemma Shrinks.covered {s t : DocService} (h : s.Shrinks t) {c : ConnectionId}
    (hj : t.joined c = s.joined c) (hc : s.Covered c) : t.Covered c := by
  intro d hh
  obtain ⟨doc, hjoined, hd⟩ := hc d (h.holds hh)
  obtain ⟨doc', hd', -⟩ := hh
  have he : doc' = doc := Option.some.inj ((h.docs d doc' hd').symm.trans hd)
  exact ⟨doc, hj ▸ hjoined, he ▸ hd'⟩

lemma covered_detach {s : DocService} (h : s.WF) (c₀ : ConnectionId) (rs : List RemovedDoc)
    (hok : s.DetachOk (.detach c₀ rs)) {c : ConnectionId} (hc : s.Covered c) :
    (s.onDetachDocMessage c₀ rs).Covered c := by
  rcases joined_detach h c₀ c rs with ⟨⟨d, hd, ha⟩, rfl, -⟩ | ⟨-, hj⟩
  · -- the index of the connection is gone, and so are its documents
    intro d' hh
    obtain ⟨hold, hnot⟩ := (holds_detach h c c rs d').mp hh
    have hall := hok ⟨d, mem_held.mpr ha.1, hd, ha⟩
    exact absurd ⟨rfl, hall d' (mem_held.mpr hold)⟩ hnot
  · exact (shrinks_detach s c₀ rs).covered hj hc

lemma covered_disconnect {s : DocService} (c₀ : ConnectionId) {c : ConnectionId}
    (hc : s.Covered c) : (s.disconnect c₀).Covered c := by
  by_cases he : c = c₀
  · subst he
    intro d hh
    rw [holds_disconnect_self] at hh
    obtain ⟨-, doc, hd, hmem, hj⟩ := hh
    obtain ⟨doc', hj', hd'⟩ := hc d ⟨doc, hd, hmem⟩
    exact absurd (Option.some.inj (hd.symm.trans hd') ▸ hj') hj
  · exact (shrinks_disconnect s c₀).covered (by rw [joined_disconnect, if_neg he]) hc

lemma covered_apply {s : DocService} (h : s.WF) (op : DocOp) (hok : s.DetachOk op)
    {c : ConnectionId} (hc : s.Covered c) : (s.apply op).Covered c := by
  cases op with
  | joinToDoc c₀ d => exact covered_joinToDoc h c₀ d hc
  | attach c₀ ds => exact covered_attach h c₀ ds hc
  | detach c₀ rs => exact covered_detach h c₀ rs hok hc
  | disconnect c₀ => exact covered_disconnect c₀ hc

lemma Shrinks.refreshed {s t : DocService} (h : s.Shrinks t)
    (hj : ∀ c, t.joined c = [] ∨ t.joined c = s.joined c) (hs : s.Refreshed) : t.Refreshed := by
  intro c d hh hex
  rcases hj c with hnil | hsame
  · simp [hnil] at hex
  · obtain ⟨r, hr, hid⟩ := hex
    rw [hsame] at hr ⊢
    rw [h.ids] at hid
    obtain ⟨doc, hjoined, hd⟩ := hs c d (h.holds hh) ⟨r, hr, hid⟩
    obtain ⟨doc', hd', -⟩ := hh
    exact ⟨doc, hjoined, Option.some.inj ((h.docs d doc' hd').symm.trans hd) ▸ hd'⟩

lemma id_joinToDoc {s : DocService} (h : s.WF) (c : ConnectionId) (d : DocKey) {r : ManagerRef}
    (hr : r < s.nextRef) : ((s.joinToDoc c d).managers r).id = (s.managers r).id := by
  have hg := getOrCreate_spec h d
  rw [managers_joinToDoc]
  by_cases he : r = (s.getOrCreate d).1
  · rw [← he, update_managers_self, DocManager.addConnection_id, hg.managers r hr]
  · rw [update_managers_ne _ _ he, hg.managers r hr]

lemma refreshed_joinToDoc {s : DocService} (h : s.WF) (c₀ : ConnectionId) (d₀ : DocKey)
    (hs : s.Refreshed) : (s.joinToDoc c₀ d₀).Refreshed := by
  intro c d hh hex
  rw [joined_joinToDoc h] at hex ⊢
  rcases (holds_joinToDoc h c₀ c d₀ d).mp hh with hold | ⟨rfl, rfl⟩
  · have hkeep : (∃ r ∈ s.joined c, (s.managers r).id = d) → ∃ doc ∈ s.joined c,
        (s.joinToDoc c₀ d₀).docs.get d = some doc := by
      intro hr
      obtain ⟨doc, hj, hd⟩ := hs c d hold hr
      exact ⟨doc, hj, docs_joinToDoc_of_some hd⟩
    obtain ⟨r, hr, hid⟩ := hex
    split at hr
    · rename_i hc
      subst hc
      rw [if_pos rfl]
      rcases List.mem_append.mp hr with hr | hr
      · rw [id_joinToDoc h c d₀ (h.joined_lt c r hr)] at hid
        obtain ⟨doc, hj, hd⟩ := hkeep ⟨r, hr, hid⟩
        exact ⟨doc, List.mem_append_left _ hj, hd⟩
      · -- the reference just pushed names the document joined
        have hstored := (getOrCreate_spec h d₀).stored
        have hd₀ := (wf_joinToDoc h c d₀).docs_id d₀ _ hstored
        rw [List.mem_singleton.mp hr, hd₀] at hid
        exact ⟨_, List.mem_append_right _ (List.mem_singleton_self _), hid ▸ hstored⟩
    · rename_i hc
      rw [if_neg hc]
      rw [id_joinToDoc h c₀ d₀ (h.joined_lt c r hr)] at hid
      exact hkeep ⟨r, hr, hid⟩
  · exact ⟨(s.getOrCreate d).1, by simp, (getOrCreate_spec h d).stored⟩

lemma refreshed_apply {s : DocService} (h : s.WF) (op : DocOp) (hs : s.Refreshed) :
    (s.apply op).Refreshed := by
  cases op with
  | joinToDoc c d => exact refreshed_joinToDoc h c d hs
  | attach c ds =>
    change (s.onAttachDocMessage c ds).Refreshed
    induction ds generalizing s with
    | nil => exact hs
    | cons d ds ih => exact ih (wf_joinToDoc h c d) (refreshed_joinToDoc h c d hs)
  | detach c rs =>
    refine (shrinks_detach s c rs).refreshed (fun c' => ?_) hs
    rcases joined_detach h c c' rs with ⟨-, -, hn⟩ | ⟨-, hj⟩
    · exact .inl hn
    · exact .inr hj
  | disconnect c =>
    refine (shrinks_disconnect s c).refreshed (fun c' => ?_) hs
    rw [joined_disconnect]
    split
    · exact .inl rfl
    · exact .inr rfl

lemma refreshed_runOps (ops : List DocOp) : (runOps ops).Refreshed := by
  have h : (runOps ops).WF ∧ (runOps ops).Refreshed :=
    List.foldlRecOn (motive := fun s : DocService => s.WF ∧ s.Refreshed) ops _
      ⟨wf_init, fun c d hh => by obtain ⟨doc, hd, -⟩ := hh; simp [init] at hd⟩
      fun _ h op _ => ⟨wf_apply h.1 op, refreshed_apply h.1 op h.2⟩
  exact h.2

/-! ### Leaving and the other members -/

/-- In every reachable state an operation on behalf of one connection keeps the membership
of all others exactly when it is no `disconnect` that meets a replaced manager. -/
theorem other_members_kept_iff (ops : List DocOp) (op : DocOp) :
    (∀ c', c' ≠ op.conn → ∀ d, ((runOps ops).apply op).Holds d c' ↔ (runOps ops).Holds d c') ↔
      (runOps ops).DisconnectOk op := by
  have hwf := wf_runOps ops
  cases op with
  | joinToDoc c d =>
    refine iff_of_true (fun c' hc d' => ?_) trivial
    exact (holds_joinToDoc hwf c c' d d').trans (or_iff_left fun h => hc h.2)
  | attach c ds =>
    refine iff_of_true (fun c' hc d' => ?_) trivial
    exact ((attach_spec hwf c ds).2 d' c').trans (or_iff_left fun h => hc h.2)
  | detach c rs =>
    refine iff_of_true (fun c' hc d' => ?_) trivial
    exact (holds_detach hwf c c' rs d').trans (and_iff_left fun h => hc h.1)
  | disconnect c => exact disconnect_keeps_iff (runOps ops) c

/-- The first connection was detached while the second stayed, so its index keeps the manager
that the second one then took out of `docs`; when the first leaves, it deletes the entry of the
manager that the third has joined meanwhile. -/
theorem other_member_evicted :
    ¬∀ (ops : List DocOp) (op : DocOp) (c' : ConnectionId), c' ≠ op.conn → ∀ d,
      (((runOps ops).apply op).Holds d c' ↔ (runOps ops).Holds d c') := by
  intro h
  have hrun := h [.joinToDoc "first" "doc", .joinToDoc "second" "doc",
    .detach "first" [.key "doc"], .disconnect "second", .joinToDoc "third" "doc"]
    (.disconnect "first") "third" (by decide) "doc"
  revert hrun
  decide

/-! ### Completeness of leaving -/

/-- No broadcast of this state goes to the connection. -/
def Silent (s : DocService) (c : ConnectionId) : Prop :=
  (∀ m message, (c, message) ∉ s.onChangesOrAwarenessMessage m) ∧
    ∀ author d data effects,
      s.applyChanges author d data = .ok effects ∨ s.applyAwareness author d data = .ok effects →
        ∀ message, (c, message) ∉ effects.sent

lemma broadcast_mem {m : DocManager} {author c : ConnectionId} {message message' : ServerMessage}
    (h : (c, message) ∈ m.broadcast author message') : c ∈ m.connections := by
  simp only [DocManager.broadcast, List.mem_map, List.mem_filter, Prod.mk.injEq] at h
  obtain ⟨x, hx, rfl, -⟩ := h
  exact hx.1

lemma assertClientJoined_ok {s : DocService} {c : ConnectionId} {d : DocKey} {m : DocManager}
    (h : s.assertClientJoined c d = .ok m) :
    ∃ doc, s.docs.get d = some doc ∧ m = s.managers doc ∧ c ∈ (s.managers doc).connections := by
  unfold assertClientJoined at h
  cases hd : s.docs.get d with
  | none => simp [hd] at h
  | some doc =>
    simp only [hd] at h
    split at h
    · rename_i hc
      exact ⟨doc, rfl, (Except.ok.inj h).symm, (DocManager.contains_iff _ _).mp hc⟩
    · cases h

lemma silent_of_not_holds {s : DocService} {c : ConnectionId} (h : ∀ d, ¬s.Holds d c) :
    s.Silent c := by
  refine ⟨fun m message hm => ?_, fun author d data effects he message hm => ?_⟩
  · cases m <;> rename_i author d data <;> simp only [onChangesOrAwarenessMessage] at hm <;>
      cases hd : s.docs.get d <;> simp only [hd, List.not_mem_nil] at hm <;> split at hm <;>
      first
        | exact (List.not_mem_nil hm)
        | exact h d ⟨_, hd, broadcast_mem hm⟩
  · unfold applyChanges applyAwareness at he
    cases ha : s.assertClientJoined author d with
    | error e => simp [ha, Except.map] at he
    | ok m =>
      obtain ⟨doc, hd, rfl, -⟩ := assertClientJoined_ok ha
      simp only [ha, Except.map, Except.ok.injEq] at he
      rcases he with rfl | rfl <;> exact h d ⟨doc, hd, broadcast_mem hm⟩

lemma holds_apply_of_not_joins {s : DocService} (h : s.WF) (op : DocOp) {c : ConnectionId}
    (hop : ¬op.Joins c) {d : DocKey} (hh : (s.apply op).Holds d c) : s.Holds d c := by
  cases op with
  | joinToDoc c' d' =>
    exact ((holds_joinToDoc h c' c d' d).mp hh).resolve_right fun he => hop he.2.symm
  | attach c' ds => exact (((attach_spec h c' ds).2 d c).mp hh).resolve_right fun he => hop he.2.symm
  | detach c' rs => exact (shrinks_detach s c' rs).holds hh
  | disconnect c' => exact (shrinks_disconnect s c').holds hh

/-- A connection that is in no document stays out until an operation joins it. -/
lemma not_holds_foldl {s : DocService} (h : s.WF) (ops : List DocOp) {c : ConnectionId}
    (hops : ∀ op ∈ ops, ¬op.Joins c) (hnot : ∀ d, ¬s.Holds d c) (d : DocKey) :
    ¬(ops.foldl DocService.apply s).Holds d c := by
  induction ops generalizing s with
  | nil => exact hnot d
  | cons op ops ih =>
    refine ih (wf_apply h op) (fun o ho => hops o (List.mem_cons_of_mem op ho)) fun d' hh => ?_
    exact hnot d' (holds_apply_of_not_joins h op (hops op List.mem_cons_self) hh)

lemma covered_foldl {s : DocService} (h : s.WF) {ops : List DocOp}
    (hops : Stepper.Guarded (fun s op => some (s.apply op)) DetachOk s ops) {c : ConnectionId}
    (hc : s.Covered c) : (ops.foldl DocService.apply s).Covered c := by
  induction ops generalizing s with
  | nil => exact hc
  | cons op ops ih =>
    obtain ⟨hok, hops⟩ := (Stepper.guarded_cons rfl).mp hops
    exact ih (wf_apply h op) hops (covered_apply h op hok hc)

lemma covered_init (c : ConnectionId) : init.Covered c := by
  intro d hh
  obtain ⟨doc, hd, -⟩ := hh
  simp [init] at hd

/-- In every reachable state `disconnect` is complete exactly when the index covers the
connection. In runs whose detach messages drop no index entry that is still needed, it leaves
the connection in no document and without broadcasts until it joins again. -/
theorem disconnect_complete (ops : List DocOp) (c : ConnectionId) :
    ((∀ d, ¬((runOps ops).disconnect c).Holds d c) ↔ (runOps ops).Covered c) ∧
      (Stepper.Guarded (fun s op => some (s.apply op)) DetachOk init ops →
        ∀ later : List DocOp, (∀ op ∈ later, ¬op.Joins c) →
          (∀ d, ¬(later.foldl DocService.apply ((runOps ops).disconnect c)).Holds d c) ∧
            (later.foldl DocService.apply ((runOps ops).disconnect c)).Silent c) := by
  have hiff := disconnect_removes_iff (refreshed_runOps ops) c
  refine ⟨hiff, fun hops later hlater => ?_⟩
  have hcov : (runOps ops).Covered c := covered_foldl wf_init hops (covered_init c)
  have hwf := (shrinks_disconnect _ c).wf (wf_runOps ops)
  have hnot := not_holds_foldl hwf later hlater (hiff.mpr hcov)
  exact ⟨hnot, silent_of_not_holds hnot⟩

/-- Two members, a detach that leaves one of them, and a disconnect. -/
theorem disconnect_complete_two_members :
    ¬((runOps [.joinToDoc "a" "doc", .joinToDoc "b" "doc", .joinToDoc "a" "other",
      .detach "a" [.key "doc"]]).disconnect "a").Holds "other" "a" :=
  ((disconnect_complete _ "a").2 (by decide) [] (by simp)).1 "other"

/-- Detached from the document it was alone in, the connection loses its whole index entry, so
`disconnect` finds nothing and leaves it in the other document. -/
theorem disconnect_incomplete :
    ¬∀ (ops : List DocOp) (c : ConnectionId) (d : DocKey),
      ¬((runOps ops).disconnect c).Holds d c := by
  intro h
  have hrun := h [.joinToDoc "a" "doc", .joinToDoc "a" "other", .detach "a" [.key "doc"]] "a" "other"
  revert hrun
  decide

end DocService

end AlaFois
