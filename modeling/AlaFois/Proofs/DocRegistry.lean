import AlaFois.Model.DocRegistry
import AlaFois.Proofs.Attendance

/-!
# The registry is exact

No operation leaves an empty manager under a docId. With the objects forgotten, the registry is
the `DocService` of the earlier modules, so its managers are those; what the objects add is that
each of them is filed under its own id, and so a change reaches every other one once.
-/

namespace AlaFois

/-! ### No manager is empty -/

namespace DocService

variable {s : DocService}

/-- Every document that is stored has a member. -/
def Occupied (s : DocService) : Prop := ∀ d doc, s.docs.get d = some doc → ∃ c, s.Holds d c

lemma occupied_init : init.Occupied := fun d doc h => by simp [init] at h

lemma Occupied.joinToDoc (h : s.Occupied) (hwf : s.WF) (c : ConnectionId) (d : DocKey) :
    (s.joinToDoc c d).Occupied := by
  intro d' doc hdoc
  by_cases hd : d' = d
  · exact ⟨c, (holds_joinToDoc hwf c c d d').mpr (.inr ⟨hd, rfl⟩)⟩
  · rw [docs_joinToDoc, (getOrCreate_spec hwf d).others d' hd] at hdoc
    obtain ⟨c', hc'⟩ := h d' doc hdoc
    exact ⟨c', (holds_joinToDoc hwf c c' d d').mpr (.inl hc')⟩

lemma Occupied.detachDoc (h : s.Occupied) (hwf : s.WF) (c : ConnectionId) (d : DocKey) :
    (s.detachDoc c d).Occupied := by
  intro d' doc hdoc
  have hbefore := (shrinks_detachDoc s c d).docs d' doc hdoc
  by_cases hd : d' = d
  · subst hd
    by_cases hh : s.Holds d' c
    · -- the manager keeps its entry only if there is another member
      have hc := member_of_holds hh hbefore
      rw [detachDoc_of_holds hbefore hc] at hdoc
      split at hdoc
      · simp at hdoc
      · rename_i hempty
        rw [DocManager.isEmpty_removeConnection] at hempty
        push Not at hempty
        obtain ⟨x, hx, hne⟩ := hempty
        exact ⟨x, (holds_detachDoc hwf c x d' d').mpr ⟨⟨doc, hbefore, hx⟩, fun he => hne he.2⟩⟩
    · rw [detachDoc_of_not_holds hh]
      exact h d' doc hbefore
  · obtain ⟨c', hc'⟩ := h d' doc hbefore
    exact ⟨c', (holds_detachDoc hwf c c' d d').mpr ⟨hc', fun he => hd he.1⟩⟩

lemma Occupied.disconnect (h : s.Occupied) (hwf : s.WF) (c : ConnectionId) :
    (s.disconnect c).Occupied := by
  intro d doc hdoc
  obtain ⟨t, ht, hdocs, -⟩ := left_disconnect s c
  rw [hdocs] at hdoc
  rcases ht.docs d with ⟨-, hnone⟩ | ⟨hkeep, hsame⟩
  · rw [hnone] at hdoc
    cases hdoc
  · rw [hsame] at hdoc
    obtain ⟨c', hc'⟩ := h d doc hdoc
    have hmem := member_of_holds hc' hdoc
    by_cases hj : doc ∈ s.joined c
    · -- a manager of the connection that keeps its entry has another member
      have hother : ¬s.OnlyMember c doc := fun honly =>
        hkeep ⟨doc, hj, hwf.docs_id d doc hdoc, honly⟩
      unfold OnlyMember at hother
      push Not at hother
      obtain ⟨x, hx, hne⟩ := hother
      exact ⟨x, (holds_disconnect s c x d).mpr ⟨hkeep, doc, hdoc, hx, fun he => hne he.1⟩⟩
    · exact ⟨c', (holds_disconnect s c c' d).mpr ⟨hkeep, doc, hdoc, hmem, fun he => hj he.2⟩⟩

lemma Occupied.detach (h : s.Occupied) (hwf : s.WF) (c : ConnectionId) (rs : List RemovedDoc) :
    (s.onDetachDocMessage c rs).Occupied := by
  induction rs generalizing s with
  | nil => exact h
  | cons r rs ih =>
    cases r with
    | key d => exact ih (h.detachDoc hwf c d) ((shrinks_detachDoc s c d).wf hwf)
    | entry a => exact ih h hwf

lemma Occupied.attach (h : s.Occupied) (hwf : s.WF) (c : ConnectionId) (ds : List DocKey) :
    (s.onAttachDocMessage c ds).Occupied := by
  induction ds generalizing s with
  | nil => exact h
  | cons d ds ih => exact ih (h.joinToDoc hwf c d) (wf_joinToDoc hwf c d)

lemma Occupied.apply (h : s.Occupied) (hwf : s.WF) (op : DocOp) : (s.apply op).Occupied := by
  cases op with
  | joinToDoc conn docId => exact h.joinToDoc hwf conn docId
  | attach conn docs => exact h.attach hwf conn docs
  | detach connId docs => exact h.detach hwf connId docs
  | disconnect connId => exact h.disconnect hwf connId

lemma occupied_foldl (h : s.Occupied) (hwf : s.WF) (ops : List DocOp) :
    (ops.foldl DocService.apply s).Occupied := by
  induction ops generalizing s with
  | nil => exact h
  | cons op ops ih => exact ih (h.apply hwf op) (wf_apply hwf op)

lemma occupied_runOps (ops : List DocOp) : (runOps ops).Occupied :=
  occupied_foldl occupied_init wf_init ops

end DocService

namespace Registry

variable {Conn : Type*} {idOf : Conn → ConnectionId}

/-! ### The objects forgotten -/

namespace DocManager

/-- The manager with the ids alone. -/
def erase (m : DocManager Conn) : AlaFois.DocManager :=
  ⟨m.id, m.connections.keys, m.connections.nodup_keys⟩

lemma contains_iff (m : DocManager Conn) (c : ConnectionId) :
    m.contains c = true ↔ c ∈ m.connections.keys := JsMap.has_iff _ _

lemma contains_erase (m : DocManager Conn) (c : ConnectionId) :
    m.erase.contains c = m.contains c := by
  rw [Bool.eq_iff_iff, AlaFois.DocManager.contains_iff, contains_iff]
  rfl

lemma isEmpty_erase (m : DocManager Conn) : m.erase.isEmpty = m.isEmpty := by
  rw [isEmpty, AlaFois.DocManager.isEmpty]
  exact List.isEmpty_map

lemma erase_eq {m : DocManager Conn} {m' : AlaFois.DocManager} (hid : m.id = m'.id)
    (hkeys : m.connections.keys = m'.connections) : m.erase = m' := by
  cases m'
  cases hid
  cases hkeys
  rfl

lemma erase_addConnection (m : DocManager Conn) (client : Conn) :
    (m.addConnection idOf client).erase = m.erase.addConnection (idOf client) := by
  by_cases hc : idOf client ∈ m.connections.keys
  · have hc' : idOf client ∈ m.erase.connections := hc
    rw [addConnection, if_pos ((m.contains_iff _).mpr hc), AlaFois.DocManager.addConnection,
      dif_pos hc']
  · have hc' : idOf client ∉ m.erase.connections := hc
    rw [addConnection, if_neg fun h => hc ((m.contains_iff _).mp h),
      AlaFois.DocManager.addConnection, dif_neg hc']
    refine erase_eq rfl ?_
    rw [JsMap.keys_set, if_neg hc]
    rfl

lemma erase_removeConnection (m : DocManager Conn) (c : ConnectionId) :
    (m.removeConnection c).erase = m.erase.removeConnection c := by
  by_cases hc : c ∈ m.connections.keys
  · rw [removeConnection, if_pos ((m.contains_iff _).mpr hc)]
    exact erase_eq rfl (JsMap.keys_delete _ _)
  · rw [removeConnection, if_neg fun h => hc ((m.contains_iff _).mp h)]
    refine erase_eq rfl (List.filter_eq_self.mpr fun k hk => ?_).symm
    exact decide_eq_true fun he => hc (he ▸ hk)

end DocManager

namespace DocService

def erase (s : DocService Conn) : AlaFois.DocService where
  docs := s.docs
  connectionsToDocs := s.connectionsToDocs
  managers ref := (s.managers ref).erase
  nextRef := s.nextRef

lemma erase_init : (init : DocService Conn).erase = AlaFois.DocService.init := rfl

lemma docs_erase (s : DocService Conn) : s.erase.docs = s.docs := rfl

lemma connectionsToDocs_erase (s : DocService Conn) :
    s.erase.connectionsToDocs = s.connectionsToDocs := rfl

lemma contains_managers_erase (s : DocService Conn) (doc : ManagerRef) (c : ConnectionId) :
    (s.erase.managers doc).contains c = (s.managers doc).contains c :=
  (s.managers doc).contains_erase c

lemma isEmpty_managers_erase (s : DocService Conn) (doc : ManagerRef) :
    (s.erase.managers doc).isEmpty = (s.managers doc).isEmpty := (s.managers doc).isEmpty_erase

lemma erase_update (s : DocService Conn) (ref : ManagerRef) {f : DocManager Conn → DocManager Conn}
    {g : AlaFois.DocManager → AlaFois.DocManager} (hf : ∀ m, (f m).erase = g m.erase) :
    (s.update ref f).erase = s.erase.update ref g := by
  simp only [erase, update, AlaFois.DocService.update, AlaFois.DocService.mk.injEq, true_and,
    and_true]
  funext r
  by_cases hr : r = ref
  · subst hr
    simp [hf]
  · simp [hr]

lemma erase_remove (s : DocService Conn) (ref : ManagerRef) (c : ConnectionId) :
    (s.update ref (·.removeConnection c)).erase = s.erase.update ref (·.removeConnection c) :=
  erase_update s ref fun m => m.erase_removeConnection c

lemma erase_getOrCreate (s : DocService Conn) (d : DocKey) :
    s.erase.getOrCreate d = ((s.getOrCreate d).1, (s.getOrCreate d).2.erase) := by
  unfold getOrCreate AlaFois.DocService.getOrCreate
  rw [docs_erase]
  cases s.docs.get d with
  | some ref => rfl
  | none =>
    simp only [erase, Prod.mk.injEq, true_and, AlaFois.DocService.mk.injEq, and_true]
    funext r
    by_cases hr : r = s.nextRef
    · subst hr
      simp
      rfl
    · simp [hr]

lemma erase_joinToDoc (s : DocService Conn) (conn : Conn) (d : DocKey) :
    (s.joinToDoc idOf conn d).erase = s.erase.joinToDoc (idOf conn) d := by
  have hupdate : ((s.getOrCreate d).2.update (s.getOrCreate d).1 (·.addConnection idOf conn)).erase =
      (s.getOrCreate d).2.erase.update (s.getOrCreate d).1 (·.addConnection (idOf conn)) :=
    erase_update _ _ fun m => m.erase_addConnection conn
  rw [AlaFois.DocService.joinToDoc, erase_getOrCreate]
  dsimp only
  rw [← hupdate]
  rfl

lemma erase_detachDoc (s : DocService Conn) (c : ConnectionId) (d : DocKey) :
    (s.detachDoc c d).erase = s.erase.detachDoc c d := by
  unfold detachDoc AlaFois.DocService.detachDoc
  rw [docs_erase]
  cases s.docs.get d with
  | none => rfl
  | some doc =>
    dsimp only
    rw [contains_managers_erase, ← erase_remove, isEmpty_managers_erase]
    split
    · split <;> rfl
    · rfl

lemma erase_disconnectFrom (s : DocService Conn) (c : ConnectionId) (doc : ManagerRef) :
    (disconnectFrom c s doc).erase = AlaFois.DocService.disconnectFrom c s.erase doc := by
  unfold disconnectFrom AlaFois.DocService.disconnectFrom
  dsimp only
  rw [← erase_remove, isEmpty_managers_erase]
  split <;> rfl

lemma erase_disconnect (s : DocService Conn) (c : ConnectionId) :
    (s.disconnect c).erase = s.erase.disconnect c := by
  unfold disconnect AlaFois.DocService.disconnect
  rw [connectionsToDocs_erase]
  cases s.connectionsToDocs.get c with
  | none => rfl
  | some joinedDocs =>
    have hloop : joinedDocs.foldl (AlaFois.DocService.disconnectFrom c) s.erase =
        (joinedDocs.foldl (disconnectFrom c) s).erase :=
      List.foldl_hom erase fun s doc => (erase_disconnectFrom s c doc).symm
    dsimp only
    rw [hloop]
    rfl

end DocService

/-- The same operation of a connection that is known by its id. -/
def DocOp.erase (idOf : Conn → ConnectionId) : DocOp Conn → AlaFois.DocOp
  | .joinToDoc conn docId => .joinToDoc (idOf conn) docId
  | .attach conn docs => .attach (idOf conn) docs
  | .detach connId docs => .detach connId docs
  | .disconnect connId => .disconnect connId

namespace DocService

/-- The registry does what the service over ids does. -/
lemma erase_apply (s : DocService Conn) (op : DocOp Conn) :
    (s.apply idOf op).erase = s.erase.apply (op.erase idOf) := by
  cases op with
  | joinToDoc conn docId => exact erase_joinToDoc s conn docId
  | attach conn docs =>
    exact (List.foldl_hom erase fun s d => (erase_joinToDoc s conn d).symm).symm
  | detach connId docs =>
    refine (List.foldl_hom erase fun s r => ?_).symm
    cases r with
    | key d => exact (erase_detachDoc s connId d).symm
    | entry a => rfl
  | disconnect connId => exact erase_disconnect s connId

theorem erase_foldl (idOf : Conn → ConnectionId) (s : DocService Conn) (ops : List (DocOp Conn)) :
    (ops.foldl (apply idOf) s).erase =
      (ops.map (DocOp.erase idOf)).foldl AlaFois.DocService.apply s.erase := by
  rw [List.foldl_map]
  exact (List.foldl_hom erase fun s op => (erase_apply s op).symm).symm

end DocService

/-! ### Objects under their own ids -/

/-- Every object is filed under the id it has. -/
def DocManager.Own (idOf : Conn → ConnectionId) (m : DocManager Conn) : Prop :=
  ∀ k conn, m.connections.get k = some conn → idOf conn = k

lemma DocManager.own_new (d : DocKey) : (DocManager.new d).Own idOf := fun k conn h => by
  simp [DocManager.new] at h

lemma DocManager.Own.addConnection {m : DocManager Conn} (h : m.Own idOf) (client : Conn) :
    (m.addConnection idOf client).Own idOf := by
  intro k conn hconn
  unfold DocManager.addConnection at hconn
  split at hconn
  · exact h k conn hconn
  · dsimp only at hconn
    rw [JsMap.get_set] at hconn
    split at hconn
    · rename_i hk
      cases hconn
      exact hk.symm
    · exact h k conn hconn

lemma DocManager.Own.removeConnection {m : DocManager Conn} (h : m.Own idOf) (c : ConnectionId) :
    (m.removeConnection c).Own idOf := by
  intro k conn hconn
  unfold DocManager.removeConnection at hconn
  split at hconn
  · dsimp only at hconn
    rw [JsMap.get_delete] at hconn
    split at hconn
    · cases hconn
    · exact h k conn hconn
  · exact h k conn hconn

/-- The map of a manager has no object twice, since no two ids of its keys are the same. -/
lemma DocManager.Own.nodup {m : DocManager Conn} (h : m.Own idOf) :
    (m.connections.entries.map Prod.snd).Nodup := by
  have hids : (m.connections.entries.map Prod.snd).map idOf = m.connections.entries.map Prod.fst := by
    rw [List.map_map]
    exact List.map_congr_left fun e he => h e.1 e.2 ((m.connections.mem_entries_iff e.1 e.2).mp he)
  exact List.Nodup.of_map idOf (hids ▸ m.connections.nodup_keys)

namespace DocService

/-- The same for all managers, also those that are no longer stored. -/
def Own (idOf : Conn → ConnectionId) (s : DocService Conn) : Prop :=
  ∀ ref, (s.managers ref).Own idOf

variable {s : DocService Conn}

lemma own_init : (init : DocService Conn).Own idOf := fun _ => DocManager.own_new ""

lemma Own.update (h : s.Own idOf) (ref : ManagerRef) {f : DocManager Conn → DocManager Conn}
    (hf : ∀ m, m.Own idOf → (f m).Own idOf) : (s.update ref f).Own idOf := by
  intro r
  by_cases hr : r = ref
  · subst hr
    simpa [DocService.update] using hf _ (h r)
  · simpa [DocService.update, hr] using h r

lemma Own.getOrCreate (h : s.Own idOf) (d : DocKey) : (s.getOrCreate d).2.Own idOf := by
  unfold DocService.getOrCreate
  split
  · exact h
  · intro r
    by_cases hr : r = s.nextRef
    · subst hr
      simpa using DocManager.own_new d
    · simpa [hr] using h r

lemma Own.joinToDoc (h : s.Own idOf) (conn : Conn) (d : DocKey) :
    (s.joinToDoc idOf conn d).Own idOf :=
  (h.getOrCreate d).update _ fun _ hm => hm.addConnection conn

lemma Own.remove (h : s.Own idOf) (ref : ManagerRef) (c : ConnectionId) :
    (s.update ref (·.removeConnection c)).Own idOf :=
  h.update ref fun _ hm => hm.removeConnection c

lemma Own.detachDoc (h : s.Own idOf) (c : ConnectionId) (d : DocKey) :
    (s.detachDoc c d).Own idOf := by
  unfold DocService.detachDoc
  split
  · exact h
  · rename_i doc _
    split
    · dsimp only
      split <;> exact h.remove doc c
    · exact h

lemma Own.disconnectFrom (h : s.Own idOf) (c : ConnectionId) (doc : ManagerRef) :
    (disconnectFrom c s doc).Own idOf := by
  unfold DocService.disconnectFrom
  dsimp only
  split <;> exact h.remove doc c

lemma Own.disconnect (h : s.Own idOf) (c : ConnectionId) : (s.disconnect c).Own idOf := by
  unfold DocService.disconnect
  split
  · exact h
  · rename_i joinedDocs _
    exact List.foldlRecOn joinedDocs _ h fun _ hs doc _ => hs.disconnectFrom c doc

lemma Own.apply (h : s.Own idOf) (op : DocOp Conn) : (s.apply idOf op).Own idOf := by
  cases op with
  | joinToDoc conn docId => exact h.joinToDoc conn docId
  | attach conn docs => exact List.foldlRecOn docs _ h fun _ hs d _ => hs.joinToDoc conn d
  | detach connId docs =>
    refine List.foldlRecOn docs _ h fun s hs r _ => ?_
    cases r with
    | key d => exact hs.detachDoc connId d
    | entry a => exact hs
  | disconnect connId => exact h.disconnect connId

/-! ### What a member sends -/

/-- Every stored manager has the id that it is stored under and a member, and it holds each of its
connections once, under the id of the connection. -/
structure Sound (idOf : Conn → ConnectionId) (s : DocService Conn) : Prop where
  id : ∀ d doc, s.docs.get d = some doc → (s.managers doc).id = d
  occupied : ∀ d doc, s.docs.get d = some doc → (s.managers doc).isEmpty = false
  own : ∀ d doc, s.docs.get d = some doc →
    ∀ entry ∈ (s.managers doc).connections.entries, idOf entry.2 = entry.1
  once : ∀ d doc, s.docs.get d = some doc →
    ((s.managers doc).connections.entries.map Prod.snd).Nodup

/-- The connection object is in the manager of the document. -/
def Member (s : DocService Conn) (d : DocKey) (conn : Conn) : Prop :=
  ∃ doc, s.docs.get d = some doc ∧ conn ∈ (s.managers doc).connections.entries.map Prod.snd

lemma sound_foldl (ops : List (DocOp Conn)) : (ops.foldl (apply idOf) init).Sound idOf := by
  have hown : (ops.foldl (apply idOf) init).Own idOf :=
    List.foldlRecOn ops _ own_init fun _ hs op _ => hs.apply op
  have herase : (ops.foldl (apply idOf) init).erase =
      AlaFois.DocService.runOps (ops.map (DocOp.erase idOf)) := by
    rw [erase_foldl, erase_init]
    rfl
  have hwf : (ops.foldl (apply idOf) init).erase.WF := by
    rw [herase]
    exact AlaFois.DocService.wf_runOps _
  have hoccupied : (ops.foldl (apply idOf) init).erase.Occupied := by
    rw [herase]
    exact AlaFois.DocService.occupied_runOps _
  refine ⟨fun d doc hd => hwf.docs_id d doc hd, fun d doc hd => ?_, fun d doc _ entry he => ?_,
    fun d doc _ => (hown doc).nodup⟩
  · obtain ⟨c, hc⟩ := hoccupied d doc hd
    have hmem := AlaFois.DocService.member_of_holds hc hd
    rw [← DocManager.isEmpty_erase, ← Bool.not_eq_true]
    intro hempty
    rw [AlaFois.DocManager.isEmpty, List.isEmpty_iff] at hempty
    exact absurd (hempty ▸ hmem) List.not_mem_nil
  · exact hown doc entry.1 entry.2 ((JsMap.mem_entries_iff _ _ _).mp he)

/-- The loop sends to the objects whose id is not the author's, in their order. -/
lemma broadcastDiff_eq (m : DocManager Conn) (author : ConnectionId) (changes : Changes)
    (effects : Effects Conn) :
    m.broadcastDiff idOf author changes effects =
      { effects with
        sent := effects.sent ++
          ((m.connections.entries.map Prod.snd).filter (idOf · ≠ author)).map
            (·, .broadcastChanges m.id changes) } := by
  unfold DocManager.broadcastDiff
  induction m.connections.entries generalizing effects with
  | nil => simp
  | cons entry entries ih =>
    rw [List.foldl_cons, ih]
    by_cases he : idOf entry.2 = author
    · simp [he]
    · simp [he]

lemma Sound.contains_iff (h : s.Sound idOf) {d : DocKey} {doc : ManagerRef}
    (hd : s.docs.get d = some doc) (c : ConnectionId) :
    (s.managers doc).contains c = true ↔ ∃ conn, s.Member d conn ∧ idOf conn = c := by
  rw [DocManager.contains_iff, JsMap.mem_keys_iff]
  constructor
  · rintro ⟨conn, hconn⟩
    have hentry := (JsMap.mem_entries_iff _ _ _).mpr hconn
    exact ⟨conn, ⟨doc, hd, List.mem_map_of_mem (f := Prod.snd) hentry⟩, h.own d doc hd _ hentry⟩
  · rintro ⟨conn, ⟨doc', hd', hconn⟩, rfl⟩
    cases hd.symm.trans hd'
    obtain ⟨entry, hentry, rfl⟩ := List.mem_map.mp hconn
    refine ⟨entry.2, (JsMap.mem_entries_iff _ _ _).mp ?_⟩
    rw [h.own d doc hd entry hentry]
    exact hentry

/-- In every state that the operations reach, the registry is sound. There a member that applies
changes sends them to every other member once and to nobody else, publishes them once and calls the
actor once; anybody else gets a `NotJoinedError`, and nothing else happens. -/
theorem delivery_exact (idOf : Conn → ConnectionId) (ops : List (DocOp Conn)) :
    let s := ops.foldl (apply idOf) init
    s.Sound idOf ∧ ∀ conn d changes effects,
      ((∃ member, s.Member d member ∧ idOf member = idOf conn) →
        ∃ receivers : List Conn, receivers.Nodup ∧
          (∀ k, k ∈ receivers ↔ s.Member d k ∧ idOf k ≠ idOf conn) ∧
          applyChanges idOf conn d changes (s, effects) = (.ok (), s,
            ⟨effects.sent ++ receivers.map (·, .broadcastChanges d changes),
              effects.published ++ [.changes (idOf conn) d changes],
              effects.sendChanges ++ [(d, idOf conn, changes)]⟩)) ∧
      ((¬∃ member, s.Member d member ∧ idOf member = idOf conn) →
        applyChanges idOf conn d changes (s, effects) = (.error ⟨d⟩, s, effects)) := by
  intro s
  have hs : s.Sound idOf := sound_foldl ops
  refine ⟨hs, fun conn d changes effects => ⟨?_, fun hnot => ?_⟩⟩
  · rintro ⟨member, ⟨doc, hd, hmember⟩, hid⟩
    have hjoined : s.assertClientJoined idOf conn d = .ok (s.managers doc) := by
      have hcontains := (hs.contains_iff hd (idOf conn)).mpr ⟨member, ⟨doc, hd, hmember⟩, hid⟩
      simp [assertClientJoined, hd, hcontains]
    refine ⟨_, (hs.once d doc hd).filter (idOf · ≠ idOf conn), fun k => ?_, ?_⟩
    · rw [List.mem_filter, decide_eq_true_eq]
      refine and_congr_left fun _ => ⟨fun hk => ⟨doc, hd, hk⟩, ?_⟩
      rintro ⟨doc', hd', hk⟩
      cases hd.symm.trans hd'
      exact hk
    · simp only [applyChanges, hjoined, broadcastDiff_eq, hs.id d doc hd]
  · have hrefused : s.assertClientJoined idOf conn d = .error ⟨d⟩ := by
      unfold assertClientJoined
      cases hd : s.docs.get d with
      | none => rfl
      | some doc => exact if_neg fun h => hnot ((hs.contains_iff hd _).mp h)
    simp only [applyChanges, hrefused]

/-- Two connections, and the document that both of them join. -/
def twoIds : Bool → ConnectionId
  | true => "a"
  | false => "b"

def twoJoin : DocService Bool :=
  [DocOp.joinToDoc true "d", DocOp.attach false ["d"]].foldl (apply twoIds) init

theorem delivery_exact_two :
    (∃ receivers : List Bool, receivers.Nodup ∧
      (∀ k, k ∈ receivers ↔ twoJoin.Member "d" k ∧ twoIds k ≠ "a") ∧
      applyChanges twoIds true "d" "x" (twoJoin, ⟨[], [], []⟩) = (.ok (), twoJoin,
        ⟨receivers.map (·, .broadcastChanges "d" "x"), [.changes "a" "d" "x"],
          [("d", "a", "x")]⟩)) ∧
    applyChanges twoIds true "e" "x" (twoJoin, ⟨[], [], []⟩) =
      (.error ⟨"e"⟩, twoJoin, ⟨[], [], []⟩) := by
  have hexact := (delivery_exact twoIds [DocOp.joinToDoc true "d", DocOp.attach false ["d"]]).2 true
  refine ⟨(hexact "d" "x" ⟨[], [], []⟩).1 ⟨true, ⟨0, rfl, by decide⟩, rfl⟩,
    (hexact "e" "x" ⟨[], [], []⟩).2 ?_⟩
  rintro ⟨member, ⟨doc, hdoc, -⟩, -⟩
  cases hdoc

end DocService

end Registry

end AlaFois
