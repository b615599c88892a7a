import Mathlib.Data.Set.Basic
import AlaFois.Proofs.ProxySpec

/-!
# What the rights diff says of a document

A document has been added, removed, changed or left unchanged by what the rights on it were and
are. The diff goes by the entries of the two tables and by the identity of their arrays instead.
-/

namespace AlaFois

/-- The rights on a document; an absent entry grants none. -/
def Access.rightsOf (access : Access) (d : DocKey) : Set Right :=
  {r | ∃ a, access.get d = some a ∧ r ∈ a.rights}

def RemovedDoc.docId : RemovedDoc → DocKey
  | .key id => id
  | .entry data => data.id

/-- The document of each element of the four lists. -/
def TokenRightsDiff.docIds (diff : TokenRightsDiff) : List DocKey :=
  (diff.added ++ diff.changed ++ diff.unchanged).map AccessData.id ++
    diff.removed.map RemovedDoc.docId

/-- What the diff of two tables is for. -/
structure TokenRightsDiff.Classifies (diff : TokenRightsDiff) (rights newRights : Access) :
    Prop where
  added : ∀ a, a ∈ diff.added ↔ ∃ d, newRights.get d = some a ∧ rights.rightsOf d = ∅ ∧
    newRights.rightsOf d ≠ ∅
  changed : ∀ a, a ∈ diff.changed ↔ ∃ d, newRights.get d = some a ∧ rights.rightsOf d ≠ ∅ ∧
    newRights.rightsOf d ≠ ∅ ∧ rights.rightsOf d ≠ newRights.rightsOf d
  unchanged : ∀ a, a ∈ diff.unchanged ↔ ∃ d, newRights.get d = some a ∧ rights.rightsOf d ≠ ∅ ∧
    newRights.rightsOf d ≠ ∅ ∧ rights.rightsOf d = newRights.rightsOf d
  removed : ∀ r, r ∈ diff.removed ↔ ∃ d, r = .key d ∧ rights.rightsOf d ≠ ∅ ∧
    newRights.rightsOf d = ∅
  once : diff.docIds.Nodup

/-- Arrays that are one object hold the same rights. -/
def SameArrays (sameArray : DocKey → Bool) (rights newRights : Access) : Prop :=
  ∀ d old new, rights.get d = some old → newRights.get d = some new → sameArray d = true →
    old.rights = new.rights

/-- No document has gone from the table, one without rights has had some, and rights are the same
only as one array. -/
structure Distinguishable (sameArray : DocKey → Bool) (rights newRights : Access) : Prop where
  listed : ∀ d old, rights.get d = some old → newRights.get d ≠ none
  lost : ∀ d new, newRights.get d = some new → new.rights = [] → rights.rightsOf d ≠ ∅
  equal : ∀ d, rights.rightsOf d ≠ ∅ → rights.rightsOf d = newRights.rightsOf d →
    sameArray d = true

variable {sameArray : DocKey → Bool} {rights newRights : Access} {d : DocKey} {a : AccessData}

/-! ### The elements of the lists -/

lemma rightsOf_of_some (h : rights.get d = some a) : rights.rightsOf d = {r | r ∈ a.rights} := by
  simp [Access.rightsOf, h]

lemma rightsOf_of_none (h : rights.get d = none) : rights.rightsOf d = ∅ := by
  simp [Access.rightsOf, h]

lemma rightsOf_eq_empty (h : rights.get d = some a) : rights.rightsOf d = ∅ ↔ a.rights = [] := by
  rw [rightsOf_of_some h, Set.eq_empty_iff_forall_notMem, List.eq_nil_iff_forall_not_mem]
  rfl

lemma get_of_rightsOf (h : rights.rightsOf d ≠ ∅) : ∃ a, rights.get d = some a := by
  cases hget : rights.get d with
  | none => exact absurd (rightsOf_of_none hget) h
  | some a => exact ⟨a, rfl⟩

lemma mem_changed_iff : a ∈ (getTokenRightsDiff sameArray rights newRights).changed ↔
    ∃ d old, rights.get d = some old ∧ newRights.get d = some a ∧ sameArray d = false ∧
      a.rights ≠ [] ∧ old.rights ≠ [] := by
  simp only [getTokenRightsDiff, classify_foldl, List.nil_append, List.mem_flatMap]
  constructor
  · rintro ⟨d, -, ha⟩
    obtain ⟨hnew, old, hold, hentries⟩ := ((mem_classifyDoc d).2.1 a).mp ha
    exact ⟨d, old, hold, hnew, hentries⟩
  · rintro ⟨d, old, hold, hnew, hentries⟩
    refine ⟨d, mem_docIds.mpr (.inl ⟨old, hold⟩), ?_⟩
    exact ((mem_classifyDoc d).2.1 a).mpr ⟨hnew, old, hold, hentries⟩

lemma mem_unchanged_iff : a ∈ (getTokenRightsDiff sameArray rights newRights).unchanged ↔
    ∃ d old, rights.get d = some old ∧ newRights.get d = some a ∧ sameArray d = true := by
  simp only [getTokenRightsDiff, classify_foldl, List.nil_append, List.mem_flatMap]
  constructor
  · rintro ⟨d, -, ha⟩
    obtain ⟨hnew, old, hold, hsame⟩ := ((mem_classifyDoc d).2.2.1 a).mp ha
    exact ⟨d, old, hold, hnew, hsame⟩
  · rintro ⟨d, old, hold, hnew, hsame⟩
    refine ⟨d, mem_docIds.mpr (.inl ⟨old, hold⟩), ?_⟩
    exact ((mem_classifyDoc d).2.2.1 a).mpr ⟨hnew, old, hold, hsame⟩

lemma entry_mem_removed_iff :
    .entry a ∈ (getTokenRightsDiff sameArray rights newRights).removed ↔
      ∃ d, rights.get d = some a ∧ newRights.get d = none := by
  simp only [getTokenRightsDiff, classify_foldl, List.nil_append, List.mem_flatMap]
  constructor
  · rintro ⟨d, -, ha⟩
    rcases ((mem_classifyDoc d).2.2.2 _).mp ha with ⟨heq, -⟩ | ⟨old, heq, hold, hnone⟩
    · cases heq
    · cases heq
      exact ⟨d, hold, hnone⟩
  · rintro ⟨d, hold, hnone⟩
    refine ⟨d, mem_docIds.mpr (.inl ⟨a, hold⟩), ?_⟩
    exact ((mem_classifyDoc d).2.2.2 _).mpr (.inr ⟨a, rfl, hold, hnone⟩)

/-! ### Every document once -/

/-- Every entry stands under its own id. -/
def Keyed (access : Access) : Prop := ∀ d a, access.get d = some a → a.id = d

lemma keyed_createAccessObject (docs : List AccessData) : Keyed (createAccessObject docs) :=
  fun _ _ => createAccessObject_id docs

lemma perm_docIds_classifyDoc (sameArray : DocKey → Bool) (hold : Keyed rights)
    (hnew : Keyed newRights) (diff : TokenRightsDiff) {id : DocKey}
    (hid : (∃ a, rights.get id = some a) ∨ ∃ a, newRights.get id = some a) :
    (classifyDoc sameArray rights newRights diff id).docIds.Perm (id :: diff.docIds) := by
  rw [List.perm_iff_count]
  intro d
  unfold classifyDoc TokenRightsDiff.docIds
  cases h₁ : rights.get id <;> cases h₂ : newRights.get id <;> dsimp only
  case none.none => simp [h₁, h₂] at hid
  case some.some old new =>
    have hid' := hnew id new h₂
    split_ifs <;>
      simp only [List.map_append, List.map_cons, List.map_nil, hid', RemovedDoc.docId,
        List.count_append, List.count_cons, List.count_nil] <;> omega
  case some.none old =>
    have hid' := hold id old h₁
    simp only [List.map_append, List.map_cons, List.map_nil, hid', RemovedDoc.docId,
      List.count_append, List.count_cons, List.count_nil]
    omega
  case none.some new =>
    have hid' := hnew id new h₂
    simp only [List.map_append, List.map_cons, List.map_nil, hid',
      List.count_append, List.count_cons, List.count_nil]
    omega

lemma perm_docIds_foldl (sameArray : DocKey → Bool) (hold : Keyed rights)
    (hnew : Keyed newRights) {ids : List DocKey} (diff : TokenRightsDiff)
    (hids : ∀ id ∈ ids, (∃ a, rights.get id = some a) ∨ ∃ a, newRights.get id = some a) :
    (ids.foldl (classifyDoc sameArray rights newRights) diff).docIds.Perm (ids ++ diff.docIds) := by
  induction ids generalizing diff with
  | nil => exact .refl _
  | cons id ids ih =>
    obtain ⟨hid, hids⟩ := List.forall_mem_cons.mp hids
    have hround := perm_docIds_classifyDoc sameArray hold hnew diff hid
    exact ((ih _ hids).trans (hround.append_left ids)).trans List.perm_middle

lemma nodup_eraseDups : ∀ l : List DocKey, l.eraseDups.Nodup
  | [] => List.nodup_nil
  | d :: l => by
    rw [List.eraseDups_cons, List.nodup_cons]
    refine ⟨?_, nodup_eraseDups _⟩
    simp [List.mem_eraseDups]
  termination_by l => l.length
  decreasing_by exact Nat.lt_succ_of_le (List.length_filter_le _ _)

/-- The diff names every document of the tables once. -/
lemma nodup_docIds (hold : Keyed rights) (hnew : Keyed newRights) :
    (getTokenRightsDiff sameArray rights newRights).docIds.Nodup := by
  have hperm := perm_docIds_foldl sameArray hold hnew ⟨[], [], [], []⟩
    fun id hid => mem_docIds.mp hid
  refine hperm.nodup_iff.mpr ?_
  simpa [TokenRightsDiff.docIds] using nodup_eraseDups _

/-! ### What the diff gets right -/

lemma added_iff (hsame : SameArrays sameArray rights newRights)
    (h : Distinguishable sameArray rights newRights) :
    a ∈ (getTokenRightsDiff sameArray rights newRights).added ↔
      ∃ d, newRights.get d = some a ∧ rights.rightsOf d = ∅ ∧ newRights.rightsOf d ≠ ∅ := by
  rw [mem_added_iff]
  refine exists_congr fun d => and_congr_right fun hnew => ?_
  simp only [ne_eq, rightsOf_eq_empty hnew]
  constructor
  · rintro (hnone | ⟨old, hold, -, hne, hempty⟩)
    · exact ⟨rightsOf_of_none hnone, fun hempty => h.lost d a hnew hempty (rightsOf_of_none hnone)⟩
    · exact ⟨(rightsOf_eq_empty hold).mpr hempty, hne⟩
  · rintro ⟨hempty, hne⟩
    cases hold : rights.get d with
    | none => exact .inl rfl
    | some old =>
      have hempty' := (rightsOf_eq_empty hold).mp hempty
      refine .inr ⟨old, rfl, Bool.eq_false_iff.mpr fun hs => hne ?_, hne, hempty'⟩
      rw [← hsame d old a hold hnew hs, hempty']

lemma changed_iff (hsame : SameArrays sameArray rights newRights)
    (h : Distinguishable sameArray rights newRights) :
    a ∈ (getTokenRightsDiff sameArray rights newRights).changed ↔
      ∃ d, newRights.get d = some a ∧ rights.rightsOf d ≠ ∅ ∧ newRights.rightsOf d ≠ ∅ ∧
        rights.rightsOf d ≠ newRights.rightsOf d := by
  rw [mem_changed_iff]
  refine exists_congr fun d => ⟨?_, ?_⟩
  · rintro ⟨old, hold, hnew, hs, hne, hne'⟩
    have hrights : rights.rightsOf d ≠ ∅ := (rightsOf_eq_empty hold).not.mpr hne'
    refine ⟨hnew, hrights, (rightsOf_eq_empty hnew).not.mpr hne, fun heq => ?_⟩
    rw [h.equal d hrights heq] at hs
    cases hs
  · rintro ⟨hnew, hrights, hne, hdiffer⟩
    obtain ⟨old, hold⟩ := get_of_rightsOf hrights
    refine ⟨old, hold, hnew, Bool.eq_false_iff.mpr fun hs => hdiffer ?_,
      (rightsOf_eq_empty hnew).not.mp hne, (rightsOf_eq_empty hold).not.mp hrights⟩
    rw [rightsOf_of_some hold, rightsOf_of_some hnew, hsame d old a hold hnew hs]

lemma unchanged_iff (hsame : SameArrays sameArray rights newRights)
    (h : Distinguishable sameArray rights newRights) :
    a ∈ (getTokenRightsDiff sameArray rights newRights).unchanged ↔
      ∃ d, newRights.get d = some a ∧ rights.rightsOf d ≠ ∅ ∧ newRights.rightsOf d ≠ ∅ ∧
        rights.rightsOf d = newRights.rightsOf d := by
  rw [mem_unchanged_iff]
  refine exists_congr fun d => ⟨?_, ?_⟩
  · rintro ⟨old, hold, hnew, hs⟩
    have heq : rights.rightsOf d = newRights.rightsOf d := by
      rw [rightsOf_of_some hold, rightsOf_of_some hnew, hsame d old a hold hnew hs]
    have hrights : rights.rightsOf d ≠ ∅ := by
      intro hempty
      have hnone : a.rights = [] := (rightsOf_eq_empty hnew).mp (heq ▸ hempty)
      exact h.lost d a hnew hnone hempty
    exact ⟨hnew, hrights, heq ▸ hrights, heq⟩
  · rintro ⟨hnew, hrights, -, heq⟩
    obtain ⟨old, hold⟩ := get_of_rightsOf hrights
    exact ⟨old, hold, hnew, h.equal d hrights heq⟩

lemma removed_iff (hsame : SameArrays sameArray rights newRights)
    (h : Distinguishable sameArray rights newRights) {r : RemovedDoc} :
    r ∈ (getTokenRightsDiff sameArray rights newRights).removed ↔
      ∃ d, r = .key d ∧ rights.rightsOf d ≠ ∅ ∧ newRights.rightsOf d = ∅ := by
  cases r with
  | key d =>
    rw [key_mem_removed_iff]
    constructor
    · rintro ⟨old, new, hold, hnew, -, hempty⟩
      exact ⟨d, rfl, h.lost d new hnew hempty, (rightsOf_eq_empty hnew).mpr hempty⟩
    · rintro ⟨d', heq, hrights, hempty⟩
      cases heq
      obtain ⟨old, hold⟩ := get_of_rightsOf hrights
      cases hnew : newRights.get d with
      | none => exact absurd hnew (h.listed d old hold)
      | some new =>
        have hnone := (rightsOf_eq_empty hnew).mp hempty
        refine ⟨old, new, hold, rfl, Bool.eq_false_iff.mpr fun hs => ?_, hnone⟩
        rw [rightsOf_of_some hold, hsame d old new hold hnew hs, hnone] at hrights
        exact hrights (by simp)
  | entry data =>
    rw [entry_mem_removed_iff]
    constructor
    · rintro ⟨d, hold, hnone⟩
      exact absurd hnone (h.listed d data hold)
    · rintro ⟨d, heq, -⟩
      cases heq

lemma distinguishable_of_classifies (hkeyed : Keyed newRights)
    (h : (getTokenRightsDiff sameArray rights newRights).Classifies rights newRights) :
    Distinguishable sameArray rights newRights where
  listed := by
    intro d old hold hnone
    obtain ⟨d', heq, -⟩ := (h.removed _).mp (entry_mem_removed_iff.mpr ⟨d, hold, hnone⟩)
    cases heq
  lost := by
    intro d new hnew hempty hrights
    cases hold : rights.get d with
    | none =>
      obtain ⟨d', hnew', -, hne⟩ := (h.added new).mp (mem_added_iff.mpr ⟨d, hnew, .inl hold⟩)
      exact hne ((rightsOf_eq_empty hnew').mpr hempty)
    | some old =>
      by_cases hs : sameArray d = true
      · obtain ⟨d', hnew', -, hne, -⟩ :=
          (h.unchanged new).mp (mem_unchanged_iff.mpr ⟨d, old, hold, hnew, hs⟩)
        exact hne ((rightsOf_eq_empty hnew').mpr hempty)
      · have hremoved := key_mem_removed_iff.mpr
          ⟨old, new, hold, hnew, Bool.eq_false_iff.mpr hs, hempty⟩
        obtain ⟨d', heq, hne, -⟩ := (h.removed _).mp hremoved
        cases heq
        exact hne hrights
  equal := by
    intro d hrights heq
    obtain ⟨old, hold⟩ := get_of_rightsOf hrights
    obtain ⟨new, hnew⟩ := get_of_rightsOf (heq ▸ hrights)
    obtain ⟨d', old', hold', hnew', hs⟩ :=
      mem_unchanged_iff.mp ((h.unchanged new).mpr ⟨d, hnew, hrights, heq ▸ hrights, heq⟩)
    rwa [← hkeyed d' new hnew', hkeyed d new hnew] at hs

/-- The diff of two tables classifies every document if and only if every document of the old
table is in the new one, a document without rights now had some before, and where the rights are
the same and not empty the two arrays are one object. An inherited name would be found in every
table. -/
theorem classifies_iff (docs newDocs : List AccessData) (sameArray : DocKey → Bool)
    (_hown : ∀ data ∈ docs ++ newDocs, data.id ∉ inheritedNames)
    (hsame : SameArrays sameArray (createAccessObject docs) (createAccessObject newDocs)) :
    (getTokenRightsDiff sameArray (createAccessObject docs) (createAccessObject newDocs)).Classifies
        (createAccessObject docs) (createAccessObject newDocs) ↔
      Distinguishable sameArray (createAccessObject docs) (createAccessObject newDocs) := by
  refine ⟨distinguishable_of_classifies (keyed_createAccessObject newDocs), fun h => ?_⟩
  exact ⟨fun _ => added_iff hsame h, fun _ => changed_iff hsame h, fun _ => unchanged_iff hsame h,
    fun _ => removed_iff hsame h,
    nodup_docIds (keyed_createAccessObject docs) (keyed_createAccessObject newDocs)⟩

lemma sameArrays_apart (rights newRights : Access) :
    SameArrays (fun _ => false) rights newRights := by
  intro d old new _ _ hs
  cases hs

lemma get_createAccessObject_singleton {data : AccessData} :
    (createAccessObject [data]).get d = some a ↔ d = data.id ∧ a = data := by
  simp only [createAccessObject, List.foldl_cons, List.foldl_nil, JsMap.get_set, JsMap.get_empty,
    Option.ite_none_right_eq_some, Option.some.injEq]
  exact and_congr_right fun _ => eq_comm

/-- The new token lists the document with no right on it. -/
theorem classifies_lost :
    (getTokenRightsDiff (fun _ => false) (createAccessObject [⟨"a", [.read]⟩])
      (createAccessObject [⟨"a", []⟩])).Classifies (createAccessObject [⟨"a", [.read]⟩])
        (createAccessObject [⟨"a", []⟩]) := by
  refine (classifies_iff [⟨"a", [.read]⟩] [⟨"a", []⟩] _ (by decide)
    (sameArrays_apart _ _)).mpr ?_
  have hold : (createAccessObject [⟨"a", [.read]⟩]).get "a" = some ⟨"a", [.read]⟩ := rfl
  have hnew : (createAccessObject [⟨"a", []⟩]).get "a" = some ⟨"a", []⟩ := rfl
  have hrights := (rightsOf_eq_empty hold).not.mpr (by simp)
  refine ⟨fun d old hd => ?_, fun d new hd _ => ?_, fun d hne heq => ?_⟩
  · rw [(get_createAccessObject_singleton.mp hd).1, hnew]
    simp
  · rwa [(get_createAccessObject_singleton.mp hd).1]
  · obtain ⟨old, hd⟩ := get_of_rightsOf hne
    rw [(get_createAccessObject_singleton.mp hd).1, (rightsOf_eq_empty hnew).mpr rfl] at heq
    exact absurd heq hrights

/-- The same rights in two messages are reported as changed, and a document that the new token
does not list as an entry among the docIds. -/
theorem diff_of_shorter_token :
    let diff := getTokenRightsDiff (fun _ => false)
      (createAccessObject [⟨"a", [.read]⟩, ⟨"b", [.read]⟩]) (createAccessObject [⟨"b", [.read]⟩])
    diff.changed = [⟨"b", [.read]⟩] ∧ diff.unchanged = [] ∧
      diff.removed = [.entry ⟨"a", [.read]⟩] ∧
      ¬diff.Classifies (createAccessObject [⟨"a", [.read]⟩, ⟨"b", [.read]⟩])
        (createAccessObject [⟨"b", [.read]⟩]) := by
  refine ⟨by decide, by decide, by decide, fun h => ?_⟩
  obtain ⟨d, heq, -⟩ := (h.removed (.entry ⟨"a", [.read]⟩)).mp (by decide)
  cases heq

end AlaFois
