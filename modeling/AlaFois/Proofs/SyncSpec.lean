import Mathlib.Data.Fintype.Order
import AlaFois.Lib.DeltaSync
import AlaFois.Model.Network
import AlaFois.Proofs.Durability

/-!
# Documents as elements of a join-semilattice

What one call of the actor and one message to a client do, when `applyUpdate` is a join and
`encodeStateAsUpdate` gives deltas.
-/

namespace AlaFois

open DeltaSync

variable {Doc : Type*} {y : Yjs Doc}

namespace DocHandler

lemma awaitSaveDiff_ydoc (s : DocHandler Doc) (awaiting : Awaiting) (changes : Changes)
    (userId : UserId) (checkEmpty : Bool) :
    (s.awaitSaveDiff y awaiting changes userId checkEmpty).1.ydoc =
      (y.applyUpdate s.ydoc (y.toUint8Array changes)).doc := by
  have hsave : (s.saveDiff y changes userId checkEmpty).1.ydoc =
      (y.applyUpdate s.ydoc (y.toUint8Array changes)).doc := by
    unfold saveDiff
    dsimp only
    split
    · rfl
    · split
      · rfl
      · split <;> rfl
  rw [← hsave]
  unfold awaitSaveDiff
  split
  · rename_i h
    rw [h]
  · rename_i h
    rw [h]
    exact saved_ydoc _ _
  · rename_i h
    rw [h]

lemma saved_reply (s : DocHandler Doc) (awaiting : Awaiting) (vector : StateVector)
    (answer : Changes) : (s.saved y awaiting).2 ≠ .syncStart vector answer := by
  unfold saved
  split
  · split <;> simp
  · simp

lemma awaitSaveDiff_reply (s : DocHandler Doc) (awaiting : Awaiting) (changes : Changes)
    (userId : UserId) (checkEmpty : Bool) (vector : StateVector) (answer : Changes) :
    (s.awaitSaveDiff y awaiting changes userId checkEmpty).2 ≠ some (.syncStart vector answer) := by
  unfold awaitSaveDiff
  split
  · simp
  · intro h
    exact saved_reply _ _ _ _ (Option.some.inj h)
  · simp

/-- Only `syncStart` answers with changes. -/
lemma invoke_reply (s : DocHandler Doc) {call : ActorCall} {changes : Changes}
    (hcall : call.changes = some changes) (vector : StateVector) (answer : Changes) :
    (s.invoke y call).2 ≠ some (.syncStart vector answer) := by
  cases call with
  | applyDiff changes' userId => exact awaitSaveDiff_reply s _ _ _ _ _ _
  | syncStart vector => cases hcall
  | syncComplete changes' userId => exact awaitSaveDiff_reply s _ _ _ _ _ _

lemma resume_spec {s s' : DocHandler Doc} {reply : ActorReply} (h : s.resume y = some (s', reply)) :
    s'.ydoc = s.ydoc ∧ ∀ vector answer, reply ≠ .syncStart vector answer := by
  unfold resume at h
  split at h
  · cases h
  · rename_i w hw
    split at h
    · have hsaved := Option.some.inj h
      constructor
      · rw [← saved_ydoc (y := y) { s with saving := none } w.awaiting, hsaved]
      · intro vector answer hreply
        refine saved_reply (y := y) { s with saving := none } w.awaiting vector answer ?_
        rw [hsaved, hreply]
    · cases h

end DocHandler

namespace DocContainer

@[simp] lemma sync_doc (s : DocContainer Doc) : (s.sync y).1.doc = s.doc := by
  unfold sync
  split <;> rfl

@[simp] lemma sync_id (s : DocContainer Doc) : (s.sync y).1.id = s.id := by
  unfold sync
  split <;> rfl

lemma sync_update (s : DocContainer Doc) : ∀ m ∈ (s.sync y).2, m.update = none := by
  unfold sync
  split
  · simp
  · simp [ClientMessage.update]

lemma syncResponse_idle (s : DocContainer Doc) (vector : StateVector) (changes : Changes)
    (hsync : s.syncing = false) : s.syncResponse y vector changes = (s, []) := by
  simp [syncResponse, hsync]

@[simp] lemma onMessage_id (s : DocContainer Doc) (m : ServerMessage) :
    (s.onMessage y m).1.id = s.id := by
  unfold onMessage
  split
  · exact sync_id s
  · exact sync_id s
  · split
    · unfold handleReceiveChanges
      dsimp only
      split
      · exact sync_id _
      · rfl
    · rfl
  · split
    · unfold syncResponse
      dsimp only
      split
      · split
        · rfl
        · split <;> rfl
      · rfl
    · rfl
  · rfl

end DocContainer

namespace Network

@[simp] lemma onMessage_container (client : Client Doc) (m : ServerMessage) :
    (Client.onMessage y client m).1.container = (client.container.onMessage y m).1 := by
  unfold Client.onMessage
  dsimp only
  split <;> rfl

@[simp] lemma onMessage_socket (client : Client Doc) (m : ServerMessage) :
    (Client.onMessage y client m).1.socket = client.socket := by
  unfold Client.onMessage
  dsimp only
  split <;> rfl

end Network

variable [SemilatticeSup Doc]

/-- Applying an update joins its content to the document, and what is encoded against the vector
of `E` is a delta over `E`. -/
structure Yjs.Joins (y : Yjs Doc) (content : Bytes → Doc) : Prop where
  applyUpdate_eq : ∀ doc update, y.applyUpdate doc update = ⟨doc ⊔ content update, false⟩
  encode : ∀ D E, ∃ update, y.encodeStateAsUpdate D (some (y.encodeStateVector E)) = some update ∧
    IsDelta (content update) D E
  base64 : ∀ bytes, y.toUint8Array (y.fromUint8Array bytes) = bytes

/-- The content of an update that travels as text. -/
def Yjs.value (y : Yjs Doc) (content : Bytes → Doc) (changes : Changes) : Doc :=
  content (y.toUint8Array changes)

variable {content : Bytes → Doc}

lemma Yjs.Joins.value_fromUint8Array (hy : y.Joins content) (bytes : Bytes) :
    y.value content (y.fromUint8Array bytes) = content bytes := by
  rw [Yjs.value, hy.base64]

namespace DocHandler

/-- A call that brings an update joins its value to the document. -/
lemma invoke_update (hy : y.Joins content) (s : DocHandler Doc) {call : ActorCall}
    {changes : Changes} (hcall : call.changes = some changes) :
    (s.invoke y call).1.ydoc = s.ydoc ⊔ y.value content changes := by
  have happly : (y.applyUpdate s.ydoc (y.toUint8Array changes)).doc =
      s.ydoc ⊔ y.value content changes := by
    rw [hy.applyUpdate_eq]
    rfl
  cases call with
  | applyDiff changes' userId =>
    cases hcall
    exact (awaitSaveDiff_ydoc s _ _ _ _).trans happly
  | syncStart vector => cases hcall
  | syncComplete changes' userId =>
    cases hcall
    exact (awaitSaveDiff_ydoc s _ _ _ _).trans happly

lemma syncStart_spec (hy : y.Joins content) (s : DocHandler Doc) {vector : StateVector} {E : Doc}
    (hvector : y.toUint8Array vector = y.encodeStateVector E) :
    ∃ changes, s.syncStart y vector =
        .syncStart (y.fromUint8Array (y.encodeStateVector s.ydoc)) changes ∧
      IsDelta (y.value content changes) s.ydoc E := by
  obtain ⟨update, hencode, hdelta⟩ := hy.encode s.ydoc E
  refine ⟨y.fromUint8Array update, ?_, by rwa [hy.value_fromUint8Array]⟩
  simp [syncStart, hvector, hencode]

end DocHandler

/-- What a client may hand over when it holds `doc`: parts of the document and vectors of parts. -/
structure Sends (y : Yjs Doc) (content : Bytes → Doc) (doc : Doc)
    (messages : List ClientMessage) : Prop where
  join : .join ∉ messages
  updates : ∀ m ∈ messages, ∀ changes, m.update = some changes → y.value content changes ≤ doc
  vectors : ∀ vector, .syncStart vector ∈ messages →
    ∃ E ≤ doc, y.toUint8Array vector = y.encodeStateVector E

namespace DocContainer

lemma sends_nil (doc : Doc) : Sends y content doc [] := ⟨by simp, by simp, by simp⟩

lemma sync_sends (hy : y.Joins content) (s : DocContainer Doc) :
    Sends y content s.doc (s.sync y).2 := by
  unfold sync
  split
  · exact sends_nil s.doc
  · refine ⟨by simp, fun m hm changes hchanges => ?_, fun vector hvector => ?_⟩
    · cases List.mem_singleton.mp hm
      cases hchanges
    · cases List.mem_singleton.mp hvector
      exact ⟨s.doc, le_rfl, hy.base64 _⟩

lemma edit_spec (hy : y.Joins content) (s : DocContainer Doc) (update : Bytes) :
    (s.edit y update).1.id = s.id ∧ (s.edit y update).1.doc = s.doc ⊔ content update ∧
      Sends y content (s.doc ⊔ content update) (s.edit y update).2 := by
  refine ⟨rfl, by simp [edit, hy.applyUpdate_eq], by simp [edit], ?_, by simp [edit]⟩
  intro m hm changes hchanges
  cases List.mem_singleton.mp hm
  cases hchanges
  rw [hy.value_fromUint8Array]
  exact le_sup_right

lemma handleReceiveChanges_spec (hy : y.Joins content) (s : DocContainer Doc) (changes : Changes) :
    (s.handleReceiveChanges y changes).1.id = s.id ∧
      (s.handleReceiveChanges y changes).1.doc = s.doc ⊔ y.value content changes ∧
      Sends y content (s.doc ⊔ y.value content changes) (s.handleReceiveChanges y changes).2 ∧
      ∀ m ∈ (s.handleReceiveChanges y changes).2, m.update = none := by
  unfold handleReceiveChanges
  rw [hy.applyUpdate_eq]
  dsimp only
  split
  · exact ⟨sync_id _, sync_doc _, sync_sends hy ⟨s.id, _, s.syncing⟩, sync_update _⟩
  · exact ⟨rfl, rfl, sends_nil _, by simp⟩

/-- With a sync running, the response is taken in and what the actor lacks is sent back. -/
lemma syncResponse_spec (hy : y.Joins content) (s : DocContainer Doc) {vector : StateVector}
    {changes : Changes} {D : Doc} (hvector : y.toUint8Array vector = y.encodeStateVector D)
    (hdelta : IsDelta (y.value content changes) D s.doc) (hsync : s.syncing = true) :
    ∃ returnChanges, s.syncResponse y vector changes =
        (⟨s.id, s.doc ⊔ y.value content changes, false⟩, [.syncComplete returnChanges]) ∧
      D ≤ s.doc ⊔ y.value content changes ∧
      IsDelta (y.value content returnChanges) (s.doc ⊔ y.value content changes) D := by
  obtain ⟨update, hencode, hreturn⟩ := hy.encode (s.doc ⊔ y.value content changes) D
  refine ⟨y.fromUint8Array update, ?_, hdelta.le_sup le_rfl, by rwa [hy.value_fromUint8Array]⟩
  rw [Yjs.value] at hencode ⊢
  simp [syncResponse, hsync, hy.applyUpdate_eq, hvector, hencode]

end DocContainer

/-! ### The documents with at most one edit -/

/-- Bytes that are not among the arrays with a base64 of their own. -/
lemma fromUint8Array_oneEdit (bytes : Bytes) : bytes ∈ [[0, 0], [1, 1], [0], [1, 1, 1]] ∨
    Yjs.oneEdit.fromUint8Array bytes =
      String.ofList ('*' :: bytes.map fun b => Char.ofNat b.toNat) := by
  simp only [Yjs.oneEdit]
  split <;> simp

lemma toUint8Array_oneEdit (chars : List Char) :
    Yjs.oneEdit.toUint8Array (String.ofList ('*' :: chars)) =
      chars.map fun c => UInt8.ofNat c.toNat := by
  have hne (c : Char) (cs : List Char) (hc : c ≠ '*') :
      String.ofList ('*' :: chars) ≠ String.ofList (c :: cs) := by
    intro heq
    have hchars := String.ofList_injective heq
    exact hc (List.cons.inj hchars).1.symm
  simp only [Yjs.oneEdit]
  split
  · rename_i heq
    exact absurd heq (hne 'A' ['A', 'A', '='] (by decide))
  · rename_i heq
    exact absurd heq (hne 'A' ['Q', 'E', '='] (by decide))
  · rename_i heq
    exact absurd heq (hne 'A' ['A', '=', '='] (by decide))
  · rename_i heq
    exact absurd heq (hne 'A' ['Q', 'E', 'B'] (by decide))
  · simp

lemma joins_oneEdit : Yjs.oneEdit.Joins fun update => update == [1, 1] where
  applyUpdate_eq doc update := rfl
  encode D E := by
    cases D <;> cases E <;> exact ⟨_, rfl, by unfold IsDelta; decide⟩
  base64 bytes := by
    rcases fromUint8Array_oneEdit bytes with hmem | hcoded
    · revert bytes
      decide
    · rw [hcoded, toUint8Array_oneEdit, List.map_map]
      refine (List.map_congr_left fun b _ => ?_).trans (List.map_id bytes)
      have hvalid : b.toNat.isValidChar := .inl (b.toNat_lt.trans (by decide))
      change UInt8.ofNat (Char.ofNat b.toNat).toNat = b
      rw [Char.ofNat, dif_pos hvalid]
      exact UInt8.ofNat_toNat

end AlaFois
