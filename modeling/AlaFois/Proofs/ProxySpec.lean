import AlaFois.Model.Proxy
import AlaFois.Proofs.Membership

/-!
# What the operations of an instance do to its state

Specification lemmas of the services above `DocService`. The membership changes of an
operation are given as a list of `DocOp`s, so that the results on membership apply.
-/

namespace AlaFois

open DocService

/-! ### The rights diff -/

section RightsDiff

variable {sameArray : DocKey → Bool} {rights newRights : Access}

/-- The lists of the loop, as what each round adds to them. -/
lemma classify_foldl (ids : List DocKey) (diff : TokenRightsDiff) :
    let round := classifyDoc sameArray rights newRights ⟨[], [], [], []⟩
    ids.foldl (classifyDoc sameArray rights newRights) diff =
      ⟨diff.added ++ ids.flatMap fun id => (round id).added,
        diff.changed ++ ids.flatMap fun id => (round id).changed,
        diff.unchanged ++ ids.flatMap fun id => (round id).unchanged,
        diff.removed ++ ids.flatMap fun id => (round id).removed⟩ := by
  intro round
  induction ids generalizing diff with
  | nil => simp
  | cons id ids ih =>
    have hround : classifyDoc sameArray rights newRights diff id =
        ⟨diff.added ++ (round id).added, diff.changed ++ (round id).changed,
          diff.unchanged ++ (round id).unchanged, diff.removed ++ (round id).removed⟩ := by
      simp only [round, classifyDoc]
      cases rights.get id <;> cases newRights.get id <;> dsimp only
      case some.some => split_ifs <;> simp
      all_goals simp
    simp [List.foldl_cons, ih, hround]

lemma mem_docIds {d : DocKey} :
    d ∈ (rights.keys ++ newRights.keys).eraseDups ↔
      (∃ a, rights.get d = some a) ∨ ∃ a, newRights.get d = some a := by
  simp [List.mem_eraseDups, JsMap.mem_keys_iff]

/-- What a round adds to the four lists, by the two entries of its document. -/
lemma mem_classifyDoc (d : DocKey) :
    let round := classifyDoc sameArray rights newRights ⟨[], [], [], []⟩ d
    (∀ a, a ∈ round.added ↔ newRights.get d = some a ∧ (rights.get d = none ∨
      ∃ old, rights.get d = some old ∧ sameArray d = false ∧ a.rights ≠ [] ∧ old.rights = [])) ∧
    (∀ a, a ∈ round.changed ↔ newRights.get d = some a ∧
      ∃ old, rights.get d = some old ∧ sameArray d = false ∧ a.rights ≠ [] ∧ old.rights ≠ []) ∧
    (∀ a, a ∈ round.unchanged ↔ newRights.get d = some a ∧
      ∃ old, rights.get d = some old ∧ sameArray d = true) ∧
    ∀ r, r ∈ round.removed ↔
      (r = .key d ∧ ∃ old new, rights.get d = some old ∧ newRights.get d = some new ∧
        sameArray d = false ∧ new.rights = []) ∨
      ∃ old, r = .entry old ∧ rights.get d = some old ∧ newRights.get d = none := by
  intro round
  simp only [round, classifyDoc]
  cases h₁ : rights.get d with
  | none =>
    cases h₂ : newRights.get d with
    | none => simp
    | some new => simp [@eq_comm _ new]
  | some old =>
    cases h₂ : newRights.get d with
    | none => simp [@eq_comm _ old]
    | some new =>
      dsimp only
      split_ifs with hsame hnew hold
      · simp [hsame, @eq_comm _ new]
      · simp [hsame, List.length_eq_zero_iff.mp hnew]
      · rw [List.length_eq_zero_iff] at hnew hold
        simp [hsame, hnew, hold, @eq_comm _ new]
      · rw [List.length_eq_zero_iff] at hnew hold
        simp [hsame, hnew, hold, @eq_comm _ new]

/-- The documents that are really detached: listed in both tables and now without rights. -/
theorem key_mem_removed_iff {d : DocKey} :
    .key d ∈ (getTokenRightsDiff sameArray rights newRights).removed ↔
      ∃ old new, rights.get d = some old ∧ newRights.get d = some new ∧
        sameArray d = false ∧ new.rights = [] := by
  simp only [getTokenRightsDiff, classify_foldl, List.nil_append, List.mem_flatMap]
  constructor
  · rintro ⟨id, -, hr⟩
    rcases ((mem_classifyDoc id).2.2.2 _).mp hr with ⟨heq, hentries⟩ | ⟨old, heq, -⟩
    · cases heq
      exact hentries
    · cases heq
  · rintro ⟨old, new, hold, hentries⟩
    refine ⟨d, mem_docIds.mpr (.inl ⟨old, hold⟩), ?_⟩
    exact ((mem_classifyDoc d).2.2.2 _).mpr (.inl ⟨rfl, old, new, hold, hentries⟩)

/-- The documents that are attached: without an entry or without rights before, and listed in
the new table; a document that had no entry is attached whatever its new rights are. -/
theorem mem_added_iff {a : AccessData} :
    a ∈ (getTokenRightsDiff sameArray rights newRights).added ↔
      ∃ d, newRights.get d = some a ∧ (rights.get d = none ∨
        ∃ old, rights.get d = some old ∧ sameArray d = false ∧ a.rights ≠ [] ∧ old.rights = []) := by
  simp only [getTokenRightsDiff, classify_foldl, List.nil_append, List.mem_flatMap]
  constructor
  · rintro ⟨d, -, ha⟩
    exact ⟨d, ((mem_classifyDoc d).1 a).mp ha⟩
  · rintro ⟨d, hnew, hold⟩
    exact ⟨d, mem_docIds.mpr (.inr ⟨a, hnew⟩), ((mem_classifyDoc d).1 a).mpr ⟨hnew, hold⟩⟩

end RightsDiff

/-- Every entry of a table names the key it is stored under. -/
lemma createAccessObject_id (docs : List AccessData) {d : DocKey} {a : AccessData}
    (h : (createAccessObject docs).get d = some a) : a.id = d := by
  have hinv : ∀ k b, (createAccessObject docs).get k = some b → b.id = k :=
    List.foldlRecOn (motive := fun acc : Access => ∀ k b, acc.get k = some b → b.id = k) docs _
      (by simp) fun acc hacc doc _ k b hb => by
        rw [JsMap.get_set] at hb
        split at hb
        · cases hb
          exact Eq.symm ‹_›
        · exact hacc k b hb
  exact hinv d a h

namespace Proxy

/-! ### Field lemmas -/

@[simp] lemma modify_docService (p : Proxy) (c : ConnectionId) (f) :
    (p.modify c f).docService = p.docService := rfl
@[simp] lemma modify_tokenConnections (p : Proxy) (c : ConnectionId) (f) :
    (p.modify c f).tokenConnections = p.tokenConnections := rfl

lemma conns_modify (p : Proxy) (c c' : ConnectionId) (f) :
    (p.modify c f).conns c' = if c' = c then f (p.conns c) else p.conns c' := by
  simp [modify, Function.update_apply]

@[simp] lemma conns_modify_self (p : Proxy) (c : ConnectionId) (f) :
    (p.modify c f).conns c = f (p.conns c) := by simp [conns_modify]

lemma conns_modify_ne (p : Proxy) {c c' : ConnectionId} (f) (h : c' ≠ c) :
    (p.modify c f).conns c' = p.conns c' := by simp [conns_modify, h]

@[simp] lemma send_conns (p : Proxy) (c : ConnectionId) (m : ServerMessage) :
    (p.send c m).conns = p.conns := by unfold send; split <;> rfl
@[simp] lemma send_docService (p : Proxy) (c : ConnectionId) (m : ServerMessage) :
    (p.send c m).docService = p.docService := by unfold send; split <;> rfl
@[simp] lemma send_tokenConnections (p : Proxy) (c : ConnectionId) (m : ServerMessage) :
    (p.send c m).tokenConnections = p.tokenConnections := by unfold send; split <;> rfl

@[simp] lemma close_docService (p : Proxy) (c : ConnectionId) :
    (p.close c).docService = p.docService := by unfold close; split <;> rfl
@[simp] lemma close_tokenConnections (p : Proxy) (c : ConnectionId) :
    (p.close c).tokenConnections = p.tokenConnections := by unfold close; split <;> rfl

/-- An open socket becomes a closing one. -/
def closeConn (conn : WebSocketConnection) : WebSocketConnection :=
  if conn.isOpen then { conn with readyState := .closing } else conn

lemma conns_close (p : Proxy) (c c' : ConnectionId) :
    (p.close c).conns c' = if c' = c then closeConn (p.conns c) else p.conns c' := by
  unfold close closeConn
  split
  · rw [conns_modify]
  · split
    · rename_i h
      rw [h]
    · rfl

@[simp] lemma closeConn_tokenId (conn : WebSocketConnection) :
    (closeConn conn).tokenId = conn.tokenId := by unfold closeConn; split <;> rfl
@[simp] lemma closeConn_tokenExpiredAt (conn : WebSocketConnection) :
    (closeConn conn).tokenExpiredAt = conn.tokenExpiredAt := by unfold closeConn; split <;> rfl
@[simp] lemma closeConn_access (conn : WebSocketConnection) :
    (closeConn conn).access = conn.access := by unfold closeConn; split <;> rfl
lemma closeConn_isOpen (conn : WebSocketConnection) : (closeConn conn).isOpen = false := by
  unfold closeConn
  split
  · rfl
  · exact Bool.eq_false_iff.mpr ‹_›

@[simp] lemma closeConn_closeConn (conn : WebSocketConnection) :
    closeConn (closeConn conn) = closeConn conn := by
  have h := closeConn_isOpen conn
  rw [closeConn, h]
  rfl

lemma closeConn_readyState (conn : WebSocketConnection) (r : ReadyState)
    (hr : r = .connecting ∨ r = .closed) : (closeConn conn).readyState = r ↔ conn.readyState = r := by
  unfold closeConn WebSocketConnection.isOpen
  split
  · rename_i h
    simp only [decide_eq_true_eq] at h
    rcases hr with rfl | rfl <;> simp [h]
  · rfl

/-! ### The list of a token -/

lemma mem_connectionsOf {p : Proxy} {t : TokenId} {c : ConnectionId} :
    c ∈ p.connectionsOf t ↔ ∃ cs, p.tokenConnections.get t = some cs ∧ c ∈ cs := by
  unfold connectionsOf
  cases p.tokenConnections.get t <;> simp

/-- The state that an accepted token leaves behind. -/
def accept (p : Proxy) (c : ConnectionId) (payload : JWTPayload) : Proxy :=
  { p.modify c fun conn => { conn with
      userId := some payload.userId
      tokenId := some payload.tokenId
      tokenExpiredAt := payload.expiredAt.or conn.tokenExpiredAt
      access := some (createAccessObject payload.docs)
      issuer := some payload.consumerId } with
    tokenConnections :=
      p.tokenConnections.set payload.tokenId (p.connectionsOf payload.tokenId ++ [c]) }

lemma applyToken_ok (p : Proxy) (c : ConnectionId) (payload : JWTPayload) :
    p.applyToken c (.ok payload) = (p.accept c payload, .ok) := by
  simp [applyToken, addConnection, accept, connectionsOf]

lemma get_accept (p : Proxy) (c : ConnectionId) (payload : JWTPayload) (t : TokenId) :
    (p.accept c payload).tokenConnections.get t =
      if t = payload.tokenId then some (p.connectionsOf payload.tokenId ++ [c])
      else p.tokenConnections.get t := by
  simp [accept, JsMap.get_set]

lemma removeConnection_eq (p : Proxy) (c : ConnectionId) :
    (p.removeConnection c).conns = p.conns ∧ (p.removeConnection c).docService = p.docService := by
  unfold removeConnection
  split
  · exact ⟨rfl, rfl⟩
  · split
    · exact ⟨rfl, rfl⟩
    · split <;> exact ⟨rfl, rfl⟩

/-- Removing a connection shortens the list of its token and deletes an emptied list. -/
lemma get_removeConnection (p : Proxy) (c : ConnectionId) (t : TokenId) (cs : List ConnectionId)
    (h : (p.removeConnection c).tokenConnections.get t = some cs) :
    ∃ old, p.tokenConnections.get t = some old ∧
      cs = if (p.conns c).tokenId = some t then old.erase c else old := by
  unfold removeConnection at h
  cases ht : (p.conns c).tokenId with
  | none =>
    simp only [ht] at h
    exact ⟨cs, h, by simp⟩
  | some t' =>
    simp only [ht] at h
    cases hg : p.tokenConnections.get t' with
    | none =>
      simp only [hg] at h
      have hne : t' ≠ t := by
        rintro rfl
        simp [hg] at h
      exact ⟨cs, h, by simp [hne]⟩
    | some old =>
      simp only [hg] at h
      by_cases he : t = t'
      · subst he
        split at h
        · simp at h
        · simp only [JsMap.get_set_self, Option.some.injEq] at h
          exact ⟨old, hg, by simp [h]⟩
      · refine ⟨cs, ?_, by simp [Ne.symm he]⟩
        split at h
        · rwa [JsMap.get_delete_ne _ he] at h
        · rwa [JsMap.get_set_ne _ _ he] at h

/-- Connections other than the removed one stay in their lists. -/
lemma mem_removeConnection_of_ne {p : Proxy} {c c' : ConnectionId} (hne : c' ≠ c) {t : TokenId}
    {cs : List ConnectionId} (h : p.tokenConnections.get t = some cs) (hc : c' ∈ cs) :
    ∃ cs', (p.removeConnection c).tokenConnections.get t = some cs' ∧ c' ∈ cs' := by
  unfold removeConnection
  cases ht : (p.conns c).tokenId with
  | none => exact ⟨cs, h, hc⟩
  | some t' =>
    dsimp only
    cases hg : p.tokenConnections.get t' with
    | none => exact ⟨cs, h, hc⟩
    | some old =>
      dsimp only
      have hmem : c' ∈ cs.erase c := (List.mem_erase_of_ne hne).mpr hc
      by_cases he : t = t'
      · subst he
        have heq : old = cs := Option.some.inj (hg.symm.trans h)
        subst heq
        have hnil : ¬(old.erase c).isEmpty = true := by
          intro hnil
          rw [List.isEmpty_iff.mp hnil] at hmem
          exact List.not_mem_nil hmem
        rw [if_neg hnil]
        exact ⟨old.erase c, by simp, hmem⟩
      · split
        · exact ⟨cs, by rw [JsMap.get_delete_ne _ he]; exact h, hc⟩
        · exact ⟨cs, by rw [JsMap.get_set_ne _ _ he]; exact h, hc⟩

/-! ### The update message -/

/-- The fields that an update message gives to a connection of the old token. -/
def updated (m : UpdateTokenMessage) (conn : WebSocketConnection) : WebSocketConnection :=
  { conn with
    access := some (createAccessObject m.docs)
    tokenExpiredAt := some (newDate m.expiredAt)
    tokenId := some m.tokenId }

/-- The membership changes for one connection. -/
def updateOps (diff : TokenRightsDiff) (c : ConnectionId) : List DocOp :=
  [.detach c diff.removed, .attach c (diff.added.map AccessData.id)]

lemma updateConnection_eq (m : UpdateTokenMessage) (diff : TokenRightsDiff) (p : Proxy)
    (c : ConnectionId) :
    (∀ c', (updateConnection m diff p c).conns c' =
        if c' = c then updated m (p.conns c) else p.conns c') ∧
      (updateConnection m diff p c).docService =
        (updateOps diff c).foldl DocService.apply p.docService ∧
      (updateConnection m diff p c).tokenConnections = p.tokenConnections := by
  refine ⟨fun c' => ?_, ?_, ?_⟩
  · simp only [updateConnection, send_conns]
    exact conns_modify p c c' (updated m)
  · simp only [updateConnection, send_docService]
    rfl
  · simp only [updateConnection, send_tokenConnections]
    rfl

/-- The loop over the connections of the old token. -/
lemma updateConnections_eq (m : UpdateTokenMessage) (diff : TokenRightsDiff) (p : Proxy)
    (cs : List ConnectionId) :
    (∀ c', (cs.foldl (updateConnection m diff) p).conns c' =
        if c' ∈ cs then updated m (p.conns c') else p.conns c') ∧
      (cs.foldl (updateConnection m diff) p).docService =
        (cs.flatMap (updateOps diff)).foldl DocService.apply p.docService ∧
      (cs.foldl (updateConnection m diff) p).tokenConnections = p.tokenConnections := by
  induction cs generalizing p with
  | nil => simp
  | cons c cs ih =>
    obtain ⟨hconns, hdoc, htok⟩ := updateConnection_eq m diff p c
    obtain ⟨ihconns, ihdoc, ihtok⟩ := ih (updateConnection m diff p c)
    refine ⟨fun c' => ?_, ?_, ihtok.trans htok⟩
    · rw [List.foldl_cons, ihconns, hconns]
      by_cases h : c' = c
      · subst h
        by_cases h' : c' ∈ cs <;> simp [h', updated]
      · simp [h]
    · rw [List.foldl_cons, ihdoc, hdoc, List.flatMap_cons, List.foldl_append]

/-- What an update message does: nothing, or the changes of the loop and the move of the list. -/
structure UpdatedBy (p p' : Proxy) (m : UpdateTokenMessage) (cs : List ConnectionId)
    (firstAccess : Access) : Prop where
  listed : p.tokenConnections.get m.oldTokenId = some cs
  first : p.firstAccess cs = some firstAccess
  conns : ∀ c, p'.conns c = if c ∈ cs then updated m (p.conns c) else p.conns c
  docService : p'.docService =
    (cs.flatMap (updateOps (updateDiff firstAccess m))).foldl DocService.apply p.docService
  lists : ∀ t, p'.tokenConnections.get t =
    if t = m.tokenId then some cs else if t = m.oldTokenId then none else p.tokenConnections.get t

theorem onUpdateTokenMessage_cases (p : Proxy) (m : UpdateTokenMessage) :
    (p.onUpdateTokenMessage m = p ∧ ∀ cs, p.tokenConnections.get m.oldTokenId = some cs →
        p.firstAccess cs = none) ∨
      ∃ cs firstAccess, UpdatedBy p (p.onUpdateTokenMessage m) m cs firstAccess := by
  unfold onUpdateTokenMessage
  cases hg : p.tokenConnections.get m.oldTokenId with
  | none => exact .inl ⟨rfl, by simp⟩
  | some cs =>
    cases hf : p.firstAccess cs with
    | none => exact .inl ⟨by simp [hf], by simpa using hf⟩
    | some firstAccess =>
      simp only [hf]
      obtain ⟨hconns, hdoc, htok⟩ := updateConnections_eq m (updateDiff firstAccess m) p cs
      refine .inr ⟨cs, firstAccess, hg, hf, hconns, hdoc, fun t => ?_⟩
      simp only [htok, JsMap.get_set, JsMap.get_delete]

lemma apply_updateOps {s : DocService} (h : s.WF) (diff : TokenRightsDiff) (c c' : ConnectionId)
    (d : DocKey) : ((updateOps diff c).foldl DocService.apply s).WF ∧
      (((updateOps diff c).foldl DocService.apply s).Holds d c' ↔
        (s.Holds d c' ∧ ¬(c' = c ∧ .key d ∈ diff.removed)) ∨
          (c' = c ∧ d ∈ diff.added.map AccessData.id)) := by
  have hwf := (shrinks_detach s c diff.removed).wf h
  obtain ⟨hwf', hholds⟩ := attach_spec hwf c (diff.added.map AccessData.id)
  refine ⟨hwf', ?_⟩
  change ((s.onDetachDocMessage c diff.removed).onAttachDocMessage c _).Holds d c' ↔ _
  rw [hholds, holds_detach h, and_comm (a := d ∈ _)]

/-- Membership after an update: the connections of the old token lose the documents without
rights and gain the added ones, all others keep theirs. -/
lemma holds_updateOps {s : DocService} (h : s.WF) (diff : TokenRightsDiff)
    (cs : List ConnectionId) (c : ConnectionId) (d : DocKey) :
    ((cs.flatMap (updateOps diff)).foldl DocService.apply s).WF ∧
      (((cs.flatMap (updateOps diff)).foldl DocService.apply s).Holds d c ↔
        if c ∈ cs then
          (s.Holds d c ∧ .key d ∉ diff.removed) ∨ d ∈ diff.added.map AccessData.id
        else s.Holds d c) := by
  induction cs generalizing s with
  | nil => simp [h]
  | cons c₀ cs ih =>
    obtain ⟨hwf, hholds⟩ := apply_updateOps h diff c₀ c d
    obtain ⟨ihwf, ihholds⟩ := ih hwf
    rw [List.flatMap_cons, List.foldl_append]
    refine ⟨ihwf, ihholds.trans ?_⟩
    rw [hholds]
    by_cases hc : c = c₀
    · subst hc
      by_cases hcs : c ∈ cs
      · simp only [hcs, if_true, true_and, List.mem_cons_self]
        tauto
      · simp [hcs]
    · simp [hc]

/-! ### The expiration check -/

lemma expireConnections_eq (cs : List ConnectionId) (p : Proxy) :
    (∃ cs' : List ConnectionId,
      (expireConnections cs p).1.docService = cs'.foldl DocService.disconnect p.docService) ∧
      (∀ c, (expireConnections cs p).1.conns c = p.conns c ∨
        c ∈ cs ∧ (expireConnections cs p).1.conns c = closeConn (p.conns c)) ∧
      (expireConnections cs p).1.tokenConnections = p.tokenConnections ∧
      ((expireConnections cs p).2 = false → ∀ c ∈ cs,
        (expireConnections cs p).1.conns c = closeConn (p.conns c)) := by
  induction cs generalizing p with
  | nil => exact ⟨⟨[], rfl⟩, fun c => .inl rfl, rfl, by simp⟩
  | cons c₀ cs ih =>
    cases hexp : (p.conns c₀).tokenExpiredAt with
    | none =>
      have he : expireConnections (c₀ :: cs) p = (p, true) := by simp [expireConnections, hexp]
      rw [he]
      exact ⟨⟨[], rfl⟩, fun c => .inl rfl, rfl, by simp⟩
    | some d =>
      let q : Proxy := ({ p.send c₀ (.expiredToken (p.conns c₀).tokenId d) with
        docService := (p.send c₀ (.expiredToken (p.conns c₀).tokenId d)).docService.disconnect c₀ }
          : Proxy).close c₀
      have he : expireConnections (c₀ :: cs) p = expireConnections cs q := by
        simp [expireConnections, hexp, q]
      have hq : ∀ c, q.conns c = if c = c₀ then closeConn (p.conns c₀) else p.conns c := by
        intro c
        simp only [q, conns_close, send_conns]
      obtain ⟨⟨cs', hdoc⟩, hconns, htok, hall⟩ := ih q
      rw [he]
      refine ⟨⟨c₀ :: cs', by rw [hdoc]; simp [q]⟩, fun c => ?_, by rw [htok]; simp [q],
        fun hf c hc => ?_⟩
      · by_cases hc : c = c₀
        · subst hc
          right
          refine ⟨List.mem_cons_self, ?_⟩
          rcases hconns c with h | ⟨-, h⟩ <;> simp [h, hq]
        · rcases hconns c with h | ⟨hm, h⟩
          · left
            simp [h, hq, hc]
          · right
            exact ⟨List.mem_cons_of_mem _ hm, by simp [h, hq, hc]⟩
      · by_cases hcc : c = c₀
        · subst hcc
          rcases hconns c with h | ⟨-, h⟩ <;> simp [h, hq]
        · rw [hall hf c (List.mem_of_ne_of_mem hcc hc), hq, if_neg hcc]

/-- What the expiration check can do in any state. -/
structure CheckedBy (p p' : Proxy) : Prop where
  docService : ∃ cs : List ConnectionId, p'.docService = cs.foldl DocService.disconnect p.docService
  conns : ∀ c, p'.conns c = p.conns c ∨ p'.conns c = closeConn (p.conns c)
  lists : ∀ t cs, p'.tokenConnections.get t = some cs → p.tokenConnections.get t = some cs
  dropped : ∀ t cs, p.tokenConnections.get t = some cs →
    p'.tokenConnections.get t = some cs ∨ ∀ c ∈ cs, (p'.conns c).isOpen = false

lemma CheckedBy.refl (p : Proxy) : p.CheckedBy p :=
  ⟨⟨[], rfl⟩, fun _ => .inl rfl, fun _ _ h => h, fun _ _ h => .inl h⟩

lemma CheckedBy.trans {p q r : Proxy} (h : p.CheckedBy q) (h' : q.CheckedBy r) : p.CheckedBy r where
  docService := by
    obtain ⟨cs, hcs⟩ := h.docService
    obtain ⟨cs', hcs'⟩ := h'.docService
    exact ⟨cs ++ cs', by rw [hcs', hcs, List.foldl_append]⟩
  conns c := by
    rcases h.conns c with h₁ | h₁ <;> rcases h'.conns c with h₂ | h₂ <;> simp [h₁, h₂]
  lists t cs ht := h.lists t cs (h'.lists t cs ht)
  dropped t cs ht := by
    rcases h.dropped t cs ht with hq | hq
    · exact h'.dropped t cs hq
    · right
      intro c hc
      rcases h'.conns c with h₂ | h₂
      · rw [h₂, hq c hc]
      · rw [h₂, closeConn_isOpen]

lemma checkedBy_expire {p : Proxy} {t : TokenId} {cs : List ConnectionId}
    (ht : p.tokenConnections.get t = some cs) :
    p.CheckedBy (expireConnections cs p).1 ∧ ((expireConnections cs p).2 = false →
      p.CheckedBy { (expireConnections cs p).1 with
        tokenConnections := (expireConnections cs p).1.tokenConnections.delete t }) := by
  obtain ⟨hdoc, hconns, htok, hall⟩ := expireConnections_eq cs p
  have hc : ∀ c, (expireConnections cs p).1.conns c = p.conns c ∨
      (expireConnections cs p).1.conns c = closeConn (p.conns c) :=
    fun c => (hconns c).imp_right And.right
  refine ⟨⟨hdoc, hc, by simp [htok], by simp +contextual [htok]⟩, fun hf =>
    ⟨hdoc, hc, fun t' cs' h => ?_, fun t' cs' h => ?_⟩⟩
  · simp only [htok, JsMap.get_delete] at h
    split at h
    · cases h
    · exact h
  · by_cases he : t' = t
    · subst he
      right
      intro c hc
      have hcs : cs' = cs := Option.some.inj (h.symm.trans ht)
      simp only [hall hf c (hcs ▸ hc), closeConn_isOpen]
    · left
      simp only [htok, JsMap.get_delete_ne _ he, h]

lemma checkedBy_checkLists (now : Int) (es : List (TokenId × List ConnectionId)) (p : Proxy)
    (hes : ∀ e ∈ es, p.tokenConnections.get e.1 = some e.2) (hnd : (es.map Prod.fst).Nodup) :
    p.CheckedBy (checkLists now es p) := by
  induction es generalizing p with
  | nil => exact CheckedBy.refl p
  | cons e es ih =>
    obtain ⟨t, cs⟩ := e
    obtain ⟨hnot, hnd'⟩ := List.nodup_cons.mp hnd
    have hrest : ∀ e ∈ es, p.tokenConnections.get e.1 = some e.2 :=
      fun e he => hes e (List.mem_cons_of_mem _ he)
    cases cs with
    | nil => exact CheckedBy.refl p
    | cons c cs =>
      have ht : p.tokenConnections.get t = some (c :: cs) := hes _ List.mem_cons_self
      have hex := checkedBy_expire ht
      simp only [checkLists]
      split
      · exact ih p hrest hnd'
      · split
        · exact ih p hrest hnd'
        · split
          · rename_i q hq
            simpa [hq] using hex.1
          · rename_i q hq
            have hstep := hex.2 (by rw [hq])
            rw [hq] at hstep
            refine hstep.trans (ih _ (fun e he => ?_) hnd')
            have hne : e.1 ≠ t := by
              intro h
              apply hnot
              simpa only [h] using List.mem_map_of_mem (f := Prod.fst) he
            have hq' : q.tokenConnections = p.tokenConnections := by
              have := (expireConnections_eq (c :: cs) p).2.2.1
              rwa [hq] at this
            simp only [JsMap.get_delete_ne _ hne, hq', hrest e he]

theorem checkTokenExpiration_checkedBy (p : Proxy) (now : Int) :
    p.CheckedBy (p.checkTokenExpiration now) :=
  checkedBy_checkLists now _ p
    (fun _ he => (JsMap.mem_entries_iff _ _ _).mp he) p.tokenConnections.nodup_keys

end Proxy

end AlaFois
