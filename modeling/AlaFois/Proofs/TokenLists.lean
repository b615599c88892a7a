import AlaFois.Model.TokenLists

/-!
# The first connection of a token

A list is emptied only by the one removal that also deletes its key, and it has one key only. So
every list that is found has a first connection.
-/

namespace AlaFois

namespace TokenLists

variable {s : TokenLists}

/-- Every list that is filed has a connection and one key, and is one of the arrays made so far. -/
structure Owned (s : TokenLists) : Prop where
  nonempty : ∀ k ref, s.tokenConnections.get k = some ref → s.lists ref ≠ []
  unshared : s.tokenConnections.Unshared
  lt : ∀ k ref, s.tokenConnections.get k = some ref → ref < s.nextRef

lemma owned_init (rest : Proxy) : (init rest).Owned where
  nonempty k ref h := by simp [init] at h
  unshared := JsMap.unshared_empty
  lt k ref h := by simp [init] at h

/-- An array that is not empty is filed, under a key at which it was already or as a new one. -/
lemma Owned.file (h : s.Owned) {k : Option TokenId} {ref : ListRef}
    {connections : List ConnectionId} (hne : connections ≠ [])
    (hother : ∀ k', s.tokenConnections.get k' = some ref → k' = k) {nextRef : ListRef}
    (hlt : ref < nextRef) (hnext : s.nextRef ≤ nextRef) :
    { s.update ref connections with
      tokenConnections := s.tokenConnections.set k ref
      nextRef := nextRef }.Owned where
  nonempty k' ref' hget := by
    by_cases href : ref' = ref
    · subst href
      simpa [update] using hne
    · rw [JsMap.get_set] at hget
      split at hget
      · cases hget
        exact absurd rfl href
      · simpa [update, href] using h.nonempty k' ref' hget
  unshared := h.unshared.set hother
  lt k' ref' hget := by
    rw [JsMap.get_set] at hget
    split at hget
    · cases hget
      exact hlt
    · exact Nat.lt_of_lt_of_le (h.lt k' ref' hget) hnext

lemma Owned.delete (h : s.Owned) (k : Option TokenId) :
    { s with tokenConnections := s.tokenConnections.delete k }.Owned where
  nonempty k' ref hget := by
    rw [JsMap.get_delete] at hget
    split at hget
    · cases hget
    · exact h.nonempty k' ref hget
  unshared := h.unshared.delete k
  lt k' ref hget := by
    rw [JsMap.get_delete] at hget
    split at hget
    · cases hget
    · exact h.lt k' ref hget

/-- What the connections are does not matter. -/
lemma Owned.elsewhere (h : s.Owned) (rest : Proxy) : { s with rest := rest }.Owned :=
  ⟨h.nonempty, h.unshared, h.lt⟩

/-! ### Operations -/

lemma addConnection_of_some {c : ConnectionId} {ref : ListRef}
    (h : s.tokenConnections.get (s.rest.conns c).tokenId = some ref) :
    s.addConnection c = { s.update ref (s.lists ref ++ [c]) with
      tokenConnections := s.tokenConnections.set (s.rest.conns c).tokenId ref } := by
  simp only [addConnection, h]
  rfl

lemma addConnection_of_none {c : ConnectionId}
    (h : s.tokenConnections.get (s.rest.conns c).tokenId = none) :
    s.addConnection c = { s.update s.nextRef [c] with
      tokenConnections := s.tokenConnections.set (s.rest.conns c).tokenId s.nextRef
      nextRef := s.nextRef + 1 } := by
  simp only [addConnection, h, alloc]
  rfl

lemma removeConnection_of_none {c : ConnectionId}
    (h : s.tokenConnections.get (s.rest.conns c).tokenId = none) : s.removeConnection c = s := by
  simp only [removeConnection, h]

lemma removeConnection_of_some {c : ConnectionId} {ref : ListRef}
    (h : s.tokenConnections.get (s.rest.conns c).tokenId = some ref) :
    s.removeConnection c =
      if ((s.lists ref).erase c).isEmpty then
        { s.update ref ((s.lists ref).erase c) with
          tokenConnections := s.tokenConnections.delete (s.rest.conns c).tokenId }
      else s.update ref ((s.lists ref).erase c) := by
  simp only [removeConnection, h, update, Function.update_self]

lemma Owned.addConnection (h : s.Owned) (c : ConnectionId) : (s.addConnection c).Owned := by
  cases hget : s.tokenConnections.get (s.rest.conns c).tokenId with
  | some ref =>
    rw [addConnection_of_some hget]
    exact h.file (List.concat_ne_nil c _) (fun k' hk' => h.unshared k' _ ref hk' hget)
      (h.lt _ ref hget) (Nat.le_refl _)
  | none =>
    rw [addConnection_of_none hget]
    refine h.file (List.cons_ne_nil c []) (fun k' hk' => ?_) (Nat.lt_succ_self _) (Nat.le_succ _)
    exact absurd (h.lt k' _ hk') (Nat.lt_irrefl _)

lemma Owned.removeConnection (h : s.Owned) (c : ConnectionId) : (s.removeConnection c).Owned := by
  cases hget : s.tokenConnections.get (s.rest.conns c).tokenId with
  | none =>
    rw [removeConnection_of_none hget]
    exact h
  | some ref =>
    rw [removeConnection_of_some hget]
    split
    · -- the other keys have other lists, and those are as before
      refine ⟨fun k' ref' hget' => ?_, h.unshared.delete _, (h.delete _).lt⟩
      rw [JsMap.get_delete] at hget'
      split at hget'
      · cases hget'
      · rename_i hk
        have href : ref' ≠ ref := fun he => hk (h.unshared k' _ ref (he ▸ hget') hget)
        simpa [update, href] using h.nonempty k' ref' hget'
    · rename_i hne
      refine ⟨fun k' ref' hget' => ?_, h.unshared, h.lt⟩
      by_cases href : ref' = ref
      · subst href
        simpa [update] using hne
      · simpa [update, href] using h.nonempty k' ref' hget'

lemma Owned.applyToken (h : s.Owned) (c : ConnectionId) (response : CheckClientTokenResponse) :
    (s.applyToken c response).Owned := by
  cases response with
  | error status => exact h
  | ok payload => exact (h.elsewhere _).addConnection c

lemma Owned.rename (h : s.Owned) {k : Option TokenId} {ref : ListRef}
    (hk : s.tokenConnections.get k = some ref) (k' : Option TokenId) :
    { s with tokenConnections := (s.tokenConnections.delete k).set k' ref }.Owned where
  nonempty k₁ ref₁ hget := by
    rw [JsMap.get_set] at hget
    split at hget
    · cases hget
      exact h.nonempty k ref hk
    · exact (h.delete k).nonempty k₁ ref₁ hget
  unshared := h.unshared.rename hk k'
  lt k₁ ref₁ hget := by
    rw [JsMap.get_set] at hget
    split at hget
    · cases hget
      exact h.lt k ref hk
    · exact (h.delete k).lt k₁ ref₁ hget

lemma Owned.onUpdateTokenMessage (h : s.Owned) (m : UpdateTokenMessage) :
    (s.onUpdateTokenMessage m).1.Owned ∧
      (s.onUpdateTokenMessage m).2 ≠ some .undefinedConnection := by
  unfold TokenLists.onUpdateTokenMessage
  cases hget : s.tokenConnections.get (some m.oldTokenId) with
  | none => exact ⟨h, by simp⟩
  | some ref =>
    dsimp only
    split
    · rename_i hempty
      exact absurd hempty (h.nonempty _ ref hget)
    · split
      · exact ⟨h, by simp⟩
      · exact ⟨(h.rename hget (some m.tokenId)).elsewhere _, by simp⟩

/-- Whatever keys the iterator still meets, the lists that are filed then have a connection. -/
lemma Owned.checkKeys (h : s.Owned) (now : Int) (keys : List (Option TokenId)) :
    (checkKeys now keys s).1.Owned ∧ (checkKeys now keys s).2 ≠ some .undefinedConnection := by
  induction keys generalizing s with
  | nil => exact ⟨h, by simp [TokenLists.checkKeys]⟩
  | cons k keys ih =>
    unfold TokenLists.checkKeys
    split
    · exact ih h
    · rename_i ref hget
      split
      · rename_i hempty
        exact absurd hempty (h.nonempty k ref hget)
      · split
        · exact ih h
        · split
          · exact ih h
          · split
            · exact ⟨h.elsewhere _, by simp⟩
            · exact ih ((h.delete k).elsewhere _)

lemma Owned.apply (h : s.Owned) (op : TokenListOp) :
    (s.apply op).1.Owned ∧ (s.apply op).2 ≠ some .undefinedConnection := by
  cases op with
  | addConnection c => exact ⟨h.addConnection c, by simp [TokenLists.apply]⟩
  | removeConnection c => exact ⟨h.removeConnection c, by simp [TokenLists.apply]⟩
  | applyToken c response => exact ⟨h.applyToken c response, by simp [TokenLists.apply]⟩
  | onUpdateTokenMessage m => exact h.onUpdateTokenMessage m
  | checkTokenExpiration now => exact h.checkKeys now _
  | elsewhere rest => exact ⟨h.elsewhere rest, by simp [TokenLists.apply]⟩

lemma Owned.run (h : s.Owned) (ops : List TokenListOp) :
    (ops.foldl (fun s op => (s.apply op).1) s).Owned := by
  induction ops generalizing s with
  | nil => exact h
  | cons op ops ih => exact ih (h.apply op).1

/-- After any operations on an instance with any connections, the lists that are filed have a
connection and are filed once, and no further operation reads a field of `connections[0]` where there
is none. -/
theorem first_connection_exists (rest : Proxy) (ops : List TokenListOp) :
    let s := ops.foldl (fun s op => (s.apply op).1) (init rest)
    (∀ k ref, s.tokenConnections.get k = some ref → s.lists ref ≠ []) ∧
      (∀ k k' ref, s.tokenConnections.get k = some ref → s.tokenConnections.get k' = some ref →
        k = k') ∧
      ∀ op, (s.apply op).2 ≠ some .undefinedConnection := by
  intro s
  have h : s.Owned := (owned_init rest).run ops
  exact ⟨h.nonempty, h.unshared, fun op => (h.apply op).2⟩

/-- Two connections with a token each, of which one is renamed to the other. -/
def renamedToken : List TokenListOp :=
  [.applyToken "a" (.ok ⟨"t", "consumer", "user", some (.time 1), []⟩),
    .applyToken "b" (.ok ⟨"u", "consumer", "user", some (.time 1), []⟩),
    .onUpdateTokenMessage ⟨"token", "u", "t", "consumer", "user", some (.time 2), []⟩]

theorem first_connection_exists_renamed :
    let s := renamedToken.foldl (fun s op => (s.apply op).1) (init .init)
    s.tokenConnections.get (some "u") = some 0 ∧ s.lists 0 ≠ [] ∧
      (s.apply (.checkTokenExpiration 3)).2 ≠ some .undefinedConnection := by
  intro s
  have hget : s.tokenConnections.get (some "u") = some 0 := rfl
  obtain ⟨hne, -, hcheck⟩ := first_connection_exists .init renamedToken
  exact ⟨hget, hne _ _ hget, hcheck _⟩

end TokenLists

end AlaFois
