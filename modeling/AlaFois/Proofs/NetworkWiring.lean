import AlaFois.Proofs.Attendance
import AlaFois.Proofs.SyncSpec

/-!
# Which connection is where

A connection that the proxy has open either still waits with its join at the head of the queue
and has left no trace, or its instance has it as a member of the document. This is what makes a
change from it go through, and what brings the changes of others to it.
-/

namespace AlaFois

namespace Network

variable {ι κ Doc : Type*} {y : Yjs Doc}

/-- The connection is the one that the client holds, and the proxy has it open. -/
structure Live (s : Network ι κ Doc) (c : ι) (k : ConnectionId) (p : κ) : Prop where
  socket : (s.clients c).socket = some k
  session : s.sessions.get k = some (c, p)
  serverOpen : s.serverOpen k = true

/-- The connection has sent nothing that has been handled, and nothing has been sent to it. -/
structure Silent (s : Network ι κ Doc) (k : ConnectionId) : Prop where
  client : s.toClient k = []
  calls : ∀ call, (k, call) ∉ s.calls
  serving : ∀ call, s.serving ≠ some (k, call)
  replies : ∀ call reply, (k, call, reply) ∉ s.replies
  author : ∀ p d changes, .changes k d changes ∉ s.pubsub p
  unsynced : ∀ c, (s.clients c).socket = some k → (s.clients c).synced = false

structure Wired (s : Network ι κ Doc) : Prop where
  ids : ∀ c, (s.clients c).container.id = s.docId
  socket : ∀ c k, (s.clients c).socket = some k → ∃ p, s.sessions.get k = some (c, p)
  unused : ∀ k, s.sessions.get k = none → s.serverOpen k = false ∧ s.Silent k
  closed : ∀ k, s.serverOpen k = false → s.toServer k = []
  plain : ∀ p, (s.proxies p).Plain
  topic : ∀ p, ∀ m ∈ s.pubsub p, ∃ author changes, m = .changes author s.docId changes
  member : ∀ p k, (s.proxies p).Holds s.docId k →
    s.serverOpen k = true ∧ ∃ c, s.sessions.get k = some (c, p)
  opened : ∀ k c p, s.sessions.get k = some (c, p) → s.serverOpen k = true →
    (s.proxies p).Holds s.docId k ∨ (s.toServer k).head? = some .join ∧ s.Silent k

lemma wired_init (docId : DocKey) (actor : DocHandler Doc) :
    (init y docId actor : Network ι κ Doc).Wired where
  ids _ := rfl
  socket c k hk := by cases hk
  unused k _ := ⟨rfl, rfl, by simp [init], by simp [init], by simp [init], by simp [init],
    by simp [init]⟩
  closed _ _ := rfl
  plain _ := DocService.plain_init
  topic p m hm := by cases hm
  member p k hh := by
    obtain ⟨doc, hd, -⟩ := hh
    simp [init, DocService.init] at hd
  opened k c p hk := by simp [init] at hk

variable {s : Network ι κ Doc}

lemma toServer_send (s : Network ι κ Doc) (c : ι) (messages : List ClientMessage)
    (k : ConnectionId) : (s.send c messages).toServer k =
      if (s.clients c).socket = some k ∧ s.serverOpen k = true then s.toServer k ++ messages
      else s.toServer k := by
  unfold send
  cases hsocket : (s.clients c).socket with
  | none => simp
  | some k' =>
    by_cases hopen : s.serverOpen k' = true
    · by_cases hk : k = k'
      · subst hk
        simp [hopen]
      · simp [hopen, hk, Ne.symm hk]
    · by_cases hk : k = k'
      · subst hk
        simp [hopen]
      · simp [hopen, Ne.symm hk]

lemma advance_eq [DecidableEq ι] (s : Network ι κ Doc) (c : ι) (client : Client Doc)
    (messages : List ClientMessage) :
    s.advance c client messages =
      { s with
        clients := Function.update s.clients c client
        toServer := (s.send c messages).toServer } := by
  unfold advance send
  split
  · rfl
  · split <;> rfl

lemma reaches_iff (k : ConnectionId) : s.reaches k = true ↔ ∃ c p, s.Live c k p := by
  unfold reaches
  cases hk : s.sessions.get k with
  | none =>
    simp only [Option.any_none, Bool.and_false, Bool.false_eq_true, false_iff]
    rintro ⟨c, p, hlive⟩
    cases hk.symm.trans hlive.session
  | some e =>
    simp only [Option.any_some, Bool.and_eq_true, decide_eq_true_eq]
    constructor
    · rintro ⟨hopen, hsocket⟩
      exact ⟨e.1, e.2, hsocket, hk, hopen⟩
    · rintro ⟨c, p, hlive⟩
      cases hk.symm.trans hlive.session
      exact ⟨hlive.serverOpen, hlive.socket⟩

lemma mem_post (sent : List Sent) (k : ConnectionId) (m : ServerMessage) :
    m ∈ (s.post sent).toClient k ↔ m ∈ s.toClient k ∨ (∃ c p, s.Live c k p) ∧ (k, m) ∈ sent := by
  rw [← reaches_iff]
  simp only [post]
  split
  · rename_i hreach
    simp only [List.mem_append, List.mem_map, List.mem_filter, decide_eq_true_eq, Prod.exists,
      exists_eq_right, hreach, true_and]
  · rename_i hreach
    simp [hreach]

/-- A connection that has left a trace is a member. -/
lemma Wired.holds (h : s.Wired) {k : ConnectionId} {c : ι} {p : κ}
    (hk : s.sessions.get k = some (c, p)) (hopen : s.serverOpen k = true) (htrace : ¬s.Silent k) :
    (s.proxies p).Holds s.docId k :=
  (h.opened k c p hk hopen).resolve_right fun hfresh => htrace hfresh.2

lemma Live.unique {c c' : ι} {k : ConnectionId} {p p' : κ}
    (hlive : s.Live c k p) (hsession : s.sessions.get k = some (c', p')) : c' = c ∧ p' = p := by
  cases hlive.session.symm.trans hsession
  exact ⟨rfl, rfl⟩

lemma Live.congr {s' : Network ι κ Doc} {c : ι} {k : ConnectionId} {p : κ} (hl : s'.Live c k p)
    (h : (s'.clients, s'.sessions, s'.serverOpen) = (s.clients, s.sessions, s.serverOpen)) :
    s.Live c k p := by
  simp only [Prod.mk.injEq] at h
  obtain ⟨hclients, hsessions, hopen⟩ := h
  exact ⟨hclients ▸ hl.socket, hsessions ▸ hl.session, hopen ▸ hl.serverOpen⟩

/-- Connections that were not silent need no attention when the trace grows. -/
lemma Wired.used (h : s.Wired) {k : ConnectionId} (htrace : ¬s.Silent k) :
    s.sessions.get k ≠ none := fun hk => htrace (h.unused k hk).2

lemma Wired.advance [DecidableEq ι] (h : s.Wired) (c : ι) {client : Client Doc}
    (messages : List ClientMessage) (hsocket : client.socket = (s.clients c).socket)
    (hid : client.container.id = s.docId)
    (hsynced : client.synced = true → ∀ k, client.socket = some k → ¬s.Silent k) :
    (s.advance c client messages).Wired := by
  have hsilent : ∀ k, s.Silent k → (s.advance c client messages).Silent k := by
    intro k hk
    rw [advance_eq]
    refine { hk with unsynced := fun c' hc' => ?_ }
    by_cases he : c' = c
    · subst he
      simp only [Function.update_self] at hc' ⊢
      by_contra hne
      exact hsynced (by simpa using hne) k hc' hk
    · simp only [Function.update_of_ne he] at hc' ⊢
      exact hk.unsynced c' hc'
  have hsock : ∀ c' k, ((s.advance c client messages).clients c').socket = some k →
      (s.clients c').socket = some k := by
    intro c' k hk
    rw [advance_eq] at hk
    by_cases he : c' = c
    · subst he
      simp only [Function.update_self] at hk
      rwa [← hsocket]
    · simpa only [Function.update_of_ne he] using hk
  refine ⟨fun c' => ?_, fun c' k hk => ?_, fun k hk => ?_, fun k hk => ?_, fun p => ?_,
    fun p m hm => ?_, fun p k hh => ?_, fun k c' p hk hopen => ?_⟩
  · rw [advance_eq]
    by_cases he : c' = c
    · subst he
      simpa using hid
    · simpa [he] using h.ids c'
  · have hget := h.socket c' k (hsock c' k hk)
    rwa [advance_eq]
  · have hun := h.unused k (by rwa [advance_eq] at hk)
    exact ⟨by rw [advance_eq]; exact hun.1, hsilent k hun.2⟩
  · rw [advance_eq] at hk ⊢
    change s.serverOpen k = false at hk
    change (s.send c messages).toServer k = []
    rw [toServer_send, if_neg (by simp [hk])]
    exact h.closed k hk
  · rw [advance_eq]
    exact h.plain p
  · rw [advance_eq] at hm ⊢
    exact h.topic p m hm
  · rw [advance_eq] at hh ⊢
    exact h.member p k hh
  · have hold := h.opened k c' p (by rwa [advance_eq] at hk) (by rwa [advance_eq] at hopen)
    rcases hold with hh | ⟨hhead, hquiet⟩
    · left
      rw [advance_eq]
      exact hh
    · refine .inr ⟨?_, hsilent k hquiet⟩
      rw [advance_eq]
      change ((s.send c messages).toServer k).head? = _
      rw [toServer_send]
      split
      · rw [List.head?_append, hhead]
        rfl
      · exact hhead

lemma Wired.advance_of_synced [DecidableEq ι] (h : s.Wired) (c : ι)
    {container : DocContainer Doc} (messages : List ClientMessage)
    (hid : container.id = (s.clients c).container.id) :
    (s.advance c { s.clients c with container := container } messages).Wired := by
  refine h.advance c messages rfl (hid.trans (h.ids c)) fun hsynced k hk hsilent => ?_
  rw [hsilent.unsynced c hk] at hsynced
  cases hsynced

lemma Wired.popClient (h : s.Wired) {k : ConnectionId} {m : ServerMessage}
    {rest : List ServerMessage} (hk : s.toClient k = m :: rest) : (s.popClient k rest).Wired := by
  have hne : ∀ k', s.Silent k' → k' ≠ k := by
    rintro k' hk' rfl
    cases hk.symm.trans hk'.client
  have hsilent : ∀ k', s.Silent k' → (s.popClient k rest).Silent k' := fun k' hk' =>
    { hk' with client := (Function.update_of_ne (hne k' hk') _ _).trans hk'.client }
  exact { h with
    unused := fun k' hk' => ⟨(h.unused k' hk').1, hsilent k' (h.unused k' hk').2⟩
    opened := fun k' c p hk' hopen => (h.opened k' c p hk' hopen).imp_right fun hfresh =>
      ⟨hfresh.1, hsilent k' hfresh.2⟩ }

/-- Messages go to members. -/
lemma Wired.post (h : s.Wired) {sent : List Sent}
    (hsent : ∀ k m c p, (k, m) ∈ sent → s.Live c k p → (s.proxies p).Holds s.docId k) :
    (s.post sent).Wired := by
  have hsilent : ∀ k, s.Silent k → (∀ c p, s.Live c k p → ¬(s.proxies p).Holds s.docId k) →
      (s.post sent).Silent k := by
    intro k hk hnot
    refine { hk with client := List.eq_nil_iff_forall_not_mem.mpr fun m hm => ?_ }
    rcases (mem_post sent k m).mp hm with hm | ⟨⟨c, p, hlive⟩, hm⟩
    · rw [hk.client] at hm
      cases hm
    · exact hnot c p hlive (hsent k m c p hm hlive)
  refine { h with unused := fun k hk => ?_, opened := fun k c p hk hopen => ?_ }
  · refine ⟨(h.unused k hk).1, hsilent k (h.unused k hk).2 fun c p hlive => ?_⟩
    cases hk.symm.trans hlive.session
  · by_cases hh : (s.proxies p).Holds s.docId k
    · exact .inl hh
    · obtain ⟨hhead, hquiet⟩ := (h.opened k c p hk hopen).resolve_left hh
      refine .inr ⟨hhead, hsilent k hquiet fun c' p' hlive => ?_⟩
      obtain ⟨rfl, rfl⟩ := hlive.unique hk
      exact hh

/-- Only a member leaves a trace, so that the silent connections are others. -/
lemma Wired.silent_others (h : s.Wired) {t : Network ι κ Doc} {k : ConnectionId} {c : ι} {p : κ}
    (hk : s.sessions.get k = some (c, p)) (hh : (s.proxies p).Holds s.docId k)
    (hsilent : ∀ k', s.Silent k' → k' ≠ k → t.Silent k') :
    (∀ k', s.sessions.get k' = none → s.serverOpen k' = false ∧ t.Silent k') ∧
      ∀ k' c' p', s.sessions.get k' = some (c', p') → s.serverOpen k' = true →
        (s.proxies p').Holds s.docId k' ∨ (s.toServer k').head? = some .join ∧ t.Silent k' := by
  constructor
  · intro k' hk'
    refine ⟨(h.unused k' hk').1, hsilent k' (h.unused k' hk').2 ?_⟩
    rintro rfl
    cases hk.symm.trans hk'
  · intro k' c' p' hk' hopen
    by_cases he : k' = k
    · subst he
      cases hk.symm.trans hk'
      exact .inl hh
    · exact (h.opened k' c' p' hk' hopen).imp_right fun hfresh =>
        ⟨hfresh.1, hsilent k' hfresh.2 he⟩

/-- A member publishes. -/
lemma Wired.publish (h : s.Wired) {k : ConnectionId} {c : ι} {p : κ}
    (hk : s.sessions.get k = some (c, p)) (hh : (s.proxies p).Holds s.docId k)
    (changes : Changes) : (s.publish (.changes k s.docId changes)).Wired := by
  have hsilent : ∀ k', s.Silent k' → k' ≠ k →
      (s.publish (.changes k s.docId changes)).Silent k' := by
    intro k' hk' hne
    refine { hk' with author := fun p' d' changes' hm => ?_ }
    rcases List.mem_append.mp hm with hm | hm
    · exact hk'.author p' d' changes' hm
    · cases List.mem_singleton.mp hm
      exact hne rfl
  obtain ⟨hunused, hopened⟩ := h.silent_others hk hh hsilent
  refine { h with unused := hunused, topic := fun p' m hm => ?_, opened := hopened }
  rcases List.mem_append.mp hm with hm | hm
  · exact h.topic p' m hm
  · exact ⟨k, changes, List.mem_singleton.mp hm⟩

/-- An instance passes on to members what it has from the topic. -/
lemma Wired.passOn (h : s.Wired) (p : κ) (author : ConnectionId) (changes : Changes) :
    (s.post ((s.proxies p).onChangesOrAwarenessMessage
      (.changes author s.docId changes))).Wired := by
  refine h.post fun k m c p' hm hlive => ?_
  have hmember := ((DocService.mem_onChangesMessage (h.plain p).wf _ _ _ _ _).mp hm).1
  obtain ⟨-, c', hk⟩ := h.member p k hmember
  obtain ⟨rfl, rfl⟩ := hlive.unique hk
  exact hmember

lemma mem_pubsub_of_erase [DecidableEq κ] {p p' : κ} {m m' : ChangesPubsubMessage}
    (hm : m' ∈ Function.update s.pubsub p ((s.pubsub p).erase m) p') : m' ∈ s.pubsub p' := by
  by_cases he : p' = p
  · subst he
    rw [Function.update_self] at hm
    exact List.mem_of_mem_erase hm
  · rwa [Function.update_of_ne he] at hm

lemma gateway_changes [DecidableEq κ] (h : s.Wired) {k : ConnectionId} {p : κ}
    (hh : (s.proxies p).Holds s.docId k) (changes : Changes) :
    ∃ sent, s.gateway k p (.changes changes) =
        ((s.addCall k (.applyDiff changes k)).publish (.changes k s.docId changes)).post sent ∧
      ∀ k' m, (k', m) ∈ sent ↔
        (s.proxies p).Holds s.docId k' ∧ k' ≠ k ∧ m = .broadcastChanges s.docId changes := by
  obtain ⟨effects, happly, hpub, hcall, hsent⟩ :=
    DocService.applyChanges_of_holds (h.plain p).wf hh changes
  refine ⟨effects.sent, ?_, hsent⟩
  simp only [gateway, happly, hpub, hcall]
  rfl

/-- A member calls the actor. -/
lemma Wired.addCall (h : s.Wired) {k : ConnectionId} {c : ι} {p : κ}
    (hk : s.sessions.get k = some (c, p)) (hh : (s.proxies p).Holds s.docId k) (call : ActorCall) :
    (s.addCall k call).Wired := by
  have hsilent : ∀ k', s.Silent k' → k' ≠ k → (s.addCall k call).Silent k' := by
    intro k' hk' hne
    refine { hk' with calls := fun call' hm => ?_ }
    rcases List.mem_append.mp hm with hm | hm
    · exact hk'.calls call' hm
    · cases List.mem_singleton.mp hm
      exact hne rfl
  obtain ⟨hunused, hopened⟩ := h.silent_others hk hh hsilent
  exact { h with unused := hunused, opened := hopened }

/-- A member's queue moves on. -/
lemma Wired.popServer (h : s.Wired) {k : ConnectionId} {c : ι} {p : κ}
    (hk : s.sessions.get k = some (c, p)) (hh : (s.proxies p).Holds s.docId k)
    (rest : List ClientMessage) : (s.popServer k rest).Wired := by
  refine { h with
    unused := fun k' hk' => ⟨(h.unused k' hk').1, { (h.unused k' hk').2 with }⟩
    closed := fun k' hk' => ?_
    opened := fun k' c' p' hk' hopen => ?_ }
  · have hne : k' ≠ k := by
      rintro rfl
      cases (h.member p k' hh).1.symm.trans hk'
    exact (Function.update_of_ne hne _ _).trans (h.closed k' hk')
  · by_cases he : k' = k
    · subst he
      cases hk.symm.trans hk'
      exact .inl hh
    · refine (h.opened k' c' p' hk' hopen).imp_right fun hfresh => ⟨?_, { hfresh.2 with }⟩
      rw [← hfresh.1]
      exact congrArg List.head? (Function.update_of_ne he _ _)

/-- What the proxies and the actor do about calls and replies leaves the connections alone. -/
lemma Wired.of_silent (h : s.Wired) {t : Network ι κ Doc} (hdoc : t.docId = s.docId)
    (hclients : t.clients = s.clients) (hsessions : t.sessions = s.sessions)
    (hopen : t.serverOpen = s.serverOpen) (hserver : t.toServer = s.toServer)
    (hproxies : t.proxies = s.proxies) (hpubsub : ∀ p, ∀ m ∈ t.pubsub p, m ∈ s.pubsub p)
    (hsilent : ∀ k, s.Silent k → t.Silent k) : t.Wired where
  ids := by rw [hclients, hdoc]; exact h.ids
  socket := by rw [hclients, hsessions]; exact h.socket
  unused k hk := by
    rw [hsessions] at hk
    rw [hopen]
    exact ⟨(h.unused k hk).1, hsilent k (h.unused k hk).2⟩
  closed := by rw [hopen, hserver]; exact h.closed
  plain := by rw [hproxies]; exact h.plain
  topic p m hm := by rw [hdoc]; exact h.topic p m (hpubsub p m hm)
  member := by rw [hproxies, hdoc, hopen, hsessions]; exact h.member
  opened k c p hk hop := by
    rw [hsessions] at hk
    rw [hopen] at hop
    rw [hproxies, hdoc, hserver]
    exact (h.opened k c p hk hop).imp_right fun hfresh => ⟨hfresh.1, hsilent k hfresh.2⟩

/-- The instance takes the connection in and its queue moves on. -/
lemma Wired.join [DecidableEq κ] (h : s.Wired) {k : ConnectionId} {c : ι} {p : κ}
    (hk : s.sessions.get k = some (c, p)) (hopen : s.serverOpen k = true) :
    (s.withProxy p ((s.proxies p).joinToDoc k s.docId)).Wired ∧
      ((s.withProxy p ((s.proxies p).joinToDoc k s.docId)).proxies p).Holds s.docId k := by
  have hproxy : ∀ p' k', ((s.withProxy p ((s.proxies p).joinToDoc k s.docId)).proxies p').Holds
      s.docId k' ↔ (s.proxies p').Holds s.docId k' ∨ (p' = p ∧ k' = k) := by
    intro p' k'
    by_cases he : p' = p
    · subst he
      simp [withProxy, DocService.holds_joinToDoc (h.plain p').wf]
    · simp [withProxy, he]
  refine ⟨{ h with
    unused := fun k' hk' => ⟨(h.unused k' hk').1, { (h.unused k' hk').2 with }⟩
    plain := fun p' => ?_
    member := fun p' k' hh => ?_
    opened := fun k' c' p' hk' hopen' => ?_ }, (hproxy p k).mpr (.inr ⟨rfl, rfl⟩)⟩
  · by_cases he : p' = p
    · subst he
      simpa [withProxy] using (h.plain p').joinToDoc k s.docId
    · simpa [withProxy, he] using h.plain p'
  · rcases (hproxy p' k').mp hh with hold | ⟨rfl, rfl⟩
    · exact h.member p' k' hold
    · exact ⟨hopen, c, hk⟩
  · rcases h.opened k' c' p' hk' hopen' with hold | ⟨hhead, hquiet⟩
    · exact .inl ((hproxy p' k').mpr (.inl hold))
    · exact .inr ⟨hhead, { hquiet with }⟩

lemma Wired.handleDisconnect [DecidableEq κ] (h : s.Wired) {k : ConnectionId} {c : ι} {p : κ}
    (hk : s.sessions.get k = some (c, p)) : (s.handleDisconnect k p).Wired := by
  have hproxy : ∀ p' k', ((s.handleDisconnect k p).proxies p').Holds s.docId k' ↔
      (s.proxies p').Holds s.docId k' ∧ k' ≠ k := by
    intro p' k'
    by_cases he : p' = p
    · subst he
      simp [(h.plain p').holds_disconnect]
    · simp only [handleDisconnect_proxies, ne_eq, he, not_false_eq_true, Function.update_of_ne,
        iff_self_and]
      rintro hh rfl
      obtain ⟨-, c', hc'⟩ := h.member p' k' hh
      cases hk.symm.trans hc'
      exact he rfl
  refine { h with
    unused := fun k' hk' => ?_
    closed := fun k' hk' => ?_
    plain := fun p' => ?_
    member := fun p' k' hh => ?_
    opened := fun k' c' p' hk' hopen => ?_ }
  · have hne : k' ≠ k := by
      rintro rfl
      cases hk.symm.trans hk'
    refine ⟨?_, { (h.unused k' hk').2 with }⟩
    rw [handleDisconnect_serverOpen, Function.update_of_ne hne]
    exact (h.unused k' hk').1
  · rw [handleDisconnect_toServer]
    by_cases he : k' = k
    · subst he
      exact Function.update_self _ _ _
    · rw [handleDisconnect_serverOpen, Function.update_of_ne he] at hk'
      rw [Function.update_of_ne he]
      exact h.closed k' hk'
  · by_cases he : p' = p
    · subst he
      simpa using (h.plain p').disconnect k
    · simpa [he] using h.plain p'
  · obtain ⟨hold, hne⟩ := (hproxy p' k').mp hh
    obtain ⟨hopen, hsession⟩ := h.member p' k' hold
    refine ⟨?_, hsession⟩
    rw [handleDisconnect_serverOpen, Function.update_of_ne hne]
    exact hopen
  · by_cases he : k' = k
    · subst he
      simp at hopen
    · rw [handleDisconnect_serverOpen, Function.update_of_ne he] at hopen
      rcases h.opened k' c' p' hk' hopen with hold | ⟨hhead, hquiet⟩
      · exact .inl ((hproxy p' k').mpr ⟨hold, he⟩)
      · refine .inr ⟨?_, { hquiet with }⟩
        rw [handleDisconnect_toServer, Function.update_of_ne he]
        exact hhead

variable [DecidableEq ι]

lemma Silent.connect {k' : ConnectionId} (h : s.Silent k') (c : ι) (k : ConnectionId) (p : κ) :
    (s.connect c k p).Silent k' := by
  refine { h with unsynced := fun c' hc' => ?_ }
  rw [connect_clients] at hc' ⊢
  by_cases he : c' = c
  · subst he
    simp
  · rw [Function.update_of_ne he] at hc' ⊢
    exact h.unsynced c' hc'

lemma Wired.connect (h : s.Wired) {c : ι} {k : ConnectionId} (p : κ)
    (hk : s.sessions.get k = none) : (s.connect c k p).Wired := by
  have hget : ∀ k', k' ≠ k → (s.connect c k p).sessions.get k' = s.sessions.get k' :=
    fun k' hne => JsMap.get_set_ne _ _ hne
  have hopen : ∀ k', k' ≠ k → (s.connect c k p).serverOpen k' = s.serverOpen k' :=
    fun k' hne => Function.update_of_ne hne _ _
  have hserver : ∀ k', k' ≠ k → (s.connect c k p).toServer k' = s.toServer k' :=
    fun k' hne => Function.update_of_ne hne _ _
  have hne : ∀ k', s.sessions.get k' ≠ none → k' ≠ k := by
    rintro k' hsome rfl
    exact hsome hk
  refine ⟨fun c' => ?_, fun c' k' hk' => ?_, fun k' hk' => ?_, fun k' hk' => ?_, h.plain,
    h.topic, fun p' k' hh => ?_, fun k' c' p' hk' hopen' => ?_⟩
  · by_cases he : c' = c
    · subst he
      simpa using h.ids c'
    · simpa [he] using h.ids c'
  · rw [connect_clients] at hk'
    by_cases he : c' = c
    · subst he
      simp only [Function.update_self, Option.some.injEq] at hk'
      subst hk'
      exact ⟨p, by simp⟩
    · rw [Function.update_of_ne he] at hk'
      obtain ⟨p', hp'⟩ := h.socket c' k' hk'
      exact ⟨p', (hget k' (hne k' (by simp [hp']))).trans hp'⟩
  · have he : k' ≠ k := by
      rintro rfl
      simp at hk'
    rw [hget k' he] at hk'
    rw [hopen k' he]
    exact ⟨(h.unused k' hk').1, (h.unused k' hk').2.connect c k p⟩
  · have he : k' ≠ k := by
      rintro rfl
      simp at hk'
    rw [hopen k' he] at hk'
    rw [hserver k' he]
    exact h.closed k' hk'
  · obtain ⟨hopened, c', hc'⟩ := h.member p' k' hh
    have he := hne k' (by simp [hc'])
    exact ⟨(hopen k' he).trans hopened, c', (hget k' he).trans hc'⟩
  · by_cases he : k' = k
    · subst he
      exact .inr ⟨by simp, (h.unused k' hk).2.connect c k' p⟩
    · rw [hget k' he] at hk'
      rw [hopen k' he] at hopen'
      rw [hserver k' he]
      exact (h.opened k' c' p' hk' hopen').imp_right fun hfresh =>
        ⟨hfresh.1, hfresh.2.connect c k p⟩

lemma Silent.disconnect {k' : ConnectionId} (h : s.Silent k') (c : ι) (k : ConnectionId) :
    (s.disconnect c k).Silent k' := by
  refine { h with client := ?_, unsynced := fun c' hc' => ?_ }
  · rw [disconnect_toClient]
    by_cases he : k' = k
    · subst he
      simp
    · rw [Function.update_of_ne he]
      exact h.client
  · rw [disconnect_clients] at hc' ⊢
    by_cases he : c' = c
    · subst he
      simp
    · rw [Function.update_of_ne he] at hc' ⊢
      exact h.unsynced c' hc'

lemma Wired.disconnect (h : s.Wired) (c : ι) (k : ConnectionId) : (s.disconnect c k).Wired := by
  refine { h with
    ids := fun c' => ?_
    socket := fun c' k' hk' => ?_
    unused := fun k' hk' => ⟨(h.unused k' hk').1, (h.unused k' hk').2.disconnect c k⟩
    opened := fun k' c' p hk' hopen => (h.opened k' c' p hk' hopen).imp_right fun hfresh =>
      ⟨hfresh.1, hfresh.2.disconnect c k⟩ }
  · by_cases he : c' = c
    · subst he
      simpa using h.ids c'
    · simpa [he] using h.ids c'
  · rw [disconnect_clients] at hk'
    by_cases he : c' = c
    · subst he
      simp at hk'
    · rw [Function.update_of_ne he] at hk'
      exact h.socket c' k' hk'

variable [DecidableEq κ]

/-- What a step does to the network, in terms of the operations above. -/
inductive Outcome (y : Yjs Doc) (s : Network ι κ Doc) : NetworkAction ι κ → Network ι κ Doc → Prop
  | edited (c : ι) (update : Bytes) :
    Outcome y s (.edit c update)
      (s.advance c { s.clients c with container := ((s.clients c).container.edit y update).1 }
        ((s.clients c).container.edit y update).2)
  | synced (c : ι) :
    Outcome y s (.sync c)
      (s.advance c { s.clients c with container := ((s.clients c).container.sync y).1 }
        ((s.clients c).container.sync y).2)
  | timedOut (c : ι) :
    Outcome y s (.syncTimeout c)
      (s.advance c { s.clients c with container := (s.clients c).container.syncFailed } [])
  | connected (c : ι) (k : ConnectionId) (p : κ) (hsocket : (s.clients c).socket = none)
    (hk : s.sessions.get k = none) :
    Outcome y s (.connect c k p) (s.connect c k p)
  | disconnected (c : ι) (k : ConnectionId) (hsocket : (s.clients c).socket = some k) :
    Outcome y s (.disconnect c) (s.disconnect c k)
  | received (c : ι) (k : ConnectionId) (m : ServerMessage) (rest : List ServerMessage)
    (hsocket : (s.clients c).socket = some k) (hm : s.toClient k = m :: rest) :
    Outcome y s (.receive c)
      ((s.advance c (Client.onMessage y (s.clients c) m).1
        (Client.onMessage y (s.clients c) m).2).popClient k rest)
  | joined (c : ι) (k : ConnectionId) (p : κ) (rest : List ClientMessage)
    (hk : s.sessions.get k = some (c, p)) (hopen : s.serverOpen k = true)
    (hm : s.toServer k = .join :: rest) :
    Outcome y s (.handle k)
      (((s.withProxy p ((s.proxies p).joinToDoc k s.docId)).post
        [(k, .joinResponse s.docId .ok)]).popServer k rest)
  | changed (c : ι) (k : ConnectionId) (p : κ) (changes : Changes) (rest : List ClientMessage)
    (sent : List Sent) (hk : s.sessions.get k = some (c, p)) (hopen : s.serverOpen k = true)
    (hm : s.toServer k = .changes changes :: rest) (hh : (s.proxies p).Holds s.docId k)
    (hsent : ∀ k' m, (k', m) ∈ sent ↔
      (s.proxies p).Holds s.docId k' ∧ k' ≠ k ∧ m = .broadcastChanges s.docId changes) :
    Outcome y s (.handle k)
      ((((s.addCall k (.applyDiff changes k)).publish (.changes k s.docId changes)).post
        sent).popServer k rest)
  | called (c : ι) (k : ConnectionId) (p : κ) (m : ClientMessage) (call : ActorCall)
    (rest : List ClientMessage) (hk : s.sessions.get k = some (c, p))
    (hopen : s.serverOpen k = true) (hm : s.toServer k = m :: rest)
    (hh : (s.proxies p).Holds s.docId k)
    (hcall : (∃ vector, m = .syncStart vector ∧ call = .syncStart vector) ∨
      ∃ changes, m = .syncComplete changes ∧ call = .syncComplete changes k) :
    Outcome y s (.handle k) ((s.addCall k call).popServer k rest)
  | left (c : ι) (k : ConnectionId) (p : κ) (hk : s.sessions.get k = some (c, p))
    (hopen : s.serverOpen k = true) :
    Outcome y s (.handleDisconnect k) (s.handleDisconnect k p)
  | delivered (p : κ) (author : ConnectionId) (changes : Changes)
    (hm : .changes author s.docId changes ∈ s.pubsub p) :
    Outcome y s (.deliver p (.changes author s.docId changes))
      { s.post ((s.proxies p).onChangesOrAwarenessMessage (.changes author s.docId changes)) with
        pubsub := Function.update s.pubsub p
          ((s.pubsub p).erase (.changes author s.docId changes)) }
  | invoked (k : ConnectionId) (call : ActorCall) (hcall : (k, call) ∈ s.calls) :
    Outcome y s (.invoke k call)
      ({ s with calls := s.calls.erase (k, call) }.actorCalled k call (s.actor.invoke y call).1
        (s.actor.invoke y call).2)
  | resumed (k : ConnectionId) (call : ActorCall) (actor : DocHandler Doc) (reply : ActorReply)
    (hserving : s.serving = some (k, call)) (hdoc : actor.ydoc = s.actor.ydoc)
    (hreply : ∀ vector answer, reply ≠ .syncStart vector answer) :
    Outcome y s .resume
      { s with actor := actor, serving := none, replies := s.replies ++ [(k, call, reply)] }
  | replied (k : ConnectionId) (call : ActorCall) (reply : ActorReply)
    (hreply : (k, call, reply) ∈ s.replies) :
    Outcome y s (.reply k call reply)
      ({ s with replies := s.replies.erase (k, call, reply) }.post
        ((gatewayReply s.docId call reply).toList.map (k, ·)))
  | expired (userId : UserId) (actor : DocHandler Doc) (hdoc : actor.ydoc = s.actor.ydoc) :
    Outcome y s (.syncAwaitExpired userId) { s with actor := actor }

theorem step_cases (h : s.Wired) {s' : Network ι κ Doc} {a : NetworkAction ι κ}
    (hs : s.step y a = some s') : Outcome y s a s' := by
  cases a with
  | edit c update =>
    cases hs
    exact .edited c update
  | sync c =>
    cases hs
    exact .synced c
  | syncTimeout c =>
    cases hs
    exact .timedOut c
  | connect c k p =>
    simp only [step] at hs
    split at hs
    · rename_i hnew
      cases hs
      exact .connected c k p hnew.1 hnew.2
    · cases hs
  | disconnect c =>
    simp only [step] at hs
    split at hs
    · cases hs
    · rename_i k hsocket
      cases hs
      exact .disconnected c k hsocket
  | receive c =>
    simp only [step] at hs
    split at hs
    · cases hs
    · rename_i k hsocket
      split at hs
      · cases hs
      · rename_i m rest hm
        cases hs
        exact .received c k m rest hsocket hm
  | handle k =>
    simp only [step] at hs
    split at hs
    · rename_i c p m rest hk hm
      split at hs
      · rename_i hopen
        cases hs
        have hholds : m ≠ .join → (s.proxies p).Holds s.docId k := by
          intro hne
          refine (h.opened k c p hk hopen).resolve_right fun hfresh => hne ?_
          rw [hm] at hfresh
          exact Option.some.inj hfresh.1
        cases m with
        | join => exact .joined c k p rest hk hopen hm
        | changes changes =>
          have hh := hholds (by simp)
          obtain ⟨sent, hgateway, hsent⟩ := gateway_changes h hh changes
          rw [hgateway]
          exact .changed c k p changes rest sent hk hopen hm hh hsent
        | syncStart vector =>
          exact .called c k p _ _ rest hk hopen hm (hholds (by simp)) (.inl ⟨vector, rfl, rfl⟩)
        | syncComplete changes =>
          exact .called c k p _ _ rest hk hopen hm (hholds (by simp)) (.inr ⟨changes, rfl, rfl⟩)
      · cases hs
    · cases hs
  | handleDisconnect k =>
    simp only [step] at hs
    split at hs
    · cases hs
    · rename_i c p hk
      split at hs
      · rename_i hopen
        cases hs
        exact .left c k p hk hopen
      · cases hs
  | deliver p m =>
    simp only [step] at hs
    split at hs
    · rename_i hm
      cases hs
      obtain ⟨author, changes, rfl⟩ := h.topic p m hm
      exact .delivered p author changes hm
    · cases hs
  | invoke k call =>
    simp only [step] at hs
    split at hs
    · rename_i hcall
      cases hs
      exact .invoked k call hcall.1
    · cases hs
  | resume =>
    simp only [step] at hs
    split at hs
    · rename_i w k call hw hserving
      obtain ⟨⟨actor, reply⟩, hresume, rfl⟩ := Option.map_eq_some_iff.mp hs
      obtain ⟨hdoc, hreply⟩ := DocHandler.resume_spec hresume
      exact .resumed k call actor reply hserving hdoc hreply
    · cases hs
  | reply k call reply =>
    simp only [step] at hs
    split at hs
    · rename_i hreply
      cases hs
      exact .replied k call reply hreply
    · cases hs
  | syncAwaitExpired userId =>
    simp only [step, Option.map_eq_some_iff] at hs
    obtain ⟨actor, hexp, rfl⟩ := hs
    refine .expired userId actor ?_
    unfold DocHandler.syncAwaitExpired at hexp
    split at hexp
    · cases hexp
      rfl
    · cases hexp

theorem wired_step (h : s.Wired) {s' : Network ι κ Doc} {a : NetworkAction ι κ}
    (hs : s.step y a = some s') : s'.Wired := by
  cases step_cases h hs with
  | edited c update => exact h.advance_of_synced c _ rfl
  | synced c => exact h.advance_of_synced c _ (by simp)
  | timedOut c => exact h.advance_of_synced c _ rfl
  | connected c k p hsocket hk => exact h.connect p hk
  | disconnected c k hsocket => exact h.disconnect c k
  | received c k m rest hsocket hm =>
    have htrace : ¬s.Silent k := by
      intro hsilent
      rw [hsilent.client] at hm
      cases hm
    refine (h.advance c _ (by simp) (by simpa using h.ids c) fun _ k' hk' => ?_).popClient (m := m) ?_
    · rw [onMessage_socket, hsocket] at hk'
      cases hk'
      exact htrace
    · rw [advance_eq]
      exact hm
  | joined c k p rest hk hopen hm =>
    obtain ⟨hjoin, hh⟩ := h.join hk hopen
    refine (hjoin.post fun k' m c' p' hm' hlive => ?_).popServer hk hh rest
    cases List.mem_singleton.mp hm'
    obtain ⟨rfl, rfl⟩ := hlive.unique hk
    exact hh
  | changed c k p changes rest sent hk hopen hm hh hsent =>
    have hpub := (h.addCall hk hh (.applyDiff changes k)).publish hk hh changes
    refine (hpub.post fun k' m c' p' hm' hlive => ?_).popServer hk hh rest
    have hmember := ((hsent k' m).mp hm').1
    obtain ⟨-, c'', hk''⟩ := h.member p k' hmember
    obtain ⟨rfl, rfl⟩ := hlive.unique hk''
    exact hmember
  | called c k p m call rest hk hopen hm hh hcall =>
    exact (h.addCall hk hh call).popServer hk hh rest
  | left c k p hk hopen => exact h.handleDisconnect hk
  | delivered p author changes hm =>
    have hpost := h.passOn p author changes
    have hpubsub : ∀ p', ∀ m ∈ Function.update s.pubsub p
        ((s.pubsub p).erase (.changes author s.docId changes)) p', m ∈ s.pubsub p' :=
      fun p' m hm' => mem_pubsub_of_erase hm'
    exact hpost.of_silent rfl rfl rfl rfl rfl rfl hpubsub fun k hk =>
      { hk with author := fun p' d changes' hm' => hk.author p' d changes' (hpubsub p' _ hm') }
  | invoked k call hcall =>
    have hne : ∀ k', s.Silent k' → k' ≠ k := by
      rintro k' hk' rfl
      exact hk'.calls call hcall
    have hcalls : ∀ k', s.Silent k' → ∀ call', (k', call') ∉ s.calls.erase (k, call) :=
      fun k' hk' call' hm => hk'.calls call' (List.mem_of_mem_erase hm)
    cases hreply : (s.actor.invoke y call).2 with
    | none =>
      refine h.of_silent rfl rfl rfl rfl rfl rfl (fun _ _ hm => hm) fun k' hk' => ?_
      refine { hk' with calls := hcalls k' hk', serving := fun call' hserving => ?_ }
      cases hserving
      exact hne k hk' rfl
    | some reply =>
      refine h.of_silent rfl rfl rfl rfl rfl rfl (fun _ _ hm => hm) fun k' hk' => ?_
      refine { hk' with calls := hcalls k' hk', replies := fun call' reply' hm => ?_ }
      rcases List.mem_append.mp hm with hm | hm
      · exact hk'.replies call' reply' hm
      · cases List.mem_singleton.mp hm
        exact hne k hk' rfl
  | resumed k call actor reply hserving hdoc hreply =>
    refine h.of_silent rfl rfl rfl rfl rfl rfl (fun _ _ hm => hm) fun k' hk' => ?_
    refine { hk' with serving := by simp, replies := fun call' reply' hm => ?_ }
    rcases List.mem_append.mp hm with hm | hm
    · exact hk'.replies call' reply' hm
    · cases List.mem_singleton.mp hm
      exact hk'.serving call hserving
  | replied k call reply hreply =>
    have herase : ({ s with replies := s.replies.erase (k, call, reply) } : Network ι κ Doc).Wired :=
      h.of_silent rfl rfl rfl rfl rfl rfl (fun _ _ hm => hm) fun k' hk' =>
        { hk' with
          replies := fun call' reply' hm => hk'.replies call' reply' (List.mem_of_mem_erase hm) }
    refine herase.post fun k' m c p hm hlive => ?_
    obtain ⟨m', -, he⟩ := List.mem_map.mp hm
    cases he
    exact h.holds hlive.session hlive.serverOpen fun hsilent => hsilent.replies call reply hreply
  | expired userId actor hdoc =>
    exact h.of_silent rfl rfl rfl rfl rfl rfl (fun _ _ hm => hm) fun k hk => { hk with }

end Network

end AlaFois
