import AlaFois.Lib.Stepper
import AlaFois.Model.WsConnection

/-!
# The token of a reconnection

Every socket is opened with the token of the configuration. A token that has been put in force
since is used only as far as it is the same one.
-/

namespace AlaFois

open Stepper

/-- The token that a connection with this configuration presents. -/
def WsConnectionConfig.presented (config : WsConnectionConfig) : Option String :=
  config.token.filter (· ≠ "")

/-- The URL tells which token is presented. -/
lemma connectUrl_inj {url : String} {token token' : Option String} :
    connectUrl ⟨url, token⟩ = connectUrl ⟨url, token'⟩ ↔
      WsConnectionConfig.presented ⟨url, token⟩ = WsConnectionConfig.presented ⟨url, token'⟩ := by
  have hlonger (t : String) : url ++ ("?token=" ++ t) ≠ url := by
    intro he
    have hlength := congrArg String.length he
    simp only [String.length_append] at hlength
    have hpos : 0 < "?token=".length := by decide
    omega
  have hcases (token : Option String) :
      (connectUrl ⟨url, token⟩ = url ∧ WsConnectionConfig.presented ⟨url, token⟩ = none) ∨
        ∃ t, connectUrl ⟨url, token⟩ = url ++ ("?token=" ++ t) ∧
          WsConnectionConfig.presented ⟨url, token⟩ = some t := by
    cases token with
    | none => exact .inl ⟨rfl, rfl⟩
    | some t =>
      by_cases ht : t = ""
      · exact .inl (by simp [connectUrl, WsConnectionConfig.presented, ht])
      · exact .inr ⟨t, by simp [connectUrl, WsConnectionConfig.presented, ht]⟩
  rcases hcases token with ⟨hurl, hnone⟩ | ⟨t, hurl, hsome⟩
  · rcases hcases token' with ⟨hurl', hnone'⟩ | ⟨t', hurl', hsome'⟩
    · simp [hurl, hnone, hurl', hnone']
    · simp [hurl, hnone, hurl', hsome', (hlonger t').symm]
  · rcases hcases token' with ⟨hurl', hnone'⟩ | ⟨t', hurl', hsome'⟩
    · simp [hurl, hsome, hurl', hnone', hlonger t]
    · simp [hurl, hsome, hurl', hsome', String.append_right_inj]

/-- The actions that open a socket. -/
def SocketAction.opens : SocketAction → Bool
  | .connect => true
  | .retry _ => true
  | .close _ code => code ≠ wsCloseStatusNormal
  | _ => false

namespace ClientSockets

/-- Every socket after the first was opened with the token that was in force. -/
def OpenedInForce (s : ClientSockets) : Prop :=
  ∀ socket ∈ s.opened.tail, socket.url = connectUrl ⟨s.config.url, socket.inForce⟩

instance (s : ClientSockets) : Decidable s.OpenedInForce :=
  inferInstanceAs (Decidable (∀ _ ∈ _, _))

/-- When a further socket is opened, the token in force is the configured one. -/
def OpenOk (s : ClientSockets) (a : SocketAction) : Prop :=
  a.opens = true → s.opened ≠ [] →
    WsConnectionConfig.presented ⟨s.config.url, s.inForce⟩ = s.config.presented

variable {s t : ClientSockets}

/-- What an action does to the sockets that have been opened. -/
lemma opened_step {a : SocketAction} (h : s.step a = some t) : t.config = s.config ∧
    t.opened = if a.opens then s.opened ++ [⟨connectUrl s.config, s.inForce⟩] else s.opened := by
  cases a with
  | connect =>
    cases h
    exact ⟨rfl, rfl⟩
  | connectResponse n status =>
    simp only [step, Option.ite_none_right_eq_some, Option.some.injEq] at h
    obtain ⟨-, rfl⟩ := h
    exact ⟨rfl, rfl⟩
  | error n =>
    simp only [step, Option.ite_none_right_eq_some, Option.some.injEq] at h
    obtain ⟨-, rfl⟩ := h
    exact ⟨rfl, rfl⟩
  | retry n =>
    simp only [step, Option.ite_none_right_eq_some, Option.some.injEq] at h
    obtain ⟨-, rfl⟩ := h
    exact ⟨rfl, rfl⟩
  | close n code =>
    simp only [step, Option.ite_none_right_eq_some] at h
    obtain ⟨-, h⟩ := h
    by_cases hcode : code = wsCloseStatusNormal
    · simp only [hcode, ↓reduceIte, Option.some.injEq] at h
      subst h
      simp [SocketAction.opens, hcode, setState]
    · simp only [hcode, ↓reduceIte, Option.some.injEq] at h
      subst h
      simp [SocketAction.opens, hcode, setState, connectFn]
  | setToken token =>
    simp only [step] at h
    split at h
    · cases h
      exact ⟨rfl, rfl⟩
    · cases h
      exact ⟨rfl, rfl⟩
  | setTokenResponse token status =>
    simp only [step, Option.ite_none_right_eq_some, Option.some.injEq] at h
    obtain ⟨-, rfl⟩ := h
    exact ⟨rfl, rfl⟩
  | updateToken token =>
    simp only [step, Option.ite_none_right_eq_some, Option.some.injEq] at h
    obtain ⟨-, rfl⟩ := h
    exact ⟨rfl, rfl⟩
  | dispose =>
    simp only [step] at h
    split at h <;> cases h <;> exact ⟨rfl, rfl⟩

lemma openedInForce_step (hs : s.OpenedInForce) {a : SocketAction} (h : s.step a = some t) :
    t.OpenedInForce ↔ s.OpenOk a := by
  obtain ⟨hconfig, hopened⟩ := opened_step h
  unfold OpenedInForce OpenOk
  rw [hconfig, hopened]
  cases hopens : a.opens with
  | false => exact iff_of_true hs (by simp)
  | true =>
    cases hfirst : s.opened with
    | nil => simp
    | cons first rest =>
      have hrest : ∀ socket ∈ rest, socket.url = connectUrl ⟨s.config.url, socket.inForce⟩ := by
        intro socket hsocket
        apply hs
        rw [hfirst]
        exact hsocket
      have hlast : connectUrl s.config = connectUrl ⟨s.config.url, s.inForce⟩ ↔
          WsConnectionConfig.presented ⟨s.config.url, s.inForce⟩ = s.config.presented := by
        rw [eq_comm]
        exact connectUrl_inj
      rw [← hlast]
      constructor
      · intro hall _ _
        exact hall ⟨connectUrl s.config, s.inForce⟩ (by simp)
      · intro hurl socket hsocket
        rcases List.mem_append.mp hsocket with hold | hnew
        · exact hrest socket hold
        · cases List.mem_singleton.mp hnew
          exact hurl rfl (by simp)

/-- Every socket after the first is opened with the token that is in force, throughout a run,
exactly when none is opened while another token than the configured one is in force. -/
theorem opened_in_force_iff (config : WsConnectionConfig) (as : List SocketAction) :
    (∀ bs, bs <+: as → ∀ s, run step (init config) bs = some s → s.OpenedInForce) ↔
      Guarded step OpenOk (init config) as :=
  invariant_iff_guarded (fun _ => True) OpenedInForce (fun _ _ _ _ _ => trivial)
    (fun _ _ _ _ hs h => openedInForce_step hs h) as trivial (by simp [OpenedInForce, init])

/-- A token was replaced before the connection dropped. -/
theorem reopened_with_replaced_token :
    ∃ s, run step (init ⟨"wss://host", some "old"⟩)
        [.connect, .connectResponse 0 .ok, .updateToken "new", .close 0 1006] = some s ∧
      s.opened = [⟨"wss://host?token=old", some "old"⟩, ⟨"wss://host?token=old", some "new"⟩] ∧
      ¬s.OpenedInForce := by
  refine ⟨_, rfl, ?_, ?_⟩
  · decide
  · decide

end ClientSockets

end AlaFois
