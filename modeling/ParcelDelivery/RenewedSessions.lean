import ParcelDelivery.System

/-!
# Sessions that end unless they are renewed

What sessions are for, without tokens: a holder opens a session of a user, it ends after a lifetime,
and each renewal lets it run for another one. Who renews is told the user of the session, as long as
there is one. The holder can close it, and all sessions of a user can be closed together. So there is
a user exactly where a session has been opened or renewed within the lifetime and not been ended
since (`user_iff_history`).
-/

namespace RenewedSessions

open TransitionSystem

universe u v

/-- The sessions: of whom, and the instant at which they end. -/
structure Sessions (B : Type u) (U : Type v) : Type (max u v) where
  opened : B → Option (U × ℕ)
  now : ℕ

/-- What happens to sessions. -/
inductive Event (B : Type u) (U : Type v) : Type (max u v) where
  | pass (time : ℕ)
  /-- the holder has shown to be the user -/
  | opened (b : B) (u : U)
  /-- a renewal, with what it is answered -/
  | renewed (b : B) (answer : Option U)
  | closed (b : B)
  /-- by way of this holder -/
  | closedAll (b : B) (u : U)
  deriving DecidableEq

variable {B : Type u} {U : Type v} [DecidableEq B] [DecidableEq U]

/-- The user of a session that has not ended. -/
def Sessions.user (s : Sessions B U) (b : B) : Option U :=
  (s.opened b).bind fun (u, deadline) => if s.now < deadline then some u else none

/-- The session of a holder is replaced. -/
def Sessions.put (s : Sessions B U) (b : B) (session : Option (U × ℕ)) : Sessions B U :=
  { s with opened b' := if b' = b then session else s.opened b' }

/-- Sessions of a given lifetime; a renewal is only possible with its true answer. -/
def system (lifetime : ℕ) : System (Sessions B U) (Event B U) where
  step s
    | .pass time => some { s with now := s.now + time }
    | .opened b u => some (s.put b (some (u, s.now + lifetime)))
    | .renewed b answer =>
      if answer = s.user b then
        some (match answer with
          | some u => s.put b (some (u, s.now + lifetime))
          | none => s)
      else none
    | .closed b => some (s.put b none)
    | .closedAll b u => some { s with
        opened b' := if b' = b ∨ (s.opened b').map Prod.fst = some u then none else s.opened b' }

section Users

variable {s : Sessions B U} {b : B} {u : U}

omit [DecidableEq B] [DecidableEq U] in
/-- There is a user as long as the session runs. -/
theorem user_eq_some : s.user b = some u ↔ ∃ deadline, s.opened b = some (u, deadline) ∧
    s.now < deadline := by
  rw [Sessions.user]
  rcases s.opened b with _ | ⟨u', deadline⟩
  · simp
  · by_cases hlt : s.now < deadline
    · simp [hlt]
    · simp [hlt]

variable {lifetime : ℕ}

/-- A session is renewed. -/
theorem step_renewed_some (h : s.user b = some u) :
    (system lifetime).step s (.renewed b (some u)) =
      some (s.put b (some (u, s.now + lifetime))) := by
  change (if some u = s.user b then _ else none) = _
  rw [if_pos h.symm]

/-- Without a session nothing is renewed. -/
theorem step_renewed_none (h : s.user b = none) :
    (system lifetime).step s (.renewed b none) = some s := by
  change (if none = s.user b then _ else none) = _
  rw [if_pos h.symm]

/-- Who renews is told the user of the session. -/
theorem answer_of_renewed {s' : Sessions B U} {answer : Option U}
    (h : (system lifetime).step s (.renewed b answer) = some s') : answer = s.user b := by
  change (if answer = s.user b then _ else none) = _ at h
  split at h
  · next hanswer => exact hanswer
  · cases h

end Users

/-! ## Sessions by their history -/

namespace Event

/-- The event gives the holder a session of the user. -/
def Gives (e : Event B U) (b : B) (u : U) : Prop := e = opened b u ∨ e = renewed b (some u)

/-- The event ends a session of the holder with the user, or gives the holder another one. -/
def Ends (b : B) (u : U) : Event B U → Prop
  | pass _ => False
  | opened b' _ => b' = b
  | renewed b' answer => b' = b ∧ answer.isSome = true
  | closed b' => b' = b
  | closedAll b' u' => b' = b ∨ u' = u

/-- The time that an event takes. -/
def time : Event B U → ℕ
  | pass t => t
  | _ => 0

end Event

/-- The time that events take. -/
def elapsed (events : List (Event B U)) : ℕ := events.foldr (fun e t => e.time + t) 0

section History

variable {s s' : Sessions B U} {b : B} {u : U} {deadline lifetime : ℕ} {e : Event B U}

omit [DecidableEq B] [DecidableEq U] in
theorem elapsed_concat (events : List (Event B U)) :
    elapsed (events ++ [e]) = elapsed events + e.time := by
  induction events with
  | nil => exact Nat.add_comm _ _
  | cons e' events ih =>
    change e'.time + elapsed (events ++ [e]) = e'.time + elapsed events + e.time
    rw [ih, Nat.add_assoc]

omit [DecidableEq U] in
theorem put_opened (s : Sessions B U) (session : Option (U × ℕ)) (b' : B) :
    (s.put b session).opened b' = if b' = b then session else s.opened b' := rfl

/-- The clock goes as the events say. -/
theorem now_of_step (h : (system lifetime).step s e = some s') : s'.now = s.now + e.time := by
  cases e with
  | pass | opened _ _ | closed _ | closedAll _ _ =>
    obtain rfl := Option.some.inj h
    rfl
  | renewed b answer =>
    change (if answer = s.user b then _ else none) = _ at h
    split at h
    · obtain rfl := Option.some.inj h
      cases answer with
      | none => rfl
      | some u => rfl
    · cases h

omit [DecidableEq U] in
/-- A session that is put there. -/
theorem opened_put {b' : B} {u' : U} {d : ℕ} :
    (s.put b' (some (u', d))).opened b = some (u, deadline) ↔
      (b' = b ∧ u' = u) ∧ deadline = d ∨ s.opened b = some (u, deadline) ∧ b' ≠ b := by
  rw [put_opened]
  by_cases hb : b = b'
  · subst hb
    simp [eq_comm]
  · simp [hb, Ne.symm hb]

/-- **What an event makes of a session**: it is given by it, or it was there and is not ended. -/
theorem opened_of_step (h : (system lifetime).step s e = some s') :
    s'.opened b = some (u, deadline) ↔
      e.Gives b u ∧ deadline = s.now + lifetime ∨
        s.opened b = some (u, deadline) ∧ ¬e.Ends b u := by
  cases e with
  | pass time =>
    obtain rfl := Option.some.inj h
    simp [Event.Gives, Event.Ends]
  | opened b' u' =>
    obtain rfl := Option.some.inj h
    simpa [Event.Gives, Event.Ends] using opened_put
  | renewed b' answer =>
    change (if answer = s.user b' then _ else none) = _ at h
    split at h
    · obtain rfl := Option.some.inj h
      cases answer with
      | none => simp [Event.Gives, Event.Ends]
      | some u' => simpa [Event.Gives, Event.Ends] using opened_put
    · cases h
  | closed b' =>
    obtain rfl := Option.some.inj h
    rw [put_opened]
    by_cases hb : b = b'
    · simp [Event.Gives, Event.Ends, hb]
    · simp [Event.Gives, Event.Ends, hb, Ne.symm hb]
  | closedAll b' u' =>
    obtain rfl := Option.some.inj h
    simp only [Event.Gives, Event.Ends, reduceCtorEq, or_self, false_and, false_or]
    by_cases hb : b = b'
    · simp [hb]
    · rcases hs : s.opened b with _ | ⟨u₀, d⟩
      · simp
      · by_cases hu : u₀ = u'
        · subst hu
          simp only [Option.map_some, or_true, if_true, reduceCtorEq, false_iff]
          rintro ⟨heq, hnot⟩
          exact hnot (Or.inr (congrArg Prod.fst (Option.some.inj heq)))
        · simp only [hb, Option.map_some, Option.some.injEq, hu, or_self, if_false, iff_self_and]
          rintro heq (hb' | hu')
          · exact hb hb'.symm
          · exact hu ((congrArg Prod.fst heq).trans hu'.symm)

/-- **Sessions by their history**: a holder has a session of a user exactly where an event has given
it and none has ended it since. -/
theorem opened_iff {events : List (Event B U)} (b : B) (u : U) (deadline : ℕ) (hstart : ∀ b, s.opened b = none)
    (hrun : (system lifetime).run s events = some s') :
    s'.now = s.now + elapsed events ∧
      (s'.opened b = some (u, deadline) ↔ ∃ before e after, events = before ++ e :: after ∧
        e.Gives b u ∧ deadline = s.now + elapsed before + lifetime ∧
          ∀ e' ∈ after, ¬e'.Ends b u) := by
  refine System.run_history (P := fun events s' => s'.now = s.now + elapsed events ∧
    (s'.opened b = some (u, deadline) ↔ ∃ before e after, events = before ++ e :: after ∧
      e.Gives b u ∧ deadline = s.now + elapsed before + lifetime ∧ ∀ e' ∈ after, ¬e'.Ends b u))
    ?_ ?_ hrun
  · refine ⟨rfl, ?_⟩
    rw [hstart b]
    simp
  · rintro events s₁ e s₂ - ⟨hnow, hopened⟩ hstep
    refine ⟨?_, ?_⟩
    · rw [now_of_step hstep, hnow, elapsed_concat, Nat.add_assoc]
    rw [opened_of_step hstep, hopened, hnow]
    refine ⟨?_, ?_⟩
    · rintro (⟨hgives, hdeadline⟩ | ⟨⟨before, e₀, after, rfl, hgives, hdeadline, hkept⟩, hnot⟩)
      · exact ⟨events, e, [], rfl, hgives, hdeadline, nofun⟩
      · refine ⟨before, e₀, after ++ [e], by simp, hgives, hdeadline, fun e' he' => ?_⟩
        rcases List.mem_append.mp he' with he' | he'
        · exact hkept e' he'
        · rw [List.mem_singleton.mp he']
          exact hnot
    · rintro ⟨before, e₀, after, hsplit, hgives, hdeadline, hkept⟩
      rcases List.eq_nil_or_concat after with rfl | ⟨after, e', rfl⟩
      · obtain ⟨rfl, hlast⟩ := List.append_inj' hsplit rfl
        cases hlast
        exact Or.inl ⟨hgives, hdeadline⟩
      · rw [List.concat_eq_append, ← List.cons_append, ← List.append_assoc] at hsplit
        obtain ⟨rfl, hlast⟩ := List.append_inj' hsplit rfl
        cases hlast
        refine Or.inr ⟨⟨before, e₀, after, rfl, hgives, hdeadline, fun e' he' => hkept e' ?_⟩, ?_⟩
        · rw [List.concat_eq_append]
          exact List.mem_append_left _ he'
        · refine hkept e ?_
          rw [List.concat_eq_append]
          exact List.mem_append_right _ (List.mem_singleton_self e)

/-- **Who has a session**: a user of a holder has come or was renewed within the lifetime, and no
event has ended the session since. -/
theorem user_iff_history {events : List (Event B U)} (hstart : ∀ b, s.opened b = none)
    (hrun : (system lifetime).run s events = some s') :
    s'.user b = some u ↔ ∃ before e after, events = before ++ e :: after ∧ e.Gives b u ∧
      elapsed after < lifetime ∧ ∀ e' ∈ after, ¬e'.Ends b u := by
  have helapsed : ∀ {before after : List (Event B U)} {e : Event B U}, e.Gives b u →
      elapsed (before ++ e :: after) = elapsed before + elapsed after := by
    intro before after e hgives
    have htime : e.time = 0 := by
      rcases hgives with rfl | rfl
      · rfl
      · rfl
    induction before with
    | nil =>
      change e.time + elapsed after = 0 + elapsed after
      rw [htime]
    | cons e' before ih =>
      change e'.time + elapsed (before ++ e :: after) = e'.time + elapsed before + elapsed after
      rw [ih, Nat.add_assoc]
  rw [user_eq_some]
  refine ⟨?_, ?_⟩
  · rintro ⟨deadline, hopened, hlt⟩
    obtain ⟨hnow, hiff⟩ := opened_iff b u deadline hstart hrun
    obtain ⟨before, e, after, rfl, hgives, rfl, hkept⟩ := hiff.mp hopened
    rw [hnow, helapsed hgives] at hlt
    exact ⟨before, e, after, rfl, hgives, by omega, hkept⟩
  · rintro ⟨before, e, after, rfl, hgives, hlt, hkept⟩
    obtain ⟨hnow, hiff⟩ := opened_iff b u (s.now + elapsed before + lifetime) hstart hrun
    refine ⟨_, hiff.mpr ⟨before, e, after, rfl, hgives, rfl, hkept⟩, ?_⟩
    rw [hnow, helapsed hgives]
    omega

end History

end RenewedSessions
