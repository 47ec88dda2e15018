/-
  What a request does to the limits and the windows of the volatile store.

  Limits change only when they are set (`limit_ask`), and the window of a
  tenant only when one of its jobs is counted (`window_ask`).  Who is told that
  one more job may run has fewer jobs counted than the limit permits, and no
  more of them in processing (`admits_of_canProcess`).
-/
import JobQueue.Proofs.Store.Step

namespace JobQueue.Volatile

/-- The limit that holds for a tenant. -/
def limit (s : Volatile) (rules : Rules) (t : Tenant) : RateLimit :=
  (s.limits.get? t).getD rules.limit

/-- The jobs of a tenant that count at `now`, if the age of their window is representable. -/
def counted? (s : Volatile) (now : Millis) (t : Tenant) : Option Int64 :=
  match s.windows.get? t with
  | none => some 0
  | some w => w.counted? now

section
variable {s : Volatile}

/-! ## Poisoned stores -/

theorem ask_of_poisoned (hp : s.poisoned = true) (rules : Rules) (now : Millis) (r : Request) :
    (ask rules now r s).2 = s := by
  have hold : ∀ {α : Type} (run : Volatile → Except Failure (α × Volatile)), (s.hold run).2 = s := by
    intro α run
    rw [Volatile.hold, if_pos hp]
  cases r with
  | stats queue =>
    simp only [ask, stats]
    split
    · rfl
    · exact hold _
  | close => rfl
  | _ => exact hold _

theorem healthy_of_ask {rules : Rules} {now : Millis} {r : Request}
    (h : (ask rules now r s).2.poisoned = false) : s.poisoned = false := by
  cases hp : s.poisoned with
  | false => rfl
  | true => rw [ask_of_poisoned hp, hp] at h; cases h

/-- An operation that overflows while it holds the store poisons it. -/
theorem hold_overflow {α : Type} {run : Volatile → Except Failure (α × Volatile)}
    (h : (s.hold run).1 = .error .overflow) : (s.hold run).2.poisoned = true := by
  rcases hold_cases (Prod.mk.eta (p := s.hold run)).symm with ⟨v, -, -, ha⟩ | ⟨-, -, -, hs⟩ | ⟨e, ha, -⟩
  · rw [ha] at h; cases h
  · rw [hs]
  · rw [ha] at h; cases h

/-! ## What stays -/

/-- An operation that holds the store keeps what its success keeps. -/
theorem hold_keeps {α β : Type} {f : Volatile → β} {run : Volatile → Except Failure (α × Volatile)}
    (hf : f { s with poisoned := true } = f s) (hr : ∀ v t, run s = .ok (v, t) → f t = f s) :
    f (s.hold run).2 = f s := by
  rcases hold_cases (Prod.mk.eta (p := s.hold run)).symm with ⟨v, -, hv, -⟩ | ⟨-, -, -, hs⟩ | ⟨e, -, hs⟩
  · exact hr v _ hv
  · rw [hs, hf]
  · rw [hs]

/-- Only two requests are about limits and windows. -/
theorem rates_ask (rules : Rules) (now : Millis) {r : Request} (hr : ∀ t, r ≠ .record t)
    (hl : ∀ t l, r ≠ .setLimit t l) :
    (ask rules now r s).2.windows = s.windows ∧ (ask rules now r s).2.limits = s.limits := by
  have keep : ∀ {α : Type} {run : Volatile → Except Failure (α × Volatile)},
      (∀ v t, run s = .ok (v, t) → (t.windows, t.limits) = (s.windows, s.limits)) →
      (s.hold run).2.windows = s.windows ∧ (s.hold run).2.limits = s.limits := by
    intro α run h
    exact Prod.mk.inj (hold_keeps (f := fun s => (s.windows, s.limits)) rfl h)
  cases r with
  | record t => exact absurd rfl (hr t)
  | setLimit t l => exact absurd rfl (hl t l)
  | close => exact ⟨rfl, rfl⟩
  | enqueue id sub =>
    refine keep fun v t hv => ?_
    obtain ⟨-, rfl⟩ := Prod.mk.inj (Except.ok.inj hv)
    rfl
  | dequeue worker queues =>
    refine keep fun v t hv => ?_
    split at hv
    · obtain ⟨-, rfl⟩ := Prod.mk.inj (Except.ok.inj hv)
      rfl
    · split at hv
      · cases hv
      · obtain ⟨-, rfl⟩ := Prod.mk.inj (Except.ok.inj hv)
        rfl
  | complete id result =>
    refine keep fun v t hv => ?_
    split at hv
    · cases hv
    · split at hv
      · cases hv
      · obtain ⟨-, rfl⟩ := Prod.mk.inj (Except.ok.inj hv)
        rfl
  | fail id message =>
    refine keep fun v t hv => ?_
    split at hv
    · cases hv
    · split at hv
      · cases hv
      · split at hv
        · cases hv
        · obtain ⟨-, rfl⟩ := Prod.mk.inj (Except.ok.inj hv)
          rfl
  | get id =>
    refine keep fun v t hv => ?_
    cases hf : s.find id with
    | error e => rw [hf] at hv; cases hv
    | ok x =>
      rw [hf] at hv
      obtain ⟨-, rfl⟩ := Prod.mk.inj (Except.ok.inj hv)
      rfl
  | stats queue =>
    simp only [ask, stats]
    split
    · exact ⟨rfl, rfl⟩
    · refine keep fun v t hv => ?_
      generalize List.foldlM countJob (.empty queue) _ = counted at hv
      cases counted with
      | error f => cases hv
      | ok x =>
        obtain ⟨-, rfl⟩ := Prod.mk.inj (Except.ok.inj hv)
        rfl
  | canProcess t =>
    refine keep fun v t' hv => ?_
    dsimp only at hv
    split at hv
    · cases hv
    · obtain ⟨-, rfl⟩ := Prod.mk.inj (Except.ok.inj hv)
      rfl
  | delete | list | requeueStale | purge =>
    refine keep fun v t hv => ?_
    obtain ⟨-, rfl⟩ := Prod.mk.inj (Except.ok.inj hv)
    rfl

/-! ## Limits -/

/-- The limit of a tenant changes when it is set. -/
theorem limit_ask (rules : Rules) (now : Millis) (r : Request) (t : Tenant) :
    (ask rules now r s).2.limit rules t = s.limit rules t ∨
    ∃ l, r = .setLimit t l ∧ (ask rules now r s).2.limit rules t = l := by
  by_cases hset : ∃ t' l, r = .setLimit t' l
  · obtain ⟨t', l, rfl⟩ := hset
    rcases hold_cases (Prod.mk.eta (p := setLimit t' l s)).symm with ⟨v, -, hv, -⟩ | ⟨-, hv, -⟩ | ⟨e, -, hs⟩
    · obtain ⟨-, hs⟩ := Prod.mk.inj (Except.ok.inj hv)
      have hlimit : (ask rules now (.setLimit t' l) s).2.limit rules t =
          (if t' = t then some l else s.limits.get? t).getD rules.limit := by
        show (setLimit t' l s).2.limit rules t = _
        rw [← hs, limit, Keyed.get?_put]
      by_cases he : t' = t
      · subst he
        exact Or.inr ⟨l, rfl, by rw [hlimit, if_pos rfl]; rfl⟩
      · exact Or.inl (by rw [hlimit, if_neg he]; rfl)
    · cases hv
    · left
      show (setLimit t' l s).2.limit rules t = _
      rw [hs]
  · push Not at hset
    left
    by_cases hrec : ∃ t', r = .record t'
    · obtain ⟨t', rfl⟩ := hrec
      refine hold_keeps (f := fun s => s.limit rules t) rfl fun v s' hv => ?_
      split at hv
      · cases hv
      · obtain ⟨-, rfl⟩ := Prod.mk.inj (Except.ok.inj hv)
        rfl
    · push Not at hrec
      rw [limit, (rates_ask rules now hrec hset).2, limit]

theorem limit_ask_of_eq {rules : Rules} {t : Tenant} {l : RateLimit} (hl : s.limit rules t = l)
    (now : Millis) {r : Request} (hr : ∀ l', r = .setLimit t l' → l' = l) :
    (ask rules now r s).2.limit rules t = l := by
  rcases limit_ask rules now r t with h | ⟨l', he, h⟩
  · exact h.trans hl
  · exact h.trans (hr l' he)

/-- Who is told that one more job may run has fewer jobs counted than the limit permits, and no more
    of them in processing. -/
theorem admits_of_canProcess {rules : Rules} {now : Millis} {t : Tenant}
    (h : (ask rules now (.canProcess t) s).1 = .ok true) :
    (∃ n, s.counted? now t = some n ∧ n < (s.limit rules t).perHour) ∧
      clamp (s.processing t) ≤ (s.limit rules t).concurrent := by
  rcases hold_cases (Prod.mk.eta (p := canProcess rules.limit now t s)).symm with
    ⟨v, -, hv, ha⟩ | ⟨-, -, ha, -⟩ | ⟨e, ha, -⟩
  · obtain rfl := Except.ok.inj (ha.symm.trans h)
    dsimp only at hv
    split at hv
    · cases hv
    · rename_i n hn
      obtain ⟨hadmits, -⟩ := Prod.mk.inj (Except.ok.inj hv)
      rw [RateLimit.admits, Bool.and_eq_true, decide_eq_true_eq, decide_eq_true_eq] at hadmits
      exact ⟨⟨n, hn, hadmits.1⟩, hadmits.2⟩
  · exact absurd (ha.symm.trans h) (by rintro ⟨⟩)
  · exact absurd (ha.symm.trans h) (by rintro ⟨⟩)

theorem canProcess_ne_error (hp : s.poisoned = false) (rules : Rules) (now : Millis) (t : Tenant)
    (e : Error) : (ask rules now (.canProcess t) s).1 ≠ .error (.error e) := by
  intro h
  simp only [ask, canProcess, hold, hp, Bool.false_eq_true, if_false] at h
  split at h
  · cases h
  · cases h
  · rename_i hrun
    split at hrun
    · cases hrun
    · cases hrun

/-! ## Windows -/

theorem record_of_healthy (hp : s.poisoned = false) (now : Millis) (t : Tenant) :
    record now t s =
      match ((s.windows.get? t).getD (.openAt now)).record? now with
      | none => (.error .overflow, { s with poisoned := true })
      | some w => (.ok (), { s with windows := s.windows.put t w }) := by
  unfold record hold
  simp only [hp, Bool.false_eq_true, if_false]
  cases ((s.windows.get? t).getD (.openAt now)).record? now <;> rfl

/-- The window of a tenant changes when one of its jobs is counted. -/
theorem window_ask (rules : Rules) (now : Millis) (r : Request) (t : Tenant) :
    (ask rules now r s).2.windows.get? t = s.windows.get? t ∨
    r = .record t ∧ ∃ w, ((s.windows.get? t).getD (.openAt now)).record? now = some w ∧
      (ask rules now r s).2.windows.get? t = some w := by
  by_cases hrec : ∃ t', r = .record t'
  · obtain ⟨t', rfl⟩ := hrec
    rcases hold_cases (Prod.mk.eta (p := record now t' s)).symm with ⟨v, -, hv, -⟩ | ⟨-, -, -, hs⟩ | ⟨e, -, hs⟩
    · split at hv
      · cases hv
      · rename_i w hw
        obtain ⟨-, hs⟩ := Prod.mk.inj (Except.ok.inj hv)
        have hget : (ask rules now (.record t') s).2.windows.get? t =
            if t' = t then some w else s.windows.get? t := by
          show (record now t' s).2.windows.get? t = _
          rw [← hs, Keyed.get?_put]
        by_cases he : t' = t
        · subst he
          exact Or.inr ⟨rfl, w, hw, by rw [hget, if_pos rfl]⟩
        · exact Or.inl (by rw [hget, if_neg he])
    · left
      show (record now t' s).2.windows.get? t = _
      rw [hs]
    · left
      show (record now t' s).2.windows.get? t = _
      rw [hs]
  · push Not at hrec
    left
    by_cases hset : ∃ t' l', r = .setLimit t' l'
    · obtain ⟨t', l', rfl⟩ := hset
      refine hold_keeps (f := fun s => s.windows.get? t) rfl fun v s' hv => ?_
      obtain ⟨-, rfl⟩ := Prod.mk.inj (Except.ok.inj hv)
      rfl
    · push Not at hset
      rw [(rates_ask rules now hrec hset).1]

end

end JobQueue.Volatile
