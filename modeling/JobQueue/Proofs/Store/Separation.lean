/-
  Tenants do not get in each other's way.

  Whether one more job of a tenant may run depends on its account alone: the
  limit that was set for it, its window, and the number of its jobs in
  processing.  A request that has nothing to do with the tenant
  (`Volatile.concerns`) leaves the account as it is, also if it is about the
  same organization on another queue, or about another organization on the same
  queue; the others move the account on in a way that the account and the
  request decide (`account_ask`).

  So what a run answers to the tenant can be computed from the account in the
  beginning and the tenant's own affairs (`judged_run`), and two runs in which
  these are the same answer alike (`tenants_are_apart`).  One thing is shared
  all the same: an operation for any tenant that breaks off while it holds the
  store poisons it for all of them (`overflow_elsewhere_stops_admission`).
-/
import JobQueue.Proofs.Store.Epoch
import JobQueue.Proofs.Store.Trace

namespace JobQueue

/-! ## Jobs of a tenant -/

namespace Job

/-- The tenant on whose account a job runs. -/
def tenant (j : Job) : Tenant := ⟨j.org, j.queue⟩

/-- Is it a job of the tenant in processing? -/
def isBusyFor (t : Tenant) (j : Job) : Bool := j.status == .processing && j.tenant == t

theorem isBusyFor_of_ne {j : Job} {t : Tenant} (h : j.tenant ≠ t) : j.isBusyFor t = false := by
  simp [isBusyFor, h]

theorem isFinishedBefore_of_isBusyFor {j : Job} {t : Tenant} (h : j.isBusyFor t = true)
    (before : Millis) : j.isFinishedBefore before = false := by
  simp only [isBusyFor, Bool.and_eq_true, beq_iff_eq] at h
  simp [isFinishedBefore, h.1, Status.isTerminal]

end Job

namespace Keyed

variable {κ α : Type} [DecidableEq κ] {m : Keyed κ α} {k : κ} {p : α → Bool}

/-- A value without a property takes the place of another one without it. -/
theorem countP_put {a : α} (new : p a = false) (old : ∀ b, m.get? k = some b → p b = false) :
    (m.put k a).values.countP p = m.values.countP p := by
  induction m with
  | nil => simp [put, values, new]
  | cons q m ih =>
    obtain ⟨k', a'⟩ := q
    by_cases hk : k' = k
    · have ha' : p a' = false := old a' (by simp [get?, hk])
      simp [put, hk, values, new, ha']
    · have ih := ih fun b hb => old b (by simpa [get?, hk] using hb)
      simp only [values] at ih
      simp [put, hk, values, ih, List.countP_cons]

/-- A value without a property is taken away. -/
theorem countP_erase (hm : m.Distinct) (old : ∀ b, m.get? k = some b → p b = false) :
    (m.erase k).values.countP p = m.values.countP p := by
  simp only [values, erase, List.countP_map, List.countP_filter]
  refine List.countP_congr fun q hq => ?_
  simp only [Function.comp_apply, Bool.and_eq_true, decide_eq_true_eq, and_iff_left_iff_imp]
  rintro hp rfl
  rw [old q.2 (get?_of_mem hm hq)] at hp
  cases hp

end Keyed

namespace Volatile

section
variable {rules : Rules} {s : Volatile} {t : Tenant} {now : Millis} {r : Request}

theorem processing_eq (s : Volatile) (t : Tenant) :
    s.processing t = s.jobs.values.countP fun x => x.job.isBusyFor t := by
  refine List.countP_congr fun x _ => ?_
  have htenant : x.job.tenant = t ↔ x.job.org = t.org ∧ x.job.queue = t.queue := by
    rw [Job.tenant, Tenant.mk.injEq]
  simp only [Job.isBusyFor, Bool.and_eq_true, beq_iff_eq, htenant, and_assoc]

/-! ## What concerns a tenant -/

/-- Has a request to do with a tenant?  It is a question or an order for this tenant; or it inserts,
    claims, reports on, deletes or puts back a job of the tenant, or gives away its name. -/
def concerns (t : Tenant) (now : Millis) (s : Volatile) : Request → Bool
  | .canProcess t' | .record t' | .setLimit t' _ => t' == t
  | .enqueue id sub =>
    (sub.toJob id now).tenant == t || (s.jobs.get? id).any fun x => x.job.tenant == t
  | .dequeue _ queues => (s.next? now queues).any fun x => x.job.tenant == t
  | .complete id _ | .fail id _ | .delete id => (s.jobs.get? id).any fun x => x.job.tenant == t
  | .requeueStale before => s.stored.any fun x => x.job.tenant == t && x.job.isStale before
  | .purge before => s.stored.any fun x => x.job.tenant == t && x.job.isFinishedBefore before
  | .get _ | .list _ | .stats _ | .close => false

/-- A tenant has as many jobs in processing after a request that has nothing to do with it. -/
theorem processing_ask (tidy : s.Tidy) (hc : s.concerns t now r = false) :
    (ask rules now r s).2.processing t = s.processing t := by
  have step : Step rules now s r (ask rules now r s).1 (ask rules now r s).2 := step_ask rfl
  generalize (ask rules now r s).1 = a at step
  generalize (ask rules now r s).2 = s' at step
  have named : ∀ {id : String}, ((s.jobs.get? id).any fun x => x.job.tenant == t) = false →
      ∀ x, s.jobs.get? id = some x → x.job.tenant ≠ t := by
    intro id hany x hx he
    simp [hx, he] at hany
  have put : ∀ {id : String} {y : Ranked}, y.job.tenant ≠ t →
      (∀ x, s.jobs.get? id = some x → x.job.tenant ≠ t) →
      (s.jobs.put id y).values.countP (fun x => x.job.isBusyFor t) =
        s.jobs.values.countP fun x => x.job.isBusyFor t := by
    intro id y hy hx
    exact Keyed.countP_put (Job.isBusyFor_of_ne hy) fun x h => Job.isBusyFor_of_ne (hx x h)
  rw [processing_eq, processing_eq]
  cases step with
  | still _ _ jobs => rw [jobs]
  | enqueued id sub =>
    simp only [concerns, Bool.or_eq_false_iff, beq_eq_false_iff_ne] at hc
    exact put hc.1 (named hc.2)
  | @claimed worker queues x n next =>
    have hx : x.job.tenant ≠ t := by
      simpa [concerns, next] using hc
    refine put hx fun y hy => ?_
    rw [tidy.get?_of_next? next] at hy
    exact Option.some.inj hy ▸ hx
  | @completed id result x found =>
    refine put ?_ (named hc)
    exact named hc x found
  | @retried id message x found =>
    refine put ?_ (named hc)
    exact named hc x found
  | @failed id message x found =>
    refine put ?_ (named hc)
    exact named hc x found
  | deleted id =>
    exact Keyed.countP_erase tidy.distinct fun x hx => Job.isBusyFor_of_ne (named hc x hx)
  | requeued before =>
    rw [Keyed.values_mapValues, List.countP_map]
    refine List.countP_congr fun x hx => ?_
    by_cases hst : x.job.isStale before = true
    · -- a job that is put back belongs to another tenant
      have hne : x.job.tenant ≠ t := by
        intro he
        simp only [concerns, List.any_eq_false, Bool.and_eq_true, beq_iff_eq, not_and] at hc
        exact hc x hx he hst
      have hne' : x.job.requeued.tenant ≠ t := hne
      simp [hst, Job.isBusyFor_of_ne hne, Job.isBusyFor_of_ne hne']
    · simp [hst]
  | purged before =>
    rw [Keyed.values_keepIf, List.countP_filter]
    refine List.countP_congr fun x _ => ?_
    rw [Bool.and_eq_true, and_iff_left_iff_imp]
    intro hb
    rw [Job.isFinishedBefore_of_isBusyFor hb, Bool.not_false]

/-- The limit that was set for a tenant stays until it is set anew. -/
theorem limits_ask (hset : ∀ l, r ≠ .setLimit t l) :
    (ask rules now r s).2.limits.get? t = s.limits.get? t := by
  by_cases hl : ∃ t' l, r = .setLimit t' l
  · obtain ⟨t', l, rfl⟩ := hl
    have hne : t' ≠ t := by
      rintro rfl
      exact hset l rfl
    refine hold_keeps (f := fun s => s.limits.get? t) rfl fun v s' hv => ?_
    obtain ⟨-, rfl⟩ := Prod.mk.inj (Except.ok.inj hv)
    rw [Keyed.get?_put, if_neg hne]
  · push Not at hl
    by_cases hr : ∃ t', r = .record t'
    · obtain ⟨t', rfl⟩ := hr
      refine hold_keeps (f := fun s => s.limits.get? t) rfl fun v s' hv => ?_
      split at hv
      · cases hv
      · obtain ⟨-, rfl⟩ := Prod.mk.inj (Except.ok.inj hv)
        rfl
    · push Not at hr
      rw [(rates_ask rules now hr hl).2]

/-- The window of a tenant stays until one of its jobs is counted. -/
theorem windows_ask (hrec : r ≠ .record t) :
    (ask rules now r s).2.windows.get? t = s.windows.get? t := by
  rcases window_ask rules now r t with h | ⟨h, -⟩
  · exact h
  · exact absurd h hrec

end

/-! ## Accounts -/

/-- What the admission of a tenant looks at. -/
structure Account where
  /-- The limit that was set for the tenant. -/
  limit : Option RateLimit
  window : Option Window
  /-- The number of its jobs in processing. -/
  processing : ℤ
  deriving DecidableEq, Repr

/-- The account of a tenant. -/
def account (s : Volatile) (t : Tenant) : Account :=
  ⟨s.limits.get? t, s.windows.get? t, s.processing t⟩

/-- What happens in the affairs of a tenant. -/
inductive Affair where
  /-- One of its jobs is counted. -/
  | counted (now : Millis)
  /-- A limit is set for it. -/
  | limited (limit : RateLimit)
  /-- The number of its jobs in processing changes. -/
  | moved (change : ℤ)
  /-- It is asked whether one more of its jobs may run. -/
  | asked (now : Millis)
  deriving DecidableEq, Repr

namespace Account

/-- The account after something happened. -/
def after (a : Account) : Affair → Account
  | .counted now =>
    { a with window := ((a.window.getD (.openAt now)).record? now).or a.window }
  | .limited l => { a with limit := some l }
  | .moved change => { a with processing := a.processing + change }
  | .asked _ => a

/-- May one more job run? -/
def verdict (rules : Rules) (now : Millis) (a : Account) : Except Failure Bool :=
  match a.window.elim (some 0) (·.counted? now) with
  | none => .error .overflow
  | some n => .ok ((a.limit.getD rules.limit).admits n (clamp a.processing))

/-- What is to be answered to a tenant in whose affairs some things happen one after the other. -/
def judged (rules : Rules) : List Affair → Account → List (Except Failure Bool)
  | [], _ => []
  | .asked now :: affairs, a => a.verdict rules now :: judged rules affairs a
  | affair :: affairs, a => judged rules affairs (a.after affair)

end Account

/-- What a call means to a tenant, if it means anything. -/
def affair? (rules : Rules) (t : Tenant) (c : Call) (s : Volatile) : Option Affair :=
  if s.concerns t c.now c.request then
    match c.request with
    | .record _ => some (.counted c.now)
    | .setLimit _ l => some (.limited l)
    | .canProcess _ => some (.asked c.now)
    | r =>
      let change : ℤ := (ask rules c.now r s).2.processing t - s.processing t
      if change = 0 then none else some (.moved change)
  else none

/-- The affairs of a tenant in a run of calls. -/
def affairs (rules : Rules) (t : Tenant) : List Call → Volatile → List Affair
  | [], _ => []
  | c :: calls, s =>
    (affair? rules t c s).toList ++ affairs rules t calls (ask rules c.now c.request s).2

/-- The answer to a call that asks whether one more job of the tenant may run, with the store that
    is asked. -/
def question? (rules : Rules) (t : Tenant) (c : Call) (s : Volatile) :
    Option (Volatile × Except Failure Bool) :=
  match c.request with
  | .canProcess t' => if t' = t then some (s, (ask rules c.now (.canProcess t) s).1) else none
  | _ => none

/-- What a run of calls answers to a tenant, each time with the store that is asked. -/
def questions (rules : Rules) (t : Tenant) : List Call → Volatile →
    List (Volatile × Except Failure Bool)
  | [], _ => []
  | c :: calls, s =>
    (question? rules t c s).toList ++ questions rules t calls (ask rules c.now c.request s).2

section
variable {rules : Rules} {s : Volatile} {t : Tenant} {c : Call}

/-! ## One call -/

theorem account_of_not_concerned (tidy : s.Tidy) (hc : s.concerns t c.now c.request = false) :
    (ask rules c.now c.request s).2.account t = s.account t := by
  have hset : ∀ l, c.request ≠ .setLimit t l := by
    intro l he
    simp [he, concerns] at hc
  have hrec : c.request ≠ .record t := by
    intro he
    simp [he, concerns] at hc
  simp only [account, limits_ask hset, windows_ask hrec, processing_ask tidy hc]

/-- **A call that does not poison the store moves the account of a tenant on as the tenant's own
    affairs do.** -/
theorem account_ask (tidy : s.Tidy) (healthy : (ask rules c.now c.request s).2.poisoned = false) :
    (ask rules c.now c.request s).2.account t =
      (affair? rules t c s).elim (s.account t) (s.account t).after := by
  have before : s.poisoned = false := healthy_of_ask healthy
  cases hc : s.concerns t c.now c.request with
  | false => simpa [affair?, hc] using account_of_not_concerned tidy hc
  | true =>
    obtain ⟨now, r⟩ := c
    have other : (∀ t', r ≠ .record t') → (∀ t' l, r ≠ .setLimit t' l) → ∀ change : ℤ,
        change = (ask rules now r s).2.processing t - s.processing t →
        (ask rules now r s).2.account t =
          (if change = 0 then none else some (.moved change)).elim (s.account t)
            (s.account t).after := by
      intro hrec hset change he
      obtain ⟨hwindows, hlimits⟩ := rates_ask (s := s) rules now hrec hset
      split
      · simp only [account, hwindows, hlimits, Option.elim_none, Account.mk.injEq, true_and]
        omega
      · simp only [account, hwindows, hlimits, Option.elim_some, Account.after, Account.mk.injEq,
          true_and]
        omega
    cases r with
    | record t' =>
      obtain rfl : t' = t := by simpa [concerns] using hc
      simp only [affair?, hc, if_true, Option.elim_some]
      simp only [ask, record_of_healthy before] at healthy ⊢
      cases hw : ((s.windows.get? t').getD (.openAt now)).record? now with
      | none => simp [hw] at healthy
      | some w => simp [account, Account.after, Keyed.get?_put, hw, processing, stored]
    | setLimit t' l =>
      obtain rfl : t' = t := by simpa [concerns] using hc
      simp [affair?, hc, ask, setLimit, hold, before, account, Account.after, Keyed.get?_put,
        processing, stored]
    | canProcess t' =>
      simp only [affair?, hc, if_true, Option.elim_some]
      simp only [ask, canProcess_of_healthy before] at healthy ⊢
      cases hn : s.counted? now t' with
      | none => simp [hn] at healthy
      | some n => rfl
    | _ =>
      simp only [affair?, hc, if_true]
      exact other (fun _ h => by cases h) (fun _ _ h => by cases h) _ rfl

/-- A store that is not poisoned answers as the account says. -/
theorem canProcess_eq_verdict (healthy : s.poisoned = false) (now : Millis) :
    (ask rules now (.canProcess t) s).1 = (s.account t).verdict rules now := by
  show (canProcess rules.limit now t s).1 = _
  rw [canProcess_of_healthy healthy]
  have hcount : (s.account t).window.elim (some 0) (·.counted? now) = s.counted? now t := by
    simp only [account, counted?]
    cases s.windows.get? t <;> rfl
  rw [Account.verdict, hcount]
  cases s.counted? now t <;> rfl

/-- A call that is not a question of the tenant is not one in its affairs. -/
theorem question?_cases (rules : Rules) (t : Tenant) (c : Call) (s : Volatile) :
    (question? rules t c s = some (s, (ask rules c.now (.canProcess t) s).1) ∧
      affair? rules t c s = some (.asked c.now)) ∨
    (question? rules t c s = none ∧ ∀ now, affair? rules t c s ≠ some (.asked now)) := by
  obtain ⟨now, r⟩ := c
  have other : ∀ (change : ℤ) (b : Bool) (now' : Millis),
      (if b = true then if change = 0 then none else some (.moved change) else none) ≠
        some (Affair.asked now') := by
    intro change b now' he
    split at he
    · split at he <;> cases he
    · cases he
  cases r with
  | canProcess t' =>
    by_cases he : t' = t
    · exact .inl ⟨by simp [question?, he], by simp [affair?, concerns, he]⟩
    · exact .inr ⟨by simp [question?, he], by simp [affair?, concerns, he]⟩
  | record t' =>
    refine .inr ⟨rfl, fun now' he => ?_⟩
    simp only [affair?] at he
    split at he <;> cases he
  | setLimit t' l =>
    refine .inr ⟨rfl, fun now' he => ?_⟩
    simp only [affair?] at he
    split at he <;> cases he
  | _ => exact .inr ⟨rfl, other _ _⟩

theorem judged_cons {affair : Affair} (h : ∀ now, affair ≠ .asked now) (affairs : List Affair)
    (a : Account) : a.judged rules (affair :: affairs) = (a.after affair).judged rules affairs := by
  cases affair with
  | asked now => exact absurd rfl (h now)
  | counted | limited | moved => rfl

/-! ## Runs -/

/-- An answer stands if the store that was asked was poisoned, or else it is the right one. -/
def Stands (answer : Volatile × Except Failure Bool) (right : Except Failure Bool) : Prop :=
  answer.1.poisoned = false → answer.2 = right

/-- **What a run answers to a tenant follows from its account and its own affairs**, as long as the
    store is not poisoned. -/
theorem judged_run (tidy : s.Tidy) {a : Account} (ha : s.poisoned = false → s.account t = a)
    (calls : List Call) :
    List.Forall₂ Stands (questions rules t calls s) (a.judged rules (affairs rules t calls s)) := by
  induction calls generalizing s a with
  | nil => exact .nil
  | cons c calls ih =>
    have next : List.Forall₂ Stands (questions rules t calls (ask rules c.now c.request s).2)
        (((affair? rules t c s).elim a a.after).judged rules
          (affairs rules t calls (ask rules c.now c.request s).2)) := by
      have step : Step rules c.now s c.request _ (ask rules c.now c.request s).2 := step_ask rfl
      refine ih (tidy.step step) fun healthy => ?_
      rw [account_ask tidy healthy, ha (healthy_of_ask healthy)]
    rw [questions, affairs]
    rcases question?_cases rules t c s with ⟨hq, he⟩ | ⟨hq, he⟩
    · rw [he] at next
      rw [hq, he]
      refine .cons (fun healthy => ?_) next
      rw [canProcess_eq_verdict healthy, ha healthy]
    · rw [hq]
      cases ho : affair? rules t c s with
      | none =>
        rw [ho] at next
        exact next
      | some affair =>
        rw [ho] at next he
        have hne : ∀ now, affair ≠ .asked now := fun now h => he now (congrArg some h)
        simp only [Option.toList_some, Option.toList_none, List.nil_append, List.singleton_append,
          judged_cons hne]
        exact next

/-- Answers that stand against the same ones agree. -/
theorem agree_of_stands {answers₁ answers₂ : List (Volatile × Except Failure Bool)}
    {right : List (Except Failure Bool)} (h₁ : List.Forall₂ Stands answers₁ right)
    (h₂ : List.Forall₂ Stands answers₂ right) :
    List.Forall₂ (fun a b => a.1.poisoned = false → b.1.poisoned = false → a.2 = b.2)
      answers₁ answers₂ := by
  induction h₁ generalizing answers₂ with
  | nil =>
    cases h₂
    exact .nil
  | cons first _ ih =>
    cases h₂ with
    | cons second rest =>
      exact .cons (fun ha hb => (first ha).trans (second hb).symm) (ih rest)

end

/-- **Tenants do not get in each other's way.**  Take two stores that any requests led to, in which
    a tenant has the same account, and a run of calls in each.  If the tenant's own affairs are the
    same in both runs, they answer alike, whatever they do for other tenants: each question whether
    one more of the tenant's jobs may run has the same answer in both, unless one of the two stores
    is poisoned by then. -/
theorem tenants_are_apart {rules : Rules} {h₁ h₂ : List Event} {s₁ s₂ : Volatile}
    (trace₁ : Trace rules h₁ s₁) (trace₂ : Trace rules h₂ s₂) {t : Tenant}
    (alike : s₁.account t = s₂.account t) {calls₁ calls₂ : List Call}
    (same : affairs rules t calls₁ s₁ = affairs rules t calls₂ s₂) :
    List.Forall₂ (fun a b => a.1.poisoned = false → b.1.poisoned = false → a.2 = b.2)
      (questions rules t calls₁ s₁) (questions rules t calls₂ s₂) := by
  have first : List.Forall₂ Stands (questions rules t calls₁ s₁)
      ((s₂.account t).judged rules (affairs rules t calls₁ s₁)) :=
    judged_run trace₁.tidy (fun _ => alike) calls₁
  have second : List.Forall₂ Stands (questions rules t calls₂ s₂)
      ((s₂.account t).judged rules (affairs rules t calls₂ s₂)) :=
    judged_run trace₂.tidy (fun _ => rfl) calls₂
  rw [same] at first
  exact agree_of_stands first second

/-- Before either run the tenant has one job in processing and one job counted; in the second store
    its organization has another one on another queue. -/
def oneAtWork : List Call :=
  [⟨0, .setLimit ⟨"o", "q"⟩ ⟨2, 1⟩⟩, ⟨0, .enqueue "a" ⟨"q", "t", "o", .empty, {}⟩⟩,
    ⟨0, .dequeue "w" .any⟩, ⟨0, .record ⟨"o", "q"⟩⟩]

def twoAtWork : List Call :=
  [⟨0, .enqueue "x" ⟨"p", "t", "o", .empty, {}⟩⟩, ⟨0, .dequeue "w" .any⟩,
    ⟨0, .enqueue "b" ⟨"q", "t", "o", .empty, {}⟩⟩, ⟨0, .dequeue "w" .any⟩,
    ⟨0, .setLimit ⟨"o", "q"⟩ ⟨2, 1⟩⟩, ⟨0, .record ⟨"o", "q"⟩⟩]

/-- Two questions of the tenant, with one of its jobs completed and another one counted. -/
def quietRun : List Call :=
  [⟨5, .canProcess ⟨"o", "q"⟩⟩, ⟨6, .complete "a" none⟩, ⟨7, .record ⟨"o", "q"⟩⟩,
    ⟨8, .canProcess ⟨"o", "q"⟩⟩]

/-- The same, while its neighbours get limits, have jobs counted, and claim others; the job of the
    tenant is put back together with theirs. -/
def busyRun : List Call :=
  [⟨1, .record ⟨"o", "p"⟩⟩, ⟨2, .setLimit ⟨"n", "q"⟩ ⟨0, 0⟩⟩, ⟨5, .canProcess ⟨"o", "q"⟩⟩,
    ⟨5, .enqueue "y" ⟨"q", "t", "n", .empty, {}⟩⟩, ⟨5, .dequeue "w" .any⟩,
    ⟨5, .canProcess ⟨"n", "q"⟩⟩, ⟨6, .requeueStale 1⟩, ⟨7, .record ⟨"o", "q"⟩⟩,
    ⟨7, .delete "x"⟩, ⟨8, .canProcess ⟨"o", "q"⟩⟩]

/-- Neighbours that share the organization or the queue of a tenant change nothing for it. -/
theorem tenants_are_apart_busyNeighbours :
    List.Forall₂ (fun a b => a.1.poisoned = false → b.1.poisoned = false → a.2 = b.2)
      (questions .default ⟨"o", "q"⟩ quietRun (replay .default oneAtWork).2)
      (questions .default ⟨"o", "q"⟩ busyRun (replay .default twoAtWork).2) ∧
    (questions .default ⟨"o", "q"⟩ quietRun (replay .default oneAtWork).2).map
      (fun a => (a.1.poisoned, a.2)) = [(false, .ok true), (false, .ok false)] ∧
    (questions .default ⟨"o", "q"⟩ busyRun (replay .default twoAtWork).2).map
      (fun a => (a.1.poisoned, a.2)) = [(false, .ok true), (false, .ok false)] :=
  ⟨tenants_are_apart (Trace.replay .default oneAtWork) (Trace.replay .default twoAtWork)
    (by decide) (by decide), by decide, by decide⟩

/-- Another tenant has two jobs counted, at readings of the clock that are too far apart. -/
def overflowElsewhere : List Call :=
  [⟨-1, .record ⟨"o", "p"⟩⟩, ⟨Int64.maxValue, .record ⟨"o", "p"⟩⟩,
    ⟨Int64.maxValue, .canProcess ⟨"o", "q"⟩⟩]

/-- **The lock is shared.**  When an operation for another tenant breaks off while it holds the
    store, a tenant in whose affairs nothing happened but the question itself is refused. -/
theorem overflow_elsewhere_stops_admission :
    Trace .default [] empty ∧
    affairs .default ⟨"o", "q"⟩ overflowElsewhere empty = [.asked Int64.maxValue] ∧
    affairs .default ⟨"o", "q"⟩ [⟨Int64.maxValue, .canProcess ⟨"o", "q"⟩⟩] empty =
      [.asked Int64.maxValue] ∧
    (questions .default ⟨"o", "q"⟩ overflowElsewhere empty).map (·.2) =
      [.error (.error (.internal .poisoned))] ∧
    (questions .default ⟨"o", "q"⟩ [⟨Int64.maxValue, .canProcess ⟨"o", "q"⟩⟩] empty).map (·.2) =
      [.ok true] :=
  ⟨.start, by decide, by decide, by decide, by decide⟩

end Volatile

end JobQueue
