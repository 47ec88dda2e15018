/-
  What a request does to the jobs of the volatile store.

  `Step` lists the cases: a request leaves the jobs alone, inserts one, changes
  the one it names, or sweeps over all of them.  Every request is such a step
  (`step_ask`), and all that is proved about runs of the store is proved by
  cases on it.

  A store is tidy (`Tidy`) if every job is kept once, under its own name, and
  no two jobs share a rank.  Whatever is asked, the store stays tidy
  (`Tidy.step`).  It is well formed (`Valid`) if the ranks also grow in the
  order of the enumeration; steps keep it so as long as no name is given twice
  (`Valid.step`).
-/
import JobQueue.Proofs.Store.Keyed
import JobQueue.Proofs.Store.Order
import JobQueue.Store.Volatile

namespace JobQueue

/-! ## Changes of a job -/

namespace Job

/-- The job as the attempt `n` begins. -/
def taken (j : Job) (now : Millis) (worker : String) (n : Int32) : Job :=
  { j with status := .processing, attempts := n, startedAt := some now, worker := some worker }

/-- The job after a successful attempt. -/
def finished (j : Job) (now : Millis) (result : Option Payload) : Job :=
  { j with status := .completed, completedAt := some now, result := result }

/-- The job after an attempt that failed and is not the last one. -/
def delayed (j : Job) (retryAt : Millis) (error : String) : Job :=
  { j with status := .pending, scheduledAt := retryAt, error := some error }

/-- The job after the failure of its last attempt. -/
def givenUp (j : Job) (now : Millis) (error : String) : Job :=
  { j with status := .failed, completedAt := some now, error := some error }

/-- The job after a failed attempt, as the policy decides. -/
def failing (j : Job) (retry : RetryPolicy) (now : Millis) (message : String) : Job :=
  match retry.decide j.attempts j.maxAttempts with
  | .retry delay => j.delayed (addClamped now delay) message
  | .failed => j.givenUp now message

theorem start_eq {j : Job} (h : j.status = .pending) (now : Millis) (worker : String) :
    j.start now worker =
      match succ32? j.attempts with
      | none => .error .overflow
      | some n => .ok (j.taken now worker n) := by
  rw [start, if_neg (not_not.2 h)]
  cases succ32? j.attempts <;> rfl

theorem complete_eq {j : Job} (h : j.status = .processing) (now : Millis)
    (result : Option Payload) : j.complete now result = .ok (j.finished now result) := by
  simp [complete, h, finished]

theorem failing_of_lt {j : Job} {retry : RetryPolicy} (h : j.attempts < j.maxAttempts)
    (now : Millis) (message : String) :
    j.failing retry now message =
      j.delayed (addClamped now (retry.backoff j.attempts)) message := by
  simp [failing, RetryPolicy.decide, Int32.not_le.2 h]

theorem failing_of_le {j : Job} {retry : RetryPolicy} (h : j.maxAttempts ≤ j.attempts)
    (now : Millis) (message : String) :
    j.failing retry now message = j.givenUp now message := by
  simp [failing, RetryPolicy.decide, h]

/-- A failed attempt leaves its error behind. -/
theorem failing_error (j : Job) (retry : RetryPolicy) (now : Millis) (message : String) :
    (j.failing retry now message).error = some message := by
  unfold failing; split <;> rfl

theorem failing_attempts (j : Job) (retry : RetryPolicy) (now : Millis) (message : String) :
    (j.failing retry now message).attempts = j.attempts := by
  unfold failing; split <;> rfl

theorem failing_id (j : Job) (retry : RetryPolicy) (now : Millis) (message : String) :
    (j.failing retry now message).id = j.id := by
  unfold failing; split <;> rfl

theorem failing_status (j : Job) (retry : RetryPolicy) (now : Millis) (message : String) :
    (j.failing retry now message).status ≠ .processing := by
  unfold failing
  split
  · simp [delayed]
  · simp [givenUp]

theorem busy_of_isStale {j : Job} {before : Millis} (h : j.isStale before = true) :
    j.status = .processing := by
  simp only [isStale, Bool.and_eq_true, beq_iff_eq] at h
  exact h.1

end Job

theorem Volatile.afterFailure_eq {j : Job} (h : j.status = .processing) (retry : RetryPolicy)
    (now : Millis) (message : String) :
    afterFailure retry now message j = .ok (j.failing retry now message) := by
  unfold afterFailure Job.failing
  cases retry.decide j.attempts j.maxAttempts with
  | retry delay => exact if_neg (not_not.2 h)
  | failed => exact if_neg (not_not.2 h)

/-- The job that an answered request claimed. -/
def Request.claimed? : (r : Request) → Except Failure r.Answer → Option Job
  | .dequeue .., .ok job => job
  | _, _ => none

/-- The submission that an answered request got accepted, with the name that it was given. -/
def Request.accepted? : (r : Request) → Except Failure r.Answer → Option (String × Submission)
  | .enqueue id sub, .ok _ => some (id, sub)
  | _, _ => none

theorem Request.eq_enqueue_of_accepted? {r : Request} {a : Except Failure r.Answer} {id : String}
    {sub : Submission} (h : r.accepted? a = some (id, sub)) : r = .enqueue id sub := by
  cases r with
  | enqueue id' sub' =>
    cases a with
    | ok job => cases h; rfl
    | error f => cases h
  | _ => cases h

namespace Volatile

/-! ## Holding the store -/

section hold
variable {α : Type} {s s' : Volatile} {run : Volatile → Except Failure (α × Volatile)}

theorem hold_of_ok (h : s.poisoned = false) {a : α} (hr : run s = .ok (a, s')) :
    s.hold run = (.ok a, s') := by
  simp [hold, h, hr]

/-- What an operation that holds the store can come to. -/
theorem hold_cases {a : Except Failure α} (h : s.hold run = (a, s')) :
    (∃ v, s.poisoned = false ∧ run s = .ok (v, s') ∧ a = .ok v) ∨
    (s.poisoned = false ∧ run s = .error .overflow ∧ a = .error .overflow ∧
      s' = { s with poisoned := true }) ∨
    (∃ e, a = .error (.error e) ∧ s' = s) := by
  unfold hold at h
  split at h
  · simp only [Prod.mk.injEq] at h
    exact Or.inr (Or.inr ⟨_, h.1.symm, h.2.symm⟩)
  · rename_i hp
    rw [Bool.not_eq_true] at hp
    split at h
    · rename_i v s'' hr
      simp only [Prod.mk.injEq] at h
      obtain ⟨rfl, rfl⟩ := h
      exact Or.inl ⟨v, hp, hr, rfl⟩
    · rename_i hr
      simp only [Prod.mk.injEq] at h
      exact Or.inr (Or.inl ⟨hp, hr, h.1.symm, h.2.symm⟩)
    · simp only [Prod.mk.injEq] at h
      exact Or.inr (Or.inr ⟨_, h.1.symm, h.2.symm⟩)

end hold

/-! ## Steps -/

/-- What a request does to the jobs of a store, with the answer that it gets. -/
inductive Step (rules : Rules) (now : Millis) (s : Volatile) :
    (r : Request) → Except Failure r.Answer → Volatile → Prop where
  /-- The jobs stay as they are: the request is about something else, or it was refused, or there
      was nothing to do. -/
  | still {r : Request} {a : Except Failure r.Answer} {s' : Volatile} (quiet : r.claimed? a = none)
      (idle : r.accepted? a = none) (jobs : s'.jobs = s.jobs) (rank : s'.nextRank = s.nextRank)
      (sound : a ≠ .error .overflow → s'.poisoned = s.poisoned) : Step rules now s r a s'
  | enqueued (id : String) (sub : Submission) :
      Step rules now s (.enqueue id sub) (.ok (sub.toJob id now)) { s with
        jobs := s.jobs.put id ⟨s.nextRank, sub.toJob id now⟩
        nextRank := s.nextRank + 1 }
  | claimed {worker : String} {queues : QueueSet} {x : Ranked} {n : Int32}
      (next : s.next? now queues = some x) (pending : x.job.status = .pending)
      (count : succ32? x.job.attempts = some n) :
      Step rules now s (.dequeue worker queues) (.ok (some (x.job.taken now worker n)))
        (s.update x.job.id x (x.job.taken now worker n))
  | completed {id : String} {result : Option Payload} {x : Ranked} (found : s.jobs.get? id = some x)
      (busy : x.job.status = .processing) :
      Step rules now s (.complete id result) (.ok ()) (s.update id x (x.job.finished now result))
  | retried {id message : String} {x : Ranked} (found : s.jobs.get? id = some x)
      (busy : x.job.status = .processing) (more : x.job.attempts < x.job.maxAttempts) :
      Step rules now s (.fail id message) (.ok ()) (s.update id x
        (x.job.delayed (addClamped now (rules.retry.backoff x.job.attempts)) message))
  | failed {id message : String} {x : Ranked} (found : s.jobs.get? id = some x)
      (busy : x.job.status = .processing) (spent : x.job.maxAttempts ≤ x.job.attempts) :
      Step rules now s (.fail id message) (.ok ()) (s.update id x (x.job.givenUp now message))
  | deleted (id : String) :
      Step rules now s (.delete id) (.ok ()) { s with jobs := s.jobs.erase id }
  | requeued (before : Millis) :
      Step rules now s (.requeueStale before) (.ok (s.stored.countP fun x => x.job.isStale before))
        { s with jobs := s.jobs.mapValues fun x =>
          if x.job.isStale before then { x with job := x.job.requeued } else x }
  | purged (before : Millis) :
      Step rules now s (.purge before) (.ok (s.stored.countP fun x => x.job.isFinishedBefore before))
        { s with jobs := s.jobs.keepIf fun x => !x.job.isFinishedBefore before }

section
variable {rules : Rules} {now : Millis} {s s' : Volatile}

theorem next?_mem {queues : QueueSet} {x : Ranked} (h : s.next? now queues = some x) :
    x ∈ s.stored ∧ x.job.isEligible now = true ∧ queues.accepts x.job.queue = true := by
  have := Ranked.first?_mem h
  simpa only [List.mem_filter, Bool.and_eq_true] using this

theorem pending_of_next? {queues : QueueSet} {x : Ranked} (h : s.next? now queues = some x) :
    x.job.status = .pending ∧ x.job.scheduledAt ≤ now := by
  simpa [Job.isEligible] using (next?_mem h).2.1

/-- An operation that holds the store is a step if it is one when it succeeds. -/
theorem step_of_hold {r : Request} {run : Volatile → Except Failure (r.Answer × Volatile)}
    {a : Except Failure r.Answer} (h : s.hold run = (a, s'))
    (hr : ∀ v t, run s = .ok (v, t) → Step rules now s r (.ok v) t) : Step rules now s r a s' := by
  rcases hold_cases h with ⟨v, -, hv, rfl⟩ | ⟨-, -, rfl, rfl⟩ | ⟨e, rfl, rfl⟩
  · exact hr v s' hv
  · exact .still (by cases r <;> rfl) (by cases r <;> rfl) rfl rfl fun h => absurd rfl h
  · exact .still (by cases r <;> rfl) (by cases r <;> rfl) rfl rfl fun _ => rfl

theorem step_dequeue {worker : String} {queues : QueueSet} {a : Except Failure (Option Job)}
    (h : dequeue now worker queues s = (a, s')) : Step rules now s (.dequeue worker queues) a s' := by
  refine step_of_hold h fun v t hv => ?_
  cases hn : s.next? now queues with
  | none =>
    simp only [hn, Except.ok.injEq, Prod.mk.injEq] at hv
    obtain ⟨rfl, rfl⟩ := hv
    exact .still rfl rfl rfl rfl fun _ => rfl
  | some x =>
    have hp := (pending_of_next? hn).1
    simp only [hn, Job.start_eq hp] at hv
    cases hc : succ32? x.job.attempts with
    | none => simp [hc] at hv
    | some n =>
      simp only [hc, Except.ok.injEq, Prod.mk.injEq] at hv
      obtain ⟨rfl, rfl⟩ := hv
      exact .claimed hn hp hc

theorem step_complete {id : String} {result : Option Payload} {a : Except Failure Unit}
    (h : complete now id result s = (a, s')) : Step rules now s (.complete id result) a s' := by
  refine step_of_hold h fun v t hv => ?_
  cases hx : s.jobs.get? id with
  | none => simp [find, hx] at hv
  | some x =>
    by_cases hp : x.job.status = .processing
    · simp only [find, hx, Job.complete_eq hp, Except.ok.injEq, Prod.mk.injEq] at hv
      obtain ⟨-, rfl⟩ := hv
      exact .completed hx hp
    · simp [find, hx, Job.complete, hp] at hv

theorem step_fail {id message : String} {a : Except Failure Unit}
    (h : fail rules.retry now id message s = (a, s')) : Step rules now s (.fail id message) a s' := by
  refine step_of_hold h fun v t hv => ?_
  cases hx : s.jobs.get? id with
  | none => simp [find, hx] at hv
  | some x =>
    by_cases hp : x.job.status = .processing
    · simp only [find, hx, hp, ne_eq, not_true, if_false, afterFailure_eq hp, Except.ok.injEq,
        Prod.mk.injEq] at hv
      obtain ⟨-, rfl⟩ := hv
      by_cases hm : x.job.attempts < x.job.maxAttempts
      · rw [Job.failing_of_lt hm]; exact .retried hx hp hm
      · rw [Int32.not_lt] at hm
        rw [Job.failing_of_le hm]; exact .failed hx hp hm
    · simp [find, hx, hp] at hv

theorem step_stats {queue : String} {a : Except Failure QueueStats}
    (h : stats now queue s = (a, s')) : Step rules now s (.stats queue) a s' := by
  unfold stats at h
  split at h
  · obtain ⟨-, rfl⟩ := Prod.mk.inj h
    exact .still (by cases a <;> rfl) (by cases a <;> rfl) rfl rfl fun _ => rfl
  · refine step_of_hold h fun v t hv => ?_
    dsimp only at hv
    generalize List.foldlM countJob (.empty queue) _ = counted at hv
    cases counted with
    | error f => cases hv
    | ok x =>
      obtain ⟨-, rfl⟩ := Prod.mk.inj (Except.ok.inj hv)
      exact .still rfl rfl rfl rfl fun _ => rfl

/-- **Every request is a step.** -/
theorem step_ask {r : Request} {a : Except Failure r.Answer} (h : ask rules now r s = (a, s')) :
    Step rules now s r a s' := by
  cases r with
  | dequeue worker queues => exact step_dequeue h
  | complete id result => exact step_complete h
  | fail id message => exact step_fail h
  | stats queue => exact step_stats h
  | enqueue id sub =>
    simp only [ask, enqueue] at h
    refine step_of_hold h fun v t hv => ?_
    obtain ⟨rfl, rfl⟩ := Prod.mk.inj (Except.ok.inj hv)
    exact .enqueued id sub
  | delete id =>
    simp only [ask, delete] at h
    refine step_of_hold h fun v t hv => ?_
    obtain ⟨rfl, rfl⟩ := Prod.mk.inj (Except.ok.inj hv)
    exact .deleted id
  | requeueStale before =>
    simp only [ask, requeueStale] at h
    refine step_of_hold h fun v t hv => ?_
    obtain ⟨rfl, rfl⟩ := Prod.mk.inj (Except.ok.inj hv)
    exact .requeued before
  | purge before =>
    simp only [ask, purge] at h
    refine step_of_hold h fun v t hv => ?_
    obtain ⟨rfl, rfl⟩ := Prod.mk.inj (Except.ok.inj hv)
    exact .purged before
  | get id =>
    simp only [ask, get] at h
    refine step_of_hold h fun v t hv => ?_
    cases hx : s.find id with
    | error f => simp [hx, Except.map] at hv
    | ok x =>
      simp only [hx, Except.map, Except.ok.injEq, Prod.mk.injEq] at hv
      obtain ⟨-, rfl⟩ := hv
      exact .still rfl rfl rfl rfl fun _ => rfl
  | list filter =>
    simp only [ask, list] at h
    refine step_of_hold h fun v t hv => ?_
    obtain ⟨-, rfl⟩ := Prod.mk.inj (Except.ok.inj hv)
    exact .still rfl rfl rfl rfl fun _ => rfl
  | canProcess tenant =>
    simp only [ask, canProcess] at h
    refine step_of_hold h fun v t hv => ?_
    split at hv
    · cases hv
    · obtain ⟨-, rfl⟩ := Prod.mk.inj (Except.ok.inj hv)
      exact .still rfl rfl rfl rfl fun _ => rfl
  | record tenant =>
    simp only [ask, record] at h
    refine step_of_hold h fun v t hv => ?_
    split at hv
    · cases hv
    · obtain ⟨-, rfl⟩ := Prod.mk.inj (Except.ok.inj hv)
      exact .still rfl rfl rfl rfl fun _ => rfl
  | setLimit tenant limit =>
    simp only [ask, setLimit] at h
    refine step_of_hold h fun v t hv => ?_
    obtain ⟨-, rfl⟩ := Prod.mk.inj (Except.ok.inj hv)
    exact .still rfl rfl rfl rfl fun _ => rfl
  | close =>
    obtain ⟨rfl, rfl⟩ := Prod.mk.inj h
    exact .still rfl rfl rfl rfl fun _ => rfl

/-- Only an overflow poisons the store. -/
theorem Step.poisoned {r : Request} {a : Except Failure r.Answer} (h : Step rules now s r a s')
    (ha : a ≠ .error .overflow) : s'.poisoned = s.poisoned := by
  cases h with
  | still _ _ _ _ sound => exact sound ha
  | enqueued | claimed | completed | retried | failed | deleted | requeued | purged => rfl

/-- A request that is refused leaves the jobs alone. -/
theorem Step.jobs_of_error {r : Request} {a : Except Failure r.Answer} {f : Failure}
    (h : Step rules now s r a s') (ha : a = .error f) : s'.jobs = s.jobs := by
  cases h with
  | still quiet idle jobs => exact jobs
  | _ => cases ha

end

/-! ## Claims and reports of an unpoisoned store -/

section
variable {s : Volatile} {id : String} {x : Ranked}

theorem dequeue_of_none (hp : s.poisoned = false) {now : Millis} {queues : QueueSet}
    (hn : s.next? now queues = none) (worker : String) :
    dequeue now worker queues s = (.ok none, s) := by
  refine hold_of_ok hp ?_
  simp only [hn]

/-- A claim counts one more attempt, if it can. -/
theorem dequeue_of_next (hp : s.poisoned = false) {now : Millis} {queues : QueueSet}
    (hn : s.next? now queues = some x) (worker : String) :
    dequeue now worker queues s =
      match succ32? x.job.attempts with
      | none => (.error .overflow, { s with poisoned := true })
      | some n => (.ok (some (x.job.taken now worker n)),
          s.update x.job.id x (x.job.taken now worker n)) := by
  unfold dequeue hold
  simp only [hp, hn, Job.start_eq (pending_of_next? hn).1, Bool.false_eq_true, if_false]
  cases succ32? x.job.attempts <;> rfl

/-- The success of the attempt under way is written down. -/
theorem complete_of_busy (hp : s.poisoned = false) (hx : s.jobs.get? id = some x)
    (hb : x.job.status = .processing) (now : Millis) (result : Option Payload) :
    complete now id result s = (.ok (), s.update id x (x.job.finished now result)) := by
  refine hold_of_ok hp ?_
  simp only [find, hx, Job.complete_eq hb]

/-- A success that does not fit the state of its job is refused. -/
theorem complete_of_idle (hp : s.poisoned = false) (hx : s.jobs.get? id = some x)
    (hb : x.job.status ≠ .processing) (now : Millis) (result : Option Payload) :
    complete now id result s = (.error (.error (.invalidState
      (.refused .complete id (.transition x.job.status .completed)))), s) := by
  simp [complete, hold, hp, find, hx, Job.complete, hb]

theorem complete_of_none (hp : s.poisoned = false) (hx : s.jobs.get? id = none) (now : Millis)
    (result : Option Payload) :
    complete now id result s = (.error (.error (.notFound (.job id))), s) := by
  simp [complete, hold, hp, find, hx]

/-- The failure of the attempt under way is written down. -/
theorem fail_of_busy (hp : s.poisoned = false) (hx : s.jobs.get? id = some x)
    (hb : x.job.status = .processing) (retry : RetryPolicy) (now : Millis) (message : String) :
    fail retry now id message s = (.ok (), s.update id x (x.job.failing retry now message)) := by
  refine hold_of_ok hp ?_
  simp only [find, hx, hb, ne_eq, not_true, if_false, afterFailure_eq hb]

/-- A failure that does not fit the state of its job is refused. -/
theorem fail_of_idle (hp : s.poisoned = false) (hx : s.jobs.get? id = some x)
    (hb : x.job.status ≠ .processing) (retry : RetryPolicy) (now : Millis) (message : String) :
    fail retry now id message s =
      (.error (.error (.invalidState (.notProcessing .fail id x.job.status))), s) := by
  simp [fail, hold, hp, find, hx, hb]

theorem fail_of_none (hp : s.poisoned = false) (hx : s.jobs.get? id = none) (retry : RetryPolicy)
    (now : Millis) (message : String) :
    fail retry now id message s = (.error (.error (.notFound (.job id))), s) := by
  simp [fail, hold, hp, find, hx]

/-- A claim overflows only when it meets a job whose attempts cannot be counted further. -/
theorem full_of_overflow {now : Millis} {worker : String} {queues : QueueSet}
    (h : (dequeue now worker queues s).1 = .error .overflow) :
    ∃ x, s.next? now queues = some x ∧ succ32? x.job.attempts = none := by
  rcases hold_cases (Prod.mk.eta (p := dequeue now worker queues s)).symm with
    ⟨v, -, -, hv⟩ | ⟨-, hr, -⟩ | ⟨e, he, -⟩
  · rw [h] at hv; cases hv
  · cases hn : s.next? now queues with
    | none => simp [hn] at hr
    | some x =>
      refine ⟨x, rfl, ?_⟩
      simp only [hn, Job.start_eq (pending_of_next? hn).1] at hr
      cases hc : succ32? x.job.attempts with
      | none => rfl
      | some n => simp [hc] at hr
  · rw [h] at he; cases he

end

/-! ## Tidy stores -/

/-- Every job is kept once, under its own name, and no rank is given twice. -/
structure Tidy (s : Volatile) : Prop where
  distinct : s.jobs.Distinct
  id_eq : ∀ {id x}, s.jobs.get? id = some x → x.job.id = id
  apart : Ranked.Distinct s.stored
  rank_lt : ∀ x ∈ s.stored, x.rank < s.nextRank

theorem tidy_empty : Tidy empty where
  distinct := List.nodup_nil
  id_eq h := by simp [empty] at h
  apart := by simp [empty, stored, Keyed.values, Ranked.Distinct]
  rank_lt := by simp [empty, stored, Keyed.values]

section
variable {s : Volatile} (hs : s.Tidy)
include hs

theorem Tidy.mem_stored {x : Ranked} : x ∈ s.stored ↔ s.jobs.get? x.job.id = some x := by
  constructor
  · intro h
    obtain ⟨p, hp, rfl⟩ := List.mem_map.1 h
    have := Keyed.get?_of_mem hs.distinct hp
    rwa [hs.id_eq this]
  · exact Keyed.mem_values

theorem Tidy.get?_of_next? {now : Millis} {queues : QueueSet} {x : Ranked}
    (h : s.next? now queues = some x) : s.jobs.get? x.job.id = some x :=
  hs.mem_stored.1 (next?_mem h).1

/-- A changed job takes the place of the job that it was. -/
theorem Tidy.stored_update {id : String} {x : Ranked} (hx : s.jobs.get? id = some x) (job : Job) :
    (s.update id x job).stored =
      s.stored.map fun y => if y.job.id = id then ⟨y.rank, job⟩ else y := by
  simp only [stored, update, Keyed.values, Keyed.put_old hs.distinct _ hx, List.map_map]
  refine List.map_congr_left fun p hp => ?_
  have hg := Keyed.get?_of_mem hs.distinct (k := p.1) (a := p.2) hp
  by_cases h : p.1 = id
  · rw [h, hx] at hg
    simp [h, ← Option.some.inj hg, hs.id_eq hx]
  · simp [h, hs.id_eq hg]

theorem Tidy.update {id : String} {x : Ranked} (hx : s.jobs.get? id = some x) {job : Job}
    (hj : job.id = id) : (s.update id x job).Tidy := by
  have hr : ∀ y : Ranked, (if y.job.id = id then ⟨y.rank, job⟩ else y : Ranked).rank = y.rank :=
    fun y => by split <;> rfl
  refine ⟨hs.distinct.put _ _, fun {id' y} hy => ?_, ?_, fun y hy => ?_⟩
  · simp only [Volatile.update, Keyed.get?_put] at hy
    split at hy
    · rename_i h
      rw [← Option.some.inj hy, hj, h]
    · exact hs.id_eq hy
  · rw [hs.stored_update hx]
    exact hs.apart.map hr
  · rw [hs.stored_update hx] at hy
    obtain ⟨z, hz, rfl⟩ := List.mem_map.1 hy
    exact (hr z).trans_lt (hs.rank_lt z hz)

/-- A job may get a name that another one has: then it takes its place. -/
theorem Tidy.enqueued {id : String} {job : Job} (hj : job.id = id) :
    Tidy { s with jobs := s.jobs.put id ⟨s.nextRank, job⟩, nextRank := s.nextRank + 1 } := by
  have hst : ∀ y ∈ (s.jobs.put id ⟨s.nextRank, job⟩).values, y = ⟨s.nextRank, job⟩ ∨ y ∈ s.stored :=
    fun y hy => Keyed.mem_values_put hy
  refine ⟨hs.distinct.put _ _, fun {id' y} hy => ?_, fun y hy z hz hr => ?_, fun y hy => ?_⟩
  · simp only [Keyed.get?_put] at hy
    split at hy
    · rename_i h
      rw [← Option.some.inj hy, hj, h]
    · exact hs.id_eq hy
  · -- the new rank is above all others
    rcases hst y hy with rfl | hy
    · rcases hst z hz with rfl | hz
      · rfl
      · exact absurd hr (hs.rank_lt z hz).ne'
    · rcases hst z hz with rfl | hz
      · exact absurd hr (hs.rank_lt y hy).ne
      · exact hs.apart y hy z hz hr
  · rcases hst y hy with rfl | hy
    · exact Nat.lt_succ_self _
    · exact Nat.lt_succ_of_lt (hs.rank_lt y hy)

theorem Tidy.mapJobs {f : Ranked → Ranked} (hr : ∀ x, (f x).rank = x.rank)
    (hi : ∀ x, (f x).job.id = x.job.id) : Tidy { s with jobs := s.jobs.mapValues f } := by
  have hst : (s.jobs.mapValues f).values = s.stored.map f := Keyed.values_mapValues f s.jobs
  refine ⟨hs.distinct.mapValues f, fun {id y} hy => ?_, ?_, fun y hy => ?_⟩
  · simp only [Keyed.get?_mapValues, Option.map_eq_some_iff] at hy
    obtain ⟨x, hx, rfl⟩ := hy
    rw [hi, hs.id_eq hx]
  · rw [stored, hst]
    exact hs.apart.map hr
  · rw [stored, hst] at hy
    obtain ⟨x, hx, rfl⟩ := List.mem_map.1 hy
    exact hr x ▸ hs.rank_lt x hx

theorem Tidy.keepIf (p : Ranked → Bool) : Tidy { s with jobs := s.jobs.keepIf p } := by
  have hst : (s.jobs.keepIf p).values = s.stored.filter p := Keyed.values_keepIf p s.jobs
  refine ⟨hs.distinct.keepIf p, fun {id y} hy => ?_, ?_, fun y hy => ?_⟩
  · simp only [Keyed.get?_keepIf hs.distinct, Option.filter_eq_some_iff] at hy
    exact hs.id_eq hy.1
  · rw [stored, hst]
    exact fun x hx y hy => hs.apart x (List.mem_filter.1 hx).1 y (List.mem_filter.1 hy).1
  · rw [stored, hst] at hy
    exact hs.rank_lt y (List.mem_filter.1 hy).1

/-- To take a name away is to keep the jobs with other names. -/
theorem Tidy.erase_eq (id : String) : s.jobs.erase id = s.jobs.keepIf fun x => x.job.id ≠ id := by
  refine List.filter_congr fun p hp => ?_
  have := hs.id_eq (Keyed.get?_of_mem hs.distinct (k := p.1) (a := p.2) hp)
  simp only [this]

/-- Every request leaves a tidy store behind, also one that gives a name a second time. -/
theorem Tidy.step {rules : Rules} {now : Millis} {s' : Volatile} {r : Request}
    {a : Except Failure r.Answer} (h : Step rules now s r a s') : s'.Tidy := by
  cases h with
  | still _ _ hj hr _ =>
    have hst : s'.stored = s.stored := by rw [stored, hj]; rfl
    exact ⟨hj ▸ hs.distinct, fun h => hs.id_eq (hj ▸ h), hst ▸ hs.apart,
      fun x hx => hr ▸ hs.rank_lt x (hst ▸ hx)⟩
  | enqueued id sub => exact hs.enqueued rfl
  | claimed next => exact hs.update (hs.get?_of_next? next) rfl
  | completed found => exact hs.update found (hs.id_eq found)
  | retried found => exact hs.update found (hs.id_eq found)
  | failed found => exact hs.update found (hs.id_eq found)
  | deleted id => rw [hs.erase_eq]; exact hs.keepIf _
  | requeued before =>
    refine hs.mapJobs (fun x => ?_) fun x => ?_
    · split <;> rfl
    · split <;> rfl
  | purged before => exact hs.keepIf _

end

/-! ## Well-formed stores -/

/-- Every job is kept once, under its own name, and the ranks grow in the order of the
    enumeration. -/
structure Valid (s : Volatile) : Prop where
  distinct : s.jobs.Distinct
  id_eq : ∀ {id x}, s.jobs.get? id = some x → x.job.id = id
  ascending : Ranked.Ascending s.stored
  rank_lt : ∀ x ∈ s.stored, x.rank < s.nextRank

theorem valid_empty : Valid empty where
  distinct := List.nodup_nil
  id_eq h := by simp [empty] at h
  ascending := List.Pairwise.nil
  rank_lt := by simp [empty, stored, Keyed.values]

/-- Ranks ascend if they do so in a list with the same ranks. -/
theorem ascending_of_map {l l' : List Ranked} (h : Ranked.Ascending l)
    (he : l'.map (·.rank) = l.map (·.rank)) : Ranked.Ascending l' := by
  have : (l.map (·.rank)).Pairwise (· < ·) := List.pairwise_map.2 h
  exact List.pairwise_map.1 (he ▸ this)

theorem Tidy.valid {s : Volatile} (ht : s.Tidy) (ascending : Ranked.Ascending s.stored) : s.Valid :=
  ⟨ht.distinct, ht.id_eq, ascending, ht.rank_lt⟩

section
variable {s : Volatile} (hs : s.Valid)
include hs

theorem Valid.tidy : s.Tidy := ⟨hs.distinct, hs.id_eq, hs.ascending.distinct, hs.rank_lt⟩

theorem Valid.mem_stored {x : Ranked} : x ∈ s.stored ↔ s.jobs.get? x.job.id = some x :=
  hs.tidy.mem_stored

theorem Valid.get?_of_next? {now : Millis} {queues : QueueSet} {x : Ranked}
    (h : s.next? now queues = some x) : s.jobs.get? x.job.id = some x :=
  hs.tidy.get?_of_next? h

theorem Valid.stored_update {id : String} {x : Ranked} (hx : s.jobs.get? id = some x) (job : Job) :
    (s.update id x job).stored =
      s.stored.map fun y => if y.job.id = id then ⟨y.rank, job⟩ else y :=
  hs.tidy.stored_update hx job

theorem Valid.update {id : String} {x : Ranked} (hx : s.jobs.get? id = some x) {job : Job}
    (hj : job.id = id) : (s.update id x job).Valid := by
  refine (hs.tidy.update hx hj).valid (ascending_of_map hs.ascending ?_)
  rw [hs.stored_update hx, List.map_map]
  refine List.map_congr_left fun y _ => ?_
  by_cases h : y.job.id = id <;> simp [h]

theorem Valid.enqueued {id : String} (hn : s.jobs.get? id = none) {job : Job} (hj : job.id = id) :
    Valid { s with jobs := s.jobs.put id ⟨s.nextRank, job⟩, nextRank := s.nextRank + 1 } := by
  refine (hs.tidy.enqueued hj).valid ?_
  have hst : (s.jobs.put id ⟨s.nextRank, job⟩).values = s.stored ++ [⟨s.nextRank, job⟩] := by
    simp [Keyed.put_new _ hn, Keyed.values, stored]
  rw [stored, hst]
  refine List.pairwise_append.2 ⟨hs.ascending, by simp, fun y hy z hz => ?_⟩
  rw [List.mem_singleton.1 hz]
  exact hs.rank_lt y hy

theorem Valid.mapJobs {f : Ranked → Ranked} (hr : ∀ x, (f x).rank = x.rank)
    (hi : ∀ x, (f x).job.id = x.job.id) : Valid { s with jobs := s.jobs.mapValues f } := by
  refine (hs.tidy.mapJobs hr hi).valid (ascending_of_map hs.ascending ?_)
  rw [stored, Keyed.values_mapValues, List.map_map]
  exact List.map_congr_left fun x _ => hr x

theorem Valid.keepIf (p : Ranked → Bool) : Valid { s with jobs := s.jobs.keepIf p } := by
  refine (hs.tidy.keepIf p).valid ?_
  rw [stored, Keyed.values_keepIf]
  exact hs.ascending.filter p

theorem Valid.erase_eq (id : String) : s.jobs.erase id = s.jobs.keepIf fun x => x.job.id ≠ id :=
  hs.tidy.erase_eq id

theorem Valid.step {rules : Rules} {now : Millis} {s' : Volatile} {r : Request}
    {a : Except Failure r.Answer} (h : Step rules now s r a s')
    (hn : ∀ id sub, r = .enqueue id sub → s.jobs.get? id = none) : s'.Valid := by
  cases h with
  | still _ _ hj hr _ =>
    have hst : s'.stored = s.stored := by rw [stored, hj]; rfl
    exact ⟨hj ▸ hs.distinct, fun h => hs.id_eq (hj ▸ h), hst ▸ hs.ascending,
      fun x hx => hr ▸ hs.rank_lt x (hst ▸ hx)⟩
  | enqueued id sub => exact hs.enqueued (hn id sub rfl) rfl
  | claimed next => exact hs.update (hs.get?_of_next? next) rfl
  | completed found => exact hs.update found (hs.id_eq found)
  | retried found => exact hs.update found (hs.id_eq found)
  | failed found => exact hs.update found (hs.id_eq found)
  | deleted id => rw [hs.erase_eq]; exact hs.keepIf _
  | requeued before =>
    refine hs.mapJobs (fun x => ?_) fun x => ?_
    · split <;> rfl
    · split <;> rfl
  | purged before => exact hs.keepIf _

end

end Volatile

end JobQueue
