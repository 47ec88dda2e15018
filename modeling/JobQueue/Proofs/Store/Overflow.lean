/-
  Nothing overflows in the volatile store.

  On a clock that shows no time before the epoch all differences of times are
  representable, since the times in the store are readings of the clock.  The
  counts are bounded by the requests that raise them: the attempts of a job by
  the claims that turned to it (`turns`), the jobs in a window by the jobs
  counted, ranks and the numbers in answers by the submissions (`WithinRange`).
  So as long as these are in range (`Moderate`) no operation breaks off, the
  store is never poisoned, and the only refusals are those of requests that name
  a job which is not there or not in processing (`nothing_overflows`).
-/
import JobQueue.Proofs.Store.Epoch

namespace JobQueue

/-! ## Refusals -/

/-- The errors with which a request may be refused. -/
inductive Request.RefusedWith : Request → Error → Prop where
  | get (id : String) : RefusedWith (.get id) (.notFound (.job id))
  | unknownComplete (id : String) (result : Option Payload) :
      RefusedWith (.complete id result) (.notFound (.job id))
  | idleComplete (id : String) (result : Option Payload) (status : Status) :
      RefusedWith (.complete id result)
        (.invalidState (.refused .complete id (.transition status .completed)))
  | unknownFail (id message : String) : RefusedWith (.fail id message) (.notFound (.job id))
  | idleFail (id message : String) (status : Status) :
      RefusedWith (.fail id message) (.invalidState (.notProcessing .fail id status))

/-- The numbers that are counted for an answer. -/
def Request.numbers : (r : Request) → r.Answer → List ℕ
  | .stats _, counted => [counted.pending, counted.processing, counted.completed, counted.failed]
  | .requeueStale _, n => [n]
  | .purge _, n => [n]
  | _, _ => []

theorem RetryPolicy.two_pow_doublings_le (n : Int32) :
    (2 : ℤ) ^ doublings n ≤ Int64.maxValue.toInt := by
  calc (2 : ℤ) ^ doublings n ≤ 2 ^ maxDoublings := by
        gcongr
        · norm_num
        · exact min_le_right ..
    _ ≤ Int64.maxValue.toInt := by decide

theorem Filter.page_nonneg (f : Filter) :
    0 ≤ f.pageOffset.toInt ∧ ∀ l, f.pageLimit = some l → 0 ≤ l.toInt := by
  have hcut : ∀ n : Int64, 0 ≤ (if n < 0 then 0 else n : Int64).toInt := by
    intro n
    split
    · rfl
    · exact Int64.le_iff_toInt_le.1 (Int64.not_lt.1 ‹_›)
  refine ⟨hcut f.offset, fun l hl => ?_⟩
  obtain ⟨n, -, rfl⟩ := Option.map_eq_some_iff.1 hl
  exact hcut n

namespace Volatile

section
variable {rules : Rules} {h : List Event} {s : Volatile} {now : Millis} {r : Request}

/-! ## Statistics -/

/-- A job is counted once, unless its run took longer than times can be apart. -/
theorem countJob_cases (stats : QueueStats) (j : Job) :
    (∃ stats', countJob stats j = .ok stats' ∧ stats'.total = stats.total + 1) ∨
      countJob stats j = .error .overflow := by
  unfold countJob
  split
  · exact .inl ⟨_, rfl, by simp only [QueueStats.total]; omega⟩
  · exact .inl ⟨_, rfl, by simp only [QueueStats.total]; omega⟩
  · exact .inl ⟨_, rfl, by simp only [QueueStats.total]; omega⟩
  · dsimp only
    split
    · split
      · exact .inr rfl
      · exact .inl ⟨_, rfl, by simp only [QueueStats.total]; omega⟩
    · exact .inl ⟨_, rfl, by simp only [QueueStats.total]; omega⟩

/-- The statistics count every job once. -/
theorem countJobs_cases (l : List Job) (stats : QueueStats) :
    (∃ stats', l.foldlM countJob stats = .ok stats' ∧ stats'.total = stats.total + l.length) ∨
      l.foldlM countJob stats = .error .overflow := by
  induction l generalizing stats with
  | nil => exact .inl ⟨stats, rfl, rfl⟩
  | cons j l ih =>
    rw [List.foldlM_cons]
    rcases countJob_cases stats j with ⟨mid, hj, hone⟩ | hj
    · rw [hj]
      rcases ih mid with ⟨stats', hl, hrest⟩ | hl
      · exact .inl ⟨stats', hl, by rw [hrest, hone, List.length_cons]; omega⟩
      · exact .inr hl
    · rw [hj]
      exact .inr rfl

theorem ok_of_hold {α : Type} {run : Volatile → Except Failure (α × Volatile)} {a : α}
    (h : (s.hold run).1 = .ok a) : ∃ t, run s = .ok (a, t) := by
  have heta : s.hold run = ((s.hold run).1, (s.hold run).2) := rfl
  rcases hold_cases heta with ⟨v, -, hv, hok⟩ | ⟨-, -, ho, -⟩ | ⟨e, he, -⟩
  · obtain rfl := Except.ok.inj (hok.symm.trans h)
    exact ⟨_, hv⟩
  · cases ho.symm.trans h
  · cases he.symm.trans h

theorem stats_ok {queue : String} {counted : QueueStats}
    (ha : (ask rules now (.stats queue) s).1 = .ok counted) : counted.total ≤ s.stored.length := by
  simp only [ask, Volatile.stats] at ha
  split at ha
  · cases ha
  · rename_i since _
    obtain ⟨t, ht⟩ := ok_of_hold ha
    generalize hl : (s.stored.map (·.job)).filter
      (fun j => j.queue == queue && since ≤ j.createdAt) = l at ht
    have hle : l.length ≤ s.stored.length := by
      rw [← hl]
      exact (List.length_filter_le ..).trans (List.length_map _).le
    rcases countJobs_cases l (.empty queue) with ⟨stats, hc, htotal⟩ | hc
    · rw [hc] at ht
      obtain ⟨rfl, -⟩ := Prod.mk.inj (Except.ok.inj ht)
      simp only [QueueStats.empty, QueueStats.total] at htotal ⊢
      omega
    · rw [hc] at ht
      cases ht

/-! ## Answers of a store that is not poisoned -/

theorem refusedWith_of_healthy (healthy : s.poisoned = false) {e : Error}
    (ha : (ask rules now r s).1 = .error (.error e)) : r.RefusedWith e := by
  cases r with
  | complete id result =>
    cases hx : s.jobs.get? id with
    | none =>
      rw [show ask rules now (.complete id result) s = _ from
        complete_of_none healthy hx now result] at ha
      cases ha
      exact .unknownComplete id result
    | some x =>
      by_cases hb : x.job.status = .processing
      · rw [show ask rules now (.complete id result) s = _ from
          complete_of_busy healthy hx hb now result] at ha
        cases ha
      · rw [show ask rules now (.complete id result) s = _ from
          complete_of_idle healthy hx hb now result] at ha
        cases ha
        exact .idleComplete id result _
  | fail id message =>
    cases hx : s.jobs.get? id with
    | none =>
      rw [show ask rules now (.fail id message) s = _ from
        fail_of_none healthy hx rules.retry now message] at ha
      cases ha
      exact .unknownFail id message
    | some x =>
      by_cases hb : x.job.status = .processing
      · rw [show ask rules now (.fail id message) s = _ from
          fail_of_busy healthy hx hb rules.retry now message] at ha
        cases ha
      · rw [show ask rules now (.fail id message) s = _ from
          fail_of_idle healthy hx hb rules.retry now message] at ha
        cases ha
        exact .idleFail id message _
  | get id =>
    cases hx : s.jobs.get? id with
    | none =>
      simp only [ask, get, hold, healthy, find, hx, Except.map] at ha
      cases ha
      exact .get id
    | some x => simp [ask, get, hold, healthy, find, hx, Except.map] at ha
  | dequeue worker queues =>
    cases hn : s.next? now queues with
    | none =>
      rw [show ask rules now (.dequeue worker queues) s = _ from
        dequeue_of_none healthy hn worker] at ha
      cases ha
    | some x =>
      rw [show ask rules now (.dequeue worker queues) s = _ from
        dequeue_of_next healthy hn worker] at ha
      cases hc : succ32? x.job.attempts <;> rw [hc] at ha <;> cases ha
  | stats queue =>
    simp only [ask, Volatile.stats] at ha
    split at ha
    · cases ha
    · simp only [hold, healthy, Bool.false_eq_true, if_false] at ha
      generalize List.filter _ (s.stored.map (·.job)) = l at ha
      rcases countJobs_cases l (.empty queue) with ⟨stats, hc, -⟩ | hc <;> rw [hc] at ha <;> cases ha
  | canProcess t => exact absurd ha (canProcess_ne_error healthy rules now t e)
  | record t =>
    rw [show ask rules now (.record t) s = _ from record_of_healthy healthy now t] at ha
    cases hw : ((s.windows.get? t).getD (.openAt now)).record? now <;> rw [hw] at ha <;> cases ha
  | enqueue id sub => simp [ask, enqueue, hold, healthy] at ha
  | delete id => simp [ask, delete, hold, healthy] at ha
  | list filter => simp [ask, list, hold, healthy] at ha
  | setLimit t l => simp [ask, setLimit, hold, healthy] at ha
  | requeueStale before => simp [ask, requeueStale, hold, healthy] at ha
  | purge before => simp [ask, purge, hold, healthy] at ha
  | close => cases ha

/-- Every counted number counts some of the stored jobs. -/
theorem numbers_le {a : r.Answer} (ha : (ask rules now r s).1 = .ok a) :
    ∀ n ∈ r.numbers a, n ≤ s.stored.length := by
  intro n hn
  cases r with
  | stats queue =>
    have htotal := stats_ok ha
    simp only [Request.numbers, List.mem_cons, List.not_mem_nil, or_false] at hn
    simp only [QueueStats.total] at htotal
    omega
  | requeueStale before =>
    obtain ⟨t, ht⟩ := ok_of_hold ha
    obtain ⟨rfl, -⟩ := Prod.mk.inj (Except.ok.inj ht)
    obtain rfl := List.mem_singleton.1 hn
    exact List.countP_le_length
  | purge before =>
    obtain ⟨t, ht⟩ := ok_of_hold ha
    obtain ⟨rfl, -⟩ := Prod.mk.inj (Except.ok.inj ht)
    obtain rfl := List.mem_singleton.1 hn
    exact List.countP_le_length
  | _ => cases hn

/-! ## Moderate runs -/

/-- Did a claim turn to the job with this rank?  It broke off if it could not count the attempt. -/
def Event.turnsTo (rank : ℕ) (e : Event) : Bool :=
  match e.request with
  | .dequeue _ queues => (e.before.next? e.now queues).any (·.rank == rank)
  | _ => false

/-- Was a job to be inserted? -/
def Event.submits (e : Event) : Bool := e.name?.isSome

/-- How many claims turned to the job with this rank. -/
def turns (rank : ℕ) (h : List Event) : ℕ := h.countP (Event.turnsTo rank)

/-- The clock showed no time before the epoch, no job was claimed more often than its attempts can
    be counted, and fewer than `2 ^ 63` jobs were inserted or counted. -/
structure Moderate (h : List Event) : Prop where
  readings : ∀ e ∈ h, 0 ≤ e.now.toInt
  claims : ∀ rank, (turns rank h : ℤ) ≤ Int32.maxValue.toInt
  submitted : h.countP Event.submits < 2 ^ 63
  counted : h.countP Event.counts < 2 ^ 63

theorem Moderate.past {e : Event} (moderate : Moderate (e :: h)) : Moderate h where
  readings e' he := moderate.readings e' (List.mem_cons_of_mem e he)
  claims rank := by
    refine le_trans ?_ (moderate.claims rank)
    exact_mod_cast List.Sublist.countP_le (List.sublist_cons_self e h)
  submitted := (List.Sublist.countP_le (List.sublist_cons_self e h)).trans_lt moderate.submitted
  counted := (List.Sublist.countP_le (List.sublist_cons_self e h)).trans_lt moderate.counted

theorem turns_cons (rank : ℕ) (e : Event) (h : List Event) :
    turns rank (e :: h) = turns rank h + if e.turnsTo rank then 1 else 0 :=
  List.countP_cons

theorem Event.exists_of_turnsTo {e : Event} {rank : ℕ} (ht : e.turnsTo rank = true) :
    ∃ worker queues x, e.request = .dequeue worker queues ∧
      e.before.next? e.now queues = some x ∧ x.rank = rank := by
  unfold turnsTo at ht
  split at ht
  · rename_i worker queues hr
    obtain ⟨x, hx, hrank⟩ := (Option.any_eq_true ..).1 ht
    exact ⟨worker, queues, x, hr, hx, eq_of_beq hrank⟩
  · cases ht

/-- No claim has turned to a job that is still to come. -/
theorem Trace.turns_eq_zero (trace : Trace rules h s) {rank : ℕ} (hr : s.nextRank ≤ rank) :
    turns rank h = 0 := by
  refine List.countP_eq_zero.2 fun e he ht => ?_
  obtain ⟨_, _, x, -, hx, rfl⟩ := Event.exists_of_turnsTo ht
  exact absurd (trace.rank_lt he (next?_mem hx).1) (not_lt.2 hr)

/-- Ranks are given to no more jobs than were to be inserted. -/
theorem Trace.nextRank_le (trace : Trace rules h s) : s.nextRank ≤ h.countP Event.submits := by
  rw [trace.nextRank, submissions, List.length_filterMap_eq_countP]
  refine List.countP_mono_left fun e _ ha => ?_
  obtain ⟨p, hp⟩ := Option.isSome_iff_exists.1 ha
  rw [Event.submits, Event.name?, Request.eq_enqueue_of_accepted? hp]
  rfl

theorem Tidy.nodup (hs : s.Tidy) : s.stored.Nodup := by
  have hkeys : s.stored.map (·.job.id) = s.jobs.keys := by
    rw [stored, Keyed.values, Keyed.keys, List.map_map]
    exact List.map_congr_left fun p hp => hs.id_eq (Keyed.get?_of_mem hs.distinct hp)
  have hdistinct : s.jobs.keys.Nodup := hs.distinct
  exact .of_map _ (hkeys ▸ hdistinct)

/-- There are no more jobs than ranks. -/
theorem Tidy.length_le (hs : s.Tidy) : s.stored.length ≤ s.nextRank := by
  have hranks : (s.stored.map (·.rank)).Nodup := hs.nodup.map_on hs.apart
  have hsub : s.stored.map (·.rank) ⊆ List.range s.nextRank := by
    intro rank hr
    obtain ⟨x, hx, rfl⟩ := List.mem_map.1 hr
    exact List.mem_range.2 (hs.rank_lt x hx)
  simpa using (hranks.subperm hsub).length_le

/-! ## Counts -/

/-- A claim counts one more attempt at its job, and nothing else changes the attempts. -/
theorem Fate.attempts {a : Except Failure r.Answer} {id : String} {x y : Ranked}
    (fate : Fate rules now id r a (some x) (some y)) :
    y.job.attempts.toInt =
      x.job.attempts.toInt + if (r.claimed? a).any (·.id == id) then 1 else 0 := by
  cases fate with
  | same _ quiet =>
    have hno : (r.claimed? a).any (·.id == id) = false := by
      simpa [Option.any_eq_false] using quiet
    simp [hno]
  | claimed _ _ count named => simpa [Request.claimed?, Job.taken, named] using toInt_of_fit32? count
  | completed | retried | failed | requeued => exact (add_zero _).symm

/-- A claim hands out the job to which it turns. -/
theorem turnsTo_eq_claims (hs : s.Tidy) (healthy : s.poisoned = false)
    (steady : (ask rules now r s).1 ≠ .error .overflow) {id : String} {x : Ranked}
    (hx : s.jobs.get? id = some x) :
    (Event.ask rules now r s).turnsTo x.rank = (Event.ask rules now r s).claims id := by
  cases r with
  | dequeue worker queues =>
    have hturn : (Event.ask rules now (.dequeue worker queues) s).turnsTo x.rank =
      (s.next? now queues).any (·.rank == x.rank) := rfl
    have hclaim : (Event.ask rules now (.dequeue worker queues) s).claims id =
      ((Request.dequeue worker queues).claimed? (dequeue now worker queues s).1).any (·.id == id) :=
        rfl
    rw [hturn, hclaim]
    cases hn : s.next? now queues with
    | none => rw [dequeue_of_none healthy hn]; rfl
    | some w =>
      have hask := dequeue_of_next healthy hn worker
      cases hc : succ32? w.job.attempts with
      | none =>
        rw [hc] at hask
        exact absurd (congrArg Prod.fst hask) steady
      | some n =>
        rw [hask, hc]
        -- there is one job with this rank, and it is the one under this name
        have hiff : w.rank = x.rank ↔ w.job.id = id := by
          constructor
          · intro hr
            rw [hs.apart w (next?_mem hn).1 x (Keyed.mem_values hx) hr, hs.id_eq hx]
          · rintro rfl
            rw [Option.some.inj ((hs.get?_of_next? hn).symm.trans hx)]
        simpa [Request.claimed?, Job.taken, beq_eq_beq] using hiff
  | _ => rfl

/-- The counts of a store that a moderate trace leads to. -/
structure WithinRange (h : List Event) (s : Volatile) : Prop where
  healthy : s.poisoned = false
  attempts : ∀ x ∈ s.stored, x.job.attempts.toInt = turns x.rank h

theorem withinRange_empty : WithinRange [] empty where
  healthy := rfl
  attempts := nofun

section
variable (range : WithinRange h s) (moderate : Moderate (.ask rules now r s :: h))
  (trace : Trace rules h s)
include range moderate trace

/-- There is room for what the next request counts. -/
theorem WithinRange.roomFor : s.RoomFor now r := by
  cases r with
  | dequeue worker queues =>
    intro x hx hfull
    have hturn : (Event.ask rules now (.dequeue worker queues) s).turnsTo x.rank = true :=
      (Option.any_eq_true ..).2 ⟨x, hx, beq_self_eq_true _⟩
    have hle := moderate.claims x.rank
    have hcount := range.attempts x (next?_mem hx).1
    rw [turns_cons, if_pos hturn] at hle
    rw [hfull] at hcount
    omega
  | record t =>
    intro hfull
    have hlt := moderate.counted
    have hcounts : (Event.ask rules now (.record t) s).counts = true := rfl
    rw [List.countP_cons, if_pos hcounts] at hlt
    have hmax : Int64.maxValue.toInt = 2 ^ 63 - 1 := by decide
    rcases counted?_eq_some hfull with hzero | ⟨w, hw, hjobs⟩
    · exact absurd hzero (by decide)
    · have hle := trace.jobs_le hw
      rw [← hjobs] at hle
      omega
  | _ => trivial

theorem WithinRange.steady : (ask rules now r s).1 ≠ .error .overflow :=
  steady_of_room range.healthy (trace.sinceEpoch moderate.past.readings)
    (moderate.readings _ List.mem_cons_self) (range.roomFor moderate trace)

/-- A request that nothing overflows leaves the counts in range. -/
theorem WithinRange.next : WithinRange (.ask rules now r s :: h) (ask rules now r s).2 where
  healthy := ((step_ask rfl).poisoned (range.steady moderate trace)).trans range.healthy
  attempts y hy := by
    have hget := (Trace.next trace now r).tidy.mem_stored.1 hy
    rcases (step_ask rfl).origin trace.tidy hget with ⟨sub, hacc, he⟩ | ⟨x, hx, fate⟩
    · -- no claim has turned to a new job
      have hturn : (Event.ask rules now r s).turnsTo s.nextRank = false := by
        have hr := Request.eq_enqueue_of_accepted? hacc
        subst hr
        rfl
      rw [he, turns_cons, trace.turns_eq_zero le_rfl, hturn]
      rfl
    · rw [fate.attempts, range.attempts x (Keyed.mem_values hx), turns_cons, fate.rank,
        turnsTo_eq_claims trace.tidy range.healthy (range.steady moderate trace) hx]
      push_cast
      rfl

end

/-- **The counts of a moderate trace stay in range.** -/
theorem Trace.withinRange (trace : Trace rules h s) (moderate : Moderate h) : WithinRange h s := by
  induction trace with
  | start => exact withinRange_empty
  | next past now r ih => exact (ih moderate.past).next moderate past

/-! ## Nothing overflows -/

/-- The numbers that a request meets and gives are those of the integers. -/
structure Event.Fits (e : Event) : Prop where
  /-- The number of the next insertion. -/
  rank : e.after.nextRank < 2 ^ 63
  /-- The jobs in processing, as they are compared with a limit. -/
  processing : ∀ t, (clamp (e.before.processing t)).toInt = e.before.processing t
  /-- What was counted for the answer. -/
  numbers : ∀ a, e.answer = .ok a → ∀ n ∈ e.request.numbers a, n < 2 ^ 63

theorem Trace.fits (trace : Trace rules h s) (moderate : Moderate (.ask rules now r s :: h)) :
    (Event.ask rules now r s).Fits := by
  have hstored : s.stored.length < 2 ^ 63 := by
    have := trace.tidy.length_le
    have := trace.nextRank_le
    have := moderate.past.submitted
    omega
  refine ⟨(Trace.next trace now r).nextRank_le.trans_lt moderate.submitted, fun t => ?_,
    fun a ha n hn => (numbers_le ha n hn).trans_lt hstored⟩
  have hle : s.processing t ≤ s.stored.length := List.countP_le_length
  show (clamp (s.processing t)).toInt = s.processing t
  rw [toInt_clamp]
  omega

/-- **Nothing overflows in a moderate run.**  Take any requests in any order with any arguments, and
    any rules.  If the clock shows no time before the epoch, no job is claimed more often than
    its attempts can be counted, and fewer than `2 ^ 63` jobs are inserted or counted, then no
    request breaks off and the store is never poisoned; a request is refused only for a job that
    is not there, or a report for one that is not in processing; and all numbers that are counted,
    shifted or skipped are in range. -/
theorem nothing_overflows (trace : Trace rules h s) (moderate : Moderate h) :
    s.poisoned = false ∧
    (∀ e ∈ h, e.answer ≠ .error .overflow ∧
      (∀ err, e.answer = .error (.error err) → e.request.RefusedWith err) ∧ e.Fits) ∧
    (∀ n, (2 : ℤ) ^ RetryPolicy.doublings n ≤ Int64.maxValue.toInt) ∧
    ∀ f : Filter, 0 ≤ f.pageOffset.toInt ∧ ∀ l, f.pageLimit = some l → 0 ≤ l.toInt := by
  refine ⟨(trace.withinRange moderate).healthy, ?_, RetryPolicy.two_pow_doublings_le,
    Filter.page_nonneg⟩
  induction trace with
  | start => intro e he; cases he
  | next past now r ih =>
    intro e he
    rcases List.mem_cons.1 he with rfl | he
    · have range := past.withinRange moderate.past
      exact ⟨range.steady moderate past, fun err herr => refusedWith_of_healthy range.healthy herr,
        past.fits moderate⟩
    · exact ih moderate.past e he

/-- A name is given twice while its first job is in processing; the second one fails for good. -/
def nameTwice : List Call :=
  [⟨5, .enqueue "a" ⟨"q", "t", "o", .empty, {}⟩⟩, ⟨9, .dequeue "w" .any⟩,
    ⟨7, .enqueue "a" ⟨"q", "t", "o", .empty, { maxAttempts := 1, schedule := .at (-1) }⟩⟩,
    ⟨3, .complete "a" none⟩, ⟨2, .dequeue "w" .any⟩, ⟨2, .record ⟨"o", "q"⟩⟩, ⟨1, .fail "a" "no"⟩,
    ⟨0, .stats "q"⟩, ⟨4, .canProcess ⟨"o", "q"⟩⟩, ⟨6, .requeueStale Int64.maxValue⟩]

theorem moderate_nameTwice : Moderate (replay .default nameTwice).1 where
  readings := by decide
  claims rank := by
    have hlen : turns rank (replay .default nameTwice).1 ≤ 10 := List.countP_le_length
    have hmax : Int32.maxValue.toInt = 2 ^ 31 - 1 := by decide
    omega
  submitted := lt_of_le_of_lt List.countP_le_length (by decide)
  counted := lt_of_le_of_lt List.countP_le_length (by decide)

theorem nothing_overflows_nameTwice :
    Trace .default (replay .default nameTwice).1 (replay .default nameTwice).2 ∧
    Moderate (replay .default nameTwice).1 ∧ turns 1 (replay .default nameTwice).1 = 1 ∧
    (replay .default nameTwice).2.poisoned = false ∧
    ∃ e ∈ (replay .default nameTwice).1, ∃ err, e.answer = .error (.error err) ∧
      e.request.RefusedWith err := by
  have trace := Trace.replay .default nameTwice
  obtain ⟨healthy, hevents, -⟩ := nothing_overflows trace moderate_nameTwice
  have hrefused : (replay .default nameTwice).1.any (fun e => !e.answer.isOk) = true := by decide
  obtain ⟨e, he, herr⟩ := List.any_eq_true.1 hrefused
  obtain ⟨counted, refused, -⟩ := hevents e he
  refine ⟨trace, moderate_nameTwice, by decide, healthy, e, he, ?_⟩
  cases ha : e.answer with
  | ok a => rw [ha] at herr; cases herr
  | error failure =>
    cases failure with
    | overflow => exact absurd ha counted
    | error err => exact ⟨err, rfl, refused err ha⟩

end

end Volatile

end JobQueue
