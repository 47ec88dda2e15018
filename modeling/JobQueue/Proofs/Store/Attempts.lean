/-
  How often a job is handed out.

  The attempts of a job count its claims.  A job that waits has a claim left:
  it was claimed less often than it is permitted, counting once more for every
  time it was put back after its worker was lost (`Tallied`).  Only such a job
  can be handed out beyond its permitted attempts, and only its attempts can
  outgrow their 32 bits (`claims_within_permission`).  A store that is poisoned
  takes no report, also not the one of a last attempt
  (`poisoned_store_keeps_last_attempts`).
-/
import JobQueue.Proofs.Store.History

namespace JobQueue

/-! ## One job -/

/-- The job was claimed `c` times and put back `q` times. -/
structure Job.Tallied (c q : ℕ) (j : Job) : Prop where
  attempts : j.attempts.toInt = c
  within : (c : ℤ) ≤ max j.maxAttempts.toInt 1 + q
  pending : j.status = .pending → (c : ℤ) < max j.maxAttempts.toInt 1 + q
  failed : j.status = .failed → j.maxAttempts ≤ j.attempts

namespace Job.Tallied

variable {c q : ℕ} {j : Job}

theorem mono {q' : ℕ} (h : Tallied c q j) (hq : q ≤ q') : Tallied c q' j where
  attempts := h.attempts
  within := by have := h.within; omega
  pending hp := by have := h.pending hp; omega
  failed := h.failed

theorem new (sub : Submission) (id : String) (now : Millis) (q : ℕ) :
    Tallied 0 q (sub.toJob id now) where
  attempts := rfl
  within := by omega
  pending _ := by omega
  failed h := by cases h

/-- A claim uses up one of the claims that are left. -/
theorem taken (h : Tallied c q j) (hp : j.status = .pending) {n : Int32}
    (hn : succ32? j.attempts = some n) (now : Millis) (worker : String) :
    Tallied (c + 1) q (j.taken now worker n) where
  attempts := by
    have := toInt_of_fit32? hn
    have := h.attempts
    simp only [Job.taken]
    omega
  within := by have := h.pending hp; simp only [Job.taken]; omega
  pending h := by cases h
  failed h := by cases h

theorem finished (h : Tallied c q j) (now : Millis) (result : Option Payload) :
    Tallied c q (j.finished now result) where
  attempts := h.attempts
  within := h.within
  pending h := by cases h
  failed h := by cases h

/-- A job that is tried again has a permitted attempt left. -/
theorem delayed (h : Tallied c q j) (hm : j.attempts < j.maxAttempts) (retryAt : Millis)
    (message : String) : Tallied c q (j.delayed retryAt message) where
  attempts := h.attempts
  within := h.within
  pending _ := by
    have := Int32.lt_iff_toInt_lt.1 hm
    have := h.attempts
    simp only [Job.delayed]
    omega
  failed h := by cases h

theorem givenUp (h : Tallied c q j) (hm : j.maxAttempts ≤ j.attempts) (now : Millis)
    (message : String) : Tallied c q (j.givenUp now message) where
  attempts := h.attempts
  within := h.within
  pending h := by cases h
  failed _ := hm

/-- A job that is put back gets its claim back. -/
theorem requeued (h : Tallied c q j) : Tallied c (q + 1) j.requeued where
  attempts := h.attempts
  within := by have := h.within; simp only [Job.requeued]; omega
  pending _ := by have := h.within; simp only [Job.requeued]; omega
  failed h := by cases h

end Job.Tallied

namespace Volatile

/-! ## Counting along a history -/

section
variable {id : String} {h : List Event} {e : Event}

theorem claims_of_quiet (hq : ∀ job, e.claimed? = some job → job.id ≠ id) :
    claims id (e :: h) = claims id h := by
  refine List.countP_cons_of_neg ?_
  cases hc : e.claimed? with
  | none => simp [Event.claims, hc]
  | some job => simp [Event.claims, hc, hq job hc]

theorem claims_of_none (hq : e.claimed? = none) : claims id (e :: h) = claims id h :=
  claims_of_quiet fun job hj => by rw [hq] at hj; cases hj

theorem claims_of_claimed {job : Job} (hc : e.claimed? = some job) (hi : job.id = id) :
    claims id (e :: h) = claims id h + 1 :=
  List.countP_cons_of_pos (by simp [Event.claims, hc, hi])

theorem claims_le : claims id h ≤ claims id (e :: h) := (List.sublist_cons_self e h).countP_le

theorem requeues_le : requeues id h ≤ requeues id (e :: h) := (List.sublist_cons_self e h).countP_le

theorem requeues_of_putsBack (hp : e.putsBack id = true) :
    requeues id (e :: h) = requeues id h + 1 :=
  List.countP_cons_of_pos hp

end

/-- What is kept under a name agrees with the counts of the history. -/
structure Counted (h : List Event) (id : String) (y : Option Ranked) : Prop where
  unnamed : id ∉ names h → claims id h = 0
  tallied : ∀ x, y = some x → x.job.Tallied (claims id h) (requeues id h)
  permitted : ∀ x sub, y = some x → (id, sub) ∈ submissions h →
    x.job.maxAttempts = sub.options.maxAttempts
  bound : ∀ sub, (id, sub) ∈ submissions h →
    (claims id h : ℤ) ≤ max sub.options.maxAttempts.toInt 1 + requeues id h

theorem Counted.nothing (id : String) : Counted [] id none where
  unnamed _ := rfl
  tallied x h := by cases h
  permitted x sub h := by cases h
  bound sub h := by cases h

/-- A request that claims and inserts nothing under the name keeps the counts. -/
theorem Counted.keep {h : List Event} {id : String} {e : Event} {y y' : Option Ranked}
    (hc : Counted h id y) (hcl : claims id (e :: h) = claims id h)
    (hsub : ∀ sub, (id, sub) ∈ submissions (e :: h) → (id, sub) ∈ submissions h)
    (ht : ∀ x', y' = some x' → ∃ x, y = some x ∧ x'.job.maxAttempts = x.job.maxAttempts ∧
      x'.job.Tallied (claims id h) (requeues id (e :: h))) : Counted (e :: h) id y' := by
  refine ⟨fun hn => ?_, fun x' hx' => ?_, fun x' sub hx' hs => ?_, fun sub hs => ?_⟩
  · rw [hcl]; exact hc.unnamed fun hm => hn (names_cons hm)
  · obtain ⟨x, -, -, h⟩ := ht x' hx'
    rw [hcl]; exact h
  · obtain ⟨x, hx, hm, -⟩ := ht x' hx'
    rw [hm]; exact hc.permitted x sub hx (hsub sub hs)
  · have := hc.bound sub (hsub sub hs)
    have : requeues id h ≤ requeues id (e :: h) := requeues_le
    rw [hcl]; omega

/-- The same for a request that changes the job under the name. -/
theorem Counted.change {h : List Event} {id : String} {e : Event} {x x' : Ranked}
    (hc : Counted h id (some x)) (hq : e.claimed? = none) (ha : e.accepted? = none)
    (hm : x'.job.maxAttempts = x.job.maxAttempts)
    (ht : x'.job.Tallied (claims id h) (requeues id (e :: h))) : Counted (e :: h) id (some x') := by
  refine hc.keep (claims_of_none hq) (fun sub hs => submissions_cons ha ▸ hs) ?_
  rintro _ ⟨⟩
  exact ⟨x, rfl, hm, ht⟩

theorem Counted.vanish {h : List Event} {id : String} {e : Event} {x : Ranked}
    (hc : Counted h id (some x)) (hq : e.claimed? = none) (ha : e.accepted? = none) :
    Counted (e :: h) id none :=
  hc.keep (claims_of_none hq) (fun sub hs => submissions_cons ha ▸ hs) fun x' h => by cases h

/-- The counts begin when a job gets the name. -/
theorem Counted.enqueued {h : List Event} {id : String} {e : Event} {sub : Submission}
    (hc : Counted h id none) (hn : id ∉ names h) (hq : e.claimed? = none)
    (ha : e.accepted? = some (id, sub)) (now : Millis) (rank : ℕ) :
    Counted (e :: h) id (some ⟨rank, sub.toJob id now⟩) := by
  have h0 : claims id (e :: h) = 0 := (claims_of_none hq).trans (hc.unnamed hn)
  refine ⟨fun _ => h0, ?_, ?_, fun sub' _ => ?_⟩
  · rintro _ ⟨⟩
    rw [h0]; exact .new sub id now _
  · rintro _ sub' ⟨⟩ hs
    rw [submissions, List.filterMap_cons_some ha] at hs
    rcases List.mem_cons.1 hs with hs | hs
    · cases hs; rfl
    · exact absurd (mem_names hs) hn
  · rw [h0]; omega

/-- A claim counts one more attempt. -/
theorem Counted.claimed {h : List Event} {id worker : String} {e : Event} {x : Ranked} {n : Int32}
    {now : Millis} (hc : Counted h id (some x)) (hm : id ∈ names h)
    (pending : x.job.status = .pending) (count : succ32? x.job.attempts = some n)
    (named : x.job.id = id) (hq : e.claimed? = some (x.job.taken now worker n))
    (ha : e.accepted? = none) :
    Counted (e :: h) id (some { x with job := x.job.taken now worker n }) := by
  have ht := hc.tallied x rfl
  have hcl : claims id (e :: h) = claims id h + 1 := claims_of_claimed hq named
  refine ⟨fun hn => absurd (names_cons hm) hn, ?_, ?_, fun sub hs => ?_⟩
  · rintro _ ⟨⟩
    rw [hcl]; exact (ht.taken pending count now worker).mono requeues_le
  · rintro _ sub ⟨⟩ hs
    exact hc.permitted x sub rfl (submissions_cons ha ▸ hs)
  · have := ht.pending pending
    rw [hc.permitted x sub rfl (submissions_cons ha ▸ hs)] at this
    rw [hcl]
    calc ((claims id h + 1 : ℕ) : ℤ)
        ≤ max sub.options.maxAttempts.toInt 1 + requeues id h := by omega
      _ ≤ _ := by gcongr; exact requeues_le

/-- Along every history the counts agree with what is stored. -/
theorem History.counted {rules : Rules} {h : List Event} {s : Volatile} (hist : History rules h s)
    (id : String) : Counted h id (s.jobs.get? id) := by
  refine hist.each_name (fun id => ?_) ?_ id
  · exact .nothing id
  · intro h s s' id now r a x y past hx hy hc fresh fate
    cases fate with
    | same x quiet idle =>
      refine hc.keep (claims_of_quiet quiet) (fun sub hs => ?_) fun x' h =>
        ⟨x', h, rfl, (hc.tallied x' h).mono requeues_le⟩
      exact mem_submissions_of_ne (e := ⟨now, r, a, s, s'⟩) (idle sub) hs
    | enqueued sub rank => exact hc.enqueued (fresh id sub rfl) rfl rfl now rank
    | claimed pending _ count named =>
      exact hc.claimed (past.named hx) pending count named rfl rfl
    | @completed result x busy =>
      exact hc.change rfl rfl rfl (((hc.tallied x rfl).finished now result).mono requeues_le)
    | @retried message x busy more =>
      exact hc.change rfl rfl rfl (((hc.tallied x rfl).delayed more _ message).mono requeues_le)
    | @failed message x busy spent =>
      exact hc.change rfl rfl rfl (((hc.tallied x rfl).givenUp spent now message).mono requeues_le)
    | deleted x => exact hc.vanish rfl rfl
    | @requeued before n x stale =>
      refine hc.change rfl rfl rfl ?_
      have hb := Job.busy_of_isStale stale
      rw [requeues_of_putsBack (by simp [Event.putsBack, hx, hy, hb, Job.requeued])]
      exact (hc.tallied x rfl).requeued
    | purged old => exact hc.vanish rfl rfl

section
variable {rules : Rules} {h : List Event} {s : Volatile}

/-- Every claim of a job counts one attempt of it. -/
theorem History.attempts_eq (hist : History rules h s) {id : String} {x : Ranked}
    (hx : s.jobs.get? id = some x) : x.job.attempts.toInt = claims id h :=
  ((hist.counted id).tallied x hx).attempts

/-- The attempt of a job as it is handed out is the number of the claim. -/
theorem History.attempts_of_claimed (hist : History rules h s) (now : Millis) {r : Request}
    (fresh : Fresh h r) {job : Job} (hc : (Event.ask rules now r s).claimed? = some job) :
    job.attempts.toInt = claims job.id (.ask rules now r s :: h) := by
  obtain ⟨w, -, -, hy, -, -⟩ := (hist.step fresh now job.id).claimed_eq hc rfl
  exact (hist.next now r fresh).attempts_eq hy

/-- Later claims have higher attempts. -/
theorem History.attempts_le (hist : History rules h s) :
    ∀ job ∈ handedOut h, job.attempts.toInt ≤ claims job.id h := by
  induction hist with
  | start => intro job hj; cases hj
  | @next h s past now r fresh ih =>
    intro job hj
    obtain ⟨e, he, hc⟩ := List.mem_filterMap.1 hj
    rcases List.mem_cons.1 he with rfl | he
    · exact (past.attempts_of_claimed now fresh hc).le
    · have := ih job (List.mem_filterMap.2 ⟨e, he, hc⟩)
      have : claims job.id h ≤ claims job.id (.ask rules now r s :: h) := claims_le
      omega

/-- No attempt at a job is handed out twice. -/
theorem History.handedOut_nodup (hist : History rules h s) :
    ((handedOut h).map fun job => (job.id, job.attempts)).Nodup := by
  induction hist with
  | start => exact List.nodup_nil
  | @next h s past now r fresh ih =>
    rw [handedOut, List.filterMap_cons]
    split
    · exact ih
    · rename_i job hc
      refine List.nodup_cons.2 ⟨fun hm => ?_, ih⟩
      obtain ⟨job', hj, he⟩ := List.mem_map.1 hm
      obtain ⟨hi, ha⟩ := Prod.mk.inj he
      have h₁ := past.attempts_of_claimed now fresh hc
      have h₂ := past.attempts_le job' hj
      rw [claims_of_claimed hc rfl] at h₁
      rw [hi, ha] at h₂
      omega

/-- A job whose next attempt cannot be counted was put back before. -/
theorem History.requeued_of_full (hist : History rules h s) {id : String} {x : Ranked}
    (hx : s.jobs.get? id = some x) (hp : x.job.status = .pending)
    (hf : succ32? x.job.attempts = none) : 0 < requeues id h := by
  have ht := (hist.counted id).tallied x hx
  have h₁ := ht.attempts
  have h₂ := ht.pending hp
  have h₃ := fit32?_eq_none_iff.1 hf
  have h₄ := Int32.toInt_lt x.job.maxAttempts
  have h₅ := Int32.le_toInt x.job.attempts
  omega

/-- **Jobs are handed out as often as they are permitted.**  The attempts of a job are its claims.
    They are no more than it is permitted, one attempt at least, and one more for every time it was
    put back; a job fails for good only when its permitted attempts are used up.  A job that was
    never put back is handed out no more often than that, and when its last permitted attempt is
    reported as a failure, to a store that is not poisoned, it fails for good.  So an attempt that
    cannot be counted is one of a job that was put back. -/
theorem claims_within_permission (hist : History rules h s) :
    (∀ id x, s.jobs.get? id = some x →
      x.job.attempts.toInt = claims id h ∧
      x.job.attempts.toInt ≤ max x.job.maxAttempts.toInt 1 + requeues id h ∧
      (x.job.status = .failed → x.job.maxAttempts ≤ x.job.attempts)) ∧
    (∀ id sub, (id, sub) ∈ submissions h → requeues id h = 0 →
      (claims id h : ℤ) ≤ max sub.options.maxAttempts.toInt 1) ∧
    (∀ id x, s.jobs.get? id = some x → x.job.status = .processing →
      (claims id h : ℤ) = max x.job.maxAttempts.toInt 1 → s.poisoned = false →
      ∀ now message, (ask rules now (.fail id message) s).1 = .ok () ∧
        ∃ y, (ask rules now (.fail id message) s).2.jobs.get? id = some y ∧
          y.job.status = .failed) ∧
    (∀ now worker queues, (ask rules now (.dequeue worker queues) s).1 = .error .overflow →
      ∃ x, s.next? now queues = some x ∧ 0 < requeues x.job.id h) := by
  refine ⟨fun id x hx => ?_, fun id sub hs hq => ?_, fun id x hx hb hc hp now message => ?_,
    fun now worker queues ho => ?_⟩
  · have ht := (hist.counted id).tallied x hx
    exact ⟨ht.attempts, ht.attempts ▸ ht.within, ht.failed⟩
  · have := (hist.counted id).bound sub hs
    omega
  · have ha := hist.attempts_eq hx
    have hm : x.job.maxAttempts ≤ x.job.attempts := Int32.le_iff_toInt_le.2 (by omega)
    have hf : ask rules now (.fail id message) s = _ := fail_of_busy hp hx hb rules.retry now message
    rw [hf, Job.failing_of_le hm]
    exact ⟨rfl, ⟨x.rank, x.job.givenUp now message⟩, by simp [update, Keyed.get?_put], rfl⟩
  · obtain ⟨x, hx, hf⟩ := full_of_overflow ho
    exact ⟨x, hx, hist.requeued_of_full (hist.valid.get?_of_next? hx) (pending_of_next? hx).1 hf⟩

end

/-- A job with one permitted attempt is claimed, put back after its worker was lost, and claimed
    again. -/
def lostOnce : List Call :=
  [⟨0, .enqueue "a" ⟨"q", "t", "o", .empty, { maxAttempts := 1 }⟩⟩, ⟨1, .dequeue "w" .any⟩,
    ⟨2, .requeueStale 2⟩, ⟨3, .dequeue "v" .any⟩]

theorem claims_within_permission_lostOnce :
    History .default (replay .default lostOnce).1 (replay .default lostOnce).2 ∧
    claims "a" (replay .default lostOnce).1 = 2 ∧ requeues "a" (replay .default lostOnce).1 = 1 ∧
    ∃ x, (replay .default lostOnce).2.jobs.get? "a" = some x ∧ x.job.attempts.toInt = 2 ∧
      x.job.attempts.toInt ≤ max x.job.maxAttempts.toInt 1 + 1 := by
  have hist : History .default (replay .default lostOnce).1 (replay .default lostOnce).2 :=
    .replay (by decide)
  have hc : claims "a" (replay .default lostOnce).1 = 2 := by decide
  have hq : requeues "a" (replay .default lostOnce).1 = 1 := by decide
  obtain ⟨x, hx⟩ := Option.isSome_iff_exists.1
    (show ((replay .default lostOnce).2.jobs.get? "a").isSome by decide)
  obtain ⟨ha, hw, -⟩ := (claims_within_permission hist).1 "a" x hx
  rw [hc] at ha
  rw [hq] at hw
  exact ⟨hist, hc, hq, x, hx, ha, hw⟩

/-- A job with one permitted attempt is claimed; then a job is counted in a window that is older than
    times can be apart. -/
def brokenAtLast : List Call :=
  [⟨-1, .record ⟨"o", "q"⟩⟩, ⟨-1, .enqueue "a" ⟨"q", "t", "o", .empty, { maxAttempts := 1 }⟩⟩,
    ⟨-1, .dequeue "w" .any⟩, ⟨Int64.maxValue, .record ⟨"o", "q"⟩⟩]

/-- Once a request has broken off while it held the store, the failure of a last permitted attempt is
    refused, and the job stays in processing. -/
theorem poisoned_store_keeps_last_attempts :
    History .default (replay .default brokenAtLast).1 (replay .default brokenAtLast).2 ∧
    requeues "a" (replay .default brokenAtLast).1 = 0 ∧
    ∃ x, (replay .default brokenAtLast).2.jobs.get? "a" = some x ∧ x.job.status = .processing ∧
      (claims "a" (replay .default brokenAtLast).1 : ℤ) = max x.job.maxAttempts.toInt 1 ∧
      ask .default Int64.maxValue (.fail "a" "no") (replay .default brokenAtLast).2 =
        (.error (.error (.internal .poisoned)), (replay .default brokenAtLast).2) := by
  obtain ⟨x, hx⟩ := Option.isSome_iff_exists.1
    (show ((replay .default brokenAtLast).2.jobs.get? "a").isSome by decide)
  have hjob : ((replay .default brokenAtLast).2.jobs.get? "a").map
    (fun x => (x.job.status, x.job.maxAttempts)) = some (.processing, 1) := by decide
  rw [hx] at hjob
  obtain ⟨hstatus, hmax⟩ := Prod.mk.inj (Option.some.inj hjob)
  have hclaims : claims "a" (replay .default brokenAtLast).1 = 1 := by decide
  exact ⟨.replay (by decide), by decide, x, hx, hstatus, by rw [hclaims, hmax]; decide, rfl⟩

end Volatile

end JobQueue
