/-
  What a lost worker leaves behind comes back.

  A worker can be lost at any point of its cycle, and its job then stays in
  processing.  Such a job has the time of its claim (`History.started`), so a
  recovery finds it once the claim is older than the window (`lt_cutoff`) and
  puts it back.  It was due when it was claimed, so it is due again at once,
  and whoever goes on claiming jobs at that time gets it: every claim of
  another job takes one away from those that are waiting, until the job is the
  next one (`handed_out`).
-/
import JobQueue.Proofs.Worker.Exclusive
import JobQueue.Sweep

namespace JobQueue

/-! ## The cutoff of a recovery -/

/-- A claim that is older than the window is stale, whether or not the clock holds the window. -/
theorem lt_cutoff {now t : Millis} {window : Span}
    (h : (window.wholeMillis : ℤ) < now.toInt - t.toInt) : t < cutoff now window := by
  have h₁ := Int64.le_toInt t
  have h₂ := Int64.toInt_lt now
  rw [Int64.lt_iff_toInt_lt, cutoff, subClamped, Span.toMillis, toInt_clamp, toInt_clamp]
  omega

/-- Every claim gets older than the window, if the clock goes on long enough. -/
theorem exists_late (t : Millis) {window : Span}
    (h : t.toInt + window.wholeMillis < Int64.maxValue.toInt) :
    ∃ now : Millis, 0 ≤ now ∧ (window.wholeMillis : ℤ) < now.toInt - t.toInt := by
  have hm : Int64.maxValue.toInt = 0x7fffffffffffffff := by decide
  have hz : (0 : Int64).toInt = 0 := by decide
  refine ⟨clamp (max 0 (t.toInt + window.wholeMillis + 1)), ?_, ?_⟩
  · rw [Int64.le_iff_toInt_le, toInt_clamp]
    omega
  · rw [toInt_clamp]
    omega

namespace Volatile

/-! ## Jobs in processing -/

section
variable {rules : Rules} {h : List Event} {s : Volatile}

/-- A job in processing has the time of its claim, and was due then. -/
theorem History.started (hist : History rules h s) {id : String} {x : Ranked}
    (hx : s.jobs.get? id = some x) (hb : x.job.status = .processing) :
    ∃ t, x.job.startedAt = some t ∧ x.job.scheduledAt ≤ t := by
  refine hist.each_name (P := fun _ _ y => ∀ x, y = some x → x.job.status = .processing →
    ∃ t, x.job.startedAt = some t ∧ x.job.scheduledAt ≤ t) ?_ ?_ id x hx hb
  · intro id x hx
    cases hx
  · intro h s s' id now r a x y past hx hy ih fresh fate z hz hb
    subst hz
    cases fate with
    | same => exact ih z rfl hb
    | claimed pending due => exact ⟨now, rfl, due⟩
    | enqueued | completed | retried | failed | requeued => cases hb

end

section
variable {s : Volatile}

theorem requeueStale_of_healthy (hp : s.poisoned = false) (before : Millis) :
    requeueStale before s = (.ok (s.stored.countP fun x => x.job.isStale before), { s with
      jobs := s.jobs.mapValues fun x =>
        if x.job.isStale before then { x with job := x.job.requeued } else x }) :=
  hold_of_ok hp rfl

/-! ## One claim after the other -/

/-- The store after a worker has claimed some jobs at one reading of the clock. -/
def afterClaims (now : Millis) (worker : String) (queues : QueueSet) : ℕ → Volatile → Volatile
  | 0, s => s
  | n + 1, s => (dequeue now worker queues s).2.afterClaims now worker queues n

/-- The number of jobs that are due in a served queue. -/
def waiting (s : Volatile) (now : Millis) (queues : QueueSet) : ℕ :=
  s.stored.countP fun x => x.job.isEligible now && queues.accepts x.job.queue

/-- Fewer elements have a property if one of them loses it and none gets it. -/
theorem countP_lt_countP {α : Type} {p q : α → Bool} {l : List α}
    (hpq : ∀ y ∈ l, p y = true → q y = true) {x : α} (hx : x ∈ l) (hq : q x = true)
    (hp : p x = false) : l.countP p < l.countP q := by
  have h : l.countP p = (l.filter q).countP p := by
    rw [List.countP_filter]
    refine List.countP_congr fun y hy => ?_
    rw [Bool.and_eq_true]
    exact ⟨fun h => ⟨h, hpq y hy h⟩, And.left⟩
  rw [h, List.countP_eq_length_filter (p := q), List.countP_lt_length_iff]
  exact ⟨x, List.mem_filter.2 ⟨hx, hq⟩, hp⟩

theorem waiting_update_lt (hs : s.Valid) {now : Millis} {queues : QueueSet} {x : Ranked}
    (hx : s.next? now queues = some x) (worker : String) (n : Int32) :
    (s.update x.job.id x (x.job.taken now worker n)).waiting now queues < s.waiting now queues := by
  obtain ⟨hm, he, hq⟩ := next?_mem hx
  have htaken : (x.job.taken now worker n).isEligible now = false := rfl
  rw [waiting, waiting, hs.stored_update (hs.get?_of_next? hx), List.countP_map]
  refine countP_lt_countP (fun y _ hy => ?_) hm (by rw [he, hq]; rfl) (by simp [htaken])
  by_cases hi : y.job.id = x.job.id
  · simp [hi, htaken] at hy
  · simpa [hi] using hy

/-- A job that is due in a served queue is handed out, after at most as many claims as there are
    jobs waiting. -/
theorem handed_out {now : Millis} {worker : String} {queues : QueueSet} {id : String} {x : Ranked}
    (he : x.job.isEligible now = true) (hq : queues.accepts x.job.queue = true) :
    ∀ {s : Volatile}, s.Valid → s.poisoned = false → s.jobs.get? id = some x →
      (∀ n < s.waiting now queues,
        (dequeue now worker queues (s.afterClaims now worker queues n)).1 ≠ .error .overflow) →
      ∃ n < s.waiting now queues, ∃ k, succ32? x.job.attempts = some k ∧
        (dequeue now worker queues (s.afterClaims now worker queues n)).1 =
          .ok (some (x.job.taken now worker k)) := by
  intro s hs hp hx ho
  induction hw : s.waiting now queues using Nat.strong_induction_on generalizing s with
  | _ w ih =>
    subst hw
    have hmem : x ∈ s.stored.filter fun y => y.job.isEligible now && queues.accepts y.job.queue :=
      List.mem_filter.2 ⟨Keyed.mem_values hx, by rw [he, hq]; rfl⟩
    have hpos : 0 < s.waiting now queues := by
      rw [waiting, List.countP_eq_length_filter]
      exact List.length_pos_of_mem hmem
    cases hy : s.next? now queues with
    | none =>
      rw [next?, Ranked.first?_eq_none_iff] at hy
      rw [hy] at hmem
      cases hmem
    | some y =>
      have hd := dequeue_of_next hp hy worker
      cases hk : succ32? y.job.attempts with
      | none =>
        rw [hk] at hd
        exact absurd (congrArg Prod.fst hd) (ho 0 hpos)
      | some k =>
        rw [hk] at hd
        by_cases hi : y.job.id = id
        · -- it is the next one
          have hyx := hs.get?_of_next? hy
          rw [hi, hx] at hyx
          obtain rfl := Option.some.inj hyx
          exact ⟨0, hpos, k, hk, congrArg Prod.fst hd⟩
        · -- another job is handed out, and one job less is waiting
          have hlt := waiting_update_lt hs hy worker k
          have hvalid : (s.update y.job.id y (y.job.taken now worker k)).Valid :=
            hs.update (hs.get?_of_next? hy) rfl
          have hx' : (s.update y.job.id y (y.job.taken now worker k)).jobs.get? id = some x := by
            rw [update, Keyed.get?_put, if_neg hi]
            exact hx
          have hafter : ∀ n, s.afterClaims now worker queues (n + 1) =
              (s.update y.job.id y (y.job.taken now worker k)).afterClaims now worker queues n := by
            intro n
            rw [afterClaims, hd]
          obtain ⟨n, hn, m, hm, ha⟩ := ih _ hlt hvalid hp hx' (fun n hn => by
            rw [← hafter]
            exact ho (n + 1) (by omega)) rfl
          refine ⟨n + 1, by omega, m, hm, ?_⟩
          rw [hafter]
          exact ha

end

/-! ## A recovery -/

def recovered (rules : Rules) (now : Millis) (window : Span) (s : Volatile) : Volatile :=
  (recover (store rules) now window s).2

/-- A recovery is answered, and puts the job back: it waits with the attempts that it had, it is due,
    and whoever claims as many jobs as there are gets it, unless a claim overflows. -/
structure BringsBack (rules : Rules) (now : Millis) (window : Span) (s : Volatile) (x : Ranked) :
    Prop where
  answered : ∃ n, (recover (store rules) now window s).1 = .ok n
  waits : ∃ y, (s.recovered rules now window).jobs.get? x.job.id = some y ∧
    y.job.status = .pending ∧ y.job.attempts = x.job.attempts ∧ y.job.scheduledAt ≤ now
  handedOut : ∀ worker queues, queues.accepts x.job.queue = true →
    (∀ n < (s.recovered rules now window).stored.length,
      (dequeue now worker queues
        ((s.recovered rules now window).afterClaims now worker queues n)).1 ≠ .error .overflow) →
    ∃ n < (s.recovered rules now window).stored.length, ∃ job,
      (dequeue now worker queues ((s.recovered rules now window).afterClaims now worker queues n)).1 =
        .ok (some job) ∧
      job.id = x.job.id ∧ job.attempts.toInt = x.job.attempts.toInt + 1

/-- **A claim that is older than the window is brought back.** -/
theorem History.bringsBack {rules : Rules} {h : List Event} {s : Volatile} (hist : History rules h s)
    (healthy : s.poisoned = false) {id : String} {x : Ranked} {t now : Millis} {window : Span}
    (hx : s.jobs.get? id = some x) (hb : x.job.status = .processing)
    (ht : x.job.startedAt = some t) (late : (window.wholeMillis : ℤ) < now.toInt - t.toInt) :
    BringsBack rules now window s x := by
  obtain rfl := hist.valid.id_eq hx
  obtain ⟨t', ht', hdue⟩ := hist.started hx hb
  obtain rfl := Option.some.inj (ht.symm.trans ht')
  have hstale : x.job.isStale (cutoff now window) = true := by
    simp [Job.isStale, hb, ht, lt_cutoff late]
  have hnow : x.job.scheduledAt ≤ now := by
    rw [Int64.le_iff_toInt_le] at hdue ⊢
    omega
  have heligible : x.job.requeued.isEligible now = true := by
    simp [Job.isEligible, Job.requeued, hnow]
  have hr : recover (store rules) now window s = _ := requeueStale_of_healthy healthy _
  have hy : (s.recovered rules now window).jobs.get? x.job.id =
      some { x with job := x.job.requeued } := by
    rw [recovered, hr, Keyed.get?_mapValues, hx, Option.map_some, if_pos hstale]
  have hvalid : (s.recovered rules now window).Valid :=
    (hist.next now (.requeueStale (cutoff now window)) fun _ _ he => by cases he).valid
  have hhealthy : (s.recovered rules now window).poisoned = false := by
    rw [recovered, hr]
    exact healthy
  refine ⟨⟨_, congrArg Prod.fst hr⟩, ⟨_, hy, rfl, rfl, hnow⟩, fun worker queues hq ho => ?_⟩
  have hle : (s.recovered rules now window).waiting now queues ≤ _ := List.countP_le_length
  obtain ⟨n, hn, k, hk, ha⟩ := handed_out (x := { x with job := x.job.requeued }) heligible hq hvalid
    hhealthy hy fun n hn => ho n (hn.trans_le hle)
  exact ⟨n, hn.trans_le hle, _, ha, rfl, toInt_of_fit32? hk⟩

end Volatile

/-! ## Crews that lose workers -/

namespace Crew

open Volatile

variable {ω : Type} {rules : Rules} {cycles : ω → Cycle} {c : Crew ω}

/-- Nothing overflows, and names of new jobs are fresh.  Otherwise anything can happen at any time;
    above all, a worker can be lost. -/
def Unbroken (rules : Rules) (cycles : ω → Cycle) (c : Crew ω) : Move ω → Prop
  | .ask w now => ∀ r, (cycles w).request? (c.phase w) = some r →
    (ask rules now r c.store).1 ≠ .error .overflow
  | .outside now r => Fresh c.history r ∧ (ask rules now r c.store).1 ≠ .error .overflow
  | .run .. | .again _ | .crash _ => True

theorem Orderly.unbroken {m : Move ω} (ok : Orderly rules cycles c m) :
    Unbroken rules cycles c m := by
  cases m with
  | ask => exact ok
  | outside => exact ⟨ok.1, ok.2.1⟩
  | run | again | crash => trivial

variable [DecidableEq ω]

theorem healthy_move (healthy : c.store.poisoned = false) {m : Move ω}
    (ok : Unbroken rules cycles c m) : (c.move rules cycles m).store.poisoned = false := by
  generalize hc : c.move rules cycles m = c'
  cases hc ▸ moved rules cycles c m with
  | asked alive due => exact ((step_ask rfl).poisoned (ok _ due)).trans healthy
  | told => exact ((step_ask rfl).poisoned ok.2).trans healthy
  | nothing | ran | begun | lost => exact healthy

/-- **No loss of a worker loses a job.**  Wherever workers are lost, a stored job is finished or
    waiting or has the time of its claim; a recovery brings it back as soon as its claim is older
    than the window, and every claim gets that old, unless its clock ends before. -/
theorem lost_jobs_come_back {h : List Event} {s : Volatile} (past : History rules h s)
    (healthy : s.poisoned = false) (run : Run rules cycles (Unbroken rules cycles) (.start h s) c) :
    (∀ id x, c.store.jobs.get? id = some x →
      x.job.status.isTerminal = true ∨ x.job.status = .pending ∨
      x.job.status = .processing ∧ ∃ t, x.job.startedAt = some t) ∧
    (∀ id x t, c.store.jobs.get? id = some x → x.job.status = .processing →
      x.job.startedAt = some t → ∀ window : Span,
        (∀ now : Millis, (window.wholeMillis : ℤ) < now.toInt - t.toInt →
          BringsBack rules now window c.store x) ∧
        (t.toInt + window.wholeMillis < Int64.maxValue.toInt →
          ∃ now : Millis, 0 ≤ now ∧ BringsBack rules now window c.store x)) := by
  have hc : History rules c.history c.store ∧ c.store.poisoned = false := by
    refine run.invariant (P := fun c => History rules c.history c.store ∧ c.store.poisoned = false)
      ⟨past, healthy⟩ fun c m hc ok => ⟨history_move hc.1 ?_, healthy_move hc.2 ok⟩
    rintro now r rfl
    exact ok.1
  obtain ⟨hist, healthy⟩ := hc
  constructor
  · intro id x hx
    cases hb : x.job.status with
    | pending => exact Or.inr (Or.inl rfl)
    | processing =>
      obtain ⟨t, ht, -⟩ := hist.started hx hb
      exact Or.inr (Or.inr ⟨rfl, t, ht⟩)
    | completed | failed => exact Or.inl rfl
  · intro id x t hx hb ht window
    have hback : ∀ now : Millis, (window.wholeMillis : ℤ) < now.toInt - t.toInt →
        BringsBack rules now window c.store x := fun now => hist.bringsBack healthy hx hb ht
    refine ⟨hback, fun hfits => ?_⟩
    obtain ⟨now, hnow, late⟩ := exists_late t hfits
    exact ⟨now, hnow, hback now late⟩

/-- A worker is lost while the handler has its job. -/
def lostAtWork : Crew Bool :=
  [.outside 0 (.enqueue "a" ⟨"q", "t", "o", .empty, {}⟩), .ask false 1, .ask false 2,
    .crash false].foldl (move .default twoWorkers) (.start [] .empty)

theorem run_lostAtWork :
    Run .default twoWorkers (Unbroken .default twoWorkers) (.start [] .empty) lostAtWork := by
  refine .follow .start ⟨⟨fun _ _ _ => List.not_mem_nil, by decide⟩, ?_, ?_, trivial, trivial⟩
  · exact (orderly_ask (r := .dequeue "w" .any) rfl (by decide)).unbroken
  · exact (orderly_ask (r := .canProcess ⟨"o", "q"⟩) (by decide) (by decide)).unbroken

theorem lost_jobs_come_back_atWork :
    ∃ job, (dequeue 300002 "v" .any
        (lostAtWork.store.recovered .default 300002 defaultRecoveryWindow)).1 = .ok (some job) ∧
      job.id = "a" ∧ job.attempts.toInt = 2 := by
  obtain ⟨x, hx⟩ := Option.isSome_iff_exists.1
    (show (lostAtWork.store.jobs.get? "a").isSome by decide)
  have hj : (lostAtWork.store.jobs.get? "a").map (fun x => (x.job.id, x.job.status, x.job.startedAt,
      x.job.attempts, x.job.queue)) = some ("a", .processing, some 1, 1, "q") := by decide
  rw [hx, Option.map_some, Option.some.injEq] at hj
  simp only [Prod.mk.injEq] at hj
  obtain ⟨hi, hb, ht, ha, hq⟩ := hj
  obtain ⟨-, -, hout⟩ := ((lost_jobs_come_back .start rfl run_lostAtWork).2 "a" x 1 hx hb ht
    defaultRecoveryWindow).1 300002 (by decide)
  obtain ⟨n, hn, job, hd, hid, hattempts⟩ := hout "v" .any rfl (by decide)
  have hone : (lostAtWork.store.recovered .default 300002 defaultRecoveryWindow).stored.length = 1 := by
    decide
  obtain rfl : n = 0 := by omega
  exact ⟨job, hd, hid.trans hi, by rw [hattempts, ha]; rfl⟩

end Crew

end JobQueue
