/-
  Stores on a clock that never shows a time before the epoch.

  Every time in such a store is a reading of the clock (`Trace.sinceEpoch`), so
  that all differences of times are representable.  What can still overflow are
  the counts of attempts and of the jobs in a window; a store in which they
  never came to their ends was never poisoned (`History.healthy`).
-/
import JobQueue.Proofs.Store.Agreement
import JobQueue.Proofs.Store.Trace
import JobQueue.Proofs.Store.Windows

namespace JobQueue

/-- The difference of two times that are not negative is representable. -/
theorem sub?_of_nonneg {a b : Int64} (ha : 0 ≤ a.toInt) (hb : 0 ≤ b.toInt) :
    ∃ d, sub? a b = some d := by
  have ha' := Int64.toInt_lt a
  have hb' := Int64.toInt_lt b
  cases hd : sub? a b with
  | none =>
    rw [sub?, fit?_eq_none_iff] at hd
    omega
  | some d => exact ⟨d, rfl⟩

namespace Window

variable {w : Window} {now : Millis}

theorem isStale?_of_nonneg (hw : 0 ≤ w.start.toInt) (hn : 0 ≤ now.toInt) :
    ∃ stale, w.isStale? now = some stale := by
  obtain ⟨d, hd⟩ := sub?_of_nonneg hn hw
  exact ⟨_, by rw [isStale?, hd]; rfl⟩

/-- A job that is counted opens a window or goes into the one that is open. -/
theorem start_of_record? {w' : Window} (h : w.record? now = some w') :
    w'.start = now ∨ w'.start = w.start := by
  unfold record? at h
  obtain ⟨stale, -, h⟩ := Option.bind_eq_some_iff.1 h
  cases stale with
  | true =>
    cases h
    exact .inl rfl
  | false =>
    obtain ⟨n, -, rfl⟩ := Option.map_eq_some_iff.1 h
    exact .inr rfl

/-- A window counts one job more, or begins with it. -/
theorem jobs_of_record? {w' : Window} (h : w.record? now = some w') :
    w'.jobs.toInt ≤ max w.jobs.toInt 0 + 1 := by
  unfold record? at h
  obtain ⟨stale, -, h⟩ := Option.bind_eq_some_iff.1 h
  cases stale with
  | true =>
    obtain rfl := Option.some.inj h
    have : (1 : Int64).toInt = 1 := by decide
    simp only
    omega
  | false =>
    obtain ⟨n, hn, rfl⟩ := Option.map_eq_some_iff.1 h
    have := toInt_of_fit? hn
    simp only
    omega

/-- A window with room takes one more job. -/
theorem record?_of_room (hw : 0 ≤ w.start.toInt) (hn : 0 ≤ now.toInt)
    (room : w.counted? now ≠ some Int64.maxValue) : ∃ w', w.record? now = some w' := by
  obtain ⟨stale, hs⟩ := isStale?_of_nonneg hw hn
  cases stale with
  | true => exact ⟨⟨now, 1⟩, by simp [record?, hs]⟩
  | false =>
    cases hn : succ? w.jobs with
    | some n => exact ⟨{ w with jobs := n }, by simp [record?, hs, hn]⟩
    | none =>
      refine absurd ?_ room
      have hmax : w.jobs = Int64.maxValue := by
        have hlt := Int64.toInt_lt w.jobs
        have hle := Int64.le_toInt w.jobs
        have hm : Int64.maxValue.toInt = 0x7fffffffffffffff := by decide
        rw [succ?, fit?_eq_none_iff] at hn
        apply Int64.toInt_inj.1
        omega
      simp [counted?, hs, hmax]

end Window

namespace Volatile

/-- No window was opened at a negative time. -/
def OpenedSinceEpoch (s : Volatile) : Prop :=
  ∀ t w, s.windows.get? t = some w → 0 ≤ w.start.toInt

/-- No time in the store is negative. -/
structure SinceEpoch (s : Volatile) : Prop where
  started : ∀ x ∈ s.stored, ∀ t, x.job.startedAt = some t → 0 ≤ t.toInt
  completed : ∀ x ∈ s.stored, ∀ t, x.job.completedAt = some t → 0 ≤ t.toInt
  opened : s.OpenedSinceEpoch

/-- The count that a request raises has not come to its end. -/
def RoomFor (s : Volatile) (now : Millis) : Request → Prop
  | .dequeue _ queues => ∀ x ∈ s.next? now queues, x.job.attempts ≠ Int32.maxValue
  | .record t => s.counted? now t ≠ some Int64.maxValue
  | _ => True

instance (s : Volatile) (now : Millis) (r : Request) : Decidable (s.RoomFor now r) :=
  match r with
  | .dequeue _ queues =>
    inferInstanceAs (Decidable (∀ x ∈ s.next? now queues, x.job.attempts ≠ Int32.maxValue))
  | .record t => inferInstanceAs (Decidable (s.counted? now t ≠ some Int64.maxValue))
  | .enqueue .. | .complete .. | .fail .. | .delete _ | .get _ | .list _ | .stats _ | .canProcess _
  | .setLimit .. | .requeueStale _ | .purge _ | .close => .isTrue trivial

/-- No count in the store has come to its end. -/
structure HasRoom (s : Volatile) : Prop where
  attempts : ∀ x ∈ s.stored, x.job.attempts.toInt < Int32.maxValue.toInt
  jobs : ∀ t w, s.windows.get? t = some w → w.jobs.toInt < Int64.maxValue.toInt

section
variable {rules : Rules} {h : List Event} {s : Volatile} {now : Millis}

theorem OpenedSinceEpoch.ask (ho : s.OpenedSinceEpoch) (hn : 0 ≤ now.toInt) (rules : Rules)
    (r : Request) : (Volatile.ask rules now r s).2.OpenedSinceEpoch := by
  intro t w hw
  rcases window_ask rules now r t with hsame | ⟨-, w', hrec, hw'⟩
  · exact ho t w (hsame ▸ hw)
  · obtain rfl := Option.some.inj (hw'.symm.trans hw)
    rcases Window.start_of_record? hrec with hstart | hstart
    · rw [hstart]; exact hn
    · rw [hstart]
      cases hold : s.windows.get? t with
      | none => exact hn
      | some w => exact ho t w hold

/-- **Every time in a store is a reading of its clock.** -/
theorem Trace.sinceEpoch (trace : Trace rules h s) (readings : ∀ e ∈ h, 0 ≤ e.now.toInt) :
    s.SinceEpoch := by
  have hjobs : ∀ x ∈ s.stored, (∀ t, x.job.startedAt = some t → 0 ≤ t.toInt) ∧
      ∀ t, x.job.completedAt = some t → 0 ≤ t.toInt := by
    intro x hx
    refine trace.each_job (P := fun h x => (∀ e ∈ h, 0 ≤ e.now.toInt) →
      (∀ t, x.job.startedAt = some t → 0 ≤ t.toInt) ∧
        ∀ t, x.job.completedAt = some t → 0 ≤ t.toInt) ?_ ?_ hx readings
    · intro h s e id sub _ _ _ _
      exact ⟨nofun, nofun⟩
    · intro h s s' id now r a x y past hx hy ih fate readings
      have hnow : ∀ t, some now = some t → 0 ≤ t.toInt := by
        rintro t ⟨⟩
        exact readings _ List.mem_cons_self
      replace ih := ih fun e he => readings e (List.mem_cons_of_mem _ he)
      -- a job gets its times in the requests under its name
      cases fate with
      | same => exact ih
      | claimed => exact ⟨hnow, ih.2⟩
      | completed => exact ⟨ih.1, hnow⟩
      | retried => exact ih
      | failed => exact ⟨ih.1, hnow⟩
      | requeued => exact ih
  refine
    { started := fun x hx => (hjobs x hx).1, completed := fun x hx => (hjobs x hx).2
      opened := ?opened }
  clear hjobs
  induction trace with
  | start => intro t w hw; cases hw
  | @next h s past now r ih =>
    exact (ih fun e he => readings e (List.mem_cons_of_mem _ he)).ask
      (readings _ List.mem_cons_self) rules r

theorem History.sinceEpoch (hist : History rules h s) (readings : ∀ e ∈ h, 0 ≤ e.now.toInt) :
    s.SinceEpoch :=
  hist.trace.sinceEpoch readings

/-- The times of completed jobs can be compared. -/
theorem countJob_of_sinceEpoch (stats : QueueStats) {j : Job}
    (hs : ∀ t, j.startedAt = some t → 0 ≤ t.toInt)
    (hc : ∀ t, j.completedAt = some t → 0 ≤ t.toInt) : ∃ stats', countJob stats j = .ok stats' := by
  unfold countJob
  split
  · exact ⟨_, rfl⟩
  · exact ⟨_, rfl⟩
  · exact ⟨_, rfl⟩
  · dsimp only
    split
    · rename_i started completed hstart hend
      obtain ⟨d, hd⟩ := sub?_of_nonneg (hc _ hend) (hs _ hstart)
      rw [hd]
      exact ⟨_, rfl⟩
    · exact ⟨_, rfl⟩

theorem countJobs_of_sinceEpoch {l : List Job} (hs : ∀ j ∈ l, ∀ t, j.startedAt = some t → 0 ≤ t.toInt)
    (hc : ∀ j ∈ l, ∀ t, j.completedAt = some t → 0 ≤ t.toInt) (stats : QueueStats) :
    ∃ stats', l.foldlM countJob stats = .ok stats' := by
  induction l generalizing stats with
  | nil => exact ⟨stats, rfl⟩
  | cons j l ih =>
    obtain ⟨stats', hj⟩ := countJob_of_sinceEpoch stats (hs j List.mem_cons_self)
      (hc j List.mem_cons_self)
    rw [List.foldlM_cons, hj]
    exact ih (fun j hj => hs j (List.mem_cons_of_mem _ hj))
      (fun j hj => hc j (List.mem_cons_of_mem _ hj)) stats'

theorem OpenedSinceEpoch.counted? (ho : s.OpenedSinceEpoch) (hn : 0 ≤ now.toInt) (t : Tenant) :
    ∃ n, s.counted? now t = some n := by
  unfold Volatile.counted?
  cases hw : s.windows.get? t with
  | none => exact ⟨0, rfl⟩
  | some w =>
    obtain ⟨stale, hstale⟩ := Window.isStale?_of_nonneg (ho t w hw) hn
    exact ⟨_, by dsimp only; rw [Window.counted?, hstale]; rfl⟩

/-- The window of a tenant with room takes one more job. -/
theorem OpenedSinceEpoch.record? (ho : s.OpenedSinceEpoch) (hn : 0 ≤ now.toInt) {t : Tenant}
    (room : s.counted? now t ≠ some Int64.maxValue) :
    ∃ w, ((s.windows.get? t).getD (.openAt now)).record? now = some w := by
  unfold Volatile.counted? at room
  cases hw : s.windows.get? t with
  | none => exact ⟨_, Window.record?_openAt hn⟩
  | some w =>
    rw [hw] at room
    exact Window.record?_of_room (ho t w hw) hn room

/-- The count that holds is that of the open window, or nothing was counted in it. -/
theorem counted?_eq_some {t : Tenant} {n : Int64} (hc : s.counted? now t = some n) :
    n = 0 ∨ ∃ w, s.windows.get? t = some w ∧ n = w.jobs := by
  unfold Volatile.counted? at hc
  cases hw : s.windows.get? t with
  | none =>
    rw [hw] at hc
    exact .inl (Option.some.inj hc).symm
  | some w =>
    rw [hw] at hc
    obtain ⟨stale, -, rfl⟩ := Option.map_eq_some_iff.1 hc
    cases stale with
    | true => exact .inl rfl
    | false => exact .inr ⟨w, rfl, rfl⟩

theorem HasRoom.counted?_ne (room : s.HasRoom) (t : Tenant) :
    s.counted? now t ≠ some Int64.maxValue := by
  intro hfull
  rcases counted?_eq_some hfull with hzero | ⟨w, hw, hjobs⟩
  · exact absurd hzero (by decide)
  · have hlt := room.jobs t w hw
    rw [← hjobs] at hlt
    exact lt_irrefl _ hlt

theorem canProcess_of_healthy (healthy : s.poisoned = false) (rules : Rules) (now : Millis)
    (t : Tenant) :
    canProcess rules.limit now t s =
      match s.counted? now t with
      | none => (.error .overflow, { s with poisoned := true })
      | some n => (.ok ((s.limit rules t).admits n (clamp (s.processing t))), s) := by
  unfold canProcess hold counted? limit
  simp only [healthy, Bool.false_eq_true, if_false]
  cases hw : s.windows.get? t with
  | none => rfl
  | some w =>
    dsimp only
    cases w.counted? now <;> rfl

theorem HasRoom.roomFor (room : s.HasRoom) (now : Millis) (r : Request) : s.RoomFor now r := by
  cases r with
  | dequeue worker queues =>
    intro x hx hfull
    have hlt := room.attempts x (next?_mem hx).1
    rw [hfull] at hlt
    exact lt_irrefl _ hlt
  | record t => exact room.counted?_ne t
  | _ => trivial

/-- Nothing overflows in a store with room at a time that is not negative. -/
theorem steady_of_room (healthy : s.poisoned = false) (epoch : s.SinceEpoch) (hn : 0 ≤ now.toInt)
    {r : Request} (room : s.RoomFor now r) : (ask rules now r s).1 ≠ .error .overflow := by
  cases r with
  | dequeue worker queues =>
    intro ho
    obtain ⟨x, hx, hfull⟩ := full_of_overflow ho
    refine room x hx (Int32.toInt_inj.1 ?_)
    have hlt := Int32.toInt_lt x.job.attempts
    have hle := Int32.le_toInt x.job.attempts
    have hm : Int32.maxValue.toInt = 0x7fffffff := by decide
    rw [succ32?, fit32?_eq_none_iff] at hfull
    omega
  | stats queue =>
    have hday : 0 ≤ statsWindow.toInt := by decide
    obtain ⟨since, hsince⟩ := sub?_of_nonneg hn hday
    obtain ⟨stats', hstats⟩ := countJobs_of_sinceEpoch
      (l := (s.stored.map (·.job)).filter fun j => j.queue == queue && since ≤ j.createdAt)
      (fun j hj => by
        obtain ⟨x, hx, rfl⟩ := List.mem_map.1 (List.mem_filter.1 hj).1
        exact epoch.started x hx)
      (fun j hj => by
        obtain ⟨x, hx, rfl⟩ := List.mem_map.1 (List.mem_filter.1 hj).1
        exact epoch.completed x hx) (.empty queue)
    have hask : ask rules now (.stats queue) s = (.ok stats', s) := by
      simp only [ask, stats, hsince]
      exact hold_of_ok healthy (by rw [hstats]; rfl)
    rw [hask]
    exact fun h => by cases h
  | canProcess t =>
    obtain ⟨n, hcount⟩ := epoch.opened.counted? hn t
    rw [show ask rules now (.canProcess t) s = _ from canProcess_of_healthy healthy rules now t,
      hcount]
    exact fun h => by cases h
  | record t =>
    obtain ⟨w, hw⟩ := epoch.opened.record? hn room
    show (record now t s).1 ≠ _
    rw [record_of_healthy healthy, hw]
    exact fun h => by cases h
  | setLimit t l => simp [ask, setLimit, hold, healthy]
  | close => exact fun h => by cases h
  | _ => exact ask_ne_overflow healthy rfl (fun _ _ h => by cases h) now

/-! ## Room -/

/-- Was a job of a tenant to be counted? -/
def Event.counts (e : Event) : Bool :=
  match e.request with
  | .record _ => true
  | _ => false

/-- A window counts no more jobs than there were to be counted. -/
theorem Trace.jobs_le (trace : Trace rules h s) {t : Tenant} {w : Window}
    (hw : s.windows.get? t = some w) : w.jobs.toInt ≤ h.countP Event.counts := by
  induction trace generalizing w with
  | start => cases hw
  | @next h s past now r ih =>
    rw [List.countP_cons]
    rcases window_ask (s := s) rules now r t with hsame | ⟨rfl, w', hrec, hw'⟩
    · have hle := ih (hsame ▸ hw)
      omega
    · obtain rfl := Option.some.inj (hw'.symm.trans hw)
      rw [if_pos (show (Event.ask rules now (.record t) s).counts = true from rfl)]
      have hrec := Window.jobs_of_record? hrec
      cases hold : s.windows.get? t with
      | none =>
        rw [hold] at hrec
        have hopen : ((none : Option Window).getD (.openAt now)).jobs.toInt = 0 := rfl
        omega
      | some v =>
        have hle := ih hold
        rw [hold] at hrec
        simp only [Option.getD_some] at hrec
        omega

/-- As long as fewer than `2 ^ 63 - 1` jobs are counted, all windows have room. -/
theorem Trace.hasRoom (trace : Trace rules h s)
    (attempts : ∀ e ∈ h, ∀ x ∈ e.before.stored, x.job.attempts.toInt < Int32.maxValue.toInt)
    (counted : (h.countP Event.counts : ℤ) < Int64.maxValue.toInt) : ∀ e ∈ h, e.before.HasRoom := by
  intro e he
  obtain ⟨later, past, rfl⟩ := List.append_of_mem he
  obtain ⟨before, trace', he'⟩ := trace.of_suffix (List.suffix_append later (e :: past))
  have hbefore : e.before = before := congrArg Event.before he'
  have hle : past.countP Event.counts ≤ (later ++ e :: past).countP Event.counts :=
    ((List.sublist_cons_self e past).trans (List.sublist_append_right ..)).countP_le
  refine ⟨attempts e he, fun t w hw => ?_⟩
  have := trace'.jobs_le (hbefore ▸ hw)
  omega

/-- A store is never poisoned if every request finds room for what it counts. -/
theorem Trace.healthy_of_roomFor (trace : Trace rules h s) (readings : ∀ e ∈ h, 0 ≤ e.now.toInt)
    (room : ∀ e ∈ h, e.before.RoomFor e.now e.request) : s.poisoned = false := by
  induction trace with
  | start => rfl
  | @next h s past now r ih =>
    have hpast : ∀ e ∈ h, 0 ≤ e.now.toInt := fun e he => readings e (List.mem_cons_of_mem _ he)
    have healthy := ih hpast fun e he => room e (List.mem_cons_of_mem _ he)
    have hsteady : (ask rules now r s).1 ≠ .error .overflow :=
      steady_of_room healthy (past.sinceEpoch hpast) (readings _ List.mem_cons_self)
        (room _ List.mem_cons_self)
    exact ((step_ask rfl).poisoned hsteady).trans healthy

/-- **A store in which no count came to its end was never poisoned.** -/
theorem History.healthy (hist : History rules h s) (readings : ∀ e ∈ h, 0 ≤ e.now.toInt)
    (room : ∀ e ∈ h, e.before.HasRoom) : s.poisoned = false := by
  refine hist.trace.healthy_of_roomFor readings ?_
  induction hist with
  | start => intro e he; cases he
  | @next h s past now r fresh ih =>
    have hpast : ∀ e ∈ h, 0 ≤ e.now.toInt := fun e he => readings e (List.mem_cons_of_mem _ he)
    intro e he
    rcases List.mem_cons.1 he with rfl | he
    · exact (room _ List.mem_cons_self).roomFor now r
    · exact ih hpast (fun e he => room e (List.mem_cons_of_mem _ he)) e he

end

end Volatile

end JobQueue
