/-
  How far a tenant can exceed its quota per hour.

  A worker asks whether its job may run before the job runs, and the job is
  counted after it has run.  So more jobs are counted than the quota says, but
  not many more: whoever asks while the window is open finds fewer jobs counted
  than the quota permits, and besides it only the other workers can have a job
  that is not counted yet (`Opened.room`).  Who asks after the end of the
  window counts its job in the next one.
-/
import JobQueue.Proofs.Store.Windows
import JobQueue.Proofs.Worker.Exclusive

namespace JobQueue

open Volatile

/-- The reading of the clock at which the event was to count a job of the tenant. -/
def Volatile.Event.recorded? (t : Tenant) (e : Event) : Option Millis :=
  if e.request = .record t then some e.now else none

/-- The readings of the clock at which jobs of the tenant were to be counted. -/
def Volatile.recorded (t : Tenant) (h : List Event) : List Millis := h.filterMap (Event.recorded? t)

/-- The clock does not go backward, and is not before its zero. -/
def Volatile.Timely (h : List Event) (now : Millis) : Prop :=
  0 ≤ now.toInt ∧ ∀ e ∈ h, e.now.toInt ≤ now.toInt

section
variable {t : Tenant} {h : List Event} {now : Millis}

theorem Volatile.recorded_cons_of_ne {e : Event} (hr : e.request ≠ .record t) :
    recorded t (e :: h) = recorded t h :=
  List.filterMap_cons_none (if_neg hr)

theorem Volatile.recorded_cons {e : Event} (hr : e.request = .record t) :
    recorded t (e :: h) = e.now :: recorded t h :=
  List.filterMap_cons_some (if_pos hr)

theorem Volatile.Timely.recorded_le (ht : Timely h now) :
    ∀ r ∈ recorded t h, r.toInt ≤ now.toInt := by
  intro r hr
  obtain ⟨e, he, hre⟩ := List.mem_filterMap.1 hr
  unfold Event.recorded? at hre
  split at hre
  · obtain rfl := Option.some.inj hre
    exact ht.2 e he
  · cases hre

end

/-- Is a job of the tenant at work? -/
def Phase.worksFor (t : Tenant) (p : Phase) : Bool := p.atWork?.any fun job => Cycle.tenant job == t

theorem Phase.worksFor_iff {t : Tenant} {p : Phase} :
    p.worksFor t = true ↔ ∃ job, p.atWork? = some job ∧ Cycle.tenant job = t := by
  simp [worksFor, Option.any_eq_true]

theorem Phase.worksFor_of_none {t : Tenant} {p : Phase} (h : p.atWork? = none) :
    p.worksFor t = false := by
  rw [worksFor, h]
  rfl

namespace Crew

variable {ω : Type} [Fintype ω]

/-- The number of workers that have a job of the tenant which is not counted yet. -/
def inFlight (t : Tenant) (c : Crew ω) : ℕ :=
  (Finset.univ.filter fun w => (c.phase w).worksFor t = true).card

theorem inFlight_le (t : Tenant) (c : Crew ω) : c.inFlight t ≤ Fintype.card ω :=
  Finset.card_le_univ _

section
variable [DecidableEq ω] {t : Tenant} {c : Crew ω} {w : ω} {p : Phase} {claim : Option Job}

omit [Fintype ω] in
theorem worksFor_enter_of (hp : p.worksFor t = true → (c.phase w).worksFor t = true) {w' : ω}
    (h : ((c.enter w p claim).phase w').worksFor t = true) : (c.phase w').worksFor t = true := by
  by_cases he : w' = w
  · subst he
    rw [phase_enter_self] at h
    exact hp h
  · rwa [phase_enter_of_ne he] at h

theorem inFlight_enter_le (hp : p.worksFor t = true → (c.phase w).worksFor t = true) :
    (c.enter w p claim).inFlight t ≤ c.inFlight t := by
  refine Finset.card_le_card fun w' hw' => ?_
  rw [Finset.mem_filter] at hw' ⊢
  exact ⟨hw'.1, worksFor_enter_of hp hw'.2⟩

theorem inFlight_enter_lt (hw : (c.phase w).worksFor t = true) (hp : p.worksFor t = false) :
    (c.enter w p claim).inFlight t < c.inFlight t := by
  refine Finset.card_lt_card ((Finset.ssubset_iff_of_subset fun w' hw' => ?_).2 ⟨w, ?_, ?_⟩)
  · rw [Finset.mem_filter] at hw' ⊢
    exact ⟨hw'.1, worksFor_enter_of (fun _ => hw) hw'.2⟩
  · exact Finset.mem_filter.2 ⟨Finset.mem_univ w, hw⟩
  · intro hmem
    have := (Finset.mem_filter.1 hmem).2
    rw [phase_enter_self, hp] at this
    cases this

end

/-! ## The invariant -/

/-- Has the clock gone beyond the end of the window? -/
def Over (c : Crew ω) (w : Window) : Prop :=
  ∃ e ∈ c.history, w.start.toInt + rateWindow.toInt < e.now.toInt

/-- How many jobs of the tenant were counted in the window. -/
def inWindow (t : Tenant) (c : Crew ω) (w : Window) : ℕ := since (recorded t c.history) w.start.toInt

/-- The most that a window counts: with the quota all but used up, every worker can have a job. -/
def most (ω : Type) [Fintype ω] (m : Int64) : ℤ := m.toInt + Fintype.card ω - 1

/-- What holds while a window is open, and after its end until the next one is opened. -/
structure Opened (t : Tenant) (m : Int64) (c : Crew ω) (w : Window) : Prop where
  positive : 0 < m.toInt
  start : 0 ≤ w.start.toInt ∧ ∃ e ∈ c.history, w.start.toInt ≤ e.now.toInt
  filled : Filled (most ω m) (recorded t c.history) w.start.toInt
  counted : w.jobs.toInt ≤ c.inWindow t w
  exact : c.store.poisoned = false → w.jobs.toInt = c.inWindow t w
  room : c.Over w ∨ c.inWindow t w + c.inFlight t ≤ most ω m

/-- What moves under a quota preserve. -/
structure Metered (rules : Rules) (t : Tenant) (m : Int64) (c : Crew ω) : Prop where
  limit : (c.store.limit rules t).perHour = m
  permitted : ∀ w, (c.phase w).worksFor t = true → 0 < m.toInt
  unopened : c.store.windows.get? t = none → recorded t c.history = []
  opened : ∀ w, c.store.windows.get? t = some w → c.Opened t m w

section
variable {rules : Rules} {t : Tenant} {m : Int64} {c : Crew ω} {now : Millis}

theorem metered_start {s : Volatile} (hm : (s.limit rules t).perHour = m)
    (hw : s.windows.get? t = none) : Metered rules t m (.start [] s : Crew ω) where
  limit := hm
  permitted w h := by cases h
  unopened _ := rfl
  opened w h := by rw [show (Crew.start [] s : Crew ω).store.windows.get? t = none from hw] at h; cases h

/-- Who was lost and which handlers were run is not on the meter. -/
theorem Metered.of_eq (hm : Metered rules t m c) {c' : Crew ω} (hstore : c'.store = c.store)
    (hhistory : c'.history = c.history) (hphase : c'.phase = c.phase) : Metered rules t m c' := by
  obtain ⟨store, history, phase, claim, alive, runs⟩ := c'
  obtain rfl := hstore
  obtain rfl := hhistory
  obtain rfl := hphase
  refine ⟨hm.limit, hm.permitted, hm.unopened, fun win h => ?_⟩
  have ho := hm.opened win h
  exact ⟨ho.positive, ho.start, ho.filled, ho.counted, ho.exact, ho.room⟩

omit [Fintype ω] in
theorem Over.told {w : Window} (h : c.Over w) (r : Request) : (c.told rules now r).Over w := by
  obtain ⟨e, he, hlt⟩ := h
  exact ⟨e, List.mem_cons_of_mem _ he, hlt⟩

/-- A request that counts no job of the tenant. -/
theorem Metered.told (hm : Metered rules t m c) {r : Request} (hr : r ≠ .record t)
    (hset : ∀ l, r = .setLimit t l → l.perHour = m) : Metered rules t m (c.told rules now r) := by
  have hrecorded : recorded t (c.told rules now r).history = recorded t c.history :=
    recorded_cons_of_ne (e := .ask rules now r c.store) hr
  have hwindows : (c.told rules now r).store.windows.get? t = c.store.windows.get? t := by
    rcases window_ask rules now r t with h | ⟨he, -⟩
    · exact h
    · exact absurd he hr
  refine ⟨?_, hm.permitted, fun h => ?_, fun w h => ?_⟩
  · rcases limit_ask rules now r t with h | ⟨l, he, h⟩
    · exact (congrArg _ h).trans hm.limit
    · exact (congrArg _ h).trans (hset l he)
  · rw [hwindows] at h
    exact hrecorded.trans (hm.unopened h)
  · rw [hwindows] at h
    have ho := hm.opened w h
    have hsame : (c.told rules now r).inWindow t w = c.inWindow t w := by
      rw [inWindow, hrecorded, inWindow]
    refine ⟨ho.positive, ⟨ho.start.1, ?_⟩, hrecorded ▸ ho.filled, ?_, fun hc => ?_, ?_⟩
    · obtain ⟨e, he, hle⟩ := ho.start.2
      exact ⟨e, List.mem_cons_of_mem _ he, hle⟩
    · rw [hsame]
      exact ho.counted
    · rw [hsame]
      exact ho.exact (healthy_of_ask hc)
    · rw [hsame]
      exact ho.room.imp (fun h => h.told r) id

omit [Fintype ω] in
theorem recorded_told (rules : Rules) (now : Millis) (t : Tenant) (c : Crew ω) :
    recorded t (c.told rules now (.record t)).history = now :: recorded t c.history :=
  recorded_cons (e := .ask rules now (.record t) c.store) rfl

/-- The window that the first job after the end of a window opens. -/
theorem opened_new (timely : Timely c.history now) (hpos : 0 < m.toInt)
    (hfree : c.inFlight t + 1 ≤ Fintype.card ω) {start : ℤ}
    (hf : Filled (most ω m) (recorded t c.history) start)
    (hend : start + rateWindow.toInt < now.toInt) :
    (c.told rules now (.record t)).Opened t m ⟨now, 1⟩ := by
  have hmost : 1 + (c.inFlight t : ℤ) ≤ most ω m := by
    unfold most
    omega
  have hzero : since (recorded t c.history) now.toInt = 0 := by
    refine since_eq_zero fun r hr => ?_
    have := hf.last r hr
    omega
  have hone : (c.told rules now (.record t)).inWindow t ⟨now, 1⟩ = 1 := by
    rw [inWindow, recorded_told, since_cons, if_pos le_rfl, hzero]
  have hjobs : (1 : Int64).toInt = ((c.told rules now (.record t)).inWindow t ⟨now, 1⟩ : ℤ) := by
    rw [hone]
    decide
  refine ⟨hpos, ⟨timely.1, _, List.mem_cons_self, le_rfl⟩, ?_, hjobs.le, fun _ => hjobs, Or.inr ?_⟩
  · rw [recorded_told]
    exact hf.reopen hend (by omega)
  · rw [hone]
    exact_mod_cast hmost

/-- A job more in a window that is open; it is counted unless the count overflows. -/
theorem Opened.record {w : Window} (ho : c.Opened t m w) (timely : Timely c.history now)
    (hend : now.toInt ≤ w.start.toInt + rateWindow.toInt)
    (hroom : c.Over w ∨ c.inWindow t w + (c.inFlight t + 1) ≤ most ω m) {w' : Window}
    (hstart : w'.start = w.start) (hcounted : w'.jobs.toInt ≤ c.inWindow t w + 1)
    (hexact : (c.told rules now (.record t)).store.poisoned = false →
      w'.jobs.toInt = c.inWindow t w + 1) : (c.told rules now (.record t)).Opened t m w' := by
  obtain ⟨e, he, hle⟩ := ho.start.2
  have hnow : w.start.toInt ≤ now.toInt := hle.trans (timely.2 e he)
  have hfits : c.inWindow t w + (c.inFlight t + 1) ≤ most ω m := by
    rcases hroom with ⟨e', he', hlt⟩ | hroom
    · -- the clock would have to go back
      have := timely.2 e' he'
      omega
    · exact hroom
  have hin : (c.told rules now (.record t)).inWindow t w' = c.inWindow t w + 1 := by
    rw [inWindow, recorded_told, hstart, since_cons, if_pos hnow, inWindow]
  refine ⟨ho.positive, ⟨hstart ▸ ho.start.1, _, List.mem_cons_self, hstart ▸ hnow⟩, ?_, ?_,
    fun hc => ?_, Or.inr ?_⟩
  · rw [recorded_told, hstart]
    refine ho.filled.record hnow hend timely.recorded_le ?_
    rw [inWindow] at hfits
    omega
  · rw [hin]
    exact_mod_cast hcounted
  · rw [hin]
    exact_mod_cast hexact hc
  · rw [hin]
    have : (c.told rules now (.record t)).inFlight t = c.inFlight t := rfl
    rw [this]
    push_cast
    omega

/-- A job of the tenant is counted.  The worker that counts it does not have it in flight any more. -/
theorem Metered.record (hm : Metered rules t m c) (healthy : c.store.poisoned = false)
    (timely : Timely c.history now) (hpos : 0 < m.toInt) (hfree : c.inFlight t + 1 ≤ Fintype.card ω)
    (hroom : ∀ w, c.store.windows.get? t = some w →
      c.Over w ∨ c.inWindow t w + (c.inFlight t + 1) ≤ most ω m) :
    Metered rules t m (c.told rules now (.record t)) := by
  have hlimit : ((c.told rules now (.record t)).store.limit rules t).perHour = m := by
    rcases limit_ask rules now (.record t) t with h | ⟨l, he, -⟩
    · exact (congrArg _ h).trans hm.limit
    · cases he
  have hdone : ∀ w, (c.told rules now (.record t)).store.windows.get? t = some w →
      (c.told rules now (.record t)).Opened t m w → Metered rules t m (c.told rules now (.record t)) := by
    intro w hget ho
    refine ⟨hlimit, hm.permitted, fun h => ?_, fun w' h => ?_⟩
    · rw [hget] at h
      cases h
    · rw [hget] at h
      exact Option.some.inj h ▸ ho
  have hask : ask rules now (.record t) c.store = _ := record_of_healthy healthy now t
  have hget : ∀ w, ((c.store.windows.get? t).getD (.openAt now)).record? now = some w →
      (c.told rules now (.record t)).store.windows.get? t = some w := by
    intro w hw
    show (ask rules now (.record t) c.store).2.windows.get? t = some w
    rw [hask, hw, Keyed.get?_put, if_pos rfl]
  cases hw : c.store.windows.get? t with
  | none =>
    have hf : Filled (most ω m) (recorded t c.history) (now.toInt - rateWindow.toInt - 1) := by
      rw [hm.unopened hw]
      exact .nil (by unfold most; omega) _
    refine hdone ⟨now, 1⟩ (hget _ ?_) (opened_new timely hpos hfree hf (by omega))
    rw [hw]
    exact Window.record?_openAt timely.1
  | some w =>
    have ho := hm.opened w hw
    obtain ⟨e, he, hle⟩ := ho.start.2
    have hnow : w.start.toInt ≤ now.toInt := hle.trans (timely.2 e he)
    have hrec := Window.record?_eq ho.start.1 hnow
    by_cases hend : w.start.toInt + rateWindow.toInt < now.toInt
    · rw [if_pos hend] at hrec
      exact hdone ⟨now, 1⟩ (hget _ (by rw [hw]; exact hrec)) (opened_new timely hpos hfree ho.filled hend)
    · rw [if_neg hend] at hrec
      rw [not_lt] at hend
      have hexact := ho.exact healthy
      cases hn : succ? w.jobs with
      | none =>
        rw [hn, Option.map_none] at hrec
        rw [hw, Option.getD_some, hrec] at hask
        refine hdone w ?_ (ho.record timely hend (hroom w hw) rfl (by omega) fun hc => ?_)
        · show (ask rules now (.record t) c.store).2.windows.get? t = some w
          rw [hask]
          exact hw
        · rw [show (c.told rules now (.record t)).store = _ from congrArg Prod.snd hask] at hc
          cases hc
      | some n =>
        rw [hn, Option.map_some] at hrec
        have hcount : n.toInt = c.inWindow t w + 1 := by
          rw [toInt_of_fit? hn, hexact]
        exact hdone { w with jobs := n } (hget _ (by rw [hw]; exact hrec))
          (ho.record timely hend (hroom w hw) rfl hcount.le fun _ => hcount)

/-! ## Moves -/

/-- A worker makes its request only while the store is not poisoned, the clock goes forward, jobs of
    the tenant are counted by nobody but the workers, and its quota stays what it is. -/
def Clocked (cycles : ω → Cycle) (t : Tenant) (m : Int64) (c : Crew ω) : Move ω → Prop
  | .ask w now => (cycles w).request? (c.phase w) ≠ none →
    c.store.poisoned = false ∧ Timely c.history now
  | .outside now r => Timely c.history now ∧ r ≠ .record t ∧ ∀ l, r = .setLimit t l → l.perHour = m
  | .run .. | .again _ | .crash _ => True

variable [DecidableEq ω] {cycles : ω → Cycle} {w : ω} {p : Phase} {claim : Option Job}

omit [Fintype ω] in
@[simp] theorem inWindow_enter (t : Tenant) (win : Window) (w : ω) (p : Phase) (claim : Option Job)
    (c : Crew ω) : (c.enter w p claim).inWindow t win = c.inWindow t win :=
  rfl

theorem Metered.enter (hm : Metered rules t m c) (hpermitted : p.worksFor t = true → 0 < m.toInt)
    (hroom : ∀ win, c.store.windows.get? t = some win →
      c.Over win ∨ c.inWindow t win + (c.enter w p claim).inFlight t ≤ most ω m) :
    Metered rules t m (c.enter w p claim) := by
  refine ⟨hm.limit, fun w' h => ?_, hm.unopened, fun win hwin => ?_⟩
  · by_cases he : w' = w
    · subst he
      rw [phase_enter_self] at h
      exact hpermitted h
    · rw [phase_enter_of_ne he] at h
      exact hm.permitted w' h
  · have ho := hm.opened win hwin
    exact ⟨ho.positive, ho.start, ho.filled, ho.counted, ho.exact, hroom win hwin⟩

theorem Metered.goOn (hm : Metered rules t m c)
    (hp : p.worksFor t = true → (c.phase w).worksFor t = true) :
    Metered rules t m (c.enter w p claim) := by
  refine hm.enter (fun h => hm.permitted w (hp h)) fun win hwin => ?_
  have hle : (c.enter w p claim).inFlight t ≤ c.inFlight t := inFlight_enter_le hp
  refine (hm.opened win hwin).room.imp id fun h => ?_
  omega

omit [DecidableEq ω] in
/-- Whoever is told that a job of the tenant may run leaves room for it. -/
theorem Metered.room_of_canProcess (hm : Metered rules t m c) (healthy : c.store.poisoned = false)
    (timely : Timely c.history now) (ha : (ask rules now (.canProcess t) c.store).1 = .ok true) :
    0 < m.toInt ∧ ∀ win, c.store.windows.get? t = some win →
      (c.told rules now (.canProcess t)).Over win ∨
      c.inWindow t win + (Fintype.card ω : ℤ) ≤ most ω m := by
  obtain ⟨⟨n, hn, hlt⟩, -⟩ := admits_of_canProcess ha
  rw [hm.limit, Int64.lt_iff_toInt_lt] at hlt
  cases hw : c.store.windows.get? t with
  | none =>
    rw [Volatile.counted?, hw] at hn
    obtain rfl := Option.some.inj hn
    exact ⟨hlt, fun win h => by cases h⟩
  | some win =>
    have ho := hm.opened win hw
    obtain ⟨e, he, hle⟩ := ho.start.2
    refine ⟨ho.positive, fun win' h => ?_⟩
    obtain rfl := Option.some.inj h
    rw [Volatile.counted?, hw] at hn
    simp only [Window.counted?_eq ho.start.1 (hle.trans (timely.2 e he)), Option.some.injEq] at hn
    split at hn
    · rename_i hend
      exact Or.inl ⟨_, List.mem_cons_self, hend⟩
    · have := ho.exact healthy
      rw [← hn] at hlt
      right
      unfold most
      omega

theorem Metered.admitting (hm : Metered rules t m c) (healthy : c.store.poisoned = false)
    (timely : Timely c.history now) (cycle : Cycle) (job : Job) :
    Metered rules t m ((c.told rules now (.canProcess (Cycle.tenant job))).enter w
      (cycle.afterAdmission job (ask rules now (.canProcess (Cycle.tenant job)) c.store).1) claim) := by
  have htold : Metered rules t m (c.told rules now (.canProcess (Cycle.tenant job))) :=
    hm.told (by simp) fun l he => by cases he
  have hidle : ∀ {p : Phase}, p.atWork? = none →
      Metered rules t m ((c.told rules now (.canProcess (Cycle.tenant job))).enter w p claim) :=
    fun hp => htold.goOn fun h => by rw [Phase.worksFor_of_none hp] at h; cases h
  cases ha : (ask rules now (.canProcess (Cycle.tenant job)) c.store).1 with
  | ok may =>
    cases may with
    | false => exact hidle rfl
    | true =>
      by_cases ht : Cycle.tenant job = t
      · subst ht
        obtain ⟨hpos, hroom⟩ := hm.room_of_canProcess healthy timely ha
        refine htold.enter (fun _ => hpos) fun win hwin => ?_
        have hsame : c.store.windows.get? (Cycle.tenant job) = some win := by
          rcases window_ask rules now (.canProcess (Cycle.tenant job)) (Cycle.tenant job) with h | ⟨h, -⟩
          · exact h.symm.trans hwin
          · cases h
        refine (hroom win hsame).imp id fun h => ?_
        have hle := inFlight_le (Cycle.tenant job)
          ((c.told rules now (.canProcess (Cycle.tenant job))).enter w (cycle.admitted job) claim)
        have hin : (c.told rules now (.canProcess (Cycle.tenant job))).inWindow (Cycle.tenant job) win =
            c.inWindow (Cycle.tenant job) win := by
          rw [inWindow, inWindow]
          exact congrArg (since · _) (recorded_cons_of_ne (by simp [Event.ask]))
        rw [hin]
        show _ + ((Crew.enter w (cycle.admitted job) claim _).inFlight _ : ℤ) ≤ _
        omega
      · refine htold.goOn fun h => ?_
        obtain ⟨job', hj, ht'⟩ := Phase.worksFor_iff.1 h
        obtain rfl := Cycle.eq_of_atWork?_admitted hj
        exact absurd ht' ht
  | error f =>
    cases f with
    | overflow => exact hidle rfl
    | error e => exact absurd ha (canProcess_ne_error healthy rules now _ e)

theorem Metered.counting (hm : Metered rules t m c) (healthy : c.store.poisoned = false)
    (timely : Timely c.history now) {job : Job} {result : Option Payload}
    (hp : c.phase w = .counting job result) :
    Metered rules t m ((c.told rules now (.record (Cycle.tenant job))).enter w
      (Cycle.afterCount job result (ask rules now (.record (Cycle.tenant job)) c.store).1) claim) := by
  have hdone : (Cycle.afterCount job result
      (ask rules now (.record (Cycle.tenant job)) c.store).1).worksFor t = false :=
    Phase.worksFor_of_none (Cycle.atWork?_afterCount ..)
  by_cases ht : Cycle.tenant job = t
  · subst ht
    have hworks : (c.phase w).worksFor (Cycle.tenant job) = true := by
      rw [hp]
      exact Phase.worksFor_iff.2 ⟨job, rfl, rfl⟩
    -- the worker is done with the job first
    have hlt : (c.enter w _ claim).inFlight (Cycle.tenant job) < c.inFlight (Cycle.tenant job) :=
      inFlight_enter_lt hworks hdone
    have hle := inFlight_le (Cycle.tenant job) c
    have henter : Metered rules (Cycle.tenant job) m (c.enter w _ claim) :=
      hm.goOn fun h => by rw [hdone] at h; cases h
    refine henter.record healthy timely (hm.permitted w hworks) (by omega) fun win hwin => ?_
    refine (hm.opened win hwin).room.imp id fun h => ?_
    rw [inWindow_enter]
    omega
  · have htold : Metered rules t m (c.told rules now (.record (Cycle.tenant job))) :=
      hm.told (by simpa using ht) fun l he => by cases he
    exact htold.goOn fun h => by rw [hdone] at h; cases h

theorem Metered.asked (hm : Metered rules t m c) (limiting : ∀ w, (cycles w).rateLimiting = true)
    {r : Request} (healthy : c.store.poisoned = false) (timely : Timely c.history now)
    (due : (cycles w).request? (c.phase w) = some r) :
    Metered rules t m ((c.told rules now r).enter w
      ((cycles w).step (Volatile.store rules) now (c.phase w) c.store).1 claim) := by
  have hidle : ∀ {p : Phase}, r ≠ .record t → p.atWork? = none →
      Metered rules t m ((c.told rules now r).enter w p claim) := by
    intro p hr hp
    have htold : Metered rules t m (c.told rules now r) :=
      hm.told hr fun l he => absurd he (ne_setLimit_of_due due t l)
    exact htold.goOn fun h => by rw [Phase.worksFor_of_none hp] at h; cases h
  cases hp : c.phase w with
  | claiming =>
    rw [hp] at due
    obtain rfl := Option.some.inj due
    exact hidle (by simp) (Cycle.atWork?_afterClaim (limiting w) _)
  | admitting job =>
    rw [hp] at due
    obtain rfl := Option.some.inj due
    exact hm.admitting healthy timely (cycles w) job
  | counting job result =>
    rw [hp] at due
    obtain rfl := Option.some.inj due
    exact hm.counting healthy timely hp
  | reporting id report =>
    rw [hp] at due
    cases report with
    | complete result =>
      obtain rfl := Option.some.inj due
      exact hidle (by simp) (Cycle.atWork?_afterReport _)
    | fail message =>
      obtain rfl := Option.some.inj due
      exact hidle (by simp) (Cycle.atWork?_afterReport _)
  | running | finished | broken => rw [hp] at due; cases due

/-- **Moves under a quota keep the meter.** -/
theorem Metered.move (hm : Metered rules t m c) (limiting : ∀ w, (cycles w).rateLimiting = true)
    {mv : Move ω} (ok : Clocked cycles t m c mv) : Metered rules t m (c.move rules cycles mv) := by
  generalize hc : c.move rules cycles mv = c'
  cases hc ▸ moved rules cycles c mv with
  | nothing => exact hm
  | asked alive due =>
    obtain ⟨healthy, timely⟩ := ok (by simp [due])
    exact hm.asked limiting healthy timely due
  | @ran w outcome job alive hp =>
    have hworks : ((cycles w).afterRun job outcome).worksFor t = true →
        (c.phase w).worksFor t = true := by
      intro h
      obtain ⟨job', hj, ht⟩ := Phase.worksFor_iff.1 h
      obtain rfl := Cycle.eq_of_atWork?_afterRun hj
      rw [hp]
      exact Phase.worksFor_iff.2 ⟨job, rfl, ht⟩
    have hran : Metered rules t m (c.enter w _ (c.claim w)) := hm.goOn hworks
    exact hran.of_eq rfl rfl rfl
  | begun hp => exact hm.goOn fun h => by cases h
  | lost w => exact hm.of_eq rfl rfl rfl
  | told now r => exact hm.told ok.2.1 ok.2.2

/-- **The quota is exceeded by one job for every other worker at most.**  Under a quota that permits no
    job none is counted.  Otherwise a window counts at most as many jobs more than the quota as there
    are other workers, and at most twice that number is counted within any stretch of time as long as
    a window. -/
theorem quota_nearly_kept {s : Volatile} (unopened : s.windows.get? t = none)
    (limiting : ∀ w, (cycles w).rateLimiting = true)
    (run : Run rules cycles (Clocked cycles t (s.limit rules t).perHour) (.start [] s) c) :
    ((s.limit rules t).perHour ≤ 0 →
      c.store.windows.get? t = none ∧ recorded t c.history = []) ∧
    (0 < (s.limit rules t).perHour →
      (∀ w, c.store.windows.get? t = some w →
        w.jobs.toInt ≤ (s.limit rules t).perHour.toInt + Fintype.card ω - 1 ∧
        since (recorded t c.history) w.start.toInt ≤
          (s.limit rules t).perHour.toInt + Fintype.card ω - 1 ∧
        (c.store.poisoned = false → w.jobs.toInt = since (recorded t c.history) w.start.toInt)) ∧
      ∀ a : ℤ, between (recorded t c.history) a (a + rateWindow.toInt) ≤
        2 * ((s.limit rules t).perHour.toInt + Fintype.card ω - 1)) := by
  have hm : Metered rules t (s.limit rules t).perHour c :=
    run.invariant (metered_start rfl unopened) fun c mv hm ok => hm.move limiting ok
  constructor
  · intro hle
    rw [Int64.le_iff_toInt_le] at hle
    cases hw : c.store.windows.get? t with
    | none => exact ⟨rfl, hm.unopened hw⟩
    | some w => exact absurd (hm.opened w hw).positive (not_lt.2 hle)
  · intro hpos
    constructor
    · intro w hw
      have ho := hm.opened w hw
      exact ⟨ho.counted.trans ho.filled.few, ho.filled.few, ho.exact⟩
    · intro a
      cases hw : c.store.windows.get? t with
      | none =>
        rw [hm.unopened hw]
        rw [Int64.lt_iff_toInt_lt] at hpos
        have : (0 : Int64).toInt = 0 := by decide
        show ((0 : ℕ) : ℤ) ≤ _
        omega
      | some w => exact (hm.opened w hw).filled.between_le a

end

/-- Rules under which a tenant may run one job in an hour. -/
def onePerHour : Rules := ⟨.default, ⟨1, 10⟩⟩

/-- Two workers are told that they may run jobs of a tenant before either of them has counted its
    job. -/
def bothAdmittedMoves : List (Move Bool) :=
  [.outside 0 (.enqueue "a" ⟨"q", "t", "o", .empty, {}⟩),
    .outside 0 (.enqueue "b" ⟨"q", "t", "o", .empty, {}⟩), .ask false 1, .ask true 1, .ask false 2,
    .ask true 2, .run false (.success (.ok none)), .run true (.success (.ok none)), .ask false 3,
    .ask true 3]

/-- The two workers after these moves. -/
def bothAdmitted : Crew Bool :=
  bothAdmittedMoves.foldl (move onePerHour twoWorkers) (.start [] .empty)

theorem run_bothAdmitted :
    Run onePerHour twoWorkers (Clocked twoWorkers ⟨"o", "q"⟩ 1) (.start [] .empty) bothAdmitted := by
  refine .follow .start ⟨⟨⟨by decide, by decide⟩, by simp, by simp⟩,
    ⟨⟨by decide, by decide⟩, by simp, by simp⟩, fun _ => ?_, fun _ => ?_, fun _ => ?_, fun _ => ?_,
    trivial, trivial, fun _ => ?_, fun _ => ?_, trivial⟩
  all_goals exact ⟨by decide, by decide, by decide⟩

theorem quota_nearly_kept_bothAdmitted :
    ∃ w, bothAdmitted.store.windows.get? ⟨"o", "q"⟩ = some w ∧ w.jobs = 2 ∧
      w.jobs.toInt ≤ 1 + 2 - 1 ∧
      ∀ a : ℤ, between (recorded ⟨"o", "q"⟩ bothAdmitted.history) a (a + rateWindow.toInt) ≤
        2 * (1 + 2 - 1 : ℤ) := by
  have hw : bothAdmitted.store.windows.get? ⟨"o", "q"⟩ = some ⟨3, 2⟩ := by decide
  obtain ⟨hwindow, hbetween⟩ := (quota_nearly_kept (t := ⟨"o", "q"⟩) (s := .empty) rfl (fun _ => rfl)
    run_bothAdmitted).2 (by decide)
  exact ⟨⟨3, 2⟩, hw, rfl, (hwindow _ hw).1, hbetween⟩

end Crew

end JobQueue
