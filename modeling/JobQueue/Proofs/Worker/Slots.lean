/-
  No more jobs of a tenant run at the same time than its limit permits.

  A worker claims a job, asks whether its tenant may run one more, and runs the
  job; between its requests others make theirs.  But a job is in processing
  from its claim to its report.  So whoever asks finds the jobs of all those in
  processing who were told before that they may run (`card_le_processing`), and
  its own besides.

  A worker that is lost keeps its slot: its job stays in processing, as that of
  a worker that makes no move any more.
-/
import JobQueue.Proofs.Worker.Exclusive

namespace JobQueue

open Volatile

/-- Is the worker past the question for admission, and its report to come? -/
def Phase.isPast : Phase → Bool
  | .running _ | .counting .. | .reporting .. => true
  | .claiming | .admitting _ | .finished _ | .broken => false

theorem Phase.isBusy_of_isPast {p : Phase} (h : p.isPast = true) : p.isBusy = true := by
  cases p with
  | running | counting | reporting => rfl
  | claiming | admitting | finished | broken => cases h

namespace Crew

variable {ω : Type} {rules : Rules} {cycles : ω → Cycle} {c : Crew ω}

/-- The crew as if nobody had been lost. -/
def revived (c : Crew ω) : Crew ω := { c with alive := fun _ => true }

/-- The jobs of workers are in processing, each of them once. -/
theorem Sound.card_le_processing (hs : Sound rules c) {t : Tenant} {W : Finset ω}
    (hW : ∀ w ∈ W, ∃ job, c.Holds w job ∧ Cycle.tenant job = t) : W.card ≤ c.store.processing t := by
  have hcount : c.store.processing t = ((c.store.stored.filter fun x =>
      x.job.status == .processing && x.job.org == t.org && x.job.queue == t.queue).map
        fun x => some x.job.id).length := by
    rw [List.length_map, processing, List.countP_eq_length_filter]
  rw [hcount]
  refine le_trans ?_ (List.toFinset_card_le _)
  refine Finset.card_le_card_of_injOn (fun w => (c.claim w).map (·.id)) ?_ ?_
  · intro w hw
    obtain ⟨job, hj, rfl⟩ := hW w hw
    have hk := hs.kept w job hj
    obtain ⟨k, hx⟩ := hk.stored
    simp only [List.coe_toFinset, Set.mem_ofPred_eq, hj.2.2, Option.map_some]
    refine List.mem_map.2 ⟨⟨k, job⟩, List.mem_filter.2 ⟨Keyed.mem_values hx, ?_⟩, rfl⟩
    simp [hk.busy, Cycle.tenant]
  · intro w hw w' hw' he
    obtain ⟨job, hj, -⟩ := hW w hw
    obtain ⟨job', hj', -⟩ := hW w' hw'
    simp only [hj.2.2, hj'.2.2, Option.map_some, Option.some.injEq] at he
    exact hs.alone w' w job' job hj' hj he

end Crew

/-- A crew, and the jobs that its workers were told they may run. -/
structure Slots (ω : Type) where
  crew : Crew ω
  /-- The job that the worker may run, until it reports. -/
  slot : ω → Option Job

namespace Slots

variable {ω : Type}

def start (h : List Event) (s : Volatile) : Slots ω := ⟨.start h s, fun _ => none⟩

/-- The slot of a worker after it has made the request of its phase. -/
def afterAsk (rules : Rules) (now : Millis) (s : Volatile) (slot : Option Job) : Phase → Option Job
  | .admitting job =>
    match (ask rules now (.canProcess (Cycle.tenant job)) s).1 with
    | .ok true => some job
    | _ => slot
  | .reporting .. => none
  | _ => slot

/-- The worker was told that it may run a job of the tenant, and has not reported on it. -/
def Admitted (g : Slots ω) (t : Tenant) (w : ω) : Prop :=
  ∃ job, g.slot w = some job ∧ Cycle.tenant job = t

variable [DecidableEq ω]

/-- The crew after a move, and its slots. -/
def move (rules : Rules) (cycles : ω → Cycle) (g : Slots ω) (m : Move ω) : Slots ω where
  crew := g.crew.move rules cycles m
  slot :=
    match m with
    | .ask w now =>
      if g.crew.alive w then
        Function.update g.slot w
          (afterAsk rules now g.crew.store (g.slot w) (g.crew.phase w))
      else g.slot
    | _ => g.slot

/-- The crews that a crew can become by moves that are allowed. -/
inductive Run (rules : Rules) (cycles : ω → Cycle) (allowed : Crew ω → Move ω → Prop)
    (g₀ : Slots ω) : Slots ω → Prop where
  | start : Run rules cycles allowed g₀ g₀
  | next {g : Slots ω} (past : Run rules cycles allowed g₀ g) (m : Move ω) (ok : allowed g.crew m) :
      Run rules cycles allowed g₀ (g.move rules cycles m)

/-! ## The bound -/

/-- At most as many as the limit says, for every number that 64 bits can hold, and for any number if
    the limit is not the highest one. -/
def Within (n : ℕ) (limit : Int64) : Prop :=
  (n : ℤ) ≤ Int64.maxValue.toInt ∨ limit < Int64.maxValue → (n : ℤ) ≤ max 0 limit.toInt

theorem within_of_clamp {n k : ℕ} {limit : Int64} (hn : n ≤ k) (hk : clamp k ≤ limit) :
    Within n limit := by
  intro h
  have hmax : Int64.maxValue.toInt = 0x7fffffffffffffff := by decide
  have hlt := Int64.toInt_lt limit
  rw [Int64.lt_iff_toInt_lt] at h
  rw [Int64.le_iff_toInt_le, toInt_clamp] at hk
  omega

omit [DecidableEq ω] in
/-- Those who were told that they may run a job of the tenant are as few as the limit says. -/
def Bounded (t : Tenant) (l : RateLimit) (slot : ω → Option Job) : Prop :=
  ∀ W : Finset ω, (∀ w ∈ W, ∃ job, slot w = some job ∧ Cycle.tenant job = t) →
    Within W.card l.concurrent

/-- The store is not poisoned when a worker makes its request, names of new jobs are fresh, requests
    from outside spare all claims, and the limit of the tenant stays what it is. -/
def Undisturbed (cycles : ω → Cycle) (t : Tenant) (l : RateLimit) (c : Crew ω) : Move ω → Prop
  | .ask w _ => (cycles w).request? (c.phase w) ≠ none → c.store.poisoned = false
  | .outside _ r => Fresh c.history r ∧ (∀ job, r.Spares job) ∧ ∀ l', r = .setLimit t l' → l' = l
  | .run .. | .again _ | .crash _ => True

/-- The slot of a worker goes with its claim and its phase, as long as the store is not poisoned;
    what the handler of the worker has is always in its slot. -/
structure Fits (healthy : Prop) (p : Phase) (claim slot : Option Job) : Prop where
  holder : healthy → ∀ job, slot = some job → claim = some job ∧ p.isPast = true
  atWork : ∀ job, p.atWork? = some job → slot = some job

theorem Fits.of_none {healthy : Prop} {p : Phase} {claim : Option Job} (hp : p.atWork? = none) :
    Fits healthy p claim none where
  holder _ _ hj := by cases hj
  atWork job hj := by rw [hp] at hj; cases hj

/-- What undisturbed moves preserve. -/
structure Fair (rules : Rules) (t : Tenant) (l : RateLimit) (g : Slots ω) : Prop where
  limit : g.crew.store.limit rules t = l
  sound : g.crew.store.poisoned = false → Crew.Sound rules g.crew.revived
  fits : ∀ w, Fits (g.crew.store.poisoned = false) (g.crew.phase w) (g.crew.claim w) (g.slot w)
  bounded : Bounded t l g.slot

section
variable {rules : Rules} {cycles : ω → Cycle} {t : Tenant} {l : RateLimit} {g : Slots ω}

omit [DecidableEq ω] in
theorem fair_start {h : List Event} {s : Volatile} (past : History rules h s)
    (hl : s.limit rules t = l) : Fair rules t l (.start h s : Slots ω) where
  limit := hl
  sound healthy := Crew.sound_start past healthy
  fits _ := .of_none rfl
  bounded W hW := by
    have he : W = ∅ := by
      refine Finset.eq_empty_of_forall_notMem fun w hw => ?_
      obtain ⟨job, hj, -⟩ := hW w hw
      cases hj
    rw [he, Finset.card_empty]
    exact fun _ => le_max_left 0 _

/-- A worker keeps its slot or gives it up. -/
theorem Bounded.update {slot : ω → Option Job} (hb : Bounded t l slot) {w : ω} {x : Option Job}
    (hx : ∀ job, x = some job → slot w = some job) : Bounded t l (Function.update slot w x) := by
  intro W hW
  refine hb W fun w' hw' => ?_
  obtain ⟨job, hj, ht⟩ := hW w' hw'
  by_cases he : w' = w
  · subst he
    rw [Function.update_self] at hj
    exact ⟨job, hx job hj, ht⟩
  · rw [Function.update_of_ne he] at hj
    exact ⟨job, hj, ht⟩

theorem Bounded.giveUp {slot : ω → Option Job} (hb : Bounded t l slot) (w : ω) :
    Bounded t l (Function.update slot w none) :=
  hb.update fun _ hj => by cases hj

omit [DecidableEq ω] in
/-- A worker that is not past the question for admission has no slot. -/
theorem Fair.slot_eq_none (hf : Fair rules t l g) (healthy : g.crew.store.poisoned = false) {w : ω}
    (hp : (g.crew.phase w).isPast = false) : g.slot w = none := by
  cases hj : g.slot w with
  | none => rfl
  | some job =>
    have := ((hf.fits w).holder healthy job hj).2
    rw [hp] at this
    cases this

omit [DecidableEq ω] in
theorem Fair.claim_eq (hf : Fair rules t l g) (healthy : g.crew.store.poisoned = false) {w : ω}
    {job : Job} (hp : g.crew.phase w = .admitting job) : g.crew.claim w = some job := by
  have hs := hf.sound healthy
  have hb : (g.crew.revived.phase w).isBusy = true := by rw [show g.crew.revived.phase w = _ from hp]; rfl
  obtain ⟨j, hj⟩ := hs.claimed w rfl hb
  have htracks := hs.tracks w j ⟨rfl, hb, hj⟩
  rw [show g.crew.revived.phase w = _ from hp] at htracks
  rw [htracks.1]
  exact hj

/-- Those who were told that they may run a job of the tenant, and one more who is told so now, are
    not more than the limit permits. -/
theorem Fair.admission (hf : Fair rules t l g) (healthy : g.crew.store.poisoned = false) {w : ω}
    {job : Job} {now : Millis} (hp : g.crew.phase w = .admitting job)
    (hok : (ask rules now (.canProcess (Cycle.tenant job)) g.crew.store).1 = .ok true) :
    Bounded t l (Function.update g.slot w (some job)) := by
  intro W hW
  by_cases hw : w ∈ W
  · obtain ⟨job', hj', ht⟩ := hW w hw
    rw [Function.update_self] at hj'
    obtain rfl := Option.some.inj hj'
    -- all of them have jobs of the tenant in processing
    have hcard : W.card ≤ g.crew.store.processing t := by
      refine (hf.sound healthy).card_le_processing fun w' hw' => ?_
      obtain ⟨job', hj', ht'⟩ := hW w' hw'
      by_cases he : w' = w
      · subst he
        have hb : (g.crew.phase w').isBusy = true := by rw [hp]; rfl
        exact ⟨job, ⟨rfl, hb, hf.claim_eq healthy hp⟩, ht⟩
      · rw [Function.update_of_ne he] at hj'
        obtain ⟨hc, hpast⟩ := (hf.fits w').holder healthy job' hj'
        exact ⟨job', ⟨rfl, Phase.isBusy_of_isPast hpast, hc⟩, ht'⟩
    rw [ht] at hok
    have hlimit := (admits_of_canProcess hok).2
    rw [hf.limit] at hlimit
    exact within_of_clamp hcard hlimit
  · refine hf.bounded W fun w' hw' => ?_
    obtain ⟨job', hj', ht⟩ := hW w' hw'
    have he : w' ≠ w := by
      rintro rfl
      exact hw hw'
    rw [Function.update_of_ne he] at hj'
    exact ⟨job', hj', ht⟩

/-- One worker goes on, and the others are where they were. -/
theorem Fair.goOn (hf : Fair rules t l g) {c : Crew ω} {w : ω} {p : Phase} {claim slot : Option Job}
    (hphase : c.phase = g.crew.phase) (hclaim : c.claim = g.crew.claim)
    (hlimit : c.store.limit rules t = l)
    (healthy : c.store.poisoned = false → g.crew.store.poisoned = false)
    (hsound : c.store.poisoned = false → Crew.Sound rules (c.enter w p claim).revived)
    (hfits : Fits (c.store.poisoned = false) p claim slot)
    (hbounded : Bounded t l (Function.update g.slot w slot)) :
    Fair rules t l ⟨c.enter w p claim, Function.update g.slot w slot⟩ := by
  refine ⟨hlimit, hsound, fun w' => ?_, hbounded⟩
  by_cases he : w' = w
  · subst he
    simpa only [Crew.enter, Function.update_self] using hfits
  · simp only [Crew.enter, Function.update_of_ne he, hphase, hclaim]
    exact ⟨fun hc => (hf.fits w').holder (healthy hc), (hf.fits w').atWork⟩

/-! ## Moves -/

theorem isPast_admitted (cycle : Cycle) (job : Job) : (cycle.admitted job).isPast = true := by
  unfold Cycle.admitted
  split <;> rfl

theorem isPast_afterRun (cycle : Cycle) (job : Job) (outcome : Outcome HandlerResult) :
    (cycle.afterRun job outcome).isPast = true := by
  unfold Cycle.afterRun
  split
  · split <;> rfl
  · rfl

theorem isPast_afterCount {a : Except Failure Unit} (ha : a ≠ .error .overflow) (job : Job)
    (result : Option Payload) : (Cycle.afterCount job result a).isPast = true := by
  unfold Cycle.afterCount
  split
  · contradiction
  · rfl

theorem Fair.admitting (hf : Fair rules t l g) {w : ω} {now : Millis}
    (healthy : g.crew.store.poisoned = false) {job : Job} (hp : g.crew.phase w = .admitting job)
    (healthy' : Prop) :
    Fits healthy' ((cycles w).afterAdmission job
        (ask rules now (.canProcess (Cycle.tenant job)) g.crew.store).1)
      (g.crew.claim w) (afterAsk rules now g.crew.store (g.slot w) (.admitting job)) ∧
    Bounded t l (Function.update g.slot w
      (afterAsk rules now g.crew.store (g.slot w) (.admitting job))) := by
  have hclaim := hf.claim_eq healthy hp
  have hnone := hf.slot_eq_none healthy (w := w) (by rw [hp]; rfl)
  rw [hclaim, hnone, afterAsk]
  cases ha : (ask rules now (.canProcess (Cycle.tenant job)) g.crew.store).1 with
  | ok may =>
    cases may with
    | true =>
      refine ⟨⟨fun _ job' hj => ⟨hj, isPast_admitted _ job⟩, fun job' hj => ?_⟩,
        hf.admission healthy hp ha⟩
      exact congrArg some (Cycle.eq_of_atWork?_admitted hj)
    | false => exact ⟨.of_none rfl, hf.bounded.giveUp w⟩
  | error f =>
    cases f with
    | overflow => exact ⟨.of_none rfl, hf.bounded.giveUp w⟩
    | error e => exact absurd ha (canProcess_ne_error healthy rules now _ e)

theorem Fair.asked (hf : Fair rules t l g) (limiting : ∀ w, (cycles w).rateLimiting = true) {w : ω}
    {now : Millis} {r : Request} (healthy : g.crew.store.poisoned = false)
    (due : (cycles w).request? (g.crew.phase w) = some r) :
    Fair rules t l
      ⟨(g.crew.told rules now r).enter w
        ((cycles w).step (Volatile.store rules) now (g.crew.phase w) g.crew.store).1
        ((Event.ask rules now r g.crew.store).claimed?.or (g.crew.claim w)),
      Function.update g.slot w (afterAsk rules now g.crew.store (g.slot w) (g.crew.phase w))⟩ := by
  have hlimit : (ask rules now r g.crew.store).2.limit rules t = l :=
    limit_ask_of_eq hf.limit now fun l' he => absurd he (ne_setLimit_of_due due t l')
  have hover : (ask rules now r g.crew.store).2.poisoned = false →
      (ask rules now r g.crew.store).1 ≠ .error .overflow := by
    intro hc ho
    rw [overflow_of_due due ho] at hc
    cases hc
  suffices h : Fits ((ask rules now r g.crew.store).2.poisoned = false)
      ((cycles w).step (Volatile.store rules) now (g.crew.phase w) g.crew.store).1
      ((Event.ask rules now r g.crew.store).claimed?.or (g.crew.claim w))
      (afterAsk rules now g.crew.store (g.slot w) (g.crew.phase w)) ∧
      Bounded t l (Function.update g.slot w
        (afterAsk rules now g.crew.store (g.slot w) (g.crew.phase w))) from
    hf.goOn rfl rfl hlimit (fun _ => healthy)
      (fun hc => (hf.sound healthy).asked (w := w) rfl due (hover hc)) h.1 h.2
  cases hp : g.crew.phase w with
  | claiming =>
    have hnone := hf.slot_eq_none healthy (w := w) (by rw [hp]; rfl)
    rw [show afterAsk rules now g.crew.store (g.slot w) .claiming = none from hnone]
    exact ⟨.of_none (Cycle.atWork?_afterClaim (limiting w) _), hf.bounded.giveUp w⟩
  | admitting job =>
    rw [hp] at due
    obtain rfl := Option.some.inj due
    exact hf.admitting healthy hp _
  | counting job result =>
    rw [hp] at due
    obtain rfl := Option.some.inj due
    refine ⟨⟨fun hc job' hj => ?_, fun job' hj => ?_⟩, hf.bounded.update fun job hj => hj⟩
    · exact ⟨((hf.fits w).holder healthy job' hj).1, isPast_afterCount (hover hc) job result⟩
    · exact absurd ((Cycle.atWork?_afterCount job result _).symm.trans hj) (by rintro ⟨⟩)
  | reporting id report =>
    refine ⟨.of_none ?_, hf.bounded.giveUp w⟩
    cases report with
    | complete result => exact Cycle.atWork?_afterReport _
    | fail message => exact Cycle.atWork?_afterReport _
  | running | finished | broken => rw [hp] at due; cases due

omit [DecidableEq ω] in
theorem afterAsk_of_idle {cycle : Cycle} {p : Phase} (h : cycle.request? p = none) (now : Millis)
    (s : Volatile) (slot : Option Job) : afterAsk rules now s slot p = slot := by
  cases p with
  | admitting job => cases h
  | reporting id report => cases report <;> cases h
  | claiming | running | counting | finished | broken => rfl

theorem Fair.ran (hf : Fair rules t l g) {w : ω} {job : Job} (hp : g.crew.phase w = .running job)
    (cycle : Cycle) (outcome : Outcome HandlerResult) :
    Fair rules t l ⟨{ g.crew.enter w (cycle.afterRun job outcome) (g.crew.claim w) with
      runs := (job, outcome) :: g.crew.runs }, g.slot⟩ := by
  have hjob : g.slot w = some job := (hf.fits w).atWork job (by rw [hp]; rfl)
  have hfits : Fits (g.crew.store.poisoned = false) (cycle.afterRun job outcome) (g.crew.claim w)
      (g.slot w) := by
    refine ⟨fun hc job' hj => ⟨((hf.fits w).holder hc job' hj).1, isPast_afterRun ..⟩,
      fun job' hj => ?_⟩
    obtain rfl := Cycle.eq_of_atWork?_afterRun hj
    exact hjob
  have := hf.goOn (c := { g.crew with runs := (job, outcome) :: g.crew.runs }) rfl rfl hf.limit id
    (fun hc => (hf.sound hc).ranHandler rfl hp cycle outcome) hfits
    (hf.bounded.update fun _ hj => hj)
  rwa [Function.update_eq_self] at this

theorem Fair.begun (hf : Fair rules t l g) {w : ω} {claimed : Bool}
    (hp : g.crew.phase w = .finished claimed) :
    Fair rules t l ⟨g.crew.enter w .claiming (g.crew.claim w), g.slot⟩ := by
  have hfits : Fits (g.crew.store.poisoned = false) .claiming (g.crew.claim w) (g.slot w) := by
    refine ⟨fun hc job hj => ?_, fun job hj => ?_⟩
    · rw [hf.slot_eq_none hc (by rw [hp]; rfl)] at hj
      cases hj
    · cases hj
  have := hf.goOn (w := w) rfl rfl hf.limit id (fun hc => (hf.sound hc).letGo w rfl _) hfits
    (hf.bounded.update fun _ hj => hj)
  rwa [Function.update_eq_self] at this

/-- **Undisturbed moves keep the limit.** -/
theorem Fair.move (hf : Fair rules t l g) (limiting : ∀ w, (cycles w).rateLimiting = true)
    {m : Move ω} (ok : Undisturbed cycles t l g.crew m) : Fair rules t l (g.move rules cycles m) := by
  cases m with
  | ask w now =>
    cases ha : g.crew.alive w with
    | false =>
      have he : g.move rules cycles (.ask w now) = g := by simp [Slots.move, Crew.move, ha]
      rw [he]
      exact hf
    | true =>
      cases hr : (cycles w).request? (g.crew.phase w) with
      | none =>
        have he : g.move rules cycles (.ask w now) = g := by
          simp [Slots.move, Crew.move, ha, hr, afterAsk_of_idle hr]
        rw [he]
        exact hf
      | some r =>
        simp only [Slots.move, Crew.move, ha, hr, if_true]
        exact hf.asked limiting (ok (by simp [hr])) hr
  | run w outcome =>
    show Fair rules t l ⟨g.crew.move rules cycles (.run w outcome), g.slot⟩
    generalize hc : g.crew.move rules cycles (.run w outcome) = c'
    cases hc ▸ Crew.moved rules cycles g.crew (.run w outcome) with
    | nothing => exact hf
    | ran ha hp => exact hf.ran hp _ _
  | again w =>
    show Fair rules t l ⟨g.crew.move rules cycles (.again w), g.slot⟩
    generalize hc : g.crew.move rules cycles (.again w) = c'
    cases hc ▸ Crew.moved rules cycles g.crew (.again w) with
    | nothing => exact hf
    | begun hp => exact hf.begun hp
  | crash w => exact ⟨hf.limit, hf.sound, hf.fits, hf.bounded⟩
  | outside now r =>
    obtain ⟨fresh, hspares, hlimit⟩ := ok
    refine ⟨limit_ask_of_eq hf.limit now hlimit, fun hc => ?_, fun w => ⟨fun hc => ?_, (hf.fits w).atWork⟩,
      hf.bounded⟩
    · exact (hf.sound (healthy_of_ask hc)).told_of_healthy fresh hc fun w job _ => hspares job
    · exact (hf.fits w).holder (healthy_of_ask hc)

/-- **Slots are never overshot.**  Whatever undisturbed moves lead to, no more workers than the limit
    of a tenant permits were told that they may run one of its jobs and have not reported on it; and
    every worker whose handler has a job was told so. -/
theorem slots_never_overshot {h : List Event} {s : Volatile} (past : History rules h s)
    (limiting : ∀ w, (cycles w).rateLimiting = true)
    (run : Run rules cycles (Undisturbed cycles t (s.limit rules t)) (.start h s) g) :
    (∀ W : Finset ω, (∀ w ∈ W, g.Admitted t w) → Within W.card (s.limit rules t).concurrent) ∧
    (∀ w job, g.crew.phase w = .running job → g.Admitted (Cycle.tenant job) w) := by
  have hf : Fair rules t (s.limit rules t) g := by
    induction run with
    | start => exact fair_start past rfl
    | next past m ok ih => exact ih.move limiting ok
  refine ⟨hf.bounded, fun w job hp => ⟨job, (hf.fits w).atWork job ?_, rfl⟩⟩
  rw [hp]
  rfl

end

/-- Rules under which a tenant may run one job at a time. -/
def oneAtATime : Rules := ⟨.default, ⟨1000, 1⟩⟩

/-- Two workers claim jobs of a tenant; the first is told that it may run its job, and then the other
    one asks. -/
def oneSlotMoves : List (Move Bool) :=
  [.outside 0 (.enqueue "a" ⟨"q", "t", "o", .empty, {}⟩),
    .outside 0 (.enqueue "b" ⟨"q", "t", "o", .empty, {}⟩), .ask false 1, .ask false 2, .ask true 3,
    .ask true 4]

/-- The two workers after some of these moves. -/
def oneSlot (n : ℕ) : Slots Bool :=
  (oneSlotMoves.take n).foldl (move oneAtATime Crew.twoWorkers) (.start [] .empty)

theorem run_oneSlot :
    Run oneAtATime Crew.twoWorkers (Undisturbed Crew.twoWorkers ⟨"o", "q"⟩ ⟨1000, 1⟩)
      (.start [] .empty) (oneSlot 6) := by
  have hnew : ∀ n id sub, id ∉ names (oneSlot n).crew.history →
      Undisturbed Crew.twoWorkers ⟨"o", "q"⟩ ⟨1000, 1⟩ (oneSlot n).crew
        (.outside 0 (.enqueue id sub)) := by
    intro n id sub hn
    refine ⟨fun id' sub' he => ?_, fun _ => trivial, fun l' he => ?_⟩
    · cases he
      exact hn
    · cases he
  exact .next (.next (.next (.next (.next (.next .start _ (hnew 0 _ _ (by decide))) _
    (hnew 1 _ _ (by decide))) (.ask false 1) fun _ => by decide) (.ask false 2) fun _ => by decide)
    (.ask true 3) fun _ => by decide) (.ask true 4) fun _ => by decide

theorem slots_never_overshot_oneSlot :
    (oneSlot 6).Admitted ⟨"o", "q"⟩ false ∧ ¬ (oneSlot 6).Admitted ⟨"o", "q"⟩ true ∧
    ∀ W : Finset Bool, (∀ w ∈ W, (oneSlot 6).Admitted ⟨"o", "q"⟩ w) → W.card ≤ 1 := by
  have hbound := (slots_never_overshot (t := ⟨"o", "q"⟩) .start (fun _ => rfl) run_oneSlot).1
  refine ⟨?_, ?_, fun W hW => ?_⟩
  · have hslot : ((oneSlot 6).slot false).map Cycle.tenant = some ⟨"o", "q"⟩ := by decide
    exact Option.map_eq_some_iff.1 hslot
  · rintro ⟨job, hj, -⟩
    rw [show (oneSlot 6).slot true = none by decide] at hj
    cases hj
  · have hone : (Volatile.empty.limit oneAtATime ⟨"o", "q"⟩).concurrent = 1 := rfl
    have hle := hbound W hW
    rw [hone] at hle
    have hle := hle (.inr (by decide))
    rw [show (1 : Int64).toInt = 1 by decide] at hle
    omega

end Slots

end JobQueue
