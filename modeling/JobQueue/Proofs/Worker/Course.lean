/-
  What a worker does in a cycle.

  The acts of a cycle are the requests of the worker, each with its answer,
  and the run of a handler.  A `Course` is the acts up to a phase, whatever is
  answered and however the handler ends.  The phase tells what they were
  (`Reached`): a cycle that is over has claimed nothing, or is an errand for
  one job that ends with one report (`Cycle.errand`).

  `processNext` follows a course, asks the store nothing else
  (`moves_recorded`), and comes to the end (`left_moves`).
-/
import JobQueue.Proofs.Store.Step
import JobQueue.Simulation.Turn

namespace JobQueue

/-- What a worker does in a phase. -/
inductive Act where
  | asked (r : Request) (a : Except Failure r.Answer)
  | ran (job : Job) (outcome : Outcome HandlerResult)

namespace Act

def isAsked : Act → Bool
  | asked .. => true
  | ran .. => false

/-- The job that an act claims. -/
def claimed? : Act → Option Job
  | asked r a => r.claimed? a
  | ran .. => none

/-- The act is no request that overflowed. -/
def IsSteady : Act → Prop
  | asked _ a => a ≠ .error .overflow
  | ran .. => True

/-- A report and whether it was accepted. -/
def reported (id : String) (report : Report) (a : Except Failure Unit) : Act :=
  match report with
  | .complete result => asked (.complete id result) a
  | .fail message => asked (.fail id message) a

end Act

/-- The moves that a cycle has left at most. -/
def Phase.left : Phase → Nat
  | .claiming => 5
  | .admitting _ => 4
  | .running _ => 3
  | .counting .. => 2
  | .reporting .. => 1
  | .finished _ | .broken => 0

theorem Phase.left_le (p : Phase) : p.left ≤ 5 := by
  cases p <;> simp [left]

namespace Cycle

variable {c : Cycle} {p : Phase} {r : Request} {job : Job} {acts : List Act}

/-! ## One step -/

/-- The phase after the answer to the request of a phase. -/
def answered (c : Cycle) : Phase → (r : Request) → Except Failure r.Answer → Phase
  | .claiming, .dequeue .., a => c.afterClaim a
  | .admitting job, .canProcess _, a => c.afterAdmission job a
  | .counting job result, .record _, a => afterCount job result a
  | .reporting .., .complete .., a => afterReport a
  | .reporting .., .fail .., a => afterReport a
  | p, _, _ => p

section
variable {σ : Type} (store : Store σ) (now : Millis) (s : σ)

theorem step_of_due (due : c.request? p = some r) :
    c.step store now p s = (c.answered p r (store.ask now r s).1, (store.ask now r s).2) := by
  cases p with
  | reporting id report => cases report <;> cases due <;> rfl
  | running | finished | broken => cases due
  | _ => cases due; rfl

theorem step_of_idle (idle : c.request? p = none) : c.step store now p s = (p, s) := by
  cases p with
  | reporting id report => cases report <;> cases idle
  | running | finished | broken => rfl
  | _ => cases idle

end

/-! ## The errand for a job -/

/-- Does the answer let the job run?  Without limits nobody asks, and a store that cannot tell
    lets it run. -/
def admits (c : Cycle) : Except Failure Bool → Bool
  | .ok allowed => !c.rateLimiting || allowed
  | .error _ => true

/-- The report on a claimed job. -/
def verdict (c : Cycle) (job : Job) (admission : Except Failure Bool)
    (outcome : Outcome HandlerResult) : Report :=
  if c.admits admission then
    if c.serves job.type then outcome.report else .fail (noHandlerText job)
  else .fail (deniedText job)

def claimed (c : Cycle) (job : Job) : Act := .asked (.dequeue c.worker c.queues) (.ok (some job))

def asking (c : Cycle) (job : Job) (admission : Except Failure Bool) : List Act :=
  if c.rateLimiting then [.asked (.canProcess (tenant job)) admission] else []

def working (c : Cycle) (job : Job) (admission : Except Failure Bool)
    (outcome : Outcome HandlerResult) : List Act :=
  if c.admits admission && c.serves job.type then [.ran job outcome] else []

def counting (c : Cycle) (job : Job) (report : Report) (counted : Except Failure Unit) :
    List Act :=
  match report with
  | .complete _ => if c.rateLimiting then [.asked (.record (tenant job)) counted] else []
  | .fail _ => []

/-- The acts of a cycle that claims a job, by the answers of the store and the end of the handler,
    up to the report. -/
def beforeReport (c : Cycle) (job : Job) (admission : Except Failure Bool)
    (outcome : Outcome HandlerResult) (counted : Except Failure Unit) : List Act :=
  c.claimed job :: c.asking job admission ++ c.working job admission outcome ++
    c.counting job (c.verdict job admission outcome) counted

/-- With the report. -/
def errand (c : Cycle) (job : Job) (admission : Except Failure Bool)
    (outcome : Outcome HandlerResult) (counted reported : Except Failure Unit) : List Act :=
  c.beforeReport job admission outcome counted ++
    [.reported job.id (c.verdict job admission outcome) reported]

/-- An errand is for one job. -/
theorem claims_errand (c : Cycle) (job : Job) (admission : Except Failure Bool)
    (outcome : Outcome HandlerResult) (counted reported : Except Failure Unit) :
    (c.errand job admission outcome counted reported).filterMap Act.claimed? = [job] := by
  have hasking : (c.asking job admission).filterMap Act.claimed? = [] := by
    unfold asking; split <;> rfl
  have hworking : (c.working job admission outcome).filterMap Act.claimed? = [] := by
    unfold working; split <;> rfl
  have hcounting : ∀ report, (c.counting job report counted).filterMap Act.claimed? = [] := by
    intro report
    unfold counting
    split
    · split <;> rfl
    · rfl
  have hreported : ∀ report, (Act.reported job.id report reported).claimed? = none := by
    intro report
    cases report <;> rfl
  have hclaimed : (c.claimed job).claimed? = some job := rfl
  simp [errand, beforeReport, hasking, hworking, hcounting, hreported, hclaimed]

/-- Only an admitted job with a handler needs to know how the handler ends. -/
theorem errand_eq_of_ran {admission : Except Failure Bool} {outcome outcome' : Outcome HandlerResult}
    {counted reported : Except Failure Unit}
    (h : .ran job outcome ∈ c.errand job admission outcome counted reported → outcome = outcome') :
    c.errand job admission outcome counted reported =
      c.errand job admission outcome' counted reported := by
  by_cases hr : c.admits admission ∧ c.serves job.type
  · rw [h (by simp [errand, beforeReport, working, hr])]
  · have hw : ∀ o, c.working job admission o = [] := fun _ => by simpa [working] using hr
    have hv : c.verdict job admission outcome = c.verdict job admission outcome' := by
      unfold verdict
      split
      · rw [if_neg (fun hs => hr ⟨‹_›, hs⟩), if_neg (fun hs => hr ⟨‹_›, hs⟩)]
      · rfl
    simp only [errand, beforeReport, hw, hv]

theorem verdict_eq_complete_iff {admission : Except Failure Bool}
    {outcome : Outcome HandlerResult} {result : Option Payload} :
    c.verdict job admission outcome = .complete result ↔
      c.admits admission = true ∧ c.serves job.type = true ∧ outcome = .success (.ok result) := by
  have hr : outcome.report = .complete result ↔ outcome = .success (.ok result) := by
    cases outcome with
    | success a => cases a <;> simp [Outcome.report]
    | panicked | cancelled => simp [Outcome.report]
  unfold verdict
  split
  · split
    · simp_all
    · simp_all
  · simp_all

/-! ## Courses -/

/-- The acts of a worker up to a phase, whatever it is answered. -/
inductive Course (c : Cycle) : List Act → Phase → Prop where
  | begin : Course c [] .claiming
  | asked {acts : List Act} {p : Phase} {r : Request} (past : Course c acts p)
      (due : c.request? p = some r) (a : Except Failure r.Answer) :
      Course c (acts ++ [.asked r a]) (c.answered p r a)
  | ran {acts : List Act} {job : Job} (past : Course c acts (.running job))
      (outcome : Outcome HandlerResult) :
      Course c (acts ++ [.ran job outcome]) (c.afterRun job outcome)

/-- What a phase tells about the acts before it. -/
def Reached (c : Cycle) (acts : List Act) : Phase → Prop
  | .claiming => acts = []
  | .admitting job => c.rateLimiting = true ∧ acts = [c.claimed job]
  | .running job => ∃ admission, c.admits admission = true ∧ c.serves job.type = true ∧
      acts = c.claimed job :: c.asking job admission
  | .counting job result => ∃ admission outcome, c.rateLimiting = true ∧
      c.verdict job admission outcome = .complete result ∧
      acts = c.claimed job :: c.asking job admission ++ c.working job admission outcome
  | .reporting id report => ∃ job admission outcome counted, id = job.id ∧
      report = c.verdict job admission outcome ∧
      acts = c.beforeReport job admission outcome counted
  | .finished true => ∃ job admission outcome counted reported,
      acts = c.errand job admission outcome counted reported
  | .finished false => ∃ a, (∀ job, a ≠ .ok (some job)) ∧
      acts = [.asked (.dequeue c.worker c.queues) a]
  | .broken => ∃ act ∈ acts, ¬act.IsSteady

theorem reached_admitted (admission : Except Failure Bool) (ok : c.admits admission = true)
    (h : acts = c.claimed job :: c.asking job admission) : c.Reached acts (c.admitted job) := by
  unfold admitted
  split
  · exact ⟨admission, ok, ‹_›, h⟩
  · refine ⟨job, admission, .cancelled, .ok (), rfl, ?_, ?_⟩
    · rw [verdict, if_pos ok, if_neg ‹_›]
    · simp [beforeReport, working, counting, verdict, *]

theorem reached_afterClaim (a : Except Failure (Option Job)) :
    c.Reached [.asked (.dequeue c.worker c.queues) a] (c.afterClaim a) := by
  unfold afterClaim
  split
  · split
    · exact ⟨‹_›, rfl⟩
    · refine reached_admitted (.ok true) ?_ ?_
      · simp [admits]
      · simp [asking, claimed, *]
  · exact ⟨.ok none, fun job h => (by cases h), rfl⟩
  · exact ⟨_, fun job h => (by cases h), rfl⟩
  · exact ⟨_, List.mem_singleton_self _, fun h => h rfl⟩

theorem reached_afterAdmission (limiting : c.rateLimiting = true) (a : Except Failure Bool) :
    c.Reached [c.claimed job, .asked (.canProcess (tenant job)) a] (c.afterAdmission job a) := by
  have hasking : [c.claimed job, .asked (.canProcess (tenant job)) a] =
      c.claimed job :: c.asking job a := by rw [asking, if_pos limiting]
  unfold afterAdmission
  split
  · exact reached_admitted _ (by simp [admits]) hasking
  · have hd : c.admits (.ok false) = false := by simp [admits, limiting]
    refine ⟨job, .ok false, .cancelled, .ok (), rfl, ?_, ?_⟩
    · rw [verdict, if_neg (by simp [hd])]
    · simp [beforeReport, working, counting, verdict, hd, hasking]
  · exact reached_admitted _ rfl hasking
  · exact ⟨_, List.mem_cons_of_mem _ (List.mem_singleton_self _), fun h => h rfl⟩

theorem reached_afterRun (h : c.Reached acts (.running job)) (outcome : Outcome HandlerResult) :
    c.Reached (acts ++ [.ran job outcome]) (c.afterRun job outcome) := by
  obtain ⟨admission, ok, serves, rfl⟩ := h
  have hv : c.verdict job admission outcome = outcome.report := by simp [verdict, ok, serves]
  have hw : c.working job admission outcome = [.ran job outcome] := by simp [working, ok, serves]
  unfold afterRun
  split
  · rename_i result hr
    split
    · exact ⟨admission, outcome, ‹_›, hv.trans hr, by rw [hw]⟩
    · refine ⟨job, admission, outcome, .ok (), rfl, (hv.trans hr).symm, ?_⟩
      simp [beforeReport, counting, *]
  · rename_i message hr
    refine ⟨job, admission, outcome, .ok (), rfl, (hv.trans hr).symm, ?_⟩
    simp [beforeReport, counting, *]

theorem reached_afterCount {result : Option Payload} (h : c.Reached acts (.counting job result))
    (a : Except Failure Unit) :
    c.Reached (acts ++ [.asked (.record (tenant job)) a]) (afterCount job result a) := by
  unfold afterCount
  split
  · exact ⟨_, List.mem_append_right _ (List.mem_singleton_self _), fun h => h rfl⟩
  · obtain ⟨admission, outcome, limiting, hv, rfl⟩ := h
    refine ⟨job, admission, outcome, a, rfl, hv.symm, ?_⟩
    rw [beforeReport, hv, counting, if_pos limiting]

theorem reached_afterReport {id : String} {report : Report}
    (h : c.Reached acts (.reporting id report)) (a : Except Failure Unit) :
    c.Reached (acts ++ [.reported id report a]) (afterReport a) := by
  obtain ⟨job, admission, outcome, counted, rfl, rfl, rfl⟩ := h
  unfold afterReport
  split
  · refine ⟨_, List.mem_append_right _ (List.mem_singleton_self _), ?_⟩
    unfold Act.reported
    split <;> exact fun h => h rfl
  · exact ⟨job, admission, outcome, counted, a, rfl⟩

theorem Course.reached (h : c.Course acts p) : c.Reached acts p := by
  induction h with
  | begin => rfl
  | ran past outcome ih => exact reached_afterRun ih outcome
  | @asked acts p r past due a ih =>
    cases p with
    | claiming =>
      cases due
      obtain rfl : acts = [] := ih
      exact reached_afterClaim a
    | admitting job =>
      cases due
      obtain ⟨limiting, rfl⟩ := ih
      exact reached_afterAdmission limiting a
    | counting job result => cases due; exact reached_afterCount ih a
    | reporting id report =>
      cases report with
      | complete result => cases due; exact reached_afterReport ih a
      | fail message => cases due; exact reached_afterReport ih a
    | running | finished | broken => cases due

/-! ## The end of a cycle -/

theorem left_admitted (c : Cycle) (job : Job) : (c.admitted job).left < 4 := by
  unfold admitted; split <;> simp [Phase.left]

theorem left_afterRun (c : Cycle) (job : Job) (outcome : Outcome HandlerResult) :
    (c.afterRun job outcome).left < 3 := by
  unfold afterRun
  split
  · split <;> simp [Phase.left]
  · simp [Phase.left]

theorem left_answered (due : c.request? p = some r) (a : Except Failure r.Answer) :
    (c.answered p r a).left < p.left := by
  have hreport : ∀ a, (afterReport a).left < 1 := by
    intro a; unfold afterReport; split <;> simp [Phase.left]
  cases p with
  | claiming =>
    cases due
    show (c.afterClaim a).left < 5
    unfold afterClaim
    split
    · split
      · simp [Phase.left]
      · exact Nat.lt_succ_of_lt (left_admitted ..)
    all_goals simp [Phase.left]
  | admitting job =>
    cases due
    show (c.afterAdmission job a).left < 4
    unfold afterAdmission
    split
    · exact left_admitted ..
    · simp [Phase.left]
    · exact left_admitted ..
    · simp [Phase.left]
  | counting job result =>
    cases due
    show (afterCount job result a).left < 2
    unfold afterCount; split <;> simp [Phase.left]
  | reporting id report => cases report <;> cases due <;> exact hreport a
  | running | finished | broken => cases due

/-! ## The course of a run -/

section
variable {σ : Type} (store : Store σ) (handler : Job → Outcome HandlerResult) (now : Millis)

/-- What a move does. -/
def act? (c : Cycle) (p : Phase) (s : σ) : Option Act :=
  match p with
  | .running job => some (.ran job (handler job))
  | p => (c.request? p).map fun r => .asked r (store.ask now r s).1

/-- What a number of moves do. -/
def actsOf (c : Cycle) : Nat → Phase → σ → List Act
  | 0, _, _ => []
  | n + 1, p, s =>
    (c.act? store handler now p s).toList ++
      c.actsOf n (c.move store handler now p s).1 (c.move store handler now p s).2

theorem moves_succ (c : Cycle) (n : Nat) (p : Phase) (s : σ) :
    c.moves store handler now (n + 1) p s =
      c.moves store handler now n (c.move store handler now p s).1
        (c.move store handler now p s).2 :=
  rfl

theorem move_cases (c : Cycle) (p : Phase) (s : σ) :
    (∃ r, c.request? p = some r ∧
      c.act? store handler now p s = some (.asked r (store.ask now r s).1) ∧
      c.move store handler now p s =
        (c.answered p r (store.ask now r s).1, (store.ask now r s).2)) ∨
    (∃ job, p = .running job ∧ c.act? store handler now p s = some (.ran job (handler job)) ∧
      c.move store handler now p s = (c.afterRun job (handler job), s)) ∨
    (p.left = 0 ∧ c.act? store handler now p s = none ∧
      c.move store handler now p s = (p, s)) := by
  cases p with
  | running job => exact .inr (.inl ⟨job, rfl, rfl, rfl⟩)
  | finished | broken => exact .inr (.inr ⟨rfl, rfl, rfl⟩)
  | claiming | admitting | counting => exact .inl ⟨_, rfl, rfl, rfl⟩
  | reporting id report => cases report <;> exact .inl ⟨_, rfl, rfl, rfl⟩

variable {store handler now}

/-- The moves after an answer. -/
theorem moves_of_due (due : c.request? p = some r) {s s' : σ} {a : Except Failure r.Answer}
    (h : store.ask now r s = (a, s')) (n : Nat) :
    c.moves store handler now (n + 1) p s = c.moves store handler now n (c.answered p r a) s' := by
  have hm : c.move store handler now p s = c.step store now p s := by
    cases p with
    | running job => cases due
    | _ => rfl
  rw [moves_succ, hm, step_of_due _ _ _ due, h]

theorem moves_of_over (ended : p.left = 0) (n : Nat) (s : σ) :
    c.moves store handler now n p s = (p, s) := by
  induction n with
  | zero => rfl
  | succ n ih =>
    cases p with
    | finished | broken => exact ih
    | _ => cases ended

/-- A cycle that makes as many moves as it has left is over. -/
theorem left_moves (n : Nat) (p : Phase) (s : σ) (h : p.left ≤ n) :
    (c.moves store handler now n p s).1.left = 0 := by
  induction n generalizing p s with
  | zero => exact Nat.le_zero.1 h
  | succ n ih =>
    rw [moves_succ]
    refine ih _ _ ?_
    rcases c.move_cases store handler now p s with
      ⟨r, due, -, hm⟩ | ⟨job, rfl, -, hm⟩ | ⟨ended, -, hm⟩ <;> rw [hm]
    · exact Nat.le_of_lt_succ (Nat.lt_of_lt_of_le (left_answered due _) h)
    · exact Nat.le_of_lt_succ (Nat.lt_of_lt_of_le (c.left_afterRun job _) h)
    · exact ended ▸ n.zero_le

/-- Moves go on with a course. -/
theorem Course.moves (h : c.Course acts p) (n : Nat) (s : σ) :
    c.Course (acts ++ c.actsOf store handler now n p s)
      (c.moves store handler now n p s).1 := by
  induction n generalizing acts p s with
  | zero => simpa [actsOf, Cycle.moves] using h
  | succ n ih =>
    rw [moves_succ, actsOf, ← List.append_assoc]
    refine ih ?_ _
    rcases c.move_cases store handler now p s with
      ⟨r, due, ha, hm⟩ | ⟨job, rfl, ha, hm⟩ | ⟨-, ha, hm⟩ <;> rw [ha, hm]
    · exact h.asked due _
    · exact h.ran _
    · simpa using h

/-- Only the handler of a worker runs. -/
theorem eq_handler_of_ran {outcome : Outcome HandlerResult} {n : Nat} {s : σ}
    (h : .ran job outcome ∈ c.actsOf store handler now n p s) : outcome = handler job := by
  induction n generalizing p s with
  | zero => cases h
  | succ n ih =>
    rcases List.mem_append.1 h with h | h
    · rcases c.move_cases store handler now p s with
        ⟨r, -, ha, -⟩ | ⟨job', -, ha, -⟩ | ⟨-, ha, -⟩ <;> rw [ha] at h
      · cases List.mem_singleton.1 h
      · cases List.mem_singleton.1 h; rfl
      · cases h
    · exact ih h

end

end Cycle

/-! ## What the store was asked -/

section
variable {σ : Type}

/-- A store that writes down what it is asked and what it answers. -/
def Store.recorded (store : Store σ) : Store (σ × List Act) where
  ask now r s :=
    let (a, s') := store.ask now r s.1
    (a, s', s.2 ++ [.asked r a])

/-- The record has the requests among the acts, and nothing else. -/
theorem Cycle.moves_recorded (c : Cycle) (store : Store σ) (handler : Job → Outcome HandlerResult)
    (now : Millis) (n : Nat) (p : Phase) (s : σ) (log : List Act) :
    c.moves store.recorded handler now n p (s, log) =
      ((c.moves store handler now n p s).1, (c.moves store handler now n p s).2,
        log ++ (c.actsOf store handler now n p s).filter Act.isAsked) := by
  induction n generalizing p s log with
  | zero => simp [moves, actsOf]
  | succ n ih =>
    have hm : c.move store.recorded handler now p (s, log) =
        ((c.move store handler now p s).1, (c.move store handler now p s).2,
          log ++ (c.act? store handler now p s).toList.filter Act.isAsked) := by
      cases p with
      | running | finished | broken => simp [move, step, act?, request?, Act.isAsked]
      | claiming | admitting | counting => rfl
      | reporting id report => cases report <;> rfl
    rw [moves_succ, hm, ih, moves_succ, actsOf, List.filter_append, List.append_assoc]

end

/-! ## Handlers that take time -/

namespace Simulation.World

variable {σ : Type} {setup : Setup σ} {w : World σ} {owner : Party} {worker : String}
  {queues : QueueSet} {p : Phase} {job : Job}

/-- The step that a worker makes in its cycle. -/
theorem fst_cycleStep : (w.cycleStep setup owner worker queues p).1 =
    ((w.cycle setup worker queues).step (setup.store.refusing w.refused) (w.now setup) p
      w.store).1 := by
  unfold cycleStep
  dsimp only
  split <;> rfl

/-- A worker that comes to run its handler spawns one task, which is told which attempt this is. -/
theorem tasks_cycleStep (idle : ∀ job, p ≠ .running job)
    (next : (w.cycleStep setup owner worker queues p).1 = .running job) :
    ∃ deadline script, (w.cycleStep setup owner worker queues p).2.tasks =
      w.tasks.put w.nextTask (.handler ⟨worker, job.attempts, deadline⟩ job script owner none) := by
  rw [fst_cycleStep] at next
  unfold cycleStep
  dsimp only
  rw [next]
  split
  · exact absurd rfl (idle _)
  · rename_i h
    cases h
    exact ⟨_, _, rfl⟩
  · rename_i h
    exact absurd rfl (h job)

/-- It has claimed the job then and, under limits, asked for admission, and nothing else. -/
theorem acts_of_spawn {acts : List Act} (course : (w.cycle setup worker queues).Course acts p)
    (idle : ∀ job, p ≠ .running job)
    (next : (w.cycleStep setup owner worker queues p).1 = .running job) :
    ∃ act admission, (w.cycle setup worker queues).admits admission = true ∧
      (w.handlers.find? job.type).isSome = true ∧
      acts ++ [act] = (w.cycle setup worker queues).claimed job ::
        (w.cycle setup worker queues).asking job admission := by
  rw [fst_cycleStep] at next
  cases due : (w.cycle setup worker queues).request? p with
  | none =>
    rw [Cycle.step_of_idle _ _ _ due] at next
    exact absurd next (idle job)
  | some r =>
    rw [Cycle.step_of_due _ _ _ due] at next
    have hreached := (course.asked due ((setup.store.refusing w.refused).ask (w.now setup) r
      w.store).1).reached
    rw [show (w.cycle setup worker queues).answered p r _ = .running job from next] at hreached
    obtain ⟨admission, ok, serves, hacts⟩ := hreached
    exact ⟨_, admission, ok, serves, hacts⟩

end Simulation.World

/-! ## `processNext` -/

namespace Registry

variable (handlers : Registry (Job → Outcome HandlerResult))

/-- The cycle of a worker with these handlers. -/
def cycle (limiting : Bool) (worker : String) (queues : QueueSet) : Cycle :=
  ⟨worker, queues, limiting, fun type => (handlers.find? type).isSome⟩

/-- How the handler of a job ends. -/
def outcome (job : Job) : Outcome HandlerResult :=
  ((handlers.find? job.type).map (· job)).getD .cancelled

end Registry

section
variable {σ : Type} (limiting : Bool) (handlers : Registry (Job → Outcome HandlerResult))
  (store : Store σ) (now : Millis) (worker : String) (queues : QueueSet) (s : σ)

/-- What `processNext` does. -/
def nextActs : List Act :=
  (handlers.cycle limiting worker queues).actsOf store handlers.outcome now 5 .claiming s

theorem processNext_eq :
    processNext limiting handlers store now worker queues s =
      match (handlers.cycle limiting worker queues).run store handlers.outcome now s with
      | (.finished claimed, s) => (some claimed, s)
      | (_, s) => (none, s) :=
  rfl

variable {limiting handlers store now worker queues s}

/-- A cycle that claims a job is an errand for it. -/
theorem nextActs_of_claimed
    (h : ((handlers.cycle limiting worker queues).run store handlers.outcome now s).1 =
      .finished true) :
    ∃ job admission counted reported,
      (store.ask now (.dequeue worker queues) s).1 = .ok (some job) ∧
      nextActs limiting handlers store now worker queues s =
        (handlers.cycle limiting worker queues).errand job admission (handlers.outcome job) counted
          reported := by
  have hcourse : (handlers.cycle limiting worker queues).Course
      (nextActs limiting handlers store now worker queues s) (.finished true) :=
    h ▸ Cycle.Course.begin.moves 5 s
  obtain ⟨job, admission, outcome, counted, reported, hacts⟩ := hcourse.reached
  refine ⟨job, admission, counted, reported, ?_, ?_⟩
  · have hfirst : nextActs limiting handlers store now worker queues s =
        .asked (.dequeue worker queues) (store.ask now (.dequeue worker queues) s).1 :: _ := rfl
    obtain ⟨h, -⟩ := List.cons.inj (hacts.symm.trans hfirst)
    exact (eq_of_heq (Act.asked.inj h).2).symm
  · rw [hacts]
    exact Cycle.errand_eq_of_ran fun h => Cycle.eq_handler_of_ran (hacts ▸ h)

/-- A cycle that claims none asks nothing else. -/
theorem nextActs_of_unclaimed
    (h : ((handlers.cycle limiting worker queues).run store handlers.outcome now s).1 =
      .finished false) :
    (∀ job, (store.ask now (.dequeue worker queues) s).1 ≠ .ok (some job)) ∧
      nextActs limiting handlers store now worker queues s =
        [.asked (.dequeue worker queues) (store.ask now (.dequeue worker queues) s).1] := by
  have hcourse : (handlers.cycle limiting worker queues).Course
      (nextActs limiting handlers store now worker queues s) (.finished false) :=
    h ▸ Cycle.Course.begin.moves 5 s
  obtain ⟨a, hn, hacts⟩ := hcourse.reached
  have hfirst : nextActs limiting handlers store now worker queues s =
      .asked (.dequeue worker queues) (store.ask now (.dequeue worker queues) s).1 :: _ := rfl
  obtain ⟨h, -⟩ := List.cons.inj (hacts.symm.trans hfirst)
  obtain rfl := eq_of_heq (Act.asked.inj h).2
  exact ⟨hn, hacts⟩

/-- A cycle in which nothing overflows comes to its end. -/
theorem finished_of_steady
    (steady : ∀ act ∈ nextActs limiting handlers store now worker queues s, act.IsSteady) :
    ∃ claimed, ((handlers.cycle limiting worker queues).run store handlers.outcome now s).1 =
      .finished claimed := by
  have hcourse : (handlers.cycle limiting worker queues).Course
      (nextActs limiting handlers store now worker queues s) _ :=
    Cycle.Course.begin.moves 5 s
  have hreached := hcourse.reached
  have hleft : ((handlers.cycle limiting worker queues).moves store handlers.outcome now 5 .claiming
      s).1.left = 0 :=
    Cycle.left_moves 5 .claiming s (Nat.le_refl 5)
  rw [Cycle.run]
  generalize (Cycle.moves _ store handlers.outcome now 5 .claiming s).1 = p at hleft hreached
  cases p with
  | finished claimed => exact ⟨claimed, rfl⟩
  | broken =>
    obtain ⟨act, hact, hn⟩ := hreached
    exact absurd (steady act hact) hn
  | _ => cases hleft

/-- Whoever makes a cycle is told whether a job was claimed. -/
theorem processNext_of_finished {claimed : Bool}
    (h : ((handlers.cycle limiting worker queues).run store handlers.outcome now s).1 =
      .finished claimed) :
    (processNext limiting handlers store now worker queues s).1 = some claimed := by
  rw [processNext_eq]
  generalize Cycle.run _ store handlers.outcome now s = ended at h ⊢
  obtain ⟨p, s'⟩ := ended
  obtain rfl : p = .finished claimed := h
  rfl

/-- What the store was asked in a cycle are the requests among its acts. -/
theorem processNext_recorded :
    processNext limiting handlers store.recorded now worker queues (s, []) =
      ((processNext limiting handlers store now worker queues s).1,
        (processNext limiting handlers store now worker queues s).2,
        (nextActs limiting handlers store now worker queues s).filter Act.isAsked) := by
  rw [processNext_eq, Cycle.run, Cycle.moves_recorded, processNext_eq, Cycle.run]
  generalize Cycle.moves _ store handlers.outcome now 5 .claiming s = ended
  obtain ⟨p, s'⟩ := ended
  cases p <;> rfl

/-- The report on a job tells how its handler ended. -/
theorem verdict_of_ended (job : Job) (admission : Except Failure Bool)
    (handler : Job → Outcome HandlerResult) (ended : TaskEnd HandlerResult) :
    handlers.find? job.type = some handler → handler job = ended.outcome →
    (handlers.cycle limiting worker queues).admits admission = true →
    (handlers.cycle limiting worker queues).verdict job admission (handlers.outcome job) =
      match ended with
      | .returned (.ok result) => .complete result
      | .returned (.error message) => .fail message
      | .brokeOff (.text why) => .fail ("handler panicked: " ++ why)
      | .brokeOff .other => .fail "handler panicked: Unknown panic"
      | .aborted => .fail "handler task cancelled" := by
  intro hfind hran ok
  have serves : (handlers.cycle limiting worker queues).serves job.type = true := by
    show (handlers.find? job.type).isSome = true
    rw [hfind]
    rfl
  have hout : handlers.outcome job = ended.outcome := by
    rw [Registry.outcome, hfind, ← hran]
    rfl
  rw [Cycle.verdict, if_pos ok, if_pos serves, hout]
  cases ended with
  | returned result => cases result <;> rfl
  | brokeOff why => cases why <;> rfl
  | aborted => rfl

/-- A job is reported as completed only with what its handler returned. -/
theorem verdict_eq_complete_iff_handler {job : Job} {admission : Except Failure Bool}
    {result : Option Payload} :
    (handlers.cycle limiting worker queues).verdict job admission (handlers.outcome job) =
        .complete result ↔
      (handlers.cycle limiting worker queues).admits admission = true ∧
        ∃ handler, handlers.find? job.type = some handler ∧ handler job = .success (.ok result) := by
  rw [Cycle.verdict_eq_complete_iff]
  refine and_congr_right fun _ => ?_
  show (handlers.find? job.type).isSome = true ∧ handlers.outcome job = _ ↔ _
  unfold Registry.outcome
  cases handlers.find? job.type <;> simp

open Simulation in
/-- One cycle asks for a job once and, if it got one, reports on it once, at its end, under its
    name, whatever else the store answers and however the handler ends.  A handler runs for an
    admitted job only. -/
theorem claims_are_reported_once
    (steady : ∀ act ∈ nextActs limiting handlers store now worker queues s, act.IsSteady) :
    let c := handlers.cycle limiting worker queues
    let acts := nextActs limiting handlers store now worker queues s
    let claim := (store.ask now (.dequeue worker queues) s).1
    let ended := processNext limiting handlers store.recorded now worker queues (s, [])
    ended.2.2 = acts.filter Act.isAsked ∧
    (∀ job, claim = .ok (some job) → ended.1 = some true ∧
      ∃ admission counted reported,
        acts = c.errand job admission (handlers.outcome job) counted reported ∧
        (∀ result, c.verdict job admission (handlers.outcome job) = .complete result ↔
          c.admits admission = true ∧
            ∃ handler, handlers.find? job.type = some handler ∧
              handler job = .success (.ok result)) ∧
        ∀ handler ended, handlers.find? job.type = some handler →
          handler job = TaskEnd.outcome ended → c.admits admission = true →
          c.verdict job admission (handlers.outcome job) =
            match ended with
            | .returned (.ok result) => .complete result
            | .returned (.error message) => .fail message
            | .brokeOff (.text why) => .fail ("handler panicked: " ++ why)
            | .brokeOff .other => .fail "handler panicked: Unknown panic"
            | .aborted => .fail "handler task cancelled") ∧
    ((∀ job, claim ≠ .ok (some job)) → ended.1 = some false ∧
      acts = [.asked (.dequeue worker queues) claim]) ∧
    ∀ (setup : Setup σ) (w : World σ) (owner : Party) (acts : List Act) (p : Phase) (job : Job),
      (w.cycle setup worker queues).Course acts p → (∀ job, p ≠ .running job) →
      (w.cycleStep setup owner worker queues p).1 = .running job →
      (∃ act admission, (w.cycle setup worker queues).admits admission = true ∧
        (w.handlers.find? job.type).isSome = true ∧
        acts ++ [act] = (w.cycle setup worker queues).claimed job ::
          (w.cycle setup worker queues).asking job admission) ∧
      ∃ deadline script, (w.cycleStep setup owner worker queues p).2.tasks = w.tasks.put w.nextTask
        (.handler ⟨worker, job.attempts, deadline⟩ job script owner none) := by
  intro c acts claim ended
  have hended : ended = ((processNext limiting handlers store now worker queues s).1,
      (processNext limiting handlers store now worker queues s).2, acts.filter Act.isAsked) :=
    processNext_recorded
  obtain ⟨b, hfinished⟩ := finished_of_steady steady
  have hanswer : ended.1 = some b := by
    rw [hended]
    exact processNext_of_finished hfinished
  refine ⟨by rw [hended], ?_, ?_, ?_⟩
  · intro job hclaim
    cases b with
    | false => exact absurd hclaim ((nextActs_of_unclaimed hfinished).1 job)
    | true =>
      obtain ⟨job', admission, counted, reported, hjob, hacts⟩ := nextActs_of_claimed hfinished
      obtain rfl : job' = job := by
        have := hjob.symm.trans hclaim
        simpa using this
      refine ⟨hanswer, admission, counted, reported, hacts, ?_, ?_⟩
      · intro result
        exact verdict_eq_complete_iff_handler
      · intro handler ended hfind hran ok
        exact verdict_of_ended job' admission handler ended hfind hran ok
  · intro hclaim
    cases b with
    | true =>
      obtain ⟨job, -, -, -, hjob, -⟩ := nextActs_of_claimed hfinished
      exact absurd hjob (hclaim job)
    | false => exact ⟨hanswer, (nextActs_of_unclaimed hfinished).2⟩
  · intro setup w owner acts p job course idle next
    exact ⟨World.acts_of_spawn course idle next, World.tasks_cycleStep idle next⟩

/-- A store that hands out a job and breaks down at every other request. -/
def Store.failing (job : Job) : Store Unit where
  ask _ r s :=
    match r with
    | .dequeue .. => (.ok (some job), s)
    | r => (.error (.error (.database (.injected r.operation))), s)

/-- A handler for the type `t` that succeeds. -/
def easyHandlers : Registry (Job → Outcome HandlerResult) :=
  .register .empty "t" fun _ => .success (.ok none)

/-- The report is made although neither the admission nor the count could be had. -/
theorem claims_are_reported_once_failing :
    let job := Job.new "a" 0 "q" "t" "o" .empty
    (∀ act ∈ nextActs true easyHandlers (.failing job) 0 "w" .any (), act.IsSteady) ∧
    ∃ admission counted reported,
      nextActs true easyHandlers (.failing job) 0 "w" .any () =
        (easyHandlers.cycle true "w" .any).errand job admission (.success (.ok none)) counted
          reported := by
  intro job
  have steady : ∀ act ∈ nextActs true easyHandlers (.failing job) 0 "w" .any (), act.IsSteady := by
    have hacts : nextActs true easyHandlers (.failing job) 0 "w" .any () =
        [.asked (.dequeue "w" .any) (.ok (some job)),
          .asked (.canProcess ⟨"o", "q"⟩) (.error (.error (.database (.injected "can_process_job")))),
          .ran job (.success (.ok none)),
          .asked (.record ⟨"o", "q"⟩) (.error (.error (.database (.injected "record_job_processed")))),
          .asked (.complete "a" none) (.error (.error (.database (.injected "complete"))))] := by
      rfl
    simp [hacts, Act.IsSteady]
  obtain ⟨-, h, -⟩ := claims_are_reported_once steady
  obtain ⟨-, admission, counted, reported, hacts, -, -⟩ := h job rfl
  exact ⟨steady, admission, counted, reported, hacts⟩

end

end JobQueue
