/-
  Histories of the volatile store.

  A history is a list of answered requests, the last one first, that leads from
  the empty store to a state.  Any request can be made at any reading of the
  clock; only the names of new jobs have to be fresh.

  `Fate` lists what one request can do to what is kept under one name, and
  every request does one of these things to every name (`Step.fate`).  A
  property of one name is therefore proved of all histories by
  `History.each_name`: it holds of nothing in the beginning, and every fate
  keeps it.
-/
import JobQueue.Proofs.Store.Step

namespace JobQueue.Volatile

/-! ## Fates -/

/-- What a request can do to what is kept under the name `id`. -/
inductive Fate (rules : Rules) (now : Millis) (id : String) :
    (r : Request) → Except Failure r.Answer → Option Ranked → Option Ranked → Prop where
  | same {r : Request} {a : Except Failure r.Answer} (x : Option Ranked)
      (quiet : ∀ job, r.claimed? a = some job → job.id ≠ id)
      (idle : ∀ sub, r.accepted? a ≠ some (id, sub)) : Fate rules now id r a x x
  | enqueued (sub : Submission) (rank : Nat) :
      Fate rules now id (.enqueue id sub) (.ok (sub.toJob id now)) none
        (some ⟨rank, sub.toJob id now⟩)
  | claimed {worker : String} {queues : QueueSet} {x : Ranked} {n : Int32}
      (pending : x.job.status = .pending) (due : x.job.scheduledAt ≤ now)
      (count : succ32? x.job.attempts = some n) (named : x.job.id = id) :
      Fate rules now id (.dequeue worker queues) (.ok (some (x.job.taken now worker n)))
        (some x) (some { x with job := x.job.taken now worker n })
  | completed {result : Option Payload} {x : Ranked} (busy : x.job.status = .processing) :
      Fate rules now id (.complete id result) (.ok ())
        (some x) (some { x with job := x.job.finished now result })
  | retried {message : String} {x : Ranked} (busy : x.job.status = .processing)
      (more : x.job.attempts < x.job.maxAttempts) :
      Fate rules now id (.fail id message) (.ok ()) (some x) (some { x with
        job := x.job.delayed (addClamped now (rules.retry.backoff x.job.attempts)) message })
  | failed {message : String} {x : Ranked} (busy : x.job.status = .processing)
      (spent : x.job.maxAttempts ≤ x.job.attempts) :
      Fate rules now id (.fail id message) (.ok ())
        (some x) (some { x with job := x.job.givenUp now message })
  | deleted (x : Ranked) : Fate rules now id (.delete id) (.ok ()) (some x) none
  | requeued {before : Millis} {n : Nat} {x : Ranked} (stale : x.job.isStale before = true) :
      Fate rules now id (.requeueStale before) (.ok n)
        (some x) (some { x with job := x.job.requeued })
  | purged {before : Millis} {n : Nat} {x : Ranked} (old : x.job.isFinishedBefore before = true) :
      Fate rules now id (.purge before) (.ok n) (some x) none

section
variable {rules : Rules} {now : Millis} {s s' : Volatile} {r : Request} {a : Except Failure r.Answer}

theorem Fate.of_quiet {id : String} {x : Option Ranked} (hc : r.claimed? a = none)
    (ha : r.accepted? a = none) : Fate rules now id r a x x :=
  .same x (fun job h => by rw [hc] at h; cases h) fun sub h => by rw [ha] at h; cases h

/-- A claimed job was waiting, and is stored as it was handed out. -/
theorem Fate.claimed_eq {id : String} {x y : Option Ranked} (h : Fate rules now id r a x y) {job : Job}
    (hc : r.claimed? a = some job) (hi : job.id = id) :
    ∃ w, x = some w ∧ w.job.status = .pending ∧ y = some ⟨w.rank, job⟩ ∧
      job.status = .processing ∧ job.startedAt = some now := by
  cases h with
  | same _ quiet => exact absurd hi (quiet job hc)
  | @claimed worker queues w n pending =>
    obtain rfl := Option.some.inj hc
    exact ⟨w, rfl, pending, rfl, rfl, rfl⟩
  | enqueued | completed | retried | failed | deleted | requeued | purged => cases hc

/-- What a request does that puts a job under one name. -/
theorem Fate.put {id id' : String} {y : Ranked}
    (own : Fate rules now id' r a (s.jobs.get? id') (some y))
    (other : id' ≠ id → Fate rules now id r a (s.jobs.get? id) (s.jobs.get? id)) :
    Fate rules now id r a (s.jobs.get? id) ((s.jobs.put id' y).get? id) := by
  rw [Keyed.get?_put]
  by_cases he : id' = id
  · subst he
    rw [if_pos rfl]; exact own
  · rw [if_neg he]; exact other he

/-- A request does one of these things to every name that it does not give to a new job. -/
theorem Step.fate_of_tidy (h : Step rules now s r a s') (hs : s.Tidy) (id : String)
    (hn : ∀ sub, r.accepted? a = some (id, sub) → s.jobs.get? id = none) :
    Fate rules now id r a (s.jobs.get? id) (s'.jobs.get? id) := by
  cases h with
  | still quiet idle hj =>
    rw [hj]
    exact .of_quiet quiet idle
  | enqueued id' sub =>
    by_cases he : id' = id
    · subst he
      rw [hn sub rfl, Keyed.get?_put, if_pos rfl]
      exact .enqueued sub s.nextRank
    · rw [Keyed.get?_put, if_neg he]
      refine .same _ (fun job h => by cases h) fun sub' h => ?_
      exact he (Prod.mk.inj (Option.some.inj h)).1
  | @claimed worker queues x n next pending count =>
    refine .put ?_ fun he => .same _ (fun job h => ?_) fun sub h => by cases h
    · rw [hs.get?_of_next? next]
      exact .claimed pending (pending_of_next? next).2 count rfl
    · rw [← Option.some.inj h]
      exact he
  | completed found busy =>
    refine .put ?_ fun _ => .of_quiet rfl rfl
    rw [found]
    exact .completed busy
  | retried found busy more =>
    refine .put ?_ fun _ => .of_quiet rfl rfl
    rw [found]
    exact .retried busy more
  | failed found busy spent =>
    refine .put ?_ fun _ => .of_quiet rfl rfl
    rw [found]
    exact .failed busy spent
  | deleted id' =>
    by_cases he : id' = id
    · subst he
      simp only [Keyed.get?_erase, if_true]
      cases s.jobs.get? id' with
      | none => exact .of_quiet rfl rfl
      | some x => exact .deleted x
    · simp only [Keyed.get?_erase, he, if_false]
      exact .of_quiet rfl rfl
  | requeued before =>
    simp only [Keyed.get?_mapValues]
    cases s.jobs.get? id with
    | none => exact .of_quiet rfl rfl
    | some x =>
      by_cases hb : x.job.isStale before = true
      · simp only [Option.map_some, hb, if_true]
        exact .requeued hb
      · simp only [Option.map_some, hb]
        exact .of_quiet rfl rfl
  | purged before =>
    simp only [Keyed.get?_keepIf hs.distinct]
    cases s.jobs.get? id with
    | none => exact .of_quiet rfl rfl
    | some x =>
      by_cases hb : x.job.isFinishedBefore before = true
      · simp only [Option.filter_some, hb, Bool.not_true]
        exact .purged hb
      · simp only [Option.filter_some, hb, Bool.not_false, if_true]
        exact .of_quiet rfl rfl

/-- **Every request does one of these things to every name.** -/
theorem Step.fate (h : Step rules now s r a s') (hs : s.Valid)
    (hn : ∀ id sub, r = .enqueue id sub → s.jobs.get? id = none) (id : String) :
    Fate rules now id r a (s.jobs.get? id) (s'.jobs.get? id) :=
  h.fate_of_tidy hs.tidy id fun sub ha => hn id sub (Request.eq_enqueue_of_accepted? ha)

end

/-! ## Events -/

/-- An answered request, with the states of the store before and after it. -/
structure Event where
  now : Millis
  request : Request
  answer : Except Failure request.Answer
  before : Volatile
  after : Volatile

namespace Event

/-- The event of a request. -/
def ask (rules : Rules) (now : Millis) (r : Request) (s : Volatile) : Event :=
  ⟨now, r, (Volatile.ask rules now r s).1, s, (Volatile.ask rules now r s).2⟩

/-- The job that was claimed. -/
def claimed? (e : Event) : Option Job := e.request.claimed? e.answer

/-- Was the job with a name claimed? -/
def claims (id : String) (e : Event) : Bool := e.claimed?.any (·.id == id)

/-- The name that a new job was to have. -/
def name? (e : Event) : Option String :=
  match e.request with
  | .enqueue id _ => some id
  | _ => none

/-- The submission that was accepted, with its name. -/
def accepted? (e : Event) : Option (String × Submission) := e.request.accepted? e.answer

/-- Was the job with a name put back because its claim was stale? -/
def putsBack (id : String) (e : Event) : Bool :=
  match e.request with
  | .requeueStale _ =>
    (e.before.jobs.get? id).any (·.job.status == .processing) &&
      (e.after.jobs.get? id).any (·.job.status == .pending)
  | _ => false

end Event

/-- The jobs handed out so far, as they were then. -/
def handedOut (h : List Event) : List Job := h.filterMap Event.claimed?

/-- The names given so far. -/
def names (h : List Event) : List String := h.filterMap Event.name?

/-- The submissions accepted so far, with their names. -/
def submissions (h : List Event) : List (String × Submission) := h.filterMap Event.accepted?

/-- How often the job with a name was claimed. -/
def claims (id : String) (h : List Event) : Nat := h.countP (Event.claims id)

/-- How often the job with a name was put back because its claim was stale. -/
def requeues (id : String) (h : List Event) : Nat := h.countP (Event.putsBack id)

/-- A request gives no name a second time. -/
def Fresh (h : List Event) (r : Request) : Prop := ∀ id sub, r = .enqueue id sub → id ∉ names h

/-! ## Histories -/

/-- The histories of a store with given rules, each with the state to which it leads. -/
inductive History (rules : Rules) : List Event → Volatile → Prop where
  | start : History rules [] empty
  | next {h : List Event} {s : Volatile} (past : History rules h s) (now : Millis) (r : Request)
      (fresh : Fresh h r) : History rules (.ask rules now r s :: h) (ask rules now r s).2

section
variable {rules : Rules} {h : List Event} {s : Volatile}

theorem names_cons {e : Event} {id : String} (hm : id ∈ names h) : id ∈ names (e :: h) := by
  unfold names
  rw [List.filterMap_cons]
  split
  · exact hm
  · exact List.mem_cons_of_mem _ hm

theorem submissions_cons {e : Event} (ha : e.accepted? = none) :
    submissions (e :: h) = submissions h :=
  List.filterMap_cons_none ha

theorem mem_submissions_of_ne {e : Event} {id : String} {sub : Submission}
    (ha : e.accepted? ≠ some (id, sub)) (hs : (id, sub) ∈ submissions (e :: h)) :
    (id, sub) ∈ submissions h := by
  obtain ⟨e', he', hs'⟩ := List.mem_filterMap.1 hs
  rcases List.mem_cons.1 he' with rfl | he'
  · exact absurd hs' ha
  · exact List.mem_filterMap.2 ⟨e', he', hs'⟩

theorem mem_names {id : String} {sub : Submission} (hm : (id, sub) ∈ submissions h) :
    id ∈ names h := by
  obtain ⟨e, he, ha⟩ := List.mem_filterMap.1 hm
  refine List.mem_filterMap.2 ⟨e, he, ?_⟩
  rw [Event.name?, Request.eq_enqueue_of_accepted? ha]

/-- Reachable stores are well formed, and the names of their jobs were given. -/
theorem History.valid_and_named (hist : History rules h s) :
    s.Valid ∧ ∀ id x, s.jobs.get? id = some x → id ∈ names h := by
  induction hist with
  | start => exact ⟨valid_empty, fun id x hx => by simp [empty] at hx⟩
  | @next h s past now r fresh ih =>
    obtain ⟨hv, hm⟩ := ih
    have hn : ∀ id sub, r = .enqueue id sub → s.jobs.get? id = none := by
      intro id sub he
      cases hx : s.jobs.get? id with
      | none => rfl
      | some x => exact absurd (hm id x hx) (fresh id sub he)
    have hstep : Step rules now s r (ask rules now r s).1 (ask rules now r s).2 := step_ask rfl
    refine ⟨hv.step hstep hn, fun id x hx => ?_⟩
    have hold : ∀ x, s.jobs.get? id = some x → id ∈ names (.ask rules now r s :: h) :=
      fun x hx => names_cons (hm id x hx)
    have hf := hstep.fate hv hn id
    rw [hx] at hf
    generalize hb : s.jobs.get? id = b at hf
    generalize (ask rules now r s).1 = a at hf
    cases hf with
    | same => exact hold _ hb
    | enqueued => exact List.mem_cons_self
    | claimed => exact hold _ hb
    | completed => exact hold _ hb
    | retried => exact hold _ hb
    | failed => exact hold _ hb
    | requeued => exact hold _ hb

theorem History.valid (hist : History rules h s) : s.Valid := hist.valid_and_named.1

theorem History.named (hist : History rules h s) {id : String} {x : Ranked}
    (hx : s.jobs.get? id = some x) : id ∈ names h :=
  hist.valid_and_named.2 id x hx

theorem History.unknown (hist : History rules h s) {r : Request} (fresh : Fresh h r) (id : String)
    (sub : Submission) (he : r = .enqueue id sub) : s.jobs.get? id = none := by
  cases hx : s.jobs.get? id with
  | none => rfl
  | some x => exact absurd (hist.named hx) (fresh id sub he)

theorem History.step (hist : History rules h s) {r : Request} (fresh : Fresh h r) (now : Millis)
    (id : String) :
    Fate rules now id r (ask rules now r s).1 (s.jobs.get? id) ((ask rules now r s).2.jobs.get? id) :=
  (step_ask rfl).fate hist.valid (hist.unknown fresh) id

/-- A property of single names holds in every history if it holds of nothing in the beginning and
    every fate keeps it. -/
theorem History.each_name {P : List Event → String → Option Ranked → Prop}
    (start : ∀ id, P [] id none)
    (step : ∀ {h s s' id now r a x y}, History rules h s → s.jobs.get? id = x →
      s'.jobs.get? id = y → P h id x → Fresh h r → Fate rules now id r a x y →
      P (⟨now, r, a, s, s'⟩ :: h) id y)
    (hist : History rules h s) (id : String) : P h id (s.jobs.get? id) := by
  induction hist with
  | start => exact start id
  | @next h s past now r fresh ih => exact step past rfl rfl ih fresh (past.step fresh now id)

end

/-! ## Histories of calls -/

/-- A request at a reading of the clock. -/
structure Call where
  now : Millis
  request : Request

/-- The name that a new job is to have. -/
def Call.name? (c : Call) : Option String :=
  match c.request with
  | .enqueue id _ => some id
  | _ => none

/-- The history of some calls, the last one first, and the state to which it leads. -/
def replay (rules : Rules) (calls : List Call) : List Event × Volatile :=
  calls.foldl (fun p c => (.ask rules c.now c.request p.2 :: p.1, (ask rules c.now c.request p.2).2))
    ([], empty)

theorem replay_append (rules : Rules) (calls : List Call) (c : Call) :
    replay rules (calls ++ [c]) =
      (.ask rules c.now c.request (replay rules calls).2 :: (replay rules calls).1,
        (ask rules c.now c.request (replay rules calls).2).2) := by
  simp [replay]

/-- Every event of a history of calls is that of one call, after those before it. -/
theorem mem_replay {rules : Rules} {calls : List Call} {e : Event}
    (he : e ∈ (replay rules calls).1) :
    ∃ before c, before ++ [c] <+: calls ∧ e = .ask rules c.now c.request (replay rules before).2 := by
  induction calls using List.reverseRecOn with
  | nil => cases he
  | append_singleton calls c ih =>
    rw [replay_append] at he
    rcases List.mem_cons.1 he with rfl | he
    · exact ⟨calls, c, List.prefix_rfl, rfl⟩
    · obtain ⟨before, c', hp, he⟩ := ih he
      exact ⟨before, c', hp.trans (List.prefix_append calls [c]), he⟩

theorem names_replay (rules : Rules) (calls : List Call) :
    names (replay rules calls).1 = (calls.filterMap Call.name?).reverse := by
  induction calls using List.reverseRecOn with
  | nil => rfl
  | append_singleton calls c ih =>
    have he (s : Volatile) : (Event.ask rules c.now c.request s).name? = c.name? := rfl
    rw [names] at ih ⊢
    rw [replay_append, List.filterMap_cons, he, ih]
    cases h : c.name? <;> simp [h]

/-- The names of calls that give no name twice are fresh. -/
theorem fresh_of_nodup {calls : List Call} {c : Call}
    (h : ((calls ++ [c]).filterMap Call.name?).Nodup) (rules : Rules) :
    Fresh (replay rules calls).1 c.request := by
  intro id sub he hm
  rw [List.filterMap_append, List.nodup_append] at h
  rw [names_replay, List.mem_reverse] at hm
  exact h.2.2 id hm id (by simp [Call.name?, he]) rfl

/-- Calls that give no name twice make a history. -/
theorem History.replay {rules : Rules} {calls : List Call} (h : (calls.filterMap Call.name?).Nodup) :
    History rules (replay rules calls).1 (replay rules calls).2 := by
  induction calls using List.reverseRecOn with
  | nil => exact .start
  | append_singleton calls c ih =>
    have hpast : (calls.filterMap Call.name?).Nodup := by
      rw [List.filterMap_append] at h
      exact h.sublist (List.sublist_append_left ..)
    rw [replay_append]
    exact .next (ih hpast) c.now c.request (fresh_of_nodup h rules)

/-- Nothing is stored under a name that no call gave before. -/
theorem unknown_of_nodup {rules : Rules} {calls before : List Call} {c : Call}
    (h : (calls.filterMap Call.name?).Nodup) (hp : before ++ [c] <+: calls) (id : String)
    (sub : Submission) (he : c.request = .enqueue id sub) :
    (replay rules before).2.jobs.get? id = none := by
  have names : ((before ++ [c]).filterMap Call.name?).Nodup := h.sublist (hp.sublist.filterMap _)
  have hist : History rules (replay rules before).1 (replay rules before).2 :=
    .replay (names.sublist ((List.sublist_append_left before [c]).filterMap _))
  exact hist.unknown (fresh_of_nodup names rules) id sub he

/-- The history of the first calls is the end of the history. -/
theorem replay_suffix (rules : Rules) {before calls : List Call} (h : before <+: calls) :
    (Volatile.replay rules before).1 <:+ (Volatile.replay rules calls).1 := by
  obtain ⟨rest, rfl⟩ := h
  induction rest using List.reverseRecOn with
  | nil => rw [List.append_nil]
  | append_singleton rest c ih =>
    rw [← List.append_assoc, replay_append]
    exact ih.trans (List.suffix_cons ..)

end JobQueue.Volatile
