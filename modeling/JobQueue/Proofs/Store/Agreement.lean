/-
  The three kinds of stores answer alike.

  Whatever is asked about jobs, in any order and at any readings of the clock,
  the volatile store, a database file and a database server give the same
  answers, up to the words of errors (`stores_answer_alike`).  The names of
  new jobs have to be fresh, texts must be ones that the server takes, and no
  job may be claimed more often than its attempts can count.

  The last condition is one on the claims that the volatile store tries to
  make (`Event.picks`); it excludes that an operation breaks off with an
  overflow (`History.countable`).
-/
import JobQueue.Proofs.Store.Attempts
import JobQueue.Proofs.Store.Postgres
import JobQueue.Proofs.Store.Sqlite
import JobQueue.Store.Migration

namespace JobQueue

/-! ## Claims that can be counted -/

namespace Volatile

/-- Did the request turn to the job with a name, to hand it out? -/
def Event.picks (id : String) (e : Event) : Bool :=
  match e.request with
  | .dequeue _ queues => (e.before.next? e.now queues).any (·.job.id == id)
  | _ => false

/-- How often the job with a name was turned to. -/
def picks (id : String) (h : List Event) : Nat := h.countP (Event.picks id)

/-- No job was turned to more often than its attempts can count. -/
def Countable (h : List Event) : Prop := ∀ id, (picks id h : ℤ) ≤ Int32.maxValue.toInt

section
variable {rules : Rules} {h : List Event} {s : Volatile}

theorem Countable.suffix {h' : List Event} (hc : Countable h') (hs : h <:+ h') : Countable h := by
  intro id
  refine le_trans ?_ (hc id)
  exact_mod_cast hs.sublist.countP_le

/-- Of the requests about jobs, only a claim can overflow. -/
theorem ask_ne_overflow (healthy : s.poisoned = false) {r : Request} (hr : r.isAboutJobs = true)
    (hd : ∀ worker queues, r ≠ .dequeue worker queues) (now : Millis) :
    (ask rules now r s).1 ≠ .error .overflow := by
  cases r with
  | dequeue worker queues => exact absurd rfl (hd worker queues)
  | complete id result =>
    intro ho
    cases hx : s.jobs.get? id with
    | none => simp [ask, complete_of_none healthy hx] at ho
    | some x =>
      by_cases hb : x.job.status = .processing
      · simp [ask, complete_of_busy healthy hx hb] at ho
      · simp [ask, complete_of_idle healthy hx hb] at ho
  | fail id message =>
    intro ho
    cases hx : s.jobs.get? id with
    | none => simp [ask, fail_of_none healthy hx] at ho
    | some x =>
      by_cases hb : x.job.status = .processing
      · simp [ask, fail_of_busy healthy hx hb] at ho
      · simp [ask, fail_of_idle healthy hx hb] at ho
  | get id => cases hx : s.jobs.get? id <;> simp [ask, get, hold, healthy, find, hx, Except.map]
  | enqueue id sub => simp [ask, enqueue, hold, healthy]
  | delete id => simp [ask, delete, hold, healthy]
  | list filter => simp [ask, list, hold, healthy]
  | requeueStale before => simp [ask, requeueStale, hold, healthy]
  | purge before => simp [ask, purge, hold, healthy]
  | stats | canProcess | record | setLimit | close => cases hr

/-- While claims can be counted, nothing overflows, and a claim hands the job out. -/
theorem claims_eq_picks (hist : History rules h s) (healthy : s.poisoned = false)
    (hp : ∀ id, claims id h = picks id h) {now : Millis} {r : Request} (hr : r.isAboutJobs = true)
    (hc : Countable (.ask rules now r s :: h)) :
    (ask rules now r s).1 ≠ .error .overflow ∧
    ∀ id, (Event.ask rules now r s).claims id = (Event.ask rules now r s).picks id := by
  cases r with
  | dequeue worker queues =>
    cases hn : s.next? now queues with
    | none =>
      have ha : ask rules now (.dequeue worker queues) s = _ := dequeue_of_none healthy hn worker
      refine ⟨by simp [ha], fun id => ?_⟩
      simp [Event.claims, Event.claimed?, Event.ask, Event.picks, ha, hn, Request.claimed?]
    | some x =>
      have ha : ask rules now (.dequeue worker queues) s = _ := dequeue_of_next healthy hn worker
      have hpick : (Event.ask rules now (.dequeue worker queues) s).picks x.job.id = true := by
        simp [Event.picks, Event.ask, hn]
      -- counting this claim the job was turned to once more than it was claimed before
      have hle := hc x.job.id
      rw [picks, List.countP_cons_of_pos hpick, ← picks, ← hp x.job.id, Nat.cast_succ,
        ← hist.attempts_eq (hist.valid.get?_of_next? hn)] at hle
      have hmax : Int32.maxValue.toInt = 0x7fffffff := rfl
      cases hs : succ32? x.job.attempts with
      | none =>
        have := fit32?_eq_none_iff.1 hs
        have := Int32.le_toInt x.job.attempts
        omega
      | some n =>
        rw [hs] at ha
        refine ⟨by simp [ha], fun id => ?_⟩
        simp [Event.claims, Event.claimed?, Event.ask, Event.picks, ha, hn, Request.claimed?,
          Job.taken]
  | _ =>
    refine ⟨ask_ne_overflow healthy hr (fun _ _ h => ?_) now, fun id => rfl⟩
    cases h

/-- As long as claims can be counted, nothing overflows. -/
theorem History.countable (hist : History rules h s) (hj : ∀ e ∈ h, e.request.isAboutJobs = true)
    (hc : Countable h) : s.poisoned = false ∧ ∀ id, claims id h = picks id h := by
  induction hist with
  | start => exact ⟨rfl, fun id => rfl⟩
  | @next h s past now r fresh ih =>
    obtain ⟨healthy, hp⟩ := ih (fun e he => hj e (List.mem_cons_of_mem _ he)) (hc.suffix (List.suffix_cons ..))
    have hr : r.isAboutJobs = true := hj _ List.mem_cons_self
    obtain ⟨ho, he⟩ := claims_eq_picks past healthy hp hr hc
    refine ⟨((step_ask rfl).poisoned ho).trans healthy, fun id => ?_⟩
    rw [claims, picks, List.countP_cons, List.countP_cons, he id, ← picks, ← hp id, claims]

end

end Volatile

open Volatile

/-! ## Sequences of calls -/

namespace Store

variable {σ : Type} (store : Store σ)

/-- The state after some calls. -/
def after (calls : List Call) (s : σ) : σ :=
  calls.foldl (fun s c => (store.ask c.now c.request s).2) s

/-- The answers to some calls, without the words of errors. -/
def answers : List Call → σ → List ((r : Request) × Except (Option ErrorKind) r.Answer)
  | [], _ => []
  | c :: calls, s =>
    ⟨c.request, wordless (store.ask c.now c.request s).1⟩ ::
      answers calls (store.ask c.now c.request s).2

theorem after_append (calls : List Call) (c : Call) (s : σ) :
    store.after (calls ++ [c]) s = (store.ask c.now c.request (store.after calls s)).2 := by
  simp [after]

theorem answers_append (calls : List Call) (c : Call) (s : σ) :
    store.answers (calls ++ [c]) s = store.answers calls s ++
      [⟨c.request, wordless (store.ask c.now c.request (store.after calls s)).1⟩] := by
  induction calls generalizing s with
  | nil => rfl
  | cons c' calls ih => simp [answers, after, ih]

theorem forall_answers {P : (r : Request) × Except (Option ErrorKind) r.Answer → Prop} {s : σ}
    {calls : List Call} (h : ∀ before c, before ++ [c] <+: calls →
      P ⟨c.request, wordless (store.ask c.now c.request (store.after before s)).1⟩) :
    ∀ a ∈ store.answers calls s, P a := by
  induction calls using List.reverseRecOn with
  | nil => intro a ha; cases ha
  | append_singleton calls c ih =>
    intro a ha
    rw [answers_append, List.mem_append, List.mem_singleton] at ha
    rcases ha with ha | rfl
    · exact ih (fun before c' hp => h before c' (hp.trans (List.prefix_append calls [c]))) a ha
    · exact h calls c List.prefix_rfl

/-- A store whose states correspond to those of another one, and that answers alike in every state
    that calls lead to, gives the same answers. -/
theorem answers_eq {τ : Type} {other : Store τ} {R : σ → τ → Prop} {s : σ} {t : τ}
    (start : R s t) {calls : List Call}
    (step : ∀ before c, before ++ [c] <+: calls → R (store.after before s) (other.after before t) →
      Alike R (store.ask c.now c.request (store.after before s))
        (other.ask c.now c.request (other.after before t))) :
    store.answers calls s = other.answers calls t ∧
      R (store.after calls s) (other.after calls t) := by
  induction calls using List.reverseRecOn with
  | nil => exact ⟨rfl, start⟩
  | append_singleton calls c ih =>
    obtain ⟨hans, hR⟩ := ih fun before c' hp =>
      step before c' (hp.trans (List.prefix_append calls [c]))
    have h := step calls c List.prefix_rfl hR
    rw [answers_append, answers_append, after_append, after_append, hans, h.answer]
    exact ⟨rfl, h.state⟩

end Store

theorem after_volatile (rules : Rules) (calls : List Call) :
    (Volatile.store rules).after calls .empty = (replay rules calls).2 := by
  induction calls using List.reverseRecOn with
  | nil => rfl
  | append_singleton calls c ih =>
    rw [Store.after_append, ih, replay_append]; rfl

/-- A call finds a well-formed store that is not poisoned, gives a new name, and does not
    overflow. -/
theorem sound_call {rules : Rules} {calls : List Call}
    (jobs : ∀ c ∈ calls, c.request.isAboutJobs = true) (names : (calls.filterMap Call.name?).Nodup)
    (countable : Countable (replay rules calls).1) {before : List Call} {c : Call}
    (hp : before ++ [c] <+: calls) :
    (replay rules before).2.Valid ∧ (replay rules before).2.poisoned = false ∧
    (∀ id sub, c.request = .enqueue id sub → (replay rules before).2.jobs.get? id = none) ∧
    (Volatile.ask rules c.now c.request (replay rules before).2).1 ≠ .error .overflow := by
  have hist : History rules (replay rules before).1 (replay rules before).2 :=
    .replay (names.sublist (((List.prefix_append before [c]).trans hp).sublist.filterMap _))
  have hc := countable.suffix (replay_suffix rules hp)
  rw [replay_append] at hc
  have hj : ∀ e ∈ (replay rules before).1, e.request.isAboutJobs = true := by
    intro e he
    obtain ⟨past, c', hc', rfl⟩ := mem_replay he
    exact jobs c' (hp.subset (List.mem_append_left _ (hc'.subset (by simp))))
  obtain ⟨healthy, hpicks⟩ := hist.countable hj (hc.suffix (List.suffix_cons ..))
  have hr := jobs c (hp.subset (List.mem_append_right _ (List.mem_singleton_self c)))
  exact ⟨hist.valid, healthy, unknown_of_nodup names hp,
    (claims_eq_picks hist healthy hpicks hr hc).1⟩

/-- **The three kinds of stores answer alike.**  Every sequence of calls about jobs, with fresh names
    and texts that the server takes, gets the same answers from the volatile store, a database file
    and a database server, if each begins without jobs and no job is turned to more often than its
    attempts can count; and none of the answers is an overflow. -/
theorem stores_answer_alike {rules : Rules} {calls : List Call}
    (jobs : ∀ c ∈ calls, c.request.isAboutJobs = true) (names : (calls.filterMap Call.name?).Nodup)
    (plain : ∀ c ∈ calls, Postgres.Plain c.request.texts)
    (countable : Countable (replay rules calls).1) {file server : Connection} {i j : Nat}
    (hf : file.Ready [] i) (hs : server.Ready [] j) :
    (Volatile.store rules).answers calls .empty = (Sqlite.store rules).answers calls file ∧
    (Volatile.store rules).answers calls .empty = (Postgres.store rules).answers calls server ∧
    ∀ a ∈ (Volatile.store rules).answers calls .empty, a.2 ≠ .error none := by
  refine ⟨?_, ?_, ?_⟩
  · refine (Store.answers_eq _ (R := Sqlite.Mirrors) ⟨[], i, hf, mirrored_empty⟩ ?_).1
    intro before c hp hm
    obtain ⟨hv, healthy, hn, ho⟩ := sound_call jobs names countable hp
    rw [after_volatile] at hm ⊢
    have hr := jobs c (hp.subset (by simp))
    exact Sqlite.alike_ask healthy hm hv hr hn ho
  · refine (Store.answers_eq _ (R := Postgres.Mirrors)
      ⟨[], j, hs, mirrored_empty, fun x hx => by cases hx⟩ ?_).1
    intro before c hp hm
    obtain ⟨hv, healthy, hn, ho⟩ := sound_call jobs names countable hp
    rw [after_volatile] at hm ⊢
    have hr := jobs c (hp.subset (by simp))
    exact Postgres.alike_ask healthy hm hv hr (plain c (hp.subset (by simp))) hn ho
  · refine Store.forall_answers _ fun before c hp => ?_
    obtain ⟨-, -, -, ho⟩ := sound_call jobs names countable hp
    rw [after_volatile]
    exact wordless_ne ho

/-- Three jobs of the same age.  The newest is deleted before the third comes, so that a file uses
    its rank again and a server does not. -/
def sameAge : List Call :=
  [⟨0, .enqueue "a" ⟨"q", "t", "o", .empty, {}⟩⟩, ⟨0, .enqueue "b" ⟨"q", "t", "o", .empty, {}⟩⟩,
    ⟨0, .delete "b"⟩, ⟨0, .enqueue "c" ⟨"q", "t", "o", .empty, {}⟩⟩, ⟨1, .dequeue "w" .any⟩,
    ⟨2, .fail "a" "broken"⟩, ⟨2, .dequeue "w" ⟨["q"]⟩⟩, ⟨3, .complete "b" none⟩, ⟨4, .list {}⟩]

/-- A connection to a database with the tables of all versions. -/
def freshConnection (e : Engine) : Connection := ⟨(({} : Database).migrate e).2, true, false⟩

theorem stores_answer_alike_sameAge :
    (Volatile.store .default).answers sameAge .empty =
      (Sqlite.store .default).answers sameAge (freshConnection .sqlite) ∧
    (Volatile.store .default).answers sameAge .empty =
      (Postgres.store .default).answers sameAge (freshConnection .postgres) := by
  have plain : ∀ c ∈ sameAge, Postgres.Plain c.request.texts := by
    simp [sameAge, Postgres.Plain, Request.texts, QueueSet.any]
  have countable : Countable (replay .default sameAge).1 := by
    intro id
    have hle : picks id (replay .default sameAge).1 ≤ 9 := List.countP_le_length
    have hmax : Int32.maxValue.toInt = 0x7fffffff := rfl
    omega
  have hf : (freshConnection .sqlite).Ready [] 1 := ⟨rfl, rfl, rfl⟩
  have hs : (freshConnection .postgres).Ready [] 1 := ⟨rfl, rfl, rfl⟩
  obtain ⟨h₁, h₂, -⟩ := stores_answer_alike (by decide) (by decide) plain countable hf hs
  exact ⟨h₁, h₂⟩

end JobQueue
