/-
  A stopped pool leaves nothing open.

  A `Workshop` is a pool on a store of any kind: the cycles of its loops are
  interleaved, one request or one run of a handler at a time, with each other,
  with what happens to the pool, and with the requests of others.  The report
  of a failure to a file takes a look and a statement, and others may come
  between the two.  A loop ends between two cycles only
  (`Simulation.World.ends_of_turn`).

  A workshop also carries what nobody sees: the names that were given, the
  claims that were made, and what each loop did in its cycles (`Trip`).  What
  every move preserves is `Sound`: a job that a loop has claimed is kept as it
  was handed out until the loop reports on it, the report is accepted, and a
  loop that has such a job is alive.
-/
import JobQueue.Proofs.Store.LateReport
import JobQueue.Proofs.Worker.Generations
import JobQueue.Proofs.Worker.Trip

namespace JobQueue

/-! ## Workshops -/

/-- A pool on a store. -/
structure Workshop where
  life : Life := {}
  store : AnyStore
  /-- The names that were given. -/
  names : List String
  /-- The claims so far, each with the loop that made it, if it was one of the pool. -/
  claims : List (Option Nat × Job)
  /-- The cycles of each loop, the last one first. -/
  trips : Nat → List Trip := fun _ => []
  /-- The failures that loops on a file are yet to write down. -/
  plans : Nat → Option Sqlite.PlannedFailure := fun _ => none

/-- What can happen next in a workshop. -/
inductive ShopMove where
  /-- Something happens to the pool. -/
  | pool (m : LifeMove)
  /-- A loop begins a cycle. -/
  | tick (loop : Nat) (cycle : Cycle)
  /-- A loop makes the request of its phase. -/
  | ask (loop : Nat) (now : Millis)
  /-- A loop on a file looks at the job whose failure it reports. -/
  | look (loop : Nat) (now : Millis)
  /-- It writes the failure down. -/
  | write (loop : Nat)
  /-- The handler of a loop ends. -/
  | run (loop : Nat) (outcome : Outcome HandlerResult)
  /-- Someone else makes a request. -/
  | outside (now : Millis) (r : Request)

/-- A loop with these cycles is between two of them. -/
def atRest (trips : List Trip) : Bool := trips.head?.all fun t => t.phase.isOver

/-- A loop with these cycles has a job. -/
def InHand (trips : List Trip) (job : Job) : Prop := ∃ t, trips.head? = some t ∧ t.Holds job

/-- A loop with these cycles has a job whose failure it has looked at. -/
def Planned (retry : RetryPolicy) (trips : List Trip) (p : Sqlite.PlannedFailure) : Prop :=
  ∃ t job, trips.head? = some t ∧ t.Holds job ∧ t.phase = .reporting p.id (.fail p.message) ∧
    Sqlite.Plans retry job p

namespace Workshop

/-- Loops end between two cycles. -/
def lets (w : Workshop) : LifeMove → Bool
  | .ends n => atRest (w.trips n)
  | _ => true

/-- A loop goes on. -/
def enter (w : Workshop) (n : Nat) (trips : List Trip) : Workshop :=
  { w with trips := Function.update w.trips n trips, plans := Function.update w.plans n none }

/-- The workshop after a request to the store. -/
def told (rules : Rules) (who : Option Nat) (now : Millis) (r : Request) (w : Workshop) : Workshop :=
  { w with
    store := (AnyStore.ask rules now r w.store).2
    names := r.name?.toList ++ w.names
    claims :=
      (r.claimed? (AnyStore.ask rules now r w.store).1).toList.map (who, ·) ++ w.claims }

/-- The workshop after a move.  A move that is not due changes nothing. -/
def move (setup : PoolSetup) (rules : Rules) (w : Workshop) : ShopMove → Workshop
  | .pool m => if w.lets m then { w with life := w.life.move setup m } else w
  | .tick n c =>
    if n ∈ w.life.pool.alive ∧ atRest (w.trips n) then w.enter n (.begin c :: w.trips n) else w
  | .ask n now =>
    match w.trips n, w.plans n with
    | t :: past, none =>
      match due : t.cycle.request? t.phase with
      | none => w
      | some r =>
        (w.told rules (some n) now r).enter n
          (t.answered due (AnyStore.ask rules now r w.store).1 :: past)
    | _, _ => w
  | .look n now =>
    match w.store, w.trips n, w.plans n with
    | .sqlite c, t :: _, none =>
      match t.phase with
      | .reporting id (.fail message) =>
        match Sqlite.planFailure rules.retry now id message c with
        | .ok p => { w with plans := Function.update w.plans n (some p) }
        | .error _ => w
      | _ => w
    | _, _, _ => w
  | .write n =>
    match w.store, w.trips n, w.plans n with
    | .sqlite c, t :: past, some p =>
      match due : t.cycle.request? t.phase with
      | some (.fail _ _) =>
        { w.enter n (t.answered due (p.carryOut c).1 :: past) with store := .sqlite (p.carryOut c).2 }
      | _ => w
    | _, _, _ => w
  | .run n outcome =>
    match w.trips n with
    | [] => w
    | t :: past =>
      match running : t.phase with
      | .running _ => w.enter n (t.ran running outcome :: past)
      | _ => w
  | .outside now r => w.told rules none now r

/-- What a move can do. -/
inductive Moved (setup : PoolSetup) (rules : Rules) (w : Workshop) : ShopMove → Workshop → Prop where
  | nothing (m : ShopMove) : Moved setup rules w m w
  | pool (m : LifeMove) (lets : w.lets m = true) :
      Moved setup rules w (.pool m) { w with life := w.life.move setup m }
  | begun {n : Nat} (c : Cycle) (alive : n ∈ w.life.pool.alive) (rest : atRest (w.trips n) = true) :
      Moved setup rules w (.tick n c) (w.enter n (.begin c :: w.trips n))
  | asked {n : Nat} {now : Millis} {t : Trip} {past : List Trip} {r : Request}
      (here : w.trips n = t :: past) (due : t.cycle.request? t.phase = some r) :
      Moved setup rules w (.ask n now) ((w.told rules (some n) now r).enter n
        (t.answered due (AnyStore.ask rules now r w.store).1 :: past))
  | looked {n : Nat} {now : Millis} {t : Trip} {past : List Trip} {id message : String}
      {c : Connection} {p : Sqlite.PlannedFailure} (file : w.store = .sqlite c)
      (here : w.trips n = t :: past) (reporting : t.phase = .reporting id (.fail message))
      (plan : Sqlite.planFailure rules.retry now id message c = .ok p) :
      Moved setup rules w (.look n now) { w with plans := Function.update w.plans n (some p) }
  | wrote {n : Nat} {t : Trip} {past : List Trip} {id message : String} {c : Connection}
      {p : Sqlite.PlannedFailure} (file : w.store = .sqlite c) (here : w.trips n = t :: past)
      (planned : w.plans n = some p) (due : t.cycle.request? t.phase = some (.fail id message)) :
      Moved setup rules w (.write n)
        { w.enter n (t.answered due (p.carryOut c).1 :: past) with store := .sqlite (p.carryOut c).2 }
  | ran {n : Nat} {t : Trip} {past : List Trip} {job : Job} (here : w.trips n = t :: past)
      (running : t.phase = .running job) (outcome : Outcome HandlerResult) :
      Moved setup rules w (.run n outcome) (w.enter n (t.ran running outcome :: past))
  | told (now : Millis) (r : Request) :
      Moved setup rules w (.outside now r) (w.told rules none now r)

theorem moved (setup : PoolSetup) (rules : Rules) (w : Workshop) (m : ShopMove) :
    Moved setup rules w m (w.move setup rules m) := by
  cases m with
  | pool m =>
    unfold move
    dsimp only
    split
    · exact .pool m ‹_›
    · exact .nothing _
  | tick n c =>
    unfold move
    dsimp only
    split
    · rename_i h
      exact .begun c h.1 h.2
    · exact .nothing _
  | ask n now =>
    unfold move
    dsimp only
    split
    · rename_i here free
      split
      · exact .nothing _
      · exact .asked here _
    · exact .nothing _
  | look n now =>
    unfold move
    dsimp only
    split
    · rename_i file here free
      split
      · rename_i reporting
        split
        · exact .looked file here reporting ‹_›
        · exact .nothing _
      · exact .nothing _
    · exact .nothing _
  | write n =>
    unfold move
    dsimp only
    split
    · rename_i file here planned
      split
      · exact .wrote file here planned _
      · exact .nothing _
    · exact .nothing _
  | run n outcome =>
    unfold move
    dsimp only
    split
    · exact .nothing _
    · rename_i here
      split
      · exact .ran here _ outcome
      · exact .nothing _
  | outside now r => exact .told now r

/-- The storage does not break down under the loops, new jobs get fresh names, and the others leave
    the claims of the loops alone. -/
def Calm (rules : Rules) (w : Workshop) : ShopMove → Prop
  | .ask n now => ∀ t r, (w.trips n).head? = some t → t.cycle.request? t.phase = some r →
      ¬BrokeDown (AnyStore.ask rules now r w.store).1
  | .write n => ∀ c p, w.store = .sqlite c → w.plans n = some p → ¬BrokeDown (p.carryOut c).1
  | .outside _ r => (∀ id sub, r = .enqueue id sub → id ∉ w.names) ∧
      ∀ n job, InHand (w.trips n) job → r.Spares job
  | _ => True

/-! ## The invariant -/

/-- What the moves of a calm workshop preserve. -/
structure Sound (rules : Rules) (w : Workshop) : Prop where
  tidy : w.life.Tidy
  store : w.store.Sound
  named : ∀ id, w.store.job? id ≠ none → id ∈ w.names
  /-- A loop in a cycle is alive. -/
  alive : ∀ n, atRest (w.trips n) = false → n ∈ w.life.pool.alive
  past : ∀ n, ∀ t ∈ (w.trips n).tail, t.phase.isOver = true
  held : ∀ n job, InHand (w.trips n) job →
    w.store.job? job.id = some job ∧ job.status = .processing ∧ ∃ t, job.startedAt = some t
  alone : ∀ n n' job job', InHand (w.trips n) job → InHand (w.trips n') job' → job'.id = job.id →
    n' = n
  planned : ∀ n p, w.plans n = some p → Planned rules.retry (w.trips n) p
  settled : ∀ n job, ∀ t ∈ w.trips n, t.phase.isOver = true → t.claim? = some job →
    t.Settles job ∧ job.id ∈ w.names ∧ Ended job.attempts (w.store.job? job.id)
  claimed : ∀ n job, (some n, job) ∈ w.claims → ∃ t ∈ w.trips n, t.claim? = some job
  working : ∀ id j, w.store.job? id = some j → j.status = .processing → ∃ who, (who, j) ∈ w.claims

section
variable {rules : Rules} {setup : PoolSetup} {w : Workshop}

/-- A pool that was not started yet, on a store with the given names and claims. -/
theorem sound_start {s : AnyStore} (store : s.Sound) {names : List String} {claims : List Job}
    (named : ∀ id, s.job? id ≠ none → id ∈ names)
    (working : ∀ id j, s.job? id = some j → j.status = .processing → j ∈ claims) :
    Sound rules { store := s, names := names, claims := claims.map (none, ·) } where
  tidy := Life.tidy_new
  store := store
  named := named
  alive n h := by cases h
  past n t h := by cases h
  held n job h := by obtain ⟨t, ht, -⟩ := h; cases ht
  alone n n' job job' h := by obtain ⟨t, ht, -⟩ := h; cases ht
  planned n p h := by cases h
  settled n job t h := by cases h
  claimed n job h := by
    obtain ⟨job', -, he⟩ := List.mem_map.1 h
    cases he
  working id j hj hb := ⟨none, List.mem_map_of_mem (working id j hj hb)⟩

theorem Sound.over_of_atRest (hs : w.Sound rules) {n : Nat} (rest : atRest (w.trips n) = true) :
    ∀ t ∈ w.trips n, t.phase.isOver = true := by
  have hpast := hs.past n
  cases h : w.trips n with
  | nil => exact fun t ht => by cases ht
  | cons t past =>
    rw [h] at rest hpast
    intro t' ht
    rcases List.mem_cons.1 ht with rfl | ht
    · exact rest
    · exact hpast t' ht

/-- A loop that is alive stays so, unless it ends. -/
theorem alive_move {l : Life} {m : LifeMove} {n : Nat} (h : n ∈ l.pool.alive) (hm : m ≠ .ends n) :
    n ∈ (l.move setup m).pool.alive := by
  generalize hl : l.move setup m = l'
  cases hl ▸ Life.moved setup l m with
  | started => exact List.mem_append_left _ h
  | ended loop =>
    refine List.mem_filter.2 ⟨h, ?_⟩
    simpa using fun he : n = loop => hm (by rw [he])
  | settled =>
    show n ∈ l.pool.settle.alive
    rw [Pool.alive_settle]
    exact h
  | nothing | stopped | signalled | answered | left | parent => exact h

theorem Sound.pool (hs : w.Sound rules) {m : LifeMove} (lets : w.lets m = true) :
    Sound rules { w with life := w.life.move setup m } :=
  { hs with
    tidy := hs.tidy.move m
    alive := by
      intro n hn
      refine alive_move (hs.alive n hn) ?_
      rintro rfl
      exact absurd lets (by simpa [Workshop.lets] using hn) }

/-- A loop that has looked at a failure still has its plan, unless it has gone on. -/
theorem planned_update (hs : w.Sound rules) {n n' : Nat} (trips : List Trip)
    {p : Sqlite.PlannedFailure} (h : Function.update w.plans n none n' = some p) :
    Planned rules.retry (Function.update w.trips n trips n') p := by
  rw [Function.update_apply] at h
  split at h
  · cases h
  · rw [Function.update_of_ne ‹_›]
    exact hs.planned n' p h

/-- A loop that is alive enters a phase in which it has no other job. -/
theorem Sound.enter (hs : w.Sound rules) {n : Nat} {t : Trip} {past : List Trip}
    (alive : n ∈ w.life.pool.alive) (under : t.phase.isOver = false)
    (before : ∀ t' ∈ past, t'.phase.isOver = true ∧ t' ∈ w.trips n)
    (held : ∀ job, t.Holds job → InHand (w.trips n) job)
    (claims : ∀ job, ∀ t' ∈ w.trips n, t'.claim? = some job → ∃ t'' ∈ t :: past, t''.claim? = some job) :
    (w.enter n (t :: past)).Sound rules := by
  have trips : ∀ n', (w.enter n (t :: past)).trips n' = if n' = n then t :: past else w.trips n' :=
    Function.update_apply w.trips n (t :: past)
  have hand : ∀ n' job, InHand ((w.enter n (t :: past)).trips n') job → InHand (w.trips n') job := by
    intro n' job h
    rw [trips] at h
    split at h
    · subst n'
      obtain ⟨t', ht, h⟩ := h
      obtain rfl := Option.some.inj ht
      exact held job h
    · exact h
  refine
    { tidy := hs.tidy, store := hs.store, named := hs.named, alive := ?alive, past := ?past,
      held := fun n' job h => hs.held n' job (hand n' job h)
      alone := fun n₁ n₂ job₁ job₂ h₁ h₂ =>
        hs.alone n₁ n₂ job₁ job₂ (hand n₁ job₁ h₁) (hand n₂ job₂ h₂)
      planned := fun n' p hp => planned_update hs _ hp
      settled := ?settled, claimed := ?claimed, working := hs.working }
  case alive =>
    intro n' hrest
    rw [trips] at hrest
    split at hrest
    · subst n'
      exact alive
    · exact hs.alive n' hrest
  case past =>
    intro n' t' ht
    rw [trips] at ht
    split at ht
    · exact (before t' ht).1
    · exact hs.past n' t' ht
  case settled =>
    intro n' job t' ht ended
    rw [trips] at ht
    split at ht
    · subst n'
      rcases List.mem_cons.1 ht with rfl | ht
      · rw [under] at ended; cases ended
      · exact hs.settled n job t' (before t' ht).2 ended
    · exact hs.settled n' job t' ht ended
  case claimed =>
    intro n' job h
    obtain ⟨t', ht, hc⟩ := hs.claimed n' job h
    rw [trips]
    split
    · subst n'
      exact claims job t' ht hc
    · exact ⟨t', ht, hc⟩

/-- A request to the store. -/
theorem Sound.told (hs : w.Sound rules) (who : Option Nat) (now : Millis) {r : Request}
    {trips : Nat → List Trip} {plans : Nat → Option Sqlite.PlannedFailure}
    (fresh : ∀ id sub, r = .enqueue id sub → id ∉ w.names)
    (alive : ∀ n, atRest (trips n) = false → n ∈ w.life.pool.alive)
    (past : ∀ n, ∀ t ∈ (trips n).tail, t.phase.isOver = true)
    (held : ∀ n job, InHand (trips n) job → InHand (w.trips n) job ∧ r.Spares job ∨
      who = some n ∧ r.claimed? (AnyStore.ask rules now r w.store).1 = some job)
    (planned : ∀ n p, plans n = some p → Planned rules.retry (trips n) p)
    (settled : ∀ n job, ∀ t ∈ trips n, t.phase.isOver = true → t.claim? = some job →
      t ∈ w.trips n ∨ InHand (w.trips n) job ∧ r.reports? = some job.id ∧
        ¬BrokeDown (AnyStore.ask rules now r w.store).1 ∧
        ((∃ v, (AnyStore.ask rules now r w.store).1 = .ok v) → t.Settles job))
    (claimed : ∀ n job, (some n, job) ∈ (w.told rules who now r).claims →
      ∃ t ∈ trips n, t.claim? = some job) :
    Sound rules { w.told rules who now r with trips := trips, plans := plans } := by
  have hfresh : ∀ id sub, r = .enqueue id sub → w.store.job? id = none := by
    intro id sub he
    by_contra hn
    exact fresh id sub he (hs.named id hn)
  obtain ⟨store, keeps⟩ := hs.store.ask rules now hfresh
  -- a job that is claimed was pending, so no loop had it
  have hold : ∀ n job job', InHand (w.trips n) job →
      r.claimed? (AnyStore.ask rules now r w.store).1 = some job' → job'.id ≠ job.id := by
    intro n job job' h hc he
    obtain ⟨⟨j, hj, hp⟩, -⟩ := keeps.claimed job' hc
    obtain ⟨hx, hb, -⟩ := hs.held n job h
    rw [he, hx] at hj
    rw [← Option.some.inj hj, hb] at hp
    cases hp
  refine
    { tidy := hs.tidy, store, named := ?named, alive, past, held := ?held, alone := ?alone, planned,
      settled := ?settled, claimed, working := ?working }
  case named =>
    intro id hid
    by_cases hen : ∃ sub, r = .enqueue id sub
    · obtain ⟨sub, rfl⟩ := hen
      exact List.mem_cons_self
    · refine List.mem_append_right _ (hs.named id fun hn => hid ?_)
      exact (keeps.goes id fun sub he => hen ⟨sub, he⟩).gone hn
  case held =>
    intro n job h
    rcases held n job h with ⟨h, spares⟩ | ⟨-, hc⟩
    · obtain ⟨hx, hb, t, ht⟩ := hs.held n job h
      exact ⟨keeps.spared job t hx hb ht spares, hb, t, ht⟩
    · exact (keeps.claimed job hc).2
  case alone =>
    intro n n' job job' h h' he
    rcases held n job h with ⟨h, -⟩ | ⟨hw, hc⟩ <;> rcases held n' job' h' with ⟨h', -⟩ | ⟨hw', hc'⟩
    · exact hs.alone n n' job job' h h' he
    · exact absurd he (hold n job job' h hc')
    · exact absurd he.symm (hold n' job' job h' hc)
    · exact Option.some.inj (hw'.symm.trans hw)
  case settled =>
    intro n job t ht ended hc
    rcases settled n job t ht ended hc with ht | ⟨h, hid, calm, hsettles⟩
    · obtain ⟨hst, hname, hended⟩ := hs.settled n job t ht ended hc
      -- the name of a job that has ended is not given again, so it stays so
      exact ⟨hst, List.mem_append_right _ hname,
        (keeps.goes job.id fun sub he => fresh _ _ he hname).ended _ hended⟩
    · obtain ⟨hx, hb, -⟩ := hs.held n job h
      obtain ⟨hok, hended⟩ | broke := keeps.reported job.id job hid hx hb
      · exact ⟨hsettles hok, List.mem_append_right _ (hs.named _ (by simp [hx])), hended⟩
      · exact absurd broke calm
  case working =>
    intro id j hj hb
    rcases keeps.working id j hj hb with hx | hc
    · obtain ⟨who', hw⟩ := hs.working id j hx hb
      exact ⟨who', List.mem_append_right _ hw⟩
    · exact ⟨who, List.mem_append_left _ (by simp [hc])⟩

/-- A loop asks nothing that concerns the claims of other loops. -/
theorem Sound.spares_others (hs : w.Sound rules) {n : Nat} {t : Trip} {past : List Trip} {r : Request}
    (here : w.trips n = t :: past) (due : t.cycle.request? t.phase = some r) {n' : Nat} (hne : n' ≠ n)
    {job : Job} (h : InHand (w.trips n') job) : r.Spares job := by
  rcases t.spares_of_due due with ⟨-, spares⟩ | ⟨job', h', hid⟩
  · exact spares job
  · refine Request.spares_of_reports hid fun he => hne ?_
    exact hs.alone n n' job' job ⟨t, by rw [here]; rfl, h'⟩ h he.symm

theorem mem_claims_told {who : Option Nat} {now : Millis} {r : Request} {n : Nat} {job : Job}
    (h : (some n, job) ∈ (w.told rules who now r).claims) :
    who = some n ∧ r.claimed? (AnyStore.ask rules now r w.store).1 = some job ∨
      (some n, job) ∈ w.claims := by
  rcases List.mem_append.1 h with h | h
  · obtain ⟨job', hc, he⟩ := List.mem_map.1 h
    obtain ⟨hw, rfl⟩ := Prod.mk.inj he
    exact .inl ⟨hw, Option.mem_toList.1 hc⟩
  · exact .inr h

/-- A request of a loop. -/
theorem Sound.asked (hs : w.Sound rules) (now : Millis) {n : Nat} {t : Trip} {past : List Trip}
    {r : Request} (here : w.trips n = t :: past) (due : t.cycle.request? t.phase = some r)
    (calm : ¬BrokeDown (AnyStore.ask rules now r w.store).1) :
    Sound rules ((w.told rules (some n) now r).enter n
      (t.answered due (AnyStore.ask rules now r w.store).1 :: past)) := by
  have head : (w.trips n).head? = some t := by rw [here]; rfl
  refine hs.told (some n) now ?fresh ?alive ?past ?held (fun n' p hp => planned_update hs _ hp)
    ?settled ?claimed
  case fresh =>
    intro id sub he
    exact absurd he (ne_enqueue_of_due due id sub)
  case alive =>
    intro n' hrest
    rw [Function.update_apply] at hrest
    split at hrest
    · subst n'
      refine hs.alive n ?_
      rw [here]
      exact Cycle.not_over_of_due due
    · exact hs.alive n' hrest
  case past =>
    intro n' t' ht
    rw [Function.update_apply] at ht
    split at ht
    · refine hs.past n t' ?_
      rw [here]
      exact ht
    · exact hs.past n' t' ht
  case held =>
    intro n' job h
    rw [Function.update_apply] at h
    split at h
    · subst n'
      obtain ⟨t', ht, h⟩ := h
      obtain rfl := Option.some.inj ht
      rcases Trip.holds_answered due h with ⟨h, spares⟩ | hc
      · exact .inl ⟨⟨t, head, h⟩, spares⟩
      · exact .inr ⟨rfl, hc⟩
    · exact .inl ⟨h, hs.spares_others here due ‹_› h⟩
  case settled =>
    intro n' job t' ht ended hc
    rw [Function.update_apply] at ht
    split at ht
    · subst n'
      rcases List.mem_cons.1 ht with rfl | ht
      · obtain ⟨h, hid, hsettles⟩ := Trip.over_answered due ended hc
        exact .inr ⟨⟨t, head, h⟩, hid, calm, hsettles⟩
      · exact .inl (by rw [here]; exact List.mem_cons_of_mem _ ht)
    · exact .inl ht
  case claimed =>
    intro n' job h
    rw [Function.update_apply]
    split
    · subst n'
      rcases mem_claims_told h with ⟨-, hc⟩ | h
      · exact ⟨_, List.mem_cons_self, Trip.claim?_answered_of_claimed due _ hc⟩
      · obtain ⟨t', ht, hc⟩ := hs.claimed n job h
        rw [here] at ht
        rcases List.mem_cons.1 ht with rfl | ht
        · exact ⟨_, List.mem_cons_self, Trip.claim?_answered_of_some due _ hc⟩
        · exact ⟨t', List.mem_cons_of_mem _ ht, hc⟩
    · rename_i hne
      rcases mem_claims_told h with ⟨he, -⟩ | h
      · exact absurd (Option.some.inj he).symm hne
      · exact hs.claimed n' job h

theorem Sound.looked (hs : w.Sound rules) {n : Nat} {now : Millis} {t : Trip} {past : List Trip}
    {id message : String} {c : Connection} {p : Sqlite.PlannedFailure} (file : w.store = .sqlite c)
    (here : w.trips n = t :: past) (reporting : t.phase = .reporting id (.fail message))
    (plan : Sqlite.planFailure rules.retry now id message c = .ok p) :
    Sound rules { w with plans := Function.update w.plans n (some p) } := by
  refine { hs with planned := fun n' p' hp => ?_ }
  simp only [Function.update_apply] at hp
  split at hp
  · subst n'
    obtain rfl := Option.some.inj hp
    have head : (w.trips n).head? = some t := by rw [here]; rfl
    have due : t.cycle.request? t.phase = some (.fail id message) := by rw [reporting]; rfl
    rcases t.spares_of_due due with ⟨hnone, -⟩ | ⟨job, h, hid⟩
    · cases hnone
    · obtain ⟨hx, -⟩ := hs.held n job ⟨t, head, h⟩
      have store := hs.store
      rw [file] at hx store
      cases store with
      | sqlite table =>
        obtain ⟨job', -, hrow, hpid, -, hmessage, plans⟩ := Sqlite.planFailure_ok table plan
        obtain rfl : id = job.id := Option.some.inj hid
        rw [AnyStore.job?_sqlite table] at hx
        obtain rfl : job = job' := Option.some.inj (hx.symm.trans hrow)
        exact ⟨t, job, head, h, by rw [reporting, hpid, hmessage], plans⟩
  · exact hs.planned n' p' hp

/-- What was planned is what a report at once would do. -/
theorem Sound.wrote (hs : w.Sound rules) {n : Nat} {t : Trip} {past : List Trip}
    {id message : String} {c : Connection} {p : Sqlite.PlannedFailure} (file : w.store = .sqlite c)
    (here : w.trips n = t :: past) (planned : w.plans n = some p)
    (due : t.cycle.request? t.phase = some (.fail id message)) (calm : ¬BrokeDown (p.carryOut c).1) :
    Sound rules
      { w.enter n (t.answered due (p.carryOut c).1 :: past) with store := .sqlite (p.carryOut c).2 } := by
  obtain ⟨t', job, ht, h, reporting, plans⟩ := hs.planned n p planned
  obtain rfl : t = t' := by rw [here] at ht; exact Option.some.inj ht
  obtain ⟨rfl, rfl⟩ : p.id = id ∧ p.message = message := by
    have := due
    rw [reporting] at this
    exact Request.fail.inj (Option.some.inj this)
  have hfail : Sqlite.fail rules.retry p.now p.id p.message c = p.carryOut c := by
    obtain ⟨hx, -⟩ := hs.held n job ⟨t, ht, h⟩
    have store := hs.store
    rw [file] at hx store
    cases store with
    | sqlite table =>
      rw [AnyStore.job?_sqlite table, ← plans.id] at hx
      exact plans.fail_eq table hx
  have hask : AnyStore.ask rules p.now (.fail p.id p.message) w.store =
      ((p.carryOut c).1, .sqlite (p.carryOut c).2) := by
    rw [file, ← hfail]
    rfl
  have hs' := hs.asked p.now here due (by rw [hask]; exact calm)
  simp only [Workshop.told, hask] at hs'
  exact hs'

theorem Sound.move (hs : w.Sound rules) {m : ShopMove} (calm : Calm rules w m) :
    (w.move setup rules m).Sound rules := by
  generalize hw : w.move setup rules m = w'
  cases hw ▸ moved setup rules w m with
  | nothing => exact hs
  | pool m lets => exact hs.pool lets
  | @begun n c alive rest =>
    refine hs.enter alive rfl (fun t ht => ⟨hs.over_of_atRest rest t ht, ht⟩) (fun job h => ?_)
      fun job t ht hc => ⟨t, List.mem_cons_of_mem _ ht, hc⟩
    cases h.1
  | asked here due => exact hs.asked _ here due (calm _ _ (by rw [here]; rfl) due)
  | looked file here reporting plan => exact hs.looked file here reporting plan
  | wrote file here planned due => exact hs.wrote file here planned due (calm _ _ file planned)
  | @ran n t past job here running outcome =>
    refine hs.enter (hs.alive n ?_) (Cycle.busy_afterRun ..).2 (fun t' ht => ⟨hs.past n t' ?_, ?_⟩)
      (fun job' h => ⟨t, by rw [here]; rfl, Trip.holds_ran h⟩) fun job' t' ht hc => ?_
    · rw [here]
      show t.phase.isOver = false
      rw [running]
      rfl
    · rw [here]
      exact ht
    · rw [here]
      exact List.mem_cons_of_mem _ ht
    · rw [here] at ht
      rcases List.mem_cons.1 ht with rfl | ht
      · exact ⟨_, List.mem_cons_self, (Trip.claim?_ran running outcome).trans hc⟩
      · exact ⟨t', List.mem_cons_of_mem _ ht, hc⟩
  | told now r =>
    refine hs.told none now calm.1 hs.alive hs.past (fun n job h => .inl ⟨h, calm.2 n job h⟩)
      hs.planned (fun n job t ht _ _ => .inl ht) fun n job h => ?_
    rcases mem_claims_told h with ⟨he, -⟩ | h
    · cases he
    · exact hs.claimed n job h

/-! ## Runs -/

/-- The workshops that one can become by calm moves. -/
inductive Run (setup : PoolSetup) (rules : Rules) (w₀ : Workshop) : Workshop → Prop where
  | start : Run setup rules w₀ w₀
  | next {w : Workshop} (past : Run setup rules w₀ w) (m : ShopMove) (calm : Calm rules w m) :
      Run setup rules w₀ (w.move setup rules m)

/-- Calm moves one after the other. -/
def Follows (setup : PoolSetup) (rules : Rules) : Workshop → List ShopMove → Prop
  | _, [] => True
  | w, m :: moves => Calm rules w m ∧ Follows setup rules (w.move setup rules m) moves

theorem Run.follow {w₀ : Workshop} (run : Run setup rules w₀ w) (moves : List ShopMove)
    (h : Follows setup rules w moves) : Run setup rules w₀ (moves.foldl (move setup rules) w) := by
  induction moves generalizing w with
  | nil => exact run
  | cons m moves ih => exact ih (run.next m h.1) h.2

theorem Run.sound {w₀ : Workshop} (run : Run setup rules w₀ w) (start : w₀.Sound rules) :
    w.Sound rules := by
  induction run with
  | start => exact start
  | next past m calm ih => exact ih.move calm

/-- **A stopped pool leaves nothing open.**  When a stop of a generation has answered, or the pool is
    stopped, every claim of a loop of the generation has been reported on, with what came of it, and
    the report was accepted.  A job that is being processed nevertheless is in a later attempt, which
    somebody else has claimed. -/
theorem stops_leave_nothing_open {s : AnyStore} (store : s.Sound) (names : List String)
    (claims : List Job) (named : ∀ id, s.job? id ≠ none → id ∈ names)
    (working : ∀ id j, s.job? id = some j → j.status = .processing → j ∈ claims)
    (run : Run setup rules { store := s, names := names, claims := claims.map (none, ·) } w)
    {g : Nat} (stopped : w.life.pool.status = .stopped ∨
      ∃ c ∈ w.life.stops, c.generation = g ∧ c.stage = .answered) :
    ∀ n ∈ w.life.loopsOf g, n ∉ w.life.pool.alive ∧ (∀ t ∈ w.trips n, t.phase.isOver = true) ∧
      ∀ job, (some n, job) ∈ w.claims →
        (∃ t ∈ w.trips n, t.claim? = some job ∧ ∃ admission outcome counted,
          t.acts = t.cycle.errand job admission outcome counted (.ok ())) ∧
        ∀ j, w.store.job? job.id = some j →
          j.status = .completed ∨ j.status = .failed ∨ j.status = .pending ∨
            job.attempts < j.attempts ∧ ∃ who, (who, j) ∈ w.claims ∧
              ∀ n' ∈ w.life.loopsOf g, who ≠ some n' := by
  have hs : w.Sound rules := run.sound (sound_start store named working)
  have ended : ∀ n ∈ w.life.loopsOf g, n ∉ w.life.pool.alive := by
    intro n hn
    rcases stopped with hstopped | ⟨c, hc, rfl, answered⟩
    · rw [(hs.tidy.stopped hstopped).1]
      exact List.not_mem_nil
    · exact hs.tidy.ended c hc (hs.tidy.answered c hc answered) n hn
  have hover : ∀ n ∈ w.life.loopsOf g, ∀ t ∈ w.trips n, t.phase.isOver = true := by
    intro n hn
    refine hs.over_of_atRest ?_
    by_contra hrest
    exact ended n hn (hs.alive n (Bool.eq_false_iff.2 hrest))
  have hsettled : ∀ n ∈ w.life.loopsOf g, ∀ job, (some n, job) ∈ w.claims →
      ∃ t ∈ w.trips n, t.claim? = some job ∧ t.Settles job ∧
        Ended job.attempts (w.store.job? job.id) := by
    intro n hn job hc
    obtain ⟨t, ht, hclaim⟩ := hs.claimed n job hc
    obtain ⟨hsettles, -, hended⟩ := hs.settled n job t ht (hover n hn t ht) hclaim
    exact ⟨t, ht, hclaim, hsettles, hended⟩
  refine fun n hn => ⟨ended n hn, hover n hn, fun job hc => ?_⟩
  obtain ⟨t, ht, hclaim, hsettles, hended⟩ := hsettled n hn job hc
  refine ⟨⟨t, ht, hclaim, hsettles⟩, fun j hj => ?_⟩
  cases hb : j.status with
  | completed => exact .inl rfl
  | failed => exact .inr (.inl rfl)
  | pending => exact .inr (.inr (.inl rfl))
  | processing =>
    refine .inr (.inr (.inr ?_))
    rcases hended j hj with hlt | ⟨-, hne⟩
    · obtain ⟨who, hw⟩ := hs.working job.id j hj hb
      refine ⟨hlt, who, hw, ?_⟩
      -- what a loop of the generation has claimed is not being processed
      rintro n' hn' rfl
      obtain ⟨-, -, -, -, hended'⟩ := hsettled n' hn' j hw
      rw [hs.store.id_eq hj, hj] at hended'
      exact absurd rfl (hended'.ne hb)
    · exact absurd hb hne

theorem calm_ask {w : Workshop} {n : Nat} {now : Millis} {r : Request}
    (due : (w.trips n).head?.map (fun t => t.cycle.request? t.phase) = some (some r))
    (ok : (AnyStore.ask rules now r w.store).1.toBool = true) : Calm rules w (.ask n now) := by
  rintro t r' ht due' ⟨f, hf, -⟩
  rw [ht, Option.map_some, due'] at due
  obtain rfl := Option.some.inj (Option.some.inj due)
  rw [hf] at ok
  cases ok

end

/-- A pool of one loop is stopped while the loop has a job. -/
def inFlightMoves : List ShopMove :=
  [.outside 0 (.enqueue "a" ⟨"q", "t", "o", .empty, {}⟩), .pool .start,
    .tick 0 ⟨"w", .any, false, fun _ => true⟩, .ask 0 1, .pool .stop, .pool (.signal 0),
    .pool (.ends 0), .pool .settle, .run 0 (.success (.ok none)), .ask 0 2, .pool (.ends 0),
    .pool .settle, .pool (.answer 0)]

/-- The pool after some of these moves, on a volatile store. -/
def inFlight (n : Nat) : Workshop :=
  (inFlightMoves.take n).foldl (move { workerCount := 1 } .default)
    { store := .volatile .empty, names := [], claims := [] }

theorem run_inFlight : Run { workerCount := 1 } .default (inFlight 0) (inFlight 13) := by
  have h₁ : Calm .default (inFlight 0) (.outside 0 (.enqueue "a" ⟨"q", "t", "o", .empty, {}⟩)) :=
    ⟨fun _ _ _ => List.not_mem_nil, fun _ _ _ => trivial⟩
  have h₄ : Calm .default (inFlight 3) (.ask 0 1) := calm_ask (r := .dequeue "w" .any) rfl (by decide)
  have h₁₀ : Calm .default (inFlight 9) (.ask 0 2) := calm_ask (r := .complete "a" none) rfl (by decide)
  exact Run.start.follow inFlightMoves ⟨h₁, trivial, trivial, h₄, trivial, trivial, trivial, trivial,
    trivial, h₁₀, trivial, trivial, trivial, trivial⟩

/-- The stop waits for the report on the job. -/
theorem stops_leave_nothing_open_inFlight :
    (inFlight 8).life.pool.status = .stopping ∧ (inFlight 8).life.pool.alive = [0] ∧
      (inFlight 13).life.stops = [⟨0, .answered⟩] ∧
      ∃ job, (some 0, job) ∈ (inFlight 13).claims ∧
        ∃ t ∈ (inFlight 13).trips 0, ∃ admission outcome counted,
          t.acts = t.cycle.errand job admission outcome counted (.ok ()) := by
  have hstop : (⟨0, .answered⟩ : StopCall) ∈ (inFlight 13).life.stops := by decide
  obtain ⟨-, -, h⟩ := stops_leave_nothing_open (.volatile Volatile.valid_empty) [] []
    (fun id h => absurd rfl h) (fun id j h => by cases h) run_inFlight (.inr ⟨_, hstop, rfl, rfl⟩) 0
    (by decide)
  have hclaim : (some 0, (Job.new "a" 0 "q" "t" "o" .empty).taken 1 "w" 1) ∈ (inFlight 13).claims := by
    decide
  obtain ⟨⟨t, ht, -, hacts⟩, -⟩ := h _ hclaim
  exact ⟨by decide, by decide, by decide, _, hclaim, t, ht, hacts⟩

end Workshop

end JobQueue
