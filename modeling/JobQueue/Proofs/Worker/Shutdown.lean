/-
  Telling worker loops to stop.

  Between two cycles a loop looks at the signal of its pool, then at the one
  that its pool was started with, and then takes a tick if one is due; only
  then does it ask for a job.  Others come in between all of these steps
  (`Point.Next`).  A signal is a state and not an event: once it is sent, every
  token of its channel shows it for good.

  A `Shift` is any number of pools with their loops, and the channels that they
  listen to, whoever has the senders.  What a loop is answered by the store,
  and how its handlers end, is left open.  After a signal the turns that are
  left to a loop run out (`Point.left`), and with them its requests for a job
  (`Point.asks`): at most one, by a loop that was past its look at the signal
  (`signals_end_loops`).
-/
import JobQueue.Proofs.Worker.Course
import JobQueue.Proofs.Worker.Generations

namespace JobQueue

/-! ## Loops -/

/-- Where a worker loop is. -/
inductive Point where
  /-- About to look at the signal of its pool. -/
  | own
  /-- About to look at the signal that its pool was started with. -/
  | parent
  /-- About to take a tick. -/
  | tick
  | cycle (p : Phase)
  /-- It has ended, because it was told to stop. -/
  | told
  /-- It has ended, because the storage broke off. -/
  | broke
  deriving DecidableEq

namespace Point

def isOver : Point → Bool
  | told | broke => true
  | _ => false

def inCycle : Point → Bool
  | cycle _ => true
  | _ => false

/-- Where a loop is when its cycle comes to a phase. -/
def ofPhase : Phase → Point
  | .finished _ => own
  | .broken => broke
  | p => cycle p

/-- The turns of a loop, by whether the two signals are sent. -/
inductive Next (own parent : Bool) : Point → Point → Prop where
  | stops (sent : own = true) : Next own parent .own .told
  | passes (unsent : own = false) : Next own parent .own .parent
  | stopsLate (sent : parent = true) : Next own parent .parent .told
  | passesLate (unsent : parent = false) : Next own parent .parent .tick
  /-- No tick is due, and the loop is woken later. -/
  | waits : Next own parent .tick .own
  | begins : Next own parent .tick (.cycle .claiming)
  /-- The request of its phase is answered. -/
  | asks (c : Cycle) {p : Phase} {r : Request} (due : c.request? p = some r)
      (a : Except Failure r.Answer) : Next own parent (.cycle p) (ofPhase (c.answered p r a))
  /-- Its handler ends. -/
  | runs (c : Cycle) (job : Job) (outcome : Outcome HandlerResult) :
      Next own parent (.cycle (.running job)) (ofPhase (c.afterRun job outcome))

/-- A loop in a cycle has something left to do. -/
def Proper : Point → Prop
  | cycle p => p.left ≠ 0
  | _ => True

/-- The turns that are left to a loop at most, once one of its signals is sent. -/
def left (own parent : Bool) : Point → Nat
  | .own => if own then 1 else 2
  | .parent => if parent then 1 else 10
  | .tick => 9
  | .cycle p => p.left + 3
  | .told | .broke => 0

/-- Can the loop still ask for a job, once one of its signals is sent?  It can if it has looked in
    vain, and has not asked yet. -/
def asks (parent : Bool) : Point → Bool
  | .tick | .cycle .claiming => true
  | .parent => !parent
  | _ => false

section
variable {own parent own' parent' : Bool} {x y : Point} {p : Phase}

theorem proper_ofPhase (p : Phase) : (ofPhase p).Proper := by
  cases p <;> simp [ofPhase, Proper, Phase.left]

theorem left_ofPhase (own parent : Bool) (p : Phase) : (ofPhase p).left own parent ≤ p.left + 3 := by
  cases p <;> cases own <;> simp [ofPhase, left, Phase.left]

/-- A cycle does not begin anew. -/
theorem asks_ofPhase (h : p.left < 5) : (ofPhase p).asks parent = false := by
  cases p with
  | claiming => exact absurd h (by decide)
  | _ => rfl

theorem ofPhase_ne_told (p : Phase) : ofPhase p ≠ .told := by
  cases p <;> simp [ofPhase]

theorem Next.proper (h : Next own parent x y) : y.Proper := by
  cases h with
  | asks | runs => exact proper_ofPhase _
  | begins => exact Nat.succ_ne_zero 4
  | stops | passes | stopsLate | passesLate | waits => trivial

/-- A loop that has not ended has a turn. -/
theorem exists_next (proper : x.Proper) (under : x.isOver = false) : ∃ y, Next own parent x y := by
  cases x with
  | own =>
    cases own with
    | true => exact ⟨_, .stops rfl⟩
    | false => exact ⟨_, .passes rfl⟩
  | parent =>
    cases parent with
    | true => exact ⟨_, .stopsLate rfl⟩
    | false => exact ⟨_, .passesLate rfl⟩
  | tick => exact ⟨_, .waits⟩
  | cycle p =>
    let c : Cycle := ⟨"", .any, true, fun _ => true⟩
    cases p with
    | running job => exact ⟨_, .runs c job .cancelled⟩
    | claiming => exact ⟨_, .asks c rfl (.ok none)⟩
    | admitting job => exact ⟨_, .asks c rfl (.ok true)⟩
    | counting job result => exact ⟨_, .asks c rfl (.ok ())⟩
    | reporting id report => cases report <;> exact ⟨_, .asks c rfl (.ok ())⟩
    | finished | broken => exact absurd rfl proper
  | told | broke => cases under

/-- A loop ends its cycle before it is told. -/
theorem Next.told (h : Next own parent x .told) : own = true ∨ parent = true := by
  generalize hy : Point.told = y at h
  cases h with
  | stops sent => exact .inl sent
  | stopsLate sent => exact .inr sent
  | asks | runs => exact absurd hy.symm (ofPhase_ne_told _)
  | passes | passesLate | waits | begins => cases hy

/-- **A turn makes less of what is left.** -/
theorem Next.left_lt (h : Next own parent x y) (sent : own = true ∨ parent = true) :
    y.left own parent < x.left own parent := by
  cases h with
  | stops h => simp [left, h]
  | passes h =>
    have hparent : parent = true := by simpa [h] using sent
    simp [left, h, hparent]
  | stopsLate h => simp [left, h]
  | passesLate h => simp [left, h]
  | waits => cases own <;> simp [left]
  | begins => simp [left, Phase.left]
  | asks c due a =>
    have hleft := Cycle.left_answered due a
    exact (left_ofPhase own parent _).trans_lt (Nat.add_lt_add_right hleft 3)
  | runs c job outcome =>
    have hleft := Cycle.left_afterRun c job outcome
    exact (left_ofPhase own parent _).trans_lt (Nat.add_lt_add_right hleft 3)

/-- So does a further signal. -/
theorem left_mono (hown : own = true → own' = true) (hparent : parent = true → parent' = true) :
    x.left own' parent' ≤ x.left own parent := by
  cases x with
  | own => cases own <;> cases own' <;> simp_all [left]
  | parent => cases parent <;> cases parent' <;> simp_all [left]
  | tick | cycle | told | broke => exact Nat.le_refl _

theorem left_le (x : Point) (own parent : Bool) : x.left own parent ≤ 10 := by
  cases x with
  | cycle p =>
    have := p.left_le
    simp only [left]
    omega
  | own | parent =>
    simp only [left]
    split <;> omega
  | tick | told | broke => simp [left]

theorem isOver_of_left (proper : x.Proper) (h : x.left own parent = 0) : x.isOver = true := by
  cases x with
  | told | broke => rfl
  | own => cases own <;> simp [left] at h
  | parent => cases parent <;> simp [left] at h
  | tick | cycle => simp [left] at h

/-- **A turn with a request for a job is the last one.** -/
theorem Next.asks_le (h : Next own parent x y) (sent : own = true ∨ parent = true) :
    (if x = .cycle .claiming then 1 else 0) + (y.asks parent).toNat ≤ (x.asks parent).toNat := by
  cases h with
  | stops | stopsLate | begins | waits => simp [Point.asks]
  | passes h =>
    have hparent : parent = true := by simpa [h] using sent
    simp [Point.asks, hparent]
  | passesLate h => simp [Point.asks, h]
  | @asks c p r due a =>
    have hleft := Cycle.left_answered due a
    rw [asks_ofPhase (hleft.trans_le p.left_le)]
    cases p <;> simp [Point.asks]
  | runs c job outcome =>
    rw [asks_ofPhase ((Cycle.left_afterRun c job outcome).trans (by decide))]
    simp

theorem asks_mono (hparent : parent = true → parent' = true) :
    (x.asks parent').toNat ≤ (x.asks parent).toNat := by
  cases x with
  | parent => cases parent <;> cases parent' <;> simp_all [asks]
  | cycle p => cases p <;> exact Nat.le_refl _
  | own | tick | told | broke => exact Nat.le_refl _

end

end Point

/-- A worker asks for a job in the phase in which it claims, and in no other. -/
theorem Cycle.asksForJob_iff {c : Cycle} {p : Phase} {r : Request} (due : c.request? p = some r) :
    (∃ worker queues, r = .dequeue worker queues) ↔ p = .claiming := by
  constructor
  · rintro ⟨worker, queues, rfl⟩
    cases p with
    | claiming => rfl
    | reporting id report => cases report <;> cases due
    | _ => cases due
  · rintro rfl
    exact ⟨c.worker, c.queues, (Option.some.inj due).symm⟩

/-- A worker loop of one of the pools `π`. -/
structure Listener (π : Type) where
  pool : π
  number : Nat
  /-- The channels that it listens to. -/
  own : Nat
  parent : Nat
  point : Point := .own
  /-- How often it asked for a job (`Cycle.asksForJob_iff`). -/
  dequeues : Nat := 0
  /-- The cycles that it began. -/
  begun : Nat := 0
  /-- The cycles that it finished. -/
  finished : Nat := 0

/-- The loop after a turn. -/
def Listener.goOn {π : Type} (x : Point) (l : Listener π) : Listener π :=
  { l with
    point := x
    dequeues := l.dequeues + if l.point = .cycle .claiming then 1 else 0
    begun := l.begun + if l.point = .tick ∧ x.inCycle then 1 else 0
    finished := l.finished + if l.point.inCycle ∧ x = .own then 1 else 0 }

/-! ## Shifts -/

/-- Pools with their loops, and the channels that they listen to. -/
structure Shift (π : Type) where
  signals : List Signal
  /-- The channel of each token. -/
  tokens : List Nat
  pool : π → Pool
  /-- The channel whose sender a pool has. -/
  sender : π → Option Nat
  loops : List (Listener π)

namespace Shift

/-- What can happen next. -/
inductive Move (π : Type) where
  /-- Someone makes a channel, and gets its sender and a token. -/
  | channel
  | clone (token : Nat)
  | send (channel : Nat)
  | dropSender (channel : Nat)
  /-- A pool is started with a token. -/
  | start (p : π) (setup : PoolSetup) (token : Nat)
  | stop (p : π)
  /-- A pool is dropped. -/
  | drop (p : π)
  /-- The drains of a pool see which loops have ended. -/
  | settle (p : π)
  /-- A loop comes to a point. -/
  | turn (loop : Nat) (x : Point)

section
variable {π : Type}

/-- Nothing was made yet. -/
def new : Shift π := ⟨[], [], fun _ => {}, fun _ => none, []⟩

/-- Is the signal of a channel sent? -/
def sent (g : Shift π) (channel : Nat) : Bool := g.signals[channel]?.any (·.sent)

/-- The signal of a channel was not sent, and nobody is there to send it. -/
def Mute (g : Shift π) (channel : Nat) : Prop := g.signals[channel]? = some ⟨false, false⟩

/-- Does a token show that its signal is sent? -/
def fired (g : Shift π) (token : Nat) : Bool := g.tokens[token]?.any g.sent

def send (channel : Nat) (g : Shift π) : Shift π :=
  { g with signals := g.signals.modify channel Signal.send }

variable [DecidableEq π]

/-- A pool sends its signal, if it has the sender. -/
def release (p : π) (g : Shift π) : Shift π :=
  match g.sender p with
  | some channel => { g.send channel with sender := Function.update g.sender p none }
  | none => g

def setPool (p : π) (pool : Pool) (g : Shift π) : Shift π :=
  { g with pool := Function.update g.pool p pool }

/-- The shift after a move.  A move that is not due changes nothing. -/
def move (g : Shift π) : Move π → Shift π
  | .channel =>
    { g with signals := g.signals ++ [{}], tokens := g.tokens ++ [g.signals.length] }
  | .clone token => { g with tokens := g.tokens ++ g.tokens[token]?.toList }
  | .send channel => g.send channel
  | .dropSender channel => { g with signals := g.signals.modify channel Signal.dropSender }
  | .start p setup token =>
    match g.tokens[token]?, (g.pool p).start setup.pollInterval setup.workerCount with
    | some parent, (.ok numbers, pool) =>
      { g.setPool p pool with
        signals := g.signals ++ [{}]
        sender := Function.update g.sender p (some g.signals.length)
        loops := g.loops ++ numbers.map fun n => ⟨p, n, g.signals.length, parent, .own, 0, 0, 0⟩ }
    | _, _ => g
  | .stop p =>
    match (g.pool p).stop with
    | (.ok (), pool) => (g.release p).setPool p pool
    | (.error _, _) => g
  | .drop p => g.release p
  | .settle p => g.setPool p (g.pool p).settle
  | .turn loop x =>
    match g.loops[loop]? with
    | some l =>
      let g := { g with loops := g.loops.set loop (l.goOn x) }
      if x.isOver then g.setPool l.pool ((g.pool l.pool).loopEnds l.number) else g
    | none => g

/-- Nobody has the sender of a pool but the pool, and a loop takes the turns that it has. -/
def Allowed (g : Shift π) : Move π → Prop
  | .send channel | .dropSender channel => ∀ p, g.sender p ≠ some channel
  | .turn loop x => ∃ l, g.loops[loop]? = some l ∧
      Point.Next (g.sent l.own) (g.sent l.parent) l.point x
  | _ => True

/-- What a shift can become by a list of moves. -/
inductive Run (g₀ : Shift π) : List (Move π) → Shift π → Prop where
  | start : Run g₀ [] g₀
  | next {moves : List (Move π)} {g : Shift π} (past : Run g₀ moves g) (m : Move π)
      (ok : g.Allowed m) : Run g₀ (moves ++ [m]) (g.move m)

end

/-- The turns of a loop. -/
def Move.isTurnOf {π : Type} (loop : Nat) : Move π → Bool
  | .turn loop' _ => loop' == loop
  | _ => false

/-! ## Signals stay sent -/

section
variable {π : Type} [DecidableEq π] {g : Shift π} {m : Move π} {i ch t : Nat} {l : Listener π}

theorem signals_release (p : π) :
    (g.release p).signals = g.signals ∨
      ∃ ch, g.sender p = some ch ∧ (g.release p).signals = g.signals.modify ch Signal.send := by
  unfold release
  split
  · rename_i ch h
    exact .inr ⟨ch, h, rfl⟩
  · exact .inl rfl

@[simp] theorem tokens_release (g : Shift π) (p : π) : (g.release p).tokens = g.tokens := by
  unfold release
  split <;> rfl

@[simp] theorem loops_release (g : Shift π) (p : π) : (g.release p).loops = g.loops := by
  unfold release
  split <;> rfl

@[simp] theorem pool_release (g : Shift π) (p : π) : (g.release p).pool = g.pool := by
  unfold release
  split <;> rfl

theorem sender_release (g : Shift π) (p : π) :
    (g.release p).sender = Function.update g.sender p none := by
  unfold release
  split
  · rfl
  · rename_i h
    rw [← h, Function.update_eq_self]

/-- The moves that send the signal of a channel.  That of a pool is sent by its stop or its end. -/
def Sends (g : Shift π) (ch : Nat) (m : Move π) : Prop :=
  m = .send ch ∨ ∃ p, g.sender p = some ch ∧ (m = .stop p ∨ m = .drop p)

/-- What a move does to the signals. -/
theorem signals_move (g : Shift π) (m : Move π) :
    (g.move m).signals = g.signals ∨ (g.move m).signals = g.signals ++ [({} : Signal)] ∨
      (∃ ch, g.Sends ch m ∧ (g.move m).signals = g.signals.modify ch Signal.send) ∨
      ∃ ch, m = .dropSender ch ∧ (g.move m).signals = g.signals.modify ch Signal.dropSender := by
  cases m with
  | channel => exact .inr (.inl rfl)
  | clone | settle => exact .inl rfl
  | send ch => exact .inr (.inr (.inl ⟨ch, .inl rfl, rfl⟩))
  | dropSender ch => exact .inr (.inr (.inr ⟨ch, rfl, rfl⟩))
  | start p setup token =>
    unfold move
    dsimp only
    split
    · exact .inr (.inl rfl)
    · exact .inl rfl
  | stop p =>
    unfold move
    dsimp only
    split
    · rcases signals_release (g := g) p with h | ⟨ch, hch, h⟩
      · exact .inl h
      · exact .inr (.inr (.inl ⟨ch, .inr ⟨p, hch, .inl rfl⟩, h⟩))
    · exact .inl rfl
  | drop p =>
    rcases signals_release (g := g) p with h | ⟨ch, hch, h⟩
    · exact .inl h
    · exact .inr (.inr (.inl ⟨ch, .inr ⟨p, hch, .inr rfl⟩, h⟩))
  | turn loop x =>
    unfold move
    dsimp only
    split
    · split <;> exact .inl rfl
    · exact .inl rfl

omit [DecidableEq π] in
theorem sent_iff : g.sent ch = true ↔ ∃ s, g.signals[ch]? = some s ∧ s.sent = true := by
  unfold sent
  cases g.signals[ch]? <;> simp

/-- **A signal that was sent stays so.** -/
theorem sent_move (m : Move π) (h : g.sent ch = true) : (g.move m).sent ch = true := by
  obtain ⟨s, hs, hsent⟩ := sent_iff.1 h
  rw [sent_iff]
  rcases signals_move g m with hg | hg | ⟨ch', -, hg⟩ | ⟨ch', -, hg⟩ <;> rw [hg]
  · exact ⟨s, hs, hsent⟩
  · have hlt := (List.getElem?_eq_some_iff.1 hs).1
    exact ⟨s, by rw [List.getElem?_append_left hlt, hs], hsent⟩
  all_goals
    rw [List.getElem?_modify, hs]
    by_cases he : ch' = ch <;> simp [he, hsent, Signal.send, Signal.dropSender]

/-- **A signal is sent by its sender only.** -/
theorem sends_of_sent (unsent : g.sent ch = false) (h : (g.move m).sent ch = true) :
    g.Sends ch m := by
  have hold : ∀ s, g.signals[ch]? = some s → s.sent = false := by
    intro s hs
    simpa [sent, hs] using unsent
  obtain ⟨s, hs, hsent⟩ := sent_iff.1 h
  rcases signals_move g m with hg | hg | ⟨ch', hsends, hg⟩ | ⟨ch', -, hg⟩ <;> rw [hg] at hs
  · simp [hold s hs] at hsent
  · rw [List.getElem?_append] at hs
    split at hs
    · simp [hold s hs] at hsent
    · obtain rfl := List.mem_singleton.1 (List.mem_of_getElem? hs)
      cases hsent
  all_goals
    rw [List.getElem?_modify, Option.map_eq_map, Option.map_eq_some_iff] at hs
    obtain ⟨s₀, hs₀, rfl⟩ := hs
    have hunsent := hold s₀ hs₀
  · by_cases he : ch' = ch
    · exact he ▸ hsends
    · simp [he, hunsent] at hsent
  · by_cases he : ch' = ch <;> simp [he, hunsent, Signal.dropSender] at hsent

/-- A signal that nobody can send stays unsent. -/
theorem mute_move (m : Move π) (h : g.Mute ch) : (g.move m).Mute ch := by
  unfold Mute at h ⊢
  rcases signals_move g m with hg | hg | ⟨ch', -, hg⟩ | ⟨ch', -, hg⟩ <;> rw [hg]
  · exact h
  · exact (List.getElem?_append_left (List.getElem?_eq_some_iff.1 h).1).trans h
  all_goals
    rw [List.getElem?_modify, h]
    by_cases he : ch' = ch <;> simp [he, Signal.send, Signal.dropSender]

/-- A token is one of its channel for good. -/
theorem tokens_move (g : Shift π) (m : Move π) : ∃ new, (g.move m).tokens = g.tokens ++ new := by
  cases m with
  | channel => exact ⟨_, rfl⟩
  | clone token => exact ⟨_, rfl⟩
  | _ =>
    refine ⟨[], ?_⟩
    rw [List.append_nil]
    unfold move
    dsimp only
    repeat' split
    all_goals simp [setPool, send]

/-- A loop changes in its own turns only. -/
theorem loop_move (h : g.loops[i]? = some l) (m : Move π) :
    m.isTurnOf i = false ∧ (g.move m).loops[i]? = some l ∨
      ∃ x, m = .turn i x ∧ (g.move m).loops[i]? = some (l.goOn x) := by
  cases m with
  | channel | clone | send | dropSender | settle => exact .inl ⟨rfl, h⟩
  | drop p => exact .inl ⟨rfl, by rw [move, loops_release]; exact h⟩
  | stop p =>
    refine .inl ⟨rfl, ?_⟩
    unfold move
    dsimp only
    split
    · show (g.release p).loops[i]? = _
      rw [loops_release]
      exact h
    · exact h
  | start p setup token =>
    refine .inl ⟨rfl, ?_⟩
    unfold move
    dsimp only
    split
    · exact (List.getElem?_append_left (List.getElem?_eq_some_iff.1 h).1).trans h
    · exact h
  | turn loop x =>
    have hloops : ∀ l', g.loops[loop]? = some l' →
        (g.move (.turn loop x)).loops = g.loops.set loop (l'.goOn x) := by
      intro l' hl'
      unfold move
      simp only [hl']
      split <;> rfl
    by_cases he : loop = i
    · subst he
      refine .inr ⟨x, rfl, ?_⟩
      rw [hloops l h, List.getElem?_set_self (List.getElem?_eq_some_iff.1 h).1]
    · refine .inl ⟨beq_eq_false_iff_ne.2 he, ?_⟩
      cases hl : g.loops[loop]? with
      | none => simpa [move, hl] using h
      | some l' =>
        rw [hloops l' hl, List.getElem?_set_ne he]
        exact h

end

/-! ## What is left after a signal -/

section
variable {π : Type} [DecidableEq π] {g g' : Shift π} {moves : List (Move π)} {i : Nat}
  {l : Listener π}

/-- Once one of its signals is sent, a loop uses up the turns and the requests that are left to it. -/
theorem Run.used_up (run : Run g moves g') (here : g.loops[i]? = some l)
    (sent : g.sent l.own = true ∨ g.sent l.parent = true) :
    ∃ l', g'.loops[i]? = some l' ∧ l'.own = l.own ∧ l'.parent = l.parent ∧
      (g'.sent l.own = true ∨ g'.sent l.parent = true) ∧ l.dequeues ≤ l'.dequeues ∧
      l'.dequeues + (l'.point.asks (g'.sent l.parent)).toNat ≤
        l.dequeues + (l.point.asks (g.sent l.parent)).toNat ∧
      l'.point.left (g'.sent l.own) (g'.sent l.parent) + moves.countP (Move.isTurnOf i) ≤
        l.point.left (g.sent l.own) (g.sent l.parent) := by
  induction run with
  | start => exact ⟨l, here, rfl, rfl, sent, Nat.le_refl _, Nat.le_refl _, Nat.le_refl _⟩
  | @next moves g' past m ok ih =>
    obtain ⟨l', here', hown, hparent, sent', hge, hasks, hleft⟩ := ih
    have hown' : g'.sent l.own = true → (g'.move m).sent l.own = true := sent_move m
    have hparent' : g'.sent l.parent = true → (g'.move m).sent l.parent = true := sent_move m
    rw [List.countP_append]
    rcases loop_move here' m with ⟨hm, hl⟩ | ⟨x, rfl, hl⟩
    · have hcount : [m].countP (Move.isTurnOf i) = 0 := by simp [hm]
      have hasks' := Point.asks_mono (x := l'.point) hparent'
      have hleft' := Point.left_mono (x := l'.point) hown' hparent'
      exact ⟨l', hl, hown, hparent, sent'.imp hown' hparent', hge, by omega, by omega⟩
    · have hcount : [Move.turn (π := π) i x].countP (Move.isTurnOf i) = 1 := by simp [Move.isTurnOf]
      obtain ⟨l'', here'', hnext⟩ := ok
      obtain rfl : l'' = l' := Option.some.inj (here''.symm.trans here')
      rw [hown, hparent] at hnext
      have hasks' := Point.asks_mono (x := x) hparent'
      have hleft' := Point.left_mono (x := x) hown' hparent'
      have hturn := hnext.asks_le sent'
      have hlt := hnext.left_lt sent'
      refine ⟨_, hl, hown, hparent, sent'.imp hown' hparent', hge.trans (Nat.le_add_right _ _), ?_, ?_⟩
      · simp only [Listener.goOn]
        omega
      · simp only [Listener.goOn]
        omega

end

/-! ## The invariant -/

/-- There is a drain only while the pool is stopping, and only one. -/
def OneDrain (p : Pool) : Prop := p.drains.length ≤ 1 ∧ (p.drains ≠ [] → p.status = .stopping)

theorem oneDrain_settle {p : Pool} (h : OneDrain p) :
    OneDrain p.settle ∧ (p.status = .running → p.settle.status = .running) := by
  unfold Pool.settle
  split
  · rename_i hany
    obtain ⟨d, hd, hdrained⟩ := List.any_eq_true.1 hany
    obtain ⟨hlen, hstatus⟩ := h
    have hone : p.drains = [d] := by
      match hds : p.drains, hlen with
      | [], _ => simp [hds] at hd
      | [d'], _ => simpa [hds, eq_comm] using hd
    have hstopping := hstatus (by simp [hone])
    refine ⟨⟨?_, ?_⟩, ?_⟩
    · exact (List.length_filter_le _ _).trans hlen
    · simp [hone, hdrained]
    · intro hrunning
      rw [hstopping] at hrunning
      cases hrunning
  · exact ⟨h, id⟩

/-- What every move preserves.  A pool that has a sender runs, and every loop of a pool without it was
    told by it; a loop that ended was told or broke off, and finished every cycle before. -/
structure Sound {π : Type} (g : Shift π) : Prop where
  drains : ∀ p, OneDrain (g.pool p)
  sender : ∀ p ch, g.sender p = some ch →
    (g.pool p).status = .running ∧ ∃ s, g.signals[ch]? = some s ∧ s.hasSender = true
  bound : ∀ l ∈ g.loops, g.sent l.own = true ∨ g.sender l.pool = some l.own
  proper : ∀ l ∈ g.loops, l.point.Proper
  told : ∀ l ∈ g.loops, l.point = .told → g.sent l.own = true ∨ g.sent l.parent = true
  cycles : ∀ l ∈ g.loops,
    l.begun = l.finished + if l.point.inCycle ∨ l.point = .broke then 1 else 0

theorem sound_new {π : Type} : (new : Shift π).Sound where
  drains p := ⟨Nat.zero_le 1, fun h => absurd rfl h⟩
  sender p ch h := by cases h
  bound l h := by cases h
  proper l h := by cases h
  told l h := by cases h
  cycles l h := by cases h

section
variable {π : Type} [DecidableEq π] {g : Shift π} {l : Listener π}

omit [DecidableEq π] in
theorem Sound.signal (hs : g.Sound) {signals : List Signal}
    (keep : ∀ ch, g.sent ch = true → ({ g with signals := signals } : Shift π).sent ch = true)
    (room : ∀ p ch, g.sender p = some ch → ∃ s, signals[ch]? = some s ∧ s.hasSender = true) :
    Sound { g with signals := signals } :=
  { hs with
    sender := fun p ch h => ⟨(hs.sender p ch h).1, room p ch h⟩
    bound := fun l hl => (hs.bound l hl).imp_left (keep l.own)
    told := fun l hl h => (hs.told l hl h).imp (keep l.own) (keep l.parent) }

omit [DecidableEq π] in
/-- What happens to the sender of a channel that no pool has. -/
theorem Sound.outside (hs : g.Sound) {ch : Nat} {f : Signal → Signal}
    (apart : ∀ p, g.sender p ≠ some ch)
    (keep : ∀ ch', g.sent ch' = true →
      ({ g with signals := g.signals.modify ch f } : Shift π).sent ch' = true) :
    Sound { g with signals := g.signals.modify ch f } := by
  refine hs.signal keep fun p ch' hp => ?_
  obtain ⟨-, s, hch, hsender⟩ := hs.sender p ch' hp
  have hne : ch ≠ ch' := by
    rintro rfl
    exact apart p hp
  exact ⟨s, by simp [hne, hch], hsender⟩

theorem Sound.setPool (hs : g.Sound) (p : π) {pool : Pool} (one : OneDrain pool)
    (runs : g.sender p ≠ none → pool.status = .running) : (g.setPool p pool).Sound :=
  { hs with
    drains := by
      intro p'
      simp only [Shift.setPool, Function.update_apply]
      split
      · exact one
      · exact hs.drains p'
    sender := by
      intro p' ch h
      refine ⟨?_, (hs.sender p' ch h).2⟩
      simp only [Shift.setPool, Function.update_apply]
      split
      · rename_i he
        subst he
        exact runs (by rw [show g.sender p' = some ch from h]; exact Option.some_ne_none ch)
      · exact (hs.sender p' ch h).1 }

/-- Once a pool has sent its signal, all loops that it ever started are told. -/
theorem Sound.sent_release (hs : g.Sound) (hl : l ∈ g.loops) : (g.release l.pool).sent l.own = true := by
  rcases hs.bound l hl with hsent | hsender
  · exact sent_move (.drop l.pool) hsent
  · obtain ⟨-, s, hs', hsender'⟩ := hs.sender _ _ hsender
    refine sent_iff.2 ⟨s.send, ?_, by simp [Signal.send, hsender']⟩
    simp [Shift.release, hsender, Shift.send, hs']

theorem Sound.release (hs : g.Sound) (p : π) : (g.release p).Sound := by
  have keep : ∀ ch, g.sent ch = true → (g.release p).sent ch = true := fun ch => sent_move (.drop p)
  constructor
  case drains =>
    rw [pool_release]
    exact hs.drains
  case sender =>
    intro p' ch h
    rw [sender_release, Function.update_apply] at h
    split at h
    · cases h
    · obtain ⟨hrunning, s, hch, hsender⟩ := hs.sender p' ch h
      rw [pool_release]
      refine ⟨hrunning, ?_⟩
      rcases signals_release (g := g) p with he | ⟨ch', -, he⟩ <;> rw [he]
      · exact ⟨s, hch, hsender⟩
      · rw [List.getElem?_modify, hch]
        by_cases hc : ch' = ch <;> simp [hc, Signal.send, hsender]
  case bound =>
    intro l hl
    rw [loops_release] at hl
    by_cases hp : l.pool = p
    · subst hp
      exact .inl (hs.sent_release hl)
    · rw [sender_release, Function.update_of_ne hp]
      exact (hs.bound l hl).imp_left (keep l.own)
  case proper =>
    rw [loops_release]
    exact hs.proper
  case told =>
    rw [loops_release]
    intro l hl h
    exact (hs.told l hl h).imp (keep l.own) (keep l.parent)
  case cycles =>
    rw [loops_release]
    exact hs.cycles

omit [DecidableEq π] in
/-- A loop counts its cycles. -/
theorem cycles_goOn {own parent : Bool} {x : Point} (hnext : Point.Next own parent l.point x)
    (h : l.begun = l.finished + if l.point.inCycle ∨ l.point = .broke then 1 else 0) :
    (l.goOn x).begun = (l.goOn x).finished + if x.inCycle ∨ x = .broke then 1 else 0 := by
  have hphase : ∀ p, (if (Point.ofPhase p).inCycle ∨ Point.ofPhase p = .broke then 1 else 0) +
      (if Point.ofPhase p = .own then 1 else 0) = 1 := by
    intro p
    cases p <;> simp [Point.ofPhase, Point.inCycle]
  simp only [Listener.goOn]
  generalize l.point = y at h hnext ⊢
  cases hnext with
  | @asks c p r due a =>
    have := hphase (c.answered p r a)
    simp [Point.inCycle] at h this ⊢
    omega
  | runs c job outcome =>
    have := hphase (c.afterRun job outcome)
    simp [Point.inCycle] at h this ⊢
    omega
  | _ => simpa [Point.inCycle] using h

omit [DecidableEq π] in
theorem Sound.turn (hs : g.Sound) {i : Nat} {x : Point} (here : g.loops[i]? = some l)
    (hnext : Point.Next (g.sent l.own) (g.sent l.parent) l.point x) :
    Sound { g with loops := g.loops.set i (l.goOn x) } := by
  have hl := List.mem_of_getElem? here
  have mem : ∀ l' ∈ g.loops.set i (l.goOn x), l' ∈ g.loops ∨ l' = l.goOn x :=
    fun l' h => List.mem_or_eq_of_mem_set h
  refine { hs with bound := ?bound, proper := ?proper, told := ?told, cycles := ?cycles }
  case bound =>
    intro l' h
    rcases mem l' h with h | rfl
    · exact hs.bound l' h
    · exact hs.bound l hl
  case proper =>
    intro l' h
    rcases mem l' h with h | rfl
    · exact hs.proper l' h
    · exact hnext.proper
  case told =>
    intro l' h htold
    rcases mem l' h with h | rfl
    · exact hs.told l' h htold
    · obtain rfl : x = .told := htold
      exact hnext.told
  case cycles =>
    intro l' h
    rcases mem l' h with h | rfl
    · exact hs.cycles l' h
    · exact cycles_goOn hnext (hs.cycles l hl)

/-- A stopped pool has told all loops that it ever started, and now has new ones. -/
theorem Sound.started (hs : g.Sound) {p : π} {pool : Pool} (stopped : (g.pool p).status = .stopped)
    (running : pool.status = .running) (drains : pool.drains = (g.pool p).drains) (numbers : List Nat)
    (parent : Nat) : Sound { g.setPool p pool with
      signals := g.signals ++ [({} : Signal)]
      sender := Function.update g.sender p (some g.signals.length)
      loops := g.loops ++ numbers.map fun n => ⟨p, n, g.signals.length, parent, .own, 0, 0, 0⟩ } := by
  have keep : ∀ ch, g.sent ch = true → (g.move .channel).sent ch = true := fun ch => sent_move .channel
  have fresh : ∀ l' ∈ numbers.map (fun n => (⟨p, n, g.signals.length, parent, .own, 0, 0, 0⟩ :
      Listener π)), ∃ n, l' = ⟨p, n, g.signals.length, parent, .own, 0, 0, 0⟩ := by
    intro l' hl
    obtain ⟨n, -, rfl⟩ := List.mem_map.1 hl
    exact ⟨n, rfl⟩
  constructor
  case drains =>
    intro p'
    simp only [Shift.setPool, Function.update_apply]
    split
    · have hnone : pool.drains = [] := by
        rw [drains]
        by_contra hne
        have hstopping := (hs.drains p).2 hne
        rw [stopped] at hstopping
        cases hstopping
      exact ⟨by simp [hnone], fun hne => absurd hnone hne⟩
    · exact hs.drains p'
  case sender =>
    intro p' ch h
    simp only [Shift.setPool, Function.update_apply] at h ⊢
    split at h
    · obtain rfl := Option.some.inj h
      rw [if_pos ‹_›]
      exact ⟨running, {}, by simp, rfl⟩
    · rw [if_neg ‹_›]
      obtain ⟨hrunning, s, hch, hsender⟩ := hs.sender p' ch h
      refine ⟨hrunning, s, ?_, hsender⟩
      exact (List.getElem?_append_left (List.getElem?_eq_some_iff.1 hch).1).trans hch
  case bound =>
    intro l hl
    rcases List.mem_append.1 hl with hl | hl
    · rcases hs.bound l hl with hsent | hsender
      · exact .inl (keep l.own hsent)
      · right
        have hne : l.pool ≠ p := by
          rintro rfl
          have hrunning := (hs.sender _ _ hsender).1
          rw [stopped] at hrunning
          cases hrunning
        simp only [Function.update_of_ne hne]
        exact hsender
    · obtain ⟨n, rfl⟩ := fresh l hl
      exact .inr (Function.update_self ..)
  case proper =>
    intro l hl
    rcases List.mem_append.1 hl with hl | hl
    · exact hs.proper l hl
    · obtain ⟨n, rfl⟩ := fresh l hl
      trivial
  case told =>
    intro l hl h
    rcases List.mem_append.1 hl with hl | hl
    · exact (hs.told l hl h).imp (keep l.own) (keep l.parent)
    · obtain ⟨n, rfl⟩ := fresh l hl
      cases h
  case cycles =>
    intro l hl
    rcases List.mem_append.1 hl with hl | hl
    · exact hs.cycles l hl
    · obtain ⟨n, rfl⟩ := fresh l hl
      rfl

/-- **Every move that is allowed keeps the invariant.** -/
theorem Sound.move (hs : g.Sound) (m : Move π) (ok : g.Allowed m) : (g.move m).Sound := by
  cases m with
  | channel =>
    have h : Sound { g with signals := g.signals ++ [({} : Signal)] } := by
      refine hs.signal (fun ch => sent_move .channel) fun p ch hp => ?_
      obtain ⟨-, s, hch, hsender⟩ := hs.sender p ch hp
      exact ⟨s, (List.getElem?_append_left (List.getElem?_eq_some_iff.1 hch).1).trans hch, hsender⟩
    exact ⟨h.drains, h.sender, h.bound, h.proper, h.told, h.cycles⟩
  | clone token => exact ⟨hs.drains, hs.sender, hs.bound, hs.proper, hs.told, hs.cycles⟩
  | send ch => exact hs.outside ok fun ch' => sent_move (.send ch)
  | dropSender ch => exact hs.outside ok fun ch' => sent_move (.dropSender ch)
  | start p setup token =>
    unfold Shift.move
    dsimp only
    split
    · rename_i parent numbers pool _ hstart
      by_cases h : (g.pool p).status = .stopped ∧ setup.pollInterval ≠ .zero
      · rw [Pool.start_of_stopped h.1 h.2] at hstart
        obtain ⟨hnumbers, rfl⟩ := Prod.mk.inj hstart
        obtain rfl := Except.ok.inj hnumbers
        refine hs.started h.1 ?_ ?_ _ parent <;> rfl
      · obtain ⟨e, he⟩ := Pool.start_of_not h setup.workerCount
        rw [he] at hstart
        cases hstart
    · exact hs
  | stop p =>
    unfold Shift.move
    dsimp only
    split
    · rename_i pool hstop
      by_cases h : (g.pool p).status = .running
      · rw [Pool.stop_of_running h] at hstop
        obtain ⟨-, rfl⟩ := Prod.mk.inj hstop
        have hnone : (g.pool p).drains = [] := by
          by_contra hne
          have hstopping := (hs.drains p).2 hne
          rw [h] at hstopping
          cases hstopping
        refine (hs.release p).setPool p ⟨by simp [hnone], fun _ => rfl⟩ fun hne => ?_
        rw [sender_release, Function.update_self] at hne
        exact absurd rfl hne
      · rw [Pool.stop_of_not h] at hstop
        cases hstop
    · exact hs
  | drop p => exact hs.release p
  | settle p =>
    obtain ⟨one, runs⟩ := oneDrain_settle (hs.drains p)
    refine hs.setPool p one fun hne => runs ?_
    obtain ⟨ch, hch⟩ := Option.ne_none_iff_exists'.1 hne
    exact (hs.sender p ch hch).1
  | turn loop x =>
    obtain ⟨l, here, hnext⟩ := ok
    have h := hs.turn here hnext
    unfold Shift.move
    simp only [here]
    split
    · refine h.setPool l.pool (h.drains l.pool) fun hne => ?_
      obtain ⟨ch, hch⟩ := Option.ne_none_iff_exists'.1 hne
      exact (h.sender l.pool ch hch).1
    · exact h

theorem Run.sound {g' : Shift π} {moves : List (Move π)} (run : Run g moves g') (hs : g.Sound) :
    g'.Sound := by
  induction run with
  | start => exact hs
  | next past m ok ih => exact ih.move m ok

/-! ## Signals and loops -/

/-- The signals of the past are those of the future. -/
theorem Run.lasting {g' : Shift π} {moves : List (Move π)} (run : Run g moves g') :
    (∀ ch, g.sent ch = true → g'.sent ch = true) ∧
    ∀ t ch : Nat, g.tokens[t]? = some ch → g'.tokens[t]? = some ch := by
  induction run with
  | start => exact ⟨fun _ h => h, fun _ _ h => h⟩
  | @next moves g' past m ok ih =>
    obtain ⟨hsent, htokens⟩ := ih
    refine ⟨fun ch h => sent_move m (hsent ch h), ?_⟩
    intro t ch h
    obtain ⟨new, hnew⟩ := tokens_move g' m
    rw [hnew, List.getElem?_append_left (List.getElem?_eq_some_iff.1 (htokens t ch h)).1]
    exact htokens t ch h

theorem Run.mute {g' : Shift π} {moves : List (Move π)} {ch : Nat} (run : Run g moves g')
    (h : g.Mute ch) : g'.Mute ch := by
  induction run with
  | start => exact h
  | next past m ok ih => exact mute_move m ih

/-- A channel that loses its sender before the signal is sent. -/
theorem mute_dropSender {ch : Nat} (here : ch < g.signals.length) (unsent : g.sent ch = false) :
    (g.move (.dropSender ch)).Mute ch := by
  have hsignal := List.getElem?_eq_getElem here
  have hunsent : g.signals[ch].sent = false := by simpa [sent, hsignal] using unsent
  simp [Mute, Shift.move, hsignal, Signal.dropSender, hunsent]

theorem loops_start {p : π} {setup : PoolSetup} {t i : Nat} (new : g.loops.length ≤ i)
    (here : (g.move (.start p setup t)).loops[i]? = some l) :
    g.tokens[t]? = some l.parent ∧ l.point = .own ∧ l.dequeues = 0 := by
  unfold Shift.move at here
  dsimp only at here
  split at here
  · rename_i parent numbers pool htoken hstart
    rw [List.getElem?_append_right new, List.getElem?_map, Option.map_eq_some_iff] at here
    obtain ⟨n, -, rfl⟩ := here
    exact ⟨htoken, rfl, rfl⟩
  · rw [List.getElem?_eq_none new] at here
    cases here

/-- A pool that is stopped, if it runs, sends its signal. -/
theorem Sound.sent_stop (hs : g.Sound) (running : (g.pool l.pool).status = .running)
    (hl : l ∈ g.loops) : (g.move (.stop l.pool)).sent l.own = true := by
  simp only [Shift.move, Pool.stop_of_running running]
  exact hs.sent_release hl

theorem sent_send {ch : Nat} {signal : Signal} (here : g.signals[ch]? = some signal)
    (sender : signal.hasSender = true) : (g.move (.send ch)).sent ch = true := by
  refine sent_iff.2 ⟨signal.send, ?_, by simp [Signal.send, sender]⟩
  simp [Shift.move, Shift.send, here]

omit [DecidableEq π] in
theorem fired_clone (g : Shift π) {t : Nat} (here : t < g.tokens.length) :
    ({ g with tokens := g.tokens ++ g.tokens[t]?.toList } : Shift π).fired g.tokens.length =
      g.fired t := by
  obtain ⟨ch, hch⟩ : ∃ ch, g.tokens[t]? = some ch := ⟨_, List.getElem?_eq_getElem here⟩
  simp [fired, hch]
  rfl

/-- **A signal ends the loops that listen to it.**  Signals stay sent, and every token shows the signal
    of its channel, be it cloned before or after.  A signal is sent by its sender only: a pool that is
    stopped or dropped sends its own, and one whose sender went away before is never sent.  A loop is
    told only if one of its signals is sent, and has finished every cycle that it began.  Once one of
    its signals is sent, a loop asks for a job once at most, and not at all unless it was past its look
    at the signal in its last selection; it always has a turn until it ends, and it ends in ten turns.
    A loop that is started with a token that has fired asks for no job. -/
theorem signals_end_loops {g' : Shift π} {before after : List (Move π)} (past : Run new before g)
    (run : Run g after g') :
    -- signals
    (∀ ch, g.sent ch = true → g'.sent ch = true) ∧
    (∀ t ch : Nat, g.tokens[t]? = some ch → g'.tokens[t]? = some ch ∧ g'.fired t = g'.sent ch) ∧
    (∀ t < g.tokens.length, (g.move (.clone t)).fired g.tokens.length = g.fired t) ∧
    -- senders
    (∀ (ch : Nat) signal, g.signals[ch]? = some signal → signal.hasSender = true →
      (g.move (.send ch)).sent ch = true) ∧
    (∀ l ∈ g.loops, (g.pool l.pool).status = .running →
      (g.move (.stop l.pool)).sent l.own = true) ∧
    (∀ l ∈ g.loops, (g.move (.drop l.pool)).sent l.own = true) ∧
    (∀ m ch, g.sent ch = false → (g.move m).sent ch = true → g.Sends ch m) ∧
    (∀ ch < g.signals.length, g.sent ch = false → ∀ moves g₁,
      Run (g.move (.dropSender ch)) moves g₁ → g₁.sent ch = false) ∧
    -- loops
    (∀ l ∈ g'.loops, l.point = .told →
      (g'.sent l.own = true ∨ g'.sent l.parent = true) ∧ l.finished = l.begun) ∧
    (∀ (i : Nat) l, g.loops[i]? = some l → g.sent l.own = true ∨ g.sent l.parent = true →
      ∃ l', g'.loops[i]? = some l' ∧ l'.own = l.own ∧ l'.parent = l.parent ∧
        l'.dequeues ≤ l.dequeues + 1 ∧
        (l.point.asks (g.sent l.parent) = false → l'.dequeues = l.dequeues) ∧
        (l'.point.isOver = false → after.countP (Move.isTurnOf i) < 10 ∧
          ∃ x, Point.Next (g'.sent l.own) (g'.sent l.parent) l'.point x)) ∧
    ∀ p setup t, g.fired t = true → ∀ moves g₁, Run (g.move (.start p setup t)) moves g₁ →
      ∀ (i : Nat) l, g.loops.length ≤ i → (g.move (.start p setup t)).loops[i]? = some l →
        ∃ l', g₁.loops[i]? = some l' ∧ l'.dequeues = 0 := by
  have hs := past.sound sound_new
  have hs' := run.sound hs
  obtain ⟨hsent, htokens⟩ := run.lasting
  refine ⟨hsent, ?tokens, fun t ht => fired_clone g ht, fun ch signal h hr => sent_send h hr,
    fun l hl hr => hs.sent_stop hr hl, fun l hl => hs.sent_release hl,
    fun m ch unsent h => sends_of_sent unsent h, ?mute, ?told, ?loop, ?start⟩
  case tokens =>
    intro t ch h
    refine ⟨htokens t ch h, ?_⟩
    rw [fired, htokens t ch h]
    rfl
  case mute =>
    intro ch hlt unsent moves g₁ run₁
    rw [sent, run₁.mute (mute_dropSender hlt unsent)]
    rfl
  case told =>
    intro l hl htold
    have hcycles := hs'.cycles l hl
    refine ⟨hs'.told l hl htold, ?_⟩
    simpa [htold, Point.inCycle] using hcycles.symm
  case loop =>
    intro i l here sent
    obtain ⟨l', here', hown, hparent, -, hge, hasks, hleft⟩ := run.used_up here sent
    have hone : (l.point.asks (g.sent l.parent)).toNat ≤ 1 := Bool.toNat_le _
    refine ⟨l', here', hown, hparent, by omega, ?_, fun under => ⟨?_, ?_⟩⟩
    · intro hnot
      rw [hnot] at hasks
      simp only [Bool.toNat_false] at hasks
      omega
    · have hpos : l'.point.left (g'.sent l.own) (g'.sent l.parent) ≠ 0 := by
        intro hzero
        rw [Point.isOver_of_left (hs'.proper l' (List.mem_of_getElem? here')) hzero] at under
        cases under
      have hle := l.point.left_le (g.sent l.own) (g.sent l.parent)
      omega
    · exact Point.exists_next (hs'.proper l' (List.mem_of_getElem? here')) under
  case start =>
    intro p setup t hfired moves g₁ run₁ i l hnew here
    obtain ⟨htoken, hpoint, hzero⟩ := loops_start hnew here
    have hparent : (g.move (.start p setup t)).sent l.parent = true := by
      refine sent_move _ ?_
      simpa [fired, htoken] using hfired
    obtain ⟨l', here', -, -, -, -, hasks, -⟩ := run₁.used_up here (.inr hparent)
    refine ⟨l', here', ?_⟩
    rw [hpoint, hzero] at hasks
    simp only [Point.asks, Bool.toNat_false] at hasks
    omega

/-- Moves that are allowed one after the other. -/
def Follows : Shift π → List (Move π) → Prop
  | _, [] => True
  | g, m :: moves => g.Allowed m ∧ Follows (g.move m) moves

/-- They make a run. -/
theorem Run.follow {g₀ : Shift π} {before moves : List (Move π)} (run : Run g₀ before g)
    (h : Follows g moves) : Run g₀ (before ++ moves) (moves.foldl Shift.move g) := by
  induction moves generalizing g before with
  | nil => rwa [List.append_nil]
  | cons m moves ih =>
    have h' := ih (run.next m h.1) h.2
    rwa [List.append_assoc] at h'

end

/-- A pool of two loops is stopped when one of them has looked at the signals. -/
def lateStop : List (Move Unit) :=
  [.channel, .start () { workerCount := 2 } 0, .turn 0 .parent, .turn 0 .tick, .stop ()]

/-- The loop that has looked claims nothing, and then both are told. -/
def bothEnd : List (Move Unit) :=
  [.turn 0 (.cycle .claiming), .turn 1 .told, .turn 0 .own, .turn 0 .told]

def stoppedLate : Shift Unit := lateStop.foldl Shift.move new
def bothEnded : Shift Unit := bothEnd.foldl Shift.move stoppedLate

theorem run_lateStop : Run new lateStop stoppedLate := by
  refine Run.start.follow ⟨trivial, trivial, ?_, ?_, trivial, trivial⟩
  · exact ⟨_, rfl, .passes rfl⟩
  · exact ⟨_, rfl, .passesLate rfl⟩

theorem run_bothEnd : Run stoppedLate bothEnd bothEnded := by
  let c : Cycle := ⟨"", .any, true, fun _ => true⟩
  have due : c.request? .claiming = some (.dequeue c.worker c.queues) := rfl
  have claimsNothing : Point.Next true false (.cycle .claiming) .own := .asks c due (.ok none)
  refine Run.start.follow ⟨?_, ?_, ?_, ?_, trivial⟩
  · exact ⟨_, rfl, .begins⟩
  · exact ⟨_, rfl, .stops rfl⟩
  · exact ⟨_, rfl, claimsNothing⟩
  · exact ⟨_, rfl, .stops rfl⟩

theorem signals_end_loops_lateStop :
    stoppedLate.sent 1 = true ∧ bothEnded.sent 1 = true ∧
    stoppedLate.loops.map (·.point) = [.tick, .own] ∧
    bothEnded.loops.map (·.point) = [.told, .told] ∧
    (∃ l, bothEnded.loops[0]? = some l ∧ l.dequeues = 1 ∧ l.dequeues ≤ 0 + 1) ∧
    (∃ l, bothEnded.loops[1]? = some l ∧ l.dequeues = 0) ∧
    ∀ l ∈ bothEnded.loops, l.point = .told → l.finished = l.begun := by
  obtain ⟨hsent, -, -, -, -, -, -, -, htold, hloops, -⟩ := signals_end_loops run_lateStop run_bothEnd
  obtain ⟨l₀, h₀, -, -, hone, -⟩ := hloops 0 _ rfl (.inl rfl)
  obtain ⟨l₁, h₁, -, -, -, hnone, -⟩ := hloops 1 _ rfl (.inl rfl)
  have hcount : bothEnded.loops[0]?.map (·.dequeues) = some 1 := by decide
  refine ⟨by decide, hsent 1 (by decide), by decide, by decide, ⟨l₀, h₀, ?_, hone⟩,
    ⟨l₁, h₁, hnone rfl⟩, fun l hl ht => (htold l hl ht).2⟩
  simpa [h₀] using hcount

end Shift

end JobQueue
