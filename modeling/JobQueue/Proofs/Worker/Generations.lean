/-
  The generations of worker loops.

  Each start of a pool spawns a generation of loops, and each stop that is let
  in hands one over to a drain.  Callers come and go as they like: they start
  and stop the pool, run out of time while they wait for a drain, or are
  dropped; loops end in any order, by themselves or by breaking off.

  A `Life` carries what nobody sees of the pool: the generations, the signals
  to them, and how far each call of stop has come.  What every move preserves
  is `Tidy`: only loops of the last generation are alive, and there is a drain
  exactly while the pool is stopping.
-/
import JobQueue.Worker.Pool
import JobQueue.Worker.Setup
import JobQueue.Worker.Signal

namespace JobQueue

/-! ## Starting and stopping a pool -/

namespace Pool

variable {p : Pool}

/-- A stopped pool with a beat spawns new loops. -/
theorem start_of_stopped {interval : Span} (stopped : p.status = .stopped) (beats : interval ≠ .zero)
    (count : Nat) : p.start interval count = (.ok (List.range' p.nextLoop count), { p with
      status := .running
      nextLoop := p.nextLoop + count
      loops := List.range' p.nextLoop count
      alive := p.alive ++ List.range' p.nextLoop count }) := by
  simp [start, stopped, beats]

theorem start_of_not {interval : Span} (h : ¬(p.status = .stopped ∧ interval ≠ .zero)) (count : Nat) :
    ∃ e, p.start interval count = (.error e, p) := by
  unfold start
  split
  · exact ⟨_, rfl⟩
  · split
    · exact ⟨_, rfl⟩
    · rename_i hs hz
      exact absurd ⟨Decidable.not_not.1 hs, hz⟩ h

theorem stop_of_running (running : p.status = .running) : p.stop =
    (.ok (), { p with status := .stopping, loops := [], drains := p.drains ++ [p.loops] }) := by
  simp [stop, running]

theorem stop_of_not (h : p.status ≠ .running) : p.stop = (.error .notRunning, p) := by
  simp [stop, h]

theorem alive_settle (p : Pool) : p.settle.alive = p.alive := by
  unfold settle
  split <;> rfl

end Pool

/-! ## Lives -/

/-- How far a call of stop has come. -/
inductive Stage where
  /-- It has the loops, and has not told them to stop yet. -/
  | signalling
  /-- The loops are told, and the drain is under way. -/
  | waiting
  | answered
  | timedOut
  | dropped
  deriving DecidableEq, Repr

/-- A call of stop that was let in. -/
structure StopCall where
  /-- The generation that it stops. -/
  generation : Nat
  stage : Stage
  deriving DecidableEq, Repr

/-- A pool, with what nobody sees of it. -/
structure Life where
  pool : Pool := {}
  /-- The loops of each start. -/
  generations : List (List Nat) := []
  signals : List Signal := []
  parent : Signal := {}
  stops : List StopCall := []
  /-- The generations whose drains are under way. -/
  draining : List Nat := []

/-- What can happen next to a pool. -/
inductive LifeMove where
  /-- Someone calls start. -/
  | start
  /-- Someone calls stop, and gets the loops or is turned away. -/
  | stop
  /-- A call of stop tells its loops to stop and spawns the drain. -/
  | signal (call : Nat)
  /-- A loop ends, by itself or by breaking off. -/
  | ends (loop : Nat)
  /-- The drains see which loops have ended. -/
  | settle
  /-- A call of stop answers that the drain has ended. -/
  | answer (call : Nat)
  /-- A call of stop runs out of time. -/
  | timeOut (call : Nat)
  /-- Nobody waits for the answer of a call any more. -/
  | drop (call : Nat)
  | parentShutdown
  | parentGone

namespace Life

/-- The loops of a generation. -/
def loopsOf (l : Life) (g : Nat) : List Nat := l.generations.getD g []

/-- The generation of the last start. -/
def last (l : Life) : Nat := l.generations.length - 1

def start (setup : PoolSetup) (l : Life) : Except Error (List Nat) × Life :=
  match l.pool.start setup.pollInterval setup.workerCount with
  | (.ok loops, pool) => (.ok loops, { l with
      pool := pool, generations := l.generations ++ [loops], signals := l.signals ++ [{}] })
  | (.error e, pool) => (.error e, { l with pool := pool })

/-- A stop that is let in takes the last generation. -/
def stop (l : Life) : Except Error Unit × Life :=
  match l.pool.stop with
  | (.ok (), pool) => (.ok (), { l with
      pool := pool
      stops := l.stops ++ [⟨l.last, .signalling⟩]
      draining := l.draining ++ [l.last] })
  | (.error e, pool) => (.error e, { l with pool := pool })

/-- A call of stop comes to a stage. -/
def advance (l : Life) (call : Nat) (stage : Stage) : Life :=
  { l with stops := l.stops.modify call fun c => { c with stage := stage } }

/-- A call of stop tells its loops to stop. -/
def signal (l : Life) (call : Nat) : Life :=
  match l.stops[call]? with
  | some ⟨g, .signalling⟩ =>
    { l.advance call .waiting with signals := l.signals.modify g Signal.send }
  | _ => l

/-- A call of stop whose drain has ended answers. -/
def answer (l : Life) (call : Nat) : Life :=
  match l.stops[call]? with
  | some ⟨g, .waiting⟩ => if g ∈ l.draining then l else l.advance call .answered
  | _ => l

/-- A call of stop gives up, or is given up. -/
def leave (l : Life) (call : Nat) (stage : Stage) : Life :=
  match l.stops[call]? with
  | some ⟨_, .waiting⟩ => l.advance call stage
  | _ => l

/-- The drains that were spawned see which loops have ended. -/
def settle (l : Life) : Life :=
  if l.stops.all fun c => c.stage ≠ .signalling then
    { l with
      pool := l.pool.settle
      draining := l.draining.filter fun g => !l.pool.isDrained (l.loopsOf g) }
  else l

/-- The pool after a move.  A move that is not due changes nothing. -/
def move (setup : PoolSetup) (l : Life) : LifeMove → Life
  | .start => (l.start setup).2
  | .stop => l.stop.2
  | .signal call => l.signal call
  | .ends loop => { l with pool := l.pool.loopEnds loop }
  | .settle => l.settle
  | .answer call => l.answer call
  | .timeOut call => l.leave call .timedOut
  | .drop call => l.leave call .dropped
  | .parentShutdown => { l with parent := l.parent.send }
  | .parentGone => { l with parent := l.parent.dropSender }

/-- What a move can do. -/
inductive Moved (setup : PoolSetup) (l : Life) : LifeMove → Life → Prop where
  | nothing (m : LifeMove) : Moved setup l m l
  | started (stopped : l.pool.status = .stopped) (beats : setup.pollInterval ≠ .zero) :
      Moved setup l .start { l with
        pool := { l.pool with
          status := .running
          nextLoop := l.pool.nextLoop + setup.workerCount
          loops := List.range' l.pool.nextLoop setup.workerCount
          alive := l.pool.alive ++ List.range' l.pool.nextLoop setup.workerCount }
        generations := l.generations ++ [List.range' l.pool.nextLoop setup.workerCount]
        signals := l.signals ++ [{}] }
  | stopped (running : l.pool.status = .running) :
      Moved setup l .stop { l with
        pool := { l.pool with
          status := .stopping, loops := [], drains := l.pool.drains ++ [l.pool.loops] }
        stops := l.stops ++ [⟨l.last, .signalling⟩]
        draining := l.draining ++ [l.last] }
  | signalled {call : Nat} {c : StopCall} (called : l.stops[call]? = some c) :
      Moved setup l (.signal call) { l.advance call .waiting with
        signals := l.signals.modify c.generation Signal.send }
  | answered {call : Nat} {c : StopCall} (called : l.stops[call]? = some c)
      (ended : c.generation ∉ l.draining) : Moved setup l (.answer call) (l.advance call .answered)
  | left {call : Nat} (m : LifeMove) {stage : Stage} (unanswered : stage ≠ .answered) :
      Moved setup l m (l.advance call stage)
  | ended (loop : Nat) : Moved setup l (.ends loop) { l with pool := l.pool.loopEnds loop }
  | settled : Moved setup l .settle { l with
        pool := l.pool.settle
        draining := l.draining.filter fun g => !l.pool.isDrained (l.loopsOf g) }
  | parent (m : LifeMove) (s : Signal) : Moved setup l m { l with parent := s }

theorem moved (setup : PoolSetup) (l : Life) (m : LifeMove) :
    Moved setup l m (l.move setup m) := by
  cases m with
  | start =>
    show Moved setup l _ (l.start setup).2
    unfold start
    by_cases h : l.pool.status = .stopped ∧ setup.pollInterval ≠ .zero
    · rw [Pool.start_of_stopped h.1 h.2]
      exact .started h.1 h.2
    · obtain ⟨e, he⟩ := Pool.start_of_not h setup.workerCount
      rw [he]
      exact .nothing _
  | stop =>
    show Moved setup l _ l.stop.2
    unfold stop
    by_cases h : l.pool.status = .running
    · rw [Pool.stop_of_running h]
      exact .stopped h
    · rw [Pool.stop_of_not h]
      exact .nothing _
  | signal call =>
    show Moved setup l _ (l.signal call)
    unfold signal
    split
    · exact .signalled ‹_›
    · exact .nothing _
  | ends loop => exact .ended loop
  | settle =>
    show Moved setup l _ l.settle
    unfold settle
    split
    · exact .settled
    · exact .nothing _
  | answer call =>
    show Moved setup l _ (l.answer call)
    unfold answer
    split
    · split
      · exact .nothing _
      · exact .answered ‹_› ‹_›
    · exact .nothing _
  | timeOut call =>
    show Moved setup l _ (l.leave call .timedOut)
    unfold leave
    split
    · exact .left _ (by decide)
    · exact .nothing _
  | drop call =>
    show Moved setup l _ (l.leave call .dropped)
    unfold leave
    split
    · exact .left _ (by decide)
    · exact .nothing _
  | parentShutdown | parentGone => exact .parent _ _

/-! ## The invariant -/

/-- What the moves of a pool preserve. -/
structure Tidy (l : Life) : Prop where
  stopped : l.pool.status = .stopped → l.pool.alive = [] ∧ l.draining = []
  running : l.pool.status = .running → l.generations ≠ [] ∧ l.draining = [] ∧
    l.pool.loops = l.loopsOf l.last ∧ ∀ c ∈ l.stops, c.generation ≠ l.last
  stopping : l.pool.status = .stopping → l.generations ≠ [] ∧ l.draining = [l.last]
  /-- Only loops of the last generation are alive. -/
  alive : ∀ n ∈ l.pool.alive, n ∈ l.loopsOf l.last
  drains : l.pool.drains = l.draining.map l.loopsOf
  fresh : ∀ g, ∀ n ∈ l.loopsOf g, n < l.pool.nextLoop
  apart : ∀ g g' n, n ∈ l.loopsOf g → n ∈ l.loopsOf g' → g = g'
  known : ∀ c ∈ l.stops, c.generation < l.generations.length
  /-- Each generation is drained at most once. -/
  once : (l.stops.map (·.generation)).Nodup
  ended : ∀ c ∈ l.stops, c.generation ∉ l.draining → ∀ n ∈ l.loopsOf c.generation, n ∉ l.pool.alive
  answered : ∀ c ∈ l.stops, c.stage = .answered → c.generation ∉ l.draining

section
variable {setup : PoolSetup} {l : Life}

theorem loopsOf_append (l : Life) (loops : List Nat) (g : Nat) :
    (l.generations ++ [loops]).getD g [] =
      if g = l.generations.length then loops else l.loopsOf g := by
  rw [loopsOf, List.getD_eq_getElem?_getD, List.getD_eq_getElem?_getD, List.getElem?_append]
  by_cases hlt : g < l.generations.length
  · rw [if_pos hlt, if_neg (Nat.ne_of_lt hlt)]
  · rw [if_neg hlt, List.getElem?_eq_none (Nat.le_of_not_lt hlt)]
    by_cases he : g = l.generations.length
    · simp [he]
    · rw [if_neg he, List.getElem?_eq_none (by simp; omega)]

theorem generations_advance (l : Life) (call : Nat) (stage : Stage) :
    (l.advance call stage).stops.map (·.generation) = l.stops.map (·.generation) := by
  refine List.ext_getElem? fun i => ?_
  simp only [advance, List.getElem?_map, List.getElem?_modify]
  by_cases h : call = i
  · subst h
    cases l.stops[call]? <;> simp
  · simp [h]

theorem mem_advance {call : Nat} {stage : Stage} {c : StopCall}
    (h : c ∈ (l.advance call stage).stops) :
    c ∈ l.stops ∨ ∃ c' ∈ l.stops, l.stops[call]? = some c' ∧ c = { c' with stage := stage } := by
  obtain ⟨i, hi⟩ := List.mem_iff_getElem?.1 h
  simp only [advance, List.getElem?_modify] at hi
  by_cases he : call = i
  · subst he
    cases hc : l.stops[call]? with
    | none => simp [hc] at hi
    | some c' =>
      simp only [hc, if_true, Option.map_eq_map, Option.map_some, Option.some.injEq] at hi
      exact .inr ⟨c', List.mem_of_getElem? hc, rfl, hi.symm⟩
  · exact .inl (List.mem_of_getElem? (i := i) (by simpa [he] using hi))

theorem tidy_new : Tidy {} := by
  constructor <;> simp [loopsOf]

/-- A stopped pool gets loops that nobody had before. -/
theorem Tidy.started (h : Tidy l) (stopped : l.pool.status = .stopped) (setup : PoolSetup) :
    Tidy { l with
      pool := { l.pool with
        status := .running
        nextLoop := l.pool.nextLoop + setup.workerCount
        loops := List.range' l.pool.nextLoop setup.workerCount
        alive := l.pool.alive ++ List.range' l.pool.nextLoop setup.workerCount }
      generations := l.generations ++ [List.range' l.pool.nextLoop setup.workerCount]
      signals := l.signals ++ [{}] } := by
  obtain ⟨halive, hdraining⟩ := h.stopped stopped
  have hlast : (l.generations ++ [List.range' l.pool.nextLoop setup.workerCount]).length - 1 =
      l.generations.length := by simp
  have hnew : ∀ g, ∀ n ∈ l.loopsOf g, n ∉ List.range' l.pool.nextLoop setup.workerCount := by
    intro g n hn hm
    have := h.fresh g n hn
    rw [List.mem_range'_1] at hm
    omega
  have hold : ∀ c ∈ l.stops, c.generation ≠ l.generations.length :=
    fun c hc => Nat.ne_of_lt (h.known c hc)
  refine
    { stopped := by rintro ⟨⟩
      running := fun _ => ⟨by simp, hdraining, ?loops, ?unstopped⟩
      stopping := by rintro ⟨⟩
      alive := ?alive, drains := ?drains, fresh := ?fresh, apart := ?apart, known := ?known
      once := h.once, ended := ?ended, answered := h.answered }
  case loops => simp only [loopsOf, last, hlast, loopsOf_append, if_true]
  case unstopped =>
    intro c hc
    simpa only [last, hlast] using hold c hc
  case alive =>
    intro n hn
    rw [halive, List.nil_append] at hn
    simpa only [loopsOf, last, hlast, loopsOf_append, if_true] using hn
  case drains => simpa [hdraining] using h.drains
  case fresh =>
    intro g n hn
    simp only [loopsOf, loopsOf_append] at hn
    split at hn
    · rw [List.mem_range'_1] at hn
      exact hn.2
    · exact Nat.lt_add_right _ (h.fresh g n hn)
  case apart =>
    intro g g' n hn hn'
    simp only [loopsOf, loopsOf_append] at hn hn'
    split at hn <;> split at hn'
    · rename_i hg hg'
      exact hg.trans hg'.symm
    · exact absurd hn (hnew g' n hn')
    · exact absurd hn' (hnew g n hn)
    · exact h.apart g g' n hn hn'
  case known =>
    intro c hc
    simpa using Nat.lt_succ_of_lt (h.known c hc)
  case ended =>
    intro c hc hd n hn
    simp only [loopsOf, loopsOf_append, if_neg (hold c hc)] at hn
    rw [halive, List.nil_append]
    exact hnew _ n hn

/-- A running pool hands its loops over, which nobody has done yet. -/
theorem Tidy.stops (h : Tidy l) (running : l.pool.status = .running) :
    Tidy { l with
      pool := { l.pool with
        status := .stopping, loops := [], drains := l.pool.drains ++ [l.pool.loops] }
      stops := l.stops ++ [⟨l.last, .signalling⟩]
      draining := l.draining ++ [l.last] } := by
  obtain ⟨hne, hdraining, hloops, hnot⟩ := h.running running
  have hpos := List.length_pos_iff.2 hne
  refine
    { stopped := by rintro ⟨⟩
      running := by rintro ⟨⟩
      stopping := fun _ => ⟨hne, by simp [hdraining, last]⟩
      alive := h.alive, drains := ?drains, fresh := h.fresh, apart := h.apart, known := ?known
      once := ?once, ended := ?ended, answered := ?answered }
  case drains => simp [h.drains, hloops, loopsOf]
  case known =>
    intro c hc
    rcases List.mem_append.1 hc with hc | hc
    · exact h.known c hc
    · rw [List.mem_singleton.1 hc]
      show l.generations.length - 1 < l.generations.length
      omega
  case once =>
    rw [List.map_append, List.nodup_append]
    refine ⟨h.once, by simp, ?_⟩
    rintro g hg g' hg' rfl
    obtain ⟨c, hc, rfl⟩ := List.mem_map.1 hg
    exact hnot c hc (by simpa using hg')
  case ended =>
    intro c hc hd
    rcases List.mem_append.1 hc with hc | hc
    · exact h.ended c hc fun hm => hd (List.mem_append_left _ hm)
    · rw [List.mem_singleton.1 hc] at hd
      exact absurd (List.mem_append_right _ (List.mem_singleton_self _)) hd
  case answered =>
    intro c hc ha
    rcases List.mem_append.1 hc with hc | hc
    · rw [hdraining, List.nil_append, List.mem_singleton]
      exact hnot c hc
    · rw [List.mem_singleton.1 hc] at ha
      cases ha

theorem Tidy.advance (h : Tidy l) {call : Nat} {stage : Stage} (signals : List Signal)
    (ended : stage = .answered → ∀ c, l.stops[call]? = some c → c.generation ∉ l.draining) :
    Tidy { l.advance call stage with signals := signals } := by
  have hgen : ∀ c ∈ (l.advance call stage).stops, ∃ c' ∈ l.stops, c'.generation = c.generation := by
    intro c hc
    rcases mem_advance hc with hc | ⟨c', hc', -, rfl⟩
    · exact ⟨c, hc, rfl⟩
    · exact ⟨c', hc', rfl⟩
  refine
    { stopped := h.stopped, running := ?running, stopping := h.stopping, alive := h.alive
      drains := h.drains, fresh := h.fresh, apart := h.apart, known := ?known, once := ?once
      ended := ?ended, answered := ?answered }
  case running =>
    intro hr
    obtain ⟨hne, hdraining, hloops, hnot⟩ := h.running hr
    refine ⟨hne, hdraining, hloops, fun c hc => ?_⟩
    obtain ⟨c', hc', he⟩ := hgen c hc
    exact he ▸ hnot c' hc'
  case known =>
    intro c hc
    obtain ⟨c', hc', he⟩ := hgen c hc
    exact he ▸ h.known c' hc'
  case once =>
    show ((l.advance call stage).stops.map (·.generation)).Nodup
    rw [generations_advance]
    exact h.once
  case ended =>
    intro c hc
    obtain ⟨c', hc', he⟩ := hgen c hc
    exact he ▸ h.ended c' hc'
  case answered =>
    intro c hc ha
    rcases mem_advance hc with hc | ⟨c', -, hcall, rfl⟩
    · exact h.answered c hc ha
    · exact ended ha c' hcall

theorem Tidy.ends (h : Tidy l) (loop : Nat) : Tidy { l with pool := l.pool.loopEnds loop } := by
  have hsub : ∀ n ∈ (l.pool.loopEnds loop).alive, n ∈ l.pool.alive :=
    fun n hn => (List.mem_filter.1 hn).1
  refine { h with stopped := ?stopped, alive := ?alive, ended := ?ended }
  case stopped =>
    intro hs
    obtain ⟨halive, hdraining⟩ := h.stopped hs
    exact ⟨by simp [Pool.loopEnds, halive], hdraining⟩
  case alive =>
    intro n hn
    exact h.alive n (hsub n hn)
  case ended =>
    intro c hc hd n hn hm
    exact h.ended c hc hd n hn (hsub n hm)

theorem isDrained_iff {p : Pool} {drain : List Nat} :
    p.isDrained drain = true ↔ ∀ n ∈ drain, n ∉ p.alive := by
  simp [Pool.isDrained]

/-- A drain that has nothing left to wait for is that of the last generation, of which no loop is
    alive. -/
theorem Tidy.drained (h : Tidy l) (hany : l.pool.drains.any l.pool.isDrained = true) :
    l.pool.status = .stopping ∧ l.draining = [l.last] ∧ l.pool.alive = [] := by
  obtain ⟨d, hd, hdrained⟩ := List.any_eq_true.1 hany
  rw [h.drains] at hd
  obtain ⟨g, hg, rfl⟩ := List.mem_map.1 hd
  have hstopping : l.pool.status = .stopping := by
    cases hs : l.pool.status with
    | stopped => rw [(h.stopped hs).2] at hg; cases hg
    | running => rw [(h.running hs).2.1] at hg; cases hg
    | stopping => rfl
  obtain ⟨-, hdraining⟩ := h.stopping hstopping
  obtain rfl : g = l.last := by simpa [hdraining] using hg
  refine ⟨hstopping, hdraining, List.eq_nil_iff_forall_not_mem.2 fun n hn => ?_⟩
  exact isDrained_iff.1 hdrained n (h.alive n hn) hn

theorem Tidy.settled (h : Tidy l) : Tidy { l with
    pool := l.pool.settle
    draining := l.draining.filter fun g => !l.pool.isDrained (l.loopsOf g) } := by
  -- there is one drain at most, so either it ends or nothing happens
  by_cases hany : l.pool.drains.any l.pool.isDrained = true
  · obtain ⟨-, hdraining, halive⟩ := h.drained hany
    have hdrained : l.pool.isDrained (l.loopsOf l.last) = true :=
      isDrained_iff.2 fun n _ hn => by rw [halive] at hn; cases hn
    have hsettle : l.pool.settle = { l.pool with
        status := .stopped, drains := l.pool.drains.filter fun d => !l.pool.isDrained d } := by
      rw [Pool.settle, if_pos hany]
    have hnone : l.draining.filter (fun g => !l.pool.isDrained (l.loopsOf g)) = [] := by
      simp [hdraining, hdrained]
    rw [hsettle, hnone]
    refine
      { stopped := fun _ => ⟨halive, rfl⟩
        running := by rintro ⟨⟩
        stopping := by rintro ⟨⟩
        alive := h.alive, drains := ?drains, fresh := h.fresh, apart := h.apart, known := h.known
        once := h.once, ended := ?ended, answered := fun c hc ha hm => by cases hm }
    case drains => simp [h.drains, hdraining, hdrained]
    case ended =>
      intro c hc _ n _
      show n ∉ l.pool.alive
      rw [halive]
      exact List.not_mem_nil
  · have hsettle : l.pool.settle = l.pool := by rw [Pool.settle, if_neg hany]
    have hall : l.draining.filter (fun g => !l.pool.isDrained (l.loopsOf g)) = l.draining := by
      refine List.filter_eq_self.2 fun g hg => ?_
      rw [Bool.not_eq_true', Bool.eq_false_iff]
      refine fun hd => hany (List.any_eq_true.2 ⟨l.loopsOf g, ?_, hd⟩)
      rw [h.drains]
      exact List.mem_map_of_mem hg
    rw [hsettle, hall]
    exact h

theorem Tidy.move (h : Tidy l) (m : LifeMove) : Tidy (l.move setup m) := by
  generalize hl : l.move setup m = l'
  cases hl ▸ moved setup l m with
  | nothing => exact h
  | started stopped => exact h.started stopped setup
  | stopped running => exact h.stops running
  | @signalled call c called => exact h.advance _ (by rintro ⟨⟩)
  | @answered call c called ended =>
    refine h.advance l.signals fun _ c' hc' => ?_
    rw [called] at hc'
    exact Option.some.inj hc' ▸ ended
  | left m unanswered => exact h.advance l.signals fun ha => absurd ha unanswered
  | ended loop => exact h.ends loop
  | settled => exact h.settled
  | parent m s =>
    exact ⟨h.stopped, h.running, h.stopping, h.alive, h.drains, h.fresh, h.apart, h.known, h.once,
      h.ended, h.answered⟩

/-- The pools that a new one can become. -/
inductive Run (setup : PoolSetup) : Life → Prop where
  | new : Run setup {}
  | next {l : Life} (past : Run setup l) (m : LifeMove) : Run setup (l.move setup m)

theorem Run.tidy (run : Run setup l) : Tidy l := by
  induction run with
  | new => exact tidy_new
  | next past m ih => exact ih.move m

/-- It can become what it can become by a list of moves. -/
theorem Run.follow (run : Run setup l) (moves : List LifeMove) :
    Run setup (moves.foldl (Life.move setup) l) := by
  induction moves generalizing l with
  | nil => exact run
  | cons m moves ih => exact ih (run.next m)

/-! ## Start and stop -/

/-- A start is let in, or changes nothing. -/
theorem start_cases (setup : PoolSetup) (l : Life) :
    ((l.pool.status = .stopped ∧ setup.pollInterval ≠ .zero) ∧
      l.start setup =
        (.ok (List.range' l.pool.nextLoop setup.workerCount), l.move setup .start)) ∨
    (¬(l.pool.status = .stopped ∧ setup.pollInterval ≠ .zero) ∧
      ∃ e, l.start setup = (.error e, l)) := by
  by_cases h : l.pool.status = .stopped ∧ setup.pollInterval ≠ .zero
  · refine .inl ⟨h, ?_⟩
    simp only [move, start, Pool.start_of_stopped h.1 h.2]
  · obtain ⟨e, he⟩ := Pool.start_of_not h setup.workerCount
    exact .inr ⟨h, e, by rw [start, he]⟩

/-- A stop is let in, or changes nothing. -/
theorem stop_cases (setup : PoolSetup) (l : Life) :
    (l.pool.status = .running ∧ l.stop = (.ok (), l.move setup .stop)) ∨
    (l.pool.status ≠ .running ∧ l.stop = (.error .notRunning, l)) := by
  by_cases h : l.pool.status = .running
  · refine .inl ⟨h, ?_⟩
    simp only [move, stop, Pool.stop_of_running h]
  · exact .inr ⟨h, by rw [stop, Pool.stop_of_not h]⟩

/-- What is alive after a start that was let in. -/
theorem Tidy.start (h : Tidy l) (stopped : l.pool.status = .stopped)
    (beats : setup.pollInterval ≠ .zero) :
    (l.move setup .start).pool.status = .running ∧
      (l.move setup .start).pool.alive = List.range' l.pool.nextLoop setup.workerCount := by
  simp [Life.move, Life.start, Pool.start_of_stopped stopped beats, (h.stopped stopped).1]

/-- The status goes round in one direction, and back to the beginning only when no loop is alive. -/
theorem Tidy.status (h : Tidy l) {m : LifeMove}
    (changes : (l.move setup m).pool.status ≠ l.pool.status) :
    (m = .start ∧ l.pool.status = .stopped ∧ (l.move setup m).pool.status = .running) ∨
    (m = .stop ∧ l.pool.status = .running ∧ (l.move setup m).pool.status = .stopping) ∨
    (m = .settle ∧ l.pool.status = .stopping ∧ (l.move setup m).pool.status = .stopped ∧
      l.pool.alive = []) := by
  generalize hl : l.move setup m = l' at changes ⊢
  cases hl ▸ moved setup l m with
  | started stopped => exact .inl ⟨rfl, stopped, rfl⟩
  | stopped running => exact .inr (.inl ⟨rfl, running, rfl⟩)
  | settled =>
    by_cases hany : l.pool.drains.any l.pool.isDrained = true
    · obtain ⟨hstopping, -, halive⟩ := h.drained hany
      exact .inr (.inr ⟨rfl, hstopping, by simp only [Pool.settle, if_pos hany], halive⟩)
    · exact absurd (by simp only [Pool.settle, if_neg hany]) changes
  | nothing | signalled | answered | left | ended | parent => exact absurd rfl changes

/-- **The generations of a pool never overlap.** -/
theorem generations_never_overlap (run : Run setup l) :
    (l.pool.status = .stopped → l.pool.alive = []) ∧
    -- starting
    ((∃ loops, (l.start setup).1 = .ok loops) ↔
      l.pool.status = .stopped ∧ setup.pollInterval ≠ .zero) ∧
    (∀ loops, (l.start setup).1 = .ok loops → (l.start setup).2.pool.status = .running ∧
      (l.start setup).2.pool.alive = loops ∧ loops.length = setup.workerCount ∧ loops.Nodup ∧
      ∀ g, ∀ n ∈ l.loopsOf g, n ∉ loops) ∧
    (∀ e, (l.start setup).1 = .error e → (l.start setup).2 = l) ∧
    -- stopping
    (l.stop.1 = .error .notRunning ↔ l.pool.status ≠ .running) ∧
    (∀ e, l.stop.1 = .error e → l.stop.2 = l) ∧
    (l.stop.1 = .ok () → l.pool.status = .running ∧ l.stop.2.pool.status = .stopping ∧
      l.stop.2.stops = l.stops ++ [⟨l.last, .signalling⟩]) ∧
    (l.stops.map (·.generation)).Nodup ∧
    (∀ c ∈ l.stops, c.stage = .answered → ∀ n ∈ l.loopsOf c.generation, n ∉ l.pool.alive) ∧
    -- the status
    (∀ m, (l.move setup m).pool.status ≠ l.pool.status →
      (m = .start ∧ l.pool.status = .stopped ∧ (l.move setup m).pool.status = .running) ∨
      (m = .stop ∧ l.pool.status = .running ∧ (l.move setup m).pool.status = .stopping) ∨
      (m = .settle ∧ l.pool.status = .stopping ∧ (l.move setup m).pool.status = .stopped ∧
        l.pool.alive = [])) ∧
    -- the loops
    ∀ n ∈ l.pool.alive, ∀ n' ∈ l.pool.alive, ∀ g g', n ∈ l.loopsOf g → n' ∈ l.loopsOf g' → g = g' := by
  have h := run.tidy
  refine ⟨fun hs => (h.stopped hs).1, ?_, ?_, ?_, ?_, ?_, ?_, h.once,
    fun c hc ha => h.ended c hc (h.answered c hc ha), fun m => h.status, ?_⟩
  · rcases start_cases setup l with ⟨hok, he⟩ | ⟨hnot, e, he⟩ <;> rw [he]
    · exact ⟨fun _ => hok, fun _ => ⟨_, rfl⟩⟩
    · exact ⟨fun ⟨_, hloops⟩ => (by cases hloops), fun hok => absurd hok hnot⟩
  · intro loops hloops
    rcases start_cases setup l with ⟨⟨hs, hz⟩, he⟩ | ⟨-, e, he⟩ <;> rw [he] at hloops ⊢
    · obtain rfl := Except.ok.inj hloops
      obtain ⟨hstatus, halive⟩ := h.start hs hz
      refine ⟨hstatus, halive, List.length_range', List.nodup_range', fun g n hn hm => ?_⟩
      have hold := h.fresh g n hn
      rw [List.mem_range'_1] at hm
      omega
    · cases hloops
  · intro e he
    rcases start_cases setup l with ⟨-, he'⟩ | ⟨-, e', he'⟩ <;> rw [he'] at he ⊢
    cases he
  · rcases stop_cases setup l with ⟨hr, he⟩ | ⟨hn, he⟩ <;> simp [*]
  · intro e he
    rcases stop_cases setup l with ⟨-, he'⟩ | ⟨-, he'⟩ <;> rw [he'] at he ⊢
    cases he
  · intro hok
    rcases stop_cases setup l with ⟨hr, he⟩ | ⟨-, he⟩ <;> rw [he] at hok ⊢
    · refine ⟨hr, ?_, ?_⟩ <;> simp [move, stop, Pool.stop_of_running hr]
    · cases hok
  · intro n hn n' hn' g g' hg hg'
    rw [h.apart g l.last n hg (h.alive n hn), h.apart g' l.last n' hg' (h.alive n' hn')]

end

/-- A pool of two loops, stopped by a call that did not wait for them, and started anew. -/
def restarted : Life :=
  [.start, .stop, .signal 0, .timeOut 0, .start, .ends 1, .settle, .ends 0, .settle, .start].foldl
    (move { workerCount := 2 }) {}

theorem generations_never_overlap_restarted :
    restarted.pool.alive = [2, 3] ∧ restarted.stops = [⟨0, .timedOut⟩] ∧
      (restarted.stops.map (·.generation)).Nodup ∧
      ((∃ loops, (restarted.start { workerCount := 2 }).1 = .ok loops) ↔
        restarted.pool.status = .stopped ∧ Span.ofSecs 1 ≠ .zero) := by
  have run : Run { workerCount := 2 } restarted := Run.new.follow _
  obtain ⟨-, hstart, -, -, -, -, -, honce, -⟩ := generations_never_overlap run
  exact ⟨by decide, by decide, honce, hstart⟩

end Life

end JobQueue
