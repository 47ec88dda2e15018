/-
  The tasks of a scenario.

  Most steps of a scenario leave its tasks and its pool alone (`board`).  Of
  the others most are nothing to its worker loops (`Keeps`): a handler is
  spawned, goes on or ends, or a loop comes to another phase of its cycle.
-/
import JobQueue.Proofs.Store.Keyed
import JobQueue.Proofs.Worker.Course
import JobQueue.Simulation.Run

namespace JobQueue

/-! ## Steps that are nothing to the tasks -/

namespace Simulation.World

variable {σ : Type} (s : Setup σ) (w : World σ)

/-- The tasks, the number of the next one, and the pool. -/
def board : Keyed Nat Task × Nat × Pool := (w.tasks, w.nextTask, w.pool)

theorem board_foldl {α : Type} {f : World σ → α → World σ} (hf : ∀ w a, (f w a).board = w.board)
    (as : List α) : (as.foldl f w).board = w.board := by
  induction as generalizing w with
  | nil => rfl
  | cons a as ih => exact (ih (f w a)).trans (hf w a)

theorem board_setAlarm (tick : Nat) (p : Party) : (w.setAlarm tick p).board = w.board := by
  unfold setAlarm
  split <;> rfl

theorem board_giveWay (p : Party) : (w.giveWay p).board = w.board := rfl

theorem board_wake (p : Party) : (w.wake p).board = w.board := by
  unfold wake
  split
  · rfl
  · split
    · rfl
    · split <;> rfl

theorem board_wakeSpent : w.wakeSpent.board = w.board :=
  board_foldl _ (fun w p => board_wake w p) _

theorem board_wakeListeners : w.wakeListeners.board = w.board := by
  unfold wakeListeners
  exact board_foldl w (fun w _ => board_wake w _) _

theorem board_signalPool : w.signalPool.board = w.board := by
  unfold signalPool wakeGeneration
  dsimp only
  rw [board_foldl _ fun w _ => board_wake w _]
  rfl

theorem board_jump (tick : Nat) : (w.jump tick).board = w.board := by
  unfold jump
  dsimp only
  rw [board_foldl _ fun w _ => board_wake w _]
  rfl

theorem board_queueStep (q : QueueStep) : (w.queueStep s q).2.board = w.board := by
  cases q with
  | failPair => unfold queueStep; dsimp only; split <;> rfl
  | _ => rfl

theorem board_follow (a : Attempt) (job : Job) (script : Script) (allowed : Nat) :
    (w.follow s a job script allowed).2.board = w.board := by
  induction script generalizing allowed w with
  | nil => rfl
  | cons action rest ih =>
    have hsleep : ∀ i : Instant, (if allowed = 0 then (Progress.spent i.tick rest, w)
        else if i.tick ≤ w.ticks then w.follow s a job rest (allowed - 1)
        else (.asleep i.tick rest, w)).2.board = w.board := by
      intro i
      split
      · rfl
      · split
        · exact ih w _
        · rfl
    unfold follow
    cases action with
    | sleep | awaitDeadline => exact hsleep _
    | failBefore n => 
      dsimp only
      split
      · rfl
      · exact ih w _
    | check =>
      dsimp only
      split
      · rfl
      · exact ih w _
    | step make => exact (ih _ _).trans (board_queueStep s w _)
    | _ => rfl

theorem board_handlerTurn (a : Attempt) (job : Job) (script : Script) (time : Option Nat) :
    (w.handlerTurn s a job script time).2.board = w.board := by
  cases time with
  | none => exact board_follow ..
  | some tick =>
    unfold handlerTurn
    dsimp only
    split
    · exact board_follow ..
    · rfl

theorem board_noteEnd (e : TaskEnd HandlerResult) (a : Attempt) (job : Job) :
    (w.noteEnd s e a job).board = w.board := by
  unfold noteEnd
  split <;> rfl

end Simulation.World

/-! ## Steps that are nothing to the loops -/

namespace Simulation

/-- The loop that a task is. -/
def Task.loop? : Task → Option Nat
  | .loop l _ => some l.number
  | _ => none

/-- If the task is a loop in a cycle, its handler runs or has come to the end. -/
def Task.Late : Task → Prop
  | .loop _ (some p) => (∃ job, p = .running job) ∨ p.left ≤ 2
  | _ => True

namespace World

variable {σ : Type} {s : Setup σ} {w w' w'' : World σ} {id n : Nat} {t : Task}

/-- The loop that runs as a task. -/
def loop? (w : World σ) (id : Nat) : Option Nat := (w.tasks.get? id).bind Task.loop?

/-- The tasks have numbers below the next one. -/
structure Orderly (w : World σ) : Prop where
  below : ∀ id t, w.tasks.get? id = some t → id < w.nextTask
  late : ∀ id t, w.tasks.get? id = some t → t.Late

/-- What comes of a world in steps that are nothing to its loops. -/
structure Keeps (w w' : World σ) : Prop where
  orderly : w'.Orderly
  pool : w'.pool = w.pool
  room : w.nextTask ≤ w'.nextTask
  loop : ∀ id, w'.loop? id = w.loop? id

theorem Keeps.refl (h : w.Orderly) : Keeps w w := ⟨h, rfl, Nat.le_refl _, fun _ => rfl⟩

/-- One after the other. -/
theorem Keeps.next (h : Keeps w w') (h' : w'.Orderly → Keeps w' w'') : Keeps w w'' where
  orderly := (h' h.orderly).orderly
  pool := (h' h.orderly).pool.trans h.pool
  room := h.room.trans (h' h.orderly).room
  loop id := ((h' h.orderly).loop id).trans (h.loop id)

theorem keeps_of_board (h : w.Orderly) (board : w'.board = w.board) : Keeps w w' := by
  obtain ⟨tasks, next, pool⟩ : w'.tasks = w.tasks ∧ w'.nextTask = w.nextTask ∧ w'.pool = w.pool := by
    simpa [World.board] using board
  refine ⟨⟨?_, ?_⟩, pool, next.ge, fun id => by rw [loop?, tasks]; rfl⟩
  · rw [tasks, next]
    exact h.below
  · rw [tasks]
    exact h.late

theorem lt_of_loop? (h : w.Orderly) (here : w.loop? id = some n) : id < w.nextTask := by
  obtain ⟨t, ht, -⟩ := Option.bind_eq_some_iff.1 here
  exact h.below id t ht

theorem loop?_put (tasks : w'.tasks = w.tasks.put id t) (id' : Nat) :
    w'.loop? id' = if id' = id then t.loop? else w.loop? id' := by
  rw [loop?, tasks, Keyed.get?_put]
  by_cases he : id' = id
  · simp [he]
  · simp [he, Ne.symm he, loop?]

theorem loop?_spawn (w : World σ) (t : Task) (id : Nat) :
    (w.spawn t).loop? id = if id = w.nextTask then t.loop? else w.loop? id :=
  loop?_put rfl id

theorem Orderly.put (h : w.Orderly) (tasks : w'.tasks = w.tasks.put id t)
    (room : w.nextTask ≤ w'.nextTask) (below : id < w'.nextTask) (late : t.Late) : w'.Orderly := by
  have hget : ∀ id' t', w'.tasks.get? id' = some t' →
      id' = id ∧ t' = t ∨ w.tasks.get? id' = some t' := by
    intro id' t' ht
    rw [tasks, Keyed.get?_put] at ht
    split at ht
    · rename_i he
      exact .inl ⟨he.symm, (Option.some.inj ht).symm⟩
    · exact .inr ht
  refine ⟨fun id' t' ht => ?_, fun id' t' ht => ?_⟩
  · obtain ⟨rfl, rfl⟩ | ht := hget id' t' ht
    · exact below
    · exact (h.below id' t' ht).trans_le room
  · obtain ⟨rfl, rfl⟩ | ht := hget id' t' ht
    · exact late
    · exact h.late id' t' ht

theorem keeps_setTask (h : w.Orderly) (below : id < w.nextTask) (late : t.Late)
    (loop : t.loop? = w.loop? id) : Keeps w (w.setTask id t) := by
  refine ⟨h.put rfl (Nat.le_refl _) below late, rfl, Nat.le_refl _, fun id' => ?_⟩
  rw [loop?_put rfl]
  split
  · rw [loop, ‹id' = id›]
  · rfl

theorem Orderly.loop?_next (h : w.Orderly) : w.loop? w.nextTask = none := by
  cases hl : w.loop? w.nextTask with
  | none => rfl
  | some n => exact absurd (lt_of_loop? h hl) (Nat.lt_irrefl _)

theorem Orderly.spawn (h : w.Orderly) (late : t.Late) : (w.spawn t).Orderly :=
  h.put rfl (Nat.le_succ _) (Nat.lt_succ_self _) late

theorem keeps_spawn (h : w.Orderly) (late : t.Late) (loop : t.loop? = none) : Keeps w (w.spawn t) := by
  refine ⟨h.spawn late, rfl, Nat.le_succ _, fun id' => ?_⟩
  rw [loop?_spawn]
  split
  · rw [loop, ‹id' = w.nextTask›, h.loop?_next]
  · rfl

theorem loop?_erase (tasks : w'.tasks = w.tasks.erase id) (id' : Nat) :
    w'.loop? id' = if id' = id then none else w.loop? id' := by
  rw [loop?, tasks, Keyed.get?_erase]
  by_cases he : id' = id
  · simp [he]
  · simp [he, Ne.symm he, loop?]

theorem Orderly.erase (h : w.Orderly) (tasks : w'.tasks = w.tasks.erase id)
    (next : w'.nextTask = w.nextTask) : w'.Orderly := by
  have hget : ∀ id' t', w'.tasks.get? id' = some t' → w.tasks.get? id' = some t' := by
    intro id' t' ht
    rw [tasks, Keyed.get?_erase] at ht
    split at ht
    · cases ht
    · exact ht
  exact ⟨fun id' t' ht => next ▸ h.below id' t' (hget id' t' ht),
    fun id' t' ht => h.late id' t' (hget id' t' ht)⟩

theorem keeps_endTask (h : w.Orderly) (loop : w.loop? id = none) : Keeps w (w.endTask id) := by
  refine ⟨h.erase rfl rfl, rfl, Nat.le_refl _, fun id' => ?_⟩
  rw [loop?_erase rfl]
  split
  · rw [‹id' = id›, loop]
  · rfl

end World

end Simulation

end JobQueue
