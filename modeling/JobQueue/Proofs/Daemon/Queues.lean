/-
  Which jobs the workers of a daemon serve.

  Every store answers a submission with the job that it describes, so what a
  worker sees as the queue of a job is the name that its producer gave.  The
  names that producers may use are proper, and the list of them that a daemon
  reads is therefore the one that was written for it.
-/
import JobQueue.Proofs.Daemon.Settings
import JobQueue.Proofs.Store.Submitted

namespace JobQueue

/-- What a producer gets back is a job on the queue that it named. -/
theorem queue_of_submit {rules : Rules} {now : Millis} {id : String} {sub : Submission} {job : Job}
    {s : AnyStore} (h : (submit (AnyStore.store rules) now id sub s).1 = .ok job) :
    job.queue = sub.queue := by
  rw [(AnyStore.kept_of_submit (Prod.ext h rfl)).1]
  rfl

namespace Settings

variable {vars : Variables} {raw : String} {queues : List String}

/-- The list of queues is the one that was written. -/
theorem Describes.queues_of_written {s : Settings} (h : Describes vars s)
    (set : vars queuesKey = some raw) (written : Written queues raw.toList)
    (proper : ∀ q ∈ queues, Proper q) : s.queues = queues := by
  rcases h.queues with ⟨raw', set', written', proper'⟩ | ⟨unset, -⟩
  · obtain rfl := Option.some.inj (set.symm.trans set')
    rw [← names_of_written written' proper', names_of_written written proper]
  · rw [set] at unset
    cases unset

/-- **The daemon serves the queues that are written for it.**  Write any list of queue names with
    commas, with blanks around each name and with any number of blank stretches: if the typed
    variables are fine, exactly that list is read.  If it is not empty, a worker with that list
    takes up a job that a producer submitted to a store of any kind just when the queue that the
    producer named is in the list. -/
theorem written_queues_are_served (valid : ∀ q ∈ queues, Submission.checkQueue q = .ok ())
    (set : vars queuesKey = some raw) (written : Written queues raw.toList)
    (fine : ∀ v ∈ typed, v.Fine vars) :
    ∃ s, ofVariables vars = .ok s ∧ s.queues = queues ∧
      (queues ≠ [] → ∀ (rules : Rules) (store : AnyStore) (now : Millis) (id : String)
        (sub : Submission) (job : Job),
        (submit (AnyStore.store rules) now id sub store).1 = .ok job →
          (QueueSet.accepts ⟨s.queues⟩ job.queue = true ↔ sub.queue ∈ queues)) := by
  obtain ⟨s, hs⟩ := (exists_ofVariables_iff vars).mpr fine
  have ends := ends_ofVariables vars
  rw [hs] at ends
  have proper : ∀ q ∈ queues, Proper q :=
    fun q hq => proper_of_isQueueName (Submission.checkQueue_eq_ok_iff.mp (valid q hq))
  have hqueues : s.queues = queues := ends.of_ok.1.queues_of_written set written proper
  refine ⟨s, hs, hqueues, ?_⟩
  intro hne rules store now id sub job hjob
  rw [hqueues, queue_of_submit hjob, QueueSet.accepts]
  simp [hne]

/-- Three names, one of them twice, with blanks and empty stretches between them. -/
def threeNames : Variables := fun key =>
  if key = queuesKey then some " mail ,,\t, a.b,mail," else if key = workerCountKey then some " +2"
  else none

def onQueue (queue : String) : Submission := ⟨queue, "t", "o", .empty, {}⟩

/-- The names are read in their order, the workers serve a job on one of them, and leave a job on
    another queue alone. -/
theorem written_queues_are_served_threeNames :
    ∃ s, ofVariables threeNames = .ok s ∧ s.queues = ["mail", "a.b", "mail"] ∧
      (∃ job, (submit (AnyStore.store .default) 0 "x" (onQueue "a.b") (.volatile .empty)).1 =
        .ok job ∧ QueueSet.accepts ⟨s.queues⟩ job.queue = true) ∧
      ∃ job, (submit (AnyStore.store .default) 0 "x" (onQueue "b") (.volatile .empty)).1 =
        .ok job ∧ ¬QueueSet.accepts ⟨s.queues⟩ job.queue = true := by
  have set : threeNames queuesKey = some " mail ,,\t, a.b,mail," := by decide
  have read : names " mail ,,\t, a.b,mail," = ["mail", "a.b", "mail"] := by decide +kernel
  have written : Written ["mail", "a.b", "mail"] " mail ,,\t, a.b,mail,".toList := by
    obtain ⟨h, -⟩ := written_names " mail ,,\t, a.b,mail,".toList
    rwa [String.ofList_toList, read] at h
  have fine : ∀ v ∈ typed, v.Fine threeNames := by
    rw [← exists_ofVariables_iff]
    have hok : (ofVariables threeNames).isOk = true := by decide +kernel
    cases hr : ofVariables threeNames with
    | ok s => exact ⟨s, rfl⟩
    | error f =>
      rw [hr] at hok
      cases hok
  obtain ⟨s, hs, hqueues, served⟩ := written_queues_are_served (by decide) set written fine
  have submitted : ∀ queue, (onQueue queue).Acceptable →
      (submit (AnyStore.store .default) 0 "x" (onQueue queue) (.volatile .empty)).1 =
        .ok ((onQueue queue).toJob "x" 0) := by
    intro queue ok
    rw [submit, Submission.check_eq_ok_iff.mpr ok]
    rfl
  refine ⟨s, hs, hqueues, ⟨_, submitted "a.b" (by decide), ?_⟩, ⟨_, submitted "b" (by decide), ?_⟩⟩
  · exact (served (by decide) .default _ 0 "x" _ _ (submitted "a.b" (by decide))).mpr (by decide)
  · exact fun h => absurd
      ((served (by decide) .default _ 0 "x" _ _ (submitted "b" (by decide))).mp h) (by decide)

end Settings

end JobQueue
