/-
  Which variables the daemon accepts, and what it makes of them.

  Reading the settings is a walk down the list of the typed variables in a
  fixed order (`Ends`): it ends at the first one that is not fine, and when
  all are fine every field has the value of its variable, or its default
  (`Describes`).  One step of the walk is the same for every variable
  (`Ends.read`).
-/
import JobQueue.Proofs.Daemon.Variable
import JobQueue.Worker.Pool

namespace JobQueue.Settings

/-- What a variable gives: nothing if it is absent, or the value of its text. -/
inductive Given (vars : Variables) (key : String) (k : Kind) : Option k.Value → Prop
  | absent : vars key = none → Given vars key k none
  | value {raw : String} {v : k.Value} : vars key = some raw → k.Reads raw v →
      Given vars key k (some v)

/-- The value of a variable, or `default` if it is absent. -/
inductive Holds (vars : Variables) (key : String) (k : Kind) (default : k.Value) : k.Value → Prop
  | default : vars key = none → Holds vars key k default default
  | value {raw : String} {v : k.Value} : vars key = some raw → k.Reads raw v →
      Holds vars key k default v

/-- The settings are what the variables say, and the defaults where they say nothing. -/
structure Describes (vars : Variables) (s : Settings) : Prop where
  databaseUrl : (vars databaseUrlKey = some s.databaseUrl) ∨
    vars databaseUrlKey = none ∧ s.databaseUrl = "~/.workq/jobs.db"
  queues : (∃ raw, vars queuesKey = some raw ∧ Written s.queues raw.toList ∧
      ∀ q ∈ s.queues, Proper q) ∨
    vars queuesKey = none ∧ s.queues = []
  label : (vars labelKey = some s.pool.label ∧ ∃ c ∈ s.pool.label.toList, ¬isBlank c) ∨
    (∀ raw, vars labelKey = some raw → ∀ c ∈ raw.toList, isBlank c) ∧ s.pool.label = "worker"
  workerCount : Holds vars workerCountKey .count 4 s.pool.workerCount
  pollInterval : Holds vars pollIntervalKey .positiveSpan (.ofSecs 1) s.pool.pollInterval
  jobTimeout : Holds vars jobTimeoutKey .positiveSpan (.ofSecs 300) s.pool.jobTimeout
  shutdownTimeout : Holds vars shutdownTimeoutKey .span (.ofSecs 30) s.pool.shutdownTimeout
  cleanupInterval : Holds vars cleanupIntervalKey .positiveSpan (.ofSecs 3600) s.pool.cleanupInterval
  cleanupRetention : Holds vars cleanupRetentionKey .span (.ofSecs 604800) s.pool.cleanupRetention
  rateLimiting : Holds vars rateLimitingKey .switch false s.pool.rateLimiting
  perHour : Holds vars perHourKey .bound 1000 s.limit.perHour
  concurrent : Holds vars concurrentKey .bound 10 s.limit.concurrent
  maxBackoff : Given vars maxBackoffKey .positiveSpan s.maxBackoff
  recoveryWindow : Holds vars recoveryWindowKey .span (.ofSecs 300) s.recoveryWindow

/-! ## Reading all variables -/

/-- How the reading of the variables `todo` can end, when `P` is to hold of its result. -/
inductive Ends (vars : Variables) (P : Settings → Prop) :
    List Typed → Except SettingFault Settings → Prop
  | done {s : Settings} : P s → Ends vars P [] (.ok s)
  /-- A variable is fine, and the reading goes on. -/
  | fine {v : Typed} {todo : List Typed} {result : Except SettingFault Settings} :
      v.Fine vars → Ends vars P todo result → Ends vars P (v :: todo) result
  /-- A variable is not fine, and no other one is looked at. -/
  | faulty {v : Typed} {todo : List Typed} {raw : String} {f : SettingFault} :
      vars v.key = some raw → ¬v.Fine vars → v.Blames raw f → Ends vars P (v :: todo) (.error f)

section
variable {vars : Variables} {P : Settings → Prop} {todo : List Typed}

/-- One variable is read. -/
theorem Ends.read (v : Typed) {rest : Option v.kind.Value → Except SettingFault Settings}
    (h : ∀ o, Given vars v.key v.kind o → Ends vars P todo (rest o)) :
    Ends vars P (v :: todo) (Settings.read vars v.key (v.kind.parse v.key) >>= rest) := by
  cases hv : vars v.key with
  | none =>
    have hread : Settings.read vars v.key (v.kind.parse v.key) = .ok none := by
      rw [Settings.read, hv]
    rw [hread]
    refine .fine (fun raw hraw => ?_) (h none (.absent hv))
    rw [hv] at hraw
    cases hraw
  | some raw =>
    have hread : Settings.read vars v.key (v.kind.parse v.key) =
        (v.kind.parse v.key raw).map some := by
      rw [Settings.read, hv]
    rw [hread]
    cases hp : v.kind.parse v.key raw with
    | ok value =>
      have reads := Kind.parse_eq_ok_iff.mp hp
      refine .fine (fun raw' hraw' => ?_) (h (some value) (.value hv reads))
      obtain rfl := Option.some.inj (hv.symm.trans hraw')
      exact ⟨value, reads⟩
    | error f =>
      refine .faulty hv (fun fine => ?_) (Typed.blames_of_error hp)
      obtain ⟨value, reads⟩ := fine raw hv
      rw [Kind.parse_eq_ok_iff.mpr reads] at hp
      cases hp

theorem Given.holds {key : String} {k : Kind} {o : Option k.Value} (h : Given vars key k o)
    (default : k.Value) : Holds vars key k default (o.getD default) := by
  cases h with
  | absent h => exact .default h
  | value h reads => exact .value h reads

theorem databaseUrl_described (vars : Variables) :
    vars databaseUrlKey = some ((vars databaseUrlKey).getD defaultDatabaseUrl) ∨
      vars databaseUrlKey = none ∧
        (vars databaseUrlKey).getD defaultDatabaseUrl = "~/.workq/jobs.db" := by
  cases vars databaseUrlKey with
  | none => exact .inr ⟨rfl, rfl⟩
  | some url => exact .inl rfl

theorem queues_described (vars : Variables) {queues : List String}
    (h : queues = ((vars queuesKey).map names).getD []) :
    (∃ raw, vars queuesKey = some raw ∧ Written queues raw.toList ∧ ∀ q ∈ queues, Proper q) ∨
      vars queuesKey = none ∧ queues = [] := by
  subst h
  cases vars queuesKey with
  | none => exact .inr ⟨rfl, rfl⟩
  | some raw =>
    obtain ⟨written, proper⟩ := written_names raw.toList
    rw [String.ofList_toList] at written proper
    exact .inl ⟨raw, rfl, written, proper⟩

theorem label_described (vars : Variables) {text : String} (h : text = label vars "worker") :
    (vars labelKey = some text ∧ ∃ c ∈ text.toList, ¬isBlank c) ∨
      (∀ raw, vars labelKey = some raw → ∀ c ∈ raw.toList, isBlank c) ∧ text = "worker" := by
  rw [label] at h
  cases hv : vars labelKey with
  | none =>
    rw [hv] at h
    exact .inr ⟨by simp, h⟩
  | some raw =>
    rw [hv] at h
    by_cases hblank : Text.allBlank raw = true
    · rw [Option.filter_some_neg (by simp [hblank])] at h
      exact .inr ⟨by simpa [Text.allBlank] using hblank, h⟩
    · rw [Option.filter_some_pos (by simp [hblank])] at h
      obtain rfl : text = raw := h
      exact .inl ⟨rfl, by simpa [Text.allBlank] using hblank⟩

/-- The reading of the settings goes down the list of the typed variables. -/
theorem ends_ofVariables (vars : Variables) :
    Ends vars (Describes vars) typed (ofVariables vars) := by
  unfold ofVariables
  dsimp only
  refine .read ⟨workerCountKey, .count⟩ fun workerCount hworkerCount => ?_
  refine .read ⟨pollIntervalKey, .positiveSpan⟩ fun pollInterval hpollInterval => ?_
  refine .read ⟨jobTimeoutKey, .positiveSpan⟩ fun jobTimeout hjobTimeout => ?_
  refine .read ⟨shutdownTimeoutKey, .span⟩ fun shutdownTimeout hshutdownTimeout => ?_
  refine .read ⟨cleanupIntervalKey, .positiveSpan⟩ fun cleanupInterval hcleanupInterval => ?_
  refine .read ⟨cleanupRetentionKey, .span⟩ fun cleanupRetention hcleanupRetention => ?_
  refine .read ⟨rateLimitingKey, .switch⟩ fun rateLimiting hrateLimiting => ?_
  refine .read ⟨perHourKey, .bound⟩ fun perHour hperHour => ?_
  refine .read ⟨concurrentKey, .bound⟩ fun concurrent hconcurrent => ?_
  refine .read ⟨maxBackoffKey, .positiveSpan⟩ fun maxBackoff hmaxBackoff => ?_
  refine .read ⟨recoveryWindowKey, .span⟩ fun recoveryWindow hrecoveryWindow => ?_
  exact .done {
    databaseUrl := databaseUrl_described vars
    queues := queues_described vars rfl
    label := label_described vars rfl
    workerCount := hworkerCount.holds _
    pollInterval := hpollInterval.holds _
    jobTimeout := hjobTimeout.holds _
    shutdownTimeout := hshutdownTimeout.holds _
    cleanupInterval := hcleanupInterval.holds _
    cleanupRetention := hcleanupRetention.holds _
    rateLimiting := hrateLimiting.holds _
    perHour := hperHour.holds _
    concurrent := hconcurrent.holds _
    maxBackoff := hmaxBackoff
    recoveryWindow := hrecoveryWindow.holds _ }

theorem Ends.of_ok {s : Settings} (h : Ends vars P todo (.ok s)) :
    P s ∧ ∀ v ∈ todo, v.Fine vars := by
  generalize hr : Except.ok s = result at h
  induction h with
  | done hP =>
    cases hr
    exact ⟨hP, by simp⟩
  | fine hv _ ih =>
    obtain ⟨hP, hall⟩ := ih hr
    exact ⟨hP, List.forall_mem_cons.mpr ⟨hv, hall⟩⟩
  | faulty => cases hr

theorem Ends.of_error {f : SettingFault} (h : Ends vars P todo (.error f)) :
    ∃ before v after raw, todo = before ++ v :: after ∧ (∀ w ∈ before, w.Fine vars) ∧
      vars v.key = some raw ∧ ¬v.Fine vars ∧ v.Blames raw f := by
  generalize hr : Except.error f = result at h
  induction h with
  | done => cases hr
  | fine hv _ ih =>
    obtain ⟨before, v, after, raw, rfl, hbefore, hrest⟩ := ih hr
    exact ⟨_ :: before, v, after, raw, rfl, List.forall_mem_cons.mpr ⟨hv, hbefore⟩, hrest⟩
  | @faulty v todo raw f' hraw hv blames =>
    cases hr
    exact ⟨[], v, todo, raw, rfl, by simp, hraw, hv, blames⟩

/-- What is said about a variable begins with its key. -/
theorem Typed.Blames.message {v : Typed} {raw : String} {f : SettingFault} (h : v.Blames raw f) :
    ∃ text, f.message = v.key ++ text := by
  cases h with
  | @count why =>
    refine ⟨"=" ++ Text.quote raw ++ ": " ++ why.message, ?_⟩
    simp only [SettingFault.message, String.append_assoc]
  | @bound why =>
    refine ⟨"=" ++ Text.quote raw ++ ": " ++ why.message, ?_⟩
    simp only [SettingFault.message, String.append_assoc]
  | zero => exact ⟨" must be greater than zero", rfl⟩
  | switch =>
    refine ⟨"=" ++ Text.quote raw ++ ": expected true or false", ?_⟩
    simp only [SettingFault.message, String.append_assoc]

/-- The settings can be read just when all typed variables are fine. -/
theorem exists_ofVariables_iff (vars : Variables) :
    (∃ s, ofVariables vars = .ok s) ↔ ∀ v ∈ typed, v.Fine vars := by
  have ends := ends_ofVariables vars
  cases hr : ofVariables vars with
  | ok s =>
    rw [hr] at ends
    exact iff_of_true ⟨s, rfl⟩ ends.of_ok.2
  | error f =>
    rw [hr] at ends
    obtain ⟨before, v, after, raw, htyped, -, -, hv, -⟩ := ends.of_error
    refine iff_of_false (by simp) fun hall => hv (hall v ?_)
    rw [htyped]
    exact List.mem_append_right _ List.mem_cons_self

theorem Holds.eq_or_reads {key : String} {k : Kind} {default v : k.Value}
    (h : Holds vars key k default v) : v = default ∨ ∃ raw, k.Reads raw v := by
  cases h with
  | default => exact .inl rfl
  | value _ reads => exact .inr ⟨_, reads⟩

theorem Holds.ne_zero {key : String} {default d : Span}
    (h : Holds vars key .positiveSpan default d) (hdefault : default ≠ .zero) : d ≠ .zero := by
  rcases h.eq_or_reads with rfl | ⟨raw, n, -, hn, rfl⟩
  · exact hdefault
  · rwa [ne_eq, ofMillis_eq_zero_iff]

end

/-- A beat that is not zero is not what keeps a pool from starting. -/
theorem start_ne_zeroPollInterval {interval : Span} (h : interval ≠ .zero) (count : Nat)
    (p : Pool) : (p.start interval count).1 ≠ .error (.config .zeroPollInterval) := by
  rw [Pool.start, if_neg h]
  split <;> simp

/-- **The settings are read in a fixed order.**  They can be read just when each typed variable is
    absent or has a text of its kind.  If not, the first one that has another text is the one that
    is named.  If so, every field has the value of its variable or its default, and no pool is kept
    from starting by a beat of zero. -/
theorem first_bad_variable_is_named (vars : Variables) :
    ((∃ s, ofVariables vars = .ok s) ↔ ∀ v ∈ typed, v.Fine vars) ∧
    (∀ f, ofVariables vars = .error f →
      ∃ before v after raw, typed = before ++ v :: after ∧ (∀ w ∈ before, w.Fine vars) ∧
        vars v.key = some raw ∧ ¬v.Fine vars ∧ v.Blames raw f ∧
        ∃ text, (Error.config f).message = "Configuration error: " ++ (v.key ++ text)) ∧
    ∀ s, ofVariables vars = .ok s → Describes vars s ∧
      ∀ p : Pool, (p.start s.pool.pollInterval s.pool.workerCount).1 ≠
        .error (.config .zeroPollInterval) := by
  have ends := ends_ofVariables vars
  refine ⟨exists_ofVariables_iff vars, ?_, ?_⟩
  · intro f hf
    rw [hf] at ends
    obtain ⟨before, v, after, raw, htyped, hbefore, hraw, hv, blames⟩ := ends.of_error
    obtain ⟨text, message⟩ := blames.message
    exact ⟨before, v, after, raw, htyped, hbefore, hraw, hv, blames, text,
      congrArg ("Configuration error: " ++ ·) message⟩
  · intro s hs
    rw [hs] at ends
    have described := ends.of_ok.1
    have positive : s.pool.pollInterval ≠ .zero := described.pollInterval.ne_zero (by decide)
    exact ⟨described, start_ne_zeroPollInterval positive _⟩

end JobQueue.Settings
