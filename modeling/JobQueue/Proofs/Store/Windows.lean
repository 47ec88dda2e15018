/-
  The windows of a tenant on a clock that goes forward.

  A window counts jobs until its end, and the first job after its end opens the
  next one.  So the readings at which jobs were counted fall into stretches, one
  for each window, and stretches that are not neighbours are further apart than
  the length of a window (`Filled`).  If no window counts more than `b` jobs,
  no stretch of time of that length has more than `2 * b` of them.
-/
import JobQueue.Proofs.Store.History
import JobQueue.Proofs.Store.Limits

namespace JobQueue

/-! ## One window -/

/-- The age of what happened at a time that is not negative is representable. -/
theorem sub?_of_le {a b : Int64} (h₀ : 0 ≤ b.toInt) (h : b.toInt ≤ a.toInt) :
    ∃ d, sub? a b = some d ∧ d.toInt = a.toInt - b.toInt := by
  have ha := Int64.toInt_lt a
  cases hd : sub? a b with
  | none =>
    rw [sub?, fit?_eq_none_iff] at hd
    omega
  | some d => exact ⟨d, rfl, toInt_of_fit? hd⟩

namespace Window

variable {w : Window} {now : Millis}

theorem isStale?_eq (h₀ : 0 ≤ w.start.toInt) (h : w.start.toInt ≤ now.toInt) :
    w.isStale? now = some (decide (w.start.toInt + rateWindow.toInt < now.toInt)) := by
  obtain ⟨d, hd, hi⟩ := sub?_of_le h₀ h
  rw [isStale?, hd, Option.map_some, Option.some.injEq, decide_eq_decide, Int64.lt_iff_toInt_lt, hi]
  omega

theorem counted?_eq (h₀ : 0 ≤ w.start.toInt) (h : w.start.toInt ≤ now.toInt) :
    w.counted? now =
      some (if w.start.toInt + rateWindow.toInt < now.toInt then 0 else w.jobs) := by
  simp [counted?, isStale?_eq h₀ h]

theorem record?_eq (h₀ : 0 ≤ w.start.toInt) (h : w.start.toInt ≤ now.toInt) :
    w.record? now =
      if w.start.toInt + rateWindow.toInt < now.toInt then some ⟨now, 1⟩
      else (succ? w.jobs).map fun n => { w with jobs := n } := by
  simp [record?, isStale?_eq h₀ h]

/-- A new window counts the first job. -/
theorem record?_openAt (h₀ : 0 ≤ now.toInt) : (openAt now).record? now = some ⟨now, 1⟩ := by
  have hw : ¬ now.toInt + rateWindow.toInt < now.toInt := by
    have : rateWindow.toInt = 3600000 := by decide
    omega
  have hone : succ? 0 = some 1 := by decide
  have h : (openAt now).record? now = _ := record?_eq h₀ le_rfl
  simpa only [openAt, if_neg hw, hone, Option.map_some] using h

end Window

/-! ## Readings of the clock -/

/-- How many readings are not before `a`. -/
def since (l : List Millis) (a : ℤ) : ℕ := l.countP fun r => a ≤ r.toInt

/-- How many readings are from `a` to `b`. -/
def between (l : List Millis) (a b : ℤ) : ℕ := l.countP fun r => a ≤ r.toInt ∧ r.toInt ≤ b

theorem since_cons (r : Millis) (l : List Millis) (a : ℤ) :
    since (r :: l) a = since l a + if a ≤ r.toInt then 1 else 0 := by
  simp [since, List.countP_cons]

theorem since_anti (l : List Millis) {a b : ℤ} (h : a ≤ b) : since l b ≤ since l a := by
  refine List.countP_mono_left fun r _ hr => ?_
  rw [decide_eq_true_eq] at hr ⊢
  omega

theorem since_eq_zero {l : List Millis} {a : ℤ} (h : ∀ r ∈ l, r.toInt < a) : since l a = 0 := by
  refine List.countP_eq_zero.2 fun r hr hle => ?_
  have := h r hr
  rw [decide_eq_true_eq] at hle
  omega

theorem between_add_since (l : List Millis) {a b : ℤ} (h : a ≤ b + 1) :
    between l a b + since l (b + 1) = since l a := by
  induction l with
  | nil => rfl
  | cons r l ih =>
    simp only [between, List.countP_cons, decide_eq_true_eq] at ih ⊢
    rw [since_cons, since_cons]
    split_ifs <;> omega

/-! ## Readings in windows -/

/-- The readings at which jobs were counted, the last window having been opened at `start`, if no
    window counts more than `b` jobs. -/
structure Filled (b : ℤ) (l : List Millis) (start : ℤ) : Prop where
  last : ∀ r ∈ l, r.toInt ≤ start + rateWindow.toInt
  few : since l start ≤ b
  before : since l (start - rateWindow.toInt) ≤ since l start + b
  spread : ∀ a, since l a ≤ since l (a + rateWindow.toInt + 1) + 2 * b

theorem rateWindow_toInt : rateWindow.toInt = 3600000 := by decide

namespace Filled

variable {b : ℤ} {l : List Millis} {start : ℤ} {now : Millis}

theorem nil (hb : 0 ≤ b) (start : ℤ) : Filled b [] start where
  last r hr := by cases hr
  few := hb
  before := by simpa [since] using hb
  spread a := by simpa [since] using hb

theorem record (h : Filled b l start) (hstart : start ≤ now.toInt)
    (hend : now.toInt ≤ start + rateWindow.toInt) (hmax : ∀ r ∈ l, r.toInt ≤ now.toInt)
    (hroom : since l start + 1 ≤ b) : Filled b (now :: l) start := by
  have hw := rateWindow_toInt
  have hbefore := h.before
  refine ⟨fun r hr => ?_, ?_, ?_, fun a => ?_⟩
  · rcases List.mem_cons.1 hr with rfl | hr
    · exact hend
    · exact h.last r hr
  · rw [since_cons, if_pos hstart]
    exact_mod_cast hroom
  · rw [since_cons, since_cons, if_pos hstart, if_pos (by omega)]
    omega
  · have hspread := h.spread a
    rw [since_cons, since_cons]
    by_cases ha : a ≤ now.toInt
    · by_cases ha' : a + rateWindow.toInt + 1 ≤ now.toInt
      · rw [if_pos ha, if_pos ha']
        omega
      · -- all of them are in this window or in the one before
        have hzero : since l (a + rateWindow.toInt + 1) = 0 := by
          refine since_eq_zero fun r hr => ?_
          have := hmax r hr
          omega
        have hle : since l a ≤ since l (start - rateWindow.toInt) := since_anti l (by omega)
        rw [if_pos ha, if_neg ha', hzero]
        omega
    · rw [if_neg ha, if_neg (by omega)]
      omega

/-- The first job after the end of the window. -/
theorem reopen (h : Filled b l start) (hend : start + rateWindow.toInt < now.toInt) (hb : 1 ≤ b) :
    Filled b (now :: l) now.toInt := by
  have hw := rateWindow_toInt
  have hfew := h.few
  have hnow : since l now.toInt = 0 := by
    refine since_eq_zero fun r hr => ?_
    have := h.last r hr
    omega
  refine ⟨fun r hr => ?_, ?_, ?_, fun a => ?_⟩
  · rcases List.mem_cons.1 hr with rfl | hr
    · omega
    · have := h.last r hr
      omega
  · rw [since_cons, if_pos le_rfl, hnow]
    exact_mod_cast hb
  · have hle : since l (now.toInt - rateWindow.toInt) ≤ since l start := since_anti l (by omega)
    rw [since_cons, since_cons, if_pos le_rfl, if_pos (by omega), hnow]
    omega
  · have hspread := h.spread a
    rw [since_cons, since_cons]
    by_cases ha : a ≤ now.toInt
    · by_cases ha' : a + rateWindow.toInt + 1 ≤ now.toInt
      · rw [if_pos ha, if_pos ha']
        omega
      · -- all of them but the new one are in the window that has ended
        have hle : since l a ≤ since l start := since_anti l (by omega)
        rw [if_pos ha, if_neg ha']
        omega
    · rw [if_neg ha, if_neg (by omega)]
      omega

/-- No stretch of the length of a window has more readings than two windows. -/
theorem between_le (h : Filled b l start) (a : ℤ) :
    between l a (a + rateWindow.toInt) ≤ 2 * b := by
  have hw := rateWindow_toInt
  have hspread := h.spread a
  have hsum := between_add_since l (a := a) (b := a + rateWindow.toInt) (by omega)
  omega

end Filled

end JobQueue
