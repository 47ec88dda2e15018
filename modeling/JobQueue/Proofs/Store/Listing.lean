/-
  What a listing shows.

  A listing shows the jobs that agree with every field the filter sets
  (`Filter.Matches`), each once, the newest first; of two jobs created at the
  same time the one that was inserted later comes first (`Ranked.Newer`).  Since
  no two jobs have the same rank the order is strict, so there is one such list
  (`Listing.unique`), whatever the order in which the map is enumerated.

  A limit and an offset cut a page out of it, negative ones counting as zero.
  The pages that follow one another make up the whole list (`flatten_pages`).
-/
import JobQueue.Proofs.Store.NextJob
import JobQueue.Proofs.Store.Overflow

namespace JobQueue

/-! ## Filters and pages -/

/-- The job agrees with every field that the filter sets. -/
structure Filter.Matches (f : Filter) (j : Job) : Prop where
  queue : ∀ q, f.queue = some q → j.queue = q
  type : ∀ t, f.type = some t → j.type = t
  org : ∀ o, f.org = some o → j.org = o
  status : ∀ st, f.status = some st → j.status = st

theorem Filter.accepts_iff {f : Filter} {j : Job} : f.accepts j = true ↔ f.Matches j := by
  simp only [accepts, Bool.and_eq_true, Option.all_eq_true, beq_iff_eq]
  constructor
  · rintro ⟨⟨⟨queue, type⟩, org⟩, status⟩
    exact ⟨fun q h => (queue q h).symm, fun t h => (type t h).symm, fun o h => (org o h).symm,
      fun st h => (status st h).symm⟩
  · intro h
    exact ⟨⟨⟨fun q hq => (h.queue q hq).symm, fun t ht => (h.type t ht).symm⟩,
      fun o ho => (h.org o ho).symm⟩, fun st hst => (h.status st hst).symm⟩

/-- Negative numbers count as zero. -/
theorem toInt_cut (n : Int64) : (if n < 0 then 0 else n : Int64).toInt = max n.toInt 0 := by
  have hzero : (0 : Int64).toInt = 0 := rfl
  split
  · have := Int64.lt_iff_toInt_lt.1 ‹_›
    omega
  · have := Int64.le_iff_toInt_le.1 (Int64.not_lt.1 ‹_›)
    omega

section
variable {α : Type} (f : Filter) (xs : List α)

theorem Filter.page_whole : { f with limit := none, offset := 0 : Filter }.page xs = xs := rfl

theorem Filter.page_cut (limit offset : Int64) :
    { f with limit := some limit, offset := offset : Filter }.page xs =
      (xs.drop (max offset.toInt 0).toNat).take (max limit.toInt 0).toNat := by
  simp only [page, pageOffset, pageLimit, Option.map_some, toInt_cut]

/-- Pages that follow one another make up the beginning of the list. -/
theorem flatten_pages (size n : ℕ) :
    ((List.range n).map fun k => (xs.drop (k * size)).take size).flatten = xs.take (n * size) := by
  induction n with
  | zero => simp
  | succ n ih =>
    rw [List.range_succ, List.map_append, List.flatten_append, ih, Nat.succ_mul, List.take_add]
    simp

end

/-! ## The newest first -/

namespace Ranked

/-- `x` is listed before `y`: it was created later, or at the same time and inserted later. -/
def Newer (x y : Ranked) : Prop :=
  y.job.createdAt < x.job.createdAt ∨ x.job.createdAt = y.job.createdAt ∧ y.rank < x.rank

theorem newer_iff {x y : Ranked} : x.Newer y ↔ y.age < x.age := by
  rw [Newer, age, age, Prod.Lex.toLex_lt_toLex, Int64.lt_iff_toInt_lt, ← Int64.toInt_inj, eq_comm]

theorem rank_eq_of_age {a b : Ranked} (h : a.age = b.age) : a.rank = b.rank := by
  simp only [age, EmbeddingLike.apply_eq_iff_eq, Prod.mk.injEq] at h
  exact h.2

theorem pairwise_newestFirst (l : List Ranked) :
    (newestFirst l).Pairwise fun a b => b.age ≤ a.age := by
  have hs : (newestFirst l).Pairwise fun a b => a.isNewer b = true := by
    refine List.pairwise_mergeSort (fun a b c hab hbc => ?_) (fun a b => ?_) l
    · exact isNewer_iff.2 ((isNewer_iff.1 hbc).trans (isNewer_iff.1 hab))
    · rcases le_total a.age b.age with h | h
      · rw [isNewer_iff.2 h, Bool.or_true]
      · rw [isNewer_iff.2 h, Bool.true_or]
  exact hs.imp isNewer_iff.1

/-- If the ranks are distinct and nothing occurs twice, the sorted list is strictly sorted. -/
theorem pairwise_newer {l : List Ranked} (hl : Distinct l) (once : l.Nodup) :
    (newestFirst l).Pairwise Newer := by
  have hperm : (newestFirst l).Perm l := List.mergeSort_perm ..
  refine ((pairwise_newestFirst l).and (hperm.nodup_iff.2 once)).imp_of_mem ?_
  rintro a b ha hb ⟨hle, hne⟩
  refine newer_iff.2 (lt_of_le_of_ne hle fun he => hne ?_)
  exact hl a (hperm.mem_iff.1 ha) b (hperm.mem_iff.1 hb) (rank_eq_of_age he).symm

end Ranked

namespace Volatile

/-- The list that a filter asks for: of the stored jobs those that match, each name once, the
    newest first. -/
structure Listing (s : Volatile) (f : Filter) (l : List Ranked) : Prop where
  matching : ∀ x, x ∈ l ↔ x ∈ s.stored ∧ f.Matches x.job
  once : (l.map (·.job.id)).Nodup
  sorted : l.Pairwise Ranked.Newer

section
variable {s : Volatile} {f : Filter}

theorem Listing.unique {l l' : List Ranked} (h : s.Listing f l) (h' : s.Listing f l') : l' = l := by
  have hperm : l'.Perm l := by
    refine (List.perm_ext_iff_of_nodup (.of_map _ h'.once) (.of_map _ h.once)).2 fun x => ?_
    rw [h.matching, h'.matching]
  refine hperm.eq_of_pairwise (fun a b _ _ hab hba => ?_) h'.sorted h.sorted
  exact absurd (Ranked.newer_iff.1 hba) (lt_asymm (Ranked.newer_iff.1 hab))

theorem Listing.of_perm {jobs : Keyed String Ranked} (order : jobs.Perm s.jobs) {l : List Ranked}
    (h : Listing { s with jobs := jobs } f l) : s.Listing f l where
  matching x := (h.matching x).trans (and_congr_left' (stored_of_perm order).mem_iff)
  once := h.once
  sorted := h.sorted

theorem Tidy.names_nodup (hs : s.Tidy) : (s.stored.map (·.job.id)).Nodup := by
  refine hs.nodup.map_on fun x hx y hy hid => ?_
  have hget := hs.mem_stored.1 hx
  rw [hid, hs.mem_stored.1 hy] at hget
  exact (Option.some.inj hget).symm

/-- In a tidy store the accepted jobs, sorted, are the list that is asked for. -/
theorem Tidy.listing (hs : s.Tidy) (f : Filter) :
    s.Listing f (Ranked.newestFirst (s.stored.filter fun r => f.accepts r.job)) := by
  have hperm := List.mergeSort_perm (s.stored.filter fun r => f.accepts r.job) Ranked.isNewer
  have hsub : (s.stored.filter fun r => f.accepts r.job).Sublist s.stored := List.filter_sublist
  refine ⟨fun x => ?_, ?_, ?_⟩
  · rw [Ranked.newestFirst, hperm.mem_iff, List.mem_filter, Filter.accepts_iff]
  · exact (hperm.map _).nodup_iff.2 (hs.names_nodup.sublist (hsub.map _))
  · refine Ranked.pairwise_newer (fun x hx y hy => ?_) (hs.nodup.sublist hsub)
    exact hs.apart x (hsub.subset hx) y (hsub.subset hy)

theorem list_of_healthy (healthy : s.poisoned = false) (f : Filter) :
    list f s = (.ok ((f.page (Ranked.newestFirst (s.stored.filter fun r => f.accepts r.job))).map
      (·.job)), s) := by
  simp [list, hold, healthy]

/-- The jobs in the answer to a listing; none if it is refused. -/
def shown (s : Volatile) (f : Filter) : List Job := (list f s).1.toOption.getD []

/-! ## Listings -/

variable {rules : Rules} {h : List Event}

section
variable (hs : s.Tidy) (healthy : s.poisoned = false) {jobs : Keyed String Ranked}
  (order : jobs.Perm s.jobs) {l : List Ranked}
include hs healthy order

/-- A page of the one list is shown, in whatever order the map is enumerated. -/
theorem list_of_listing (hl : s.Listing f l) (f' : Filter) (same : f'.accepts = f.accepts) :
    list f' { s with jobs := jobs } = (.ok ((f'.page l).map (·.job)), { s with jobs := jobs }) := by
  have hsame := hl.unique (((hs.of_perm order).listing f).of_perm order)
  rw [list_of_healthy (show Volatile.poisoned { s with jobs := jobs } = false from healthy) f',
    same, hsame]

theorem list_whole (hl : s.Listing f l) :
    list { f with limit := none, offset := 0 } { s with jobs := jobs } =
      (.ok (l.map (·.job)), { s with jobs := jobs }) := by
  rw [list_of_listing hs healthy order hl { f with limit := none, offset := 0 } rfl,
    Filter.page_whole]

theorem list_page (hl : s.Listing f l) (limit offset : Int64) :
    list { f with limit := some limit, offset := offset } { s with jobs := jobs } =
      (.ok (((l.map (·.job)).drop (max offset.toInt 0).toNat).take (max limit.toInt 0).toNat),
        { s with jobs := jobs }) := by
  rw [list_of_listing hs healthy order hl { f with limit := some limit, offset := offset } rfl,
    Filter.page_cut, List.map_take, List.map_drop]

/-- The page after `k` others of the same length. -/
theorem shown_page (hl : s.Listing f l) {size : Int64} (hsize : 1 ≤ size.toInt) {k : ℕ}
    (hk : k * size.toInt ≤ Int64.maxValue.toInt) :
    shown { s with jobs := jobs } { f with limit := some size, offset := .ofInt (k * size.toInt) } =
      ((l.map (·.job)).drop (k * size.toInt.toNat)).take size.toInt.toNat := by
  have hpos : 0 ≤ k * size.toInt := by positivity
  have hmax : Int64.maxValue.toInt = 2 ^ 63 - 1 := by decide
  have hoffset : (Int64.ofInt (k * size.toInt)).toInt = k * size.toInt :=
    Int64.toInt_ofInt_of_le (by omega) (by omega)
  have hdrop : (k * size.toInt).toNat = k * size.toInt.toNat := by
    rw [Int.toNat_mul (by omega) (by omega), Int.toNat_natCast]
  rw [shown, list_page hs healthy order hl, hoffset, max_eq_left hpos, max_eq_left (by omega),
    hdrop]
  rfl

end

/-- **A listing shows the newest jobs first.**  Take a store that any requests led to, none of which
    broke off while it held the store.  The ranks of its jobs are their places in the order of
    insertion.  For every filter there is one list of the jobs that match, each once, the newest
    first, and in whatever order the map is enumerated:

    * without a limit and an offset all of it is shown;
    * with them, what is left of it behind the offset is shown, up to the limit;
    * pages of the same length that follow one another, up to the end of the list, are together the
      whole list, and if there are no more jobs than numbers, so many pages can be asked for.

    A listing changes nothing. -/
theorem list_shows_the_newest_first (trace : Trace rules h s) (healthy : s.poisoned = false)
    (f : Filter) :
    (∀ x ∈ s.stored, ((submissions h).reverse[x.rank]?).map (·.1) = some x.job.id) ∧
    (∃! l, s.Listing f l) ∧
    ∀ l, s.Listing f l →
      (∀ (now : Millis) (jobs : Keyed String Ranked), jobs.Perm s.jobs →
        ask rules now (.list { f with limit := none, offset := 0 }) { s with jobs := jobs } =
          (.ok (l.map (·.job)), { s with jobs := jobs }) ∧
        ∀ limit offset : Int64,
          ask rules now (.list { f with limit := some limit, offset := offset })
              { s with jobs := jobs } =
            (.ok (((l.map (·.job)).drop (max offset.toInt 0).toNat).take (max limit.toInt 0).toNat),
              { s with jobs := jobs })) ∧
      ∀ size : Int64, 1 ≤ size.toInt →
        (∀ (n : ℕ) (order : ℕ → Keyed String Ranked), (∀ k, (order k).Perm s.jobs) →
          (∀ k < n, k * size.toInt ≤ Int64.maxValue.toInt) → l.length ≤ n * size.toInt →
          ((List.range n).map fun k : ℕ => shown { s with jobs := order k }
            { f with limit := some size, offset := .ofInt (k * size.toInt) }).flatten =
              l.map (·.job)) ∧
        (l.length ≤ Int64.maxValue.toInt →
          ∃ n : ℕ, (∀ k < n, k * size.toInt ≤ Int64.maxValue.toInt) ∧
            l.length ≤ n * size.toInt) := by
  have hs := trace.tidy
  refine ⟨fun x hx => trace.submitted hx, ⟨_, hs.listing f, fun l hl => (hs.listing f).unique hl⟩,
    fun l hl => ⟨fun now jobs order => ⟨list_whole hs healthy order hl, fun limit offset =>
      list_page hs healthy order hl limit offset⟩, fun size hsize => ⟨?_, fun hfew => ?_⟩⟩⟩
  · intro n order horder hoffsets henough
    have hpages : ∀ k ∈ List.range n, shown { s with jobs := order k }
        { f with limit := some size, offset := .ofInt (k * size.toInt) } =
          ((l.map (·.job)).drop (k * size.toInt.toNat)).take size.toInt.toNat := fun k hk =>
      shown_page hs healthy (horder k) hl hsize (hoffsets k (List.mem_range.1 hk))
    rw [List.map_congr_left hpages, flatten_pages, List.take_of_length_le]
    rw [List.length_map]
    zify
    rwa [Int.toNat_of_nonneg (by omega)]
  · -- one page more than those that the jobs fill
    refine ⟨(l.length / size.toInt).toNat + 1, fun k hk => ?_, ?_⟩
    · have hk' : (k : ℤ) ≤ l.length / size.toInt := by
        have : 0 ≤ l.length / size.toInt := by positivity
        omega
      exact ((Int.le_ediv_iff_mul_le (by omega)).1 hk').trans hfew
    · have hlt := Int.lt_ediv_add_one_mul_self (l.length : ℤ) (show 0 < size.toInt by omega)
      rw [Nat.cast_succ, Int.toNat_of_nonneg (by positivity)]
      exact hlt.le

/-- Four jobs, two of them created at the same time, are shown on two pages, also if the map is
    enumerated the other way round for the second one. -/
theorem list_shows_the_newest_first_on_two_pages :
    ∃ l, (replay .default oneIsFirst).2.Listing {} l ∧ l.length = 4 ∧
      shown (replay .default oneIsFirst).2 { limit := some 2 } ++
        shown { (replay .default oneIsFirst).2 with
          jobs := (replay .default oneIsFirst).2.jobs.reverse } { limit := some 2, offset := 2 } =
        l.map (·.job) := by
  obtain ⟨-, ⟨l, hl, -⟩, h⟩ :=
    list_shows_the_newest_first (Trace.replay .default oneIsFirst) (by decide) {}
  obtain ⟨-, hpages⟩ := h l hl
  have hlen : l.length = 4 := by
    have hperm : l.Perm (replay .default oneIsFirst).2.stored := by
      refine (List.perm_ext_iff_of_nodup (.of_map _ hl.once) (by decide)).2 fun x => ?_
      rw [hl.matching, ← Filter.accepts_iff]
      exact and_iff_left rfl
    rw [hperm.length_eq]
    rfl
  obtain ⟨hwhole, -⟩ := hpages 2 (by decide)
  have htwo := hwhole 2 (fun k => if k = 0 then (replay .default oneIsFirst).2.jobs else
    (replay .default oneIsFirst).2.jobs.reverse) ?_ (by decide) (by rw [hlen]; decide)
  · refine ⟨l, hl, hlen, htwo ▸ ?_⟩
    simp [List.range_succ]
  · intro k
    by_cases hk : k = 0
    · simp [hk]
    · simp [hk, List.reverse_perm]

/-- Once a request has broken off while it held the store, listings are refused although there are
    jobs to be shown. -/
theorem poisoned_store_refuses_listings :
    Trace .default (replay .default tooOldCounter).1 (replay .default tooOldCounter).2 ∧
    (∃ x ∈ (replay .default tooOldCounter).2.stored, ({} : Filter).Matches x.job) ∧
    (ask .default Int64.maxValue (.list {}) (replay .default tooOldCounter).2).1 =
      .error (.error (.internal .poisoned)) := by
  refine ⟨Trace.replay .default tooOldCounter, ?_, by decide⟩
  obtain ⟨x, hx⟩ : ∃ x, (replay .default tooOldCounter).2.stored.head? = some x :=
    Option.isSome_iff_exists.1 (by decide)
  exact ⟨x, List.mem_of_head? hx, Filter.accepts_iff.1 rfl⟩

end

end Volatile

end JobQueue
