/-
  Reading back the record of a job.

  A record is laid out from members: fields of the job, as they are written,
  and any members under other names (`Entry`).  What has been read after some of
  them is the draft that has the fields among them (`Draft.of`).  So the job is
  read back whatever the order of the members and the blanks between the tokens,
  as long as no field is missing whose value is not null; and a field that is
  missing or comes twice is a fault of the data (`record_read_back`).
-/
import JobQueue.Job.Record
import JobQueue.Proofs.Json.Skip

namespace JobQueue.Job.Record

open Json

/-! ## Values -/

theorem reads_string (t : String) : Reads readString (tokens (.string t)) t := by
  intro tail ts s _ h
  obtain ⟨s', hs, hskip⟩ := Spaced.skipSpace (c := 34)
    (r := (textBytes t).flatMap escapeByte ++ [34]) h (by decide)
  have hbody := Text.readBody_of_spells (Text.spells_flatMap (textBytes t)) s'
  refine ⟨s', hs, ?_⟩
  simp [readString, hskip, hbody]

theorem begins_string (t : String) : Begins (fun c => c ≠ 93 ∧ c ≠ 110) (tokens (.string t)) :=
  ⟨34, (textBytes t).flatMap escapeByte ++ [34], [], rfl, by decide, by decide⟩

/-- A byte with which numbers begin. -/
theorem of_first {b : UInt8} (h : b = 45 ∨ (Numeral.digit? b).isSome = true) :
    isSpace b = false ∧ b ≠ 93 ∧ b ≠ 110 := by
  rcases h with rfl | h
  · decide
  · obtain ⟨hspace, -, -, -, hend, -, hnull, -⟩ := Numeral.ne_of_digit b h
    exact ⟨hspace, hend, hnull⟩

theorem begins_integer (n : ℤ) : Begins (fun c => c ≠ 93 ∧ c ≠ 110) (tokens (.integer n)) := by
  obtain ⟨b, r, heq, hb⟩ := Numeral.writeInteger_cons n
  obtain ⟨hspace, hne⟩ := of_first hb
  exact ⟨b, r, [], by rw [tokens, Json.write, heq], hspace, hne⟩

theorem reads_whole {α : Type} {fit : ℤ → Option α} {n : ℤ} {a : α} (hfit : fit n = some a)
    (hmin : -0x8000000000000000 ≤ n) (hmax : n ≤ 0xffffffffffffffff) :
    Reads (readWhole fit) (tokens (.integer n)) a := by
  intro tail ts s hts h
  obtain ⟨b, r, heq, hb⟩ := Numeral.writeInteger_cons n
  rw [tokens, Json.write, heq] at h
  obtain ⟨s', hs, hskip⟩ := Spaced.skipSpace h (of_first hb).1
  have hread := Numeral.read_writeInteger hmin hmax (hs.stops hts)
  rw [heq, List.cons_append] at hread
  refine ⟨s', hs, ?_⟩
  simp [readWhole, hskip, hb, hread, hfit]

theorem reads_int32 (n : Int32) : Reads (readWhole fit32?) (tokens (.integer n.toInt)) n := by
  have hle := Int32.le_toInt n
  have hlt := Int32.toInt_lt n
  exact reads_whole (fit32?_toInt n) (by omega) (by omega)

theorem reads_int64 (n : Int64) : Reads (readWhole fit?) (tokens (.integer n.toInt)) n := by
  have hle := Int64.le_toInt n
  have hlt := Int64.toInt_lt n
  exact reads_whole (fit?_toInt n) (by omega) (by omega)

theorem reads_byte (b : UInt8) : Reads (readWhole fitByte?) (tokens (.integer b.toNat)) b := by
  have hlt := b.toNat_lt
  have hfit : fitByte? b.toNat = some b := by
    rw [fitByte?, if_pos (by omega)]
    simp
  exact reads_whole hfit (by omega) (by omega)

theorem reads_payload (p : Payload) : Reads readPayload (tokens (payloadJson p)) p := by
  intro tail ts s _ h
  obtain ⟨s₁, hs₁, hskip⟩ := Spaced.skipSpace (c := 91) (r := []) h (by decide)
  rw [itemTokens_eq_map, List.map_map] at hs₁
  have hreads : ∀ b ∈ p.bytes, Reads (readWhole fitByte?) (tokens (.integer b.toNat)) b :=
    fun b _ => reads_byte b
  obtain ⟨s', hs, hread⟩ :=
    reads_readList (fun b _ => (begins_integer b.toNat).imp fun _ h => h.1) hreads hs₁
  exact ⟨s', hs, by simp [readPayload, hskip, hread, Except.map]⟩

theorem begins_payload (p : Payload) : Begins (· ≠ 110) (tokens (payloadJson p)) :=
  ⟨91, [], _, rfl, by decide, by decide⟩

/-- A value that may be missing is null, or what it is otherwise. -/
theorem reads_optional {α : Type} {f : α → Json} {read : Reader α}
    (reads : ∀ a, Reads read (tokens (f a)) a) (begins : ∀ a, Begins (· ≠ 110) (tokens (f a)))
    (o : Option α) : Reads (readOptional read) (tokens (optional f o)) o := by
  intro tail ts s hts h
  cases o with
  | none =>
    obtain ⟨s', hs, hskip⟩ := Spaced.skipSpace (c := 110) (r := nullTail) h (by decide)
    exact ⟨s', hs, by simp [readOptional, hskip, readWord_append, Except.map]⟩
  | some a =>
    obtain ⟨c, r, more, heq, hspace, hnull⟩ := begins a
    rw [optional, heq] at h
    obtain ⟨s₁, hskip, hs₁⟩ := Spaced.trimmed h hspace
    have hs₁ : Spaced tail (tokens (f a) ++ ts) (c :: s₁) := by rw [heq]; exact hs₁
    obtain ⟨s', hs, hread⟩ := reads a hts hs₁
    exact ⟨s', hs, by simp [readOptional, hskip, hnull, hread, Except.map]⟩

theorem reads_status (st : Status) : Reads readStatus (tokens (.string st.name)) st := by
  intro tail ts s hts h
  have hquote : Spaced tail ((34 :: ((textBytes st.name).flatMap escapeByte ++ [34])) :: ts) s := h
  obtain ⟨s₁, hskip, hs₁⟩ := hquote.trimmed (by decide)
  obtain ⟨s', hs, hread⟩ := reads_string st.name hts hs₁
  refine ⟨s', hs, ?_⟩
  simp [readStatus, hskip, readStatusName, hread, Status.ofName?_name]

/-! ## Drafts -/

/-- The draft that has some fields of a job. -/
def Draft.of (j : Job) (fs : List Field) : Draft where
  id := if .id ∈ fs then some j.id else none
  queue := if .queue ∈ fs then some j.queue else none
  type := if .type ∈ fs then some j.type else none
  org := if .org ∈ fs then some j.org else none
  payload := if .payload ∈ fs then some j.payload else none
  priority := if .priority ∈ fs then some j.priority else none
  scheduledAt := if .scheduledAt ∈ fs then some j.scheduledAt else none
  createdAt := if .createdAt ∈ fs then some j.createdAt else none
  status := if .status ∈ fs then some j.status else none
  attempts := if .attempts ∈ fs then some j.attempts else none
  maxAttempts := if .maxAttempts ∈ fs then some j.maxAttempts else none
  startedAt := if .startedAt ∈ fs then some j.startedAt else none
  completedAt := if .completedAt ∈ fs then some j.completedAt else none
  worker := if .worker ∈ fs then some j.worker else none
  result := if .result ∈ fs then some j.result else none
  error := if .error ∈ fs then some j.error else none

theorem Draft.of_has (j : Job) (fs : List Field) (f : Field) :
    (Draft.of j fs).has f = decide (f ∈ fs) := by
  cases f <;> simp only [Draft.has, Draft.of] <;> split <;> simp_all

/-- The draft to which a field of a job is added. -/
def Draft.put (d : Draft) (j : Job) : Field → Draft
  | .id => { d with id := some j.id }
  | .queue => { d with queue := some j.queue }
  | .type => { d with type := some j.type }
  | .org => { d with org := some j.org }
  | .payload => { d with payload := some j.payload }
  | .priority => { d with priority := some j.priority }
  | .scheduledAt => { d with scheduledAt := some j.scheduledAt }
  | .createdAt => { d with createdAt := some j.createdAt }
  | .status => { d with status := some j.status }
  | .attempts => { d with attempts := some j.attempts }
  | .maxAttempts => { d with maxAttempts := some j.maxAttempts }
  | .startedAt => { d with startedAt := some j.startedAt }
  | .completedAt => { d with completedAt := some j.completedAt }
  | .worker => { d with worker := some j.worker }
  | .result => { d with result := some j.result }
  | .error => { d with error := some j.error }

theorem Draft.put_of (j : Job) (fs : List Field) (f : Field) :
    (Draft.of j fs).put j f = Draft.of j (f :: fs) := by
  cases f <;> simp [Draft.put, Draft.of]

/-- Every field of a job is read back. -/
theorem Draft.reads_field (d : Draft) (j : Job) (f : Field) :
    Reads (d.readField f) (tokens (value j f)) (d.put j f) := by
  have hstring := reads_optional reads_string fun t => (begins_string t).imp fun _ h => h.2
  have hint := reads_optional reads_int64 fun n => (begins_integer n.toInt).imp fun _ h => h.2
  have hpayload := reads_optional reads_payload begins_payload
  cases f with
  | id => exact (reads_string j.id).map fun a => { d with id := some a }
  | queue => exact (reads_string j.queue).map fun a => { d with queue := some a }
  | type => exact (reads_string j.type).map fun a => { d with type := some a }
  | org => exact (reads_string j.org).map fun a => { d with org := some a }
  | payload => exact (reads_payload j.payload).map fun a => { d with payload := some a }
  | priority => exact (reads_int32 j.priority).map fun a => { d with priority := some a }
  | scheduledAt => exact (reads_int64 j.scheduledAt).map fun a => { d with scheduledAt := some a }
  | createdAt => exact (reads_int64 j.createdAt).map fun a => { d with createdAt := some a }
  | status => exact (reads_status j.status).map fun a => { d with status := some a }
  | attempts => exact (reads_int32 j.attempts).map fun a => { d with attempts := some a }
  | maxAttempts => exact (reads_int32 j.maxAttempts).map fun a => { d with maxAttempts := some a }
  | startedAt => exact (hint j.startedAt).map fun a => { d with startedAt := some a }
  | completedAt => exact (hint j.completedAt).map fun a => { d with completedAt := some a }
  | worker => exact (hstring j.worker).map fun a => { d with worker := some a }
  | result => exact (hpayload j.result).map fun a => { d with result := some a }
  | error => exact (hstring j.error).map fun a => { d with error := some a }

theorem Draft.readField_of (j : Job) (fs : List Field) (f : Field) :
    Reads ((Draft.of j fs).readField f) (tokens (value j f)) (Draft.of j (f :: fs)) :=
  Draft.put_of j fs f ▸ Draft.reads_field (Draft.of j fs) j f

end JobQueue.Job.Record

namespace JobQueue

/-- Has every job a value other than null for the field? -/
def Field.required : Field → Bool
  | startedAt | completedAt | worker | result | error => false
  | _ => true

theorem Field.ofName?_name (f : Field) : ofName? f.name = some f := by
  cases f <;> decide

namespace Job.Record

open Json

theorem value_ne_null (j : Job) {f : Field} (hf : f.required = true) : value j f ≠ .null := by
  cases f with
  | startedAt | completedAt | worker | result | error => cases hf
  | _ => simp [value, payloadJson]

theorem eq_none_of_optional {α : Type} {f : α → Json} (hf : ∀ a, f a ≠ .null) {o : Option α}
    (h : optional f o = .null) : o = none := by
  cases o with
  | none => rfl
  | some a => exact absurd h (hf a)

/-- With every field whose value is not null the draft is the job. -/
theorem Draft.toJob?_of {j : Job} {fs : List Field} (h : ∀ f, f ∉ fs → value j f = .null) :
    (Draft.of j fs).toJob? = some j := by
  have hreq : ∀ f, f.required = true → f ∈ fs := fun f hf => by
    by_contra hmem
    exact value_ne_null j hf (h f hmem)
  have hopt {α : Type} {f : Field} {o : Option α} (hnone : value j f = .null → o = none) :
      (if f ∈ fs then some o else none).join = o := by
    split
    · rfl
    · exact (hnone (h f ‹_›)).symm
  have hstarted := hopt (f := .startedAt) (eq_none_of_optional (o := j.startedAt) nofun)
  have hcompleted := hopt (f := .completedAt) (eq_none_of_optional (o := j.completedAt) nofun)
  have hworker := hopt (f := .worker) (eq_none_of_optional (o := j.worker) nofun)
  have hresult := hopt (f := .result) (eq_none_of_optional (o := j.result) nofun)
  have herror := hopt (f := .error) (eq_none_of_optional (o := j.error) nofun)
  simp only [Draft.toJob?, Draft.of, hstarted, hcompleted, hworker, hresult, herror, hreq .id rfl,
    hreq .queue rfl, hreq .type rfl, hreq .org rfl, hreq .payload rfl, hreq .priority rfl,
    hreq .scheduledAt rfl, hreq .createdAt rfl, hreq .status rfl, hreq .attempts rfl,
    hreq .maxAttempts rfl, if_true, Option.bind_eq_bind, Option.bind_some, pure]

/-- Every required field of a complete draft has been read. -/
theorem Draft.has_of_toJob? {d : Draft} {j : Job} (h : d.toJob? = some j) {f : Field}
    (hf : f.required = true) : d.has f = true := by
  simp only [Draft.toJob?, Option.bind_eq_bind, Option.bind_eq_some_iff] at h
  obtain ⟨_, h₁, _, h₂, _, h₃, _, h₄, _, h₅, _, h₆, _, h₇, _, h₈, _, h₉, _, h₁₀, _, h₁₁, -⟩ := h
  cases f with
  | startedAt | completedAt | worker | result | error => cases hf
  | _ => simp only [Draft.has, h₁, h₂, h₃, h₄, h₅, h₆, h₇, h₈, h₉, h₁₀, h₁₁, Option.isSome_some]

theorem Draft.toJob?_of_missing {j : Job} {fs : List Field} {f : Field} (hf : f.required = true)
    (hmem : f ∉ fs) : (Draft.of j fs).toJob? = none := by
  cases h : (Draft.of j fs).toJob? with
  | none => rfl
  | some j' =>
    have hhas := Draft.has_of_toJob? h hf
    rw [Draft.of_has, decide_eq_true_eq] at hhas
    exact absurd hhas hmem

/-! ## Members -/

/-- A member of a record: a field of the job as it is written, or a value under a name whose key is
    spelled in some way. -/
inductive Entry where
  | field (f : Field)
  | extra (key : Bytes) (name : String) (value : Bytes)

namespace Entry

/-- The tokens of a member. -/
def tokens (j : Job) : Entry → List Bytes
  | field f => writeText f.name :: [58] :: Json.tokens (value j f)
  | extra key _ v => [34 :: (key ++ [34]), [58], v]

def name : Entry → String
  | field f => f.name
  | extra _ name _ => name

/-- The field of the job that is given. -/
def field? : Entry → Option Field
  | field f => some f
  | extra .. => none

/-- The key is a spelling of the name, and the value is one. -/
def Formed : Entry → Prop
  | field _ => True
  | extra key name v => Text.Spells key (textBytes name) ∧ IsValue v

/-- A field of the job, or a name that no field has. -/
def Proper (e : Entry) : Prop := e.field? = Field.ofName? e.name

/-- The key of a member, and its tokens behind the key. -/
theorem tokens_eq (e : Entry) (j : Job) (formed : e.Formed) :
    ∃ key more, Text.Spells key (textBytes e.name) ∧
      e.tokens j = (34 :: (key ++ [34])) :: [58] :: more := by
  cases e with
  | field f => exact ⟨_, _, Text.spells_flatMap (textBytes f.name), rfl⟩
  | extra key name v => exact ⟨key, [v], formed.1, rfl⟩

end Entry

/-- The fields of the job that are given, in the order of the members. -/
def fields (es : List Entry) : List Field := es.filterMap Entry.field?

section
variable {j : Job} {es : List Entry} {e : Entry} {fs : List Field} {tail s : Bytes} {first : Bool}
  (bound : ℕ)

/-- A member that is no repetition is read into the draft. -/
theorem readMembers_of_new (formed : e.Formed) (proper : e.Proper)
    (new : ∀ f, e.field? = some f → f ∉ fs)
    (h : Spaced tail (joined 125 first ((e :: es).map (Entry.tokens j))) s) :
    ∃ s', Spaced tail (joined 125 false (es.map (Entry.tokens j))) s' ∧
      readMembers (bound + 1) first (Draft.of j fs) s =
        readMembers bound false (Draft.of j (e.field?.toList ++ fs)) s' := by
  have hcloses := closes_joined 125 (.inr rfl) (es.map (Entry.tokens j)) []
  rw [List.append_nil] at hcloses
  cases e with
  | field f =>
    obtain ⟨s₁, hs₁, hkey⟩ := nextKey_of_spaced (Text.spells_flatMap (textBytes f.name)) h
    obtain ⟨s₂, hs₂, hcolon⟩ := colon_of_spaced hs₁
    obtain ⟨s', hs', hread⟩ := Draft.readField_of j fs f hcloses hs₂
    refine ⟨s', hs', ?_⟩
    have hnew : (Draft.of j fs).has f = false := by
      rw [Draft.of_has, decide_eq_false_iff_not]
      exact new f rfl
    simp [readMembers, hkey, readMember, Field.ofName?_name, hnew, hcolon, hread, Entry.field?]
  | extra key name v =>
    obtain ⟨s₁, hs₁, hkey⟩ := nextKey_of_spaced formed.1 h
    obtain ⟨s₂, hs₂, hcolon⟩ := colon_of_spaced hs₁
    obtain ⟨s', hs', hskip⟩ := skipValue_of_isValue formed.2 hcloses hs₂
    have hunknown : Field.ofName? name = none := proper.symm
    refine ⟨s', hs', ?_⟩
    simp [readMembers, hkey, readMember, hunknown, hcolon, hskip, Except.map, Entry.field?]

/-- A field that has been read is not read again. -/
theorem readMembers_of_again (formed : e.Formed) {f : Field} (named : Field.ofName? e.name = some f)
    (hmem : f ∈ fs) (h : Spaced tail (joined 125 first ((e :: es).map (Entry.tokens j))) s) :
    ∃ s', readMembers (bound + 1) first (Draft.of j fs) s = .error (.before .mismatch s') := by
  obtain ⟨key, more, hkey, heq⟩ := e.tokens_eq j formed
  rw [List.map_cons, heq] at h
  obtain ⟨s', -, hnext⟩ := nextKey_of_spaced hkey h
  have hhas : (Draft.of j fs).has f = true := by
    rw [Draft.of_has, decide_eq_true_eq]
    exact hmem
  exact ⟨s', by simp [readMembers, hnext, readMember, named, hhas]⟩

/-- Members without repetitions are read into the draft. -/
theorem readMembers_of_nodup {rest : List Entry} (formed : ∀ e ∈ es, e.Formed)
    (proper : ∀ e ∈ es, e.Proper) (nodup : (fields es).Nodup) (new : ∀ f ∈ fields es, f ∉ fs)
    (h : Spaced tail (joined 125 first ((es ++ rest).map (Entry.tokens j))) s) :
    ∃ first' s', Spaced tail (joined 125 first' (rest.map (Entry.tokens j))) s' ∧
      readMembers (es.length + bound) first (Draft.of j fs) s =
        readMembers bound first' (Draft.of j ((fields es).reverse ++ fs)) s' := by
  induction es generalizing fs first s with
  | nil => exact ⟨first, s, by simpa using h, by simp [fields]⟩
  | cons e es ih =>
    have hcons : fields (e :: es) = e.field?.toList ++ fields es := by
      cases hf : e.field? <;> simp [fields, hf]
    rw [hcons, List.nodup_append] at nodup
    rw [hcons] at new
    obtain ⟨s₁, hs₁, hread⟩ := readMembers_of_new (es.length + bound)
      (formed e List.mem_cons_self) (proper e List.mem_cons_self)
      (fun f hf => new f (List.mem_append_left _ (Option.mem_toList.2 hf))) h
    have hnew : ∀ f ∈ fields es, f ∉ e.field?.toList ++ fs := by
      intro f hf hmem
      rcases List.mem_append.1 hmem with hmem | hmem
      · exact nodup.2.2 f hmem f hf rfl
      · exact new f (List.mem_append_right _ hf) hmem
    obtain ⟨first', s', hs', hrest⟩ := ih (fun e' he => formed e' (List.mem_cons_of_mem e he))
      (fun e' he => proper e' (List.mem_cons_of_mem e he)) nodup.2.1 hnew hs₁
    refine ⟨first', s', hs', ?_⟩
    have hreverse : (fields (e :: es)).reverse ++ fs =
        (fields es).reverse ++ (e.field?.toList ++ fs) := by
      rw [hcons]
      cases e.field? <;> simp
    rw [hreverse, ← hrest, ← hread, List.length_cons]
    congr 1
    omega

/-- Of members with a repeated field, the first one that repeats a field comes behind members
    without repetitions. -/
theorem exists_again (h : ¬ (fields es).Nodup) :
    ∃ before f after, es = before ++ .field f :: after ∧ (fields before).Nodup ∧
      f ∈ fields before := by
  induction es using List.reverseRecOn with
  | nil => exact absurd List.nodup_nil h
  | append_singleton es e ih =>
    by_cases hes : (fields es).Nodup
    · cases e with
      | field f =>
        refine ⟨es, f, [], rfl, hes, ?_⟩
        by_contra hmem
        have hfields : fields (es ++ [.field f]) = fields es ++ [f] := List.filterMap_append
        rw [hfields] at h
        refine h (List.nodup_append.2 ⟨hes, List.nodup_singleton f, fun g hg g' hg' heq => hmem ?_⟩)
        rwa [← List.mem_singleton.1 hg', ← heq]
      | extra key name v =>
        have hfields : fields (es ++ [.extra key name v]) = fields es ++ [] := List.filterMap_append
        rw [hfields, List.append_nil] at h
        exact absurd hes h
    · obtain ⟨before, f, after, rfl, hrest⟩ := ih hes
      exact ⟨before, f, after ++ [e], by simp, hrest⟩

/-! ## Records -/

/-- A record laid out from members. -/
def LaidOut (j : Job) (es : List Entry) (s : Bytes) : Prop :=
  ∃ tail, Blanks tail ∧ Spaced tail ([123] :: joined 125 true (es.map (Entry.tokens j))) s

theorem laidOut_write (j : Job) : LaidOut j (Field.all.map .field) (write j) := by
  refine ⟨[], by simp [Blanks], ?_⟩
  have hflat := flatten_tokens (.object (Field.all.map fun f => (f.name, value j f)))
  rw [tokens, memberTokens_eq_map, List.map_map] at hflat
  rw [write, ← hflat, List.map_map]
  exact Spaced.flatten _

/-- Reading a record is reading its members. -/
theorem LaidOut.read {j : Job} {s : Bytes} (h : LaidOut j es s) :
    ∃ tail r bound, Blanks tail ∧
      Spaced tail (joined 125 true (es.map (Entry.tokens j))) r ∧
      readRecord s = readMembers (es.length + (bound + 1)) true (Draft.of j []) r := by
  obtain ⟨tail, blanks, hs⟩ := h
  obtain ⟨r, hr, hskip⟩ := hs.skipSpace (by decide)
  have hlength := hr.length_le
  have hcount := length_le_joined 125 true (es.map (Entry.tokens j))
  rw [List.length_map] at hcount
  obtain ⟨bound, hbound⟩ := Nat.exists_eq_add_of_le (hcount.trans hlength)
  refine ⟨tail, r, bound, blanks, hr, ?_⟩
  have hrecord : readRecord s = readMembers (r.length + 1) true (Draft.of j []) r := by
    simp [readRecord, hskip]
    rfl
  rw [hrecord, hbound, Nat.add_assoc]

/-- A record in which a field is repeated is faulty. -/
theorem read_of_again {j : Job} {before after : List Entry} {e : Entry} {s : Bytes} {f : Field}
    (h : LaidOut j (before ++ e :: after) s) (formed : ∀ e ∈ before, e.Formed)
    (proper : ∀ e ∈ before, e.Proper) (nodup : (fields before).Nodup) (hformed : e.Formed)
    (named : Field.ofName? e.name = some f) (hmem : f ∈ fields before) :
    ∃ s', read s = .error (.before .mismatch s') := by
  obtain ⟨tail, r, bound, -, hr, hrecord⟩ := h.read
  rw [List.length_append, List.length_cons, Nat.add_assoc] at hrecord
  have hnone : ∀ f ∈ fields before, f ∉ ([] : List Field) := fun f _ => List.not_mem_nil
  have hread : f ∈ (fields before).reverse ++ [] := by simpa using hmem
  obtain ⟨first', s₁, hs₁, hgone⟩ :=
    readMembers_of_nodup (after.length + 1 + (bound + 1)) formed proper nodup hnone hr
  obtain ⟨s', hagain⟩ :=
    readMembers_of_again (after.length + (bound + 1)) hformed named hread hs₁
  refine ⟨s', ?_⟩
  have hfail : readRecord s = .error (.before .mismatch s') := by
    rw [hrecord, hgone, ← hagain]
    congr 1
    omega
  rw [read, readAll, hfail]

/-- What a record without repetitions stands for. -/
theorem read_of_nodup {j : Job} {s : Bytes} (h : LaidOut j es s) (formed : ∀ e ∈ es, e.Formed)
    (proper : ∀ e ∈ es, e.Proper) (nodup : (fields es).Nodup) :
    (∀ j', (Draft.of j (fields es).reverse).toJob? = some j' → read s = .ok j') ∧
    ((Draft.of j (fields es).reverse).toJob? = none →
      ∃ s', read s = .error (.before .mismatch s')) := by
  obtain ⟨tail, r, bound, blanks, hr, hrecord⟩ := h.read
  have hnone : ∀ f ∈ fields es, f ∉ ([] : List Field) := fun f _ => List.not_mem_nil
  rw [← List.append_nil es] at hr
  obtain ⟨first', s₁, hs₁, hgone⟩ :=
    readMembers_of_nodup (bound + 1) formed proper nodup hnone hr
  rw [hgone, List.append_nil] at hrecord
  rw [List.map_nil, ← List.append_nil (joined 125 first' [])] at hs₁
  obtain ⟨s', hs', hnext, hend⟩ := nextKey_of_closed hs₁
  obtain rfl : s' = tail := by cases hs'; rfl
  constructor
  · intro j' hj
    have hok : readRecord s = .ok (j', s') := by
      simp [hrecord, readMembers, hnext, hj, hend, Except.map]
    simp [read, readAll, hok, blanks.expectEnd, Except.map]
  · intro hj
    have hfail : readRecord s = .error (.before .mismatch s₁) := by
      simp [hrecord, readMembers, hnext, hj]
    exact ⟨s₁, by rw [read, readAll, hfail]⟩

end

/-- The text does not fit a record. -/
def IsDataFault (r : Except Fault Job) : Prop := ∃ f, r = .error f ∧ f.cause.category = .data

/-- A repeated field is a fault of the data, also if others were repeated before it. -/
theorem isDataFault_of_again {j : Job} {before after : List Entry} {e : Entry} {s : Bytes} {f : Field}
    (h : LaidOut j (before ++ e :: after) s) (formed : ∀ e ∈ before, e.Formed)
    (proper : ∀ e ∈ before, e.Proper) (hformed : e.Formed)
    (named : Field.ofName? e.name = some f) (hmem : f ∈ fields before) : IsDataFault (read s) := by
  by_cases nodup : (fields before).Nodup
  · obtain ⟨s', hs'⟩ := read_of_again h formed proper nodup hformed named hmem
    exact ⟨_, hs', rfl⟩
  · obtain ⟨first, g, rest, rfl, nodup', hg⟩ := exists_again nodup
    rw [List.append_assoc] at h
    obtain ⟨s', hs'⟩ := read_of_again (e := .field g) h
      (fun e he => formed e (List.mem_append_left _ he))
      (fun e he => proper e (List.mem_append_left _ he)) nodup' trivial (Field.ofName?_name g) hg
    exact ⟨_, hs', rfl⟩

/-- **A job is read back from its record.**  It is also read back when the members come in another
    order, when there are any blanks between the tokens, when there are members under names that
    no field has, with any JSON values, and when fields whose value is null are left out.  If a
    field is missing which every job has, or if a field is repeated with whatever value, this is a
    fault of the data. -/
theorem record_read_back (j : Job) :
    read (write j) = .ok j ∧
    (∀ es s, LaidOut j es s → (∀ e ∈ es, e.Formed) → (∀ e ∈ es, e.Proper) → (fields es).Nodup →
      (∀ f, f ∉ fields es → value j f = .null) → read s = .ok j) ∧
    (∀ es s, LaidOut j es s → (∀ e ∈ es, e.Formed) → (∀ e ∈ es, e.Proper) →
      ∀ f, f.required = true → f ∉ fields es → IsDataFault (read s)) ∧
    ∀ before e after s, LaidOut j (before ++ e :: after) s → (∀ e ∈ before, e.Formed) →
      (∀ e ∈ before, e.Proper) → e.Formed →
      ∀ f ∈ fields before, Field.ofName? e.name = some f → IsDataFault (read s) := by
  have hback : ∀ es s, LaidOut j es s → (∀ e ∈ es, e.Formed) → (∀ e ∈ es, e.Proper) →
      (fields es).Nodup → (∀ f, f ∉ fields es → value j f = .null) → read s = .ok j :=
    fun es s h formed proper nodup complete => (read_of_nodup h formed proper nodup).1 j <|
      Draft.toJob?_of fun f hf => complete f (by simpa using hf)
  refine ⟨?_, hback, fun es s h formed proper f hf hmem => ?_,
    fun before e after s h formed proper hformed f hf named =>
      isDataFault_of_again h formed proper hformed named hf⟩
  · have hfields : fields (Field.all.map .field) = Field.all := by decide
    refine hback _ _ (laidOut_write j) (fun e he => ?_) (fun e he => ?_) ?_ fun f hf => ?_
    · obtain ⟨f, -, rfl⟩ := List.mem_map.1 he
      trivial
    · obtain ⟨f, -, rfl⟩ := List.mem_map.1 he
      exact (Field.ofName?_name f).symm
    · rw [hfields]
      decide
    · rw [hfields] at hf
      exact absurd (by cases f <;> decide) hf
  · by_cases nodup : (fields es).Nodup
    · obtain ⟨s', hs'⟩ := (read_of_nodup h formed proper nodup).2 <|
        Draft.toJob?_of_missing hf (by simpa using hmem)
      exact ⟨_, hs', rfl⟩
    · obtain ⟨before, g, after, rfl, -, hg⟩ := exists_again nodup
      exact isDataFault_of_again (e := .field g) h (fun e he => formed e (List.mem_append_left _ he))
        (fun e he => proper e (List.mem_append_left _ he)) trivial (Field.ofName?_name g) hg

/-- A job that waits for its first attempt. -/
def untried : Job := .new "a" 5 "q" "t" "o" ⟨[1, 2]⟩

/-- The fields that are not null, the last one first. -/
def backwards : List Entry := (Field.all.filter Field.required).reverse.map .field

/-- A member under the name `x`, which is spelled by its number, with a list of a number and of an
    object. -/
def stranger : Entry :=
  .extra [92, 117, 48, 48, 55, 56] "x" (91 :: [45, 49, 46, 53, 101, 51, 44, 123, 125, 93])

theorem isValue_object : IsValue [123, 125] :=
  @IsValue.object [] _ nofun nofun (Spaced.flatten [[125]])

theorem stranger_formed : stranger.Formed := by
  have hzero : Text.hexDigit? 48 = some 0 := by decide
  have hunit : Text.IsUnit [48, 48, 55, 56] 0x78 :=
    .digits hzero hzero (m := 7) (by decide) (n := 8) (by decide)
  have hbytes : textBytes "x" = Text.encode 0x78 ++ [] := by decide
  have hscale : Numeral.IsScale (101 :: ([] ++ [51])) :=
    .digits (.inl rfl) (.inl rfl) (by decide) nofun
  have hnumber : IsValue [45, 49, 46, 53, 101, 51] :=
    .number (.negative (i := [49]) (f := [46, 53]) (.digits (by decide) (by decide) nofun)
      (.digits (by decide) nofun) hscale)
  refine ⟨?_, @IsValue.array [[45, 49, 46, 53, 101, 51], [123, 125]] _ ?_
    (Spaced.flatten [[45, 49, 46, 53, 101, 51], [44], [123, 125], [93]])⟩
  · rw [hbytes]
    exact .unit hunit rfl rfl .nil
  · rintro v hv
    rcases List.mem_pair.1 hv with rfl | rfl
    · exact hnumber
    · exact isValue_object

/-- A record with each token on a line of its own. -/
theorem laidOut_lines (j : Job) (es : List Entry) :
    LaidOut j es (([123] :: joined 125 true (es.map (Entry.tokens j))).flatMap ([10] ++ ·) ++ [32]) :=
  ⟨[32], blanks_singleton (by decide), Spaced.flatMap (blanks_singleton (by decide)) [32] _⟩

theorem record_read_back_backwards :
    (∃ s, LaidOut untried (stranger :: backwards) s ∧ read s = .ok untried) ∧
    (∃ s, LaidOut untried [stranger] s ∧ IsDataFault (read s)) ∧
    ∃ s, LaidOut untried (backwards ++ [.extra [105, 100] "id" [123, 125]]) s ∧
      IsDataFault (read s) := by
  obtain ⟨-, hback, hmissing, hagain⟩ := record_read_back untried
  have hstranger : stranger.Proper := (by decide : none = Field.ofName? "x")
  have hformed : ∀ e ∈ backwards, e.Formed := by
    intro e he
    obtain ⟨f, -, rfl⟩ := List.mem_map.1 he
    trivial
  have hproper : ∀ e ∈ backwards, e.Proper := by
    intro e he
    obtain ⟨f, -, rfl⟩ := List.mem_map.1 he
    exact (Field.ofName?_name f).symm
  refine ⟨⟨_, laidOut_lines _ _, ?_⟩, ⟨_, laidOut_lines _ _, ?_⟩, ⟨_, laidOut_lines _ _, ?_⟩⟩
  · refine hback _ _ (laidOut_lines _ _) (List.forall_mem_cons.2 ⟨stranger_formed, hformed⟩)
      (List.forall_mem_cons.2 ⟨hstranger, hproper⟩) (by decide) fun f hf => ?_
    cases f with
    | startedAt | completedAt | worker | result | error => rfl
    | _ => exact absurd (by decide) hf
  · exact hmissing _ _ (laidOut_lines _ _) (List.forall_mem_singleton.2 stranger_formed)
      (List.forall_mem_singleton.2 hstranger) .id rfl (by decide)
  · have hid : Text.Spells [105, 100] (textBytes "id") := Text.spells_flatMap (textBytes "id")
    exact hagain _ _ [] _ (laidOut_lines _ _) hformed hproper ⟨hid, isValue_object⟩ .id (by decide)
      (by decide)

end Job.Record

end JobQueue
