/-
  JSON values as payloads.

  A producer writes a value into the payload of a job, and whoever gets the
  payload reads the value again.  A text that somebody else wrote may have
  blanks, escapes and repeated keys; what is read from it is written in one
  way, and that text stands for the same value (`json_comes_back`).
-/
import JobQueue.Proofs.Json.Decode
import JobQueue.Proofs.Store.Submitted

namespace JobQueue

open Json

/-- Written again, a value that was read without doubles is read again. -/
theorem decode_again {v : Json} (exact : Throughout (¬IsReal ·) v) {b : Bytes}
    (h : decode b = .ok v) : decode (Payload.ofJson v).bytes = .ok v :=
  decode_write (fits_of_decode h).1 exact (fits_of_decode h).2

/-- **JSON payloads come back.**  Take a value without doubles.  If it fits into memory and is
    nested at most 127 deep, it is decoded from the payload that it is written as; and if a
    producer submits it to a store of any kind which takes it, then it is decoded from the payload
    of the job that the producer gets, and of the one that the store has under its name.  If it was
    decoded from any bytes, then the text that it is written as is decoded to it too, and stays the
    same when it is decoded and written once more. -/
theorem json_comes_back {v : Json} (exact : Throughout (¬IsReal ·) v) :
    (Throughout Fits v → v.depth ≤ 127 →
      decode (Payload.ofJson v).bytes = .ok v ∧
      ∀ (rules : Rules) (now : Millis) (id : String) (sub : Submission) (s s' : AnyStore) (job : Job),
        submit (AnyStore.store rules) now id { sub with payload := .ofJson v } s = (.ok job, s') →
          decode job.payload.bytes = .ok v ∧
          ∀ now', ∃ kept, (AnyStore.ask rules now' (.get id) s').1 = .ok kept ∧
            decode kept.payload.bytes = .ok v) ∧
    ∀ b, decode b = .ok v →
      decode (Payload.ofJson v).bytes = .ok v ∧
      (decode (Payload.ofJson v).bytes).map Payload.ofJson = .ok (.ofJson v) := by
  refine ⟨fun fits hdepth => ?_, fun b hb => ?_⟩
  · have hback : decode (Payload.ofJson v).bytes = .ok v := decode_write fits exact hdepth
    refine ⟨hback, fun rules now id sub s s' job h => ?_⟩
    obtain ⟨rfl, hkept⟩ := AnyStore.kept_of_submit h
    exact ⟨hback, fun now' => ⟨_, hkept now', hback⟩⟩
  · have hagain := decode_again exact hb
    refine ⟨hagain, ?_⟩
    rw [hagain]
    rfl

/-- A smiling face behind a control, and the numbers at both ends. -/
def greeting : Json :=
  .object [("a", .array [.bool true, .integer (-0x8000000000000000), .integer 0xffffffffffffffff]),
    ("b", .string "\x01😀")]

/-- The same value with other blanks and escapes, and with a key that comes twice. -/
def sloppyGreeting : Bytes :=
  textBytes "\x7b \"b\":1, \"a\" :[true,-9223372036854775808 , 18446744073709551615],
    \"b\":\"\\u0001\\ud83d\\ude00\" \x7d"

def greetingJob : Submission := ⟨"q", "t", "o", .ofJson greeting, {}⟩

theorem greeting_exact : Throughout (¬IsReal ·) greeting := by
  have hleaf : ∀ v : Json, v.parts = [] → ¬v.IsReal → Throughout (¬IsReal ·) v :=
    fun v hparts hv => ⟨hv, by rw [hparts]; exact List.forall_mem_nil _⟩
  refine ⟨by rintro ⟨⟩, ?_⟩
  simp only [greeting, parts, List.map_cons, List.map_nil, List.forall_mem_cons]
  refine ⟨⟨by rintro ⟨⟩, ?_⟩, hleaf _ rfl (by rintro ⟨⟩), List.forall_mem_nil _⟩
  simp only [parts, List.forall_mem_cons]
  exact ⟨hleaf _ rfl (by rintro ⟨⟩), hleaf _ rfl (by rintro ⟨⟩), hleaf _ rfl (by rintro ⟨⟩),
    List.forall_mem_nil _⟩

/-- It is read from the other text, which is longer than the one it is written as, and from the
    payload of a job. -/
theorem json_comes_back_sloppy :
    decode sloppyGreeting = .ok greeting ∧ decode (write greeting) = .ok greeting ∧
    (write greeting).length < sloppyGreeting.length ∧
    ∃ job s', submit (AnyStore.store .default) 5 "x" greetingJob (.volatile .empty) = (.ok job, s') ∧
      decode job.payload.bytes = .ok greeting := by
  have hread : decode sloppyGreeting = .ok greeting := by cbv
  obtain ⟨fits, hdepth⟩ := fits_of_decode hread
  obtain ⟨hkept, hagain⟩ := json_comes_back greeting_exact
  have hcheck : greetingJob.check = .ok () := by cbv
  have hsubmit : submit (AnyStore.store .default) 5 "x" greetingJob (.volatile .empty) =
      AnyStore.ask .default 5 (.enqueue "x" greetingJob) (.volatile .empty) := by
    rw [submit, hcheck]
    rfl
  refine ⟨hread, (hagain _ hread).1, by cbv, _, _, hsubmit, ?_⟩
  exact ((hkept fits hdepth).2 .default 5 "x" greetingJob _ _ _ hsubmit).1

end JobQueue
