/-
  Strings in JSON texts.

  A string stands between quotes.  A backslash begins an escape: one letter,
  or four hexadecimal digits of a UTF-16 unit, where two units that form a
  surrogate pair stand for one character.  Controls have to be escaped.  What
  stands between the quotes has to be UTF-8, which is looked at once the
  string has been read to its end.
-/
import JobQueue.Json.Basic
import JobQueue.Text.Utf8

namespace JobQueue.Json.Text

/-- The value of a hexadecimal digit. -/
def hexDigit? (b : UInt8) : Option Nat :=
  if 48 ≤ b ∧ b ≤ 57 then some (b.toNat - 48)
  else if 97 ≤ b ∧ b ≤ 102 then some (b.toNat - 87)
  else if 65 ≤ b ∧ b ≤ 70 then some (b.toNat - 55)
  else none

/-- Reads the four digits of a UTF-16 unit. -/
def readUnit : Reader Nat
  | a :: b :: c :: d :: s =>
    match hexDigit? a, hexDigit? b, hexDigit? c, hexDigit? d with
    | some a, some b, some c, some d => .ok (((a * 16 + b) * 16 + c) * 16 + d, s)
    | _, _, _, _ => .error (.before .invalidEscape s)
  | _ => .error (.before .eofString [])

/-- A unit that begins a surrogate pair. -/
def isLeading (n : Nat) : Bool := 0xD800 ≤ n && n ≤ 0xDBFF

/-- A unit that ends a surrogate pair. -/
def isTrailing (n : Nat) : Bool := 0xDC00 ≤ n && n ≤ 0xDFFF

/-- The UTF-8 form of a code point that is no surrogate. -/
def encode (n : Nat) : Bytes := String.utf8EncodeChar (Char.ofNat n)

/-- Reads the second unit of a surrogate pair whose first unit is `n`. -/
def readTrailing (n : Nat) (s : Bytes) : Except Fault (Bytes × Bytes) :=
  match readUnit s with
  | .error f => .error f
  | .ok (m, s) =>
    if isTrailing m then .ok (encode (0x10000 + (n - 0xD800) * 1024 + (m - 0xDC00)), s)
    else .error (.before .loneSurrogate s)

/-- Reads the escape that has to follow the first unit `n` of a surrogate pair. -/
def readPair (n : Nat) : Bytes → Except Fault (Bytes × Bytes)
  | [] => .error (.before .eofString [])
  | b :: s =>
    if b ≠ 92 then .error (.before .unpairedSurrogate s)
    else match s with
      | [] => .error (.before .eofString [])
      | c :: s => if c = 117 then readTrailing n s else .error (.before .unpairedSurrogate s)

/-- Reads a character given by its units. -/
def readUnits (s : Bytes) : Except Fault (Bytes × Bytes) :=
  match readUnit s with
  | .error f => .error f
  | .ok (n, s) =>
    if isTrailing n then .error (.before .loneSurrogate s)
    else if isLeading n then readPair n s
    else .ok (encode n, s)

/-- The byte that an escape with one letter stands for. -/
def shortEscape? (b : UInt8) : Option UInt8 :=
  if b = 34 then some 34
  else if b = 92 then some 92
  else if b = 47 then some 47
  else if b = 98 then some 8
  else if b = 102 then some 12
  else if b = 110 then some 10
  else if b = 114 then some 13
  else if b = 116 then some 9
  else none

/-- Reads an escape behind its backslash; gives the bytes it stands for. -/
def readEscape : Bytes → Except Fault (Bytes × Bytes)
  | [] => .error (.before .eofString [])
  | b :: s =>
    match shortEscape? b with
    | some c => .ok ([c], s)
    | none => if b = 117 then readUnits s else .error (.before .invalidEscape s)

theorem readUnit_length {s r : Bytes} {n : Nat} (h : readUnit s = .ok (n, r)) :
    r.length < s.length := by
  unfold readUnit at h
  split at h
  · split at h
    · cases h; simp; omega
    · cases h
  · cases h

theorem readTrailing_length {n : Nat} {s r bs : Bytes} (h : readTrailing n s = .ok (bs, r)) :
    r.length < s.length := by
  unfold readTrailing at h
  split at h
  · cases h
  · rename_i m s₁ hm
    split at h
    · simp only [Except.ok.injEq, Prod.mk.injEq] at h
      exact h.2 ▸ readUnit_length hm
    · cases h

theorem readPair_length {n : Nat} {s r bs : Bytes} (h : readPair n s = .ok (bs, r)) :
    r.length < s.length := by
  unfold readPair at h
  split at h
  · cases h
  · split at h
    · cases h
    · split at h
      · cases h
      · split at h
        · have := readTrailing_length h; simp only [List.length_cons]; omega
        · cases h

theorem readUnits_length {s r bs : Bytes} (h : readUnits s = .ok (bs, r)) :
    r.length < s.length := by
  unfold readUnits at h
  split at h
  · cases h
  · rename_i n s₁ hn
    have h₁ := readUnit_length hn
    split at h
    · cases h
    · split at h
      · have := readPair_length h; omega
      · simp only [Except.ok.injEq, Prod.mk.injEq] at h
        exact h.2 ▸ h₁

theorem readEscape_length {s r bs : Bytes} (h : readEscape s = .ok (bs, r)) :
    r.length < s.length := by
  unfold readEscape at h
  split at h
  · cases h
  · split at h
    · cases h; simp
    · split at h
      · have := readUnits_length h; simp; omega
      · cases h

/-- Reads the bytes of a string up to its closing quote, behind the bytes `read`, which are in
    reverse order. -/
def readBytes (read : Bytes) (s : Bytes) : Except Fault (Bytes × Bytes) :=
  match s with
  | [] => .error (.before .eofString [])
  | b :: s =>
    if b = 34 then .ok (read.reverse, s)
    else if b = 92 then
      match h : readEscape s with
      | .error f => .error f
      | .ok (bs, s') =>
        have := readEscape_length h
        readBytes (bs.reverse ++ read) s'
    else if b < 32 then .error (.before .controlCharacter s)
    else readBytes (b :: read) s
  termination_by s.length
  decreasing_by all_goals simp_wf <;> omega

/-- Reads a string behind its opening quote.  The place of bytes that are no character is counted
    from the end of the string, in the bytes that the string stands for. -/
def readBody : Reader String := fun s =>
  match readBytes [] s with
  | .error f => .error f
  | .ok (bs, s) =>
    match Utf8.decode bs with
    | .error f => .error ⟨.invalidCodePoint, s.length + (bs.length - f.inOrder)⟩
    | .ok t => .ok (t, s)

/-- Skips an escape behind its backslash; units are not looked at. -/
def skipEscape : Bytes → Except Fault Bytes
  | [] => .error (.before .eofString [])
  | b :: s =>
    if (shortEscape? b).isSome then .ok s
    else if b = 117 then (readUnit s).map (·.2)
    else .error (.before .invalidEscape s)

theorem skipEscape_length {s r : Bytes} (h : skipEscape s = .ok r) : r.length < s.length := by
  unfold skipEscape at h
  split at h
  · cases h
  · split at h
    · cases h; simp
    · split at h
      · rename_i s _ _
        cases hu : readUnit s with
        | error f => rw [hu] at h; cases h
        | ok p =>
          rw [hu] at h
          have hp : p.2 = r := by simpa [Except.map] using h
          have := readUnit_length (s := s) (n := p.1) (r := p.2) hu
          rw [← hp]; simp; omega
      · cases h

/-- Skips a string behind its opening quote. -/
def skipBody (s : Bytes) : Except Fault Bytes :=
  match s with
  | [] => .error (.before .eofString [])
  | b :: s =>
    if b = 34 then .ok s
    else if b = 92 then
      match h : skipEscape s with
      | .error f => .error f
      | .ok s' =>
        have := skipEscape_length h
        skipBody s'
    else if b < 32 then .error (.before .controlCharacter s)
    else skipBody s
  termination_by s.length
  decreasing_by all_goals simp_wf <;> omega

end JobQueue.Json.Text
