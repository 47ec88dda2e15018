/-
  Reading back strings of JSON texts.

  `Spells body bytes` are the ways in which a string can be written between its
  quotes: bytes as they are, escapes of one letter, and UTF-16 units, alone or
  as a surrogate pair.  A string is read from any of them (`readBody_of_spells`),
  and the writer chooses one (`spells_writeText`).  What is skipped may be less
  than a string, since its units are not looked at (`IsBody`).
-/
import JobQueue.Json.Text
import JobQueue.Json.Writer
import Mathlib

namespace JobQueue.Json.Text

/-! ## Units -/

/-- Four hexadecimal digits and the number that they stand for. -/
inductive IsUnit : Bytes → ℕ → Prop where
  | digits {a b c d : UInt8} {k l m n : ℕ} (first : hexDigit? a = some k)
      (second : hexDigit? b = some l) (third : hexDigit? c = some m) (fourth : hexDigit? d = some n) :
      IsUnit [a, b, c, d] (((k * 16 + l) * 16 + m) * 16 + n)

theorem IsUnit.readUnit {u : Bytes} {n : ℕ} (h : IsUnit u n) (s : Bytes) :
    readUnit (u ++ s) = .ok (n, s) := by
  cases h with
  | digits first second third fourth => simp [Text.readUnit, first, second, third, fourth]

/-! ## Spellings -/

/-- The ways to write some bytes between quotes. -/
inductive Spells : Bytes → Bytes → Prop where
  | nil : Spells [] []
  | plain {b : UInt8} {body bytes : Bytes} (visible : 32 ≤ b) (noQuote : b ≠ 34) (noEscape : b ≠ 92)
      (rest : Spells body bytes) : Spells (b :: body) (b :: bytes)
  | short {b c : UInt8} {body bytes : Bytes} (letter : shortEscape? b = some c)
      (rest : Spells body bytes) : Spells (92 :: b :: body) (c :: bytes)
  | unit {u body bytes : Bytes} {n : ℕ} (unit : IsUnit u n) (alone : isLeading n = false)
      (noTrail : isTrailing n = false) (rest : Spells body bytes) :
      Spells (92 :: 117 :: (u ++ body)) (encode n ++ bytes)
  | pair {u v body bytes : Bytes} {m n : ℕ} (first : IsUnit u m) (leading : isLeading m = true)
      (second : IsUnit v n) (trailing : isTrailing n = true) (rest : Spells body bytes) :
      Spells (92 :: 117 :: (u ++ 92 :: 117 :: (v ++ body)))
        (encode (0x10000 + (m - 0xD800) * 1024 + (n - 0xDC00)) ++ bytes)

theorem readBytes_escape {s bs s' : Bytes} (read : Bytes) (h : readEscape s = .ok (bs, s')) :
    readBytes read (92 :: s) = readBytes (bs.reverse ++ read) s' := by
  rw [readBytes]
  simp only [show (92 : UInt8) ≠ 34 by decide, if_false, if_true]
  split
  · rename_i hf; rw [h] at hf; cases hf
  · rename_i hok; rw [h] at hok; cases hok; rfl

theorem readEscape_unit {u : Bytes} {n : ℕ} (h : IsUnit u n) (alone : isLeading n = false)
    (noTrail : isTrailing n = false) (s : Bytes) :
    readEscape (117 :: (u ++ s)) = .ok (encode n, s) := by
  have hnone : shortEscape? 117 = none := by decide
  simp [readEscape, hnone, readUnits, h.readUnit, alone, noTrail]

theorem readEscape_pair {u v : Bytes} {m n : ℕ} (first : IsUnit u m) (leading : isLeading m = true)
    (second : IsUnit v n) (trailing : isTrailing n = true) (s : Bytes) :
    readEscape (117 :: (u ++ 92 :: 117 :: (v ++ s))) =
      .ok (encode (0x10000 + (m - 0xD800) * 1024 + (n - 0xDC00)), s) := by
  have hnone : shortEscape? 117 = none := by decide
  have hno : isTrailing m = false := by
    simp only [isLeading, isTrailing, Bool.and_eq_true, decide_eq_true_eq, Bool.and_eq_false_iff,
      decide_eq_false_iff_not] at leading ⊢
    omega
  simp [readEscape, hnone, readUnits, first.readUnit, leading, hno, readPair, readTrailing,
    second.readUnit, trailing]

/-- The bytes of a string are read from each of its spellings. -/
theorem Spells.readBytes {body bytes : Bytes} (h : Spells body bytes) (read rest : Bytes) :
    readBytes read (body ++ 34 :: rest) = .ok (read.reverse ++ bytes, rest) := by
  induction h generalizing read with
  | nil => simp [Text.readBytes]
  | plain visible noQuote noEscape _ ih =>
    rw [List.cons_append, Text.readBytes]
    simp [noQuote, noEscape, UInt8.not_lt.2 visible, ih]
  | @short b c body _ letter _ ih =>
    have hesc : readEscape (b :: (body ++ 34 :: rest)) = .ok ([c], body ++ 34 :: rest) := by
      simp only [readEscape, letter]
    simp [readBytes_escape read hesc, ih]
  | unit unit alone noTrail _ ih =>
    simp only [List.cons_append, List.append_assoc]
    simp [readBytes_escape read (readEscape_unit unit alone noTrail _), ih]
  | pair first leading second trailing _ ih =>
    simp only [List.cons_append, List.append_assoc]
    simp [readBytes_escape read (readEscape_pair first leading second trailing _), ih]

/-- The bytes of a text are in order. -/
theorem decode_textBytes (t : String) : Utf8.decode (textBytes t) = .ok t := by
  have hbytes : (textBytes t).toByteArray = t.toByteArray :=
    ByteArray.ext (by rw [List.data_toByteArray, textBytes, String.toUTF8])
  rw [Utf8.decode, hbytes, String.fromUTF8?, dif_pos t.isValidUTF8]
  rfl

/-- **A string is read from each of its spellings.** -/
theorem readBody_of_spells {body : Bytes} {t : String} (h : Spells body (textBytes t))
    (rest : Bytes) : readBody (body ++ 34 :: rest) = .ok (t, rest) := by
  simp [readBody, h.readBytes, decode_textBytes]

/-! ## The writer's spelling -/

/-- The digits of a control are those of its number. -/
theorem isUnit_control : ∀ b : UInt8, b < 32 →
    hexDigit? (hexByte (b.toNat / 16)) = some (b.toNat / 16) ∧
    hexDigit? (hexByte (b.toNat % 16)) = some (b.toNat % 16) ∧ encode b.toNat = [b] := by
  decide +kernel

/-- Each byte is written in one of the ways. -/
theorem spells_escapeByte (b : UInt8) {body bytes : Bytes} (h : Spells body bytes) :
    Spells (escapeByte b ++ body) (b :: bytes) := by
  unfold escapeByte
  split_ifs with quote backslash back tab feed page ret control
  · exact .short (by rw [quote]; rfl) h
  · exact .short (by rw [backslash]; rfl) h
  · exact .short (by rw [back]; rfl) h
  · exact .short (by rw [tab]; rfl) h
  · exact .short (by rw [feed]; rfl) h
  · exact .short (by rw [page]; rfl) h
  · exact .short (by rw [ret]; rfl) h
  · obtain ⟨hhigh, hlow, hencode⟩ := isUnit_control b control
    have hzero : hexDigit? 48 = some 0 := by decide
    have hunit := IsUnit.digits hzero hzero hhigh hlow
    have hnumber : ((0 * 16 + 0) * 16 + b.toNat / 16) * 16 + b.toNat % 16 = b.toNat := by omega
    rw [hnumber] at hunit
    have hlt : b.toNat < 32 := UInt8.lt_iff_toNat_lt.1 control
    have hspell := Spells.unit hunit (by simp [isLeading]; omega) (by simp [isTrailing]; omega) h
    rwa [hencode] at hspell
  · exact .plain (UInt8.not_lt.1 control) quote backslash h

/-- The writer's spelling of a string. -/
theorem spells_flatMap (bytes : Bytes) : Spells (bytes.flatMap escapeByte) bytes := by
  induction bytes with
  | nil => exact .nil
  | cons b bytes ih =>
    rw [List.flatMap_cons]
    exact spells_escapeByte b ih

/-! ## Strings that are skipped -/

/-- What stands between the quotes of a string that is skipped. -/
inductive IsBody : Bytes → Prop where
  | nil : IsBody []
  | plain {b : UInt8} {body : Bytes} (visible : 32 ≤ b) (noQuote : b ≠ 34) (noEscape : b ≠ 92)
      (rest : IsBody body) : IsBody (b :: body)
  | short {b : UInt8} {body : Bytes} (letter : (shortEscape? b).isSome = true)
      (rest : IsBody body) : IsBody (92 :: b :: body)
  | unit {u body : Bytes} {n : ℕ} (unit : IsUnit u n) (rest : IsBody body) :
      IsBody (92 :: 117 :: (u ++ body))

theorem skipBody_escape {s s' : Bytes} (h : skipEscape s = .ok s') :
    skipBody (92 :: s) = skipBody s' := by
  rw [skipBody]
  simp only [show (92 : UInt8) ≠ 34 by decide, if_false, if_true]
  split
  · rename_i hf; rw [h] at hf; cases hf
  · rename_i hok; rw [h] at hok; cases hok; rfl

/-- **A string is skipped up to its closing quote.** -/
theorem IsBody.skipBody {body : Bytes} (h : IsBody body) (rest : Bytes) :
    skipBody (body ++ 34 :: rest) = .ok rest := by
  induction h with
  | nil => simp [Text.skipBody]
  | plain visible noQuote noEscape _ ih =>
    rw [List.cons_append, Text.skipBody]
    simp [noQuote, noEscape, UInt8.not_lt.2 visible, ih]
  | @short b body letter _ ih =>
    have hesc : skipEscape (b :: (body ++ 34 :: rest)) = .ok (body ++ 34 :: rest) := by
      simp only [skipEscape, letter, if_true]
    simp [skipBody_escape hesc, ih]
  | @unit u body n unit _ ih =>
    have hesc : skipEscape (117 :: (u ++ (body ++ 34 :: rest))) = .ok (body ++ 34 :: rest) := by
      simp [skipEscape, show shortEscape? 117 = none by decide, unit.readUnit, Except.map]
    simp only [List.cons_append, List.append_assoc]
    rw [skipBody_escape hesc, ih]

end JobQueue.Json.Text
