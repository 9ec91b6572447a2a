import Clearing.Payload.Text
import Clearing.Proofs.Number.Numeral

/-!
# What the scanner makes of a written text

A part of a text is read as certain tokens if these come first and the rest of the text is
read as if it stood alone.  Strings and punctuation are read so whatever follows them
(`Closed`).  A word or a number goes on as long as its bytes do, so they are read so if the
rest begins with something else (`Reads`), and the punctuation that follows every value
closes them (`Reads.closed`).
-/

namespace Clearing.Json

/-- A byte that ends no token. -/
theorem scan_of_quiet {state next : Scan} {byte : UInt8} (hstep : step state byte = some ([], next))
    (rest : Bytes) : scan state (byte :: rest) = scan next rest := by
  rw [scan_cons, hstep]
  exact Option.map_id'

/-- Bytes that end no token, read one after the other. -/
theorem scan_row (state : Bytes → Scan) {row : Bytes}
    (hrow : ∀ byte ∈ row, ∀ read, step (state read) byte = some ([], state (read ++ [byte])))
    (read rest : Bytes) : scan (state read) (row ++ rest) = scan (state (read ++ row)) rest := by
  induction row generalizing read with
  | nil => rw [List.append_nil, List.nil_append]
  | cons byte row ih =>
      rw [List.cons_append, scan_of_quiet (hrow byte List.mem_cons_self read),
        ih fun other hother => hrow other (List.mem_cons_of_mem _ hother), List.append_assoc]
      rfl

/-! ## Parts of a text -/

/-- No word and no number goes on here. -/
def Delimited (rest : Bytes) : Prop :=
  ∀ byte ∈ rest.head?, isLetter byte = false ∧ isNumberByte byte = false

/-- The bytes are read as the tokens if no word or number goes on behind them. -/
def Reads (bytes : Bytes) (tokens : List Token) : Prop :=
  ∀ rest, Delimited rest → scan .between (bytes ++ rest) = (scan .between rest).map (tokens ++ ·)

/-- The bytes are read as the tokens whatever follows. -/
def Closed (bytes : Bytes) (tokens : List Token) : Prop :=
  ∀ rest, scan .between (bytes ++ rest) = (scan .between rest).map (tokens ++ ·)

/-- What a byte between tokens is on its own. -/
structure Punctuates (byte : UInt8) (token : Token) : Prop where
  start_eq : start byte = some ([token], .between)
  delimits : isLetter byte = false ∧ isNumberByte byte = false

section Parts

variable {first second bytes : Bytes} {firstTokens secondTokens tokens : List Token}
  {byte : UInt8} {token : Token}

theorem Closed.reads (hclosed : Closed bytes tokens) : Reads bytes tokens :=
  fun rest _ => hclosed rest

theorem Closed.append (hfirst : Closed first firstTokens) (hsecond : Closed second secondTokens) :
    Closed (first ++ second) (firstTokens ++ secondTokens) := by
  intro rest
  rw [List.append_assoc, hfirst, hsecond, Option.map_map]
  congr 1
  funext others
  exact (List.append_assoc ..).symm

theorem Punctuates.closed (hbyte : Punctuates byte token) : Closed [byte] [token] := by
  intro rest
  show (start byte).bind _ = _
  rw [hbyte.start_eq]
  rfl

/-- Punctuation ends a word or a number. -/
theorem Reads.closed (hreads : Reads bytes tokens) (hbyte : Punctuates byte token) :
    Closed (bytes ++ [byte]) (tokens ++ [token]) := by
  intro rest
  have hdelimited : Delimited ([byte] ++ rest) := by
    rintro other ⟨⟩
    exact hbyte.delimits
  rw [List.append_assoc, hreads _ hdelimited, hbyte.closed, Option.map_map]
  congr 1
  funext others
  exact (List.append_assoc ..).symm

theorem Reads.tokens? (hreads : Reads bytes tokens) : tokens? bytes = some tokens := by
  have hscan := hreads [] nofun
  rw [List.append_nil] at hscan
  rw [Json.tokens?, hscan]
  show some (tokens ++ []) = some tokens
  rw [List.append_nil]

end Parts

/-! ## Words and numbers -/

/-- What goes on until the text is delimited ends there. -/
theorem scan_of_delimited {state : Scan} {rest : Bytes} (hdelimited : Delimited rest)
    (hstate : (∃ reversed, state = .word reversed) ∨ ∃ reversed, state = .number reversed) :
    scan state rest =
      (finish state).bind fun ended => (scan .between rest).map (ended ++ ·) := by
  cases rest with
  | nil =>
      show finish state = _
      cases finish state with
      | none => rfl
      | some ended =>
          show some ended = some (ended ++ [])
          rw [List.append_nil]
  | cons byte rest =>
      obtain ⟨hletter, hnumber⟩ := hdelimited byte rfl
      have hstep : step state byte = (finish state).bind fun ended =>
          (start byte).bind fun next => some (ended ++ next.1, next.2) := by
        rcases hstate with ⟨reversed, rfl⟩ | ⟨reversed, rfl⟩
        · rw [step, if_neg (by simp [hletter])]
          rfl
        · rw [step, if_neg (by simp [hnumber])]
          rfl
      rw [scan_cons, scan_cons, hstep, step]
      cases finish state with
      | none => rfl
      | some ended =>
          cases start byte with
          | none => rfl
          | some next =>
              simp only [Option.bind_some, Option.map_map]
              congr 1
              funext others
              exact List.append_assoc ..

/-- A word or a number, from its first byte to its last. -/
theorem reads_row (state : Bytes → Scan) {first : UInt8} {row : Bytes} {token : Token}
    (hstate : ∀ read, (∃ reversed, state read = .word reversed) ∨
      ∃ reversed, state read = .number reversed)
    (hstart : step .between first = some ([], state [first]))
    (hrow : ∀ byte ∈ row, ∀ read, step (state read) byte = some ([], state (read ++ [byte])))
    (hfinish : finish (state (first :: row)) = some [token]) : Reads (first :: row) [token] := by
  intro rest hdelimited
  rw [List.cons_append, scan_of_quiet hstart, scan_row state hrow,
    scan_of_delimited hdelimited (hstate _), List.singleton_append, hfinish, Option.bind_some]

theorem reads_word {first : UInt8} {letters : Bytes} {token : Token}
    (hstart : step .between first = some ([], .word [first])) (hletters : letters.all isLetter)
    (htoken : wordToken? (first :: letters) = some token) : Reads (first :: letters) [token] := by
  refine reads_row (fun read => .word read.reverse) (fun read => .inl ⟨_, rfl⟩) hstart ?_ ?_
  · intro byte hmem read
    rw [List.reverse_append]
    exact if_pos (List.all_eq_true.mp hletters byte hmem)
  · rw [finish, List.reverse_reverse, htoken]
    rfl

theorem start_of_number {byte : UInt8} (hbyte : byte = 45 ∨ Numeral.isDigit byte) :
    start byte = some ([], .number [byte]) := by
  rcases hbyte with rfl | hdigit
  · rfl
  · have hother {other : UInt8} (hbounds : other.toNat < 48 ∨ 57 < other.toNat) :
        byte ≠ other := by
      rintro rfl
      simp only [Numeral.isDigit, Bool.and_eq_true, decide_eq_true_eq] at hdigit
      omega
    have hblank : isBlank byte = false := by
      simp only [isBlank, Bool.or_eq_false_iff, decide_eq_false_iff_not]
      exact ⟨⟨⟨hother (by decide), hother (by decide)⟩, hother (by decide)⟩, hother (by decide)⟩
    rw [start, hblank, if_neg Bool.false_ne_true, if_neg (hother (by decide)),
      if_neg (hother (by decide)), if_neg (hother (by decide)), if_neg (hother (by decide)),
      if_neg (hother (by decide)), if_neg (hother (by decide)), if_neg (hother (by decide)),
      if_pos (.inr hdigit)]

theorem reads_number (written : Numeral.Written) :
    Reads (Text.bytesOf written.chars) [.number written.numeral] := by
  have hnumeral := written.ofBytes?_chars
  have hbytes := written.mem_bytesOf_chars
  obtain ⟨first, row, hchars, hfirst⟩ := written.exists_cons_chars
  rw [hchars] at hnumeral hbytes ⊢
  refine reads_row (fun read => .number read.reverse) (fun read => .inr ⟨_, rfl⟩)
    (start_of_number hfirst) ?_ ?_
  · intro byte hmem read
    have hnumber : isNumberByte byte := by
      rcases hbytes byte (List.mem_cons_of_mem _ hmem) with hdigit | rfl | rfl | rfl | rfl
      · simp [isNumberByte, hdigit]
      all_goals decide
    rw [List.reverse_append]
    exact if_pos hnumber
  · rw [finish, List.reverse_reverse, hnumeral]
    rfl

/-! ## Strings -/

/-- A string without lone surrogates, of which the given bytes were read. -/
def readSoFar (bytes : Bytes) : Scan :=
  .string ⟨bytes.reverse, none, false⟩

/-- Bytes that stand for themselves. -/
theorem scan_plain {plain : Bytes} (hplain : ∀ byte ∈ plain, byte ≠ 34 ∧ byte ≠ 92 ∧ ¬byte < 32)
    (read rest : Bytes) :
    scan (readSoFar read) (plain ++ rest) = scan (readSoFar (read ++ plain)) rest := by
  refine scan_row readSoFar (fun byte hmem read => ?_) read rest
  obtain ⟨hquote, hescape, hcontrol⟩ := hplain byte hmem
  rw [readSoFar, step, if_neg hquote, if_neg hescape, if_neg hcontrol]
  simp [readSoFar, Content.push]

/-- A letter after a backslash. -/
theorem scan_letter {letter byte : UInt8} (hletter : letter ≠ 117)
    (hescaped : escaped? letter = some byte) (read rest : Bytes) :
    scan (readSoFar read) (92 :: letter :: rest) = scan (readSoFar (read ++ [byte])) rest := by
  have hbackslash : step (readSoFar read) 92 =
      some ([], .escape ⟨read.reverse, none, false⟩) := rfl
  have hstep : step (.escape ⟨read.reverse, none, false⟩) letter =
      some ([], readSoFar (read ++ [byte])) := by
    rw [step, if_neg hletter, hescaped]
    simp [readSoFar, Content.push]
  rw [scan_of_quiet hbackslash, scan_of_quiet hstep]

/-- A hexadecimal digit is one byte, which is read as the digit. -/
theorem step_hexDigit {n : Nat} (hn : n < 16) : ∃ byte,
    String.utf8EncodeChar (Text.hexDigit n) = [byte] ∧ ∀ content digits value,
      step (.unit content digits value) byte =
        some (if digits ≤ 1 then ([], .string (content.pushUnit (16 * value + n)))
          else ([], .unit content (digits - 1) (16 * value + n))) := by
  have hdigits : ∀ m < 16,
      String.utf8EncodeChar (Text.hexDigit m) = [UInt8.ofNat (Text.hexDigit m).toNat] ∧
        Text.hexValue? (Char.ofNat (UInt8.ofNat (Text.hexDigit m).toNat).toNat) = some m := by
    decide
  obtain ⟨hbyte, hvalue⟩ := hdigits n hn
  refine ⟨_, hbyte, fun content digits value => ?_⟩
  rw [step, hvalue]
  rfl

/-- A control character by its number. -/
theorem scan_control {c : Char} (hcontrol : c.toNat < 32) (read rest : Bytes) :
    scan (readSoFar read) (Text.bytesOf ['\\', 'u', '0', '0', Text.hexDigit (c.toNat / 16),
      Text.hexDigit (c.toNat % 16)] ++ rest) =
        scan (readSoFar (read ++ String.utf8EncodeChar c)) rest := by
  obtain ⟨high, hhigh, hstepHigh⟩ := step_hexDigit (show c.toNat / 16 < 16 by omega)
  obtain ⟨low, hlow, hstepLow⟩ := step_hexDigit (show c.toNat % 16 < 16 by omega)
  have hbytes : Text.bytesOf ['\\', 'u', '0', '0', Text.hexDigit (c.toNat / 16),
      Text.hexDigit (c.toNat % 16)] = [92, 117, 48, 48, high, low] := by
    simp only [Text.bytesOf_cons, hhigh, hlow]
    rfl
  have hunit : 16 * (16 * 0 + c.toNat / 16) + c.toNat % 16 = c.toNat := by omega
  have hpush : Content.pushUnit ⟨read.reverse, none, false⟩ c.toNat =
      ⟨(read ++ String.utf8EncodeChar c).reverse, none, false⟩ := by
    rw [Content.pushUnit, Char.ofNat_toNat]
    dsimp only
    rw [if_neg (by omega), if_neg (by omega), List.reverse_append]
  have hfirst : step (.unit ⟨read.reverse, none, false⟩ 2 0) high =
      some ([], .unit ⟨read.reverse, none, false⟩ 1 (16 * 0 + c.toNat / 16)) :=
    hstepHigh _ 2 0
  have hlast : step (.unit ⟨read.reverse, none, false⟩ 1 (16 * 0 + c.toNat / 16)) low =
      some ([], readSoFar (read ++ String.utf8EncodeChar c)) := by
    rw [hstepLow, if_pos (Nat.le_refl 1), hunit, hpush]
    rfl
  rw [hbytes]
  calc scan (readSoFar read) (92 :: 117 :: 48 :: 48 :: high :: low :: rest)
      = scan (.escape ⟨read.reverse, none, false⟩) (117 :: 48 :: 48 :: high :: low :: rest) :=
        scan_of_quiet rfl _
    _ = scan (.unit ⟨read.reverse, none, false⟩ 4 0) (48 :: 48 :: high :: low :: rest) :=
        scan_of_quiet rfl _
    _ = scan (.unit ⟨read.reverse, none, false⟩ 3 0) (48 :: high :: low :: rest) :=
        scan_of_quiet rfl _
    _ = scan (.unit ⟨read.reverse, none, false⟩ 2 0) (high :: low :: rest) :=
        scan_of_quiet rfl _
    _ = scan (.unit ⟨read.reverse, none, false⟩ 1 (16 * 0 + c.toNat / 16)) (low :: rest) :=
        scan_of_quiet hfirst _
    _ = scan (readSoFar (read ++ String.utf8EncodeChar c)) rest := scan_of_quiet hlast _

theorem plain_of_char {c : Char} (hquote : c ≠ '"') (hescape : c ≠ '\\')
    (hcontrol : ¬c.toNat < 32) :
    ∀ byte ∈ String.utf8EncodeChar c, byte ≠ 34 ∧ byte ≠ 92 ∧ ¬byte < 32 := by
  intro byte hbyte
  by_cases hascii : c.toNat < 128
  · rw [Text.utf8EncodeChar_of_lt hascii] at hbyte
    obtain rfl := List.mem_singleton.mp hbyte
    have hnat : (UInt8.ofNat c.toNat).toNat = c.toNat := by
      rw [UInt8.toNat_ofNat']
      omega
    have hchar {n : Nat} (hsame : c.toNat = n) : c = Char.ofNat n := by
      rw [← hsame, Char.ofNat_toNat]
    refine ⟨fun hsame => hquote (hchar ?_), fun hsame => hescape (hchar ?_), ?_⟩
    · rw [← hnat, hsame]
      rfl
    · rw [← hnat, hsame]
      rfl
    · rw [UInt8.lt_iff_toNat_lt, hnat]
      exact hcontrol
  · have hlarge := Text.le_of_mem_utf8EncodeChar (Nat.le_of_not_lt hascii) hbyte
    refine ⟨?_, ?_, ?_⟩
    · rintro rfl
      exact absurd hlarge (by decide)
    · rintro rfl
      exact absurd hlarge (by decide)
    · rw [UInt8.lt_iff_toNat_lt]
      have hspace : (32 : UInt8).toNat = 32 := rfl
      omega

/-- The characters whose escape is a letter. -/
def lettered : List Char :=
  ['"', '\\', Char.ofNat 8, Char.ofNat 9, Char.ofNat 10, Char.ofNat 12, Char.ofNat 13]

theorem scan_escapedChar (c : Char) (read rest : Bytes) :
    scan (readSoFar read) (Text.bytesOf (escapedChar c) ++ rest) =
      scan (readSoFar (read ++ String.utf8EncodeChar c)) rest := by
  by_cases hlettered : c ∈ lettered
  · simp only [lettered, List.mem_cons, List.not_mem_nil, or_false] at hlettered
    rcases hlettered with rfl | rfl | rfl | rfl | rfl | rfl | rfl <;>
      exact scan_letter (by decide) rfl read rest
  · have hquote : c ≠ '"' := by
      rintro rfl
      exact hlettered (by decide)
    have hescape : c ≠ '\\' := by
      rintro rfl
      exact hlettered (by decide)
    have hnumber (n : Nat) (hmem : Char.ofNat n ∈ lettered) : c.toNat ≠ n := by
      rintro rfl
      rw [Char.ofNat_toNat] at hmem
      exact hlettered hmem
    rw [escapedChar, if_neg hquote, if_neg hescape, if_neg (hnumber 8 (by decide)),
      if_neg (hnumber 9 (by decide)), if_neg (hnumber 10 (by decide)),
      if_neg (hnumber 12 (by decide)), if_neg (hnumber 13 (by decide))]
    split
    · rename_i hcontrol
      exact scan_control hcontrol read rest
    · rename_i hcontrol
      rw [Text.bytesOf_cons, Text.bytesOf_nil, List.append_nil]
      exact scan_plain (plain_of_char hquote hescape hcontrol) read rest

theorem scan_stringChars (chars : List Char) (read rest : Bytes) :
    scan (readSoFar read) (Text.bytesOf (chars.flatMap escapedChar) ++ rest) =
      scan (readSoFar (read ++ Text.bytesOf chars)) rest := by
  induction chars generalizing read with
  | nil =>
      rw [Text.bytesOf_nil, List.append_nil]
      rfl
  | cons c chars ih =>
      rw [List.flatMap_cons, Text.bytesOf_append, List.append_assoc, scan_escapedChar, ih,
        Text.bytesOf_cons, List.append_assoc]

/-- A string is read as its text. -/
theorem closed_stringChars (text : String) :
    Closed (Text.bytesOf (stringChars text)) [.string (some text)] := by
  intro rest
  have hbytes : Text.bytesOf (stringChars text) =
      34 :: (Text.bytesOf (text.toList.flatMap escapedChar) ++ [34]) := by
    rw [stringChars, List.cons_append, Text.bytesOf_cons, Text.bytesOf_append]
    rfl
  have hclose : step (readSoFar (Text.bytesOf text.toList)) 34 =
      some ([.string (some text)], .between) := by
    have hcontent : Content.text? ⟨(Text.bytesOf text.toList).reverse, none, false⟩ = some text := by
      show Text.decode? (Text.bytesOf text.toList).reverse.reverse = _
      rw [List.reverse_reverse, ← Text.encode_eq, Text.decode?_encode]
    rw [readSoFar, step, if_pos rfl, hcontent]
  have hopen : step .between 34 = some ([], readSoFar []) := rfl
  rw [hbytes, List.cons_append, List.append_assoc, scan_of_quiet hopen, scan_stringChars,
    List.nil_append, List.cons_append, scan_cons, hclose]
  rfl

end Clearing.Json
