import SliceRecords.Json.Basic
import SliceRecords.Text.Hex
import SliceRecords.Text.Trim

/-!
# Reading JSON

The value that a text denotes, or the first place where the text is not JSON and what is wrong
there. Beside the standard grammar the words `NaN`, `Infinity` and `-Infinity` are numbers. Every
reading step takes the text that is left and gives back a shorter one, which is why reading ends.

A text is a list of Unicode scalar values. An escape that is half of a surrogate pair without the
other half denotes none of them: strings with such halves are outside of what is modelled, and
reading puts the replacement character in place of each.
-/

namespace SliceRecords.Json

/-- What is wrong with a text at some place. -/
inductive Problem where
  | expectedValue
  | expectedName
  | expectedColon
  | expectedComma
  | extraData
  | unterminatedString
  | controlCharacter
  | unknownEscape
  | malformedCodeUnit
  | byteOrderMark
  deriving DecidableEq, Repr

/-- The wording of a problem. -/
def Problem.message : Problem → String
  | expectedValue => "Expecting value"
  | expectedName => "Expecting property name enclosed in double quotes"
  | expectedColon => "Expecting ':' delimiter"
  | expectedComma => "Expecting ',' delimiter"
  | extraData => "Extra data"
  | unterminatedString => "Unterminated string starting at"
  | controlCharacter => "Invalid control character at"
  | unknownEscape => "Invalid \\escape"
  | malformedCodeUnit => "Invalid \\uXXXX escape"
  | byteOrderMark => "Unexpected UTF-8 BOM (decode using utf-8-sig)"

/-- A problem together with the text from the place where it lies. -/
structure Fault where
  problem : Problem
  rest : List Char
  deriving DecidableEq, Repr

/-- A text that is left after something has been read from `input`. -/
abbrev Shorter (input : List Char) := { rest : List Char // rest.length < input.length }

/-- What reading one thing from `input` gives. -/
abbrev Step (α : Type) (input : List Char) := Except Fault (α × Shorter input)

/-- The white space between the parts of a document. -/
def isSpace (c : Char) : Bool :=
  c == ' ' || c == '\t' || c == '\n' || c == '\r'

/-- The text without white space in front. -/
def skipSpace (input : List Char) : List Char :=
  input.dropWhile isSpace

/-- Skipping white space makes a text no longer. -/
theorem length_skipSpace_le (input : List Char) : (skipSpace input).length ≤ input.length :=
  Text.length_dropWhile_le isSpace input

/-- The number that four hexadecimal digits write. -/
def codeUnit? (a b c d : Char) : Option Nat := do
  let a ← Text.hexValue? a
  let b ← Text.hexValue? b
  let c ← Text.hexValue? c
  let d ← Text.hexValue? d
  return ((a * 16 + b) * 16 + c) * 16 + d

/-- The first half of a surrogate pair. -/
def isHighSurrogate (unit : Nat) : Bool :=
  0xD800 ≤ unit && unit < 0xDC00

/-- The second half of a surrogate pair. -/
def isLowSurrogate (unit : Nat) : Bool :=
  0xDC00 ≤ unit && unit < 0xE000

/-- The character of a code unit. Half a surrogate pair is no character and becomes the
replacement character. -/
def unitChar (unit : Nat) : Char :=
  if isHighSurrogate unit || isLowSurrogate unit then Char.ofNat 0xFFFD else Char.ofNat unit

/-- The character of a surrogate pair. -/
def pairChar (high low : Nat) : Char :=
  Char.ofNat (0x10000 + (high - 0xD800) * 0x400 + (low - 0xDC00))

/-- The text after a word, if it starts with that word. -/
def afterWord? (word input : List Char) : Option (List Char) :=
  match word, input with
  | [], _ => some input
  | _ :: _, [] => none
  | w :: word, c :: rest => if w = c then afterWord? word rest else none

/-- What is left after a word is shorter by the word. -/
theorem length_afterWord {word input rest : List Char} (h : afterWord? word input = some rest) :
    word.length + rest.length = input.length := by
  fun_induction afterWord? word input with
  | case1 => simp_all
  | case2 => simp at h
  | case3 word w rest ih =>
    have := ih h
    simp only [List.length_cons]
    omega
  | case4 => simp at h

/-- The code unit that a text starts with and the text after it. The text must go on after the
digits, since at least a quotation mark is still to come. -/
def spanCodeUnit? (input : List Char) : Option (Nat × List Char) :=
  match input with
  | a :: b :: c :: d :: next :: rest => (codeUnit? a b c d).map fun unit => (unit, next :: rest)
  | _ => none

/-- A code unit takes four characters. -/
theorem length_spanCodeUnit {input rest : List Char} {unit : Nat}
    (h : spanCodeUnit? input = some (unit, rest)) : rest.length + 4 = input.length := by
  unfold spanCodeUnit? at h
  split at h
  · obtain ⟨_, _, heq⟩ := Option.map_eq_some_iff.mp h
    simp only [Prod.mk.injEq] at heq
    simp [← heq.2]
  · simp at h

/-- Reads the escape of a code unit after its backslash and `u`, and the escape of a second one if
the two are a surrogate pair. -/
def readCodeUnit (input : List Char) : Step Char input :=
  match hfirst : spanCodeUnit? input with
  | none => .error ⟨.malformedCodeUnit, 'u' :: input⟩
  | some (first, rest) =>
    have hrest := length_spanCodeUnit hfirst
    let single : Step Char input := .ok (unitChar first, ⟨rest, by omega⟩)
    if isHighSurrogate first then
      match hafter : afterWord? ['\\', 'u'] rest with
      | none => single
      | some digits =>
        if digits.length < 5 then single
        else
          match hsecond : spanCodeUnit? digits with
          | none => .error ⟨.malformedCodeUnit, 'u' :: digits⟩
          | some (second, left) =>
            have hdigits := length_afterWord hafter
            have hleft := length_spanCodeUnit hsecond
            if isLowSurrogate second then .ok (pairChar first second, ⟨left, by omega⟩) else single
    else single

/-- The character that a backslash and a letter stand for. -/
def escaped? (letter : Char) : Option Char :=
  if letter = '"' ∨ letter = '\\' ∨ letter = '/' then some letter
  else if letter = 'b' then some '\x08'
  else if letter = 'f' then some '\x0c'
  else if letter = 'n' then some '\n'
  else if letter = 'r' then some '\r'
  else if letter = 't' then some '\t'
  else none

/-- Reads one character of a string, plain or escaped. `opening` is the text from the quotation mark
that opens the string. -/
def readChar (opening : List Char) (c : Char) (rest : List Char) : Step Char (c :: rest) :=
  if c = '\\' then
    match rest with
    | [] => .error ⟨.unterminatedString, opening⟩
    | 'u' :: digits =>
      match readCodeUnit digits with
      | .error fault => .error fault
      | .ok (read, ⟨left, h⟩) => .ok (read, ⟨left, by simp only [List.length_cons]; omega⟩)
    | letter :: left =>
      match escaped? letter with
      | some read => .ok (read, ⟨left, by simp only [List.length_cons]; omega⟩)
      | none => .error ⟨.unknownEscape, c :: letter :: left⟩
  else if c.toNat < 0x20 then .error ⟨.controlCharacter, c :: rest⟩
  else .ok (c, ⟨rest, by simp⟩)

/-- Reads a string from after its opening quotation mark to its closing one; `read` holds the
characters so far, the last one first. -/
def readStringFrom {whole : List Char} (opening read input : List Char)
    (h : input.length ≤ whole.length) : Step String whole :=
  match input with
  | [] => .error ⟨.unterminatedString, opening⟩
  | c :: rest =>
    if c = '"' then
      .ok (String.ofList read.reverse, ⟨rest, by simp only [List.length_cons] at h; omega⟩)
    else
      match readChar opening c rest with
      | .error fault => .error fault
      | .ok (char, ⟨left, hleft⟩) => readStringFrom opening (char :: read) left (by omega)
termination_by input.length
decreasing_by exact hleft

/-- Reads a string from after its opening quotation mark. -/
def readString (input : List Char) : Step String input :=
  readStringFrom ('"' :: input) [] input (Nat.le_refl _)

/-- Splits a text after its leading digits. -/
def spanDigits (input : List Char) : List Char × List Char :=
  (input.takeWhile Char.isDigit, input.dropWhile Char.isDigit)

/-- Reading digits makes a text no longer. -/
theorem length_spanDigits_le (input : List Char) :
    (spanDigits input).2.length ≤ input.length :=
  Text.length_dropWhile_le Char.isDigit input

/-- The digits after a point, if a digit follows the point. -/
def spanFraction (input : List Char) : List Char × List Char :=
  match input with
  | '.' :: rest => if (spanDigits rest).1.isEmpty then ([], input) else spanDigits rest
  | _ => ([], input)

/-- Reading a fraction makes a text no longer, also where there is none. -/
theorem length_spanFraction_le (input : List Char) :
    (spanFraction input).2.length ≤ input.length := by
  unfold spanFraction
  split
  · rename_i rest
    split
    · exact Nat.le_refl _
    · have := length_spanDigits_le rest
      simp only [List.length_cons]
      omega
  · exact Nat.le_refl _

/-- The number that digits write. -/
def ofDigits (digits : List Char) : Nat :=
  digits.foldl (fun value digit => 10 * value + (digit.toNat - '0'.toNat)) 0

/-- The sign and the digits of an exponent, if a digit follows its letter. -/
def spanExponent (input : List Char) : Option Int × List Char :=
  match input with
  | letter :: rest =>
    if letter = 'e' ∨ letter = 'E' then
      let (negative, digits) : Bool × List Char :=
        match rest with
        | '-' :: digits => (true, digits)
        | '+' :: digits => (false, digits)
        | _ => (false, rest)
      if (spanDigits digits).1.isEmpty then (none, input)
      else
        let magnitude : Int := ofDigits (spanDigits digits).1
        (some (if negative then -magnitude else magnitude), (spanDigits digits).2)
    else (none, input)
  | [] => (none, input)

/-- Reading an exponent makes a text no longer, also where there is none. -/
theorem length_spanExponent_le (input : List Char) :
    (spanExponent input).2.length ≤ input.length := by
  unfold spanExponent
  split
  · rename_i letter rest
    split
    · split
      rename_i negative digits heq
      have hdigits : digits.length ≤ rest.length := by
        split at heq <;> cases heq <;> simp
      have := length_spanDigits_le digits
      split <;> simp only [List.length_cons] <;> omega
    · exact Nat.le_refl _
  · exact Nat.le_refl _

/-- The digits before the point: a zero stands alone. -/
def spanWhole (input : List Char) : List Char × List Char :=
  match input with
  | '0' :: rest => (['0'], rest)
  | _ => spanDigits input

/-- Reading a whole number that is there makes a text shorter. -/
theorem length_spanWhole_lt {input : List Char} (h : (spanWhole input).1.isEmpty = false) :
    (spanWhole input).2.length < input.length := by
  unfold spanWhole at h ⊢
  split
  · simp
  · rename_i hzero
    simp only [spanDigits] at h ⊢
    cases input with
    | nil => simp at h
    | cons c rest =>
      by_cases hc : c.isDigit = true
      · have := Text.length_dropWhile_le Char.isDigit rest
        simp only [List.dropWhile_cons, hc, if_true, List.length_cons]
        omega
      · simp [hc] at h

/-- Reads an unsigned number; without fraction and exponent it is an integer. -/
def readUnsigned (negative : Bool) (input : List Char) : Option (Number × Shorter input) :=
  let whole := spanWhole input
  if h : whole.1.isEmpty then none
  else
    let fraction := spanFraction whole.2
    let exponent := spanExponent fraction.2
    let number :=
      if fraction.1.isEmpty && exponent.1.isNone then
        let magnitude : Int := ofDigits whole.1
        Number.integer (if negative then -magnitude else magnitude)
      else
        Number.double
          (.ofDecimal negative (ofDigits (whole.1 ++ fraction.1))
            (exponent.1.getD 0 - fraction.1.length))
    some (number, ⟨exponent.2, by
      have h₁ : whole.2.length < input.length := length_spanWhole_lt (by simpa using h)
      have h₂ : fraction.2.length ≤ whole.2.length := length_spanFraction_le whole.2
      have h₃ : exponent.2.length ≤ fraction.2.length := length_spanExponent_le fraction.2
      omega⟩)

/-- Reads a number with its sign. -/
def readNumber (input : List Char) : Step Number input :=
  match input with
  | '-' :: rest =>
    match readUnsigned true rest with
    | some (value, ⟨left, h⟩) => .ok (value, ⟨left, by simp only [List.length_cons]; omega⟩)
    | none => .error ⟨.expectedValue, '-' :: rest⟩
  | input =>
    match readUnsigned false input with
    | some result => .ok result
    | none => .error ⟨.expectedValue, input⟩

/-- The words that are values, with their values. -/
def words : List (List Char × Json) :=
  [("null".toList, null), ("true".toList, bool true), ("false".toList, bool false),
    ("NaN".toList, number (.double .notANumber)),
    ("Infinity".toList, number (.double (.infinite false))),
    ("-Infinity".toList, number (.double (.infinite true)))]

/-- No word that stands for a value is empty. -/
theorem length_pos_of_mem_words {word : List Char × Json} (h : word ∈ words) :
    0 < word.1.length := by
  simp only [words, List.mem_cons, List.not_mem_nil, or_false] at h
  rcases h with rfl | rfl | rfl | rfl | rfl | rfl <;> decide

/-- Reads the word among `candidates` that the text starts with. -/
def readWord? (input : List Char) (candidates : List (List Char × Json))
    (h : ∀ word ∈ candidates, 0 < word.1.length) : Option (Json × Shorter input) :=
  match candidates with
  | [] => none
  | (word, value) :: others =>
    match hrest : afterWord? word input with
    | some rest => some (value, ⟨rest, by
        have := length_afterWord hrest
        have := h (word, value) (by simp)
        simp only at this
        omega⟩)
    | none => readWord? input others fun other hother => h other (List.mem_cons_of_mem _ hother)

/-- Reads a value that is neither a string nor an array nor an object. -/
def readScalar (input : List Char) : Step Json input :=
  match readWord? input words fun _ h => length_pos_of_mem_words h with
  | some result => .ok result
  | none =>
    match readNumber input with
    | .ok (value, rest) => .ok (number value, rest)
    | .error fault => .error fault

/-- Reads the name of a member and the colon after it. -/
def readName (input : List Char) : Step String input :=
  match input with
  | '"' :: rest =>
    match readString rest with
    | .error fault => .error fault
    | .ok (name, ⟨left, h⟩) =>
      match hspace : skipSpace left with
      | ':' :: after => .ok (name, ⟨after, by
          have := length_skipSpace_le left
          rw [hspace] at this
          simp only [List.length_cons] at this ⊢
          omega⟩)
      | _ => .error ⟨.expectedColon, skipSpace left⟩
  | _ => .error ⟨.expectedName, input⟩

mutual

/-- Reads a value that starts at once. -/
def readValue (input : List Char) : Step Json input :=
  match input with
  | '"' :: rest =>
    match readString rest with
    | .error fault => .error fault
    | .ok (text, ⟨left, h⟩) => .ok (string text, ⟨left, by simp; omega⟩)
  | '[' :: rest =>
    have hspace := length_skipSpace_le rest
    match hrest : skipSpace rest with
    | ']' :: left => .ok (array [], ⟨left, by rw [hrest] at hspace; simp at hspace ⊢; omega⟩)
    | start =>
      match readItems [] start with
      | .error fault => .error fault
      | .ok (items, ⟨left, h⟩) => .ok (array items, ⟨left, by rw [hrest] at hspace; simp; omega⟩)
  | '{' :: rest =>
    have hspace := length_skipSpace_le rest
    match hrest : skipSpace rest with
    | '}' :: left => .ok (object [], ⟨left, by rw [hrest] at hspace; simp at hspace ⊢; omega⟩)
    | start =>
      match readMembers [] start with
      | .error fault => .error fault
      | .ok (members, ⟨left, h⟩) =>
        .ok (object (Members.ofPairs members), ⟨left, by rw [hrest] at hspace; simp; omega⟩)
  | input => readScalar input
termination_by 2 * input.length
decreasing_by all_goals (rw [hrest] at hspace; simp only [List.length_cons] at *; omega)

/-- Reads the items of an array from the start of one to the closing bracket; `read` holds those
before it, the last one first. -/
def readItems (read : List Json) (input : List Char) : Step (List Json) input :=
  match readValue input with
  | .error fault => .error fault
  | .ok (item, ⟨left, h⟩) =>
    have hspace := length_skipSpace_le left
    match hleft : skipSpace left with
    | ']' :: rest =>
      .ok ((item :: read).reverse, ⟨rest, by rw [hleft] at hspace; simp at hspace; omega⟩)
    | ',' :: rest =>
      have hnext := length_skipSpace_le rest
      match readItems (item :: read) (skipSpace rest) with
      | .error fault => .error fault
      | .ok (items, ⟨final, hfinal⟩) =>
        .ok (items, ⟨final, by rw [hleft] at hspace; simp at hspace; omega⟩)
    | other => .error ⟨.expectedComma, other⟩
termination_by 2 * input.length + 1
decreasing_by
  · omega
  · rw [hleft] at hspace; simp only [List.length_cons] at *; omega

/-- Reads the members of an object from the start of one to the closing brace. -/
def readMembers (read : List (String × Json)) (input : List Char) :
    Step (List (String × Json)) input :=
  match readName input with
  | .error fault => .error fault
  | .ok (name, ⟨after, hafter⟩) =>
    have hvalue := length_skipSpace_le after
    match readValue (skipSpace after) with
    | .error fault => .error fault
    | .ok (value, ⟨left, h⟩) =>
      have hspace := length_skipSpace_le left
      match hleft : skipSpace left with
      | '}' :: rest =>
        .ok
          (((name, value) :: read).reverse, ⟨rest, by rw [hleft] at hspace; simp at hspace; omega⟩)
      | ',' :: rest =>
        have hnext := length_skipSpace_le rest
        match readMembers ((name, value) :: read) (skipSpace rest) with
        | .error fault => .error fault
        | .ok (members, ⟨final, hfinal⟩) =>
          .ok (members, ⟨final, by rw [hleft] at hspace; simp at hspace; omega⟩)
      | other => .error ⟨.expectedComma, other⟩
termination_by 2 * input.length + 1
decreasing_by
  · omega
  · rw [hleft] at hspace; simp only [List.length_cons] at *; omega

end

/-- A problem with its place in a text: lines and columns count from one, characters from zero. -/
structure ReadError where
  problem : Problem
  line : Nat
  column : Nat
  offset : Nat
  deriving DecidableEq, Repr

/-- The wording of a problem and of its place. -/
def ReadError.message (error : ReadError) : String :=
  s!"{error.problem.message}: line {error.line} column {error.column} (char {error.offset})"

/-- The place of a fault in the text it comes from. -/
def Fault.locate (fault : Fault) (input : List Char) : ReadError :=
  let before := input.take (input.length - fault.rest.length)
  { problem := fault.problem
    line := before.count '\n' + 1
    column := (before.reverse.takeWhile (· ≠ '\n')).length + 1
    offset := before.length }

/-- Reads a document: one value with white space around it. -/
def readDocument (input : List Char) : Except Fault Json :=
  match input with
  | '\uFEFF' :: _ => .error ⟨.byteOrderMark, input⟩
  | _ =>
    match readValue (skipSpace input) with
    | .error fault => .error fault
    | .ok (value, ⟨left, _⟩) =>
      match skipSpace left with
      | [] => .ok value
      | extra => .error ⟨.extraData, extra⟩

/-- The value that a text denotes, or the place of the first problem. -/
def read (text : String) : Except ReadError Json :=
  match readDocument text.toList with
  | .ok value => .ok value
  | .error fault => .error (fault.locate text.toList)

end SliceRecords.Json
