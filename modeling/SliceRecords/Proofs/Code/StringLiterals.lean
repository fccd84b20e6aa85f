import SliceRecords.Code.Literal
import SliceRecords.Proofs.Text.Hex

/-!
# What a string literal denotes

A reader of generated code looks for the quotation mark that closes a literal and then decodes what
stands before it, escape by escape. Every text is the one that its literal denotes to such a reader.
Main statement: `stringLiteral_denotes`.
-/

namespace SliceRecords.Code

open Text

/-- The characters that end a line of generated code; none of them may stand in a literal. -/
def isLineTerminator (c : Char) : Bool :=
  ['\n', '\r', '\u0085', '\u2028', '\u2029'].contains c

/-- The character that a backslash and a letter denote. -/
def escapedChar? (letter : Char) : Option Char :=
  match letter with
  | '\\' => some '\\'
  | '"' => some '"'
  | '0' => some '\x00'
  | 'a' => some '\x07'
  | 'b' => some '\x08'
  | 'f' => some '\x0C'
  | 'n' => some '\n'
  | 'r' => some '\r'
  | 't' => some '\t'
  | 'v' => some '\x0B'
  | _ => none

/-- The character whose code point four hexadecimal digits give. Half a surrogate
pair is no character. -/
def codedChar? (a b c d : Char) : Option Char := do
  let unit ← Json.codeUnit? a b c d
  if Json.isHighSurrogate unit || Json.isLowSurrogate unit then none else some (Char.ofNat unit)

/-- Cuts a text at its first quotation mark. A backslash takes the character after it along, so that
a quotation mark behind one is passed over. -/
def spanBody? : List Char → Option (List Char × List Char)
  | [] => none
  | '"' :: rest => some ([], rest)
  | '\\' :: escaped :: rest => (spanBody? rest).map (Prod.map (['\\', escaped] ++ ·) id)
  | c :: rest => (spanBody? rest).map (Prod.map (c :: ·) id)

/-- The text that the body of a literal denotes, if every backslash in it starts an escape. -/
def denotation? : List Char → Option (List Char)
  | [] => some []
  | '\\' :: 'u' :: a :: b :: c :: d :: rest => do
    let coded ← codedChar? a b c d
    return coded :: (← denotation? rest)
  | '\\' :: letter :: rest => do
    let escaped ← escapedChar? letter
    return escaped :: (← denotation? rest)
  | c :: rest => if c = '\\' then none else (denotation? rest).map (c :: ·)

/-- A character that may stand in the body of a literal as it is. -/
structure IsPlain (c : Char) : Prop where
  ne_quote : c ≠ '"'
  ne_backslash : c ≠ '\\'
  isLineTerminator : isLineTerminator c = false

/-- A character with a property that quotation marks, backslashes and the ends of lines
do not have is plain. -/
theorem isPlain_of_all_not {p : Char → Bool} {c : Char} (hc : p c = true)
    (h : (['"', '\\', '\n', '\r', '\u0085', '\u2028', '\u2029'].all fun d => !p d) = true) :
    IsPlain c := by
  have hne : ∀ d ∈ ['"', '\\', '\n', '\r', '\u0085', '\u2028', '\u2029'], c ≠ d := by
    rintro d hd rfl
    have hnot := List.all_eq_true.mp h c hd
    simp [hc] at hnot
  obtain ⟨hquote, hbackslash, hline⟩ := by simpa only [List.forall_mem_cons] using hne
  exact ⟨hquote, hbackslash, by simpa [isLineTerminator] using hline⟩

/-- The spellings of one character in the body of a literal. -/
inductive Spells : List Char → Char → Prop
  | escape {letter c : Char} (h : escapedChar? letter = some c) : Spells ['\\', letter] c
  | code {w x y z c : Char} (h : codedChar? w x y z = some c) : Spells ['\\', 'u', w, x, y, z] c
  | plain {c : Char} (h : IsPlain c) : Spells [c] c

/-- The escape letter of a character denotes that character. -/
theorem escapedChar?_of_escapeLetter? {c letter : Char} (h : escapeLetter? c = some letter) :
    escapedChar? letter = some c := by
  have hchar {n : Nat} (hn : c.toNat = n) : some (Char.ofNat n) = some c := by
    rw [← hn, Char.ofNat_toNat]
  unfold escapeLetter? at h
  split at h
  case h_11 => cases h
  all_goals
    obtain rfl := Option.some.inj h
    exact hchar ‹_›

/-- The digits of a control or a line separator denote that character. -/
theorem spells_hex {c : Char} (h : needsCodeEscape c = true) :
    Spells ('\\' :: 'u' :: hex 4 c.toNat) c := by
  have hsmall : c.toNat < 0xD800 := by
    simp [needsCodeEscape] at h
    omega
  obtain ⟨w, x, y, z, hdigits, hunit⟩ := exists_hex_eq (Nat.lt_trans hsmall (by decide))
  rw [hdigits]
  apply Spells.code
  have hhigh : ¬0xD800 ≤ c.toNat := by omega
  have hlow : ¬0xDC00 ≤ c.toNat := by omega
  simp [codedChar?, hunit, Json.isHighSurrogate, Json.isLowSurrogate, hhigh, hlow]

/-- A literal spells every character of its text. -/
theorem spells_literalChar (c : Char) : Spells (literalChar c) c := by
  unfold literalChar
  split
  · exact .escape (escapedChar?_of_escapeLetter? ‹_›)
  split
  · exact spells_hex ‹_›
  · rename_i hletter hcode
    exact .plain (isPlain_of_all_not (p := fun c => (escapeLetter? c).isNone && !needsCodeEscape c)
      (by simp [hletter, hcode]) (by decide))

/-- The digits of a code point are plain. -/
theorem isPlain_of_codedChar? {w x y z c : Char} (h : codedChar? w x y z = some c) :
    ∀ digit ∈ [w, x, y, z], IsPlain digit := by
  simp only [codedChar?, Json.codeUnit?, Option.bind_eq_bind, Option.bind_eq_some_iff] at h
  obtain ⟨_, ⟨_, hw, _, hx, _, hy, _, hz, _⟩, _⟩ := h
  have hplain {digit : Char} {value : Nat} (hvalue : hexValue? digit = some value) :
      IsPlain digit :=
    isPlain_of_all_not (p := fun c => (hexValue? c).isSome) (by simp [hvalue]) (by decide)
  simp only [List.forall_mem_cons]
  exact ⟨hplain hw, hplain hx, hplain hy, hplain hz, List.forall_mem_nil _⟩

/-- A reader passes over plain characters. -/
theorem spanBody?_append_of_plain {run : List Char} (h : ∀ c ∈ run, IsPlain c) (rest : List Char) :
    spanBody? (run ++ rest) = (spanBody? rest).map (Prod.map (run ++ ·) id) := by
  induction run with
  | nil => exact Option.map_id_apply.symm
  | cons c run ih =>
    obtain ⟨hc, hrun⟩ := List.forall_mem_cons.mp h
    rw [List.cons_append, spanBody?, ih hrun, Option.map_map]
    · rfl
    · exact fun hquote => absurd hquote hc.ne_quote
    · exact fun escaped rest hbackslash => absurd hbackslash hc.ne_backslash

namespace Spells

variable {piece : List Char} {c : Char}

/-- A reader passes over the spelling of a character at once. -/
theorem spanBody?_append (h : Spells piece c) (rest : List Char) :
    spanBody? (piece ++ rest) = (spanBody? rest).map (Prod.map (piece ++ ·) id) := by
  cases h with
  | escape h => rfl
  | @code w x y z _ h =>
    have hdigits := spanBody?_append_of_plain (isPlain_of_codedChar? h) rest
    calc spanBody? (['\\', 'u'] ++ ([w, x, y, z] ++ rest))
        = (spanBody? ([w, x, y, z] ++ rest)).map (Prod.map (['\\', 'u'] ++ ·) id) := rfl
      _ = _ := by
        rw [hdigits, Option.map_map]
        rfl
  | plain h => exact spanBody?_append_of_plain (by simpa using h) rest

/-- A spelling in front of a body adds its character to what the body denotes. -/
theorem denotation?_append (h : Spells piece c) (rest : List Char) :
    denotation? (piece ++ rest) = (denotation? rest).map (c :: ·) := by
  cases h with
  | @escape letter _ h =>
    have hletter : letter ≠ 'u' := by
      rintro rfl
      cases h
    simp only [List.cons_append, List.nil_append]
    rw [denotation?, h]
    · cases denotation? rest <;> rfl
    · exact fun _ _ _ _ _ hcode => absurd hcode hletter
  | @code w x y z _ h =>
    simp only [List.cons_append, List.nil_append]
    rw [denotation?, h]
    cases denotation? rest <;> rfl
  | plain h =>
    rw [List.singleton_append, denotation?, if_neg h.ne_backslash]
    · exact fun _ _ _ _ _ hbackslash => absurd hbackslash h.ne_backslash
    · exact fun _ _ hbackslash => absurd hbackslash h.ne_backslash

/-- No spelling ends a line. -/
theorem isLineTerminator_eq_false (h : Spells piece c) :
    ∀ d ∈ piece, isLineTerminator d = false := by
  have hbackslash : isLineTerminator '\\' = false := by decide
  cases h with
  | @escape letter _ h =>
    have hletter : isLineTerminator letter = false := by
      unfold escapedChar? at h
      split at h
      case h_11 => cases h
      all_goals decide
    simp [hbackslash, hletter]
  | code h =>
    refine List.forall_mem_cons.mpr ⟨hbackslash, List.forall_mem_cons.mpr ⟨by decide, ?_⟩⟩
    exact fun digit hdigit => (isPlain_of_codedChar? h digit hdigit).isLineTerminator
  | plain h => simpa using h.isLineTerminator

end Spells

/-- What stands between the quotation marks of the literal of a text. -/
def literalBody (text : List Char) : List Char :=
  text.flatMap literalChar

/-- A literal is made character by character. -/
theorem literalBody_cons (c : Char) (text : List Char) :
    literalBody (c :: text) = literalChar c ++ literalBody text :=
  List.flatMap_cons

/-- A literal stands between quotation marks. -/
theorem toList_stringLiteral (text : String) :
    (stringLiteral text).toList = '"' :: literalBody text.toList ++ ['"'] :=
  String.toList_ofList

/-- The body of a literal ends in front of the quotation mark that closes the literal. -/
theorem spanBody?_literalBody (text rest : List Char) :
    spanBody? (literalBody text ++ '"' :: rest) = some (literalBody text, rest) := by
  induction text with
  | nil => rfl
  | cons c text ih =>
    rw [literalBody_cons, List.append_assoc, (spells_literalChar c).spanBody?_append, ih]
    rfl

/-- The body of a literal denotes the text. -/
theorem denotation?_literalBody (text : List Char) :
    denotation? (literalBody text) = some text := by
  induction text with
  | nil => rfl
  | cons c text ih =>
    rw [literalBody_cons, (spells_literalChar c).denotation?_append, ih]
    rfl

/-- No character of a literal ends a line. -/
theorem isLineTerminator_of_mem_stringLiteral {text : String} {c : Char}
    (h : c ∈ (stringLiteral text).toList) : isLineTerminator c = false := by
  have hquote : isLineTerminator '"' = false := by decide
  rw [toList_stringLiteral, List.mem_append, List.mem_cons, literalBody, List.mem_flatMap,
    List.mem_singleton] at h
  rcases h with (rfl | ⟨spelled, _, hc⟩) | rfl
  · exact hquote
  · exact (spells_literalChar spelled).isLineTerminator_eq_false c hc
  · exact hquote

/-- Texts that differ have different literals. -/
theorem stringLiteral_injective : Function.Injective stringLiteral := by
  intro other text hsame
  have hlists := congrArg String.toList hsame
  rw [toList_stringLiteral, toList_stringLiteral] at hlists
  have hbodies := (List.cons_inj_right _).mp (List.append_cancel_right hlists)
  have hdenotes := denotation?_literalBody other.toList
  rw [hbodies, denotation?_literalBody] at hdenotes
  exact String.toList_inj.mp (Option.some.inj hdenotes).symm

/-- The literal of a text is one quoted literal on one line. It starts with a quotation mark, the
first unescaped one after that ends it wherever it stands, and what is between them denotes the
text. So no other text has the same literal. -/
theorem stringLiteral_denotes (text : String) :
    (∃ body, (stringLiteral text).toList = '"' :: body ++ ['"'] ∧
      (∀ rest, spanBody? (body ++ '"' :: rest) = some (body, rest)) ∧
      denotation? body = some text.toList) ∧
    (∀ c ∈ (stringLiteral text).toList, isLineTerminator c = false) ∧
    ∀ other, stringLiteral other = stringLiteral text → other = text := by
  refine ⟨?_, fun c => isLineTerminator_of_mem_stringLiteral, fun other hsame =>
    stringLiteral_injective hsame⟩
  exact ⟨literalBody text.toList, toList_stringLiteral text, spanBody?_literalBody text.toList,
    denotation?_literalBody text.toList⟩

/-- A digit that follows a control character is not read as a digit of its escape. -/
theorem stringLiteral_denotes_control :
    stringLiteral "\x1B1" = "\"\\u001b1\"" ∧
    (∃ body, (stringLiteral "\x1B1").toList = '"' :: body ++ ['"'] ∧
      (∀ rest, spanBody? (body ++ '"' :: rest) = some (body, rest)) ∧
      denotation? body = some "\x1B1".toList) ∧
    isLineTerminator '1' = false ∧
    String.ofList ['\x1B', '1'] = "\x1B1" :=
  ⟨by decide, (stringLiteral_denotes "\x1B1").1,
   (stringLiteral_denotes "\x1B1").2.1 '1' (by decide),
   (stringLiteral_denotes "\x1B1").2.2 (String.ofList ['\x1B', '1']) (by decide)⟩

end SliceRecords.Code
