import SliceRecords.Code.Body
import SliceRecords.Proofs.Code.BlockText
import SliceRecords.Proofs.Code.Path
import SliceRecords.Proofs.Number.Notation

/-!
# Coding calls in generated text

Generated code encodes by calls of `encoder.Encode…` and decodes by calls of `decoder.Decode…`.
Layout, members, tags and the names of types make no such calls, unless a name holds `encoder` or
`decoder`. Main statements: `callees_text_ofLines`, `callees_memberName` and `callees_typeName`.
-/

namespace SliceRecords.Code

open Text

/-- The object that codes in a direction, as code names it. -/
def coder : Direction → List Char
  | .encode => "encoder".toList
  | .decode => "decoder".toList

/-- The word with which the names of the methods of a direction begin. -/
def methodStem : Direction → List Char
  | .encode => "Encode".toList
  | .decode => "Decode".toList

/-- What stands in front of a method's own name in a coding call. -/
def callStart (direction : Direction) : List Char :=
  qualified (coder direction) (methodStem direction)

/-- The coding calls in a text, from left to right: what follows directly after `encoder.Encode` or
`decoder.Decode`. -/
def callees (direction : Direction) (text : String) : List String :=
  (calls (callStart direction) text.toList).map String.ofList

/-- What stands in front of the rest of a method's name is a receiver, a dot and
the start of the name. -/
theorem isQualified_coder (direction : Direction) :
    IsQualified (coder direction) (methodStem direction) := by
  cases direction <;> constructor <;> exact List.all_eq_true.mp (by decide)

variable {direction : Direction}

/-- A text without calls that ends with a break. -/
def isOpening (direction : Direction) (text : String) : Bool :=
  endsApart text.toList && (calls (callStart direction) text.toList).isEmpty

/-- A text without calls that begins with a break. -/
def isClosing (direction : Direction) (text : String) : Bool :=
  startsApart text.toList && (calls (callStart direction) text.toList).isEmpty

/-- A text with one call that ends with a break, such as `encoder.EncodeClass(`. -/
def opensCall (direction : Direction) (name text : String) : Bool :=
  endsApart text.toList && calls (callStart direction) text.toList == [name.toList]

/-- A gap between two texts keeps their calls apart. -/
theorem callees_append_gap_append {a gap b : String}
    (hgap : isGap (callStart direction) gap.toList = true) :
    callees direction (a ++ gap ++ b) = callees direction a ++ callees direction b := by
  have hcalls := calls_append_gap_append (isQualified_coder direction) hgap a.toList b.toList
  rw [callees, String.toList_append, String.toList_append, List.append_assoc, callStart, hcalls,
    List.map_append]
  rfl

/-- A text that ends with a break keeps its calls in front of those of what follows. -/
theorem callees_append_of_endsApart {a : String} (hends : endsApart a.toList = true) (b : String) :
    callees direction (a ++ b) = callees direction a ++ callees direction b := by
  have hcalls := calls_append_of_endsApart (isQualified_coder direction) hends b.toList
  rw [callees, String.toList_append, callStart, hcalls, List.map_append]
  rfl

/-- An opening adds no calls to what follows. -/
theorem callees_opening_append {opening a : String}
    (hopening : isOpening direction opening = true) :
    callees direction (opening ++ a) = callees direction a := by
  obtain ⟨hends, hquiet⟩ := Bool.and_eq_true_iff.mp hopening
  rw [callees_append_of_endsApart hends, callees, List.isEmpty_iff.mp hquiet]
  rfl

/-- A closing adds no calls to what stands in front. -/
theorem callees_append_closing {a closing : String}
    (hclosing : isClosing direction closing = true) :
    callees direction (a ++ closing) = callees direction a := by
  obtain ⟨hstarts, hquiet⟩ := Bool.and_eq_true_iff.mp hclosing
  have hcalls := calls_append_of_startsApart (isQualified_coder direction) hstarts a.toList
  rw [callees, String.toList_append, callStart, hcalls, ← callStart, List.isEmpty_iff.mp hquiet,
    List.append_nil]
  rfl

/-- An opening and a closing add no calls to what stands between them. -/
theorem callees_enclosed {opening a closing : String}
    (hopening : isOpening direction opening = true)
    (hclosing : isClosing direction closing = true) :
    callees direction (opening ++ a ++ closing) = callees direction a := by
  rw [callees_append_closing hclosing, callees_opening_append hopening]

/-- A text that lacks a character of the calls has none. -/
theorem callees_eq_nil_of_notMem {text : String} {c : Char} (hc : c ∈ callStart direction)
    (h : c ∉ text.toList) : callees direction text = [] := by
  rw [callees, calls_eq_nil_of_not_mem hc h]
  rfl

/-- A text without dots has no calls. -/
theorem callees_eq_nil_of_dot_notMem {text : String} (h : '.' ∉ text.toList) :
    callees direction text = [] :=
  callees_eq_nil_of_notMem dot_mem_qualified h

/-- The start of a call holds a letter that separators lack. -/
theorem d_mem_callStart : 'd' ∈ callStart direction := by
  cases direction <;> decide

/-- The calls of a text, given as lists of characters. -/
theorem callees_eq_of_calls {text : String} {names : List String}
    (h : calls (callStart direction) text.toList = names.map String.toList) :
    callees direction text = names := by
  rw [callees, h, List.map_map]
  simp

/-- A method's own name in a call, up to the bracket that follows. -/
theorem callees_call {start name : String} (hstart : start.toList = callStart direction)
    (hne : name ≠ "") (hword : ∀ c ∈ name.toList, isWordChar c = true) :
    callees direction (start ++ name) = [name] := by
  have hname : name.toList ≠ [] := by rwa [ne_eq, String.toList_eq_nil_iff]
  apply callees_eq_of_calls
  rw [String.toList_append, hstart]
  exact calls_qualified_append (isQualified_coder direction) hname hword

/-- The opening of a call adds its method to the calls of what follows. -/
theorem callees_opening_call {opening a : String} (name : String)
    (hopening : opensCall direction name opening = true) :
    callees direction (opening ++ a) = name :: callees direction a := by
  obtain ⟨hends, hcall⟩ := Bool.and_eq_true_iff.mp hopening
  have hname : callees direction opening = [name] := callees_eq_of_calls (eq_of_beq hcall)
  rw [callees_append_of_endsApart hends, hname]
  rfl

/-- A call with arguments up to the end of a text, such as `encoder.EncodeClass(value)`. -/
theorem callees_call_enclosed {opening a closing : String} (name : String)
    (hopening : opensCall direction name opening = true)
    (hclosing : isClosing direction closing = true) :
    callees direction (opening ++ a ++ closing) = name :: callees direction a := by
  rw [callees_append_closing hclosing, callees_opening_call name hopening]

/-- The opening of a call that begins with a break, such as ` = decoder.DecodeClass(`, adds its
method between the calls on its two sides. -/
theorem callees_append_call_append {a middle b : String} (name : String)
    (hstarts : startsApart middle.toList = true)
    (hopening : opensCall direction name middle = true) :
    callees direction (a ++ middle ++ b) = callees direction a ++ name :: callees direction b := by
  have hmiddle := startsApart_append hstarts b.toList
  have hcalls := calls_append_of_startsApart (isQualified_coder direction) hmiddle a.toList
  have hrest : callees direction (middle ++ b) = name :: callees direction b :=
    callees_opening_call name hopening
  rw [String.append_assoc, callees, String.toList_append, String.toList_append, callStart, hcalls,
    List.map_append, ← hrest, callees, callees, String.toList_append]
  rfl

/-- One of two calls, whichever a condition chooses. -/
theorem callees_choice {start a b x y : String} (condition : Bool)
    (ha : calls (callStart direction) (start ++ a).toList = [x.toList])
    (hb : calls (callStart direction) (start ++ b).toList = [y.toList]) :
    callees direction (start ++ if condition then a else b) = [if condition then x else y] := by
  cases condition with
  | true => exact callees_eq_of_calls ha
  | false => exact callees_eq_of_calls hb

/-- Blanks at the end of a text make no calls. -/
theorem callees_trimEnd (text : String) :
    callees direction (trimEnd isBlank text) = callees direction text := by
  rw [callees, callStart, calls_trimEnd (isQualified_coder direction)]
  rfl

/-- Lines make their calls one after the other. -/
theorem callees_unlines (parts : List String) :
    callees direction (unlines parts) = parts.flatMap (callees direction) := by
  rw [callees, callStart, calls_unlines (isQualified_coder direction), List.map_flatMap]
  rfl

/-- So a text makes the calls of its lines. -/
theorem flatMap_callees_lines (text : String) :
    (lines text).flatMap (callees direction) = callees direction text := by
  rw [← callees_unlines, unlines_lines]

/-- The empty text makes no calls. -/
theorem callees_empty : callees direction "" = [] := rfl

namespace Block

/-- Trimming a block keeps its calls. -/
theorem callees_text (block : Block) :
    callees direction block.text = callees direction block.content := by
  have hempty (line : String) (h : line.isEmpty = true) : callees direction line = [] := by
    rw [String.isEmpty_iff.mp h, callees_empty]
  rw [text, callees_unlines, normalLines, flatMap_dropEnds hempty, List.flatMap_map]
  simp only [callees_trimEnd, flatMap_callees_lines]

/-- Indenting a line adds no calls. -/
theorem callees_indentLine (line : String) :
    callees direction (indentLine line) = callees direction line := by
  unfold indentLine
  split
  · rename_i hblank
    have hbreaks : ∀ c ∈ line.toList, isBreak c = true := fun c hc =>
      isBreak_of_isBlank (List.all_eq_true.mp hblank c hc)
    rw [callees_empty, callees, callStart,
      calls_eq_nil_of_forall_isBreak (isQualified_coder direction) hbreaks]
    rfl
  · exact callees_opening_append (by cases direction <;> decide)

/-- Indenting a block keeps its calls. -/
theorem callees_indent_text (block : Block) :
    callees direction block.indent.text = callees direction block.text := by
  rw [callees_text, indent, callees_unlines, List.flatMap_map]
  simp only [callees_indentLine, flatMap_callees_lines]

/-- A block of lines has the calls of the lines. -/
theorem callees_text_ofLines (lines : List String) :
    callees direction (ofLines lines).text = lines.flatMap (callees direction) := by
  rw [callees_text, content_ofLines, callees_unlines, List.flatMap_append, List.flatMap_singleton,
    callees_empty, List.append_nil]

end Block

/-- A capital at the start of a word adds no character in front of all capitals. -/
theorem notMem_capitalize {d : Char} (hd : d.toNat < 65) {word : List Char} (h : d ∉ word) :
    d ∉ capitalize word := by
  cases word with
  | nil => exact h
  | cons c rest =>
    rw [List.mem_cons, not_or] at h
    rw [capitalize, List.mem_cons, not_or]
    exact ⟨fun hupper => h.1 (eq_of_toUpper_eq hd hupper.symm).symm, h.2⟩

/-- An identifier without dots makes no calls, escaped or not. -/
theorem callees_escapeIdentifier {name : String} (h : '.' ∉ name.toList) :
    callees direction (escapeIdentifier name) = [] :=
  callees_eq_nil_of_dot_notMem (notMem_escapeIdentifier (by decide) h)

/-- The name of a member makes no calls, whatever the name of its field. A name without words has no
letters, and every other one becomes a word. -/
theorem callees_memberName (name : String) : callees direction (memberName name) = [] := by
  unfold memberName pascalCase
  split
  · rename_i hnone
    have hnotMem : 'd' ∉ name.toList := by
      intro hmem
      have hd := words_eq_nil_iff.mp hnone 'd' hmem
      revert hd
      decide
    apply callees_eq_nil_of_notMem d_mem_callStart
    exact notMem_escapeIdentifier (by decide) hnotMem
  · apply callees_escapeIdentifier
    rw [String.toList_ofList, List.mem_flatMap]
    rintro ⟨word, hword, hdot⟩
    refine notMem_capitalize (by decide) (fun hmem => ?_) hdot
    have halphanum := isAlphanum_of_mem_words hword '.' hmem
    revert halphanum
    decide

/-- A dot parts the calls on its two sides where no call of the method begins behind it. -/
theorem callees_append_dot_append {a b : String}
    (h : ¬coder direction <:+ a.toList ∨ callAt (methodStem direction) b.toList = []) :
    callees direction (a ++ "." ++ b) = callees direction a ++ callees direction b := by
  have hcalls := calls_append_dot (isQualified_coder direction) a.toList b.toList
  have hmiddle : (if coder direction <:+ a.toList then callAt (methodStem direction) b.toList
      else []) = [] := by
    rcases h with hsuffix | hcall
    · exact if_neg hsuffix
    · rw [hcall, ite_self]
  rw [hmiddle, List.append_nil] at hcalls
  rw [callees, String.toList_append, String.toList_append, List.append_assoc, callStart]
  change List.map String.ofList (calls _ (a.toList ++ '.' :: b.toList)) = _
  rw [hcalls, List.map_append]
  rfl

/-- Naming a member makes no calls. -/
theorem callees_member (field : Field) : callees direction (member field) = [] := by
  have hmember : member field = "this" ++ "." ++ memberName field.name := rfl
  have hthis : ¬coder direction <:+ "this".toList := by cases direction <;> decide
  rw [hmember, callees_append_dot_append (.inl hthis), callees_memberName,
    callees_eq_nil_of_dot_notMem (by decide)]
  rfl

/-- Taking the value of a member makes no calls. -/
theorem callees_member_value (field : Field) :
    callees direction (member field ++ ".Value") = [] := by
  have hvalue : callAt (methodStem direction) "Value".toList = [] := by cases direction <;> decide
  have hsplit : member field ++ ".Value" = member field ++ "." ++ "Value" := by
    rw [String.append_assoc]
    rfl
  rw [hsplit, callees_append_dot_append (.inr hvalue), callees_member,
    callees_eq_nil_of_dot_notMem (by decide)]
  rfl

/-- The value of a member makes no calls, wrapped or not. -/
theorem callees_unwrapped (field : Field) : callees direction (unwrapped field) = [] := by
  unfold unwrapped
  split
  · exact callees_member_value field
  · exact callees_member field

/-- The text of a number makes no calls. -/
theorem callees_numberText (number : Number) : callees direction number.text = [] := by
  apply callees_eq_nil_of_notMem d_mem_callStart
  intro hmem
  have hnumeral := Number.isNumeralChar_of_mem_text hmem
  revert hnumeral
  decide

/-- The text of a tag makes no calls. -/
theorem callees_tagText (field : Field) : callees direction (tagText field) = [] := by
  unfold tagText
  cases field.tag with
  | none => exact callees_eq_nil_of_dot_notMem (by decide)
  | some tag => exact callees_numberText tag

/-- A name that holds neither `encoder` nor `decoder`, in whatever case. -/
def AvoidsCoders (name : String) : Prop :=
  ¬"encoder".toList <:+: name.toList.map Char.toLower ∧
    ¬"decoder".toList <:+: name.toList.map Char.toLower

/-- A name that avoids the receivers does not end with one. -/
theorem AvoidsCoders.not_isSuffix {name : String} (h : AvoidsCoders name) (direction : Direction) :
    ¬coder direction <:+ name.toList := by
  intro hsuffix
  have hlower : (coder direction).map Char.toLower = coder direction := by
    cases direction <;> decide
  have hwithin := hsuffix.isInfix.map Char.toLower
  rw [hlower] at hwithin
  cases direction with
  | encode => exact h.1 hwithin
  | decode => exact h.2 hwithin

/-- Escaping a name puts no coder at its end. -/
theorem not_isSuffix_escapeIdentifier {name : String} (h : ¬coder direction <:+ name.toList) :
    ¬coder direction <:+ (escapeIdentifier name).toList := by
  unfold escapeIdentifier
  split
  · have hat : '@' ∉ coder direction := by cases direction <;> decide
    rw [String.toList_append]
    exact mt (suffix_append_cons_iff hat [] name.toList).mp h
  · exact h

/-- Parts without dots and without a coder at their ends make no calls with dots between them. -/
theorem callees_intercalate_dot {parts : List String}
    (h : ∀ part ∈ parts, '.' ∉ part.toList ∧ ¬coder direction <:+ part.toList) :
    callees direction (".".intercalate parts) = [] ∧
      ¬coder direction <:+ (".".intercalate parts).toList := by
  induction parts with
  | nil =>
    rw [String.intercalate_nil]
    exact ⟨callees_empty, by cases direction <;> decide⟩
  | cons part rest ih =>
    obtain ⟨hdot, hsuffix⟩ := h part List.mem_cons_self
    cases rest with
    | nil =>
      rw [String.intercalate_singleton]
      exact ⟨callees_eq_nil_of_dot_notMem hdot, hsuffix⟩
    | cons next rest =>
      obtain ⟨hquiet, hlast⟩ := ih fun other hother => h other (List.mem_cons_of_mem part hother)
      have hcoder : '.' ∉ coder direction := (isQualified_coder direction).dot_notMem_receiver
      rw [String.intercalate_cons_cons]
      refine ⟨?_, ?_⟩
      · rw [callees_append_dot_append (.inl hsuffix), callees_eq_nil_of_dot_notMem hdot, hquiet]
        rfl
      · rw [String.toList_append, String.toList_append, List.append_assoc]
        exact mt (suffix_append_cons_iff hcoder part.toList _).mp hlast

/-- The name of a user-defined type makes no calls in any namespace. -/
theorem callees_typeName {name : String} {parts : List String} (hpath : IsPath name parts)
    (havoids : ∀ part ∈ parts, AvoidsCoders part) (namespaceName : String) :
    callees direction (typeName namespaceName name) = [] := by
  have hlocal : localName name ∈ parts := by
    have hlast := getLast?_scopes name
    rw [scopes_of_isPath hpath] at hlast
    exact List.mem_of_getLast? hlast
  have hbase : callees direction (escapeIdentifier (localName name)) = [] :=
    callees_escapeIdentifier (hpath.identifier _ hlocal).dot_notMem
  unfold typeName
  rw [scopes_of_isPath hpath]
  dsimp only
  split
  · exact hbase
  · rename_i hlength
    have hhome : IsPath ("::".intercalate parts.dropLast) parts.dropLast := by
      refine ⟨?_, fun part hpart => hpath.identifier part (List.dropLast_subset _ hpart), .inl rfl⟩
      intro hnil
      have hpositive := List.length_pos_of_ne_nil hpath.ne_nil
      have hzero := congrArg List.length hnil
      rw [List.length_dropLast, List.length_nil] at hzero
      omega
    have hparts : ∀ part ∈ parts.dropLast.map escapeIdentifier,
        '.' ∉ part.toList ∧ ¬coder direction <:+ part.toList := by
      intro part hpart
      obtain ⟨plain, hplain, rfl⟩ := List.mem_map.mp hpart
      have hmem := List.dropLast_subset _ hplain
      exact ⟨notMem_escapeIdentifier (by decide) (hpath.identifier plain hmem).dot_notMem,
        not_isSuffix_escapeIdentifier ((havoids plain hmem).not_isSuffix direction)⟩
    obtain ⟨hquiet, hsuffix⟩ := callees_intercalate_dot hparts
    rw [namespaceOf_of_isPath hhome]
    split
    · exact hbase
    · have hglobal : ¬coder direction <:+
          ("global::" ++ ".".intercalate (parts.dropLast.map escapeIdentifier)).toList := by
        have hcolon : ':' ∉ coder direction := by cases direction <;> decide
        rw [String.toList_append]
        exact mt (suffix_append_cons_iff hcolon "global:".toList _).mp hsuffix
      change callees direction
        ("global::" ++ ".".intercalate (parts.dropLast.map escapeIdentifier) ++ "." ++
           escapeIdentifier (localName name)) = []
      rw [callees_append_dot_append (.inl hglobal), hbase, List.append_nil,
        callees_opening_append (by cases direction <;> decide), hquiet]

end SliceRecords.Code
