import SliceRecords.Proofs.Model.Outline
import SliceRecords.Proofs.Text.Calls

/-!
# Shapes of types

The text of a type shows how sequences and dictionaries are nested in it, which of its parts are
optional and what the types at its leaves are called. That is its shape. If the names hold letters,
digits, underscores and colons alone, the shape can be read off the text again, even if a type is
called `sequence` or `dictionary`. Main statements: `TypeShape.spelling_append_inj` and
`TypeRef.outline?_eq_iff_shape?_eq`.
-/

namespace SliceRecords

/-- What the text of a type shows. -/
inductive TypeShape where
  | named (name : String) (optional : Bool)
  | sequence (element : TypeShape) (optional : Bool)
  | dictionary (key value : TypeShape) (optional : Bool)
  deriving DecidableEq, Repr

mutual

/-- The shape of a type that has the parts and the name that its kind needs. -/
def TypeRef.shape? : TypeRef → Option TypeShape
  | ⟨kind, name, optional, element, key, value⟩ =>
    match kind with
    | .sequence => (TypeRef.partShape? element).map fun element => .sequence element optional
    | .dictionary => do
      let key ← TypeRef.partShape? key
      let value ← TypeRef.partShape? value
      return .dictionary key value optional
    | _ => name.map fun name => .named name optional

/-- The shape of a part that a type needs. -/
def TypeRef.partShape? : Option TypeRef → Option TypeShape
  | some type => TypeRef.shape? type
  | none => none

end

/-- A character that names of types may have: a letter, a digit, an underscore or a colon. -/
def TypeRef.isNameChar (c : Char) : Bool :=
  Text.isWordChar c || c == ':'

/-- A type with the parts that its kind needs, at every depth: an element, a key and a value, or a
name of such characters. -/
inductive TypeRef.IsLegible : TypeRef → Prop where
  | sequence (name : Option String) (optional : Bool) (element : TypeRef)
      (key value : Option TypeRef) :
      IsLegible element → IsLegible ⟨.sequence, name, optional, some element, key, value⟩
  | dictionary (name : Option String) (optional : Bool) (element : Option TypeRef)
      (key value : TypeRef) : IsLegible key → IsLegible value →
      IsLegible ⟨.dictionary, name, optional, element, some key, some value⟩
  | named (kind : TypeKind) (name : String) (optional : Bool) (element key value : Option TypeRef) :
    kind ≠ .sequence → kind ≠ .dictionary → name ≠ "" → (∀ c ∈ name.toList, isNameChar c = true) →
    IsLegible ⟨kind, some name, optional, element, key, value⟩

namespace TypeShape

open TypeRef (isNameChar)

/-- The mark behind an optional type. -/
def mark (optional : Bool) : List Char :=
  if optional then ['?'] else []

/-- The characters that show a shape. -/
def spelling : TypeShape → List Char
  | named name optional => name.toList ++ mark optional
  | sequence element optional =>
    "sequence".toList ++ '<' :: (element.spelling ++ '>' :: mark optional)
  | dictionary key value optional =>
    "dictionary".toList ++ '<' ::
      (key.spelling ++ ',' :: ' ' :: (value.spelling ++ '>' :: mark optional))

/-- A named type is spelled by its name and its mark. -/
@[simp] theorem spelling_named (name : String) (optional : Bool) :
    (named name optional).spelling = name.toList ++ mark optional := rfl

/-- A sequence is spelled by its word, its elements in angle brackets, and its mark. -/
@[simp] theorem spelling_sequence (element : TypeShape) (optional : Bool) :
    (sequence element optional).spelling =
      "sequence".toList ++ '<' :: (element.spelling ++ '>' :: mark optional) := rfl

/-- A dictionary is spelled by its word, its keys and values in angle brackets, and its mark. -/
@[simp] theorem spelling_dictionary (key value : TypeShape) (optional : Bool) :
    (dictionary key value optional).spelling = "dictionary".toList ++ '<' ::
      (key.spelling ++ ',' :: ' ' :: (value.spelling ++ '>' :: mark optional)) :=
  rfl

example : (sequence (named "sequence" true) false).spelling = "sequence<sequence?>".toList := by
  decide

/-- A shape whose names hold no characters but those of names. -/
def IsPlain : TypeShape → Prop
  | named name _ => ∀ c ∈ name.toList, isNameChar c = true
  | sequence element _ => element.IsPlain
  | dictionary key value _ => key.IsPlain ∧ value.IsPlain

/-- What can follow a type inside of another one: nothing, a comma or a closing bracket. -/
def EndsType (rest : List Char) : Prop :=
  ∀ c ∈ rest.head?, c = ',' ∨ c = '>'

/-- Characters of names are cut off from what follows them in one way only. -/
theorem append_inj_of_isNameChar {a b rest rest' : List Char} (ha : ∀ c ∈ a, isNameChar c = true)
    (hb : ∀ c ∈ b, isNameChar c = true) (hrest : ∀ c ∈ rest.head?, isNameChar c = false)
    (hrest' : ∀ c ∈ rest'.head?, isNameChar c = false) (h : a ++ rest = b ++ rest') :
    a = b ∧ rest = rest' := by
  have hcut {word after : List Char} (hword : ∀ c ∈ word, isNameChar c = true)
      (hafter : ∀ c ∈ after.head?, isNameChar c = false) :
      (word ++ after).takeWhile isNameChar = word := by
    rw [List.takeWhile_append_of_pos hword]
    cases after with
    | nil => simp
    | cons c after => simp [hafter c rfl]
  have hword : a = b := by
    rw [← hcut ha hrest, h, hcut hb hrest']
  rw [hword] at h
  exact ⟨hword, List.append_cancel_left h⟩

/-- The mark of a type ends in front of what follows the type. -/
theorem mark_append_inj {optional optional' : Bool} {rest rest' : List Char} (hrest : EndsType rest)
    (hrest' : EndsType rest') (h : mark optional ++ rest = mark optional' ++ rest') :
    optional = optional' ∧ rest = rest' := by
  have hmark {after : List Char} (hafter : EndsType ('?' :: after)) : False := by
    rcases hafter '?' rfl with hc | hc <;> cases hc
  cases optional with
  | false =>
    cases optional' with
    | false => exact ⟨rfl, h⟩
    | true =>
      rw [show rest = '?' :: rest' from h] at hrest
      exact (hmark hrest).elim
  | true =>
    cases optional' with
    | false =>
      rw [show rest' = '?' :: rest from h.symm] at hrest'
      exact (hmark hrest').elim
    | true => exact ⟨rfl, (List.cons.inj h).2⟩

/-- No character of a name, and no opening bracket, stands directly behind the name of a type. -/
theorem head?_mark_append {rest : List Char} (hrest : EndsType rest) (optional : Bool) :
    ∀ c ∈ (mark optional ++ rest).head?, isNameChar c = false ∧ c ≠ '<' := by
  cases optional with
  | true =>
    rintro c ⟨⟩
    exact ⟨by decide, by decide⟩
  | false =>
    intro c hc
    rcases hrest c hc with rfl | rfl <;> exact ⟨by decide, by decide⟩

/-- A name is not read as the word in front of an opening bracket. -/
theorem name_mark_ne_word_bracket {name : String} (hname : ∀ c ∈ name.toList, isNameChar c = true)
    {rest : List Char} (hrest : EndsType rest) (optional : Bool) {word : String}
    (hword : ∀ c ∈ word.toList, isNameChar c = true) (more : List Char) :
    name.toList ++ (mark optional ++ rest) ≠ word.toList ++ '<' :: more := by
  intro h
  have hhead := head?_mark_append hrest optional
  have hbracket : ∀ c ∈ ('<' :: more).head?, isNameChar c = false := by
    rintro c ⟨⟩
    decide
  have hafter := (append_inj_of_isNameChar hname hword (fun c hc => (hhead c hc).1) hbracket h).2
  rw [hafter] at hhead
  exact (hhead '<' rfl).2 rfl

/-- The word for sequences could be read as a name. -/
theorem isNameChar_sequence : ∀ c ∈ "sequence".toList, isNameChar c = true :=
  List.all_eq_true.mp (by decide)

/-- So could the word for dictionaries. -/
theorem isNameChar_dictionary : ∀ c ∈ "dictionary".toList, isNameChar c = true :=
  List.all_eq_true.mp (by decide)

/-- The two words in front of opening brackets differ in their first characters. -/
theorem sequence_bracket_ne_dictionary_bracket (a b : List Char) :
    "sequence".toList ++ a ≠ "dictionary".toList ++ b := by
  intro h
  have hfirst : 's' = 'd' := (List.cons.inj h).1
  exact absurd hfirst (by decide)

/-- A shape can be read off the front of a text: it ends where its spelling does. -/
theorem spelling_append_inj {a b : TypeShape} (ha : a.IsPlain) (hb : b.IsPlain)
    {rest rest' : List Char} (hrest : EndsType rest) (hrest' : EndsType rest')
    (h : a.spelling ++ rest = b.spelling ++ rest') : a = b ∧ rest = rest' := by
  have hclose (optional : Bool) (after : List Char) :
      EndsType ('>' :: (mark optional ++ after)) := by
    rintro c ⟨⟩
    exact .inr rfl
  have hcomma (after : List Char) : EndsType (',' :: after) := by
    rintro c ⟨⟩
    exact .inl rfl
  -- The induction is on the one shape, with the other one and both rests free: what follows a part
  -- differs from what follows the whole.
  induction a generalizing b rest rest' with
  | named name optional =>
    cases b with
    | named name' optional' =>
      simp only [spelling_named, List.append_assoc] at h
      have hend := fun c hc => (head?_mark_append hrest optional c hc).1
      have hend' := fun c hc => (head?_mark_append hrest' optional' c hc).1
      obtain ⟨hname, hmarks⟩ :=
        append_inj_of_isNameChar (show ∀ c ∈ name.toList, _ from ha) hb hend hend' h
      obtain ⟨rfl, rfl⟩ := mark_append_inj hrest hrest' hmarks
      obtain rfl := String.toList_inj.mp hname
      exact ⟨rfl, rfl⟩
    | sequence element optional' =>
      simp only [spelling_named, spelling_sequence, List.append_assoc] at h
      exact (name_mark_ne_word_bracket ha hrest optional isNameChar_sequence _ h).elim
    | dictionary key value optional' =>
      simp only [spelling_named, spelling_dictionary, List.append_assoc] at h
      exact (name_mark_ne_word_bracket ha hrest optional isNameChar_dictionary _ h).elim
  | sequence element optional ih =>
    cases b with
    | named name' optional' =>
      simp only [spelling_sequence, spelling_named, List.append_assoc] at h
      exact (name_mark_ne_word_bracket hb hrest' optional' isNameChar_sequence _ h.symm).elim
    | sequence element' optional' =>
      simp only [spelling_sequence, List.append_assoc, List.cons_append, List.append_cancel_left_eq,
        List.cons.injEq, true_and] at h
      obtain ⟨rfl, hmarks⟩ :=
        ih (b := element') ha hb (hclose optional rest) (hclose optional' rest') h
      obtain ⟨rfl, rfl⟩ := mark_append_inj hrest hrest' (List.cons.inj hmarks).2
      exact ⟨rfl, rfl⟩
    | dictionary key value optional' =>
      simp only [spelling_sequence, spelling_dictionary, List.append_assoc] at h
      exact (sequence_bracket_ne_dictionary_bracket _ _ h).elim
  | dictionary key value optional ihkey ihvalue =>
    cases b with
    | named name' optional' =>
      simp only [spelling_dictionary, spelling_named, List.append_assoc] at h
      exact (name_mark_ne_word_bracket hb hrest' optional' isNameChar_dictionary _ h.symm).elim
    | sequence element optional' =>
      simp only [spelling_dictionary, spelling_sequence, List.append_assoc] at h
      exact (sequence_bracket_ne_dictionary_bracket _ _ h.symm).elim
    | dictionary key' value' optional' =>
      simp only [spelling_dictionary, List.append_assoc, List.cons_append,
        List.append_cancel_left_eq, List.cons.injEq, true_and] at h
      obtain ⟨rfl, hvalues⟩ := ihkey (b := key') ha.1 hb.1 (hcomma _) (hcomma _) h
      simp only [List.cons.injEq, true_and] at hvalues
      obtain ⟨rfl, hmarks⟩ :=
        ihvalue (b := value') ha.2 hb.2 (hclose optional rest) (hclose optional' rest') hvalues
      obtain ⟨rfl, rfl⟩ := mark_append_inj hrest hrest' (List.cons.inj hmarks).2
      exact ⟨rfl, rfl⟩

/-- Plain types are spelled alike only if they are the same. -/
theorem spelling_eq_iff {a b : TypeShape} (ha : a.IsPlain) (hb : b.IsPlain) :
    a.spelling = b.spelling ↔ a = b := by
  have hnothing : EndsType [] := by simp [EndsType]
  refine ⟨fun h => ?_, fun h => congrArg spelling h⟩
  exact (spelling_append_inj ha hb hnothing hnothing (congrArg (· ++ []) h)).1

end TypeShape

namespace TypeRef

/-- A legible type has a shape of plain names, and its text spells the shape. -/
theorem IsLegible.exists_shape {type : TypeRef} (h : type.IsLegible) :
    ∃ shape, type.shape? = some shape ∧ shape.IsPlain ∧
      type.outline? = some (String.ofList shape.spelling) := by
  have hmark (text : String) (optional : Bool) : (if optional = true then text ++ "?" else text) =
      text ++ String.ofList (TypeShape.mark optional) := by
    cases optional with
    | true => rfl
    | false => exact String.append_empty.symm
  induction h with
  | sequence name optional element key value _ ih =>
    obtain ⟨shape, hshape, hplain, htext⟩ := ih
    refine ⟨.sequence shape optional, ?_, hplain, ?_⟩
    · simp [shape?, partShape?, hshape]
    · simp only [outline?, partOutline?, htext]
      change some
        (if optional = true then "sequence<" ++ String.ofList shape.spelling ++ ">" ++ "?"
        else "sequence<" ++ String.ofList shape.spelling ++ ">") = _
      rw [hmark]
      simp [← String.toList_inj]
  | dictionary name optional element key value _ _ ihkey ihvalue =>
    obtain ⟨keyShape, hkeyShape, hkeyPlain, hkeyText⟩ := ihkey
    obtain ⟨valueShape, hvalueShape, hvaluePlain, hvalueText⟩ := ihvalue
    refine ⟨.dictionary keyShape valueShape optional, ?_, ⟨hkeyPlain, hvaluePlain⟩, ?_⟩
    · simp [shape?, partShape?, hkeyShape, hvalueShape]
    · simp only [outline?, partOutline?, hkeyText, hvalueText]
      change some
        (if optional = true then
          "dictionary<" ++ String.ofList keyShape.spelling ++ ", " ++
            String.ofList valueShape.spelling ++ ">" ++ "?"
        else "dictionary<" ++ String.ofList keyShape.spelling ++ ", " ++
          String.ofList valueShape.spelling ++ ">") = _
      rw [hmark]
      simp [← String.toList_inj]
  | named kind name optional element key value hsequence hdictionary hname hplain =>
    refine ⟨.named name optional, ?_, hplain, ?_⟩
    · cases kind with
      | sequence => exact (hsequence rfl).elim
      | dictionary => exact (hdictionary rfl).elim
      | _ => rfl
    · have hshown : ((some name).filter fun name => !name.isEmpty).getD "?" = name := by
        simp [Option.filter, hname]
      have htext : outline? ⟨kind, some name, optional, element, key, value⟩ =
          some (if optional = true then name ++ "?" else name) := by
        cases kind with
        | sequence => exact (hsequence rfl).elim
        | dictionary => exact (hdictionary rfl).elim
        | _ => simp only [outline?, hshown, Option.pure_def, Option.bind_eq_bind, Option.bind_some]
      rw [htext, hmark]
      simp

/-- Legible types have texts, and the texts are the same exactly if the types have the
same shape: the same nesting of sequences and dictionaries, the same optional parts and
the same names at the leaves. -/
theorem outline?_eq_iff_shape?_eq {a b : TypeRef} (ha : a.IsLegible) (hb : b.IsLegible) :
    ∃ text text' shape shape', a.outline? = some text ∧ b.outline? = some text' ∧
      a.shape? = some shape ∧ b.shape? = some shape' ∧ (text = text' ↔ shape = shape') := by
  obtain ⟨shape, hshape, hplain, htext⟩ := ha.exists_shape
  obtain ⟨shape', hshape', hplain', htext'⟩ := hb.exists_shape
  refine ⟨_, _, shape, shape', htext, htext', hshape, hshape', ?_⟩
  rw [String.ofList_inj, TypeShape.spelling_eq_iff hplain hplain']

/-- A sequence of elements whose type is called `sequence`, with a key that it does not need. -/
def sequenceOfNamed (kind : TypeKind) (optional : Bool) (key : Option TypeRef) : TypeRef :=
  ⟨.sequence, none, optional, some ⟨kind, some "sequence", !optional, none, none, none⟩, key, none⟩

/-- A sequence of a named type is legible, whatever else it holds. -/
theorem isLegible_sequenceOfNamed (kind : TypeKind) (hsequence : kind ≠ .sequence)
    (hdictionary : kind ≠ .dictionary) (optional : Bool) (key : Option TypeRef) :
    (sequenceOfNamed kind optional key).IsLegible :=
  .sequence _ _ _ _ _
    (.named _ _ _ _ _ _ hsequence hdictionary (by decide) TypeShape.isNameChar_sequence)

/-- The text of a sequence of elements that are called `sequence` does not show the kind of the
elements or a part that is not needed, and it shows which of the two types is optional. -/
theorem outline?_eq_iff_shape?_eq_named_sequence :
    (sequenceOfNamed .struct true none).outline? =
      (sequenceOfNamed .custom true (some (sequenceOfNamed .enum false none))).outline? ∧
    (sequenceOfNamed .struct true none).outline? ≠
      (sequenceOfNamed .struct false none).outline? := by
  have hstruct := isLegible_sequenceOfNamed .struct (by decide) (by decide)
  have hcustom := isLegible_sequenceOfNamed .custom (by decide) (by decide)
  constructor
  · obtain ⟨text, text', shape, shape', htext, htext', hshape, hshape', hiff⟩ :=
      outline?_eq_iff_shape?_eq (hstruct true none)
        (hcustom true (some (sequenceOfNamed .enum false none)))
    have hsame : some shape = some shape' := hshape.symm.trans (.trans rfl hshape')
    rw [htext, htext', hiff.mpr (Option.some.inj hsame)]
  · obtain ⟨text, text', shape, shape', htext, htext', hshape, hshape', hiff⟩ :=
      outline?_eq_iff_shape?_eq (hstruct true none) (hstruct false none)
    rw [htext, htext']
    intro htexts
    rw [hiff.mp (Option.some.inj htexts), ← hshape'] at hshape
    exact absurd hshape (by decide)

end TypeRef

end SliceRecords
