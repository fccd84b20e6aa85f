import SliceRecords.Document.Load
import SliceRecords.Proofs.Code.Arms
import SliceRecords.Proofs.Instruction.Numbers
import SliceRecords.Proofs.Number.Notation

/-!
# Numerals in generated text

Instructions compare tags and sizes by value, but their code shows numbers as they are written, so a
tag `1` and a tag `1.0` are equal and give different code. The text of a block has a place for each
of its numbers, and is otherwise made from what counts for equality: equal blocks have the same text
exactly if their numbers have the same numerals. Main statement: `text_eq_iff_of_same`.
-/

namespace SliceRecords

namespace Code

open Text

variable {namespaceName : String}

/-- A number as code shows it. -/
def numeral (number : Option Number) : String :=
  (number.map Number.text).getD Json.nullWord

/-- A numeral has no characters but those of numbers and of the word for none. -/
theorem notMem_numeral {c : Char} (hc : isNumeralChar c = false) (hnull : c ∉ Json.nullWord.toList)
    (number : Option Number) : c ∉ (numeral number).toList := by
  cases number with
  | none => exact hnull
  | some number =>
    intro hmem
    rw [Number.isNumeralChar_of_mem_text hmem] at hc
    cases hc

/-- What stands in front of the first separator, and what stands behind it, can
be told from the whole. -/
theorem append_cons_inj_of_notMem {α : Type} {separator : α} {m n v w : List α} (hm : separator ∉ m)
    (hn : separator ∉ n) : m ++ separator :: v = n ++ separator :: w ↔ m = n ∧ v = w := by
  constructor
  · intro h
    induction m generalizing n with
    | nil =>
      cases n with
      | nil => exact ⟨rfl, (List.cons.inj h).2⟩
      | cons c n => exact absurd (by rw [(List.cons.inj h).1]; exact List.mem_cons_self) hn
    | cons c m ih =>
      cases n with
      | nil => exact absurd (by rw [(List.cons.inj h).1]; exact List.mem_cons_self) hm
      | cons d n =>
        obtain ⟨hcd, hrest⟩ := List.cons.inj h
        rw [List.mem_cons, not_or] at hm hn
        obtain ⟨rfl, rfl⟩ := ih hm.2 hn.2 hrest
        exact ⟨by rw [hcd], rfl⟩
  · rintro ⟨rfl, rfl⟩
    rfl

/-- The lines of a text around a numeral that a visible character ends: the numeral stands in one of
them, and what follows has lines of its own. -/
theorem exists_cleanLines_numeral (start : String) :
    ∃ front last, ∀ {numeral rest : String} {c : Char}, '\n' ∉ numeral.toList →
      (String.singleton c).toList <+: rest.toList → isBlank c = false →
        ∃ first others, Block.cleanLines [rest] = first :: others ∧ (∃ ds, first.toList = c :: ds) ∧
          Block.cleanLines [start ++ (numeral ++ rest)] =
            front ++ (last ++ (numeral ++ first)) :: others := by
  obtain ⟨front, last, hstart⟩ := exists_lines_append start
  refine ⟨front.map (trimEnd isBlank), last, ?_⟩
  intro numeral rest c hbreak hrest hc
  have hnewline : c ≠ '\n' := by
    rintro rfl
    revert hc
    decide
  obtain ⟨line, hline, ds, hds⟩ := exists_head?_lines hrest (by simpa using hnewline.symm)
  obtain ⟨others, hlines⟩ := List.head?_eq_some_iff.mp hline
  rw [String.toList_singleton, List.singleton_append] at hds
  have htrim (a : String) : trimEnd isBlank (a ++ line) = a ++ trimEnd isBlank line :=
    trimEnd_append hds.symm hc a
  refine ⟨trimEnd isBlank line, others.map (trimEnd isBlank), ?_, ⟨dropTrailing isBlank ds, ?_⟩, ?_⟩
  · simp [Block.cleanLines, hlines]
  · rw [trimEnd, String.toList_ofList, ← hds]
    exact dropTrailing_append_cons hc [] ds
  · rw [Block.cleanLines, List.flatMap_singleton, hstart (lines_append_of_notMem hbreak hlines),
      List.map_append, List.map_cons, ← String.append_assoc, htrim, String.append_assoc]

/-- Pieces of code with as many lines, which are the same lines exactly if some
numerals are the same. -/
structure Alike (p q m n : List String) : Prop where
  length_eq : (Block.cleanLines p).length = (Block.cleanLines q).length
  numerals_length_eq : m.length = n.length
  cleanLines_eq_iff : Block.cleanLines p = Block.cleanLines q ↔ m = n

/-- Code that does not depend on numbers is alike. -/
theorem Alike.refl (p m : List String) : Alike p p m m :=
  ⟨rfl, rfl, ⟨fun _ => rfl, fun _ => rfl⟩⟩

/-- Code that is alike part by part is alike as a whole. -/
theorem Alike.append {p q m n p' q' m' n' : List String} (h : Alike p q m n)
    (h' : Alike p' q' m' n') : Alike (p ++ p') (q ++ q') (m ++ m') (n ++ n') := by
  refine ⟨?_, ?_, ?_⟩
  · simp [h.length_eq, h'.length_eq]
  · simp [h.numerals_length_eq, h'.numerals_length_eq]
  · rw [Block.cleanLines_append, Block.cleanLines_append]
    -- As the first pieces have as many lines, equal lines are cut at the same place.
    constructor
    · intro hlines
      obtain ⟨hfront, hrest⟩ := List.append_inj hlines h.length_eq
      rw [h.cleanLines_eq_iff.mp hfront, h'.cleanLines_eq_iff.mp hrest]
    · intro hnumerals
      obtain ⟨hfront, hrest⟩ := List.append_inj hnumerals h.numerals_length_eq
      rw [h.cleanLines_eq_iff.mpr hfront, h'.cleanLines_eq_iff.mpr hrest]

/-- A place for a numeral that a comma or a bracket ends. -/
theorem Alike.numeral {start v w : String} {m n : List String} {c : Char}
    (hc : c = ',' ∨ c = ')') (hv : (String.singleton c).toList <+: v.toList)
    (hw : (String.singleton c).toList <+: w.toList) (a b : Option Number) (h : Alike [v] [w] m n) :
    Alike [start ++ (Code.numeral a ++ v)] [start ++ (Code.numeral b ++ w)] (Code.numeral a :: m)
      (Code.numeral b :: n) := by
  have hvisible : isBlank c = false := by rcases hc with rfl | rfl <;> decide
  have hbreak (number : Option Number) : '\n' ∉ (Code.numeral number).toList :=
    notMem_numeral (by decide) (by decide) number
  have hend (number : Option Number) : c ∉ (Code.numeral number).toList := by
    rcases hc with rfl | rfl
    · exact notMem_numeral (by decide) (by decide) number
    · exact notMem_numeral (by decide) (by decide) number
  obtain ⟨front, last, hplace⟩ := exists_cleanLines_numeral start
  obtain ⟨first, others, hfirst, ⟨ds, hds⟩, hleft⟩ := hplace (hbreak a) hv hvisible
  obtain ⟨second, more, hsecond, ⟨es, hes⟩, hright⟩ := hplace (hbreak b) hw hvisible
  have hlength := h.length_eq
  have hiff := h.cleanLines_eq_iff
  rw [hfirst, hsecond] at hlength hiff
  -- The numeral ends at the first `c`, so a line with it tells the numeral and what follows it.
  refine ⟨?_, by simp [h.numerals_length_eq], ?_⟩
  · rw [hleft, hright]
    simpa using hlength
  · have hplaces : Code.numeral a ++ first = Code.numeral b ++ second ↔
        Code.numeral a = Code.numeral b ∧ first = second := by
      rw [← String.toList_inj, String.toList_append, String.toList_append, hds, hes,
        append_cons_inj_of_notMem (hend a) (hend b), String.toList_inj]
      constructor
      · rintro ⟨hnumeral, hrest⟩
        exact ⟨hnumeral, String.toList_inj.mp (by rw [hds, hes, hrest])⟩
      · rintro ⟨hnumeral, hrest⟩
        rw [hrest, hes] at hds
        exact ⟨hnumeral, (List.cons.inj hds).2.symm⟩
    rw [hleft, hright, List.append_cancel_left_eq, List.cons.injEq, List.cons.injEq, ← hiff,
      List.cons.injEq, String.append_right_inj, hplaces, and_assoc]

/-- The code of two instructions or blocks: the same error, or pieces that are alike. -/
inductive AlikeCode : Except RenderError (List String) → Except RenderError (List String) →
    List (Option Number) → List (Option Number) → Prop where
  | error {error : RenderError} {m n : List (Option Number)} :
      AlikeCode (.error error) (.error error) m n
  | ok {p q : List String} {m n : List (Option Number)} :
      Alike p q (m.map numeral) (n.map numeral) →
      AlikeCode (.ok p) (.ok q) m n

/-- Code that does not depend on numbers is alike, and so is a failure. -/
theorem AlikeCode.refl (code : Except RenderError (List String)) (m : List (Option Number)) :
    AlikeCode code code m m := by
  cases code with
  | error error => exact .error
  | ok pieces => exact .ok (Alike.refl pieces _)

/-- Statements under the same condition are alike if the statement is. -/
theorem alike_presence {condition statement other : String} {m n : List String}
    (h : Alike [statement] [other] m n) :
    Alike [condition, "\x7b", statement, "\x7d"] [condition, "\x7b", other, "\x7d"] m n := by
  have hstatements := (Alike.refl [condition, "\x7b"] []).append (h.append (Alike.refl ["\x7d"] []))
  rwa [List.append_nil, List.append_nil] at hstatements

/-- Statements that encode a tagged value are alike if what follows the tag is. -/
theorem alike_taggedStatement {frame otherFrame value action : String} {m n : List String}
    (tag otherTag : Option Number)
    (h : Alike [", " ++ (frame ++ (value ++ ", " ++ action ++ ");"))]
      [", " ++ (otherFrame ++ (value ++ ", " ++ action ++ ");"))] m n) :
    Alike [s!"    encoder.EncodeTagged({numeral tag}, {frame}{value}, {action});"]
      [s!"    encoder.EncodeTagged({numeral otherTag}, {otherFrame}{value}, {action});"]
      (numeral tag :: m) (numeral otherTag :: n) := by
  have htext (shown framing : String) :
      s!"    encoder.EncodeTagged({shown}, {framing}{value}, {action});" =
        "    encoder.EncodeTagged(" ++
          (shown ++ (", " ++ (framing ++ (value ++ ", " ++ action ++ ");")))) := by
    change "    encoder.EncodeTagged(" ++ shown ++ ", " ++ framing ++ value ++ ", " ++ action ++
      ");" = _
    simp only [String.append_assoc]
  rw [htext, htext]
  exact Alike.numeral (.inl rfl) (isPrefix_append (by decide) _) (isPrefix_append (by decide) _) tag
    otherTag h

/-- Frames with a size are alike. -/
theorem alike_sizeFrame (size other : Number) (rest : String) :
    Alike [", " ++ (s!"size: {size.text}, " ++ rest)] [", " ++ (s!"size: {other.text}, " ++ rest)]
      [numeral (some size)] [numeral (some other)] := by
  have htext (shown : Number) : ", " ++ (s!"size: {shown.text}, " ++ rest) =
      ", size: " ++ (numeral (some shown) ++ (", " ++ rest)) := by
    change ", " ++ ("size: " ++ shown.text ++ ", " ++ rest) =
      ", " ++ "size: " ++ (shown.text ++ (", " ++ rest))
    simp only [String.append_assoc]
  rw [htext, htext]
  exact Alike.numeral (.inl rfl) (isPrefix_append (by decide) _) (isPrefix_append (by decide) _)
    (some size) (some other) (Alike.refl _ [])

/-- Code that is alike is the same error, or pieces that are alike. -/
theorem AlikeCode.cases {x y : Except RenderError (List String)} {m n : List (Option Number)}
    (h : AlikeCode x y m n) :
    (∃ error, x = .error error ∧ y = .error error) ∨
      ∃ p q, x = .ok p ∧ y = .ok q ∧ Alike p q (m.map numeral) (n.map numeral) := by
  cases h with
  | error => exact .inl ⟨_, rfl, rfl⟩
  | ok h => exact .inr ⟨_, _, rfl, rfl, h⟩

section Fields

variable {field other : Field} (hname : field.name = other.name)
include hname

/-- A member is named after its field alone. -/
theorem member_eq : member field = member other := by
  rw [member, member, hname]

variable (htype : field.type = other.type)
include htype

/-- Fields that agree up to numbers have the same value of their members. -/
theorem unwrapped_eq : unwrapped field = unwrapped other := by
  rw [unwrapped, unwrapped, member_eq hname, htype]

/-- Fields without tags have the same code if they have the same name and type. -/
theorem untaggedPieces_eq (direction : Direction) (form : FieldForm) :
    untaggedPieces namespaceName direction form field =
      untaggedPieces namespaceName direction form other := by
  cases direction <;> cases form <;>
    simp only [untaggedPieces, encodeNullable, decodeNullable, member_eq hname,
      unwrapped_eq hname htype, htype]

/-- The statements that encode tagged fields of one name and type are alike. -/
theorem alikeCode_encodeTagged (encoding : Encoding) (format : Option TagFormat)
    {size otherSize : Option Number} (hsize : size.isSome = otherSize.isSome) :
    AlikeCode (encodeTagged namespaceName field encoding format size)
      (encodeTagged namespaceName other encoding format otherSize)
      (Instruction.tagged .encode field encoding format size).numbers
      (Instruction.tagged .encode other encoding format otherSize).numbers := by
  unfold encodeTagged
  rw [htype, member_eq hname, unwrapped_eq hname htype]
  cases encodeAction namespaceName other.type.asRequired with
  | error error => exact .error
  | ok action =>
    cases encoding with
    | slice1 =>
      cases format with
      | none => exact .error
      | some format =>
        exact .ok (alike_presence (alike_taggedStatement field.tag other.tag (Alike.refl _ [])))
    | slice2 =>
      cases size with
      | none =>
        cases otherSize with
        | some _ => cases hsize
        | none =>
          exact .ok (alike_presence (alike_taggedStatement field.tag other.tag (Alike.refl _ [])))
      | some size =>
        cases otherSize with
        | none => cases hsize
        | some otherSize =>
          exact .ok (alike_presence
            (alike_taggedStatement field.tag other.tag (alike_sizeFrame size otherSize _)))

/-- The statements that decode tagged fields of one name and type are alike. -/
theorem alikeCode_decodeTagged (encoding : Encoding) (format : Option TagFormat)
    (size otherSize : Option Number) :
    AlikeCode (List.singleton <$> decodeTagged namespaceName field encoding format)
      (List.singleton <$> decodeTagged namespaceName other encoding format)
      (Instruction.tagged .decode field encoding format size).numbers
      (Instruction.tagged .decode other encoding format otherSize).numbers := by
  have halike (rest : String) :
      Alike [member other ++ " = decoder.DecodeTagged(" ++ (numeral field.tag ++ (", " ++ rest))]
        [member other ++ " = decoder.DecodeTagged(" ++ (numeral other.tag ++ (", " ++ rest))]
        [numeral field.tag] [numeral other.tag] :=
    Alike.numeral (.inl rfl) (isPrefix_append (by decide) _) (isPrefix_append (by decide) _)
      field.tag other.tag (Alike.refl _ [])
  unfold decodeTagged
  rw [htype, member_eq hname]
  cases decodeFunction namespaceName other.type with
  | error error => exact .error
  | ok function =>
    cases encoding with
    | slice1 =>
      cases format with
      | none => exact .error
      | some format =>
        have htext (tag : String) :
            s!"{member other} = decoder.DecodeTagged({tag}, TagFormat.{format.name}, " ++
              s!"{function}, useTagEndMarker: false);" =
              member other ++ " = decoder.DecodeTagged(" ++ (tag ++ (", " ++ ("TagFormat." ++
                (format.name ++ (", " ++ (function ++ ", useTagEndMarker: false);")))))) := by
          have hliteral : ", TagFormat." = ", " ++ "TagFormat." := rfl
          change member other ++ " = decoder.DecodeTagged(" ++ tag ++ ", TagFormat." ++
            format.name ++ ", " ++ (function ++ ", useTagEndMarker: false);") = _
          simp only [hliteral, String.append_assoc]
        refine .ok ?_
        change Alike [_] [_] _ _
        rw [htext, htext]
        exact halike _
    | slice2 =>
      have htext (tag : String) : s!"{member other} = decoder.DecodeTagged({tag}, {function}, " ++
          "useTagEndMarker: true);" = member other ++ " = decoder.DecodeTagged(" ++
            (tag ++ (", " ++ (function ++ (", " ++ "useTagEndMarker: true);")))) := by
        change member other ++ " = decoder.DecodeTagged(" ++ tag ++ ", " ++ function ++ ", " ++
          "useTagEndMarker: true);" = _
        simp only [String.append_assoc]
      refine .ok ?_
      change Alike [_] [_] _ _
      rw [htext, htext]
      exact halike _

end Fields

/-- Openings of the presence bits are alike. -/
theorem alikeCode_bitSequence (direction : Direction) (size other : Number) :
    AlikeCode (instructionPieces namespaceName (.bitSequence direction size))
      (instructionPieces namespaceName (.bitSequence direction other)) [some size]
      [some other] := by
  have halike (start : String) :
      Alike [start ++ size.text ++ ");"] [start ++ other.text ++ ");"] [numeral (some size)]
        [numeral (some other)] := by
    rw [String.append_assoc, String.append_assoc]
    exact Alike.numeral (.inr rfl) (by decide) (by decide) (some size) (some other)
      (Alike.refl _ [])
  cases direction with
  | encode => exact .ok (halike _)
  | decode => exact .ok (halike _)

/-- The lines of a normal text tell the text. -/
theorem lines_unlines_inj {ls ms : List String} (hls : IsNormal ls) (hms : IsNormal ms) :
    lines (unlines ls) = lines (unlines ms) ↔ ls = ms := by
  constructor
  · intro h
    have htext : unlines ls = unlines ms := by rw [← unlines_lines (unlines ls), h, unlines_lines]
    rw [← Block.normalLines_unlines hls, htext, Block.normalLines_unlines hms]
  · rintro rfl
    rfl

/-- Normal lines have a text of as many lines, or of one if there is none. -/
theorem length_lines_unlines {ls : List String} (h : IsNormal ls) :
    (lines (unlines ls)).length = max 1 ls.length := by
  by_cases hne : ls = []
  · subst hne
    rw [unlines_nil, lines_empty]
    rfl
  · have hpositive := List.length_pos_of_ne_nil hne
    rw [lines_unlines hne h.noBreak]
    omega

/-- Arms of different lines are different. -/
theorem armLines_inj {a b : List String} (ha : ∀ line ∈ a, IsTrimmed line)
    (hb : ∀ line ∈ b, IsTrimmed line) : armLines a = armLines b ↔ a = b := by
  constructor
  · intro h
    have harms := congrArg (fun ls => (splitArm (ls ++ [])).1) h
    simp only [splitArm_armLines] at harms
    rw [← map_outdentLine_indentLine ha, harms, map_outdentLine_indentLine hb]
  · rintro rfl
    rfl

/-- Arms behind one condition are alike if their blocks are. -/
theorem Alike.arm {condition : String} (hcondition : isOpeningText condition = true)
    {p q m n : List String} (hp : IsNormal (Block.cleanLines p))
    (hq : IsNormal (Block.cleanLines q)) (h : Alike p q m n) :
    Alike [condition, "\x7b", (Block.ofLines p).indent.text, "\x7d"]
      [condition, "\x7b", (Block.ofLines q).indent.text, "\x7d"] m n := by
  refine ⟨?_, h.numerals_length_eq, ?_⟩
  · have hlength := h.length_eq
    rw [cleanLines_arm hcondition, cleanLines_arm hcondition, Block.text_ofLines hp,
      Block.text_ofLines hq]
    simp [armLines, length_lines_unlines hp, length_lines_unlines hq, hlength]
  · rw [cleanLines_arm hcondition, cleanLines_arm hcondition, List.cons.injEq,
      armLines_inj (fun _ => Block.isTrimmed_of_mem_lines) (fun _ => Block.isTrimmed_of_mem_lines),
      Block.text_ofLines hp, Block.text_ofLines hq, lines_unlines_inj hp hq, h.cleanLines_eq_iff]
    exact and_iff_right rfl

open Instruction

/-- Guards of blocks that are alike are alike. -/
theorem alikeCode_guarded (direction : Direction) {block other : SliceRecords.Block}
    (h : AlikeCode (blockPieces namespaceName block) (blockPieces namespaceName other)
      (blockNumbers block) (blockNumbers other)) :
    AlikeCode (instructionPieces namespaceName (.guarded direction block))
      (instructionPieces namespaceName (.guarded direction other)) (blockNumbers block)
      (blockNumbers other) := by
  rw [instructionPieces, instructionPieces]
  rcases h.cases with ⟨error, hx, hy⟩ | ⟨p, q, hp, hq, halike⟩
  · rw [hx, hy]
    exact .error
  · rw [hp, hq]
    exact .ok (halike.arm (isOpeningText_guardLine direction) (isNormal_of_blockPieces hp).1
      (isNormal_of_blockPieces hq).1)

/-- Branches on blocks that are alike are alike. -/
theorem alikeCode_branch (direction : Direction) {slice1 slice2 other1 other2 : SliceRecords.Block}
    (h₁ : AlikeCode (blockPieces namespaceName slice1) (blockPieces namespaceName other1)
      (blockNumbers slice1) (blockNumbers other1))
    (h₂ : AlikeCode (blockPieces namespaceName slice2) (blockPieces namespaceName other2)
      (blockNumbers slice2) (blockNumbers other2)) :
    AlikeCode (instructionPieces namespaceName (.branch direction slice1 slice2))
      (instructionPieces namespaceName (.branch direction other1 other2))
      (blockNumbers slice1 ++ blockNumbers slice2)
      (blockNumbers other1 ++ blockNumbers other2) := by
  rw [instructionPieces, instructionPieces]
  rcases h₁.cases with ⟨error, hx, hy⟩ | ⟨p, q, hp, hq, holder⟩
  · rw [hx, hy]
    exact .error
  rcases h₂.cases with ⟨error, hx, hy⟩ | ⟨p', q', hp', hq', hnewer⟩
  · rw [hp, hq, hx, hy]
    exact .error
  · rw [hp, hq, hp', hq']
    refine .ok ?_
    rw [List.map_append, List.map_append]
    have holderArm := holder.arm (isOpeningText_branchLine direction) (isNormal_of_blockPieces hp).1
      (isNormal_of_blockPieces hq).1
    have helse : isOpeningText "else // Slice2" = true := by decide +kernel
    have hnewerArm :=
      hnewer.arm helse (isNormal_of_blockPieces hp').1 (isNormal_of_blockPieces hq').1
    exact holderArm.append hnewerArm

/-- Blocks whose instructions are alike are alike. -/
theorem alikeCode_blockPieces_of_forall {as bs : SliceRecords.Block}
    (h : ∀ a ∈ as, ∀ b, a.same b = true → AlikeCode (instructionPieces namespaceName a)
      (instructionPieces namespaceName b) a.numbers b.numbers) (hsame : sameBlock as bs = true) :
    AlikeCode (blockPieces namespaceName as) (blockPieces namespaceName bs) (blockNumbers as)
      (blockNumbers bs) := by
  rw [sameBlock_iff_forall₂] at hsame
  induction hsame with
  | nil => exact AlikeCode.refl _ _
  | @cons a b as bs hhead _ ih =>
    rw [blockPieces, blockPieces, blockNumbers, blockNumbers]
    rcases (h a List.mem_cons_self b hhead).cases with ⟨error, hx, hy⟩ | ⟨p, q, hp, hq, hfirst⟩
    · rw [hx, hy]
      exact .error
    rcases (ih fun c hc => h c (List.mem_cons_of_mem a hc)).cases with
      ⟨error, hx, hy⟩ | ⟨p', q', hp', hq', hrest⟩
    · rw [hp, hq, hx, hy]
      exact .error
    · rw [hp, hq, hp', hq']
      refine .ok ?_
      rw [List.map_append, List.map_append]
      exact hfirst.append hrest

/-- Equal instructions have code that is alike. -/
theorem alikeCode_instructionPieces {a b : Instruction} (h : a.same b = true) :
    AlikeCode (instructionPieces namespaceName a) (instructionPieces namespaceName b) a.numbers
      b.numbers := by
  induction a generalizing b with
  | untagged direction form field =>
    cases b with
    | untagged direction' form' other =>
      simp only [same, sameField, Bool.and_eq_true, beq_iff_eq] at h
      obtain ⟨⟨rfl, rfl⟩, ⟨hname, htype⟩, _⟩ := h
      rw [instructionPieces, instructionPieces, untaggedPieces_eq hname htype]
      exact AlikeCode.refl _ _
    | _ => simp [same] at h
  | tagged direction field encoding format size =>
    cases b with
    | tagged direction' other encoding' format' size' =>
      simp only [same, sameField, Bool.and_eq_true, beq_iff_eq] at h
      obtain ⟨⟨⟨⟨rfl, ⟨hname, htype⟩, _⟩, rfl⟩, rfl⟩, hsize⟩ := h
      cases direction with
      | encode =>
        rw [instructionPieces, instructionPieces]
        exact alikeCode_encodeTagged hname htype encoding format (isSome_eq_of_sameNumber hsize)
      | decode => exact alikeCode_decodeTagged hname htype encoding format size size'
    | _ => simp [same] at h
  | bitSequence direction size =>
    cases b with
    | bitSequence direction' other =>
      simp only [same, Bool.and_eq_true, beq_iff_eq] at h
      obtain ⟨rfl, _⟩ := h
      exact alikeCode_bitSequence direction size other
    | _ => simp [same] at h
  | guarded direction block ih =>
    cases b with
    | guarded direction' other =>
      simp only [same, Bool.and_eq_true, beq_iff_eq] at h
      obtain ⟨rfl, hblock⟩ := h
      exact alikeCode_guarded direction
        (alikeCode_blockPieces_of_forall (fun i hi b => ih i hi) hblock)
    | _ => simp [same] at h
  | branch direction slice1 slice2 ih₁ ih₂ =>
    cases b with
    | branch direction' other1 other2 =>
      simp only [same, Bool.and_eq_true, beq_iff_eq] at h
      obtain ⟨⟨rfl, hslice1⟩, hslice2⟩ := h
      exact alikeCode_branch direction
        (alikeCode_blockPieces_of_forall (fun i hi b => ih₁ i hi) hslice1)
        (alikeCode_blockPieces_of_forall (fun i hi b => ih₂ i hi) hslice2)
    | _ => simp [same] at h
  | _ => cases b <;> first | exact AlikeCode.refl _ _ | simp [same] at h

/-- Equal blocks have no code for the same reason, or code whose texts are the same exactly
if their numerals are. -/
theorem text_eq_iff {a b : SliceRecords.Block} (h : a.same b = true) (namespaceName : String) :
    (∃ error, renderBlock namespaceName a = .error error ∧
       renderBlock namespaceName b = .error error) ∨
    ∃ x y, renderBlock namespaceName a = .ok x ∧ renderBlock namespaceName b = .ok y ∧
      (x.text = y.text ↔ (blockNumbers a).map numeral = (blockNumbers b).map numeral) := by
  have halike : AlikeCode (blockPieces namespaceName a) (blockPieces namespaceName b)
      (blockNumbers a) (blockNumbers b) :=
    alikeCode_blockPieces_of_forall (fun _ _ _ => alikeCode_instructionPieces) h
  unfold renderBlock
  rcases halike.cases with ⟨error, hx, hy⟩ | ⟨p, q, hp, hq, hpieces⟩
  · rw [hx, hy]
    exact .inl ⟨error, rfl, rfl⟩
  · have hpNormal := (isNormal_of_blockPieces hp).1
    have hqNormal := (isNormal_of_blockPieces hq).1
    rw [hp, hq]
    refine .inr ⟨_, _, rfl, rfl, ?_⟩
    rw [Block.text_ofLines hpNormal, Block.text_ofLines hqNormal, ← hpieces.cleanLines_eq_iff]
    constructor
    · intro htext
      rw [← Block.normalLines_unlines hpNormal, htext, Block.normalLines_unlines hqNormal]
    · intro hlines
      rw [hlines]

/-- Equal blocks show equal numbers. In every namespace they have no code for the same reason, or
code whose texts are the same exactly if the numbers have the same numerals, as they have if all
of them are integers. -/
theorem text_eq_iff_of_same {a b : SliceRecords.Block} (h : a.same b = true)
    (namespaceName : String) :
    List.Forall₂ (fun m n => sameNumber m n = true) (blockNumbers a) (blockNumbers b) ∧
    ((∃ error,
        renderBlock namespaceName a = .error error ∧ renderBlock namespaceName b = .error error) ∨
     ∃ x y, renderBlock namespaceName a = .ok x ∧ renderBlock namespaceName b = .ok y ∧
       (x.text = y.text ↔ (blockNumbers a).map numeral = (blockNumbers b).map numeral)) ∧
    ((∀ number ∈ blockNumbers a ++ blockNumbers b,
        ∃ value : Option Int, number = value.map .integer) →
     Block.text <$> renderBlock namespaceName a = Block.text <$> renderBlock namespaceName b) := by
  have hnumbers := forall₂_blockNumbers h
  refine ⟨hnumbers, text_eq_iff h namespaceName, ?_⟩
  intro hintegers
  rw [List.forall_mem_append] at hintegers
  have hsame := eq_of_forall₂_sameNumber hnumbers hintegers.1 hintegers.2
  rcases text_eq_iff h namespaceName with ⟨error, hx, hy⟩ | ⟨x, y, hx, hy, htext⟩
  · rw [hx, hy]
  · rw [hx, hy]
    exact congrArg Except.ok (htext.mpr (by rw [hsame]))

/-- The instruction that writes a tagged field of four bytes under the newer encoding. -/
def taggedWrite (field : Field) : Instruction :=
  .tagged .encode field .slice2 none (some (.integer 4))

/-- Writing a tagged field of a well-formed type can be rendered. -/
theorem exists_render_taggedWrite {field : Field} (h : field.type.WellFormed) :
    ∃ code, renderBlock namespaceName [taggedWrite field] = .ok code := by
  apply exists_renderBlock
  intro instruction hmem
  rw [List.mem_singleton.mp hmem]
  exact .tagged h (by simp)

/-- Writing a field in a guard has the text of writing the field with
documentation and a default value. -/
theorem text_eq_iff_of_same_guarded :
    ∃ (field documented : Field), documented.doc = some "A note." ∧
      SliceRecords.Block.same [.guarded .encode [taggedWrite field]]
        [.guarded .encode [taggedWrite documented]] = true ∧
      ∃ x y, renderBlock "Demo" [.guarded .encode [taggedWrite field]] = .ok x ∧
        renderBlock "Demo" [.guarded .encode [taggedWrite documented]] = .ok y ∧
        x.text = y.text := by
  let field : Field :=
    { name := "note"
      type := { kind := .primitive, name := some "int32", optional := true }
      tag := some (.integer 7) }
  let documented : Field :=
    { field with doc := some "A note.", defaultValue := some (.number (.integer 0)) }
  have hsame : SliceRecords.Block.same [.guarded .encode [taggedWrite field]]
      [.guarded .encode [taggedWrite documented]] = true := by decide +kernel
  have hwell : field.type.WellFormed := .primitive .int32 true none none none
  refine ⟨field, documented, rfl, hsame, ?_⟩
  obtain ⟨_, hcode, _⟩ := text_eq_iff_of_same hsame "Demo"
  rcases hcode with ⟨error, herror, _⟩ | ⟨x, y, hx, hy, htext⟩
  · obtain ⟨code, hcode⟩ := exists_renderBlock_guarded_iff.mpr (exists_render_taggedWrite hwell)
    rw [hcode] at herror
    cases herror
  · exact ⟨x, y, hx, hy, htext.mpr rfl⟩

/-- A document of two structs whose fields differ in the notation of their tags. -/
def taggedDocument : Json :=
  let field (tag : Number) : Json :=
    .object [("name", .string "size"), ("type",
      .object [("kind", .string "primitive"), ("name", .string "int32"), ("optional", .bool true)]),
      ("tag", .number tag)]
  let struct (name : String) (tag : Number) : Json :=
    .object [("name", .string name), ("fields", .array [field tag]),
      ("encodings", .array [.string "Slice1", .string "Slice2"])]
  .object [("modules", .array [.object [("name", .string "Demo"), ("structs",
    .array [struct "Plain" (.integer 1), struct "Pointed" (.double (.ofDecimal false 10 (-1)))])]])]

/-- The document loads, and its fields have the tags that it gives. -/
theorem exists_fields_of_taggedDocument : ∃ (model : Model) (plain pointed : Field),
    Document.load none none taggedDocument = .ok model ∧
      model.structs.flatMap (fun entry => entry.2.fields) = [plain, pointed] ∧
      plain.name = pointed.name ∧ plain.type = pointed.type ∧ pointed.type.WellFormed ∧
      plain.tag = some (.integer 1) ∧ pointed.tag = some (.double (.ofDecimal false 10 (-1))) := by
  let shown (field : Field) : String × TypeRef × Option Number :=
    (field.name, field.type, field.tag)
  let type : TypeRef := { kind := .primitive, name := some "int32", optional := true }
  have hshown : (Document.load none none taggedDocument).toOption.map
      (fun model => (model.structs.flatMap fun entry => entry.2.fields).map shown) =
        some [("size", type, some (.integer 1)),
          ("size", type, some (.double (.ofDecimal false 10 (-1))))] := by decide +kernel
  obtain ⟨model, hload, hfields⟩ := Result.exists_of_toOption_map hshown
  obtain ⟨plain, rest, hrest, hplain, hrestShown⟩ := List.map_eq_cons_iff.mp hfields
  obtain ⟨pointed, _, rfl, hpointed, hend⟩ := List.map_eq_cons_iff.mp hrestShown
  rw [List.map_eq_nil_iff.mp hend] at hrest
  simp only [shown, Prod.mk.injEq] at hplain hpointed
  refine ⟨model, plain, pointed, hload, hrest, hplain.1.trans hpointed.1.symm,
    hplain.2.1.trans hpointed.2.1.symm, ?_, hplain.2.2, hpointed.2.2⟩
  rw [hpointed.2.1]
  exact .primitive .int32 true none none none

/-- Equal blocks of instructions for the fields of a document can have different texts: the tags
`1` and `1.0` are equal. -/
theorem not_text_eq_of_same :
    ∃ (model : Model) (plain pointed : Field),
      Document.load none none taggedDocument = .ok model ∧
      model.structs.flatMap (fun entry => entry.2.fields) = [plain, pointed] ∧
      SliceRecords.Block.same [taggedWrite plain] [taggedWrite pointed] = true ∧
      ∃ x y, renderBlock "Demo" [taggedWrite plain] = .ok x ∧
        renderBlock "Demo" [taggedWrite pointed] = .ok y ∧ x.text ≠ y.text := by
  obtain ⟨model, plain, pointed, hload, hfields, hname, htype, hwell, hplain, hpointed⟩ :=
    exists_fields_of_taggedDocument
  have htags : sameNumber plain.tag pointed.tag = true := by
    rw [hplain, hpointed]
    decide +kernel
  have hsame : SliceRecords.Block.same [taggedWrite plain] [taggedWrite pointed] = true := by
    simp [SliceRecords.Block.same, sameBlock, taggedWrite, same, sameField, hname, htype, htags]
  refine ⟨model, plain, pointed, hload, hfields, hsame, ?_⟩
  rcases text_eq_iff hsame "Demo" with ⟨error, _, herror⟩ | ⟨x, y, hx, hy, htext⟩
  · obtain ⟨code, hcode⟩ : ∃ code, renderBlock "Demo" [taggedWrite pointed] = .ok code :=
      exists_render_taggedWrite hwell
    rw [hcode] at herror
    cases herror
  · refine ⟨x, y, hx, hy, ?_⟩
    rw [ne_eq, htext]
    change ¬[numeral plain.tag, numeral (some (.integer 4))] =
      [numeral pointed.tag, numeral (some (.integer 4))]
    rw [hplain, hpointed]
    decide +kernel

end Code

end SliceRecords
