import Mathlib.Data.List.Infix
import SliceRecords.Proofs.Text.Letters
import SliceRecords.Proofs.Text.Lines

/-!
# Calls in a text

Generated code codes a value by a call such as `encoder.EncodeBool(…)`. The calls in a text after
`encoder.Encode` are the words that follow this directly, from left to right. A text is read in
pieces: a character that can stand neither in a word nor in `encoder.Encode` parts the calls on its
two sides, and so does a dot unless the receiver ends in front of it. Main statements:
`calls_append_cons`, `calls_append_dot` and `calls_unlines`.
-/

namespace SliceRecords.Text

/-- A character of a word: a letter, a digit or an underscore, of seven bits. -/
def isWordChar (c : Char) : Bool :=
  c.isAlphanum || c == '_'

/-- The word at the start of a text, if there is one. -/
def firstWord (text : List Char) : List (List Char) :=
  if text.takeWhile isWordChar = [] then [] else [text.takeWhile isWordChar]

/-- The word that follows `before` at the start of a text, if there is one. -/
def callAt (before text : List Char) : List (List Char) :=
  if before.isPrefixOf text then firstWord (text.drop before.length) else []

/-- The words that follow directly after `before` in a text, from left to right. -/
def calls (before : List Char) : List Char → List (List Char)
  | [] => []
  | c :: rest => callAt before (c :: rest) ++ calls before rest

/-- A character that stands in no word and is no dot. -/
def isBreak (c : Char) : Bool :=
  !isWordChar c && c != '.'

/-- A text of word characters is its own first word. -/
theorem firstWord_eq_singleton {word : List Char} (hword : word ≠ [])
    (h : ∀ c ∈ word, isWordChar c = true) : firstWord word = [word] := by
  have htake : word.takeWhile isWordChar = word := List.takeWhile_eq_self_iff.mpr h
  rw [firstWord, htake, if_neg hword]

/-- A character that stands in no word ends a word. -/
theorem firstWord_append_cons {c : Char} (hc : isWordChar c = false) (a b : List Char) :
    firstWord (a ++ c :: b) = firstWord a := by
  have htake : (a ++ c :: b).takeWhile isWordChar = a.takeWhile isWordChar := by
    induction a with
    | nil => simp [hc]
    | cons d a ih => simp only [List.cons_append, List.takeWhile_cons, ih]
  rw [firstWord, firstWord, htake]

/-- A character that does not stand in `before` parts a text for prefixes. -/
theorem prefix_append_cons_iff {before : List Char} {c : Char} (hc : c ∉ before) (a b : List Char) :
    before <+: a ++ c :: b ↔ before <+: a := by
  constructor
  · rintro ⟨rest, hrest⟩
    rcases List.append_eq_append_iff.mp hrest with ⟨more, rfl, _⟩ | ⟨more, rfl, hmore⟩
    · exact List.prefix_append before more
    · cases more with
      | nil => simp
      | cons d more =>
        rw [List.cons_append, List.cons.injEq] at hmore
        obtain ⟨rfl, _⟩ := hmore
        simp at hc
  · exact fun h => h.trans (List.prefix_append a (c :: b))

/-- A character that does not stand in `part` parts a text for suffixes. -/
theorem suffix_append_cons_iff {part : List Char} {c : Char} (hc : c ∉ part) (a b : List Char) :
    part <:+ a ++ c :: b ↔ part <:+ b := by
  rw [← List.reverse_prefix, ← List.reverse_prefix, List.reverse_append, List.reverse_cons,
    List.append_assoc, List.singleton_append]
  exact prefix_append_cons_iff (by simpa using hc) b.reverse a.reverse

/-- At its start a text makes the call of the word that follows. -/
theorem callAt_of_starts {before text : List Char} (h : before <+: text) :
    callAt before text = firstWord (text.drop before.length) :=
  if_pos (List.isPrefixOf_iff_prefix.mpr h)

/-- A text that begins otherwise makes no call there. -/
theorem callAt_of_not_starts {before text : List Char} (h : ¬before <+: text) :
    callAt before text = [] :=
  if_neg (mt List.isPrefixOf_iff_prefix.mp h)

/-- A character that stands neither in a word nor in what is called ends the call in front of it. -/
theorem callAt_append_cons {before : List Char} {c : Char} (hc : c ∉ before)
    (hword : isWordChar c = false) (a b : List Char) :
    callAt before (a ++ c :: b) = callAt before a := by
  by_cases h : before <+: a
  · rw [callAt_of_starts ((prefix_append_cons_iff hc a b).mpr h), callAt_of_starts h,
      List.drop_append_of_le_length h.length_le, firstWord_append_cons hword]
  · rw [callAt_of_not_starts (mt (prefix_append_cons_iff hc a b).mp h), callAt_of_not_starts h]

/-- A text that lacks a part of `before` has no calls. -/
theorem calls_eq_nil_of_lacks {before part text : List Char} (hpart : part <:+: before)
    (h : ¬part <:+: text) : calls before text = [] := by
  induction text with
  | nil => rfl
  | cons c rest ih =>
    have hnone : ¬before <+: c :: rest := fun hprefix => h (hpart.trans hprefix.isInfix)
    have hrest : ¬part <:+: rest :=
      fun hwithin => h (hwithin.trans (List.suffix_cons c rest).isInfix)
    rw [calls, ih hrest, callAt_of_not_starts hnone]
    rfl

/-- A text that lacks a character of `before` has no calls. -/
theorem calls_eq_nil_of_not_mem {before text : List Char} {c : Char} (hc : c ∈ before)
    (h : c ∉ text) : calls before text = [] := by
  apply calls_eq_nil_of_lacks List.infix_rfl
  exact fun hwithin => h (hwithin.subset hc)

/-- A character that stands neither in a word nor in `before` parts the calls on its two sides. -/
theorem calls_append_cons_of_not_mem {before : List Char} {c : Char} (hc : c ∉ before)
    (hword : isWordChar c = false) (a b : List Char) :
    calls before (a ++ c :: b) = calls before a ++ calls before b := by
  induction a with
  | nil =>
    have hnone := callAt_append_cons hc hword [] b
    have hempty : callAt before [] = [] := by simp [callAt, firstWord]
    rw [List.nil_append] at hnone ⊢
    change callAt before (c :: b) ++ calls before b = calls before b
    rw [hnone, hempty, List.nil_append]
  | cons d a ih =>
    have hsame := callAt_append_cons hc hword (d :: a) b
    rw [List.cons_append] at hsame ⊢
    rw [calls, calls, hsame, ih, List.append_assoc]

section Method

variable {receiver method : List Char}

/-- A receiver, a dot and the start of a method's name. -/
def qualified (receiver method : List Char) : List Char :=
  receiver ++ '.' :: method

/-- Where the calls after a receiver and a part of a method's name are read piece by
piece, both are words. -/
structure IsQualified (receiver method : List Char) : Prop where
  receiver_word : ∀ c ∈ receiver, isWordChar c = true
  method_word : ∀ c ∈ method, isWordChar c = true

/-- A receiver with a method has a dot. -/
theorem dot_mem_qualified : '.' ∈ qualified receiver method := by
  simp [qualified]

/-- The receiver itself has none. -/
theorem IsQualified.dot_notMem_receiver (h : IsQualified receiver method) : '.' ∉ receiver := by
  intro hdot
  exact absurd (h.receiver_word '.' hdot) (by decide)

/-- Nor has the start of the method's name. -/
theorem IsQualified.dot_notMem_method (h : IsQualified receiver method) : '.' ∉ method := by
  intro hdot
  exact absurd (h.method_word '.' hdot) (by decide)

/-- No break stands in a receiver with a method. -/
theorem IsQualified.notMem_of_isBreak (h : IsQualified receiver method) {c : Char}
    (hc : isBreak c = true) : c ∉ qualified receiver method := by
  simp only [isBreak, Bool.and_eq_true, Bool.not_eq_true', bne_iff_ne] at hc
  obtain ⟨hword, hdot⟩ := hc
  rw [qualified, List.mem_append, List.mem_cons]
  rintro (hmem | rfl | hmem)
  · simp [h.receiver_word c hmem] at hword
  · exact hdot rfl
  · simp [h.method_word c hmem] at hword

/-- A break parts the calls on its two sides. -/
theorem calls_append_cons (h : IsQualified receiver method) {c : Char} (hc : isBreak c = true)
    (a b : List Char) :
    calls (qualified receiver method) (a ++ c :: b) =
      calls (qualified receiver method) a ++ calls (qualified receiver method) b := by
  apply calls_append_cons_of_not_mem (h.notMem_of_isBreak hc)
  simp only [isBreak, Bool.and_eq_true, Bool.not_eq_true'] at hc
  exact hc.1

/-- In front of a dot the calls go on behind it if the receiver is all that stands in front. -/
theorem callAt_append_dot (h : IsQualified receiver method) (a b : List Char) :
    callAt (qualified receiver method) (a ++ '.' :: b) =
      callAt (qualified receiver method) a ++ if receiver = a then callAt method b else [] := by
  by_cases hinside : qualified receiver method <+: a
  · have hne : receiver ≠ a := by
      rintro rfl
      have hlength := hinside.length_le
      simp only [qualified, List.length_append, List.length_cons] at hlength
      omega
    rw [if_neg hne, callAt_of_starts (hinside.trans (List.prefix_append a _)),
      callAt_of_starts hinside, List.drop_append_of_le_length hinside.length_le,
      firstWord_append_cons (by decide), List.append_nil]
  · rw [callAt_of_not_starts hinside, List.nil_append]
    by_cases hreceiver : receiver = a
    · subst hreceiver
      rw [if_pos rfl]
      by_cases hmethod : method <+: b
      · have hprefix : qualified receiver method <+: receiver ++ '.' :: b := by
          rw [qualified, List.prefix_append_right_inj, List.cons_prefix_cons]
          exact ⟨rfl, hmethod⟩
        rw [callAt_of_starts hprefix, callAt_of_starts hmethod, qualified, List.length_append,
          List.length_cons, List.drop_length_add_append, List.drop_succ_cons]
      · have hnone : ¬qualified receiver method <+: receiver ++ '.' :: b := by
          rw [qualified, List.prefix_append_right_inj, List.cons_prefix_cons]
          exact fun hboth => hmethod hboth.2
        rw [callAt_of_not_starts hnone, callAt_of_not_starts hmethod]
    · rw [if_neg hreceiver]
      apply callAt_of_not_starts
      rintro ⟨rest, hrest⟩
      -- A prefix that ends behind the dot has its own dot there.
      rcases List.append_eq_append_iff.mp hrest with ⟨more, rfl, _⟩ | ⟨more, hmore, hdot⟩
      · exact hinside (List.prefix_append _ more)
      · cases more with
        | nil => exact hinside (by rw [hmore, List.append_nil])
        | cons c more =>
          rw [List.cons_append, List.cons.injEq] at hdot
          obtain ⟨rfl, rfl⟩ := hdot
          have hunique := (List.append_cons_inj_of_notMem h.dot_notMem_receiver
            h.dot_notMem_method).mp hmore
          exact hreceiver hunique.1

/-- A dot parts the calls on its two sides, except that the receiver may end in front of it. -/
theorem calls_append_dot (h : IsQualified receiver method) (a b : List Char) :
    calls (qualified receiver method) (a ++ '.' :: b) =
      calls (qualified receiver method) a ++ (if receiver <:+ a then callAt method b else []) ++
        calls (qualified receiver method) b := by
  induction a with
  | nil =>
    have hstart := callAt_append_dot h [] b
    have hempty : callAt (qualified receiver method) [] = [] := by simp [callAt, firstWord]
    rw [hempty, List.nil_append, List.nil_append] at hstart
    simp only [List.nil_append, calls, hstart, List.suffix_nil]
  | cons c a ih =>
    have hstart := callAt_append_dot h (c :: a) b
    rw [List.cons_append] at hstart ⊢
    rw [calls, calls, hstart, ih]
    by_cases hreceiver : receiver = c :: a
    · -- The receiver is all of the text so far, so no call stands in it.
      have hnone : calls (qualified receiver method) (c :: a) = [] :=
        calls_eq_nil_of_not_mem dot_mem_qualified (hreceiver ▸ h.dot_notMem_receiver)
      rw [calls, List.append_eq_nil_iff] at hnone
      have hshort : ¬receiver <:+ a := by
        intro hsuffix
        have hlength := hsuffix.length_le
        rw [hreceiver, List.length_cons] at hlength
        omega
      have hsuffix : receiver <:+ c :: a := by rw [hreceiver]
      rw [if_pos hreceiver, if_neg hshort, if_pos hsuffix, hnone.1, hnone.2]
      simp
    · have hiff : receiver <:+ c :: a ↔ receiver <:+ a := by
        rw [List.suffix_cons_iff, or_iff_right hreceiver]
      rw [if_neg hreceiver]
      simp only [hiff, List.append_nil, List.append_assoc]

/-- A word after the receiver and the method's name is a call. -/
theorem calls_qualified_append (h : IsQualified receiver method) {word : List Char}
    (hne : word ≠ []) (hword : ∀ c ∈ word, isWordChar c = true) :
    calls (qualified receiver method) (qualified receiver method ++ word) = [word] := by
  have hreceiver : calls (qualified receiver method) receiver = [] :=
    calls_eq_nil_of_not_mem dot_mem_qualified h.dot_notMem_receiver
  have hrest : calls (qualified receiver method) (method ++ word) = [] := by
    apply calls_eq_nil_of_not_mem dot_mem_qualified
    rw [List.mem_append, not_or]
    refine ⟨h.dot_notMem_method, fun hdot => ?_⟩
    exact absurd (hword '.' hdot) (by decide)
  have hsplit : qualified receiver method ++ word = receiver ++ '.' :: (method ++ word) := by
    rw [qualified, List.append_assoc, List.cons_append]
  rw [hsplit, calls_append_dot h, hreceiver, hrest, if_pos List.suffix_rfl,
    callAt_of_starts (List.prefix_append method word), List.drop_left,
    firstWord_eq_singleton hne hword]
  rfl

/-- A text that begins with a break. -/
def startsApart (text : List Char) : Bool :=
  text.head?.any isBreak

/-- A text that ends with a break. -/
def endsApart (text : List Char) : Bool :=
  text.getLast?.any isBreak

/-- A text that begins and ends with a break and has no calls. -/
def isGap (before text : List Char) : Bool :=
  startsApart text && endsApart text && (calls before text).isEmpty

/-- A text that starts apart makes its own calls. -/
theorem calls_append_of_startsApart (h : IsQualified receiver method) {b : List Char}
    (hb : startsApart b = true) (a : List Char) :
    calls (qualified receiver method) (a ++ b) =
      calls (qualified receiver method) a ++ calls (qualified receiver method) b := by
  cases b with
  | nil => simp [startsApart] at hb
  | cons c rest =>
    have hc : isBreak c = true := by simpa [startsApart] using hb
    have hrest := calls_append_cons h hc [] rest
    rw [List.nil_append] at hrest
    rw [calls_append_cons h hc, hrest]
    rfl

/-- So does a text behind one that ends apart. -/
theorem calls_append_of_endsApart (h : IsQualified receiver method) {a : List Char}
    (ha : endsApart a = true) (b : List Char) :
    calls (qualified receiver method) (a ++ b) =
      calls (qualified receiver method) a ++ calls (qualified receiver method) b := by
  rcases List.eq_nil_or_concat a with rfl | ⟨front, c, rfl⟩
  · simp [endsApart] at ha
  · rw [List.concat_eq_append] at ha ⊢
    have hc : isBreak c = true := by simpa [endsApart] using ha
    have hfront := calls_append_cons h hc front []
    rw [List.append_assoc, List.singleton_append, calls_append_cons h hc, hfront]
    simp [calls]

/-- How a text starts does not depend on what follows. -/
theorem startsApart_append {a : List Char} (h : startsApart a = true) (b : List Char) :
    startsApart (a ++ b) = true := by
  cases a with
  | nil => simp [startsApart] at h
  | cons c rest => exact h

/-- A gap between two texts keeps their calls apart. -/
theorem calls_append_gap_append (h : IsQualified receiver method) {gap : List Char}
    (hgap : isGap (qualified receiver method) gap = true) (a b : List Char) :
    calls (qualified receiver method) (a ++ (gap ++ b)) =
      calls (qualified receiver method) a ++ calls (qualified receiver method) b := by
  simp only [isGap, Bool.and_eq_true, List.isEmpty_iff] at hgap
  obtain ⟨⟨hstarts, hends⟩, hquiet⟩ := hgap
  rw [calls_append_of_startsApart h (startsApart_append hstarts b),
    calls_append_of_endsApart h hends, hquiet, List.nil_append]

/-- Blanks are breaks. -/
theorem isBreak_of_isBlank {c : Char} (h : isBlank c = true) : isBreak c = true := by
  have hword : isWordChar c = false := by
    by_contra hword
    rw [Bool.not_eq_false, isWordChar, Bool.or_eq_true, beq_iff_eq] at hword
    rcases hword with hword | rfl
    · obtain ⟨hge, hle⟩ := toNat_bounds_of_isAlphanum hword
      simp only [isBlank, Bool.or_eq_true, Bool.and_eq_true, decide_eq_true_eq, beq_iff_eq] at h
      omega
    · revert h
      decide
  have hdot : c ≠ '.' := by
    rintro rfl
    revert h
    decide
  simp [isBreak, hword, hdot]

/-- A text of breaks alone has no calls. -/
theorem calls_eq_nil_of_forall_isBreak (h : IsQualified receiver method) {text : List Char}
    (htext : ∀ c ∈ text, isBreak c = true) : calls (qualified receiver method) text = [] := by
  induction text with
  | nil => rfl
  | cons c rest ih =>
    have hsplit := calls_append_cons h (htext c List.mem_cons_self) [] rest
    rw [List.nil_append] at hsplit
    rw [hsplit, ih fun d hd => htext d (List.mem_cons_of_mem c hd)]
    rfl

/-- Breaks at the end of a text do not change its calls. -/
theorem calls_append_of_forall_isBreak (h : IsQualified receiver method) {b : List Char}
    (hb : ∀ c ∈ b, isBreak c = true) (a : List Char) :
    calls (qualified receiver method) (a ++ b) = calls (qualified receiver method) a := by
  cases b with
  | nil => rw [List.append_nil]
  | cons c rest =>
    have hrest := calls_eq_nil_of_forall_isBreak h fun d hd => hb d (List.mem_cons_of_mem c hd)
    rw [calls_append_cons h (hb c List.mem_cons_self), hrest, List.append_nil]

/-- Blanks at the end of a text make no calls. -/
theorem calls_trimEnd (h : IsQualified receiver method) (text : String) :
    calls (qualified receiver method) (trimEnd isBlank text).toList =
      calls (qualified receiver method) text.toList := by
  obtain ⟨dropped, hdropped, hblank⟩ := exists_dropTrailing_append isBlank text.toList
  rw [trimEnd, String.toList_ofList]
  conv_rhs => rw [← hdropped]
  exact (calls_append_of_forall_isBreak h (fun c hc => isBreak_of_isBlank (hblank c hc)) _).symm

/-- The calls of lines put together are those of the lines, one after the other. -/
theorem calls_unlines (h : IsQualified receiver method) (parts : List String) :
    calls (qualified receiver method) (unlines parts).toList =
      parts.flatMap fun part => calls (qualified receiver method) part.toList := by
  rw [toList_unlines]
  induction parts with
  | nil => rfl
  | cons part rest ih =>
    cases rest with
    | nil => simp
    | cons next rest =>
      rw [List.map_cons, List.map_cons, List.intercalate_cons_cons, List.append_assoc,
        List.singleton_append, calls_append_cons h (by decide), List.flatMap_cons, ← ih,
        List.map_cons]

end Method

end SliceRecords.Text
