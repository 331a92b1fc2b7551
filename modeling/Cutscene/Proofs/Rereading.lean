import Cutscene.Proofs.Shelf
import Cutscene.Proofs.Spelling

/-! Scripts read again. A script that is written out, one literal a line, is read as it was read
before, for a command keeps its whole line and a label marker its name, up to a comment. The one
marker that does not keep its name is a marker whose comment follows the `@` at once. -/

namespace Cutscene

namespace Text

theorem beforeComment_cons {c : Char} {s : List Char} (h : ['/', '/'].isPrefixOf (c :: s) = false) :
    beforeComment (c :: s) = c :: beforeComment s := by
  cases s with
  | nil => simp [beforeComment]
  | cons d s =>
    have hnot : ¬ (c = '/' ∧ d = '/') := by
      rintro ⟨rfl, rfl⟩
      simp at h
    rw [beforeComment]
    intro rest hc hrest
    exact hnot ⟨hc, (List.cons.inj hrest).1⟩

theorem beforeComment_of_comment {s : List Char} (h : ['/', '/'].isPrefixOf s = true) :
    beforeComment s = [] := by
  obtain ⟨rest, rfl⟩ := List.isPrefixOf_iff_prefix.mp h
  rfl

theorem beforeComment_prefix (s : List Char) : beforeComment s <+: s := by
  induction s with
  | nil => exact List.prefix_refl _
  | cons c s ih =>
    cases h : ['/', '/'].isPrefixOf (c :: s) with
    | true =>
      rw [beforeComment_of_comment h]
      exact List.nil_prefix
    | false =>
      rw [beforeComment_cons h]
      exact (List.cons_prefix_cons).mpr ⟨rfl, ih⟩

/-- A comment that starts in a text ends what stands before it, whatever follows. -/
theorem beforeComment_append_of_cut {s : List Char} (h : beforeComment s ≠ s) (t : List Char) :
    beforeComment (s ++ t) = beforeComment s := by
  induction s with
  | nil => exact absurd rfl h
  | cons c s ih =>
    cases hc : ['/', '/'].isPrefixOf (c :: s) with
    | true =>
      obtain ⟨rest, hrest⟩ := List.isPrefixOf_iff_prefix.mp hc
      rw [← hrest]
      rfl
    | false =>
      rw [beforeComment_cons hc] at h ⊢
      have hs : beforeComment s ≠ s := fun heq => h (by rw [heq])
      have hct : ['/', '/'].isPrefixOf (c :: (s ++ t)) = false := by
        cases s with
        | nil => exact absurd rfl hs
        | cons d s => simpa [List.isPrefixOf] using hc
      rw [List.cons_append, beforeComment_cons hct, ih hs]

theorem beforeComment_append_of_whole {s t : List Char} (h : beforeComment s = s)
    (ht : t.head? ≠ some '/') : beforeComment (s ++ t) = s ++ beforeComment t := by
  induction s with
  | nil => rfl
  | cons c s ih =>
    cases hc : ['/', '/'].isPrefixOf (c :: s) with
    | true =>
      rw [beforeComment_of_comment hc] at h
      cases h
    | false =>
      rw [beforeComment_cons hc] at h
      have hs : beforeComment s = s := (List.cons.inj h).2
      have hct : ['/', '/'].isPrefixOf (c :: (s ++ t)) = false := by
        cases s with
        | nil =>
          cases t with
          | nil => simp [List.isPrefixOf]
          | cons d t =>
            have hd : d ≠ '/' := fun heq => ht (by rw [heq]; rfl)
            simp [List.isPrefixOf, Ne.symm hd]
        | cons d s => simpa [List.isPrefixOf] using hc
      rw [List.cons_append, beforeComment_cons hct, ih hs, List.cons_append]

theorem beforeComment_idem (s : List Char) : beforeComment (beforeComment s) = beforeComment s := by
  induction s with
  | nil => rfl
  | cons c s ih =>
    cases h : ['/', '/'].isPrefixOf (c :: s) with
    | true =>
      rw [beforeComment_of_comment h]
      rfl
    | false =>
      rw [beforeComment_cons h]
      have hc : ['/', '/'].isPrefixOf (c :: beforeComment s) = false := by
        obtain ⟨rest, hrest⟩ := beforeComment_prefix s
        cases hs : beforeComment s with
        | nil => simp [List.isPrefixOf]
        | cons d t =>
          rw [hs] at hrest
          rw [← hrest] at h
          simpa [List.isPrefixOf] using h
      rw [beforeComment_cons hc, ih]

end Text

namespace Instruction

/-- The instruction without the number of its line. -/
def unnumbered : Instruction → Instruction
  | .marker name literal _ => .marker name literal 0
  | .call c => .call { c with line := 0 }

end Instruction

namespace Script

/-- The script written out, one instruction a line. -/
def text (s : Script) : String := "\n".intercalate s.literals

/-- A label marker whose comment follows the `@` at once. -/
def isNameless (line : List Char) : Bool := ['@', '/', '/'].isPrefixOf line && isLabel line.tail

/-- Characters of a label marker as it is written. -/
def isLiteralChar (c : Char) : Bool := c ≠ ';' && !Text.isBlank c

section Markers

variable {s name rest literal : List Char}

theorem labelLiteral_eq (line : List Char) :
    labelLiteral line = Text.beforeComment (line.takeWhile isLiteralChar) := rfl

theorem isLabelChar_iff {c : Char} :
    isLabelChar c = true ↔ c ≠ ':' ∧ isLiteralChar c = true := by
  simp [isLabelChar, isLiteralChar, and_assoc]

theorem isLiteralChar_iff {c : Char} :
    isLiteralChar c = true ↔ c ≠ ';' ∧ Text.isBlank c = false := by
  simp [isLiteralChar]

theorem hasComment_of_whole (hname : ∀ c ∈ name, isLabelChar c = true)
    (h : Text.beforeComment name = name) : hasComment name = false := by
  induction name with
  | nil => rfl
  | cons c name ih =>
    cases hc : ['/', '/'].isPrefixOf (c :: name) with
    | true =>
      rw [Text.beforeComment_of_comment hc] at h
      cases h
    | false =>
      rw [Text.beforeComment_cons hc] at h
      have hrest := ih (fun d hd => hname d (List.mem_cons_of_mem _ hd)) (List.cons.inj h).2
      have hliteral := (isLabelChar_iff.mp (hname c List.mem_cons_self)).2
      have hsemi : c ≠ ';' := (isLiteralChar_iff.mp hliteral).1
      have hstart : startsComment (c :: name) = false := by
        rw [startsComment, hc]
        simpa using hsemi
      rw [hasComment, hstart, hrest, Bool.or_self]

theorem hasComment_tail (h : hasComment name = false) : hasComment name.tail = false := by
  cases name with
  | nil => rfl
  | cons c name => exact (Bool.or_eq_false_iff.mp h).2

/-- Of a comment with nothing but blanks before it a marker keeps nothing. -/
theorem kept_of_comment (h : (Text.trimStart s).isEmpty = true ∨
    startsComment (Text.trimStart s) = true) :
    Text.beforeComment (s.takeWhile isLiteralChar) = [] := by
  cases s with
  | nil => rfl
  | cons c s =>
    by_cases hc : isLiteralChar c = true
    · have hliteral := isLiteralChar_iff.mp hc
      have hskip : Text.trimStart (c :: s) = c :: s :=
        Text.trimStart_of_first fun d hd => by rw [← Option.some.inj hd, hliteral.2]
      rw [hskip] at h
      have hcomment : ['/', '/'].isPrefixOf (c :: s) = true := by
        rcases h with hempty | hstarts
        · cases hempty
        · rw [startsComment, Bool.or_eq_true] at hstarts
          rcases hstarts with hsemi | hslashes
          · simp [hliteral.1] at hsemi
          · exact hslashes
      obtain ⟨more, hmore⟩ := List.isPrefixOf_iff_prefix.mp hcomment
      rw [← hmore]
      rfl
    · rw [List.takeWhile_cons_of_neg hc]
      rfl

/-- What a marker keeps of its line, if its name holds no comment: the name, and the colon if that
is next to it. -/
theorem kept_of_endsLabel (hname : Text.beforeComment name = name) (hend : endsLabel rest = true)
    (hstop : ∀ c, rest.head? = some c → isLabelChar c = false) :
    Text.beforeComment (name ++ rest.takeWhile isLiteralChar) = name ∨
      Text.beforeComment (name ++ rest.takeWhile isLiteralChar) = name ++ [':'] := by
  cases rest with
  | nil =>
    left
    rw [List.takeWhile_nil, List.append_nil, hname]
  | cons c rest =>
    by_cases hc : c = ':'
    · right
      subst hc
      have hcolon : isLiteralChar ':' = true := by decide
      have hskip : Text.trimStart (':' :: rest) = ':' :: rest :=
        Text.trimStart_of_first fun d hd => by rw [← Option.some.inj hd]; decide
      have hcut : Text.beforeComment (rest.takeWhile isLiteralChar) = [] := by
        apply kept_of_comment
        rw [endsLabel, hskip] at hend
        simpa [Text.dropFront] using hend
      rw [List.takeWhile_cons_of_pos hcolon,
        Text.beforeComment_append_of_whole hname (by simp),
        Text.beforeComment_cons (by simp [List.isPrefixOf]), hcut]
    · left
      have hliteral : ¬ isLiteralChar c = true := by
        intro hliteral
        have hlabel := isLabelChar_iff.mpr ⟨hc, hliteral⟩
        rw [hstop c rfl] at hlabel
        cases hlabel
      rw [List.takeWhile_cons_of_neg hliteral, List.append_nil, hname]

theorem takeWhile_literal (s : List Char) : s.takeWhile isLiteralChar =
    s.takeWhile isLabelChar ++ (s.dropWhile isLabelChar).takeWhile isLiteralChar := by
  have hname : ∀ c ∈ s.takeWhile isLabelChar, isLiteralChar c = true := by
    intro c hc
    exact (isLabelChar_iff.mp (List.mem_takeWhile_imp hc)).2
  calc s.takeWhile isLiteralChar
      = (s.takeWhile isLabelChar ++ s.dropWhile isLabelChar).takeWhile isLiteralChar := by
        rw [List.takeWhile_append_dropWhile]
    _ = _ := List.takeWhile_append_of_pos hname

/-- The literal of a marker: an `@`, a name without a comment in it, and perhaps a colon. -/
structure Spells (name literal : List Char) : Prop where
  chars : ∀ c ∈ name, isLabelChar c = true
  whole : Text.beforeComment name = name
  written : literal = '@' :: name ∨ literal = '@' :: (name ++ [':'])

theorem isPrefixOf_takeWhile (s : List Char) :
    ['/', '/'].isPrefixOf (s.takeWhile isLabelChar) = ['/', '/'].isPrefixOf s := by
  have hslash : ∀ c ∈ ['/', '/'], isLabelChar c = true := by
    intro c hc
    obtain rfl : c = '/' := by simpa using hc
    decide
  rw [Bool.eq_iff_iff, List.isPrefixOf_iff_prefix, List.isPrefixOf_iff_prefix]
  constructor
  · intro h
    exact h.trans (List.takeWhile_prefix isLabelChar)
  · rintro ⟨rest, rfl⟩
    rw [List.takeWhile_append_of_pos hslash]
    exact List.prefix_append _ _

theorem spells_of_endsLabel (hchars : ∀ c ∈ name, isLabelChar c = true)
    (hwhole : Text.beforeComment name = name) (hend : endsLabel rest = true)
    (hstop : ∀ c, rest.head? = some c → isLabelChar c = false) :
    Spells name ('@' :: Text.beforeComment (name ++ rest.takeWhile isLiteralChar)) := by
  refine ⟨hchars, hwhole, ?_⟩
  rcases kept_of_endsLabel hwhole hend hstop with hkept | hkept
  · exact Or.inl (by rw [hkept])
  · exact Or.inr (by rw [hkept])

/-- A comment that starts behind the first character of a name leaves that character at least. -/
theorem spells_of_cut {c : Char} (hchars : ∀ d ∈ c :: name, isLabelChar d = true)
    (hstart : ['/', '/'].isPrefixOf (c :: name) = false)
    (hcut : Text.beforeComment (c :: name) ≠ c :: name) (t : List Char) :
    ∃ kept, kept ≠ [] ∧ Spells kept ('@' :: Text.beforeComment (c :: name ++ t)) := by
  have hsub := (Text.beforeComment_prefix (c :: name)).subset
  have hkept := Text.beforeComment_append_of_cut hcut t
  refine ⟨Text.beforeComment (c :: name), ?_, fun d hd => hchars d (hsub hd),
    Text.beforeComment_idem _, Or.inl (by rw [hkept])⟩
  rw [Text.beforeComment_cons hstart]
  simp

/-- A marker keeps its name up to a comment; it keeps none if the comment follows the `@` at
once. -/
theorem spells_labelLiteral (h : isLabel s = true) :
    (isNameless ('@' :: s) = true ∧ labelLiteral ('@' :: s) = ['@']) ∨
      isNameless ('@' :: s) = false ∧
        ∃ name, name ≠ [] ∧ Spells name (labelLiteral ('@' :: s)) := by
  have hat : isLiteralChar '@' = true := by decide
  have hliteral : labelLiteral ('@' :: s) =
      '@' :: Text.beforeComment (s.takeWhile isLiteralChar) := by
    rw [labelLiteral_eq, List.takeWhile_cons_of_pos hat,
      Text.beforeComment_cons (by simp [List.isPrefixOf])]
  have hnameless : isNameless ('@' :: s) = ['/', '/'].isPrefixOf (s.takeWhile isLabelChar) := by
    rw [isNameless, List.tail_cons, h, Bool.and_true, isPrefixOf_takeWhile]
    rfl
  have hchars : ∀ c ∈ s.takeWhile isLabelChar, isLabelChar c = true :=
    fun c hc => List.mem_takeWhile_imp hc
  rw [hliteral, hnameless, takeWhile_literal]
  rw [isLabel, Bool.and_eq_true, Bool.or_eq_true] at h
  obtain ⟨hfull, hbehind⟩ := h
  generalize hn : s.takeWhile isLabelChar = name at *
  -- a comment sign at once leaves no name, and a later one cuts the name there
  cases hstart : ['/', '/'].isPrefixOf name with
  | true =>
    left
    refine ⟨rfl, ?_⟩
    obtain ⟨more, rfl⟩ := List.isPrefixOf_iff_prefix.mp hstart
    rfl
  | false =>
    right
    refine ⟨rfl, ?_⟩
    obtain ⟨c, name', rfl⟩ : ∃ c name', name = c :: name' := by
      cases name with
      | nil => simp at hfull
      | cons c name' => exact ⟨c, name', rfl⟩
    by_cases hwhole : Text.beforeComment (c :: name') = c :: name'
    · have hnone := hasComment_tail (hasComment_of_whole hchars hwhole)
      have hend : endsLabel (s.dropWhile isLabelChar) = true :=
        hbehind.resolve_right (by rw [hnone]; simp)
      have hstop : ∀ d, (s.dropWhile isLabelChar).head? = some d → isLabelChar d = false := by
        intro d hd
        have hnot := List.head?_dropWhile_not isLabelChar s
        rwa [hd] at hnot
      exact ⟨c :: name', by simp, spells_of_endsLabel hchars hwhole hend hstop⟩
    · exact spells_of_cut hchars hstart hwhole _

theorem Spells.isLiteralChar (h : Spells name literal) : ∀ c ∈ literal, isLiteralChar c = true := by
  have hname : ∀ c ∈ name, Script.isLiteralChar c = true :=
    fun c hc => (isLabelChar_iff.mp (h.chars c hc)).2
  intro c hc
  rcases h.written with rfl | rfl
  · rcases List.mem_cons.mp hc with rfl | hc
    · decide
    · exact hname c hc
  · rcases List.mem_cons.mp hc with rfl | hc
    · decide
    · rcases List.mem_append.mp hc with hc | hc
      · exact hname c hc
      · obtain rfl := List.mem_singleton.mp hc
        decide

theorem Spells.isBlank (h : Spells name literal) : ∀ c ∈ literal, Text.isBlank c = false :=
  fun c hc => (isLiteralChar_iff.mp (h.isLiteralChar c hc)).2

/-- What a marker was written as is read as that marker. -/
theorem Spells.readLine (h : Spells name literal) (hname : name ≠ []) (number : Nat) :
    readLine literal number = .ok (.ofLabel (String.ofList literal) number) := by
  have hall : literal.takeWhile Script.isLiteralChar = literal :=
    List.takeWhile_eq_self_iff.mpr h.isLiteralChar
  have hwhole : Text.beforeComment literal = literal := by
    rcases h.written with rfl | rfl
    · rw [Text.beforeComment_cons (by simp [List.isPrefixOf]), h.whole]
    · rw [Text.beforeComment_cons (by simp [List.isPrefixOf]),
        Text.beforeComment_append_of_whole h.whole (by simp)]
      rfl
  have hliteral : labelLiteral literal = literal := by rw [labelLiteral_eq, hall, hwhole]
  have hlabel : isLabel literal.tail = true := by
    have htake : ∀ t, (∀ c, t.head? = some c → isLabelChar c = false) →
        (name ++ t).takeWhile isLabelChar = name ∧ (name ++ t).dropWhile isLabelChar = t := by
      intro t ht
      obtain ⟨hkept, hrest⟩ := Text.takeWhile_append_stop ht name
      rw [List.takeWhile_eq_self_iff.mpr h.chars] at hkept
      rw [List.dropWhile_eq_nil_iff.mpr h.chars, List.nil_append] at hrest
      exact ⟨hkept, hrest⟩
    have hfull : name.isEmpty = false := by simpa using hname
    rcases h.written with rfl | rfl
    · obtain ⟨hname', hrest⟩ := htake [] (by simp)
      rw [List.append_nil] at hname' hrest
      rw [List.tail_cons, isLabel, hname', hrest, hfull]
      rfl
    · obtain ⟨hname', hrest⟩ := htake [':'] (by simp; decide)
      rw [List.tail_cons, isLabel, hname', hrest, hfull]
      rfl
  rcases h.written with hwritten | hwritten
  · rw [hwritten] at hlabel hliteral ⊢
    simp only [Script.readLine, List.tail_cons] at hlabel ⊢
    rw [hlabel, hliteral]
    rfl
  · rw [hwritten] at hlabel hliteral ⊢
    simp only [Script.readLine, List.tail_cons] at hlabel ⊢
    rw [hlabel, hliteral]
    rfl

end Markers

/-- A line that can be written out among others and be read again. -/
structure Stands (line : List Char) : Prop where
  isLine : Text.IsLine line
  counts : isIgnored line = false
  unmarked : line.head? ≠ some '\ufeff'

theorem stands_of_spells {name literal : List Char} (h : Spells name literal) : Stands literal := by
  have hbreak : '\n' ∉ literal := by
    intro hmem
    have hblank := h.isBlank _ hmem
    cases hblank
  have htrimmed := Text.isTrimmed_of_all h.isBlank
  have hmark : ∀ s : List Char, ('@' :: s).head? ≠ some '\ufeff' :=
    fun s heq => absurd (Option.some.inj heq) (by decide)
  rcases h.written with rfl | rfl
  · exact ⟨⟨by simp, hbreak, htrimmed⟩, by rfl, hmark _⟩
  · exact ⟨⟨by simp, hbreak, htrimmed⟩, by rfl, hmark _⟩

theorem readLine_call {line : List Char} {number : Nat} {c : Call}
    (h : readLine line number = .ok (.call c)) :
    c.literal = String.ofList line ∧ line.head? ≠ some '@' ∧
      (line.head?.map isNameStart).getD false = true := by
  unfold readLine at h
  split at h
  · split at h <;> cases h
  · next hat =>
    split at h
    · next hstart =>
      obtain ⟨⟨parameters, rest⟩, -, h⟩ := bind_eq_ok.mp h
      obtain rfl := Instruction.call.inj (Except.ok.inj h)
      refine ⟨rfl, ?_, hstart⟩
      intro hhead
      obtain ⟨s, rfl⟩ := List.head?_eq_some_iff.mp hhead
      exact hat s rfl
    · cases h

theorem readLine_marker {line : List Char} {number n : Nat} {name literal : String}
    (h : readLine line number = .ok (.marker name literal n)) :
    ∃ s, line = '@' :: s ∧ isLabel s = true ∧ literal = String.ofList (labelLiteral line) ∧
      name = Label.normalize literal := by
  unfold readLine at h
  split at h
  · next s =>
    split at h
    · next hlabel =>
      obtain ⟨hname, hliteral, -⟩ := Instruction.marker.inj (Except.ok.inj h)
      refine ⟨s, rfl, hlabel, hliteral.symm, ?_⟩
      rw [← hname, hliteral]
    · cases h
  · split at h
    · obtain ⟨⟨parameters, rest⟩, -, h⟩ := bind_eq_ok.mp h
      cases h
    · cases h

theorem readLine_unnumbered (line : List Char) (m n : Nat) :
    (readLine line m).map Instruction.unnumbered = (readLine line n).map Instruction.unnumbered := by
  unfold readLine
  split
  · split <;> rfl
  · split
    · cases parametersOf (line.dropWhile isNameChar) <;> rfl
    · rfl

theorem isNameStart_cases {c : Char} (h : isNameStart c = true) :
    c ≠ '/' ∧ c ≠ ';' ∧ c ≠ '\ufeff' := by
  refine ⟨?_, ?_, ?_⟩
  · rintro rfl
    revert h
    decide
  · rintro rfl
    revert h
    decide
  · rintro rfl
    revert h
    decide

theorem stands_of_call {line : List Char} {number : Nat} {c : Call} (hline : Text.IsLine line)
    (h : readLine line number = .ok (.call c)) : Stands line := by
  obtain ⟨-, -, hstart⟩ := readLine_call h
  cases line with
  | nil => cases hstart
  | cons d line =>
    obtain ⟨hslash, hsemi, hmark⟩ := isNameStart_cases hstart
    have hcomment : startsComment (d :: line) = false := by
      simp [startsComment, hsemi, List.isPrefixOf, Ne.symm hslash]
    exact ⟨hline, by simp [isIgnored, hcomment], by simpa using hmark⟩

theorem call_literal {line : List Char} {number : Nat} {c : Call}
    (h : readLine line number = .ok (.call c)) : (Instruction.call c).literal.toList = line := by
  rw [Instruction.literal, (readLine_call h).1, String.toList_ofList]

theorem marker_literal (name : String) (literal : List Char) (number : Nat) :
    (Instruction.marker name (String.ofList literal) number).literal.toList = literal :=
  String.toList_ofList

theorem stands_literal {line : List Char} {number : Nat} {i : Instruction}
    (hline : Text.IsLine line) (h : readLine line number = .ok i) : Stands i.literal.toList := by
  cases i with
  | call c =>
    rw [call_literal h]
    exact stands_of_call hline h
  | marker name literal k =>
    obtain ⟨s, rfl, hlabel, rfl, rfl⟩ := readLine_marker h
    rw [marker_literal]
    rcases spells_labelLiteral hlabel with ⟨-, hliteral⟩ | ⟨-, word, -, hspells⟩
    · rw [hliteral]
      have hnone : Spells [] ['@'] := ⟨by simp, rfl, Or.inl rfl⟩
      exact stands_of_spells hnone
    · exact stands_of_spells hspells

/-- The literal of an instruction is read as the instruction that it was taken from, whichever line
it stands in. -/
theorem reads_again {line : List Char} {number : Nat} {i : Instruction}
    (hnamed : isNameless line = false) (h : readLine line number = .ok i) (n : Nat) :
    ∃ i', readLine i.literal.toList n = .ok i' ∧ i'.unnumbered = i.unnumbered := by
  cases i with
  | call c =>
    have hsame := readLine_unnumbered line n number
    rw [h, ok_map] at hsame
    rw [call_literal h]
    exact map_eq_ok.mp hsame
  | marker name literal k =>
    obtain ⟨s, rfl, hlabel, rfl, rfl⟩ := readLine_marker h
    rw [marker_literal]
    rcases spells_labelLiteral hlabel with ⟨hnameless, -⟩ | ⟨-, word, hword, hspells⟩
    · rw [hnameless] at hnamed
      cases hnamed
    · exact ⟨_, hspells.readLine hword n, rfl⟩

theorem Spells.normalize {name literal : List Char} (h : Spells name literal) :
    Label.normalizeChars literal = '@' :: Text.lower name ++ [':'] := by
  have hname : Text.trim name = name := by
    apply Text.IsTrimmed.trim_eq
    apply Text.isTrimmed_of_all
    intro c hc
    exact (isLiteralChar_iff.mp (isLabelChar_iff.mp (h.chars c hc)).2).2
  have hlast : (Text.trim name).getLast? ≠ some ':' := by
    intro hcolon
    rw [hname] at hcolon
    exact (isLabelChar_iff.mp (h.chars _ (List.mem_of_getLast? hcolon))).1 rfl
  rw [Label.normalizeChars_eq]
  rcases h.written with rfl | rfl
  · rw [Label.bare_signed hlast, hname]
  · rw [← List.cons_append, Label.bare_signed_closed, hname]

theorem text_toList (s : Script) :
    s.text.toList = ['\n'].intercalate (s.instructions.map (·.literal.toList)) := by
  rw [text, String.toList_intercalate, literals, List.map_map]
  rfl

section Texts

variable {pieces : List (List Char)} {is : List Instruction}

theorem dropMark_of_stands (h : ∀ l ∈ pieces, Stands l) :
    dropMark (['\n'].intercalate pieces) = ['\n'].intercalate pieces := by
  cases pieces with
  | nil => rfl
  | cons piece rest =>
    have hpiece := h piece List.mem_cons_self
    cases piece with
    | nil => exact absurd rfl hpiece.isLine.nonempty
    | cons c piece =>
      have hc : c ≠ '\ufeff' := by simpa using hpiece.unmarked
      cases rest with
      | nil => simp [dropMark, Text.dropFront, hc]
      | cons next rest => simp [dropMark, Text.dropFront, List.intercalate_cons_cons, hc]

theorem numbered_of_stands (h : ∀ l ∈ pieces, Stands l) (first : Nat) :
    numbered first (['\n'].intercalate pieces) = pieces.zipIdx first := by
  have hlines := Text.lines_join fun l hl => (h l hl).isLine
  have htrim : pieces.map Text.trim = pieces := by
    rw [List.map_congr_left fun l hl => (h l hl).isLine.trimmed.trim_eq, List.map_id']
  rw [numbered, hlines, htrim]
  apply List.filter_eq_self.mpr
  rintro ⟨l, n⟩ hl
  have hmem : l ∈ pieces := List.fst_mem_of_mem_zipIdx hl
  rw [(h l hmem).counts]
  rfl

theorem filterMap_readLine
    (h : ∀ i ∈ is, ∀ n, ∃ i', readLine i.literal.toList n = .ok i' ∧
      i'.unnumbered = i.unnumbered) (first : Nat) :
    (((is.map (·.literal.toList)).zipIdx first).filterMap fun p =>
      (readLine p.1 p.2).toOption).map Instruction.unnumbered = is.map Instruction.unnumbered := by
  induction is generalizing first with
  | nil => rfl
  | cons i is ih =>
    obtain ⟨i', hread, hsame⟩ := h i List.mem_cons_self first
    have hrest := ih (fun j hj => h j (List.mem_cons_of_mem _ hj)) (first + 1)
    have hfirst : (readLine i.literal.toList first).toOption = some i' := by rw [hread]; rfl
    simp only [List.map_cons, List.zipIdx_cons, List.filterMap_cons, hfirst, hsame, hrest]

end Texts

theorem labels_unnumbered (file : String) (is : List Instruction) :
    (Script.mk file is).labels = (Script.mk file (is.map Instruction.unnumbered)).labels := by
  have hmarks : ∀ label : String, (fun i : Instruction => i.unnumbered.marks label) =
      fun i => i.marks label := by
    intro label
    funext i
    cases i <;> rfl
  have hmarker : ∀ label, (Script.mk file (is.map Instruction.unnumbered)).markerOf? label =
      (Script.mk file is).markerOf? label := by
    intro label
    simp only [markerOf?, List.findIdx?_map, Function.comp_def, hmarks]
  simp only [labels, hmarker, List.zipIdx_map, List.filterMap_map]
  congr 1
  funext ⟨i, n⟩
  cases i <;> rfl

theorem labels_of_unnumbered {s s' : Script}
    (h : s.instructions.map Instruction.unnumbered = s'.instructions.map Instruction.unnumbered) :
    s.labels = s'.labels := by
  have hfile : ∀ (file file' : String) (is : List Instruction),
      (Script.mk file is).labels = (Script.mk file' is).labels := fun _ _ _ => rfl
  calc s.labels = (Script.mk s.file (s.instructions.map Instruction.unnumbered)).labels :=
        labels_unnumbered s.file s.instructions
    _ = (Script.mk s'.file (s'.instructions.map Instruction.unnumbered)).labels := by
        rw [h, hfile]
    _ = s'.labels := (labels_unnumbered s'.file s'.instructions).symm

theorem parseStrict_eq_ok_iff {file source : String} {s : Script} :
    parseStrict file source = .ok s ↔
      (parse file source).faults = [] ∧ (parse file source).script = s := by
  unfold parseStrict
  cases hfaults : (parse file source).faults with
  | nil => simp [hfaults]
  | cons f rest => simp [hfaults]

theorem exists_mem_numbered {first : Nat} {source line : List Char} :
    (∃ n, (line, n) ∈ numbered first source) ↔
      (∃ raw ∈ Text.lines source, Text.trim raw = line) ∧ isIgnored line = false := by
  have hfst : line ∈ (((Text.lines source).map Text.trim).zipIdx first).map Prod.fst ↔
      ∃ raw ∈ Text.lines source, Text.trim raw = line := by
    rw [List.zipIdx_map_fst, List.mem_map]
  rw [← hfst, List.mem_map]
  constructor
  · rintro ⟨n, hn⟩
    obtain ⟨hmem, hcounts⟩ := List.mem_filter.mp hn
    exact ⟨⟨_, hmem, rfl⟩, by simpa using hcounts⟩
  · rintro ⟨⟨⟨l, n⟩, hmem, rfl⟩, hcounts⟩
    exact ⟨n, List.mem_filter.mpr ⟨hmem, by simpa using hcounts⟩⟩

/-- No label line of the source has its comment next to the `@`. -/
def IsNamed (source : String) : Prop :=
  ∀ raw ∈ Text.lines (dropMark source.toList), isNameless (Text.trim raw) = false

section Parsed

variable {file file' source : String} {i : Instruction}

theorem exists_line_of_mem (h : i ∈ (parse file source).script.instructions) :
    ∃ raw n, raw ∈ Text.lines (dropMark source.toList) ∧ Text.IsLine (Text.trim raw) ∧
      readLine (Text.trim raw) n = .ok i := by
  rw [parse_instructions] at h
  obtain ⟨⟨line, n⟩, hmem, hread⟩ := List.mem_filterMap.mp h
  obtain ⟨⟨raw, hraw, rfl⟩, hcounts⟩ := exists_mem_numbered.mp ⟨n, hmem⟩
  have hread' : readLine (Text.trim raw) n = .ok i := by
    cases hline : readLine (Text.trim raw) n with
    | error cause => simp [hline, Except.toOption] at hread
    | ok j =>
      simp only [hline, Except.toOption, Option.some.injEq] at hread
      rw [hread]
  have hbreak : '\n' ∉ Text.trim raw :=
    fun hc => Text.break_not_mem_of_mem_lines hraw (Text.trim_subset raw hc)
  have hfull : Text.trim raw ≠ [] := by
    intro hnil
    simp [hnil, isIgnored] at hcounts
  exact ⟨raw, n, hraw, ⟨hfull, hbreak, Text.isTrimmed_trim raw⟩, hread'⟩

/-- A nameless marker is kept as an `@` alone. -/
theorem nameless_mem (file : String) (h : ¬ IsNamed source) :
    ∃ n, .marker (Label.normalize "@") "@" n ∈ (parse file source).script.instructions := by
  simp only [IsNamed, not_forall, Bool.not_eq_false] at h
  obtain ⟨raw, hraw, hnameless⟩ := h
  obtain ⟨hslashes, hlabel⟩ := Bool.and_eq_true_iff.mp hnameless
  obtain ⟨rest, hrest⟩ := List.isPrefixOf_iff_prefix.mp hslashes
  have hcounts : isIgnored (Text.trim raw) = false := by rw [← hrest]; rfl
  obtain ⟨n, hmem⟩ : ∃ n, (Text.trim raw, n) ∈ numbered 1 (dropMark source.toList) :=
    exists_mem_numbered.mpr ⟨⟨raw, hraw, rfl⟩, hcounts⟩
  refine ⟨n, ?_⟩
  rw [parse_instructions]
  refine List.mem_filterMap.mpr ⟨_, hmem, ?_⟩
  have hread : readLine (Text.trim raw) n = .ok (.ofLabel "@" n) := by
    rw [← hrest] at hnameless hlabel ⊢
    have hat : isLabel ('/' :: '/' :: rest) = true := hlabel
    rcases spells_labelLiteral hat with ⟨-, hliteral⟩ | ⟨hnot, -⟩
    · simp only [List.cons_append, List.nil_append, readLine, hat, if_true, hliteral]
    · have hthere : isNameless ('@' :: '/' :: '/' :: rest) = true := hnameless
      rw [hnot] at hthere
      cases hthere
  simp only [hread, Except.toOption, Instruction.ofLabel]

theorem text_numbered (file source : String) :
    numbered 1 (dropMark (parse file source).script.text.toList) =
      ((parse file source).script.instructions.map (·.literal.toList)).zipIdx 1 := by
  have hstands : ∀ l ∈ (parse file source).script.instructions.map (·.literal.toList),
      Stands l := by
    intro l hl
    obtain ⟨i, hi, rfl⟩ := List.mem_map.mp hl
    obtain ⟨raw, n, -, hline, hread⟩ := exists_line_of_mem hi
    exact stands_literal hline hread
  rw [text_toList, dropMark_of_stands hstands, numbered_of_stands hstands]

theorem reread_of_named (h : IsNamed source) :
    ∃ s, parseStrict file' (parse file source).script.text = .ok s ∧
      s.instructions.map Instruction.unnumbered =
        (parse file source).script.instructions.map Instruction.unnumbered := by
  have hreads : ∀ i ∈ (parse file source).script.instructions, ∀ n,
      ∃ i', readLine i.literal.toList n = .ok i' ∧ i'.unnumbered = i.unnumbered := by
    intro i hi n
    obtain ⟨raw, k, hraw, -, hread⟩ := exists_line_of_mem hi
    exact reads_again (h raw hraw) hread n
  refine ⟨(parse file' (parse file source).script.text).script,
    parseStrict_eq_ok_iff.mpr ⟨?_, rfl⟩, ?_⟩
  · rw [parse_faults_eq_nil_iff, text_numbered]
    rintro ⟨l, n⟩ hl
    obtain ⟨i, hi, rfl⟩ := List.mem_map.mp (List.fst_mem_of_mem_zipIdx hl)
    obtain ⟨i', hread, -⟩ := hreads i hi n
    rw [hread]
    rfl
  · rw [parse_instructions, text_numbered]
    exact filterMap_readLine hreads 1

theorem refused_of_nameless {s : Script} (h : ¬ IsNamed source) :
    parseStrict file' (parse file source).script.text ≠ .ok s := by
  intro hok
  obtain ⟨hfaults, -⟩ := parseStrict_eq_ok_iff.mp hok
  obtain ⟨n, hmem⟩ := nameless_mem file h
  rw [parse_faults_eq_nil_iff, text_numbered] at hfaults
  have hliteral : ['@'] ∈ (parse file source).script.instructions.map (·.literal.toList) :=
    List.mem_map.mpr ⟨_, hmem, marker_literal _ ['@'] n⟩
  rw [← List.zipIdx_map_fst 1 ((parse file source).script.instructions.map _)] at hliteral
  obtain ⟨⟨l, k⟩, hl, rfl⟩ := List.mem_map.mp hliteral
  have hread := hfaults _ hl
  cases hread

theorem named_marker (h : IsNamed source) (hi : i ∈ (parse file source).script.instructions)
    (hmarker : i.isMarker = true) : ∃ name, name ≠ "" ∧ i.name = "@" ++ name ++ ":" := by
  obtain ⟨raw, n, hraw, -, hread⟩ := exists_line_of_mem hi
  cases i with
  | call c => cases hmarker
  | marker name literal k =>
    obtain ⟨s, hs, hlabel, rfl, rfl⟩ := readLine_marker hread
    have hnamed := h raw hraw
    rw [hs] at hnamed ⊢
    rcases spells_labelLiteral hlabel with ⟨hnameless, -⟩ | ⟨-, word, hword, hspells⟩
    · rw [hnameless] at hnamed
      cases hnamed
    · refine ⟨String.ofList (Text.lower word), ?_, ?_⟩
      · intro hempty
        exact hword (Text.lowerFrom_eq_nil_iff.mp (String.ofList_eq_empty_iff.mp hempty))
      · rw [Instruction.name, Label.normalize, Text.onChars, String.toList_ofList,
          hspells.normalize]
        apply String.toList_injective
        simp

end Parsed

/-- A script is read again as it was, label table and all, just if no label line of its source has
its comment next to the `@`; and just then has every label a name. -/
theorem reread_iff_named (file file' source : String) :
    ((∃ s, parseStrict file' (parse file source).script.text = .ok s ∧
        s.instructions.map Instruction.unnumbered =
          (parse file source).script.instructions.map Instruction.unnumbered ∧
        s.labels = (parse file source).script.labels) ↔ IsNamed source) ∧
      ((∀ i ∈ (parse file source).script.instructions, i.isMarker = true →
        ∃ name, name ≠ "" ∧ i.name = "@" ++ name ++ ":") ↔ IsNamed source) := by
  refine ⟨⟨?_, ?_⟩, ?_, fun h i hi => named_marker h hi⟩
  · rintro ⟨s, hread, -⟩
    by_contra hnot
    exact refused_of_nameless hnot hread
  · intro h
    obtain ⟨s, hread, hsame⟩ := reread_of_named h
    exact ⟨s, hread, hsame, labels_of_unnumbered hsame⟩
  · intro h
    by_contra hnot
    obtain ⟨n, hmem⟩ := nameless_mem file hnot
    obtain ⟨name, hname, heq⟩ := h _ hmem rfl
    have hempty : Label.normalize "@" = "@:" := by decide
    rw [Instruction.name, hempty] at heq
    have hlength := congrArg String.length heq
    simp only [String.length_append] at hlength
    have hzero : name.length = 0 := by
      have hall : ("@:".length, "@".length, ":".length) = (2, 1, 1) := by decide
      simp only [Prod.mk.injEq] at hall
      omega
    exact hname (String.length_eq_zero_iff.mp hzero)

/-- The comment takes the name away: the marker becomes an `@` alone, which no label line may be. -/
theorem comment_next_to_at_not_reread :
    (parse "a.txt" "@//x").script.instructions = [.marker "@:" "@" 1] ∧
      (parse "a.txt" "@//x").script.text = "@" ∧
      ¬ ∃ s, parseStrict "a.txt" (parse "a.txt" "@//x").script.text = .ok s := by
  have hread : (parse "a.txt" "@//x").script.instructions = [.marker "@:" "@" 1] := by
    decide +kernel
  have htext : (parse "a.txt" "@//x").script.text = "@" := by decide +kernel
  refine ⟨hread, htext, ?_⟩
  rintro ⟨s, hs⟩
  have hrefused : (parseStrict "a.txt" "@").toBool = false := by decide +kernel
  rw [htext] at hs
  rw [hs] at hrefused
  cases hrefused

end Script

end Cutscene
