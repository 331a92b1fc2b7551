import Cutscene.Proofs.Joining
import Cutscene.Proofs.Writing

/-! Comments at the end of a line. Behind a blank, a comment with slashes changes nothing of what is
read: no scanner of a label or of a parameter list comes as far, and the result of a call is cut
before it. A comment with a semicolon is cut off a label alone. Behind a call the semicolon counts
as the one that ends it, and what stands around it is left in the result. -/

namespace Cutscene

namespace Text

variable {s t front back : List Char} {c : Char}

theorem ne_slash_of_isBlank (h : isBlank c = true) : c ≠ '/' := by
  rintro rfl
  cases h

theorem beforeComment_append_blank (h : ∀ c ∈ front, isBlank c = true) (s : List Char) :
    beforeComment (front ++ s) = front ++ beforeComment s := by
  induction front with
  | nil => rfl
  | cons c front ih =>
    have hc := ne_slash_of_isBlank (h c List.mem_cons_self)
    have hnot : ['/', '/'].isPrefixOf (c :: (front ++ s)) = false := by
      simp [List.isPrefixOf, Ne.symm hc]
    rw [List.cons_append, beforeComment_cons hnot, ih fun d hd => h d (List.mem_cons_of_mem _ hd),
      List.cons_append]

theorem beforeComment_eq_self_iff : beforeComment s = s ↔ ¬ ['/', '/'] <:+: s := by
  refine ⟨fun hwhole hinfix => ?_, beforeComment_of_free⟩
  induction s with
  | nil => simp at hinfix
  | cons c s ih =>
    cases hstart : ['/', '/'].isPrefixOf (c :: s) with
    | true =>
      rw [beforeComment_of_comment hstart] at hwhole
      cases hwhole
    | false =>
      rw [beforeComment_cons hstart] at hwhole
      rcases List.infix_cons_iff.mp hinfix with hprefix | hinfix
      · rw [List.isPrefixOf_iff_prefix.mpr hprefix] at hstart
        cases hstart
      · exact ih (List.cons.inj hwhole).2 hinfix

theorem trim_beforeComment_append (h : ∀ c ∈ back, isBlank c = true) (s : List Char) :
    trim (beforeComment (s ++ back)) = trim (beforeComment s) := by
  by_cases hwhole : beforeComment s = s
  · have hback : back.head? ≠ some '/' := by
      intro hslash
      exact ne_slash_of_isBlank (h _ (List.mem_of_mem_head? hslash)) rfl
    have hend : beforeComment back = back := by
      have happend := beforeComment_append_blank h []
      rwa [List.append_nil, beforeComment, List.append_nil] at happend
    rw [beforeComment_append_of_whole hwhole hback, hend, hwhole, trim_append_right h]
  · rw [beforeComment_append_of_cut hwhole]

theorem trimEnd_eq_nil_iff : trimEnd s = [] ↔ ∀ c ∈ s, isBlank c = true := by
  rw [trimEnd, List.reverse_eq_nil_iff, List.dropWhile_eq_nil_iff]
  simp only [List.mem_reverse]

/-- Something visible that is put behind a line, a blank apart, is apart from the trimmed line. -/
theorem exists_gap {b : Char} (hfull : trim s ≠ []) (hb : isBlank b = true)
    (hc : isBlank c = false) (t : List Char) : ∃ gap, (∀ d ∈ gap, isBlank d = true) ∧ gap ≠ [] ∧
      trim (s ++ b :: c :: t) = trim s ++ (gap ++ c :: trimEnd t) := by
  obtain ⟨front, back, hfront, hback, hs⟩ := exists_trim s
  have hstart : trimStart (s ++ [b]) = trim s ++ (back ++ [b]) := by
    have hfirst : trimStart (trim s ++ (back ++ [b])) = trim s ++ (back ++ [b]) := by
      apply trimStart_of_first
      intro d hd
      rw [List.head?_append_of_ne_nil _ hfull] at hd
      exact (isTrimmed_trim s).first d hd
    have hsplit : s ++ [b] = front ++ (trim s ++ (back ++ [b])) := by
      rw [← List.append_assoc (trim s), ← List.append_assoc front, ← hs]
    rw [hsplit, trimStart, List.dropWhile_append_of_pos hfront, ← trimStart, hfirst]
  refine ⟨back ++ [b], fun d hd => ?_, by simp, ?_⟩
  · rcases List.mem_append.mp hd with hd | hd
    · exact hback d hd
    · rwa [List.mem_singleton.mp hd]
  · have hsplit : s ++ b :: c :: t = (s ++ [b]) ++ c :: t := by simp
    rw [hsplit, trim_append_visible hc, hstart, List.append_assoc]

theorem count_dropBack_self (c : Char) (s : List Char) :
    (dropBack c s).count c + (if s.getLast? = some c then 1 else 0) = s.count c := by
  by_cases hlast : s.getLast? = some c
  · obtain ⟨t, rfl⟩ := List.getLast?_eq_some_iff.mp hlast
    rw [dropBack_concat, if_pos hlast, List.count_append, List.count_singleton_self]
  · rw [dropBack_of_last hlast, if_neg hlast, Nat.add_zero]

theorem trim_dropBack_iff (h : isBlank c = false) (s : List Char) :
    trim (dropBack c (trim s)) = trim s ↔ (trim s).getLast? ≠ some c := by
  constructor
  · intro heq hlast
    have hcount := congrArg (List.count c) heq
    have hdropped := count_dropBack_self c (trim s)
    rw [count_trim h] at hcount
    rw [if_pos hlast] at hdropped
    omega
  · intro hlast
    rw [dropBack_of_last hlast, (isTrimmed_trim s).trim_eq]

/-- Of two signs apart from each other one is left. -/
theorem count_lt_dropBack (c : Char) (s : List Char) (ht : t ≠ []) :
    s.count c < (dropBack c (s ++ c :: t)).count c := by
  have hdropped := count_dropBack_self c (s ++ c :: t)
  have hlast : (s ++ c :: t).getLast? = t.getLast? := by
    obtain ⟨d, t, rfl⟩ := List.exists_cons_of_ne_nil ht
    rw [List.getLast?_append_of_ne_nil _ (List.cons_ne_nil _ _), List.getLast?_cons_cons]
  rw [hlast, List.count_append, List.count_cons_self] at hdropped
  split at hdropped
  · next hsame =>
    have hpositive := List.count_pos_iff.mpr (List.mem_of_getLast? hsame)
    omega
  · omega

/-- A text with something put behind its line `n`, counted from 0. -/
def extendLine (n : Nat) (tail s : List Char) : List Char :=
  ['\n'].intercalate ((splitLines s).modify n (· ++ tail))

theorem splitLines_extendLine {tail : List Char} (htail : '\n' ∉ tail) (n : Nat) (s : List Char) :
    splitLines (extendLine n tail s) = (splitLines s).modify n (· ++ tail) := by
  have hwhole : ∀ line ∈ (splitLines s).modify n (· ++ tail), '\n' ∉ line := by
    intro line hline
    obtain ⟨m, hm⟩ := List.mem_iff_getElem?.mp hline
    rw [List.getElem?_modify] at hm
    obtain ⟨piece, hpiece, rfl⟩ := Option.map_eq_some_iff.mp hm
    have hbreak := break_not_mem_of_mem_splitLines (List.mem_of_getElem? hpiece)
    split
    · exact fun hmem => (List.mem_append.mp hmem).elim hbreak htail
    · exact hbreak
  rw [extendLine]
  cases hlines : (splitLines s).modify n (· ++ tail) with
  | nil =>
    have hlength := congrArg List.length hlines
    rw [List.length_modify] at hlength
    exact absurd (List.length_eq_zero_iff.mp hlength) (splitLines_ne_nil s)
  | cons line rest =>
    rw [hlines] at hwhole
    exact splitLines_join hwhole

end Text

namespace Instruction

def parameters : Instruction → List String
  | .marker .. => []
  | .call c => c.parameters

def result : Instruction → String
  | .marker .. => ""
  | .call c => c.result

/-- The same name and parameters, and both markers or both calls. -/
structure Alike (i j : Instruction) : Prop where
  name : j.name = i.name
  parameters : j.parameters = i.parameters
  isMarker : j.isMarker = i.isMarker

theorem Alike.of_call {c d : Call} (hname : d.name = c.name)
    (hparameters : d.parameters = c.parameters) : Alike (.call c) (.call d) :=
  ⟨hname, hparameters, rfl⟩

end Instruction

namespace Script

section Results

variable {s gap : List Char}

theorem resultOf_append_left (h : ∀ c ∈ gap, Text.isBlank c = true) (s : List Char) :
    resultOf (gap ++ s) = resultOf s := by
  rw [resultOf, Text.beforeComment_append_blank h, Text.trim_append_left h, resultOf]

theorem resultOf_append_right (h : ∀ c ∈ gap, Text.isBlank c = true) (s : List Char) :
    resultOf (s ++ gap) = resultOf s := by
  rw [resultOf, Text.trim_beforeComment_append h, resultOf]

theorem head_of_gap (hgap : ∀ c ∈ gap, Text.isBlank c = true) (hapart : gap ≠ []) (t : List Char) :
    ∀ c, (gap ++ t).head? = some c → Text.isBlank c = true := by
  intro c hc
  rw [List.head?_append_of_ne_nil _ hapart] at hc
  exact hgap c (List.mem_of_mem_head? hc)

/-- Slashes end a result, wherever they stand in what is behind the call. -/
theorem resultOf_slashes (hgap : ∀ c ∈ gap, Text.isBlank c = true) (hapart : gap ≠ [])
    (s comment : List Char) : resultOf (s ++ (gap ++ '/' :: '/' :: comment)) = resultOf s := by
  have hcut : Text.beforeComment (gap ++ '/' :: '/' :: comment) = gap := by
    rw [Text.beforeComment_append_blank hgap, Text.beforeComment, List.append_nil]
  have hbefore : Text.trim (Text.beforeComment (s ++ (gap ++ '/' :: '/' :: comment))) =
      Text.trim (Text.beforeComment s) := by
    by_cases hwhole : Text.beforeComment s = s
    · have hhead : (gap ++ '/' :: '/' :: comment).head? ≠ some '/' := fun hslash =>
        Text.ne_slash_of_isBlank (head_of_gap hgap hapart _ _ hslash) rfl
      rw [Text.beforeComment_append_of_whole hwhole hhead, hcut, hwhole,
        Text.trim_append_right hgap]
    · rw [Text.beforeComment_append_of_cut hwhole]
  rw [resultOf, hbefore, resultOf]

/-- A semicolon ends a result only where nothing stands behind it and none was there before. -/
theorem resultOf_semicolon_iff (hgap : ∀ c ∈ gap, Text.isBlank c = true) (hapart : gap ≠ [])
    (s comment : List Char) :
    resultOf (s ++ (gap ++ ';' :: comment)) = resultOf s ↔ ['/', '/'] <:+: s ∨
      (∀ c ∈ Text.beforeComment comment, Text.isBlank c = true) ∧
        (Text.trim s).getLast? ≠ some ';' := by
  by_cases hwhole : Text.beforeComment s = s
  · have hfree := Text.beforeComment_eq_self_iff.mp hwhole
    have hsemi : Text.isBlank ';' = false := by decide
    have hhead : (gap ++ ';' :: comment).head? ≠ some '/' := fun hslash =>
      Text.ne_slash_of_isBlank (head_of_gap hgap hapart _ _ hslash) rfl
    have hbefore : Text.beforeComment (s ++ (gap ++ ';' :: comment)) =
        (s ++ gap) ++ ';' :: Text.beforeComment comment := by
      rw [Text.beforeComment_append_of_whole hwhole hhead, Text.beforeComment_append_blank hgap,
        Text.beforeComment_cons (by simp [List.isPrefixOf]), List.append_assoc]
    rw [or_iff_right hfree, resultOf, hbefore, Text.trim_append_visible hsemi, resultOf, hwhole,
      ← Text.trimEnd_eq_nil_iff]
    cases hend : Text.trimEnd (Text.beforeComment comment) with
    | nil =>
      rw [Text.dropBack_concat, Text.trim_trimStart, Text.trim_append_right hgap, eq_comm,
        Text.trim_dropBack_iff hsemi, eq_self, true_and]
    | cons d t =>
      refine iff_of_false (fun heq => ?_) (by simp)
      have hmore := Text.count_lt_dropBack ';' (Text.trimStart (s ++ gap)) (List.cons_ne_nil d t)
      have hless := Text.count_dropBack_self ';' (Text.trim s)
      have hcount := congrArg (List.count ';') heq
      rw [Text.count_trim hsemi, Text.count_trim hsemi] at hcount
      rw [Text.count_trimStart hsemi, List.count_append] at hmore
      rw [Text.count_trim hsemi] at hless
      omega
  · have hslashes : ['/', '/'] <:+: s := by
      by_contra hfree
      exact hwhole (Text.beforeComment_eq_self_iff.mpr hfree)
    refine iff_of_true ?_ (Or.inl hslashes)
    rw [resultOf, Text.beforeComment_append_of_cut hwhole, resultOf]

end Results

section Lines

variable {s gap tail : List Char}

theorem startsComment_iff :
    startsComment s = true ↔ (∃ t, s = ';' :: t) ∨ ∃ t, s = '/' :: '/' :: t := by
  rw [startsComment, Bool.or_eq_true, decide_eq_true_eq, List.head?_eq_some_iff,
    List.isPrefixOf_iff_prefix]
  simp only [List.IsPrefix, List.cons_append, List.nil_append, eq_comm]

theorem startsComment_append (h : startsComment s = true) (t : List Char) :
    startsComment (s ++ t) = true := by
  rw [startsComment_iff] at h ⊢
  rcases h with ⟨r, rfl⟩ | ⟨r, rfl⟩
  · exact Or.inl ⟨r ++ t, rfl⟩
  · exact Or.inr ⟨r ++ t, rfl⟩

theorem splitClosing_append {n : Nesting} {inside rest : List Char}
    (h : splitClosing n s = .ok (inside, rest)) (t : List Char) :
    splitClosing n (s ++ t) = .ok (inside, rest ++ t) := by
  induction s generalizing n inside with
  | nil => cases h
  | cons c s ih =>
    rw [splitClosing] at h
    rw [List.cons_append, splitClosing]
    split at h
    · next hclose =>
      obtain ⟨rfl, rfl⟩ := Prod.mk.inj (Except.ok.inj h)
      rw [if_pos hclose]
    · next hopen =>
      rw [if_neg hopen]
      split at h
      · next inside' rest' hrest =>
        obtain ⟨rfl, rfl⟩ := Prod.mk.inj (Except.ok.inj h)
        rw [ih hrest]
      · cases h

/-- Blanks, one at least, and then a comment. -/
structure IsTrailer (gap tail : List Char) : Prop where
  blank : ∀ c ∈ gap, Text.isBlank c = true
  apart : gap ≠ []
  comment : startsComment tail = true

namespace IsTrailer

variable (h : IsTrailer gap tail)

include h

theorem head_isBlank {c : Char} (hc : (gap ++ tail).head? = some c) : Text.isBlank c = true :=
  head_of_gap h.blank h.apart tail c hc

theorem trimStart_tail : Text.trimStart tail = tail := by
  apply Text.trimStart_of_first
  intro c hc
  rcases startsComment_iff.mp h.comment with ⟨t, rfl⟩ | ⟨t, rfl⟩
  · exact Option.some.inj hc ▸ rfl
  · exact Option.some.inj hc ▸ rfl

theorem trimStart_of_blank (hs : Text.trimStart s = []) :
    Text.trimStart (s ++ (gap ++ tail)) = tail := by
  have hblank : ∀ c ∈ s ++ gap, Text.isBlank c = true := by
    intro c hc
    rcases List.mem_append.mp hc with hc | hc
    · exact List.dropWhile_eq_nil_iff.mp hs c hc
    · exact h.blank c hc
  rw [← List.append_assoc, Text.trimStart, List.dropWhile_append_of_pos hblank]
  exact h.trimStart_tail

omit h in
theorem trimStart_of_visible (hs : Text.trimStart s ≠ []) (t : List Char) :
    Text.trimStart (s ++ t) = Text.trimStart s ++ t := by
  have hfull : ¬ (s.dropWhile Text.isBlank).isEmpty = true := by rwa [List.isEmpty_iff]
  rw [Text.trimStart, List.dropWhile_append, if_neg hfull, Text.trimStart]

theorem ends_append (hs : (Text.trimStart s).isEmpty = true ∨
    startsComment (Text.trimStart s) = true) :
    startsComment (Text.trimStart (s ++ (gap ++ tail))) = true := by
  by_cases hblank : Text.trimStart s = []
  · rw [h.trimStart_of_blank hblank]
    exact h.comment
  · rw [trimStart_of_visible hblank]
    refine startsComment_append (hs.resolve_left ?_) _
    rwa [List.isEmpty_iff]

theorem endsLabel_append (hs : endsLabel s = true) : endsLabel (s ++ (gap ++ tail)) = true := by
  rw [endsLabel, Bool.or_eq_true] at hs ⊢
  right
  by_cases hblank : Text.trimStart s = []
  · have hcolon : Text.dropFront ':' tail = tail := by
      rcases startsComment_iff.mp h.comment with ⟨t, rfl⟩ | ⟨t, rfl⟩
      · rfl
      · rfl
    rw [h.trimStart_of_blank hblank, hcolon, h.trimStart_tail]
    exact h.comment
  · have hdrop : Text.dropFront ':' (Text.trimStart s ++ (gap ++ tail)) =
        Text.dropFront ':' (Text.trimStart s) ++ (gap ++ tail) := by
      obtain ⟨c, t, hct⟩ := List.exists_cons_of_ne_nil hblank
      rw [hct, List.cons_append, Text.dropFront, Text.dropFront]
      split <;> rfl
    rw [trimStart_of_visible hblank, hdrop]
    exact h.ends_append hs

theorem takeWhile_append {p : Char → Bool} (hp : ∀ c, Text.isBlank c = true → p c = false)
    (s : List Char) : (s ++ (gap ++ tail)).takeWhile p = s.takeWhile p ∧
      (s ++ (gap ++ tail)).dropWhile p = s.dropWhile p ++ (gap ++ tail) :=
  Text.takeWhile_append_stop (fun c hc => hp c (h.head_isBlank hc)) s

theorem isLabel_append (hs : isLabel s = true) : isLabel (s ++ (gap ++ tail)) = true := by
  have hstop : ∀ c, Text.isBlank c = true → isLabelChar c = false := by
    intro c hc
    simp [isLabelChar, hc]
  obtain ⟨htake, hdrop⟩ := h.takeWhile_append hstop s
  rw [isLabel, Bool.and_eq_true, Bool.or_eq_true] at hs
  rw [isLabel, htake, hdrop, Bool.and_eq_true, Bool.or_eq_true]
  exact ⟨hs.1, hs.2.imp h.endsLabel_append id⟩

theorem labelLiteral_append (s : List Char) : labelLiteral (s ++ (gap ++ tail)) = labelLiteral s := by
  have hstop : ∀ c, Text.isBlank c = true → isLiteralChar c = false := by
    intro c hc
    simp [isLiteralChar, hc]
  rw [labelLiteral_eq, (h.takeWhile_append hstop s).1, labelLiteral_eq]

theorem parametersOf_append {parameters : List String} {rest : List Char}
    (hs : parametersOf s = .ok (parameters, rest)) :
    ∃ rest', parametersOf (s ++ (gap ++ tail)) = .ok (parameters, rest') ∧
      resultOf rest' = resultOf (rest ++ (gap ++ tail)) := by
  unfold parametersOf at hs
  split at hs
  · next t ht =>
    obtain ⟨⟨inside, rest₁⟩, hclosing, hs⟩ := bind_eq_ok.mp hs
    obtain ⟨arguments₁, harguments, hs⟩ := bind_eq_ok.mp hs
    obtain ⟨rfl, rfl⟩ := Prod.mk.inj (Except.ok.inj hs)
    refine ⟨rest₁ ++ (gap ++ tail), ?_, rfl⟩
    rw [parametersOf, trimStart_of_visible (by simp [ht]), ht]
    simp only [List.cons_append, splitClosing_append hclosing, ok_bind, harguments]
    rfl
  · next t ht =>
    obtain ⟨rfl, rfl⟩ := Prod.mk.inj (Except.ok.inj hs)
    by_cases hblank : Text.trimStart s = []
    · refine ⟨tail, ?_, ?_⟩
      · rw [parametersOf, h.trimStart_of_blank hblank]
        rcases startsComment_iff.mp h.comment with ⟨t, rfl⟩ | ⟨t, rfl⟩
        · rfl
        · rfl
      · rw [hblank, List.nil_append, resultOf_append_left h.blank]
    · refine ⟨Text.trimStart s ++ (gap ++ tail), ?_, rfl⟩
      rw [parametersOf, trimStart_of_visible hblank]
      obtain ⟨c, r, hcr⟩ := List.exists_cons_of_ne_nil hblank
      rw [hcr] at ht ⊢
      rw [List.cons_append]
      split
      · next t' heq => exact absurd (by rw [(List.cons.inj heq).1]) (ht r)
      · rfl

theorem isIgnored_append (hs : isIgnored s = false) : isIgnored (s ++ (gap ++ tail)) = false := by
  obtain ⟨b, gap', hgap⟩ := List.exists_cons_of_ne_nil h.apart
  have hb : b ≠ '/' := Text.ne_slash_of_isBlank (h.blank b (hgap ▸ List.mem_cons_self))
  cases s with
  | nil => cases hs
  | cons c s =>
    cases s with
    | nil => simpa [isIgnored, startsComment, List.isPrefixOf, hgap, Ne.symm hb] using hs
    | cons d s => simpa [isIgnored, startsComment, List.isPrefixOf] using hs

end IsTrailer

end Lines

section Reading

variable {line gap tail : List Char} {file : String} {n : Nat} {i : Instruction}

/-- What stands behind the parameter list of a call, given its line. -/
def behind (line : List Char) : List Char :=
  match parametersOf (line.dropWhile isNameChar) with
  | .ok (_, rest) => rest
  | .error _ => []

theorem readLine_named (h : (line.head?.map isNameStart).getD false = true) (n : Nat) :
    readLine line n = (parametersOf (line.dropWhile isNameChar)).map fun (parameters, rest) =>
      .call ⟨String.ofList (line.takeWhile isNameChar), parameters,
        String.ofList (resultOf rest), String.ofList line, n⟩ := by
  unfold readLine
  split
  · cases h
  · rw [if_pos h]
    cases parametersOf (line.dropWhile isNameChar) <;> rfl

theorem IsTrailer.readLine_marker {name literal : String} {m : Nat} (h : IsTrailer gap tail)
    (hread : readLine line n = .ok (.marker name literal m)) :
    readLine (line ++ (gap ++ tail)) n = .ok (.marker name literal m) := by
  obtain ⟨s, rfl, hlabel, -, -⟩ := Script.readLine_marker hread
  rw [← hread]
  have hliteral := h.labelLiteral_append ('@' :: s)
  rw [List.cons_append] at hliteral ⊢
  simp only [readLine, hlabel, h.isLabel_append hlabel, hliteral, if_true]

/-- Of a call nothing but its result can come to include a part of the comment. -/
theorem IsTrailer.readLine_call {c : Call} (h : IsTrailer gap tail)
    (hread : readLine line n = .ok (.call c)) :
    c.result = String.ofList (resultOf (behind line)) ∧
      readLine (line ++ (gap ++ tail)) n = .ok (.call { c with
        result := String.ofList (resultOf (behind line ++ (gap ++ tail)))
        literal := String.ofList (line ++ (gap ++ tail)) }) := by
  obtain ⟨-, -, hstart⟩ := Script.readLine_call hread
  have hstop : ∀ c, Text.isBlank c = true → isNameChar c = false := by
    intro c hc
    rw [← Bool.not_eq_true]
    intro hname
    rw [isBlank_of_isNameChar hname] at hc
    cases hc
  obtain ⟨htake, hdrop⟩ := h.takeWhile_append hstop line
  have hstart' : ((line ++ (gap ++ tail)).head?.map isNameStart).getD false = true := by
    cases line with
    | nil => cases hstart
    | cons c line => exact hstart
  rw [readLine_named hstart] at hread
  rw [readLine_named hstart', htake, hdrop, behind]
  cases hparameters : parametersOf (line.dropWhile isNameChar) with
  | error cause =>
    rw [hparameters] at hread
    cases hread
  | ok found =>
    obtain ⟨parameters, rest⟩ := found
    rw [hparameters] at hread
    obtain rfl := Instruction.call.inj (Except.ok.inj hread)
    obtain ⟨rest', hparameters', hresult⟩ := h.parametersOf_append hparameters
    rw [hparameters', ← hresult]
    exact ⟨rfl, rfl⟩

theorem splitLines_dropMark (s : List Char) :
    Text.splitLines (dropMark s) = (Text.splitLines s).modifyHead dropMark := by
  cases s with
  | nil => rfl
  | cons c s =>
    by_cases hbreak : c = '\n'
    · subst hbreak
      simp [dropMark, Text.dropFront, Text.splitLines]
    · obtain ⟨line, rest, hs⟩ := List.exists_cons_of_ne_nil (Text.splitLines_ne_nil s)
      have hall : Text.splitLines (c :: s) = (c :: line) :: rest := by
        simp [Text.splitLines, hbreak, hs]
      rw [hall, List.modifyHead_cons, dropMark, dropMark, Text.dropFront, Text.dropFront]
      split
      · exact hs
      · exact hall

theorem getElem?_extendLine {s : List Char} (htail : '\n' ∉ tail) (hfull : line ≠ [])
    (hline : (Text.splitLines (dropMark s))[n]? = some line) :
    (Text.splitLines (dropMark (Text.extendLine n tail s)))[n]? = some (line ++ tail) := by
  rw [splitLines_dropMark] at hline
  rw [splitLines_dropMark, Text.splitLines_extendLine htail]
  obtain ⟨first, rest, hs⟩ := List.exists_cons_of_ne_nil (Text.splitLines_ne_nil s)
  rw [hs, List.modifyHead_cons] at hline
  rw [hs]
  cases n with
  | zero =>
    obtain rfl := Option.some.inj hline
    cases first with
    | nil => exact absurd rfl hfull
    | cons c first =>
      rw [List.modify_zero_cons, List.modifyHead_cons, List.getElem?_cons_zero, List.cons_append,
        dropMark, dropMark, Text.dropFront, Text.dropFront]
      split <;> rfl
  | succ n =>
    rw [List.getElem?_cons_succ] at hline
    rw [List.modify_succ_cons, List.modifyHead_cons, List.getElem?_cons_succ,
      List.getElem?_modify_eq, hline]
    rfl

/-- Line `n` of a text, counted from 0, is read as this instruction. -/
def ReadsAs (file source : String) (n : Nat) (i : Instruction) : Prop :=
  i ∈ (parse file source).script.instructions ∧ i.line = n + 1

theorem readsAs_iff {source : String} : ReadsAs file source n i ↔
    ∃ line, (Text.splitLines (dropMark source.toList))[n]? = some line ∧
      isIgnored (Text.trim line) = false ∧ readLine (Text.trim line) (n + 1) = .ok i := by
  rw [ReadsAs, parse_instructions_eq, numbered_eq]
  simp only [List.mem_filterMap, List.mem_filter, Bool.not_eq_true']
  constructor
  · rintro ⟨⟨⟨text, m⟩, ⟨hmem, hcounts⟩, hreading⟩, hn⟩
    cases hread : readLine text m with
    | error cause => simp [reading, hread, instruction?] at hreading
    | ok j =>
      obtain rfl : j = i := by simpa [reading, hread, instruction?] using hreading
      obtain rfl : m = n + 1 := by rw [← readLine_line hread, hn]
      have hat := (List.mk_mem_zipIdx_iff_le_and_getElem?_sub.mp hmem).2
      rw [Nat.add_sub_cancel, List.getElem?_map] at hat
      obtain ⟨line, hline, rfl⟩ := Option.map_eq_some_iff.mp hat
      exact ⟨line, hline, hcounts, hread⟩
  · rintro ⟨line, hline, hcounts, hread⟩
    refine ⟨⟨(Text.trim line, n + 1), ⟨?_, hcounts⟩, by simp [reading, hread, instruction?]⟩,
      readLine_line hread⟩
    rw [List.mk_mem_zipIdx_iff_le_and_getElem?_sub, Nat.add_sub_cancel, List.getElem?_map, hline]
    exact ⟨Nat.le_add_left 1 n, rfl⟩

/-- With a comment behind it a line is read as the same marker or call; only the result of the call
can be another. -/
theorem ReadsAs.extendLine {source : String} {b c : Char} {t : List Char}
    (hread : ReadsAs file source n i) (hblank : Text.isBlank b = true) (hc : Text.isBlank c = false)
    (hbreak : '\n' ∉ b :: c :: t) (hcomment : startsComment (c :: Text.trimEnd t) = true) :
    ∃ j, ReadsAs file (Text.onChars (Text.extendLine n (b :: c :: t)) source) n j ∧ i.Alike j ∧
      (i.isMarker = true → j.result = i.result) ∧
      (i.isMarker = false → ∃ gap, (∀ d ∈ gap, Text.isBlank d = true) ∧ gap ≠ [] ∧
        i.result = String.ofList (resultOf (behind i.literal.toList)) ∧
        j.result = String.ofList (resultOf (behind i.literal.toList ++ (gap ++ c :: t)))) := by
  obtain ⟨line, hline, hcounts, hread⟩ := readsAs_iff.mp hread
  have hfull : Text.trim line ≠ [] := by
    intro hnil
    rw [hnil] at hcounts
    cases hcounts
  -- the comment stays behind what the line held, with the blanks between them
  obtain ⟨gap, hgap, hapart, htrim⟩ := Text.exists_gap hfull hblank hc t
  have htrailer : IsTrailer gap (c :: Text.trimEnd t) := ⟨hgap, hapart, hcomment⟩
  have hextended : ∀ j, readLine (Text.trim line ++ (gap ++ c :: Text.trimEnd t)) (n + 1) = .ok j →
      ReadsAs file (Text.onChars (Text.extendLine n (b :: c :: t)) source) n j := by
    intro j hj
    have hnonempty : line ≠ [] := by
      rintro rfl
      exact hfull rfl
    rw [readsAs_iff, Text.onChars, String.toList_ofList]
    refine ⟨line ++ b :: c :: t, getElem?_extendLine hbreak hnonempty hline, ?_, ?_⟩
    · rw [htrim]
      exact htrailer.isIgnored_append hcounts
    · rw [htrim]
      exact hj
  cases i with
  | marker name literal m =>
    exact ⟨_, hextended _ (htrailer.readLine_marker hread), ⟨rfl, rfl, rfl⟩, fun _ => rfl,
      fun h => by cases h⟩
  | call call =>
    obtain ⟨hliteral, -, -⟩ := readLine_call hread
    obtain ⟨hresult, hbehind⟩ := htrailer.readLine_call hread
    refine ⟨_, hextended _ hbehind, .of_call rfl rfl, fun h => (by cases h),
      fun _ => ⟨gap, hgap, hapart, ?_⟩⟩
    obtain ⟨back, hback, ht⟩ := Text.exists_trimEnd t
    -- blanks at the end of the comment are trimmed with the line, and no result shows them
    have hend : resultOf (behind (Text.trim line) ++ (gap ++ c :: t)) =
        resultOf (behind (Text.trim line) ++ (gap ++ c :: Text.trimEnd t)) := by
      have hsplit : behind (Text.trim line) ++ (gap ++ c :: t) =
          (behind (Text.trim line) ++ (gap ++ c :: Text.trimEnd t)) ++ back := by
        conv_lhs => rw [ht]
        simp
      rw [hsplit, resultOf_append_right hback]
    have hwhole : (Instruction.call call).literal.toList = Text.trim line := by
      rw [Instruction.literal, hliteral, String.toList_ofList]
    rw [hwhole, hend]
    exact ⟨hresult, rfl⟩

end Reading

/-- A comment with slashes behind a line changes nothing of what is read there. One with a semicolon
leaves the name, the parameters and the kind of the line. It leaves the result of a call exactly
where a comment with slashes comes before it, or where it is itself empty, up to slashes in it, and
the call was not ended by a semicolon. -/
theorem trailing_comment_read {file source : String} {n : Nat} {i : Instruction} {blank : Char}
    {comment : List Char} (hread : ReadsAs file source n i) (hblank : Text.isBlank blank = true)
    (hline : blank ≠ '\n') (hcomment : '\n' ∉ comment) :
    (∃ j, ReadsAs file
        (Text.onChars (Text.extendLine n (blank :: '/' :: '/' :: comment)) source) n j ∧
      i.Alike j ∧ j.result = i.result) ∧
    ∃ j, ReadsAs file (Text.onChars (Text.extendLine n (blank :: ';' :: comment)) source) n j ∧
      i.Alike j ∧ (j.result = i.result ↔ i.isMarker = true ∨
        ['/', '/'] <:+: behind i.literal.toList ∨
        (∀ c ∈ Text.beforeComment comment, Text.isBlank c = true) ∧
          (Text.trim (behind i.literal.toList)).getLast? ≠ some ';') := by
  have hslash : Text.isBlank '/' = false := by decide
  have hsemi : Text.isBlank ';' = false := by decide
  constructor
  · have hstarts : startsComment ('/' :: Text.trimEnd ('/' :: comment)) = true := by
      have hend := Text.trimEnd_append_visible hslash [] comment
      rw [List.nil_append, List.nil_append] at hend
      rw [hend]
      exact startsComment_iff.mpr (Or.inr ⟨_, rfl⟩)
    obtain ⟨j, hj, hlike, hmarker, hcall⟩ :=
      hread.extendLine hblank hslash (by simp [Ne.symm hline, hcomment]) hstarts
    refine ⟨j, hj, hlike, ?_⟩
    cases hkind : i.isMarker with
    | true => exact hmarker hkind
    | false =>
      obtain ⟨gap, hgap, hapart, hi, hj⟩ := hcall hkind
      rw [hi, hj, resultOf_slashes hgap hapart]
  · have hstarts : startsComment (';' :: Text.trimEnd comment) = true :=
      startsComment_iff.mpr (Or.inl ⟨_, rfl⟩)
    obtain ⟨j, hj, hlike, hmarker, hcall⟩ :=
      hread.extendLine hblank hsemi (by simp [Ne.symm hline, hcomment]) hstarts
    refine ⟨j, hj, hlike, ?_⟩
    cases hkind : i.isMarker with
    | true => exact iff_of_true (hmarker hkind) (Or.inl rfl)
    | false =>
      obtain ⟨gap, hgap, hapart, hi, hj⟩ := hcall hkind
      rw [hi, hj, String.ofList_inj, resultOf_semicolon_iff hgap hapart]
      simp

end Script

namespace Rehearsal

/-- A line with a target behind the call. -/
def turning : String := "@Gate\nIf($x == 1) @Done"

def turn : Instruction := .call ⟨"If", ["$x == 1"], "@Done", "If($x == 1) @Done", 2⟩

theorem turn_commented : Script.ReadsAs "a" turning 1 turn ∧ Text.isBlank ' ' = true ∧
    ' ' ≠ '\n' ∧ '\n' ∉ "skip".toList ∧
    (∃ j, Script.ReadsAs "a" "@Gate\nIf($x == 1) @Done //skip" 1 j ∧ j.result = "@Done") ∧
    ∃ j, Script.ReadsAs "a" "@Gate\nIf($x == 1) @Done ;skip" 1 j ∧ turn.Alike j ∧
      j.result ≠ "@Done" := by
  have hread : Script.ReadsAs "a" turning 1 turn := ⟨by decide +kernel, rfl⟩
  have hline : ' ' ≠ '\n' := by decide
  have hcomment : '\n' ∉ "skip".toList := by decide
  have hslashes : Text.onChars (Text.extendLine 1 (' ' :: '/' :: '/' :: "skip".toList)) turning =
      "@Gate\nIf($x == 1) @Done //skip" := by decide +kernel
  have hsemicolon : Text.onChars (Text.extendLine 1 (' ' :: ';' :: "skip".toList)) turning =
      "@Gate\nIf($x == 1) @Done ;skip" := by decide +kernel
  obtain ⟨⟨j, hj, -, hsame⟩, k, hk, hlike, hresult⟩ :=
    Script.trailing_comment_read hread rfl hline hcomment
  rw [hslashes] at hj
  rw [hsemicolon] at hk
  have hbehind : Script.behind turn.literal.toList = " @Done".toList := by decide +kernel
  refine ⟨hread, rfl, hline, hcomment, ⟨j, hj, hsame⟩, k, hk, hlike, fun hdone => ?_⟩
  rcases hresult.mp hdone with hmarker | hslashes | ⟨hempty, -⟩
  · cases hmarker
  · rw [hbehind] at hslashes
    exact absurd hslashes (by decide)
  · exact absurd (hempty 's' (by decide)) (by decide)

/-- What is meant as a comment is taken for a part of the target. -/
theorem semicolon_comment_in_result :
    Script.ReadsAs "a" "If($x == 1) @Done" 0
      (.call ⟨"If", ["$x == 1"], "@Done", "If($x == 1) @Done", 1⟩) ∧
    Text.onChars (Text.extendLine 0 " ;skip".toList) "If($x == 1) @Done" =
      "If($x == 1) @Done ;skip" ∧
    ¬ ∃ j, Script.ReadsAs "a" "If($x == 1) @Done ;skip" 0 j ∧ j.result = "@Done" := by
  have hread : (Script.parse "a" "If($x == 1) @Done ;skip").script.instructions =
      [.call ⟨"If", ["$x == 1"], "@Done ;skip", "If($x == 1) @Done ;skip", 1⟩] := by
    decide +kernel
  refine ⟨⟨by decide +kernel, rfl⟩, by decide +kernel, ?_⟩
  rintro ⟨j, ⟨hmem, -⟩, hresult⟩
  rw [hread, List.mem_singleton] at hmem
  rw [hmem] at hresult
  exact absurd hresult (by decide)

end Rehearsal

end Cutscene
