import Cutscene.Text.Blank
import Cutscene.Text.Lines
import Mathlib.Data.List.DropRight

/-! Trimmed lines. A text without blanks at its ends is left alone by trimming, and lines that hold
no line feed and end with nothing that an ending could claim are found again in the text that they
make when they are joined. -/

namespace Cutscene.Text

/-- No blank stands at either end. -/
structure IsTrimmed (s : List Char) : Prop where
  first : ∀ c, s.head? = some c → isBlank c = false
  last : ∀ c, s.getLast? = some c → isBlank c = false

theorem isBlank_of_visible {c : Char} (hlow : 33 ≤ c.toNat) (hhigh : c.toNat ≤ 126) :
    isBlank c = false := by
  simp only [isBlank, Bool.or_eq_false_iff, Bool.and_eq_false_imp, decide_eq_true_eq,
    decide_eq_false_iff_not, beq_eq_false_iff_ne]
  omega

theorem toNat_of_isAlpha {c : Char} (h : c.isAlpha = true) : 65 ≤ c.toNat ∧ c.toNat ≤ 122 := by
  unfold Char.isAlpha Char.isUpper Char.isLower at h
  simp only [Bool.or_eq_true, Bool.and_eq_true, decide_eq_true_eq, UInt32.le_iff_toNat_le] at h
  rcases h with ⟨hlow, hhigh⟩ | ⟨hlow, hhigh⟩
  · exact ⟨hlow, Nat.le_trans hhigh (by decide)⟩
  · exact ⟨Nat.le_trans (by decide) hlow, hhigh⟩

theorem toNat_of_isDigit {c : Char} (h : c.isDigit = true) : 48 ≤ c.toNat ∧ c.toNat ≤ 57 := by
  unfold Char.isDigit at h
  simp only [Bool.and_eq_true, decide_eq_true_eq, UInt32.le_iff_toNat_le] at h
  exact h

theorem takeWhile_append_stop {p : Char → Bool} {t : List Char}
    (h : ∀ c, t.head? = some c → p c = false)
    (s : List Char) : (s ++ t).takeWhile p = s.takeWhile p ∧
      (s ++ t).dropWhile p = s.dropWhile p ++ t := by
  induction s with
  | nil =>
    cases t with
    | nil => exact ⟨rfl, rfl⟩
    | cons c t => simp [h c rfl]
  | cons c s ih =>
    cases hc : p c with
    | true => simpa [hc] using ih
    | false => simp [hc]

theorem trimStart_of_first {s : List Char} (h : ∀ c, s.head? = some c → isBlank c = false) :
    trimStart s = s := by
  cases s with
  | nil => rfl
  | cons c s =>
    have hc : isBlank c = false := h c rfl
    rw [trimStart, List.dropWhile_cons_of_neg (by simp [hc])]

theorem trimEnd_of_last {s : List Char} (h : ∀ c, s.getLast? = some c → isBlank c = false) :
    trimEnd s = s := by
  have hrev : trimStart s.reverse = s.reverse := by
    apply trimStart_of_first
    intro c hc
    exact h c (by rwa [List.head?_reverse] at hc)
  have hend : trimEnd s = (trimStart s.reverse).reverse := rfl
  rw [hend, hrev, List.reverse_reverse]

theorem IsTrimmed.trim_eq {s : List Char} (h : IsTrimmed s) : trim s = s := by
  rw [trim, trimStart_of_first h.first, trimEnd_of_last h.last]

theorem trimStart_first {s : List Char} {c : Char} (h : (trimStart s).head? = some c) :
    isBlank c = false := by
  have hnot := List.head?_dropWhile_not isBlank s
  rw [trimStart] at h
  rwa [h] at hnot

theorem trimEnd_last {s : List Char} {c : Char} (h : (trimEnd s).getLast? = some c) :
    isBlank c = false := by
  rw [trimEnd, List.getLast?_reverse] at h
  exact trimStart_first h

theorem trimEnd_isPrefix (s : List Char) : trimEnd s <+: s := List.rdropWhile_prefix isBlank s

theorem isTrimmed_trim (s : List Char) : IsTrimmed (trim s) where
  first c hc := by
    obtain ⟨rest, hrest⟩ := trimEnd_isPrefix (trimStart s)
    have hhead : (trimStart s).head? = some c := by
      rw [trim] at hc
      rw [← hrest, List.head?_append, hc, Option.some_or]
    exact trimStart_first hhead
  last c hc := trimEnd_last hc

theorem exists_trimEnd (s : List Char) :
    ∃ back, (∀ c ∈ back, isBlank c = true) ∧ s = trimEnd s ++ back := by
  refine ⟨(s.reverse.takeWhile isBlank).reverse,
    fun c hc => List.mem_takeWhile_imp (List.mem_reverse.mp hc), ?_⟩
  rw [trimEnd, ← List.reverse_append, List.takeWhile_append_dropWhile, List.reverse_reverse]

/-- What trimming takes away stands around what it leaves. -/
theorem exists_trim (s : List Char) : ∃ front back, (∀ c ∈ front, isBlank c = true) ∧
    (∀ c ∈ back, isBlank c = true) ∧ s = front ++ (trim s ++ back) := by
  obtain ⟨back, hback, hstart⟩ := exists_trimEnd (trimStart s)
  refine ⟨s.takeWhile isBlank, back, fun c hc => List.mem_takeWhile_imp hc, hback, ?_⟩
  rw [trim, ← hstart, trimStart, List.takeWhile_append_dropWhile]

theorem trim_append_left {front : List Char} (h : ∀ c ∈ front, isBlank c = true)
    (s : List Char) : trim (front ++ s) = trim s := by
  rw [trim, trimStart, List.dropWhile_append_of_pos h, ← trimStart, ← trim]

theorem trimEnd_append_right {back : List Char} (h : ∀ c ∈ back, isBlank c = true)
    (s : List Char) : trimEnd (s ++ back) = trimEnd s := by
  have hreverse : ∀ c ∈ back.reverse, isBlank c = true :=
    fun c hc => h c (List.mem_reverse.mp hc)
  rw [trimEnd, List.reverse_append, List.dropWhile_append_of_pos hreverse, ← trimEnd]

theorem trim_append_right {back : List Char} (h : ∀ c ∈ back, isBlank c = true)
    (s : List Char) : trim (s ++ back) = trim s := by
  rw [trim, trimStart, List.dropWhile_append]
  split
  · next hblank =>
    have hnil : s.dropWhile isBlank = [] := by simpa using hblank
    have hback : back.dropWhile isBlank = [] := List.dropWhile_eq_nil_iff.mpr h
    rw [hback, trim, trimStart, hnil]
  · rw [trimEnd_append_right h, ← trimStart, ← trim]

theorem trimEnd_append_visible {c : Char} (h : isBlank c = false) (s t : List Char) :
    trimEnd (s ++ c :: t) = s ++ c :: trimEnd t := by
  have hreverse : (s ++ c :: t).reverse = t.reverse ++ c :: s.reverse := by simp
  have hdrop := (takeWhile_append_stop (p := isBlank) (t := c :: s.reverse)
    (fun d hd => Option.some.inj hd ▸ h) t.reverse).2
  rw [trimEnd, hreverse, hdrop]
  simp [trimEnd]

/-- A visible character holds what stands on either side of it apart. -/
theorem trim_append_visible {c : Char} (h : isBlank c = false) (s t : List Char) :
    trim (s ++ c :: t) = trimStart s ++ c :: trimEnd t := by
  have hstart : trimStart (s ++ c :: t) = trimStart s ++ c :: t :=
    (takeWhile_append_stop (fun d hd => Option.some.inj hd ▸ h) s).2
  rw [trim, hstart, trimEnd_append_visible h]

theorem trim_trimStart (s : List Char) : trim (trimStart s) = trim s := by
  rw [trim, trimStart, trimStart, List.dropWhile_idempotent, trim, trimStart]

theorem trim_trimEnd (s : List Char) : trim (trimEnd s) = trim s := by
  obtain ⟨back, hback, hs⟩ := exists_trimEnd s
  calc
    trim (trimEnd s) = trim (trimEnd s ++ back) := (trim_append_right hback _).symm
    _ = trim s := by rw [← hs]

theorem head?_trim (s : List Char) : (trim s).head? = (trimStart s).head? := by
  rw [trim]
  cases hs : trimStart s with
  | nil => rfl
  | cons c t =>
    have hc : isBlank c = false := trimStart_first (congrArg List.head? hs)
    have hend : trimEnd (c :: t) = c :: trimEnd t := trimEnd_append_visible hc [] t
    rw [hend, List.head?_cons, List.head?_cons]

theorem getLast?_trim (s : List Char) : (trim s).getLast? = (trimEnd s).getLast? := by
  rw [← trim_trimEnd]
  cases hlast : (trimEnd s).getLast? with
  | none => rw [List.getLast?_eq_none_iff.mp hlast]; rfl
  | some c =>
    obtain ⟨t, ht⟩ := List.getLast?_eq_some_iff.mp hlast
    rw [ht, trim_append_visible (trimEnd_last hlast)]
    exact List.getLast?_concat ..

theorem isTrimmed_concat {c : Char} {s : List Char}
    (hfirst : ∀ b, s.head? = some b → isBlank b = false) (hc : isBlank c = false) :
    IsTrimmed (s ++ [c]) where
  first b hb := by
    cases s with
    | nil =>
      obtain rfl : c = b := by simpa using hb
      exact hc
    | cons d s => exact hfirst b (by simpa using hb)
  last b hb := by
    rw [List.getLast?_concat] at hb
    exact Option.some.inj hb ▸ hc

theorem dropFront_of_head {c : Char} {s : List Char} (h : s.head? ≠ some c) :
    dropFront c s = s := by
  cases s with
  | nil => rfl
  | cons d s => exact if_neg fun hd => h (congrArg some hd)

theorem dropBack_of_last {c : Char} {s : List Char} (h : s.getLast? ≠ some c) :
    dropBack c s = s := by
  rw [← List.head?_reverse] at h
  rw [dropBack, dropFront_of_head h, List.reverse_reverse]

theorem dropBack_concat (c : Char) (s : List Char) : dropBack c (s ++ [c]) = s := by
  rw [dropBack, List.reverse_concat, dropFront, if_pos rfl, List.reverse_reverse]

theorem trim_subset (s : List Char) : trim s ⊆ s := by
  intro c hc
  have hstart : c ∈ trimStart s := (trimEnd_isPrefix (trimStart s)).subset hc
  exact (List.dropWhile_suffix isBlank).subset hstart

theorem count_trimStart {c : Char} (h : isBlank c = false) (s : List Char) :
    (trimStart s).count c = s.count c := by
  have hsplit := congrArg (List.count c) (List.takeWhile_append_dropWhile (p := isBlank) (l := s))
  have hnone : (s.takeWhile isBlank).count c = 0 := by
    refine List.count_eq_zero.mpr fun hc => ?_
    rw [List.mem_takeWhile_imp hc] at h
    cases h
  rw [List.count_append, hnone, Nat.zero_add] at hsplit
  exact hsplit

theorem count_trim {c : Char} (h : isBlank c = false) (s : List Char) :
    (trim s).count c = s.count c := by
  have hend : trimEnd (trimStart s) = (trimStart (trimStart s).reverse).reverse := rfl
  rw [trim, hend, List.count_reverse, count_trimStart h, List.count_reverse, count_trimStart h]

/-- Trimming takes nothing but blanks away. -/
theorem mem_trim_iff {c : Char} (h : isBlank c = false) {s : List Char} : c ∈ trim s ↔ c ∈ s := by
  rw [← List.count_pos_iff, count_trim h, List.count_pos_iff]

theorem isTrimmed_of_all {s : List Char} (h : ∀ c ∈ s, isBlank c = false) : IsTrimmed s where
  first c hc := h c (List.mem_of_mem_head? hc)
  last c hc := h c (List.mem_of_mem_getLast? hc)

theorem break_not_mem_of_mem_splitLines {s line : List Char} (h : line ∈ splitLines s) :
    '\n' ∉ line := by
  induction s generalizing line with
  | nil =>
    obtain rfl := List.mem_singleton.mp h
    exact List.not_mem_nil
  | cons c s ih =>
    by_cases hc : c = '\n'
    · rw [splitLines, if_pos hc] at h
      rcases List.mem_cons.mp h with rfl | hrest
      · exact List.not_mem_nil
      · exact ih hrest
    · rw [splitLines, if_neg hc] at h
      cases hs : splitLines s with
      | nil => exact absurd hs (splitLines_ne_nil s)
      | cons first rest =>
        rw [hs] at h ih
        rcases List.mem_cons.mp h with rfl | hrest
        · have hfirst := ih List.mem_cons_self
          simp only [List.mem_cons, not_or]
          exact ⟨Ne.symm hc, hfirst⟩
        · exact ih (List.mem_cons_of_mem _ hrest)

theorem dropReturn_subset (line : List Char) : dropReturn line ⊆ line := by
  unfold dropReturn
  split
  · exact List.dropLast_subset line
  · exact List.Subset.refl line

theorem exists_of_mem_endLines {pieces : List (List Char)} {line : List Char}
    (h : line ∈ endLines pieces) : ∃ piece ∈ pieces, line ⊆ piece := by
  induction pieces with
  | nil => cases h
  | cons piece pieces ih =>
    cases pieces with
    | nil =>
      rw [endLines] at h
      split at h
      · cases h
      · obtain rfl := List.mem_singleton.mp h
        exact ⟨line, List.mem_cons_self, List.Subset.refl line⟩
    | cons next rest =>
      rw [endLines] at h
      · rcases List.mem_cons.mp h with rfl | hrest
        · exact ⟨piece, List.mem_cons_self, dropReturn_subset piece⟩
        · obtain ⟨found, hfound, hsub⟩ := ih hrest
          exact ⟨found, List.mem_cons_of_mem _ hfound, hsub⟩
      · simp

theorem break_not_mem_of_mem_lines {s line : List Char} (h : line ∈ lines s) : '\n' ∉ line := by
  obtain ⟨piece, hpiece, hsub⟩ := exists_of_mem_endLines h
  exact fun hmem => break_not_mem_of_mem_splitLines hpiece (hsub hmem)

theorem splitLines_of_whole {s : List Char} (h : '\n' ∉ s) : splitLines s = [s] := by
  induction s with
  | nil => rfl
  | cons c s ih =>
    simp only [List.mem_cons, not_or] at h
    rw [splitLines, if_neg (Ne.symm h.1), ih h.2]

/-- A text that stands as one line whatever is written in the lines around it. -/
structure IsLine (s : List Char) : Prop where
  nonempty : s ≠ []
  whole : '\n' ∉ s
  trimmed : IsTrimmed s

theorem IsLine.dropReturn_eq {s : List Char} (h : IsLine s) : dropReturn s = s := by
  unfold dropReturn
  split
  · next hlast =>
    have hblank := h.trimmed.last _ hlast
    cases hblank
  · rfl

theorem splitLines_join {line : List Char} {rest : List (List Char)}
    (h : ∀ s ∈ line :: rest, '\n' ∉ s) :
    splitLines (['\n'].intercalate (line :: rest)) = line :: rest := by
  induction rest generalizing line with
  | nil =>
    rw [List.intercalate_singleton]
    exact splitLines_of_whole (h line List.mem_cons_self)
  | cons next rest ih =>
    have hline := splitLines_of_whole (h line List.mem_cons_self)
    have hrest := ih fun s hs => h s (List.mem_cons_of_mem _ hs)
    rw [List.intercalate_cons_cons, List.append_assoc, List.singleton_append,
      splitLines_append_break, hline, hrest, List.singleton_append]

theorem endLines_of_isLine {pieces : List (List Char)} (h : ∀ s ∈ pieces, IsLine s) :
    endLines pieces = pieces := by
  induction pieces with
  | nil => rfl
  | cons piece pieces ih =>
    have hpiece := h piece List.mem_cons_self
    cases pieces with
    | nil =>
      have hfull : piece.isEmpty = false := by simpa using hpiece.nonempty
      simp [endLines, hfull]
    | cons next rest =>
      have hrest := ih fun s hs => h s (List.mem_cons_of_mem _ hs)
      rw [endLines, hpiece.dropReturn_eq, hrest]
      simp

/-- Lines that are joined by line feeds are the lines of what they make. -/
theorem lines_join {pieces : List (List Char)} (h : ∀ s ∈ pieces, IsLine s) :
    lines (['\n'].intercalate pieces) = pieces := by
  cases pieces with
  | nil => rfl
  | cons piece rest =>
    rw [lines, splitLines_join fun s hs => (h s hs).whole]
    exact endLines_of_isLine h

end Cutscene.Text
