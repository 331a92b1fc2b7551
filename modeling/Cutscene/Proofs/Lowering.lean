import Cutscene.Proofs.Trimming
import Cutscene.Text.Case

/-! Small letters. The small forms of a letter have no small forms but themselves, so a text in
small letters is left alone. Blanks stay blanks, and a sign stands where it stood, whatever letters
are around it. -/

namespace Cutscene.Text

namespace CaseRun

/-- The number of the first small letter of a run. -/
def lowest (r : CaseRun) : Nat := (r.first + r.offset).toNat

def highest (r : CaseRun) : Nat := (r.last + r.offset).toNat

/-- The small letters of a run leave every other character out. -/
def isAlternating (r : CaseRun) : Bool := r.stride.beq 2 || r.first.beq r.last

/-- None of the small letters from `low` to `high` is a capital of the runs, which stand in order. -/
def skips (low high : Nat) (alternating : Bool) : List CaseRun → Bool
  | [] => true
  | r :: rest =>
    if r.last.blt low then skips low high alternating rest
    else if high.blt r.first then true
    else alternating && r.stride.beq 2 && ((low + r.first) % 2).beq 1 &&
      skips low high alternating rest

def inOrder : List CaseRun → Bool
  | r :: r' :: rest => r.first.ble r'.first && inOrder (r' :: rest)
  | _ => true

theorem first_le_of_inOrder {r q : CaseRun} {rest : List CaseRun}
    (h : inOrder (r :: rest) = true) (hq : q ∈ rest) : r.first ≤ q.first := by
  induction rest generalizing r with
  | nil => cases hq
  | cons r' rest ih =>
    simp only [inOrder, Bool.and_eq_true, Nat.ble_eq] at h
    rcases List.mem_cons.mp hq with rfl | hq
    · exact h.1
    · exact Nat.le_trans h.1 (ih h.2 hq)

theorem inOrder_tail {r : CaseRun} {rest : List CaseRun} (h : inOrder (r :: rest) = true) :
    inOrder rest = true := by
  cases rest with
  | nil => rfl
  | cons r' rest => exact (Bool.and_eq_true_iff.mp h).2

theorem apart_of_skips {low high : Nat} {alternating : Bool} {runs : List CaseRun} {q : CaseRun}
    (horder : inOrder runs = true) (h : skips low high alternating runs = true) (hq : q ∈ runs) :
    q.last < low ∨ high < q.first ∨
      alternating = true ∧ q.stride = 2 ∧ (low + q.first) % 2 = 1 := by
  induction runs with
  | nil => cases hq
  | cons r rest ih =>
    rw [skips] at h
    split at h
    · next hbefore =>
      rcases List.mem_cons.mp hq with rfl | hq
      · exact Or.inl (Nat.blt_eq.mp hbefore)
      · exact ih (inOrder_tail horder) h hq
    · split at h
      · next hbehind =>
        refine Or.inr (Or.inl (Nat.lt_of_lt_of_le (Nat.blt_eq.mp hbehind) ?_))
        rcases List.mem_cons.mp hq with rfl | hq
        · exact Nat.le_refl _
        · exact first_le_of_inOrder horder hq
      · simp only [Bool.and_eq_true, Nat.beq_eq] at h
        obtain ⟨⟨⟨halternating, hstride⟩, hodd⟩, hrest⟩ := h
        rcases List.mem_cons.mp hq with rfl | hq
        · exact Or.inr (Or.inr ⟨halternating, hstride, hodd⟩)
        · exact ih (inOrder_tail horder) hrest hq

/-- Neither a blank nor a sign has a number from `low` to `high`; the only letter of ASCII among
them is `k`, which is also the small form of the Kelvin sign. -/
def IsClear (low high : Nat) : Prop :=
  (0xA0 < low ∨ low = 0x6B ∧ high = 0x6B) ∧ (high < 0x1680 ∨ 0x1680 < low) ∧
    (high < 0x2000 ∨ 0x205F < low) ∧ (high < 0x3000 ∨ 0x3000 < low)

instance (low high : Nat) : Decidable (IsClear low high) := inferInstanceAs (Decidable (_ ∧ _))

/-- What holds of a run: its capitals are no blanks, and nor are their small letters, which are
characters and have no small letters themselves. -/
structure IsProper (r : CaseRun) : Prop where
  capitals : 0xA0 < r.first ∧ IsClear r.first r.last
  letters : IsClear r.lowest r.highest
  valid : (r.highest < 0xD800 ∨ 0xDFFF < r.lowest) ∧ r.highest < 0x110000
  undotted : r.highest < 0x130 ∨ 0x130 < r.lowest
  small : skips r.lowest r.highest r.isAlternating caseRuns = true

instance (r : CaseRun) : Decidable r.IsProper :=
  decidable_of_iff ((0xA0 < r.first ∧ IsClear r.first r.last) ∧ IsClear r.lowest r.highest ∧
      ((r.highest < 0xD800 ∨ 0xDFFF < r.lowest) ∧ r.highest < 0x110000) ∧
      (r.highest < 0x130 ∨ 0x130 < r.lowest) ∧
      skips r.lowest r.highest r.isAlternating caseRuns = true)
    ⟨fun ⟨h₁, h₂, h₃, h₄, h₅⟩ => ⟨h₁, h₂, h₃, h₄, h₅⟩,
      fun ⟨h₁, h₂, h₃, h₄, h₅⟩ => ⟨h₁, h₂, h₃, h₄, h₅⟩⟩

theorem inOrder_caseRuns : inOrder caseRuns = true := by decide +kernel

theorem isProper_of_mem : ∀ r ∈ caseRuns, r.IsProper := by decide +kernel

theorem contains_iff {r : CaseRun} {n : Nat} :
    r.contains n = true ↔ r.first ≤ n ∧ n ≤ r.last ∧ (n - r.first) % r.stride = 0 := by
  simp only [contains, Bool.and_eq_true, decide_eq_true_eq, beq_iff_eq, and_assoc]

end CaseRun

theorem isBlank_of_isClear {low high : Nat} {c : Char} (h : CaseRun.IsClear low high)
    (hlow : low ≤ c.toNat) (hhigh : c.toNat ≤ high) : isBlank c = false := by
  obtain ⟨hstart, hogham, hspaces, hwide⟩ := h
  simp only [isBlank, Bool.or_eq_false_iff, Bool.and_eq_false_imp, decide_eq_true_eq,
    decide_eq_false_iff_not, beq_eq_false_iff_ne]
  omega

theorem toNat_ofNat {n : Nat} (h : n.isValidChar) : (Char.ofNat n).toNat = n :=
  congrArg Char.toNat (dif_pos h)

section Run

variable {r : CaseRun} {n : Nat}

/-- The small letter of a capital lies among those of its run. -/
theorem between_of_contains (hr : r ∈ caseRuns) (h : r.contains n = true) :
    r.lowest ≤ (n + r.offset).toNat ∧ (n + r.offset).toNat ≤ r.highest := by
  obtain ⟨hfirst, hlast, -⟩ := CaseRun.contains_iff.mp h
  have hstart := (CaseRun.isProper_of_mem r hr).letters.1
  simp only [CaseRun.lowest, CaseRun.highest] at hstart ⊢
  omega

theorem toNat_small (hr : r ∈ caseRuns) (h : r.contains n = true) :
    (Char.ofNat (n + r.offset).toNat).toNat = (n + r.offset).toNat := by
  have hbetween := between_of_contains hr h
  have hvalid := (CaseRun.isProper_of_mem r hr).valid
  apply toNat_ofNat
  rw [Nat.isValidChar]
  omega

/-- The small letter of a capital is no capital. -/
theorem not_contains_small (hr : r ∈ caseRuns) (h : r.contains n = true) {q : CaseRun}
    (hq : q ∈ caseRuns) : q.contains (n + r.offset).toNat = false := by
  obtain ⟨hfirst, hlast, hstep⟩ := CaseRun.contains_iff.mp h
  have hbetween := between_of_contains hr h
  have hproper := CaseRun.isProper_of_mem r hr
  have hstart := hproper.letters.1
  rw [Bool.eq_false_iff, Ne, CaseRun.contains_iff]
  rintro ⟨hqfirst, hqlast, hqstep⟩
  rcases CaseRun.apart_of_skips CaseRun.inOrder_caseRuns hproper.small hq with
    hbefore | hbehind | ⟨halternating, hstride, hodd⟩
  · omega
  · omega
  · -- the two runs interleave, and the numbers are of different parity
    simp only [CaseRun.isAlternating, Bool.or_eq_true, Nat.beq_eq] at halternating
    rw [hstride] at hqstep
    simp only [CaseRun.lowest] at hodd hbetween hstart
    rcases halternating with htwo | hsingle
    · rw [htwo] at hstep
      omega
    · omega

end Run

/-- A character that is its own small form. -/
def IsSmall (c : Char) : Prop := lowerChar c = [c]

instance (c : Char) : Decidable (IsSmall c) := inferInstanceAs (Decidable (_ = _))

/-- A character of ASCII that is no letter. -/
structure IsSign (c : Char) : Prop where
  ascii : c.toNat < 0x80
  unlettered : c.isAlpha = false

variable {c d x : Char} {s passed forms : List Char}

theorem toLower_cases (c : Char) : c.toLower = c ∨
    65 ≤ c.toNat ∧ c.toNat ≤ 90 ∧ c.toLower.toNat = c.toNat + 32 := by
  unfold Char.toLower
  split
  · next hupper =>
    have hlow : (65 : Nat) ≤ c.val.toNat := hupper.1
    have hhigh : c.val.toNat ≤ 90 := hupper.2
    refine Or.inr ⟨hlow, hhigh, ?_⟩
    simp only [Char.toNat, UInt32.toNat_add]
    have hshift : ('a'.val - 'A'.val).toNat = 32 := rfl
    omega
  · exact Or.inl rfl

theorem isAlpha_of_toNat (h : 65 ≤ c.toNat ∧ c.toNat ≤ 90 ∨ 97 ≤ c.toNat ∧ c.toNat ≤ 122) :
    c.isAlpha = true := by
  unfold Char.isAlpha Char.isUpper Char.isLower
  simp only [Bool.or_eq_true, Bool.and_eq_true, decide_eq_true_eq, UInt32.le_iff_toNat_le]
  exact h

theorem isSmall_toLower (h : c.toNat < 0x80) : IsSmall c.toLower := by
  rcases toLower_cases c with hsame | ⟨hlow, hhigh, hlower⟩
  · rw [hsame, IsSmall, lowerChar, if_pos h, hsame]
  · have hfixed : c.toLower.toLower = c.toLower := by
      rcases toLower_cases c.toLower with hsame | ⟨hlow', hhigh', -⟩
      · exact hsame
      · omega
    rw [IsSmall, lowerChar, if_pos (by omega), hfixed]

theorem isSmall_of_ascii (h : s.all (fun c => c.toNat < 0x80 && c.toLower == c) = true) :
    ∀ c ∈ s, IsSmall c := by
  intro c hc
  obtain ⟨hascii, hlower⟩ := Bool.and_eq_true_iff.mp (List.all_eq_true.mp h c hc)
  rw [IsSmall, lowerChar, if_pos (of_decide_eq_true hascii), eq_of_beq hlower]

theorem isSmall_of_find? (hlarge : ¬ c.toNat < 0x80) (hdotted : c ≠ '\u0130')
    (h : caseRuns.find? (·.contains c.toNat) = none) : IsSmall c := by
  rw [IsSmall, lowerChar, if_neg hlarge, if_neg hdotted, h]

/-- What stands for a letter in small letters stands for itself. -/
theorem isSmall_of_mem_lowerChar (h : d ∈ lowerChar c) : IsSmall d := by
  unfold lowerChar at h
  split at h
  · next hascii =>
    obtain rfl := List.mem_singleton.mp h
    exact isSmall_toLower hascii
  · next hlarge =>
    split at h
    · rcases List.mem_pair.mp h with rfl | rfl <;> decide +kernel
    · next hdotted =>
      split at h
      · next r hfind =>
        have hr := List.mem_of_find?_eq_some hfind
        have hcontains := List.find?_some hfind
        have hproper := CaseRun.isProper_of_mem r hr
        have hbetween := between_of_contains hr hcontains
        have hnumber := toNat_small hr hcontains
        rw [← List.mem_singleton.mp h] at hnumber
        rw [← hnumber] at hbetween
        by_cases hascii : d.toNat < 0x80
        · have hkelvin : d.toNat = 0x6B := by
            have hstart := hproper.letters.1
            omega
          rw [← Char.ofNat_toNat d, hkelvin]
          decide
        · refine isSmall_of_find? hascii ?_ (List.find?_eq_none.mpr fun q hq => ?_)
          · rintro rfl
            have hundotted := hproper.undotted
            have hdot : '\u0130'.toNat = 0x130 := rfl
            omega
          · rw [hnumber, not_contains_small hr hcontains hq]
            exact Bool.false_ne_true
      · next hfind =>
        obtain rfl := List.mem_singleton.mp h
        exact isSmall_of_find? hlarge hdotted hfind

theorem isBlank_of_mem_lowerChar (h : d ∈ lowerChar c) : isBlank d = isBlank c := by
  unfold lowerChar at h
  split at h
  · next hascii =>
    obtain rfl := List.mem_singleton.mp h
    rcases toLower_cases c with hsame | ⟨hlow, hhigh, hlower⟩
    · rw [hsame]
    · rw [isBlank_of_visible (by omega) (by omega), isBlank_of_visible (by omega) (by omega)]
  · split at h
    · next hdotted =>
      subst hdotted
      rcases List.mem_pair.mp h with rfl | rfl <;> rfl
    · split at h
      · next r hfind =>
        have hr := List.mem_of_find?_eq_some hfind
        have hcontains := List.find?_some hfind
        have hproper := CaseRun.isProper_of_mem r hr
        obtain ⟨hfirst, hlast, -⟩ := CaseRun.contains_iff.mp hcontains
        obtain ⟨hlow, hhigh⟩ := between_of_contains hr hcontains
        rw [List.mem_singleton.mp h]
        rw [← toNat_small hr hcontains] at hlow hhigh
        rw [isBlank_of_isClear hproper.letters hlow hhigh,
          isBlank_of_isClear hproper.capitals.2 hfirst hlast]
      · rw [List.mem_singleton.mp h]

theorem IsSign.lowerChar_eq (h : IsSign c) : lowerChar c = [c] := by
  rw [lowerChar, if_pos h.ascii]
  rcases toLower_cases c with hsame | ⟨hlow, hhigh, -⟩
  · rw [hsame]
  · have hletter := isAlpha_of_toNat (Or.inl ⟨hlow, hhigh⟩)
    rw [h.unlettered] at hletter
    cases hletter

/-- No letter has a sign for a small form. -/
theorem IsSign.eq_of_mem_lowerChar (h : IsSign x) (hx : x ∈ lowerChar c) : x = c := by
  have hunlettered := h.unlettered
  unfold lowerChar at hx
  split at hx
  · rw [List.mem_singleton] at hx
    rcases toLower_cases c with hsame | ⟨hlow, hhigh, hlower⟩
    · rw [hx, hsame]
    · rw [hx, isAlpha_of_toNat (Or.inr (by omega))] at hunlettered
      cases hunlettered
  · split at hx
    · rcases List.mem_pair.mp hx with rfl | rfl
      · cases hunlettered
      · exact absurd h.ascii (by decide)
    · split at hx
      · next r hfind =>
        have hr := List.mem_of_find?_eq_some hfind
        have hcontains := List.find?_some hfind
        have hstart := (CaseRun.isProper_of_mem r hr).letters.1
        have hbetween := between_of_contains hr hcontains
        have hascii := h.ascii
        rw [← toNat_small hr hcontains, ← List.mem_singleton.mp hx] at hbetween
        rw [isAlpha_of_toNat (Or.inr (by omega))] at hunlettered
        cases hunlettered
      · exact List.mem_singleton.mp hx

/-- What a letter becomes: its small form, or the form of a sigma at the end of a word. -/
inductive Lowers (c : Char) : List Char → Prop where
  | usual : Lowers c (lowerChar c)
  | final (sigma : c = 'Σ') : Lowers c ['ς']

theorem lowerFrom_cons (passed : List Char) (c : Char) (s : List Char) :
    ∃ forms, Lowers c forms ∧ lowerFrom passed (c :: s) = forms ++ lowerFrom (c :: passed) s := by
  rw [lowerFrom]
  refine ⟨_, ?_, rfl⟩
  split
  · next hsigma =>
    subst hsigma
    split
    · exact .final rfl
    · exact .usual
  · exact .usual

namespace Lowers

theorem isSmall (h : Lowers c forms) (hd : d ∈ forms) : IsSmall d := by
  cases h with
  | usual => exact isSmall_of_mem_lowerChar hd
  | final sigma =>
    obtain rfl := List.mem_singleton.mp hd
    decide +kernel

theorem isBlank (h : Lowers c forms) (hd : d ∈ forms) : isBlank d = Text.isBlank c := by
  cases h with
  | usual => exact isBlank_of_mem_lowerChar hd
  | final sigma =>
    obtain rfl := List.mem_singleton.mp hd
    rw [sigma]
    rfl

theorem ne_nil (h : Lowers c forms) : forms ≠ [] := by
  cases h with
  | usual =>
    unfold lowerChar
    split
    · exact List.cons_ne_nil _ _
    · split
      · exact List.cons_ne_nil _ _
      · split <;> exact List.cons_ne_nil _ _
  | final sigma => exact List.cons_ne_nil _ _

theorem of_sign (h : Lowers c forms) (hc : IsSign c) : forms = [c] := by
  cases h with
  | usual => exact hc.lowerChar_eq
  | final sigma => exact absurd hc.ascii (by rw [sigma]; decide)

theorem eq_of_sign (h : Lowers c forms) (hx : IsSign x) (hmem : x ∈ forms) : x = c := by
  cases h with
  | usual => exact hx.eq_of_mem_lowerChar hmem
  | final sigma =>
    obtain rfl := List.mem_singleton.mp hmem
    exact absurd hx.ascii (by decide)

theorem count_sign (h : Lowers c forms) (hx : IsSign x) : forms.count x = [c].count x := by
  by_cases hc : c = x
  · subst hc
    rw [h.of_sign hx]
  · have hforms : x ∉ forms := fun hmem => hc (h.eq_of_sign hx hmem).symm
    have hsingle : x ∉ [c] := fun hmem => hc (List.mem_singleton.mp hmem).symm
    rw [List.count_eq_zero.mpr hforms, List.count_eq_zero.mpr hsingle]

end Lowers

theorem lowerFrom_eq_nil_iff : lowerFrom passed s = [] ↔ s = [] := by
  cases s with
  | nil => exact iff_of_true rfl rfl
  | cons c s =>
    obtain ⟨forms, hforms, heq⟩ := lowerFrom_cons passed c s
    rw [heq]
    exact iff_of_false (fun h => hforms.ne_nil (List.append_eq_nil_iff.mp h).1)
      (List.cons_ne_nil _ _)

theorem isSmall_of_mem_lowerFrom (h : d ∈ lowerFrom passed s) : IsSmall d := by
  induction s generalizing passed with
  | nil => cases h
  | cons c s ih =>
    obtain ⟨forms, hforms, heq⟩ := lowerFrom_cons passed c s
    rw [heq] at h
    rcases List.mem_append.mp h with hhere | hrest
    · exact hforms.isSmall hhere
    · exact ih hrest

theorem lowerFrom_of_small (h : ∀ c ∈ s, IsSmall c) : lowerFrom passed s = s := by
  induction s generalizing passed with
  | nil => rfl
  | cons c s ih =>
    have hc : lowerChar c = [c] := h c List.mem_cons_self
    have hsigma : c ≠ 'Σ' := by
      rintro rfl
      exact absurd hc (by decide +kernel)
    rw [lowerFrom, if_neg hsigma, hc, ih fun d hd => h d (List.mem_cons_of_mem _ hd)]
    rfl

/-- A text in small letters stays as it is. -/
theorem lower_lower (s : List Char) : lower (lower s) = lower s :=
  lowerFrom_of_small fun _ hc => isSmall_of_mem_lowerFrom hc

theorem count_lowerFrom (h : IsSign x) (passed s : List Char) :
    (lowerFrom passed s).count x = s.count x := by
  induction s generalizing passed with
  | nil => rfl
  | cons c s ih =>
    obtain ⟨forms, hforms, heq⟩ := lowerFrom_cons passed c s
    rw [heq, List.count_append, ih, hforms.count_sign h, ← List.count_append,
      List.singleton_append]

theorem mem_lowerFrom_iff (h : IsSign x) : x ∈ lowerFrom passed s ↔ x ∈ s := by
  rw [← List.count_pos_iff, count_lowerFrom h, List.count_pos_iff]

theorem lowerFrom_sign (h : IsSign c) (passed s : List Char) :
    lowerFrom passed (c :: s) = c :: lowerFrom (c :: passed) s := by
  obtain ⟨forms, hforms, heq⟩ := lowerFrom_cons passed c s
  rw [heq, hforms.of_sign h]
  rfl

/-- A text in small letters begins with a sign only if it began with it. -/
theorem head?_of_lowerFrom (h : IsSign x) (hhead : (lowerFrom passed s).head? = some x) :
    s.head? = some x := by
  cases s with
  | nil => cases hhead
  | cons c s =>
    obtain ⟨forms, hforms, heq⟩ := lowerFrom_cons passed c s
    rw [heq, List.head?_append_of_ne_nil _ hforms.ne_nil] at hhead
    rw [hforms.eq_of_sign h (List.mem_of_mem_head? hhead)]
    rfl

theorem isBlank_head?_lowerFrom (passed s : List Char) :
    (lowerFrom passed s).head?.map isBlank = s.head?.map isBlank := by
  cases s with
  | nil => rfl
  | cons c s =>
    obtain ⟨forms, hforms, heq⟩ := lowerFrom_cons passed c s
    obtain ⟨d, rest, rfl⟩ := List.exists_cons_of_ne_nil hforms.ne_nil
    rw [heq, List.cons_append, List.head?_cons, List.head?_cons, Option.map_some, Option.map_some,
      hforms.isBlank List.mem_cons_self]

theorem isBlank_getLast?_lowerFrom (passed s : List Char) :
    (lowerFrom passed s).getLast?.map isBlank = s.getLast?.map isBlank := by
  induction s generalizing passed with
  | nil => rfl
  | cons c s ih =>
    obtain ⟨forms, hforms, heq⟩ := lowerFrom_cons passed c s
    rw [heq, List.getLast?_append, List.getLast?_cons]
    cases hlast : (lowerFrom (c :: passed) s).getLast? with
    | none =>
      have hs : s = [] := lowerFrom_eq_nil_iff.mp (List.getLast?_eq_none_iff.mp hlast)
      have hform := List.getLast?_eq_some_getLast hforms.ne_nil
      rw [hs, Option.none_or, hform, Option.map_some,
        hforms.isBlank (List.getLast_mem hforms.ne_nil)]
      rfl
    | some d =>
      have hrest := ih (c :: passed)
      rw [hlast] at hrest
      obtain ⟨e, he, hblank⟩ := Option.map_eq_some_iff.mp hrest.symm
      rw [he, Option.some_or, Option.getD_some, Option.map_some, Option.map_some, hblank]

/-- In small letters a trimmed text is trimmed as well. -/
theorem IsTrimmed.lowerFrom (h : IsTrimmed s) (passed : List Char) :
    IsTrimmed (lowerFrom passed s) where
  first d hd := by
    have hhead := isBlank_head?_lowerFrom passed s
    rw [hd, Option.map_some] at hhead
    obtain ⟨c, hc, hblank⟩ := Option.map_eq_some_iff.mp hhead.symm
    rw [← hblank, h.first c hc]
  last d hd := by
    have hlast := isBlank_getLast?_lowerFrom passed s
    rw [hd, Option.map_some] at hlast
    obtain ⟨c, hc, hblank⟩ := Option.map_eq_some_iff.mp hlast.symm
    rw [← hblank, h.last c hc]

end Cutscene.Text
