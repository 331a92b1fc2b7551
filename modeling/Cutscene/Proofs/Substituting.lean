import Cutscene.Proofs.References

/-! Variables written out. A text is taken from the left, each reference with the whole of its name,
and nothing but references is changed. The number put for a reference has neither a dollar sign nor
the beginning of a name in it, so no new reference comes about, next to a stray dollar sign either,
and what was written out once stays as it is. -/

namespace Cutscene

namespace Decimal

theorem toString_toList (n : Int) : (toString n).toList = ofInt n := by
  cases n with
  | ofNat m => exact String.toList_ofList
  | negSucc m =>
    have hrepr : toString (Int.negSucc m) = "-" ++ String.ofList (digits (m + 1)) := rfl
    simp [hrepr, ofInt]

theorem digits_ne_nil (n : Nat) : digits n ≠ [] := Nat.toDigits_ne_nil

theorem ofInt_ne_nil (n : Int) : ofInt n ≠ [] := by
  cases n with
  | ofNat m => exact digits_ne_nil m
  | negSucc m => exact List.cons_ne_nil _ _

end Decimal

namespace Variable

variable {value : String → Int32} {s name rest : List Char} {c : Char}

/-- A dollar sign with the first character of a name behind it. -/
def BeginsReference (s : List Char) : Prop := ∃ c rest, s = '$' :: c :: rest ∧ isStart c = true

/-- The second text is the first with each reference, as long as it goes, written out as a decimal
number. -/
inductive WrittenOut (value : String → Int32) : List Char → List Char → Prop where
  | nil : WrittenOut value [] []
  | reference {name rest out : List Char} (hname : isName name = true)
      (hmaximal : ∀ c, rest.head? = some c → isPart c = false) (h : WrittenOut value rest out) :
      WrittenOut value ('$' :: (name ++ rest))
        ((toString (value (String.ofList name)).toInt).toList ++ out)
  | kept {c : Char} {s out : List Char} (hnone : ¬ BeginsReference (c :: s))
      (h : WrittenOut value s out) : WrittenOut value (c :: s) (c :: out)

theorem toNat_of_isStart (h : isStart c = true) : 65 ≤ c.toNat ∧ c.toNat ≤ 122 := by
  simp only [isStart, Bool.or_eq_true, decide_eq_true_eq] at h
  rcases h with halpha | rfl
  · exact Text.toNat_of_isAlpha halpha
  · decide

theorem isPart_iff : isPart c = true ↔ isStart c = true ∨ c.isDigit = true := by
  simp only [isPart, isStart, Char.isAlphanum, Bool.or_eq_true]
  exact or_right_comm

theorem toNat_of_isPart (h : isPart c = true) : 48 ≤ c.toNat ∧ c.toNat ≤ 122 := by
  rcases isPart_iff.mp h with hstart | hdigit
  · have hbounds := toNat_of_isStart hstart
    omega
  · have hbounds := Text.toNat_of_isDigit hdigit
    omega

theorem reference?_eq_none_iff : reference? s = none ↔ ¬ BeginsReference s := by
  unfold reference?
  split
  · next c rest =>
    have hbegins : BeginsReference ('$' :: c :: rest) ↔ isStart c = true := by
      constructor
      · rintro ⟨d, t, heq, hd⟩
        obtain rfl := (List.cons.inj (List.cons.inj heq).2).1
        exact hd
      · intro hc
        exact ⟨c, rest, rfl, hc⟩
    rw [hbegins]
    cases isStart c <;> simp
  · next hnot =>
    refine iff_of_true rfl ?_
    rintro ⟨c, rest, rfl, -⟩
    exact hnot c rest rfl

theorem reference?_eq_some_iff : reference? s = some (name, rest) ↔
    s = '$' :: (name ++ rest) ∧ isName name = true ∧
      ∀ c, rest.head? = some c → isPart c = false := by
  constructor
  · intro h
    refine ⟨(reference?_eq_some h).1, ?_⟩
    unfold reference? at h
    split at h
    · next c t =>
      split at h
      · next hstart =>
        obtain ⟨rfl, rfl⟩ := Prod.mk.inj (Option.some.inj h)
        constructor
        · rw [isName, hstart, Bool.true_and, List.all_eq_true]
          exact fun d hd => List.mem_takeWhile_imp hd
        · intro d hd
          have hnot := List.head?_dropWhile_not isPart t
          rwa [hd] at hnot
      · cases h
    · cases h
  · rintro ⟨rfl, hname, hmaximal⟩
    cases name with
    | nil => cases hname
    | cons c name =>
      obtain ⟨hstart, hparts⟩ := Bool.and_eq_true_iff.mp hname
      have hall : ∀ d ∈ name, isPart d = true := List.all_eq_true.mp hparts
      have hstop : rest.takeWhile isPart = [] ∧ rest.dropWhile isPart = rest := by
        cases rest with
        | nil => exact ⟨rfl, rfl⟩
        | cons d rest =>
          have hd : ¬ isPart d = true := by simp [hmaximal d rfl]
          exact ⟨List.takeWhile_cons_of_neg hd, List.dropWhile_cons_of_neg hd⟩
      rw [List.cons_append, reference?, if_pos hstart, List.takeWhile_append_of_pos hall,
        List.dropWhile_append_of_pos hall, hstop.1, hstop.2, List.append_nil]

theorem substituteChars_of_some (h : reference? (c :: s) = some (name, rest)) :
    substituteChars value (c :: s) =
      Decimal.ofInt (value (String.ofList name)).toInt ++ substituteChars value rest := by
  rw [substituteChars]
  split
  · next name' rest' h' =>
    obtain ⟨rfl, rfl⟩ := Prod.mk.inj (Option.some.inj (h.symm.trans h'))
    rfl
  · next h' => cases h.symm.trans h'

theorem substituteChars_of_none (h : reference? (c :: s) = none) :
    substituteChars value (c :: s) = c :: substituteChars value s := by
  rw [substituteChars]
  split
  · next h' => cases h.symm.trans h'
  · rfl

theorem writtenOut_substituteChars (value : String → Int32) (s : List Char) :
    WrittenOut value s (substituteChars value s) := by
  fun_induction substituteChars value s with
  | case1 => exact .nil
  | case2 c s name rest href ih =>
    obtain ⟨hsplit, hname, hmaximal⟩ := reference?_eq_some_iff.mp href
    rw [hsplit, ← Decimal.toString_toList]
    exact .reference hname hmaximal ih
  | case3 c s href ih => exact .kept (reference?_eq_none_iff.mp href) ih

theorem WrittenOut.eq_substituteChars {out : List Char} (h : WrittenOut value s out) :
    out = substituteChars value s := by
  induction h with
  | nil => rw [substituteChars]
  | reference hname hmaximal _ ih =>
    rw [substituteChars_of_some (reference?_eq_some_iff.mpr ⟨rfl, hname, hmaximal⟩),
      Decimal.toString_toList, ih]
  | kept hnone _ ih => rw [substituteChars_of_none (reference?_eq_none_iff.mpr hnone), ih]

theorem writtenOut_iff {out : List Char} :
    WrittenOut value s out ↔ out = substituteChars value s := by
  constructor
  · exact WrittenOut.eq_substituteChars
  · rintro rfl
    exact writtenOut_substituteChars value s

/-- Texts without a reference are those no place of which begins one. -/
theorem references_eq_zero_iff :
    references s = 0 ↔ ¬ ∃ t, t <:+ s ∧ BeginsReference t := by
  induction s with
  | nil =>
    refine iff_of_true rfl ?_
    rintro ⟨t, ht, c, rest, rfl, -⟩
    cases List.suffix_nil.mp ht
  | cons c s ih =>
    have hhere : (reference? (c :: s)).isSome = true ↔ BeginsReference (c :: s) := by
      rw [← Option.ne_none_iff_isSome, ne_eq, reference?_eq_none_iff, not_not]
    simp only [List.suffix_cons_iff, or_and_right, exists_or, exists_eq_left, not_or, ← ih, references,
      Nat.add_eq_zero_iff, ite_eq_right_iff, Nat.one_ne_zero, imp_false, hhere]

/-- A written out text begins like a name only where the text did so itself. -/
theorem head?_of_substituteChars (h : (substituteChars value s).head? = some c)
    (hstart : isStart c = true) : s.head? = some c := by
  cases s with
  | nil =>
    rw [substituteChars] at h
    cases h
  | cons d s =>
    cases href : reference? (d :: s) with
    | none =>
      rw [substituteChars_of_none href] at h
      exact h
    | some found =>
      obtain ⟨name, rest⟩ := found
      rw [substituteChars_of_some href, List.head?_append_of_ne_nil _ (Decimal.ofInt_ne_nil _)] at h
      have hnumber := Decimal.toNat_of_mem_ofInt (List.mem_of_mem_head? h)
      have hname := toNat_of_isStart hstart
      omega

theorem references_substituteChars (value : String → Int32) (s : List Char) :
    references (substituteChars value s) = 0 := by
  fun_induction substituteChars value s with
  | case1 => rfl
  | case2 c s name rest href ih =>
    rw [references_append_of_plain (dollar_not_mem_ofInt _), ih]
  | case3 c s href ih =>
    have hnone : reference? (c :: substituteChars value s) = none := by
      rw [reference?_eq_none_iff] at href ⊢
      rintro ⟨d, t, heq, hstart⟩
      obtain ⟨rfl, htail⟩ := List.cons.inj heq
      have hhead := head?_of_substituteChars (by rw [htail]; rfl) hstart
      obtain ⟨rest, rfl⟩ := List.head?_eq_some_iff.mp hhead
      exact href ⟨d, rest, rfl, hstart⟩
    simp [references, hnone, ih]

/-- Substitution writes every reference out and keeps all else, and leaves no reference behind: a
second substitution changes nothing, whatever the variables are by then. -/
theorem substitute_writes_out (value : String → Int32) (s : String) :
    (∀ out : String, WrittenOut value s.toList out.toList ↔ out = substitute value s) ∧
      (¬ ∃ t, t <:+ (substitute value s).toList ∧ BeginsReference t) ∧
      ∀ later, substitute later (substitute value s) = substitute value s := by
  have hchars : (substitute value s).toList = substituteChars value s.toList :=
    String.toList_ofList
  have hnone : references (substitute value s).toList = 0 := by
    rw [hchars]
    exact references_substituteChars value s.toList
  refine ⟨fun out => ?_, references_eq_zero_iff.mp hnone, fun later => ?_⟩
  · rw [writtenOut_iff, ← hchars]
    exact String.toList_inj
  · exact substitute_of_references later hnone

example : substitute (fun name => if name = "a" then -5 else 7) "$$a$b1, $5 $a-$é" =
    "$-57, $5 -5-$é" := by cbv

end Variable

end Cutscene
