import Cutscene.Condition
import Cutscene.Proofs.Substituting
import Mathlib.Data.Nat.Digits.Defs

/-! Integers in script text. A literal is at most one sign and then decimal digits, and a value
written out is a literal that is read as this value. Operands of conditions are read so; parameters
may have one plus sign more, and that is all in which the two differ. -/

namespace Cutscene

namespace Decimal

variable {s : List Char}

/-- A text of ASCII digits, at least one, and the number for which they stand. -/
structure IsNumeral (s : List Char) (n : Nat) : Prop where
  nonempty : s ≠ []
  digits : ∀ c ∈ s, c.isDigit = true
  value : Nat.ofDigits 10 (s.reverse.map fun c => c.toNat - '0'.toNat) = n

/-- At most one sign and then digits. -/
inductive Denotes : List Char → Int → Prop where
  | unsigned {s : List Char} {n : Nat} (h : IsNumeral s n) : Denotes s n
  | plus {s : List Char} {n : Nat} (h : IsNumeral s n) : Denotes ('+' :: s) n
  | minus {s : List Char} {n : Nat} (h : IsNumeral s n) : Denotes ('-' :: s) (-n)

/-- A plus sign in front of a literal that has a sign already. -/
def DoublySigned (s : List Char) (n : Int) : Prop :=
  ∃ sign rest, s = '+' :: sign :: rest ∧ (sign = '+' ∨ sign = '-') ∧ Denotes (sign :: rest) n

theorem foldl_digits (s : List Char) : s.foldl (fun n c => n * 10 + (c.toNat - '0'.toNat)) 0 =
    Nat.ofDigits 10 (s.reverse.map fun c => c.toNat - '0'.toNat) := by
  induction s using List.reverseRecOn with
  | nil => rfl
  | append_singleton s c ih =>
    rw [List.foldl_concat, ih, List.reverse_concat, List.map_cons, Nat.ofDigits_cons]
    omega

theorem natural?_eq_some_iff {n : Nat} : natural? s = some n ↔ IsNumeral s n := by
  unfold natural?
  split
  · next hnot =>
    refine iff_of_false (by simp) fun h => ?_
    have hdigits : s.all Char.isDigit = true := List.all_eq_true.mpr h.digits
    simp [hdigits, h.nonempty] at hnot
  · next hall =>
    simp only [Bool.or_eq_true, not_or, List.isEmpty_iff, Bool.not_eq_true',
      Bool.not_eq_false, List.all_eq_true] at hall
    rw [foldl_digits, Option.some.injEq]
    constructor
    · intro hvalue
      exact ⟨hall.1, hall.2, hvalue⟩
    · exact IsNumeral.value

theorem IsNumeral.not_sign {c : Char} {n : Nat} (h : IsNumeral (c :: s) n) : c ≠ '+' ∧ c ≠ '-' := by
  have hdigit := h.digits c List.mem_cons_self
  constructor
  · rintro rfl
    cases hdigit
  · rintro rfl
    cases hdigit

theorem integer?_eq_some_iff {n : Int} : integer? s = some n ↔ Denotes s n := by
  have hread : ∀ t m, (natural? t).map Int.ofNat = some m → ∃ k, IsNumeral t k ∧ (k : Int) = m := by
    intro t m h
    obtain ⟨k, hk, hkm⟩ := Option.map_eq_some_iff.mp h
    exact ⟨k, natural?_eq_some_iff.mp hk, hkm⟩
  constructor
  · intro h
    unfold integer? at h
    split at h
    · obtain ⟨k, hk, rfl⟩ := hread _ _ h
      exact .plus hk
    · obtain ⟨k, hk, rfl⟩ := Option.map_eq_some_iff.mp h
      exact .minus (natural?_eq_some_iff.mp hk)
    · obtain ⟨k, hk, rfl⟩ := hread _ _ h
      exact .unsigned hk
  · intro h
    cases h with
    | unsigned h =>
      have hnat := natural?_eq_some_iff.mpr h
      unfold integer?
      split
      · exact absurd rfl h.not_sign.1
      · exact absurd rfl h.not_sign.2
      · rw [hnat]
        rfl
    | plus h =>
      rw [integer?, natural?_eq_some_iff.mpr h]
      rfl
    | minus h =>
      rw [integer?, natural?_eq_some_iff.mpr h]
      rfl

/-- A script integer is read exactly of the literals that are one. -/
theorem word?_eq_some_iff {n : Int32} : word? s = some n ↔ Denotes s n.toInt := by
  have hlow := n.le_toInt
  have hhigh := n.toInt_lt
  have hin : Interval.word32.contains n.toInt = true := by
    rw [Interval.contains_iff]
    constructor
    · exact hlow
    · exact Int.le_of_lt_add_one hhigh
  rw [← integer?_eq_some_iff, word?]
  cases hread : integer? s with
  | none => simp
  | some m =>
    simp only [Option.some.injEq]
    constructor
    · intro h
      split at h
      · next hm =>
        obtain rfl := Option.some.inj h
        rw [Interval.contains_iff] at hm
        exact (Int32.toInt_ofInt_of_le hm.1 (Int.lt_add_one_of_le hm.2)).symm
      · cases h
    · rintro rfl
      rw [if_pos hin, Int32.ofInt_toInt]

theorem word?_eq_none_iff : word? s = none ↔ ¬ ∃ n : Int32, Denotes s n.toInt := by
  simp only [← word?_eq_some_iff, ← Option.isSome_iff_exists, Option.not_isSome_iff_eq_none]

theorem DoublySigned.not_denotes {m n : Int} (h : DoublySigned s m) : ¬ Denotes s n := by
  obtain ⟨sign, rest, rfl, hsign, -⟩ := h
  intro hdenotes
  cases hdenotes with
  | unsigned h => exact h.not_sign.1 rfl
  | plus h =>
    rcases hsign with rfl | rfl
    · exact h.not_sign.1 rfl
    · exact h.not_sign.2 rfl

theorem word?_dropFront {n : Int32} : word? (Text.dropFront '+' s) = some n ↔
    Denotes s n.toInt ∨ DoublySigned s n.toInt := by
  rw [word?_eq_some_iff]
  by_cases hplus : s.head? = some '+'
  · obtain ⟨t, rfl⟩ := List.head?_eq_some_iff.mp hplus
    rw [Text.dropFront, if_pos rfl]
    constructor
    · generalize n.toInt = m
      intro h
      cases h with
      | unsigned h => exact Or.inl (.plus h)
      | plus h => exact Or.inr ⟨'+', _, rfl, Or.inl rfl, .plus h⟩
      | minus h => exact Or.inr ⟨'-', _, rfl, Or.inr rfl, .minus h⟩
    · generalize n.toInt = m
      rintro (h | ⟨sign, rest, heq, -, h⟩)
      · cases h with
        | unsigned h => exact absurd rfl h.not_sign.1
        | plus h => exact .unsigned h
      · rwa [(List.cons.inj heq).2]
  · have hkept : Text.dropFront '+' s = s := by
      cases s with
      | nil => rfl
      | cons c s => exact if_neg fun hc => hplus (by rw [hc]; rfl)
    rw [hkept]
    refine ⟨Or.inl, fun h => h.resolve_right ?_⟩
    rintro ⟨sign, rest, rfl, -⟩
    exact hplus rfl

theorem isNumeral_digits (n : Nat) : IsNumeral (digits n) n where
  nonempty := digits_ne_nil n
  digits _ hc := Nat.isDigit_of_mem_toDigits (by decide) (by decide) hc
  value := by
    have hread := Nat.ofDigitChars_ten_toDigits (n := n)
    simp only [Nat.ofDigitChars_eq_foldl, Nat.mul_comm 10] at hread
    rw [← foldl_digits]
    exact hread

theorem denotes_ofInt (n : Int) : Denotes (ofInt n) n := by
  cases n with
  | ofNat m => exact .unsigned (isNumeral_digits m)
  | negSucc m => exact .minus (isNumeral_digits (m + 1))

theorem trim_ofInt (n : Int) : Text.trim (ofInt n) = ofInt n := by
  refine (Text.isTrimmed_of_all fun c hc => ?_).trim_eq
  have hbounds := toNat_of_mem_ofInt hc
  exact Text.isBlank_of_visible (by omega) (by omega)

theorem dropFront_ofInt (n : Int) : Text.dropFront '+' (ofInt n) = ofInt n := by
  cases hn : ofInt n with
  | nil => rfl
  | cons c s =>
    have hbounds := toNat_of_mem_ofInt (hn ▸ List.mem_cons_self : c ∈ ofInt n)
    refine if_neg ?_
    rintro rfl
    exact absurd hbounds.1 (by decide)

end Decimal

namespace Variable

variable {value : String → Int32} {raw name : List Char}

theorem nameChars?_eq_some_iff :
    nameChars? raw = some name ↔ Text.trim raw = '$' :: name ∧ isName name = true := by
  unfold nameChars?
  split
  · next found heq =>
    rw [heq]
    constructor
    · intro h
      split at h
      · next hname =>
        obtain rfl := Option.some.inj h
        exact ⟨rfl, hname⟩
      · cases h
    · rintro ⟨heq', hname⟩
      rw [(List.cons.inj heq').2, if_pos hname]
  · next hnot =>
    refine iff_of_false (by simp) ?_
    rintro ⟨heq, -⟩
    exact hnot name heq

theorem substituteChars_append_of_plain (value : String → Int32) {plain : List Char}
    (h : '$' ∉ plain) (s : List Char) :
    substituteChars value (plain ++ s) = plain ++ substituteChars value s := by
  induction plain with
  | nil => rfl
  | cons c plain ih =>
    simp only [List.mem_cons, not_or] at h
    rw [List.cons_append, substituteChars_of_none (reference?_of_ne (Ne.symm h.1)), ih h.2,
      List.cons_append]

/-- Around a text that is one reference and nothing else there are blanks at most. -/
theorem trim_substituteChars (h : nameChars? raw = some name) :
    Text.trim (substituteChars value raw) = Decimal.ofInt (value (String.ofList name)).toInt := by
  obtain ⟨htrim, hname⟩ := nameChars?_eq_some_iff.mp h
  obtain ⟨front, back, hfront, hback, hraw⟩ := Text.exists_trim raw
  have hplain : ∀ s : List Char, (∀ c ∈ s, Text.isBlank c = true) → '$' ∉ s :=
    fun s hs hmem => absurd (hs _ hmem) (by decide)
  have hmaximal : ∀ c, back.head? = some c → isPart c = false := by
    intro c hc
    rw [Bool.eq_false_iff]
    intro hpart
    have hbounds := toNat_of_isPart hpart
    have hsolid := Text.isBlank_of_visible (c := c) (by omega) (by omega)
    rw [hback c (List.mem_of_mem_head? hc)] at hsolid
    cases hsolid
  have href := reference?_eq_some_iff.mpr ⟨rfl, hname, hmaximal⟩
  have hend := substituteChars_append_of_plain value (hplain back hback) []
  rw [List.append_nil, substituteChars, List.append_nil] at hend
  rw [hraw, htrim, substituteChars_append_of_plain value (hplain front hfront), List.cons_append,
    substituteChars_of_some href, hend, Text.trim_append_left hfront, Text.trim_append_right hback,
    Decimal.trim_ofInt]

theorem integer?_of_name (value : String → Int32) (h : nameChars? raw = some name) :
    integer? value (String.ofList raw) = some (value (String.ofList name)) := by
  rw [integer?, String.toList_ofList, trim_substituteChars h, Decimal.dropFront_ofInt,
    Decimal.word?_eq_some_iff]
  exact Decimal.denotes_ofInt _

theorem nameChars?_of_plain (h : '$' ∉ raw) : nameChars? raw = none := by
  rw [Option.eq_none_iff_forall_ne_some]
  intro name hname
  have htrim := (nameChars?_eq_some_iff.mp hname).1
  refine h (Text.trim_subset raw ?_)
  rw [htrim]
  exact List.mem_cons_self

theorem operand_of_unnamed (value : String → Int32) (h : nameChars? raw = none) (n : Int32) :
    Condition.operand value raw = n ↔ Decimal.Denotes (Text.trim raw) n.toInt ∨
      n = 0 ∧ ¬ ∃ m : Int32, Decimal.Denotes (Text.trim raw) m.toInt := by
  rw [Condition.operand, h, ← Decimal.word?_eq_none_iff, ← Decimal.word?_eq_some_iff]
  cases Decimal.word? (Text.trim raw) with
  | none => simp [eq_comm]
  | some m => simp

section Plain

variable (value) {t : String} (h : '$' ∉ t.toList)

include h

theorem integer?_of_plain (n : Int32) :
    integer? value t = some n ↔ Decimal.Denotes (Text.trim t.toList) n.toInt ∨
      Decimal.DoublySigned (Text.trim t.toList) n.toInt := by
  rw [integer?, substituteChars_of_references value (references_of_plain h), Decimal.word?_dropFront]

theorem operand_of_plain (n : Int32) :
    Condition.operand value t.toList = n ↔ Decimal.Denotes (Text.trim t.toList) n.toInt ∨
      n = 0 ∧ ¬ ∃ m : Int32, Decimal.Denotes (Text.trim t.toList) m.toInt :=
  operand_of_unnamed value (nameChars?_of_plain h) n

theorem reads_literals_iff :
    (∀ n, integer? value t = some n ↔ Decimal.Denotes (Text.trim t.toList) n.toInt) ↔
      ¬ ∃ n : Int32, Decimal.DoublySigned (Text.trim t.toList) n.toInt := by
  have hparameter := integer?_of_plain value h
  constructor
  · rintro hsame ⟨n, hn⟩
    exact hn.not_denotes ((hsame n).mp ((hparameter n).mpr (Or.inr hn)))
  · intro hnone n
    rw [hparameter]
    exact or_iff_left fun hn => hnone ⟨n, hn⟩

theorem operand_eq_parameter_iff :
    Condition.operand value t.toList = (integer? value t).getD 0 ↔
      ¬ ∃ n : Int32, n ≠ 0 ∧ Decimal.DoublySigned (Text.trim t.toList) n.toInt := by
  have hparameter := integer?_of_plain value h
  rw [operand_of_plain value h]
  cases hread : integer? value t with
  | none =>
    -- neither a literal nor one with a second sign
    have hnot : ∀ n : Int32, ¬ (Decimal.Denotes (Text.trim t.toList) n.toInt ∨
        Decimal.DoublySigned (Text.trim t.toList) n.toInt) := by
      intro n hn
      rw [← hparameter, hread] at hn
      cases hn
    refine iff_of_true (Or.inr ⟨rfl, ?_⟩) ?_
    · rintro ⟨m, hm⟩
      exact hnot m (Or.inl hm)
    · rintro ⟨m, -, hm⟩
      exact hnot m (Or.inr hm)
  | some n =>
    rw [Option.getD_some]
    rcases (hparameter n).mp hread with hliteral | hsigned
    · refine iff_of_true (Or.inl hliteral) ?_
      rintro ⟨m, -, hm⟩
      exact hm.not_denotes hliteral
    · have hunread : ¬ ∃ m : Int32, Decimal.Denotes (Text.trim t.toList) m.toInt := by
        rintro ⟨m, hm⟩
        exact hsigned.not_denotes hm
      constructor
      · rintro (hliteral | ⟨rfl, -⟩)
        · exact absurd hliteral hsigned.not_denotes
        · rintro ⟨m, hm, hother⟩
          have hsame := (hparameter m).mpr (Or.inr hother)
          rw [hread] at hsame
          exact hm (Option.some.inj hsame).symm
      · intro hzero
        refine Or.inr ⟨?_, hunread⟩
        by_contra hne
        exact hzero ⟨n, hne, hsigned⟩

end Plain

/-- A parameter and an operand of a condition stand for the same integers, that of a literal and
that of a variable, but for a literal with a second sign: a parameter takes a plus sign in front of
it for nothing, and to an operand it is no literal. -/
theorem parameter_and_operand_agree (value : String → Int32) :
    (∀ t : String, '$' ∉ t.toList →
      let s := Text.trim t.toList
      (∀ n, integer? value t = some n ↔
        Decimal.Denotes s n.toInt ∨ Decimal.DoublySigned s n.toInt) ∧
      (∀ n, Condition.operand value t.toList = n ↔
        Decimal.Denotes s n.toInt ∨ n = 0 ∧ ¬ ∃ m : Int32, Decimal.Denotes s m.toInt) ∧
      ((∀ n, integer? value t = some n ↔ Decimal.Denotes s n.toInt) ↔
        ¬ ∃ n : Int32, Decimal.DoublySigned s n.toInt) ∧
      (Condition.operand value t.toList = (integer? value t).getD 0 ↔
        ¬ ∃ n : Int32, n ≠ 0 ∧ Decimal.DoublySigned s n.toInt)) ∧
    ∀ t name : String, Text.trim t.toList = '$' :: name.toList → isName name.toList = true →
      integer? value t = some (value name) ∧ Condition.operand value t.toList = value name := by
  refine ⟨fun t hplain => ?_, fun t name htrim hname => ?_⟩
  · exact ⟨integer?_of_plain value hplain, operand_of_plain value hplain,
      reads_literals_iff value hplain, operand_eq_parameter_iff value hplain⟩
  · have hread := nameChars?_eq_some_iff.mpr ⟨htrim, hname⟩
    have hparameter := integer?_of_name value hread
    rw [String.ofList_toList, String.ofList_toList] at hparameter
    refine ⟨hparameter, ?_⟩
    simp only [Condition.operand, hread, String.ofList_toList]

end Variable

namespace Rehearsal

theorem minus_seven_agrees : '$' ∉ " -07\t".toList ∧
    Text.trim " $b1 ".toList = '$' :: "b1".toList ∧ Variable.isName "b1".toList = true ∧
    Variable.integer? (fun _ => 3) " -07\t" = some (-7) ∧
    Condition.operand (fun _ => 3) " -07\t".toList = -7 ∧
    Variable.integer? (fun _ => 3) " $b1 " = some 3 ∧
    Condition.operand (fun _ => 3) " $b1 ".toList = 3 := by
  have hplain : '$' ∉ " -07\t".toList := by decide
  have htrim : Text.trim " $b1 ".toList = '$' :: "b1".toList := by decide
  have hname : Variable.isName "b1".toList = true := by decide
  obtain ⟨hliterals, hnames⟩ := Variable.parameter_and_operand_agree fun _ => 3
  obtain ⟨hparameter, hoperand, -, -⟩ := hliterals " -07\t" hplain
  obtain ⟨hvariable, hvalue⟩ := hnames " $b1 " "b1" htrim hname
  have hseven : Decimal.Denotes (Text.trim " -07\t".toList) (-7 : Int32).toInt := by
    have hread : Decimal.word? (Text.trim " -07\t".toList) = some (-7) := by decide +kernel
    exact Decimal.word?_eq_some_iff.mp hread
  exact ⟨hplain, htrim, hname, (hparameter _).mpr (Or.inl hseven), (hoperand _).mpr (Or.inl hseven),
    hvariable, hvalue⟩

/-- A minus sign behind a plus sign is no literal, but a parameter takes it for one. -/
theorem second_sign_read_apart : '$' ∉ "+-5".toList ∧
    (¬ ∃ n : Int32, Decimal.Denotes (Text.trim "+-5".toList) n.toInt) ∧
    Variable.integer? (fun _ => 0) "+-5" = some (-5) ∧
    Condition.operand (fun _ => 0) "+-5".toList = 0 := by
  have hplain : '$' ∉ "+-5".toList := by decide
  have hnone : Decimal.word? (Text.trim "+-5".toList) = none := by decide +kernel
  have hread : Decimal.word? (Text.dropFront '+' (Text.trim "+-5".toList)) = some (-5) := by
    decide +kernel
  have hfive : Variable.integer? (fun _ => 0) "+-5" = some (-5) :=
    (Variable.integer?_of_plain _ hplain _).mpr (Decimal.word?_dropFront.mp hread)
  have hzero : Condition.operand (fun _ => 0) "+-5".toList = 0 := by decide +kernel
  exact ⟨hplain, Decimal.word?_eq_none_iff.mp hnone, hfive, hzero⟩

end Rehearsal

end Cutscene
