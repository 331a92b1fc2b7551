import Cutscene.Label
import Cutscene.Proofs.Lowering
import Cutscene.Variable

/-! References in a text. Writing the variables out takes one dollar sign away for each reference,
and the normal form of a label keeps them all. So a label is still the same one after its variables
are written out exactly if it refers to none. -/

namespace Cutscene

namespace Decimal

theorem toNat_of_mem_digits {n : Nat} {c : Char} (h : c ∈ digits n) :
    48 ≤ c.toNat ∧ c.toNat ≤ 57 :=
  Text.toNat_of_isDigit (Nat.isDigit_of_mem_toDigits (by decide) (by decide) h)

theorem toNat_of_mem_ofInt {n : Int} {c : Char} (h : c ∈ ofInt n) :
    45 ≤ c.toNat ∧ c.toNat ≤ 57 := by
  have hdigit : ∀ m, c ∈ digits m → 45 ≤ c.toNat ∧ c.toNat ≤ 57 := by
    intro m hc
    have hbounds := toNat_of_mem_digits hc
    omega
  cases n with
  | ofNat m => exact hdigit m h
  | negSucc m =>
    rcases List.mem_cons.mp h with rfl | h
    · decide
    · exact hdigit (m + 1) h

end Decimal

namespace Variable

/-- How many places of a text begin a reference. -/
def references : List Char → Nat
  | [] => 0
  | c :: s => (if (reference? (c :: s)).isSome then 1 else 0) + references s

variable {s name rest : List Char}

theorem reference?_eq_some (h : reference? s = some (name, rest)) :
    s = '$' :: (name ++ rest) ∧ '$' ∉ name := by
  unfold reference? at h
  split at h
  · next c t =>
    split at h
    · next hstart =>
      obtain ⟨rfl, rfl⟩ := Prod.mk.inj (Option.some.inj h)
      refine ⟨by simp [List.takeWhile_append_dropWhile], fun hdollar => ?_⟩
      rcases List.mem_cons.mp hdollar with rfl | hpart
      · cases hstart
      · cases List.mem_takeWhile_imp hpart
    · cases h
  · cases h

theorem reference?_of_ne {c : Char} (h : c ≠ '$') : reference? (c :: s) = none := by
  unfold reference?
  split
  · next heq => exact absurd (List.cons.inj heq).1 h
  · rfl

theorem references_append_of_plain (h : '$' ∉ name) :
    references (name ++ rest) = references rest := by
  induction name with
  | nil => rfl
  | cons c name ih =>
    obtain ⟨hc, hname⟩ := not_or.mp (mt List.mem_cons.mpr h)
    simp [references, reference?_of_ne (Ne.symm hc), ih hname]

theorem references_of_plain (h : '$' ∉ s) : references s = 0 := by
  have happend : references (s ++ []) = references [] := references_append_of_plain h
  rwa [List.append_nil] at happend

theorem dollar_not_mem_ofInt (n : Int) : '$' ∉ Decimal.ofInt n := by
  intro hdollar
  exact absurd (Decimal.toNat_of_mem_ofInt hdollar).1 (by decide)

/-- Every reference that is written out is one dollar sign less. -/
theorem count_substituteChars (value : String → Int32) (s : List Char) :
    (substituteChars value s).count '$' + references s = s.count '$' := by
  fun_induction substituteChars value s with
  | case1 => rfl
  | case2 c s name rest href ih =>
    -- one dollar sign goes, and none stands in the name or in the number put for it
    obtain ⟨hsplit, hname⟩ := reference?_eq_some href
    obtain ⟨rfl, rfl⟩ := List.cons.inj hsplit
    have hwritten := List.count_eq_zero.mpr
      (dollar_not_mem_ofInt (value (String.ofList name)).toInt)
    have hplain := List.count_eq_zero.mpr hname
    simp only [references, href, references_append_of_plain hname, List.count_append,
      List.count_cons_self, Option.isSome_some, if_true, hwritten, hplain]
    omega
  | case3 c s href ih =>
    simp only [references, href, List.count_cons, Option.isSome_none, Bool.false_eq_true, if_false]
    omega

theorem substituteChars_of_references (value : String → Int32) (h : references s = 0) :
    substituteChars value s = s := by
  fun_induction substituteChars value s with
  | case1 => rfl
  | case2 c s name rest href ih => simp [references, href] at h
  | case3 c s href ih =>
    have hrest : references s = 0 := by simpa [references, href] using h
    rw [ih hrest]

/-- A text without a reference is the same whatever the variables are. -/
theorem substitute_of_references (value : String → Int32) {s : String}
    (h : references s.toList = 0) : substitute value s = s := by
  rw [substitute, Text.onChars, substituteChars_of_references value h, String.ofList_toList]

theorem substitute_of_plain (value : String → Int32) {s : String} (h : '$' ∉ s.toList) :
    substitute value s = s :=
  substitute_of_references value (references_of_plain h)

end Variable

namespace Text

variable {c : Char}

theorem count_dropFront {d : Char} (h : d ≠ c) (s : List Char) :
    (dropFront d s).count c = s.count c := by
  cases s with
  | nil => rfl
  | cons x s =>
    by_cases hx : x = d
    · subst hx
      simp [dropFront, List.count_cons_of_ne h]
    · simp [dropFront, hx]

theorem count_dropBack {d : Char} (h : d ≠ c) (s : List Char) :
    (dropBack d s).count c = s.count c := by
  rw [dropBack, List.count_reverse, count_dropFront h, List.count_reverse]

end Text

namespace Label

theorem count_normalizeChars (raw : List Char) :
    (normalizeChars raw).count '$' = raw.count '$' := by
  have hblank : Text.isBlank '$' = false := by decide
  have hsign : Text.IsSign '$' := ⟨by decide, by decide⟩
  have hends : ∀ name : List Char, ('@' :: name ++ [':']).count '$' = name.count '$' := by
    intro name
    simp
  rw [normalizeChars, hends, Text.lower, Text.count_lowerFrom hsign, Text.count_trim hblank,
    Text.count_dropBack (by decide), Text.count_dropFront (by decide), Text.count_trim hblank]

/-- Writing the variables of a label out makes another label of it, unless there are none. -/
theorem normalize_substitute_iff {value : String → Int32} {label : String} :
    normalize (Variable.substitute value label) = normalize label ↔
      Variable.references label.toList = 0 := by
  constructor
  · intro heq
    have hchars := congrArg String.toList heq
    simp only [normalize, Variable.substitute, Text.onChars, String.toList_ofList] at hchars
    have hcount := congrArg (List.count '$') hchars
    rw [count_normalizeChars, count_normalizeChars] at hcount
    have hfewer := Variable.count_substituteChars value label.toList
    omega
  · intro hnone
    rw [Variable.substitute_of_references value hnone]

theorem normalize_trim (label : String) :
    normalize (Text.onChars Text.trim label) = normalize label := by
  have htwice := (Text.isTrimmed_trim label.toList).trim_eq
  simp only [normalize, Text.onChars, normalizeChars, String.toList_ofList, htwice]

end Label

end Cutscene
