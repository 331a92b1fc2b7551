import Cutscene.Proofs.Numerals

/-! Conditions taken apart. The operators begin with one another, and any of their signs may stand
in the text around them; what is split off is the operator that begins first, and of two that begin
there the longer one. What a condition says is then told by its operator and the values of its two
sides alone. -/

namespace Cutscene

namespace Comparison

def opposite : Comparison → Comparison
  | .equal => .notEqual
  | .notEqual => .equal
  | .greaterOrEqual => .less
  | .lessOrEqual => .greater
  | .greater => .lessOrEqual
  | .less => .greaterOrEqual

/-- The comparison that says the same with its operands in the other order. -/
def mirrored : Comparison → Comparison
  | .equal => .equal
  | .notEqual => .notEqual
  | .greaterOrEqual => .lessOrEqual
  | .lessOrEqual => .greaterOrEqual
  | .greater => .less
  | .less => .greater

def relation : Comparison → Int → Int → Prop
  | .equal => (· = ·)
  | .notEqual => (· ≠ ·)
  | .greaterOrEqual => (· ≥ ·)
  | .lessOrEqual => (· ≤ ·)
  | .greater => (· > ·)
  | .less => (· < ·)

theorem holds_iff (op : Comparison) (m n : Int32) :
    op.holds m n = true ↔ op.relation m.toInt n.toInt := by
  cases op <;>
    simp [holds, relation, Int32.toInt_inj, Int32.le_iff_toInt_le, Int32.lt_iff_toInt_lt]

theorem holds_opposite (op : Comparison) (m n : Int32) :
    op.opposite.holds m n = !op.holds m n := by
  rw [Bool.eq_iff_iff, Bool.not_eq_true', ← Bool.not_eq_true, holds_iff, holds_iff]
  cases op <;> simp only [opposite, relation] <;> omega

theorem holds_mirrored (op : Comparison) (m n : Int32) : op.mirrored.holds n m = op.holds m n := by
  rw [Bool.eq_iff_iff, holds_iff, holds_iff]
  cases op <;> simp only [mirrored, relation] <;> omega

end Comparison

namespace Condition

variable {value : String → Int32} {s left token right : List Char}

/-- What an operator, as it is written, says of two integers. -/
inductive Says : List Char → (Int → Int → Prop) → Prop where
  | equal : Says ['=', '='] (· = ·)
  | notEqual : Says ['!', '='] (· ≠ ·)
  | lessOrGreater : Says ['<', '>'] (· ≠ ·)
  | greaterOrEqual : Says ['>', '='] (· ≥ ·)
  | lessOrEqual : Says ['<', '='] (· ≤ ·)
  | muchGreater : Says ['>', '>'] (· > ·)
  | muchLess : Says ['<', '<'] (· < ·)
  | greater : Says ['>'] (· > ·)
  | less : Says ['<'] (· < ·)

def IsOperator (token : List Char) : Prop := ∃ R, Says token R

/-- The first place of a text at which an operator begins, and the longest one that begins there. -/
structure SplitsAt (s left token right : List Char) : Prop where
  whole : s = left ++ (token ++ right)
  operator : IsOperator token
  longest : ∀ t, IsOperator t → t <+: token ++ right → t.length ≤ token.length
  leftmost : ∀ l t, IsOperator t → l ++ t <+: s → left.length ≤ l.length

/-- The value of one side of a comparison, given without the blanks around it. -/
inductive AmountsTo (value : String → Int32) : List Char → Int32 → Prop where
  | named {name : List Char} (hname : Variable.isName name = true) :
      AmountsTo value ('$' :: name) (value (String.ofList name))
  | literal {s : List Char} {n : Int32} (h : Decimal.Denotes s n.toInt) : AmountsTo value s n
  | other {s : List Char} (hvariable : ∀ name, s = '$' :: name → Variable.isName name = false)
      (hliteral : ¬ ∃ n : Int32, Decimal.Denotes s n.toInt) : AmountsTo value s 0

/-- What comes of a condition, given without the blanks around it. -/
inductive Evaluates (value : String → Int32) (s : List Char) : Except Cause Bool → Prop where
  | empty (h : s = []) : Evaluates value s (.error .conditionEmpty)
  | bare {n : Int32} (hfull : s ≠ []) (hnone : ∀ t, IsOperator t → ¬ t <:+: s)
      (h : AmountsTo value s n) : Evaluates value s (.ok (n != 0))
  | missing {left token right : List Char} (hsplit : SplitsAt s left token right)
      (h : Text.trim left = [] ∨ Text.trim right = []) :
      Evaluates value s (.error (.operandMissing (String.ofList s)))
  | compared {left token right : List Char} {R : Int → Int → Prop} {m n : Int32} {b : Bool}
      (hsplit : SplitsAt s left token right) (hleft : Text.trim left ≠ [])
      (hright : Text.trim right ≠ []) (hmeaning : Says token R)
      (hm : AmountsTo value (Text.trim left) m) (hn : AmountsTo value (Text.trim right) n)
      (hb : b = true ↔ R m.toInt n.toInt) :
      Evaluates value s (.ok b)

theorem mem_tokens_iff : token ∈ tokens ↔ IsOperator token := by
  constructor
  · intro h
    simp only [tokens, List.mem_cons, List.not_mem_nil, or_false] at h
    rcases h with rfl | rfl | rfl | rfl | rfl | rfl | rfl | rfl | rfl
    · exact ⟨_, .equal⟩
    · exact ⟨_, .notEqual⟩
    · exact ⟨_, .lessOrGreater⟩
    · exact ⟨_, .greaterOrEqual⟩
    · exact ⟨_, .lessOrEqual⟩
    · exact ⟨_, .muchGreater⟩
    · exact ⟨_, .muchLess⟩
    · exact ⟨_, .greater⟩
    · exact ⟨_, .less⟩
  · rintro ⟨R, h⟩
    cases h <;> decide

/-- Every operator that is split off is one that can be told. -/
theorem Says.ofToken? {R : Int → Int → Prop} (h : Says token R) :
    ∃ op, Comparison.ofToken? token = some op ∧ op.relation = R := by
  cases h with
  | equal => exact ⟨.equal, rfl, rfl⟩
  | notEqual => exact ⟨.notEqual, rfl, rfl⟩
  | lessOrGreater => exact ⟨.notEqual, rfl, rfl⟩
  | greaterOrEqual => exact ⟨.greaterOrEqual, rfl, rfl⟩
  | lessOrEqual => exact ⟨.lessOrEqual, rfl, rfl⟩
  | muchGreater => exact ⟨.greater, rfl, rfl⟩
  | muchLess => exact ⟨.less, rfl, rfl⟩
  | greater => exact ⟨.greater, rfl, rfl⟩
  | less => exact ⟨.less, rfl, rfl⟩

theorem IsOperator.ne_nil (h : IsOperator token) : token ≠ [] := by
  obtain ⟨R, h⟩ := h
  cases h <;> simp

theorem find?_tokens_eq_some_iff : tokens.find? (·.isPrefixOf s) = some token ↔
    IsOperator token ∧ token <+: s ∧ ∀ t, IsOperator t → t <+: s → t.length ≤ token.length := by
  have hordered : tokens.Pairwise fun a b => b.length ≤ a.length := by decide
  have hlongest : ∀ found, tokens.find? (·.isPrefixOf s) = some found →
      IsOperator found ∧ found <+: s ∧ ∀ t, IsOperator t → t <+: s → t.length ≤ found.length := by
    intro found hfound
    obtain ⟨hstarts, before, behind, htokens, hearlier⟩ := List.find?_eq_some_iff_append.mp hfound
    rw [htokens, List.pairwise_append, List.pairwise_cons] at hordered
    refine ⟨mem_tokens_iff.mp (List.mem_of_find?_eq_some hfound),
      List.isPrefixOf_iff_prefix.mp hstarts, fun t ht hprefix => ?_⟩
    have hmem := mem_tokens_iff.mpr ht
    rw [htokens, List.mem_append, List.mem_cons] at hmem
    rcases hmem with hmem | rfl | hmem
    · have hnot := hearlier t hmem
      rw [List.isPrefixOf_iff_prefix.mpr hprefix] at hnot
      cases hnot
    · exact Nat.le_refl _
    · exact hordered.2.1.1 t hmem
  constructor
  · exact hlongest token
  · rintro ⟨hoperator, hprefix, hmax⟩
    cases hfind : tokens.find? (·.isPrefixOf s) with
    | none =>
      have hnot := List.find?_eq_none.mp hfind token (mem_tokens_iff.mpr hoperator)
      exact absurd (List.isPrefixOf_iff_prefix.mpr hprefix) hnot
    | some found =>
      obtain ⟨hfound, hfront, hbest⟩ := hlongest found hfind
      have hlength : found.length = token.length :=
        Nat.le_antisymm (hmax found hfound hfront) (hbest token hoperator hprefix)
      rw [(List.prefix_of_prefix_length_le hfront hprefix hlength.le).eq_of_length hlength]

theorem tokenAt?_eq_some_iff : tokenAt? s = some (token, right) ↔
    s = token ++ right ∧ IsOperator token ∧
      ∀ t, IsOperator t → t <+: s → t.length ≤ token.length := by
  rw [tokenAt?, Option.map_eq_some_iff]
  constructor
  · rintro ⟨found, hfound, heq⟩
    obtain ⟨rfl, rfl⟩ := Prod.mk.inj heq
    obtain ⟨hoperator, hprefix, hmax⟩ := find?_tokens_eq_some_iff.mp hfound
    exact ⟨(List.prefix_iff_eq_append.mp hprefix).symm, hoperator, hmax⟩
  · rintro ⟨rfl, hoperator, hmax⟩
    refine ⟨token, find?_tokens_eq_some_iff.mpr ⟨hoperator, List.prefix_append _ _, hmax⟩, ?_⟩
    rw [List.drop_left]

theorem tokenAt?_eq_none_iff : tokenAt? s = none ↔ ∀ t, IsOperator t → ¬ t <+: s := by
  simp only [tokenAt?, Option.map_eq_none_iff, List.find?_eq_none, mem_tokens_iff,
    List.isPrefixOf_iff_prefix]

theorem split?_eq_some_iff :
    split? s = some (left, token, right) ↔ SplitsAt s left token right := by
  -- on the text: an operator at its very beginning is the leftmost one
  induction s generalizing left with
  | nil =>
    refine iff_of_false (by simp [split?]) fun h => ?_
    have hnil := h.whole
    rw [eq_comm, List.append_eq_nil_iff, List.append_eq_nil_iff] at hnil
    exact h.operator.ne_nil hnil.2.1
  | cons c s ih =>
    rw [split?]
    cases hat : tokenAt? (c :: s) with
    | some found =>
      obtain ⟨t, r⟩ := found
      obtain ⟨hwhole, hoperator, hmax⟩ := tokenAt?_eq_some_iff.mp hat
      constructor
      · intro h
        obtain ⟨rfl, rfl, rfl⟩ : [] = left ∧ t = token ∧ r = right := by simpa using h
        exact ⟨hwhole, hoperator, hwhole ▸ hmax, fun _ _ _ _ => Nat.zero_le _⟩
      · intro h
        have hfirst := h.leftmost [] t hoperator ⟨r, hwhole.symm⟩
        obtain rfl := List.eq_nil_of_length_eq_zero (Nat.le_zero.mp hfirst)
        have hsplit : c :: s = token ++ right := h.whole
        have hsame := tokenAt?_eq_some_iff.mpr
          ⟨hsplit, h.operator, fun t' ht' hprefix => h.longest t' ht' (hsplit ▸ hprefix)⟩
        rw [hat, Option.some.injEq, Prod.mk.injEq] at hsame
        rw [hsame.1, hsame.2]
    | none =>
      have hnone := tokenAt?_eq_none_iff.mp hat
      simp only [Option.map_eq_some_iff, Prod.exists, Prod.mk.injEq]
      constructor
      · rintro ⟨l, t, r, hsplit, rfl, rfl, rfl⟩
        have h := ih.mp hsplit
        refine ⟨by rw [h.whole, List.cons_append], h.operator, h.longest, fun l' t' ht' hprefix => ?_⟩
        cases l' with
        | nil => exact absurd hprefix (hnone t' ht')
        | cons d l' =>
          have hrest := (List.cons_prefix_cons.mp hprefix).2
          exact Nat.succ_le_succ (h.leftmost l' t' ht' hrest)
      · intro h
        cases left with
        | nil => exact absurd ⟨right, h.whole.symm⟩ (hnone token h.operator)
        | cons d l =>
          obtain ⟨rfl, hrest⟩ := List.cons.inj h.whole
          refine ⟨l, token, right, ih.mpr ⟨hrest, h.operator, h.longest, ?_⟩, rfl, rfl, rfl⟩
          intro l' t' ht' hprefix
          have hle := h.leftmost (c :: l') t' ht' (List.cons_prefix_cons.mpr ⟨rfl, hprefix⟩)
          exact Nat.le_of_succ_le_succ hle

theorem split?_eq_none_iff : split? s = none ↔ ∀ t, IsOperator t → ¬ t <:+: s := by
  induction s with
  | nil =>
    refine iff_of_true rfl fun t ht hinfix => ?_
    exact ht.ne_nil (List.infix_nil.mp hinfix)
  | cons c s ih =>
    simp only [List.infix_cons_iff, not_or, imp_and, forall_and, ← ih, ← tokenAt?_eq_none_iff]
    rw [split?]
    cases tokenAt? (c :: s) with
    | some found => simp
    | none => simp

theorem denotes_ne_dollar {n : Int} (h : Decimal.Denotes ('$' :: s) n) : False := by
  cases h with
  | unsigned h =>
    have hdigit := h.digits '$' List.mem_cons_self
    cases hdigit

theorem operand_eq_iff {raw : List Char} {n : Int32} :
    operand value raw = n ↔ AmountsTo value (Text.trim raw) n := by
  cases hname : Variable.nameChars? raw with
  | some name =>
    obtain ⟨htrim, hvalid⟩ := Variable.nameChars?_eq_some_iff.mp hname
    simp only [operand, hname, htrim]
    constructor
    · rintro rfl
      exact .named hvalid
    · intro h
      cases h with
      | named => rfl
      | literal h => exact (denotes_ne_dollar h).elim
      | other hvariable =>
        rw [hvariable name rfl] at hvalid
        cases hvalid
  | none =>
    have hnot : ∀ name, Text.trim raw = '$' :: name → Variable.isName name = false := by
      intro name htrim
      rw [Bool.eq_false_iff]
      intro hvalid
      rw [Variable.nameChars?_eq_some_iff.mpr ⟨htrim, hvalid⟩] at hname
      cases hname
    rw [Variable.operand_of_unnamed value hname]
    constructor
    · rintro (h | ⟨rfl, h⟩)
      · exact .literal h
      · exact .other hnot h
    · intro h
      generalize hs : Text.trim raw = s at h hnot
      cases h with
      | named hvalid =>
        rw [hnot _ rfl] at hvalid
        cases hvalid
      | literal h => exact Or.inl h
      | other _ h => exact Or.inr ⟨rfl, h⟩

theorem amountsTo_operand (value : String → Int32) (raw : List Char) :
    AmountsTo value (Text.trim raw) (operand value raw) :=
  operand_eq_iff.mp rfl

theorem break_not_mem_trim {raw : List Char} (hline : '\n' ∉ raw) :
    (Text.trim raw).contains '\n' = false := by
  rw [List.contains_eq_mem, decide_eq_false_iff_not]
  exact fun hmem => hline (Text.trim_subset raw hmem)

theorem evaluates_evaluateChars {raw : List Char} (hline : '\n' ∉ raw) :
    Evaluates value (Text.trim raw) (evaluateChars value raw) := by
  have hbare := amountsTo_operand value (Text.trim raw)
  rw [(Text.isTrimmed_trim raw).trim_eq] at hbare
  simp only [evaluateChars, break_not_mem_trim hline, Bool.false_eq_true, if_false,
    List.isEmpty_iff]
  split
  · next hempty => exact .empty hempty
  · next hfull =>
    split
    · next hnone => exact .bare hfull (split?_eq_none_iff.mp hnone) hbare
    · next left token right hsplit =>
      have hat := split?_eq_some_iff.mp hsplit
      obtain ⟨R, hmeaning⟩ := hat.operator
      obtain ⟨op, hop, rfl⟩ := hmeaning.ofToken?
      simp only [Bool.or_eq_true, List.isEmpty_iff, hop]
      split
      · next hmissing => exact .missing hat hmissing
      · next hboth =>
        obtain ⟨hleft, hright⟩ := not_or.mp hboth
        exact .compared hat hleft hright hmeaning (amountsTo_operand value left)
          (amountsTo_operand value right) (op.holds_iff _ _)

theorem Evaluates.evaluateChars {raw : List Char} {r : Except Cause Bool} (hline : '\n' ∉ raw)
    (h : Evaluates value (Text.trim raw) r) : evaluateChars value raw = r := by
  have htwice := (Text.isTrimmed_trim raw).trim_eq
  simp only [Condition.evaluateChars, break_not_mem_trim hline, Bool.false_eq_true, if_false,
    List.isEmpty_iff]
  generalize Text.trim raw = s at h htwice
  have hfull : ∀ {left token right}, SplitsAt s left token right → s ≠ [] := by
    intro left token right hsplit hnil
    have hwhole := hsplit.whole
    rw [hnil, eq_comm, List.append_eq_nil_iff, List.append_eq_nil_iff] at hwhole
    exact hsplit.operator.ne_nil hwhole.2.1
  cases h with
  | empty hempty => rw [if_pos hempty]
  | bare hnonempty hnone hn =>
    rw [← htwice] at hn
    rw [if_neg hnonempty, split?_eq_none_iff.mpr hnone]
    simp only [operand_eq_iff.mpr hn]
  | missing hsplit hmissing =>
    rw [if_neg (hfull hsplit), split?_eq_some_iff.mpr hsplit]
    simp only [Bool.or_eq_true, List.isEmpty_iff, hmissing, if_true]
  | compared hsplit hleft hright hmeaning hm hn hb =>
    obtain ⟨op, hop, rfl⟩ := hmeaning.ofToken?
    rw [← op.holds_iff, ← Bool.eq_iff_iff] at hb
    rw [if_neg (hfull hsplit), split?_eq_some_iff.mpr hsplit]
    simp only [Bool.or_eq_true, List.isEmpty_iff, hleft, hright, or_self, if_false, hop,
      operand_eq_iff.mpr hm, operand_eq_iff.mpr hn, hb]

/-- A condition fails with the error of that code. -/
def Fails (value : String → Int32) (condition code : String) : Prop :=
  ∃ cause, evaluate value condition = .error cause ∧ cause.code = code

/-- A condition means what its first and longest operator makes of its two sides, or what it is
itself worth where there is none; nothing but a blank condition and a blank side is refused, and no
operator is unknown. Each comparison has its opposite and its mirror image. -/
theorem evaluate_leftmost_longest (value : String → Int32) {condition : String}
    (hline : '\n' ∉ condition.toList) :
    (∀ r, evaluate value condition = r ↔ Evaluates value (Text.trim condition.toList) r) ∧
      (Fails value condition "CONDITION_EMPTY" ↔ Text.trim condition.toList = []) ∧
      (Fails value condition "CONDITION_OPERAND_MISSING" ↔ ∃ left token right,
        SplitsAt (Text.trim condition.toList) left token right ∧
          (Text.trim left = [] ∨ Text.trim right = [])) ∧
      ¬ Fails value condition "CONDITION_OPERATOR" ∧
      ∀ (op : Comparison) (m n : Int32),
        op.opposite.holds m n = !op.holds m n ∧ op.mirrored.holds n m = op.holds m n := by
  have hrules : ∀ r, evaluate value condition = r ↔
      Evaluates value (Text.trim condition.toList) r := by
    intro r
    constructor
    · rintro rfl
      exact evaluates_evaluateChars hline
    · exact Evaluates.evaluateChars hline
  refine ⟨hrules, ?_, ?_, ?_, fun op m n => ⟨op.holds_opposite m n, op.holds_mirrored m n⟩⟩
  · constructor
    · rintro ⟨cause, herror, hcode⟩
      cases (hrules _).mp herror with
      | empty h => exact h
      | missing => simp [Cause.code] at hcode
    · intro hempty
      exact ⟨_, (hrules _).mpr (.empty hempty), rfl⟩
  · constructor
    · rintro ⟨cause, herror, hcode⟩
      cases (hrules _).mp herror with
      | empty => simp [Cause.code] at hcode
      | missing hsplit h => exact ⟨_, _, _, hsplit, h⟩
    · rintro ⟨left, token, right, hsplit, h⟩
      exact ⟨_, (hrules _).mpr (.missing hsplit h), rfl⟩
  · rintro ⟨cause, herror, hcode⟩
    cases (hrules _).mp herror with
    | empty => simp [Cause.code] at hcode
    | missing => simp [Cause.code] at hcode

end Condition

namespace Rehearsal

/-- The longer one of the operators that begin first leaves a sign over, and so a side that is no
number. -/
theorem crowded_signs_compared : '\n' ∉ " $a<>=3".toList ∧
    Condition.SplitsAt (Text.trim " $a<>=3".toList) ['$', 'a'] ['<', '>'] ['=', '3'] ∧
    Condition.evaluate (fun _ => 5) " $a<>=3" = .ok true ∧
    ¬ Condition.Fails (fun _ => 5) " $a<>=3" "CONDITION_OPERATOR" := by
  have hline : '\n' ∉ " $a<>=3".toList := by decide
  have hsplit : Condition.SplitsAt (Text.trim " $a<>=3".toList) ['$', 'a'] ['<', '>'] ['=', '3'] :=
    Condition.split?_eq_some_iff.mp (by decide)
  have hleft : Condition.AmountsTo (fun _ => 5) (Text.trim ['$', 'a']) 5 :=
    Condition.operand_eq_iff.mp (by decide)
  have hright : Condition.AmountsTo (fun _ => 5) (Text.trim ['=', '3']) 0 :=
    Condition.operand_eq_iff.mp (by decide)
  obtain ⟨hrules, -, -, hknown, -⟩ := Condition.evaluate_leftmost_longest (fun _ => 5) hline
  have htrue := (hrules (.ok true)).mpr
    (.compared hsplit (by decide) (by decide) .lessOrGreater hleft hright (by decide))
  exact ⟨hline, hsplit, htrue, hknown⟩

end Rehearsal

end Cutscene
