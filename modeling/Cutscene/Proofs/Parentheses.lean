import Cutscene.Proofs.Result
import Cutscene.Script.Arguments
import Mathlib.Algebra.Ring.Parity
import Mathlib.Data.List.Induction

/-! Parentheses outside quotes. Where a parameter list ends and how many parameters it has can be
told by counting: quotes before a place tell whether it is quoted, and the parentheses before it
that are not quoted tell how deep it lies. Both scanners of a list keep these counts, the one that
looks for its end and the one that looks for its commas. -/

namespace Cutscene.Script

/-- At how many places of a text something holds of what stands before and of what stands there. -/
def places (holds : List Char → Char → Bool) : List Char → Nat
  | [] => 0
  | c :: s => (if holds [] c then 1 else 0) + places (fun p => holds (c :: p)) s

/-- Whether the place behind a text is outside double quotes. -/
def isOutside (p : List Char) : Bool := p.count '"' % 2 = 0

/-- How often a character stands outside quotes. -/
def bareCount (c : Char) : List Char → Nat := places fun p d => d = c && isOutside p

/-- The parentheses opened outside quotes, less those closed there. -/
def balance (s : List Char) : Int := bareCount '(' s - bareCount ')' s

structure Balanced (s : List Char) : Prop where
  nonneg : ∀ p, p <+: s → 0 ≤ balance p
  level : balance s = 0

/-- The commas outside quotes and nested parentheses. -/
def outerCommas : List Char → Nat :=
  places fun p c => c = ',' && isOutside p && balance p = 0

/-- At a place of a text as many parentheses have been closed as were opened. -/
structure ClosesAt (s : List Char) (i : Nat) : Prop where
  paren : s[i]? = some ')'
  outside : isOutside (s.take i) = true
  level : balance (s.take (i + 1)) = 0

/-- The place at which the parenthesis is closed that a text begins with. -/
structure IsClosing (s : List Char) (i : Nat) : Prop where
  closes : ClosesAt s i
  first : ∀ j < i, ¬ClosesAt s j

/-- What a scanner keeps count of, behind a text. -/
def scanned (p : List Char) : Nesting := p.foldl Nesting.after {}

section Counting

variable {holds holds' : List Char → Char → Bool} {c : Char} {p s : List Char}

theorem places_concat (holds : List Char → Char → Bool) (s : List Char) (c : Char) :
    places holds (s ++ [c]) = places holds s + if holds s c then 1 else 0 := by
  induction s generalizing holds with
  | nil => simp [places]
  | cons d s ih => rw [List.cons_append, places, places, ih, Nat.add_assoc]

theorem places_congr (h : ∀ p c, p ++ [c] <+: s → holds p c = holds' p c) :
    places holds s = places holds' s := by
  induction s generalizing holds holds' with
  | nil => rfl
  | cons d s ih =>
    have hfirst : holds [] d = holds' [] d := h [] d ⟨s, rfl⟩
    have hrest : places (fun p => holds (d :: p)) s = places (fun p => holds' (d :: p)) s :=
      ih fun p c hp => h (d :: p) c ((List.prefix_cons_inj d).mpr hp)
    rw [places, places, hfirst, hrest]

theorem isOutside_concat (p : List Char) (c : Char) :
    isOutside (p ++ [c]) = if c = '"' then !isOutside p else isOutside p := by
  by_cases hc : c = '"'
  · subst hc
    have hparity : (p.count '"' + 1) % 2 = 0 ↔ ¬p.count '"' % 2 = 0 := by omega
    rw [if_pos rfl, isOutside, isOutside, List.count_append, List.count_singleton_self,
      ← decide_not]
    exact decide_eq_decide.mpr hparity
  · simp [isOutside, List.count_append, hc]

theorem isOutside_cons (hc : c ≠ '"') (p : List Char) : isOutside (c :: p) = isOutside p := by
  rw [isOutside, isOutside, List.count_cons_of_ne hc]

theorem bareCount_concat (c d : Char) (p : List Char) :
    bareCount c (p ++ [d]) = bareCount c p + if d = c && isOutside p then 1 else 0 :=
  places_concat _ p d

theorem balance_concat_open (h : isOutside p = true) : balance (p ++ ['(']) = balance p + 1 := by
  simp only [balance, bareCount_concat, h]
  simp
  omega

theorem balance_concat_close (h : isOutside p = true) : balance (p ++ [')']) = balance p - 1 := by
  simp only [balance, bareCount_concat, h]
  simp
  omega

theorem balance_concat_other (h : isOutside p = true → c ≠ '(' ∧ c ≠ ')') :
    balance (p ++ [c]) = balance p := by
  simp only [balance, bareCount_concat]
  cases houtside : isOutside p with
  | false => simp
  | true => simp [h houtside]

/-- A parenthesis in front of a text opens one more. -/
theorem balance_cons_open (p : List Char) : balance ('(' :: p) = balance p + 1 := by
  induction p using List.reverseRecOn with
  | nil => rfl
  | append_singleton p c ih =>
    have houtside := isOutside_cons (c := '(') (by decide) p
    rw [← List.cons_append]
    by_cases hbare : isOutside p = true ∧ (c = '(' ∨ c = ')')
    · obtain ⟨hp, rfl | rfl⟩ := hbare
      · rw [balance_concat_open (houtside.trans hp), balance_concat_open hp, ih]
      · rw [balance_concat_close (houtside.trans hp), balance_concat_close hp, ih]
        omega
    · have hother : isOutside p = true → c ≠ '(' ∧ c ≠ ')' := by tauto
      rw [balance_concat_other (houtside ▸ hother), balance_concat_other hother, ih]

end Counting

section Scanning

variable {n : Nesting} {c : Char} {p q s inside rest : List Char} {pieces : List (List Char)}
  {cause : Cause}

theorem scanned_concat (p : List Char) (c : Char) : scanned (p ++ [c]) = (scanned p).after c :=
  List.foldl_append ..

/-- No parenthesis is closed that was not opened. -/
def Unclosed (s : List Char) : Prop :=
  ∀ p, p ++ [')'] <+: s → ¬(isOutside p = true ∧ balance p = 0)

theorem Unclosed.of_prefix (h : Unclosed s) (hp : p <+: s) : Unclosed p :=
  fun q hq => h q (hq.trans hp)

/-- As long as no parenthesis is closed that was not opened, a scanner counts what there is. -/
theorem Unclosed.scanned_eq (h : Unclosed p) :
    scanned p = ⟨!isOutside p, (balance p).toNat⟩ ∧ 0 ≤ balance p := by
  induction p using List.reverseRecOn with
  | nil => exact ⟨rfl, Int.le_refl 0⟩
  | append_singleton p c ih =>
    obtain ⟨hscanned, hnonneg⟩ := ih (h.of_prefix (List.prefix_append p [c]))
    rw [scanned_concat, hscanned, isOutside_concat]
    by_cases hquote : c = '"'
    · subst hquote
      rw [balance_concat_other fun _ => by decide]
      exact ⟨by simp [Nesting.after], hnonneg⟩
    · cases houtside : isOutside p with
      | false =>
        rw [balance_concat_other fun hout => by simp [houtside] at hout]
        exact ⟨by simp [Nesting.after, hquote], hnonneg⟩
      | true =>
        by_cases hopen : c = '('
        · subst hopen
          rw [balance_concat_open houtside]
          refine ⟨?_, by omega⟩
          have hdepth : (balance p + 1).toNat = (balance p).toNat + 1 := by omega
          simp [Nesting.after, hdepth]
        · by_cases hclose : c = ')'
          · subst hclose
            have hdeep : balance p ≠ 0 := fun hlevel =>
              h p List.prefix_rfl ⟨houtside, hlevel⟩
            rw [balance_concat_close houtside]
            refine ⟨?_, by omega⟩
            have hdepth : (balance p - 1).toNat = (balance p).toNat - 1 := by omega
            simp [Nesting.after, hdepth]
          · rw [balance_concat_other fun _ => ⟨hopen, hclose⟩]
            exact ⟨by simp [Nesting.after, hquote, hopen, hclose], hnonneg⟩

theorem Unclosed.isOuter_iff (h : Unclosed p) :
    (scanned p).isOuter = true ↔ isOutside p = true ∧ balance p = 0 := by
  obtain ⟨hscanned, hnonneg⟩ := h.scanned_eq
  simp only [hscanned, Nesting.isOuter, Bool.not_not, Bool.and_eq_true, decide_eq_true_eq]
  refine and_congr_right fun _ => ?_
  omega

/-- A scanner that has met no closing place so far has met none of its own. -/
theorem unclosed_iff :
    Unclosed s ↔ ∀ p, p ++ [')'] <+: s → (scanned p).isOuter = false := by
  induction s using List.reverseRecOn with
  | nil =>
    refine ⟨fun _ p hp => ?_, fun _ p hp => ?_⟩
    · simp at hp
    · simp at hp
  | append_singleton s c ih =>
    constructor
    · intro h p hp
      have hbefore : Unclosed p := h.of_prefix ((List.prefix_append p [')']).trans hp)
      exact Bool.eq_false_iff.mpr fun houter => h p hp (hbefore.isOuter_iff.mp houter)
    · intro h
      have hs : Unclosed s := ih.mpr fun p hp => h p (hp.trans (List.prefix_append s [c]))
      intro p hp hcloses
      rcases List.prefix_concat_iff.mp hp with heq | hbefore
      · obtain ⟨rfl, -⟩ := List.append_inj' heq rfl
        have houter := hs.isOuter_iff.mpr hcloses
        rw [h p hp] at houter
        cases houter
      · exact hs p hbefore hcloses

/-- The list ends at the first closing place that the scanner comes to. -/
theorem splitClosing_eq_ok : splitClosing n s = .ok (inside, rest) ↔
    s = inside ++ ')' :: rest ∧ (inside.foldl Nesting.after n).isOuter = true ∧
      ∀ p, p ++ [')'] <+: inside → (p.foldl Nesting.after n).isOuter = false := by
  -- on the text, for every nesting, which each character changes
  induction s generalizing n inside with
  | nil => simp [splitClosing]
  | cons c s ih =>
    rw [splitClosing]
    by_cases hcloses : (decide (c = ')') && n.isOuter) = true
    · rw [if_pos hcloses]
      obtain ⟨hc, houter⟩ := Bool.and_eq_true_iff.mp hcloses
      obtain rfl := of_decide_eq_true hc
      constructor
      · intro h
        obtain ⟨rfl, rfl⟩ := Prod.mk.inj (Except.ok.inj h)
        exact ⟨rfl, houter, fun p hp => by simp at hp⟩
      · rintro ⟨hsplit, -, hnone⟩
        cases inside with
        | nil => simpa using hsplit
        | cons d inside =>
          obtain ⟨rfl, -⟩ := List.cons.inj hsplit
          have hfirst := hnone [] ⟨inside, rfl⟩
          rw [List.foldl_nil, houter] at hfirst
          cases hfirst
    · rw [if_neg hcloses]
      constructor
      · intro h
        cases hrest : splitClosing (n.after c) s with
        | error e => simp [hrest] at h
        | ok found =>
          rw [hrest] at h
          obtain ⟨rfl, rfl⟩ := Prod.mk.inj (Except.ok.inj h)
          obtain ⟨rfl, houter, hnone⟩ := ih.mp hrest
          refine ⟨rfl, houter, fun p hp => ?_⟩
          cases p with
          | nil =>
            obtain ⟨rfl, -⟩ := List.cons_prefix_cons.mp hp
            simpa using hcloses
          | cons d p =>
            obtain ⟨rfl, hbefore⟩ := List.cons_prefix_cons.mp hp
            exact hnone p hbefore
      · rintro ⟨hsplit, houter, hnone⟩
        cases inside with
        | nil =>
          obtain ⟨rfl, rfl⟩ := List.cons.inj hsplit
          exact absurd houter (by simpa using hcloses)
        | cons d inside =>
          rw [List.cons_append] at hsplit
          obtain ⟨rfl, rfl⟩ := List.cons.inj hsplit
          have hrest : splitClosing (n.after c) (inside ++ ')' :: rest) = .ok (inside, rest) :=
            ih.mpr ⟨rfl, houter, fun p hp => hnone (c :: p) ((List.prefix_cons_inj c).mpr hp)⟩
          rw [hrest]

/-- A text in which the scanner comes to no closing place is refused, for the quote that is left
open if one is. -/
theorem splitClosing_eq_error : splitClosing n s = .error cause ↔
    (∀ p, p ++ [')'] <+: s → (p.foldl Nesting.after n).isOuter = false) ∧
      cause = if (s.foldl Nesting.after n).quoted then .textUnterminated
        else .parenthesisUnclosed := by
  induction s generalizing n with
  | nil =>
    rw [splitClosing, Except.error.injEq, eq_comm]
    exact (and_iff_right fun p hp => by simp at hp).symm
  | cons c s ih =>
    by_cases hcloses : (decide (c = ')') && n.isOuter) = true
    · rw [splitClosing, if_pos hcloses]
      obtain ⟨hc, houter⟩ := Bool.and_eq_true_iff.mp hcloses
      obtain rfl := of_decide_eq_true hc
      refine iff_of_false (by simp) fun h => ?_
      have hfirst := h.1 [] ⟨s, rfl⟩
      rw [List.foldl_nil, houter] at hfirst
      cases hfirst
    · have hrefused : splitClosing n (c :: s) = .error cause ↔
          splitClosing (n.after c) s = .error cause := by
        rw [splitClosing, if_neg hcloses]
        cases splitClosing (n.after c) s with
        | error e => rfl
        | ok found => simp
      refine hrefused.trans (ih.trans ?_)
      refine and_congr_left fun _ => ⟨fun h p hp => ?_, fun h p hp => ?_⟩
      · cases p with
        | nil =>
          obtain ⟨rfl, -⟩ := List.cons_prefix_cons.mp hp
          simpa using hcloses
        | cons d p =>
          obtain ⟨rfl, hbefore⟩ := List.cons_prefix_cons.mp hp
          exact h p hbefore
      · exact h (c :: p) ((List.prefix_cons_inj c).mpr hp)

/-- A text that leaves no quote open is split, at the commas outside quotes and parentheses. -/
theorem splitCommas?_eq_some (h : (s.foldl Nesting.after n).quoted = false) :
    ∃ pieces, splitCommas? n s = some pieces ∧
      pieces.length =
        places (fun p c => c = ',' && (p.foldl Nesting.after n).isOuter) s + 1 := by
  induction s generalizing n with
  | nil => exact ⟨[[]], by simp [splitCommas?, show n.quoted = false from h], rfl⟩
  | cons c s ih =>
    obtain ⟨pieces, hpieces, hlength⟩ := ih (n := n.after c) h
    rw [splitCommas?, places]
    by_cases hcomma : (decide (c = ',') && n.isOuter) = true
    · obtain ⟨hc, -⟩ := Bool.and_eq_true_iff.mp hcomma
      obtain rfl := of_decide_eq_true hc
      have hsame : n.after ',' = n := by simp [Nesting.after]
      rw [hsame] at hpieces
      refine ⟨[] :: pieces, by rw [if_pos hcomma, hpieces, Option.map_some], ?_⟩
      rw [List.length_cons, hlength, List.foldl_nil, if_pos hcomma]
      simp only [List.foldl_cons]
      omega
    · refine ⟨consHead c pieces, by simp only [hcomma, hpieces]; rfl, ?_⟩
      have hhead : (consHead c pieces).length = pieces.length := by
        cases pieces with
        | nil => simp at hlength
        | cons piece pieces => rfl
      rw [hhead, hlength, List.foldl_nil, if_neg hcomma, Nat.zero_add]
      rfl

end Scanning

section Lists

variable {t inside rest : List Char}

theorem Unclosed.balanced (h : Unclosed inside) (hlevel : balance inside = 0) :
    Balanced inside where
  nonneg _ hp := (h.of_prefix hp).scanned_eq.2
  level := hlevel

theorem closesAt_cons_iff (t : List Char) (i : Nat) : ClosesAt ('(' :: t) (i + 1) ↔
    t[i]? = some ')' ∧ isOutside (t.take i) = true ∧ balance (t.take i) = 0 := by
  have houtside := isOutside_cons (c := '(') (by decide) (t.take i)
  have hlevel : t[i]? = some ')' → isOutside (t.take i) = true →
      (balance (('(' :: t).take (i + 1 + 1)) = 0 ↔ balance (t.take i) = 0) := by
    intro hparen hout
    rw [List.take_succ_cons, balance_cons_open, List.take_add_one, hparen, Option.toList_some,
      balance_concat_close hout]
    omega
  constructor
  · rintro ⟨hparen, hout, hzero⟩
    rw [List.getElem?_cons_succ] at hparen
    rw [List.take_succ_cons, houtside] at hout
    exact ⟨hparen, hout, (hlevel hparen hout).mp hzero⟩
  · rintro ⟨hparen, hout, hzero⟩
    refine ⟨by rwa [List.getElem?_cons_succ], ?_, (hlevel hparen hout).mpr hzero⟩
    rwa [List.take_succ_cons, houtside]

theorem not_closesAt_zero (t : List Char) : ¬ClosesAt ('(' :: t) 0 := by
  rintro ⟨hparen, -, -⟩
  simp at hparen

/-- The prefixes of a text that a parenthesis follows are its parts before a place. -/
theorem unclosed_take_iff (t : List Char) (n : Nat) :
    Unclosed (t.take n) ↔ ∀ i < n, ¬ClosesAt ('(' :: t) (i + 1) := by
  constructor
  · intro h i hi hcloses
    obtain ⟨hparen, hcounts⟩ := (closesAt_cons_iff t i).mp hcloses
    refine h (t.take i) ?_ hcounts
    have hnext : t.take (i + 1) = t.take i ++ [')'] := by
      rw [List.take_add_one, hparen, Option.toList_some]
    exact hnext ▸ List.take_prefix_take_left hi
  · intro h p hp hcounts
    have hlength : p.length < n := by
      have hle := hp.length_le
      simp only [List.length_append, List.length_singleton, List.length_take] at hle
      omega
    obtain ⟨s, hs⟩ := hp.trans (List.take_prefix n t)
    refine h p.length hlength ((closesAt_cons_iff t _).mpr ?_)
    simpa [← hs] using hcounts

theorem unclosed_iff_never_closes (t : List Char) :
    Unclosed t ↔ ∀ i, ¬ClosesAt ('(' :: t) i := by
  have hplaces := unclosed_take_iff t t.length
  rw [List.take_length] at hplaces
  rw [hplaces]
  refine ⟨fun h i hcloses => ?_, fun h i _ => h (i + 1)⟩
  cases i with
  | zero => exact not_closesAt_zero t hcloses
  | succ i =>
    obtain ⟨hparen, -⟩ := (closesAt_cons_iff t i).mp hcloses
    exact h i (List.getElem?_eq_some_iff.mp hparen).1 hcloses

/-- The parenthesis in front of a text is closed behind a part of it in which no parenthesis is
closed that was not opened, and in which all are closed. -/
theorem isClosing_iff (h : t = inside ++ ')' :: rest) :
    IsClosing ('(' :: t) (inside.length + 1) ↔
      Unclosed inside ∧ isOutside inside = true ∧ balance inside = 0 := by
  have hinside : t.take inside.length = inside := by simp [h]
  have hcloses : ClosesAt ('(' :: t) (inside.length + 1) ↔
      isOutside inside = true ∧ balance inside = 0 := by
    rw [closesAt_cons_iff, hinside]
    simp [h]
  have hplaces := unclosed_take_iff t inside.length
  rw [hinside] at hplaces
  rw [hplaces, ← hcloses]
  constructor
  · rintro ⟨closes, first⟩
    exact ⟨fun i hi => first (i + 1) (Nat.succ_lt_succ hi), closes⟩
  · rintro ⟨hnone, closes⟩
    refine ⟨closes, fun j hj => ?_⟩
    cases j with
    | zero => exact not_closesAt_zero t
    | succ i => exact hnone i (Nat.lt_of_succ_lt_succ hj)

theorem splitClosing_eq_ok_iff : splitClosing {} t = .ok (inside, rest) ↔
    t = inside ++ ')' :: rest ∧ IsClosing ('(' :: t) (inside.length + 1) := by
  rw [splitClosing_eq_ok]
  refine and_congr_right fun hsplit => ?_
  rw [isClosing_iff hsplit]
  constructor
  · rintro ⟨houter, hnone⟩
    have hunclosed := unclosed_iff.mpr hnone
    exact ⟨hunclosed, hunclosed.isOuter_iff.mp houter⟩
  · rintro ⟨hunclosed, hcounts⟩
    exact ⟨hunclosed.isOuter_iff.mpr hcounts, unclosed_iff.mp hunclosed⟩

/-- The commas that a scanner splits at are those outside quotes and nested parentheses. -/
theorem Unclosed.commas (h : Unclosed inside) :
    places (fun p c => c = ',' && (scanned p).isOuter) inside = outerCommas inside := by
  refine places_congr fun p c hp => ?_
  have hp : Unclosed p := h.of_prefix ((List.prefix_append p [c]).trans hp)
  have hcounts : (scanned p).isOuter = (isOutside p && balance p = 0) := by
    rw [Bool.eq_iff_iff, hp.isOuter_iff, Bool.and_eq_true, decide_eq_true_eq]
  rw [hcounts, Bool.and_assoc]

theorem Unclosed.arguments (h : Unclosed inside) (houtside : isOutside inside = true) :
    ∃ ps, arguments inside = .ok ps ∧
      ps.length = if (Text.trim inside).isEmpty then 0 else outerCommas inside + 1 := by
  unfold Script.arguments
  by_cases hblank : (Text.trim inside).isEmpty = true
  · exact ⟨[], by simp [hblank], by simp [hblank]⟩
  · have hquoted : (scanned inside).quoted = false := by simp [h.scanned_eq.1, houtside]
    obtain ⟨pieces, hpieces, hlength⟩ := splitCommas?_eq_some hquoted
    refine ⟨_, by simp only [hblank, hpieces]; rfl, ?_⟩
    rw [List.length_map, hlength, if_neg hblank]
    exact congrArg (· + 1) h.commas

/-- A parameter list ends at the place that closes its parenthesis, if there is one. What stands
before it has its quotes and parentheses in pairs, so that it can always be split, without the
depth ever falling below what was opened; it has one parameter more than it has commas of its own,
and none if it is blank. A list that never ends is refused for a quote just if one is left open. -/
theorem list_scanners_agree (t : List Char) :
    (∀ inside rest, splitClosing {} t = .ok (inside, rest) ↔
      t = inside ++ ')' :: rest ∧ IsClosing ('(' :: t) (inside.length + 1)) ∧
    (∀ inside rest, splitClosing {} t = .ok (inside, rest) →
      Even (inside.count '"') ∧ Balanced inside ∧
      (∀ p, p ++ [')'] <+: inside → (scanned p).quoted = false → 0 < (scanned p).depth) ∧
      ∃ ps, arguments inside = .ok ps ∧
        ps.length = if (Text.trim inside).isEmpty then 0 else outerCommas inside + 1) ∧
    (splitClosing {} t = .error .textUnterminated ↔
      Odd (('(' :: t).count '"') ∧ ∀ i, ¬ClosesAt ('(' :: t) i) := by
  refine ⟨fun inside rest => splitClosing_eq_ok_iff, fun inside rest hsplit => ?_, ?_⟩
  · obtain ⟨hlist, hclosing⟩ := splitClosing_eq_ok_iff.mp hsplit
    obtain ⟨hunclosed, houtside, hlevel⟩ := (isClosing_iff hlist).mp hclosing
    refine ⟨?_, hunclosed.balanced hlevel, fun p hp hbare => ?_, hunclosed.arguments houtside⟩
    · rw [Nat.even_iff]
      exact of_decide_eq_true houtside
    · have houter := unclosed_iff.mp hunclosed p hp
      simp only [Nesting.isOuter, hbare, Bool.not_false, Bool.true_and, decide_eq_false_iff_not]
        at houter
      exact Nat.pos_of_ne_zero houter
  · rw [splitClosing_eq_error, ← unclosed_iff_never_closes, and_comm]
    refine (and_congr_right' unclosed_iff.symm).trans (and_congr_left fun hunclosed => ?_)
    have hcount : ('(' :: t).count '"' = t.count '"' := List.count_cons_of_ne (by decide)
    have hquoted : (t.foldl Nesting.after {}).quoted = !isOutside t :=
      congrArg Nesting.quoted hunclosed.scanned_eq.1
    rw [hquoted, hcount, Nat.odd_iff, isOutside]
    by_cases heven : t.count '"' % 2 = 0
    · simp [heven]
    · simp only [heven, decide_false, Bool.not_false, if_true, true_iff]
      omega

/-- A quoted parenthesis does not close the list, a nested one closes its own, and of the four
commas only those count that stand outside both. -/
theorem nested_list_split : ∃ ps,
    splitClosing {} "\")(,\", f(a, b), c); d".toList =
      .ok ("\")(,\", f(a, b), c".toList, "; d".toList) ∧
    Balanced "\")(,\", f(a, b), c".toList ∧
    arguments "\")(,\", f(a, b), c".toList = .ok ps ∧ ps.length = 3 := by
  have hsplit : splitClosing {} "\")(,\", f(a, b), c); d".toList =
      .ok ("\")(,\", f(a, b), c".toList, "; d".toList) := by rfl
  obtain ⟨-, hbalanced, -, ps, hps, hlength⟩ := (list_scanners_agree _).2.1 _ _ hsplit
  exact ⟨ps, hsplit, hbalanced, hps, hlength.trans (by decide +kernel)⟩

end Lists

end Cutscene.Script
