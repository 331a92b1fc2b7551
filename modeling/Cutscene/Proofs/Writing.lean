import Cutscene.Proofs.Rereading

/-! Calls written out. A call whose parameters stand in quotes is read back as it was written, for
inside quotes neither scanner of a parameter list takes notice of a comma, a parenthesis or what
would otherwise begin a comment. -/

namespace Cutscene

namespace Text

variable {s : List Char}

theorem trim_cons_blank {c : Char} (h : isBlank c = true) (s : List Char) :
    trim (c :: s) = trim s := by
  rw [trim, trim, trimStart, List.dropWhile_cons_of_pos h, trimStart]

theorem beforeComment_of_free (h : ¬ ['/', '/'] <:+: s) : beforeComment s = s := by
  induction s with
  | nil => rfl
  | cons c s ih =>
    have hstart : ['/', '/'].isPrefixOf (c :: s) = false := by
      rw [Bool.eq_false_iff, ne_eq, List.isPrefixOf_iff_prefix]
      exact fun hprefix => h hprefix.isInfix
    rw [beforeComment_cons hstart, ih fun hinfix => h (List.infix_cons hinfix)]

end Text

namespace Script

section Quoted

variable {p inside rest : List Char} {ps pieces : List (List Char)}

def quote (p : List Char) : List Char := '"' :: p ++ ['"']

/-- The list of some parameters, each of them in quotes. -/
def quoteAll (ps : List (List Char)) : List Char := [',', ' '].intercalate (ps.map quote)

theorem Nesting.after_quote (n : Nesting) : n.after '"' = { n with quoted := !n.quoted } := rfl

theorem Nesting.after_inside {n : Nesting} {c : Char} (h : n.quoted = true) (hc : c ≠ '"') :
    n.after c = n := by
  rw [after, if_neg hc, h, if_pos rfl]

theorem quoteAll_cons_cons (p q : List Char) (ps : List (List Char)) :
    quoteAll (p :: q :: ps) = quote p ++ ',' :: ' ' :: quoteAll (q :: ps) := by
  rw [quoteAll, List.map_cons, List.map_cons, List.intercalate_cons_cons, List.append_assoc]
  rfl

theorem splitClosing_cons {n : Nesting} {c : Char} {t : List Char} (hc : c ≠ ')')
    (h : splitClosing (n.after c) t = .ok (inside, rest)) :
    splitClosing n (c :: t) = .ok (c :: inside, rest) := by
  simp [splitClosing, hc, h]

theorem splitClosing_inside {n : Nesting} {t : List Char} (hn : n.quoted = true) (hp : '"' ∉ p)
    (h : splitClosing n t = .ok (inside, rest)) :
    splitClosing n (p ++ t) = .ok (p ++ inside, rest) := by
  induction p with
  | nil => exact h
  | cons c p ih =>
    simp only [List.mem_cons, not_or] at hp
    have hrest := ih hp.2
    rw [← Nesting.after_inside hn (Ne.symm hp.1)] at hrest
    simp [splitClosing, Nesting.isOuter, hn, hrest]

theorem splitClosing_quote {n : Nesting} {t : List Char} (hn : n.quoted = false) (hp : '"' ∉ p)
    (h : splitClosing n t = .ok (inside, rest)) :
    splitClosing n (quote p ++ t) = .ok (quote p ++ inside, rest) := by
  have hopen : (n.after '"').quoted = true := by rw [Nesting.after_quote, hn]; rfl
  have hclosed : (n.after '"').after '"' = n := by
    cases n
    simp [Nesting.after_quote]
  have hlast : splitClosing (n.after '"') ('"' :: t) = .ok ('"' :: inside, rest) :=
    splitClosing_cons (by decide) (by rwa [hclosed])
  have hall := splitClosing_cons (c := '"') (by decide) (splitClosing_inside hopen hp hlast)
  simpa [quote] using hall

/-- The list of quoted parameters ends where it was closed. -/
theorem splitClosing_quoteAll (h : ∀ p ∈ ps, '"' ∉ p) (rest : List Char) :
    splitClosing {} (quoteAll ps ++ ')' :: rest) = .ok (quoteAll ps, rest) := by
  have hclose : splitClosing {} (')' :: rest) = .ok ([], rest) := rfl
  induction ps with
  | nil => exact hclose
  | cons p ps ih =>
    have hp := h p List.mem_cons_self
    cases ps with
    | nil => simpa [quoteAll] using splitClosing_quote rfl hp hclose
    | cons q ps =>
      have hrest := ih fun r hr => h r (List.mem_cons_of_mem _ hr)
      have hgap : splitClosing {} (',' :: ' ' :: (quoteAll (q :: ps) ++ ')' :: rest)) =
          .ok (',' :: ' ' :: quoteAll (q :: ps), rest) :=
        splitClosing_cons (by decide) (splitClosing_cons (by decide) hrest)
      rw [quoteAll_cons_cons]
      simpa using splitClosing_quote rfl hp hgap

theorem splitCommas?_inside {n : Nesting} {t : List Char} (hn : n.quoted = true) (hp : '"' ∉ p)
    (h : splitCommas? n t = some (rest :: pieces)) :
    splitCommas? n (p ++ t) = some ((p ++ rest) :: pieces) := by
  induction p with
  | nil => exact h
  | cons c p ih =>
    simp only [List.mem_cons, not_or] at hp
    have hrest := ih hp.2
    rw [← Nesting.after_inside hn (Ne.symm hp.1)] at hrest
    simp [splitCommas?, Nesting.isOuter, hn, hrest, consHead]

theorem splitCommas?_quote {n : Nesting} {t : List Char} (hn : n.quoted = false) (hp : '"' ∉ p)
    (h : splitCommas? n t = some (rest :: pieces)) :
    splitCommas? n (quote p ++ t) = some ((quote p ++ rest) :: pieces) := by
  have hopen : (n.after '"').quoted = true := by rw [Nesting.after_quote, hn]; rfl
  have hclosed : (n.after '"').after '"' = n := by
    cases n
    simp [Nesting.after_quote]
  have hlast : splitCommas? (n.after '"') ('"' :: t) = some (('"' :: rest) :: pieces) := by
    simp [splitCommas?, hclosed, h, consHead]
  have hall := splitCommas?_inside hopen hp hlast
  simp [quote, splitCommas?, hall, consHead]

/-- The commas between quoted parameters are the only ones at which the list is split. -/
theorem splitCommas?_quoteAll (hp : '"' ∉ p) (h : ∀ q ∈ ps, '"' ∉ q) :
    splitCommas? {} (quoteAll (p :: ps)) = some (quote p :: ps.map fun q => ' ' :: quote q) := by
  have hend : splitCommas? {} [] = some [[]] := rfl
  induction ps generalizing p with
  | nil => simpa [quoteAll] using splitCommas?_quote rfl hp hend
  | cons q ps ih =>
    have hrest := ih (h q List.mem_cons_self) fun r hr => h r (List.mem_cons_of_mem _ hr)
    have hspace : splitCommas? {} (' ' :: quoteAll (q :: ps)) =
        some ((' ' :: quote q) :: ps.map fun q => ' ' :: quote q) := by
      have hafter : Nesting.after {} ' ' = {} := rfl
      simp [splitCommas?, hafter, hrest, consHead]
    have hcomma : splitCommas? {} (',' :: ' ' :: quoteAll (q :: ps)) =
        some ([] :: (' ' :: quote q) :: ps.map fun q => ' ' :: quote q) := by
      rw [splitCommas?, hspace]
      rfl
    rw [quoteAll_cons_cons]
    simpa using splitCommas?_quote rfl hp hcomma

theorem break_not_mem_quoteAll (h : ∀ p ∈ ps, '\n' ∉ p) : '\n' ∉ quoteAll ps := by
  have hquote : ∀ p ∈ ps, '\n' ∉ quote p := fun p hp => by simpa [quote] using h p hp
  induction ps with
  | nil => exact List.not_mem_nil
  | cons p ps ih =>
    have hp := hquote p List.mem_cons_self
    cases ps with
    | nil => simpa [quoteAll] using hp
    | cons q ps =>
      have hrest := ih (fun r hr => h r (List.mem_cons_of_mem _ hr))
        fun r hr => hquote r (List.mem_cons_of_mem _ hr)
      simpa [quoteAll_cons_cons] using ⟨hp, hrest⟩

theorem trim_quote (p : List Char) : Text.trim (quote p) = quote p := by
  apply Text.IsTrimmed.trim_eq
  apply Text.isTrimmed_concat _ (by decide)
  intro b hb
  obtain rfl : '"' = b := by simpa using hb
  decide

theorem unquote_quote (p : List Char) : unquote (quote p) = p := by
  rw [unquote, trim_quote]
  simp [quote]

theorem unquote_cons_quote (p : List Char) : unquote (' ' :: quote p) = p := by
  rw [unquote, Text.trim_cons_blank (by decide), trim_quote]
  simp [quote]

theorem quoteAll_head (p : List Char) (ps : List (List Char)) :
    (quoteAll (p :: ps)).head? = some '"' := by
  cases ps with
  | nil => simp [quoteAll, quote]
  | cons q ps => simp [quoteAll_cons_cons, quote]

theorem arguments_quoteAll {parameters : List String}
    (h : ∀ p ∈ parameters, '"' ∉ p.toList) :
    arguments (quoteAll (parameters.map String.toList)) = .ok parameters := by
  cases parameters with
  | nil => rfl
  | cons p ps =>
    have hquote : '"' ∈ Text.trim (quoteAll ((p :: ps).map String.toList)) :=
      (Text.mem_trim_iff (by decide)).mpr (List.mem_of_mem_head? (quoteAll_head _ _))
    have hfull := List.ne_nil_of_mem hquote
    have hrest : ∀ q ∈ ps.map String.toList, '"' ∉ q := by
      intro q hq
      obtain ⟨r, hr, rfl⟩ := List.mem_map.mp hq
      exact h r (List.mem_cons_of_mem _ hr)
    have hsplit := splitCommas?_quoteAll (h p List.mem_cons_self) hrest
    rw [arguments, if_neg (by simpa using hfull), List.map_cons, hsplit]
    simp [unquote_quote, unquote_cons_quote, Function.comp_def]

end Quoted

/-- A letter or an underscore, and then letters, digits and underscores. -/
def IsIdentifier (name : String) : Prop :=
  ∃ c s, name.toList = c :: s ∧ isNameStart c = true ∧ ∀ d ∈ s, isNameChar d = true

theorem isNameChar_of_isNameStart {c : Char} (h : isNameStart c = true) : isNameChar c = true := by
  simp only [isNameStart, Bool.or_eq_true] at h
  rcases h with halpha | hunder
  · simp [isNameChar, Char.isAlphanum, halpha]
  · simp [isNameChar, hunder]

theorem isBlank_of_isNameChar {c : Char} (h : isNameChar c = true) : Text.isBlank c = false := by
  have hrange : 48 ≤ c.toNat ∧ c.toNat ≤ 122 := by
    simp only [isNameChar, Char.isAlphanum, Bool.or_eq_true, decide_eq_true_eq] at h
    rcases h with (halpha | hdigit) | rfl
    · have hbounds := Text.toNat_of_isAlpha halpha
      omega
    · have hbounds := Text.toNat_of_isDigit hdigit
      omega
    · decide
  exact Text.isBlank_of_visible (by omega) (by omega)

theorem IsIdentifier.isNameChar {name : String} (h : IsIdentifier name) :
    ∀ d ∈ name.toList, isNameChar d = true := by
  obtain ⟨c, s, hname, hstart, hchars⟩ := h
  intro d hd
  rw [hname] at hd
  rcases List.mem_cons.mp hd with rfl | hd
  · exact isNameChar_of_isNameStart hstart
  · exact hchars d hd

/-- What a call can be written out of. -/
structure Writable (name : String) (parameters : List String) (result : String) : Prop where
  named : IsIdentifier name
  unquoted : ∀ p ∈ parameters, '"' ∉ p.toList
  unbroken : ∀ p ∈ parameters, '\n' ∉ p.toList
  trimmed : Text.IsTrimmed result.toList
  whole : '\n' ∉ result.toList
  uncommented : ¬ ['/', '/'] <:+: result.toList

/-- A call on a line of its own, with its parameters in quotes. -/
def callLine (name : String) (parameters : List String) (result : String) : String :=
  name ++ "(" ++ ", ".intercalate (parameters.map fun p => "\"" ++ p ++ "\"") ++ ") " ++ result ++ ";"

section Written

variable {name result : String} {parameters : List String}

theorem callLine_toList (name : String) (parameters : List String) (result : String) :
    (callLine name parameters result).toList = name.toList ++ '(' ::
      (quoteAll (parameters.map String.toList) ++ ')' :: ' ' :: (result.toList ++ [';'])) := by
  have hquote : parameters.map (String.toList ∘ fun p => "\"" ++ p ++ "\"") =
      (parameters.map String.toList).map quote := by
    rw [List.map_map]
    refine List.map_congr_left fun p _ => ?_
    simp [quote]
  rw [callLine]
  simp only [String.toList_append, String.toList_intercalate, List.map_map, hquote]
  simp [quoteAll]

theorem resultOf_written (htrimmed : Text.IsTrimmed result.toList)
    (huncommented : ¬ ['/', '/'] <:+: result.toList) :
    resultOf (' ' :: (result.toList ++ [';'])) = result.toList := by
  have hwhole : Text.beforeComment (' ' :: (result.toList ++ [';'])) =
      ' ' :: (result.toList ++ [';']) := by
    rw [Text.beforeComment_cons (by simp [List.isPrefixOf]),
      Text.beforeComment_append_of_whole (Text.beforeComment_of_free huncommented) (by simp)]
    rfl
  have hended := (Text.isTrimmed_concat (c := ';') htrimmed.first (by decide)).trim_eq
  rw [resultOf, hwhole, Text.trim_cons_blank (by decide), hended, Text.dropBack_concat,
    htrimmed.trim_eq]

theorem readLine_callLine (h : Writable name parameters result) (n : Nat) :
    readLine (callLine name parameters result).toList n =
      .ok (.call ⟨name, parameters, result, callLine name parameters result, n⟩) := by
  obtain ⟨c, s, hname, hstart, -⟩ := h.named
  have hall := h.named.isNameChar
  have hline := callLine_toList name parameters result
  generalize hbehind : quoteAll (parameters.map String.toList) ++ ')' :: ' ' ::
    (result.toList ++ [';']) = behind at hline
  have htake : (callLine name parameters result).toList.takeWhile isNameChar = name.toList := by
    rw [hline, List.takeWhile_append_of_pos hall, List.takeWhile_cons_of_neg (by decide),
      List.append_nil]
  have hdrop : (callLine name parameters result).toList.dropWhile isNameChar = '(' :: behind := by
    rw [hline, List.dropWhile_append_of_pos hall, List.dropWhile_cons_of_neg (by decide)]
  have hparameters : parametersOf ('(' :: behind) =
      .ok (parameters, ' ' :: (result.toList ++ [';'])) := by
    have hskip : Text.trimStart ('(' :: behind) = '(' :: behind :=
      Text.trimStart_of_first fun d hd => by rw [← Option.some.inj hd]; decide
    have hquotes : ∀ p ∈ parameters.map String.toList, '"' ∉ p := by
      intro p hp
      obtain ⟨q, hq, rfl⟩ := List.mem_map.mp hp
      exact h.unquoted q hq
    rw [parametersOf, hskip, ← hbehind]
    simp only [splitClosing_quoteAll hquotes, ok_bind, arguments_quoteAll h.unquoted]
    rfl
  have hhead : (callLine name parameters result).toList.head? = some c := by
    rw [hline, hname]
    rfl
  have hresult := resultOf_written h.trimmed h.uncommented
  unfold readLine
  split
  · next t hat =>
    rw [hat] at hhead
    obtain rfl : '@' = c := Option.some.inj hhead
    cases hstart
  · rw [hhead, Option.map_some, Option.getD_some, hstart, if_pos rfl, hdrop, hparameters, ok_bind,
      htake]
    simp only [hresult, String.ofList_toList]
    rfl

theorem break_not_mem_callLine (h : Writable name parameters result) :
    '\n' ∉ (callLine name parameters result).toList := by
  have hname : '\n' ∉ name.toList := fun hmem => absurd (h.named.isNameChar _ hmem) (by decide)
  have hlist : '\n' ∉ quoteAll (parameters.map String.toList) := by
    refine break_not_mem_quoteAll fun p hp => ?_
    obtain ⟨q, hq, rfl⟩ := List.mem_map.mp hp
    exact h.unbroken q hq
  rw [callLine_toList]
  simp [hname, hlist, h.whole]

theorem isTrimmed_callLine (h : Writable name parameters result) :
    Text.IsTrimmed (callLine name parameters result).toList := by
  obtain ⟨c, s, hname, hstart, -⟩ := h.named
  have hblank := isBlank_of_isNameChar (isNameChar_of_isNameStart hstart)
  have hline : (callLine name parameters result).toList = (name.toList ++ '(' ::
      (quoteAll (parameters.map String.toList) ++ ')' :: ' ' :: result.toList)) ++ [';'] := by
    rw [callLine_toList]
    simp
  rw [hline]
  refine Text.isTrimmed_concat (fun b hb => ?_) (by decide)
  rw [hname] at hb
  exact Option.some.inj hb ▸ hblank

theorem stands_callLine (h : Writable name parameters result) :
    Stands (callLine name parameters result).toList := by
  refine stands_of_call ⟨?_, break_not_mem_callLine h, isTrimmed_callLine h⟩ (readLine_callLine h 1)
  rw [callLine_toList]
  simp

end Written

/-- A call that was written out with its parameters in quotes is read back: its name, its parameters
in their order, whatever commas, parentheses, comment signs and blanks they hold, and its result. -/
theorem parseStrict_callLine {name result : String} {parameters : List String}
    (h : Writable name parameters result) (file : String) :
    parseStrict file (callLine name parameters result) =
      .ok ⟨file, [.call ⟨name, parameters, result, callLine name parameters result, 1⟩]⟩ := by
  have hone : ∀ l ∈ [(callLine name parameters result).toList], Stands l := by
    simpa using stands_callLine h
  have hmark := dropMark_of_stands hone
  have hnumbered := numbered_of_stands hone 1
  rw [List.intercalate_singleton] at hmark hnumbered
  have hread := readLine_callLine h 1
  rw [parseStrict_eq_ok_iff, parse_faults_eq_nil_iff, hmark, hnumbered]
  constructor
  · simp [hread, Except.toBool]
  · have hinstructions := parse_instructions file (callLine name parameters result)
    rw [hmark, hnumbered] at hinstructions
    simp only [List.zipIdx_singleton, List.filterMap_cons, hread, Except.toOption,
      List.filterMap_nil] at hinstructions
    exact congrArg (Script.mk file) hinstructions

end Script

namespace Rehearsal

def offers : List String := ["Well, (or not)?", "", " // ; @no $x "]

theorem offers_writable : Script.Writable "Choose" offers "$answer; (again" where
  named := ⟨'C', "hoose".toList, by decide, by decide, List.all_eq_true.mp rfl⟩
  unquoted := by decide
  unbroken := by decide
  trimmed := by
    have htrim : Text.trim "$answer; (again".toList = "$answer; (again".toList := by decide
    exact htrim ▸ Text.isTrimmed_trim _
  whole := by decide
  uncommented := by simp [List.infix_cons_iff]

theorem offers_read_back : Script.Writable "Choose" offers "$answer; (again" ∧
    Script.parseStrict "a"
        "Choose(\"Well, (or not)?\", \"\", \" // ; @no $x \") $answer; (again;" =
      .ok ⟨"a", [.call ⟨"Choose", offers, "$answer; (again",
        "Choose(\"Well, (or not)?\", \"\", \" // ; @no $x \") $answer; (again;", 1⟩]⟩ := by
  have hline : Script.callLine "Choose" offers "$answer; (again" =
      "Choose(\"Well, (or not)?\", \"\", \" // ; @no $x \") $answer; (again;" := by
    apply String.toList_injective
    rw [Script.callLine_toList]
    rfl
  have hread := Script.parseStrict_callLine offers_writable "a"
  rw [hline] at hread
  exact ⟨offers_writable, hread⟩

end Rehearsal

end Cutscene
