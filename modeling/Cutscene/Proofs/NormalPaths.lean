import Cutscene.Proofs.Lowering
import Cutscene.ScriptPath

/-! Normal forms of paths. A normal form is relative, in small letters and with forward slashes. It
may still begin with what normalizing takes off, since that goes in one pass: the leading `./`s
first, then the leading slashes, and blanks before either of them. -/

namespace Cutscene.ScriptPath

variable {raw q s : List Char}

/-- The trimmed path with forward slashes. -/
def slashed (raw : List Char) : List Char :=
  (Text.trim raw).map fun c => if c = '\\' then '/' else c

/-- The path behind its leading `./`s and the slashes that follow them. -/
def inner (raw : List Char) : List Char := (dropDots (slashed raw)).dropWhile (· = '/')

/-- The path begins with a blank or with `./`. -/
def isLoose : List Char → Bool
  | '.' :: '/' :: _ => true
  | c :: _ => Text.isBlank c
  | [] => false

/-- What every normal form is. -/
structure IsKey (q : List Char) : Prop where
  small : ∀ c ∈ q, Text.IsSmall c
  forward : '\\' ∉ q
  relative : q.head? ≠ some '/'
  last : ∀ c, q.getLast? = some c → Text.isBlank c = false

theorem isSign_slash : Text.IsSign '/' := ⟨by decide, by decide⟩

theorem isSign_dot : Text.IsSign '.' := ⟨by decide, by decide⟩

theorem isSign_backslash : Text.IsSign '\\' := ⟨by decide, by decide⟩

theorem dropDots_of_undotted (h : ∀ t, s ≠ '.' :: '/' :: t) : dropDots s = s := by
  unfold dropDots
  split
  · next t => exact absurd rfl (h t)
  · rfl

theorem dropDots_suffix (s : List Char) : dropDots s <:+ s := by
  fun_induction dropDots s with
  | case1 s ih => exact (ih.trans (List.suffix_cons _ _)).trans (List.suffix_cons _ _)
  | case2 s hs => exact List.suffix_rfl

theorem inner_suffix (raw : List Char) : inner raw <:+ slashed raw :=
  (List.dropWhile_suffix _).trans (dropDots_suffix _)

/-- Leading `./`s are the same in small letters. -/
theorem dropDots_lowerFrom (passed s : List Char) :
    ∃ passed', dropDots (Text.lowerFrom passed s) = Text.lowerFrom passed' (dropDots s) := by
  fun_induction dropDots s generalizing passed with
  | case1 s ih =>
    rw [Text.lowerFrom_sign isSign_dot, Text.lowerFrom_sign isSign_slash, dropDots]
    exact ih _
  | case2 s hs =>
    refine ⟨passed, dropDots_of_undotted fun t ht => ?_⟩
    have hdot := Text.head?_of_lowerFrom isSign_dot (congrArg List.head? ht)
    obtain ⟨s', rfl⟩ := List.head?_eq_some_iff.mp hdot
    rw [Text.lowerFrom_sign isSign_dot] at ht
    have hslash := Text.head?_of_lowerFrom isSign_slash (congrArg List.head? (List.cons.inj ht).2)
    obtain ⟨t', rfl⟩ := List.head?_eq_some_iff.mp hslash
    exact hs t' rfl

theorem dropSlashes_lowerFrom (passed s : List Char) :
    ∃ passed', (Text.lowerFrom passed s).dropWhile (· = '/') =
      Text.lowerFrom passed' (s.dropWhile (· = '/')) := by
  induction s generalizing passed with
  | nil => exact ⟨passed, rfl⟩
  | cons c s ih =>
    by_cases hc : c = '/'
    · subst hc
      rw [Text.lowerFrom_sign isSign_slash]
      simpa using ih _
    · have hhead : ∀ d, (Text.lowerFrom passed (c :: s)).head? = some d → ¬ d = '/' := by
        rintro d hd rfl
        exact hc (Option.some.inj (Text.head?_of_lowerFrom isSign_slash hd))
      refine ⟨passed, ?_⟩
      rw [List.dropWhile_cons_of_neg (by simpa using hc)]
      cases hlower : Text.lowerFrom passed (c :: s) with
      | nil => rfl
      | cons d rest =>
        rw [List.dropWhile_cons_of_neg (by simpa using hhead d (by rw [hlower]; rfl))]

/-- A normal form is the inner part of its path in small letters. -/
theorem normalizeChars_eq (raw : List Char) :
    ∃ passed, normalizeChars raw = Text.lowerFrom passed (inner raw) := by
  obtain ⟨passed, hdots⟩ := dropDots_lowerFrom [] (slashed raw)
  obtain ⟨passed', hslashes⟩ := dropSlashes_lowerFrom passed (dropDots (slashed raw))
  refine ⟨passed', ?_⟩
  rw [inner, ← hslashes, ← hdots]
  rfl

theorem slash_mem_normalizeChars_iff : '/' ∈ normalizeChars raw ↔ '/' ∈ inner raw := by
  obtain ⟨passed, heq⟩ := normalizeChars_eq raw
  rw [heq, Text.mem_lowerFrom_iff isSign_slash]

theorem backslash_not_mem_slashed (raw : List Char) : '\\' ∉ slashed raw := by
  intro h
  obtain ⟨c, -, hc⟩ := List.mem_map.mp h
  split at hc
  · cases hc
  · next hne => exact hne hc

theorem last_slashed {c : Char} (h : (slashed raw).getLast? = some c) :
    Text.isBlank c = false := by
  rw [slashed, List.getLast?_map] at h
  obtain ⟨d, hd, rfl⟩ := Option.map_eq_some_iff.mp h
  split
  · rfl
  · exact (Text.isTrimmed_trim raw).last d hd

theorem isKey_normalizeChars (raw : List Char) : IsKey (normalizeChars raw) := by
  obtain ⟨passed, heq⟩ := normalizeChars_eq raw
  rw [heq]
  refine ⟨fun c hc => Text.isSmall_of_mem_lowerFrom hc, ?_, ?_, ?_⟩
  · rw [Text.mem_lowerFrom_iff isSign_backslash]
    exact fun h => backslash_not_mem_slashed raw ((inner_suffix raw).subset h)
  · intro h
    have hnot := List.head?_dropWhile_not (· = '/') (dropDots (slashed raw))
    rw [← inner, Text.head?_of_lowerFrom isSign_slash h] at hnot
    simp at hnot
  · intro c hc
    have hblank := Text.isBlank_getLast?_lowerFrom passed (inner raw)
    rw [hc] at hblank
    obtain ⟨d, hd, hsame⟩ := Option.map_eq_some_iff.mp hblank.symm
    obtain ⟨front, hfront⟩ := inner_suffix raw
    have hlast : (slashed raw).getLast? = some d := by
      rw [← hfront, List.getLast?_append, hd, Option.some_or]
    rw [← hsame]
    exact last_slashed hlast

theorem dropDots_of_tight (h : isLoose s = false) : dropDots s = s := by
  refine dropDots_of_undotted fun t ht => ?_
  subst ht
  cases h

theorem trimStart_of_tight (h : isLoose s = false) : Text.trimStart s = s := by
  refine Text.trimStart_of_first fun c hc => ?_
  obtain ⟨t, rfl⟩ := List.head?_eq_some_iff.mp hc
  unfold isLoose at h
  split at h
  · cases h
  · next heq =>
    rw [(List.cons.inj heq).1]
    exact h
  · next heq => cases heq

theorem length_of_loose (h : isLoose s = true) :
    (dropDots (Text.trimStart s)).length < s.length := by
  have hstart : (Text.trimStart s).length ≤ s.length :=
    (List.dropWhile_suffix Text.isBlank).length_le
  unfold isLoose at h
  split at h
  · next t =>
    have hdot : Text.trimStart ('.' :: '/' :: t) = '.' :: '/' :: t := rfl
    have hrest := (dropDots_suffix t).length_le
    rw [hdot, dropDots, List.length_cons, List.length_cons]
    omega
  · next c t _ =>
    have hblank : Text.trimStart (c :: t) = Text.trimStart t := List.dropWhile_cons_of_pos h
    have hrest : (Text.trimStart t).length ≤ t.length :=
      (List.dropWhile_suffix Text.isBlank).length_le
    have hdropped := (dropDots_suffix (Text.trimStart t)).length_le
    rw [hblank, List.length_cons]
    omega
  · cases h

namespace IsKey

/-- Normalizing a normal form again takes no more than its front off. -/
theorem normalizeChars_eq (h : IsKey q) :
    normalizeChars q = (dropDots (Text.trimStart q)).dropWhile (· = '/') := by
  have hsuffix : Text.trimStart q <:+ q := List.dropWhile_suffix _
  have htrim : Text.trim q = Text.trimStart q := by
    obtain ⟨front, hfront⟩ := hsuffix
    rw [Text.trim]
    refine Text.trimEnd_of_last fun c hc => h.last c ?_
    rw [← hfront, List.getLast?_append, hc, Option.some_or]
  have hslashed : slashed q = Text.trimStart q := by
    rw [slashed, htrim]
    refine (List.map_congr_left fun c hc => ?_).trans (List.map_id _)
    have hne : c ≠ '\\' := by
      rintro rfl
      exact h.forward (hsuffix.subset hc)
    rw [if_neg hne, id_eq]
  have hlower : Text.lower (Text.trimStart q) = Text.trimStart q :=
    Text.lowerFrom_of_small fun c hc => h.small c (hsuffix.subset hc)
  change (dropDots (Text.lower (slashed q))).dropWhile (· = '/') = _
  rw [hslashed, hlower]

/-- A normal form is its own just if nothing at its front can still be taken off. -/
theorem normalizeChars_eq_self_iff (h : IsKey q) :
    normalizeChars q = q ↔ isLoose q = false := by
  rw [h.normalizeChars_eq]
  constructor
  · intro hsame
    cases hloose : isLoose q with
    | false => rfl
    | true =>
      have hshorter := length_of_loose hloose
      have hrest := (List.dropWhile_suffix (l := dropDots (Text.trimStart q))
        (· = '/')).length_le
      rw [hsame] at hrest
      omega
  · intro htight
    rw [trimStart_of_tight htight, dropDots_of_tight htight]
    cases q with
    | nil => rfl
    | cons c t =>
      have hc : c ≠ '/' := by
        rintro rfl
        exact h.relative rfl
      rw [List.dropWhile_cons_of_neg (by simpa using hc)]

end IsKey

theorem normalize_toList (path : String) :
    (normalize path).toList = normalizeChars path.toList := String.toList_ofList

theorem isKey_normalize (path : String) : IsKey (normalize path).toList := by
  rw [normalize_toList]
  exact isKey_normalizeChars path.toList

theorem normalize_of_key {path : String} (h : IsKey path.toList) :
    normalize path = path ↔ isLoose path.toList = false := by
  rw [← String.toList_inj, normalize_toList, h.normalizeChars_eq_self_iff]

theorem slash_mem_normalize_iff {path : String} :
    '/' ∈ (normalize path).toList ↔ '/' ∈ inner path.toList := by
  rw [normalize_toList, slash_mem_normalizeChars_iff]

end Cutscene.ScriptPath
