import Cutscene.Label
import Cutscene.Proofs.Lowering

/-! Spellings of a label. A label may be written with its `@` and its colon or without them, and with
blanks around each part. All spellings of a body have one normal form, which holds the body in small
letters and is its own normal form. -/

namespace Cutscene.Label

open Text

/-- A text without blanks at its ends, which no sign of a label is mistaken for. -/
structure IsBody (body : List Char) : Prop where
  trimmed : IsTrimmed body
  unsigned : body.head? ≠ some '@'
  unclosed : body.getLast? ≠ some ':'

/-- A way to write a label around its body. -/
structure Spelling where
  signed : Bool
  closed : Bool
  front : List Char := []
  behindSign : List Char := []
  beforeColon : List Char := []
  back : List Char := []
  blank : ∀ c ∈ front ++ behindSign ++ beforeColon ++ back, isBlank c = true := by simp

namespace Spelling

def write (w : Spelling) (body : List Char) : List Char :=
  w.front ++ ((if w.signed then ['@'] else []) ++ (w.behindSign ++ (body ++ w.beforeColon)) ++
    (if w.closed then [':'] else []) ++ w.back)

/-- A sign or a colon of the body itself is told apart where the label has its own. -/
structure Suits (w : Spelling) (body : List Char) : Prop where
  trimmed : IsTrimmed body
  front : w.signed = false → body.head? ≠ some '@'
  back : w.closed = false → body.getLast? ≠ some ':'

/-- The way of the normal form. -/
def plain : Spelling where
  signed := true
  closed := true

end Spelling

/-- What is left of a label without its sign, its colon and the blanks around. -/
def bare (raw : List Char) : List Char := trim (dropBack ':' (dropFront '@' (trim raw)))

variable {body raw : List Char} {w : Spelling}

theorem IsBody.suits (h : IsBody body) (w : Spelling) : w.Suits body :=
  ⟨h.trimmed, fun _ => h.unsigned, fun _ => h.unclosed⟩

theorem normalizeChars_eq (raw : List Char) :
    normalizeChars raw = '@' :: lower (bare raw) ++ [':'] := rfl

theorem bare_signed_closed (s : List Char) : bare ('@' :: s ++ [':']) = trim s := by
  have hfirst : ∀ b, ('@' :: s).head? = some b → isBlank b = false := by
    intro b hb
    obtain rfl := Option.some.inj hb
    rfl
  have htrim : trim ('@' :: s ++ [':']) = '@' :: s ++ [':'] := (isTrimmed_concat hfirst rfl).trim_eq
  rw [bare, htrim, List.cons_append, dropFront, if_pos rfl, dropBack_concat]

theorem bare_signed {s : List Char} (h : (trim s).getLast? ≠ some ':') :
    bare ('@' :: s) = trim s := by
  have htrim : trim ('@' :: s) = '@' :: trimEnd s := trim_append_visible (s := []) rfl s
  rw [getLast?_trim] at h
  rw [bare, htrim, dropFront, if_pos rfl, dropBack_of_last h, trim_trimEnd]

theorem bare_closed {s : List Char} (h : (trim s).head? ≠ some '@') :
    bare (s ++ [':']) = trim s := by
  have htrim : trim (s ++ [':']) = trimStart s ++ [':'] := trim_append_visible rfl s []
  have hhead : (trimStart s ++ [':']).head? ≠ some '@' := by
    rw [head?_trim] at h
    cases hs : trimStart s with
    | nil => simp
    | cons c t =>
      rw [hs] at h
      exact h
  rw [bare, htrim, dropFront_of_head hhead, dropBack_concat, trim_trimStart]

theorem bare_of_neither (hhead : (trim raw).head? ≠ some '@')
    (hlast : (trim raw).getLast? ≠ some ':') : bare raw = trim raw := by
  rw [bare, dropFront_of_head hhead, dropBack_of_last hlast, (isTrimmed_trim raw).trim_eq]

theorem Spelling.blanks (w : Spelling) : (∀ c ∈ w.front, isBlank c = true) ∧
    (∀ c ∈ w.behindSign, isBlank c = true) ∧ (∀ c ∈ w.beforeColon, isBlank c = true) ∧
    ∀ c ∈ w.back, isBlank c = true := by
  have hblank := w.blank
  simp only [List.mem_append, or_imp, forall_and, and_assoc] at hblank
  exact hblank

theorem bare_margins {front back : List Char} (hfront : ∀ c ∈ front, isBlank c = true)
    (hback : ∀ c ∈ back, isBlank c = true) (s : List Char) :
    bare (front ++ (s ++ back)) = bare s := by
  rw [bare, trim_append_left hfront, trim_append_right hback, ← bare]

/-- The body is read off each of its spellings. -/
theorem Spelling.Suits.bare_write (h : w.Suits body) : bare (w.write body) = body := by
  obtain ⟨hfront, hinside, hgap, hback⟩ := w.blanks
  have hmiddle : trim (w.behindSign ++ (body ++ w.beforeColon)) = body := by
    rw [trim_append_left hinside, trim_append_right hgap, h.trimmed.trim_eq]
  rw [write, bare_margins hfront hback]
  generalize w.behindSign ++ (body ++ w.beforeColon) = middle at hmiddle
  -- sign and colon are written or left out independently of each other
  cases hsigned : w.signed with
  | true =>
    cases hclosed : w.closed with
    | true => exact (bare_signed_closed middle).trans hmiddle
    | false =>
      have hlast : (trim middle).getLast? ≠ some ':' := hmiddle ▸ h.back hclosed
      simpa using (bare_signed hlast).trans hmiddle
  | false =>
    have hhead : (trim middle).head? ≠ some '@' := hmiddle ▸ h.front hsigned
    cases hclosed : w.closed with
    | true => exact (bare_closed hhead).trans hmiddle
    | false =>
      have hlast : (trim middle).getLast? ≠ some ':' := hmiddle ▸ h.back hclosed
      simpa using (bare_of_neither hhead hlast).trans hmiddle

theorem Spelling.Suits.normalizeChars_write (h : w.Suits body) :
    normalizeChars (w.write body) = '@' :: lower body ++ [':'] := by
  rw [normalizeChars_eq, h.bare_write]

theorem isTrimmed_lower_bare (raw : List Char) : IsTrimmed (lower (bare raw)) :=
  (isTrimmed_trim _).lowerFrom []

/-- The normal form is itself a spelling, of the body in small letters. -/
theorem normalizeChars_eq_write (raw : List Char) :
    normalizeChars raw = Spelling.plain.write (lower (bare raw)) := by
  simp [normalizeChars_eq, Spelling.write, Spelling.plain]

theorem normalizeChars_normalizeChars (raw : List Char) :
    normalizeChars (normalizeChars raw) = normalizeChars raw := by
  have hsuits : Spelling.plain.Suits (lower (bare raw)) :=
    ⟨isTrimmed_lower_bare raw, nofun, nofun⟩
  calc
    normalizeChars (normalizeChars raw)
      = normalizeChars (Spelling.plain.write (lower (bare raw))) := by
        rw [← normalizeChars_eq_write]
    _ = '@' :: lower (lower (bare raw)) ++ [':'] := hsuits.normalizeChars_write
    _ = normalizeChars raw := by rw [lower_lower, normalizeChars_eq]

theorem normalize_toList (label : String) :
    (normalize label).toList = normalizeChars label.toList := String.toList_ofList

theorem normalize_normalize (label : String) : normalize (normalize label) = normalize label := by
  rw [← String.toList_inj, normalize_toList, normalize_toList, normalizeChars_normalizeChars]

end Cutscene.Label
