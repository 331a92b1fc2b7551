/-! Results that may be a failure: what a chain of them comes to, and how one that succeeded is
taken apart again. -/

namespace Cutscene

variable {ε α β : Type}

@[simp] theorem ok_bind (a : α) (f : α → Except ε β) : (Except.ok a >>= f) = f a := rfl

@[simp] theorem error_bind (x : ε) (f : α → Except ε β) :
    ((Except.error x : Except ε α) >>= f) = .error x := rfl

@[simp] theorem ok_map (a : α) (f : α → β) : (Except.ok a : Except ε α).map f = .ok (f a) := rfl

@[simp] theorem error_map (x : ε) (f : α → β) :
    (Except.error x : Except ε α).map f = .error x := rfl

theorem bind_eq_ok {r : Except ε α} {f : α → Except ε β} {b : β} :
    (r >>= f) = .ok b ↔ ∃ a, r = .ok a ∧ f a = .ok b := by
  cases r with
  | error x => simp
  | ok a => simp

theorem bind_eq_error {r : Except ε α} {f : α → Except ε β} {x : ε} :
    (r >>= f) = .error x ↔ r = .error x ∨ ∃ a, r = .ok a ∧ f a = .error x := by
  cases r with
  | error y => simp
  | ok a => simp

theorem map_eq_ok {r : Except ε α} {f : α → β} {b : β} :
    r.map f = .ok b ↔ ∃ a, r = .ok a ∧ f a = b := by
  cases r with
  | error x => simp
  | ok a => simp

theorem eq_ok_of_toOption {r : Except ε α} {a : α} (h : r.toOption = some a) : r = .ok a := by
  cases r with
  | error x => cases h
  | ok b => rw [Option.some.inj h]

/-- A result that is told to be there by something read off it. -/
theorem exists_ok {r : Except ε α} {f : α → β} {b : β} (h : r.toOption.map f = some b) :
    ∃ a, r = .ok a ∧ f a = b := by
  cases r with
  | error x => cases h
  | ok a => exact ⟨a, rfl, Option.some.inj h⟩

theorem exists_error {r : Except ε α} (h : r.toBool = false) : ∃ x, r = .error x := by
  cases r with
  | error x => exact ⟨x, rfl⟩
  | ok a => cases h

/-- Two results that fail alike, or that succeed with related values. -/
inductive Agree (R : α → β → Prop) : Except ε α → Except ε β → Prop where
  | ok {a : α} {b : β} (h : R a b) : Agree R (.ok a) (.ok b)
  | error (x : ε) : Agree R (.error x) (.error x)

namespace Agree

variable {γ δ : Type} {R : α → β → Prop} {S : γ → δ → Prop} {r : Except ε α} {r' : Except ε β}

@[simp] theorem ok_iff {a : α} {b : β} :
    Agree R (.ok a : Except ε α) (.ok b) ↔ R a b :=
  ⟨fun | .ok h => h, .ok⟩

@[simp] theorem error_iff {x y : ε} :
    Agree R (.error x : Except ε α) (.error y : Except ε β) ↔ x = y := by
  constructor
  · rintro ⟨⟩
    rfl
  · rintro rfl
    exact .error x

@[simp] theorem not_ok_error {a : α} {x : ε} : ¬ Agree R (.ok a) (.error x : Except ε β) := nofun

@[simp] theorem not_error_ok {x : ε} {b : β} : ¬ Agree R (.error x : Except ε α) (.ok b) := nofun

theorem bind {f : α → Except ε γ} {f' : β → Except ε δ} (h : Agree R r r')
    (hf : ∀ a b, R a b → Agree S (f a) (f' b)) : Agree S (r >>= f) (r' >>= f') := by
  cases h with
  | ok hab => exact hf _ _ hab
  | error x => exact .error x

theorem map {f : α → γ} {f' : β → δ} (h : Agree R r r') (hf : ∀ a b, R a b → S (f a) (f' b)) :
    Agree S (r.map f) (r'.map f') := by
  cases h with
  | ok hab => exact .ok (hf _ _ hab)
  | error x => exact .error x

theorem imp {T : α → β → Prop} (h : Agree R r r') (hRT : ∀ a b, R a b → T a b) :
    Agree T r r' := by
  cases h with
  | ok hab => exact .ok (hRT _ _ hab)
  | error x => exact .error x

end Agree

end Cutscene
