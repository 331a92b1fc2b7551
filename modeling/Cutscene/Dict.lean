/-! Finite maps as lists of pairs in the order of their keys. The order is canonical, so two maps
that hold the same pairs are equal, and what is written from one is written in key order. -/

namespace Cutscene

abbrev Dict (κ α : Type) := List (κ × α)

namespace Dict

variable {κ α : Type} [DecidableEq κ]

def get? : Dict κ α → κ → Option α
  | [], _ => none
  | (k, a) :: m, x => if k = x then some a else get? m x

def contains (m : Dict κ α) (x : κ) : Bool := (get? m x).isSome

def erase : Dict κ α → κ → Dict κ α
  | [], _ => []
  | (k, a) :: m, x => if k = x then m else (k, a) :: erase m x

def keys (m : Dict κ α) : List κ := m.map Prod.fst

variable [LT κ] [DecidableLT κ]

/-- Writes at the key's place, over what stood there. -/
def insert : Dict κ α → κ → α → Dict κ α
  | [], x, b => [(x, b)]
  | (k, a) :: m, x, b =>
    if k = x then (x, b) :: m
    else if x < k then (x, b) :: (k, a) :: m
    else (k, a) :: insert m x b

/-- Later pairs win. -/
def ofPairs (pairs : List (κ × α)) : Dict κ α := pairs.foldl (fun m p => insert m p.1 p.2) []

omit [LT κ] [DecidableLT κ] in
@[simp] theorem get?_nil (x : κ) : get? ([] : Dict κ α) x = none := rfl

omit [LT κ] [DecidableLT κ] in
theorem mem_of_get? {m : Dict κ α} {x : κ} {a : α}
    (h : get? m x = some a) : (x, a) ∈ m := by
  induction m with
  | nil => cases h
  | cons p m ih =>
    rw [get?] at h
    split at h
    · next hkey =>
      obtain rfl := Option.some.inj h
      subst hkey
      exact List.mem_cons_self
    · exact List.mem_cons_of_mem _ (ih h)

theorem get?_insert (m : Dict κ α) (x y : κ) (b : α) :
    get? (insert m x b) y = if x = y then some b else get? m y := by
  induction m with
  | nil => simp [insert, get?]
  | cons p m ih =>
    obtain ⟨k, a⟩ := p
    by_cases hk : k = x
    · subst hk
      by_cases hy : k = y <;> simp [insert, get?, hy]
    · by_cases hlt : x < k
      · simp [insert, get?, hk, hlt]
      · by_cases hy : k = y
        · subst hy
          simp [insert, get?, hk, hlt, Ne.symm hk]
        · simp [insert, get?, hk, hlt, hy, ih]

omit [LT κ] [DecidableLT κ] in
theorem get?_map {β : Type} (m : Dict κ α) (f : α → β) (x : κ) :
    get? (m.map fun p => (p.1, f p.2)) x = (get? m x).map f := by
  induction m with
  | nil => rfl
  | cons p m ih =>
    by_cases hk : p.1 = x
    · simp [get?, hk]
    · simp only [List.map_cons, get?, hk, if_false, ih]

omit [LT κ] [DecidableLT κ] in
theorem mem_keys {m : Dict κ α} {x : κ} : x ∈ keys m ↔ ∃ a, get? m x = some a := by
  induction m with
  | nil => simp [keys]
  | cons p m ih =>
    by_cases hk : p.1 = x
    · simp [keys, get?, hk]
    · simp only [keys, List.map_cons, List.mem_cons, Ne.symm hk, false_or, get?, hk, if_false]
      exact ih

omit [LT κ] [DecidableLT κ] in
/-- No key is there twice, so a pair is found by its key. -/
theorem get?_of_distinct {m : Dict κ α} {x : κ} {a : α} (h : m.Pairwise (·.1 ≠ ·.1))
    (hmem : (x, a) ∈ m) : get? m x = some a := by
  induction m with
  | nil => cases hmem
  | cons p m ih =>
    obtain ⟨hfirst, hrest⟩ := List.pairwise_cons.mp h
    rcases List.mem_cons.mp hmem with rfl | hmem
    · simp [get?]
    · rw [get?, if_neg (hfirst _ hmem)]
      exact ih hrest hmem

section Order

variable {κ α : Type} [LT κ] {m : Dict κ α} {x : κ} {a : α}

/-- The keys are in order, and no key occurs twice. -/
def Sorted (m : Dict κ α) : Prop := m.Pairwise (·.1 < ·.1)

theorem Sorted.filter (h : Sorted m) (keeps : κ × α → Bool) : Sorted (m.filter keeps) :=
  List.Pairwise.filter keeps h

theorem Sorted.map {β : Type} (h : Sorted m) (f : α → β) :
    Sorted (m.map fun p => (p.1, f p.2)) :=
  List.pairwise_map.mpr h

variable [DecidableEq κ] [DecidableLT κ]

theorem mem_insert {p : κ × α} (h : p ∈ insert m x a) : p = (x, a) ∨ p ∈ m := by
  induction m with
  | nil => exact Or.inl (List.mem_singleton.mp h)
  | cons q m ih =>
    rw [insert] at h
    split at h
    · exact (List.mem_cons.mp h).imp id (List.mem_cons_of_mem _)
    · split at h
      · exact List.mem_cons.mp h
      · rcases List.mem_cons.mp h with rfl | hmem
        · exact Or.inr List.mem_cons_self
        · exact (ih hmem).imp id (List.mem_cons_of_mem _)

variable [LE κ] [Std.LawfulOrderLT κ] [Std.IsLinearOrder κ]

theorem Sorted.insert (h : Sorted m) (x : κ) (a : α) : Sorted (m.insert x a) := by
  induction m with
  | nil => exact List.pairwise_singleton _ _
  | cons q m ih =>
    obtain ⟨hfirst, hrest⟩ := List.pairwise_cons.mp h
    rw [Dict.insert]
    split
    · next hkey =>
      subst hkey
      exact List.pairwise_cons.mpr ⟨hfirst, hrest⟩
    · next hkey =>
      split
      · next hlt =>
        refine List.pairwise_cons.mpr ⟨fun p hp => ?_, h⟩
        rcases List.mem_cons.mp hp with rfl | hp
        · exact hlt
        · exact Std.lt_trans hlt (hfirst p hp)
      · next hnot =>
        refine List.pairwise_cons.mpr ⟨fun p hp => ?_, ih hrest⟩
        rcases mem_insert hp with rfl | hp
        · rcases Std.lt_trichotomy q.1 x with hlt | heq | hgt
          · exact hlt
          · exact absurd heq hkey
          · exact absurd hgt hnot
        · exact hfirst p hp

theorem sorted_ofPairs (pairs : List (κ × α)) : Sorted (ofPairs pairs) := by
  suffices h : ∀ m : Dict κ α, Sorted m →
      Sorted (pairs.foldl (fun m p => Dict.insert m p.1 p.2) m) from h [] List.Pairwise.nil
  induction pairs with
  | nil => exact fun m hm => hm
  | cons p pairs ih => exact fun m hm => ih _ (hm.insert p.1 p.2)

omit [DecidableLT κ] [Std.IsLinearOrder κ] in
theorem get?_of_mem (h : Sorted m) (hmem : (x, a) ∈ m) : get? m x = some a := by
  refine get?_of_distinct (List.Pairwise.imp ?_ h) hmem
  intro p q hlt heq
  rw [heq] at hlt
  exact Std.lt_irrefl hlt

omit [DecidableLT κ] [Std.IsLinearOrder κ] in
theorem get?_filter (h : Sorted m) (keeps : α → Bool) (x : κ) :
    get? (m.filter fun p => keeps p.2) x = (get? m x).filter keeps := by
  cases hfound : get? (m.filter fun p => keeps p.2) x with
  | some a =>
    obtain ⟨hmem, hkeeps⟩ := List.mem_filter.mp (mem_of_get? hfound)
    rw [get?_of_mem h hmem, Option.filter_some, if_pos hkeeps]
  | none =>
    cases hthere : get? m x with
    | none => rfl
    | some a =>
      cases hkeeps : keeps a with
      | false => simp [Option.filter, hkeeps]
      | true =>
        have hmem : (x, a) ∈ m.filter fun p => keeps p.2 :=
          List.mem_filter.mpr ⟨mem_of_get? hthere, hkeeps⟩
        rw [get?_of_mem (h.filter _) hmem] at hfound
        cases hfound

end Order

end Dict

end Cutscene
