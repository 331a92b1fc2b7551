import Cutscene.Decimal

/-! How many parameters a command takes: at least so many, and at most so many where there is a
bound. -/

namespace Cutscene

structure Arity where
  min : Nat
  max : Option Nat
  deriving DecidableEq, Repr

namespace Arity

def exactly (n : Nat) : Arity := ⟨n, some n⟩

def between (low high : Nat) : Arity := ⟨low, some high⟩

def atLeast (n : Nat) : Arity := ⟨n, none⟩

def accepts (a : Arity) (n : Nat) : Bool :=
  a.min ≤ n && match a.max with
    | none => true
    | some m => n ≤ m

def text (a : Arity) : String :=
  match a.max with
  | some m =>
    if m = a.min then Decimal.text a.min else Decimal.text a.min ++ "..=" ++ Decimal.text m
  | none => Decimal.text a.min ++ " or more"

theorem between_accepts_iff {low high n : Nat} :
    (between low high).accepts n = true ↔ low ≤ n ∧ n ≤ high := by
  rw [accepts, Bool.and_eq_true]
  exact and_congr decide_eq_true_iff decide_eq_true_iff

end Arity

end Cutscene
