import Cutscene.Fault
import Cutscene.Text.Blank

/-! The parameter list of a command. Commas and parentheses count where they stand outside double
quotes, and commas only outside inner parentheses; both readings of the list, for its end and for
its commas, keep count in the same way. -/

namespace Cutscene.Script

/-- Whether a quote is open, and how many inner parentheses are. -/
structure Nesting where
  quoted : Bool := false
  depth : Nat := 0
  deriving DecidableEq, Repr

def Nesting.after (n : Nesting) (c : Char) : Nesting :=
  if c = '"' then { n with quoted := !n.quoted }
  else if n.quoted then n
  else if c = '(' then { n with depth := n.depth + 1 }
  else if c = ')' then { n with depth := n.depth - 1 }
  else n

/-- Outside quotes and inner parentheses. -/
def Nesting.isOuter (n : Nesting) : Bool := !n.quoted && n.depth = 0

/-- Splits what follows an opening parenthesis at the one that closes it. -/
def splitClosing (n : Nesting) : List Char → Except Cause (List Char × List Char)
  | [] => .error (if n.quoted then .textUnterminated else .parenthesisUnclosed)
  | c :: s =>
    if c = ')' && n.isOuter then .ok ([], s)
    else match splitClosing (n.after c) s with
      | .ok (inside, rest) => .ok (c :: inside, rest)
      | .error e => .error e

def consHead (c : Char) : List (List Char) → List (List Char)
  | [] => [[c]]
  | p :: rest => (c :: p) :: rest

/-- Splits at the outer commas; none when a quote is left open. -/
def splitCommas? (n : Nesting) : List Char → Option (List (List Char))
  | [] => if n.quoted then none else some [[]]
  | c :: s =>
    if c = ',' && n.isOuter then (splitCommas? n s).map ([] :: ·)
    else (splitCommas? (n.after c) s).map (consHead c)

/-- Trims a parameter and takes off the quotes around it. -/
def unquote (raw : List Char) : List Char :=
  match Text.trim raw with
  | '"' :: s => if s.getLast? = some '"' then s.dropLast else '"' :: s
  | s => s

/-- The parameters of a list given without its parentheses. -/
def arguments (raw : List Char) : Except Cause (List String) :=
  if (Text.trim raw).isEmpty then .ok []
  else match splitCommas? {} raw with
    | none => .error .textUnterminated
    | some pieces => .ok (pieces.map fun p => String.ofList (unquote p))

end Cutscene.Script
