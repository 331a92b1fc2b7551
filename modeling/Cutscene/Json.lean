import Cutscene.Decimal

/-! JSON values and their two written forms: the compact one without any blank, and the indented
one with two blanks a level. A record keeps its fields in the order in which they were given. -/

namespace Cutscene

inductive Json where
  | null
  | bool (b : Bool)
  | int (n : Int)
  | text (s : String)
  | list (items : List Json)
  | record (fields : List (String × Json))
  deriving Inhabited

namespace Json

/-- Four hexadecimal digits. -/
def hex4 (n : Nat) : List Char :=
  let ds := Nat.toDigits 16 n
  List.replicate (4 - ds.length) '0' ++ ds

/-- Escapes the quote, the backslash and the controls below the space, and nothing else. -/
def escapeChar (c : Char) : List Char :=
  if c = '"' then ['\\', '"']
  else if c = '\\' then ['\\', '\\']
  else if c = '\n' then ['\\', 'n']
  else if c = '\r' then ['\\', 'r']
  else if c = '\t' then ['\\', 't']
  else if c = '\x08' then ['\\', 'b']
  else if c = '\x0c' then ['\\', 'f']
  else if c.toNat < 0x20 then '\\' :: 'u' :: hex4 c.toNat
  else [c]

def quote (s : String) : String :=
  String.ofList ('"' :: s.toList.flatMap escapeChar ++ ['"'])

mutual

def compact : Json → String
  | .null => "null"
  | .bool b => if b then "true" else "false"
  | .int n => Decimal.text n
  | .text s => quote s
  | .list items => "[" ++ compactItems items ++ "]"
  | .record fields => "\x7b" ++ compactFields fields ++ "\x7d"

def compactItems : List Json → String
  | [] => ""
  | [j] => compact j
  | j :: rest => compact j ++ "," ++ compactItems rest

def compactFields : List (String × Json) → String
  | [] => ""
  | [(k, j)] => quote k ++ ":" ++ compact j
  | (k, j) :: rest => quote k ++ ":" ++ compact j ++ "," ++ compactFields rest

end

/-- A line break and the blanks of a level. -/
def newline (level : Nat) : String := String.ofList ('\n' :: List.replicate (2 * level) ' ')

mutual

/-- The indented form of a value that stands at `level`. -/
def indented (level : Nat) : Json → String
  | .null => "null"
  | .bool b => if b then "true" else "false"
  | .int n => Decimal.text n
  | .text s => quote s
  | .list [] => "[]"
  | .list (j :: rest) => "[" ++ indentedItems (level + 1) (j :: rest) ++ newline level ++ "]"
  | .record [] => "\x7b\x7d"
  | .record (f :: rest) =>
    "\x7b" ++ indentedFields (level + 1) (f :: rest) ++ newline level ++ "\x7d"

def indentedItems (level : Nat) : List Json → String
  | [] => ""
  | [j] => newline level ++ indented level j
  | j :: rest => newline level ++ indented level j ++ "," ++ indentedItems level rest

def indentedFields (level : Nat) : List (String × Json) → String
  | [] => ""
  | [(k, j)] => newline level ++ quote k ++ ": " ++ indented level j
  | (k, j) :: rest =>
    newline level ++ quote k ++ ": " ++ indented level j ++ "," ++ indentedFields level rest

end

def pretty (j : Json) : String := indented 0 j

def ofOption {α : Type} (f : α → Json) : Option α → Json
  | none => .null
  | some a => f a

/-- A record whose later fields overwrite earlier ones of the same name, in their place. -/
def overwrite (fields : List (String × Json)) : Json :=
  .record (fields.foldl put [])
where
  put (done : List (String × Json)) (field : String × Json) : List (String × Json) :=
    if done.any (·.1 == field.1) then
      done.map fun f => if f.1 == field.1 then field else f
    else done ++ [field]

def field? (j : Json) (name : String) : Option Json :=
  match j with
  | .record fields => (fields.find? (·.1 == name)).map Prod.snd
  | _ => none

end Json

end Cutscene
