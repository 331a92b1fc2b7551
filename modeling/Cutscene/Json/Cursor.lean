import Cutscene.Json.Error

/-! A position in the bytes of a JSON text, and the reading of blanks, words and texts from it. -/

namespace Cutscene.Json

structure Cursor where
  rest : List UInt8
  line : Nat := 1
  column : Nat := 0

namespace Cursor

variable {α : Type}

def start (source : String) : Cursor := ⟨source.toUTF8.toList, 1, 0⟩

/-- Where the cursor stands once the byte `b` before `rest` is passed. -/
def pass (c : Cursor) (b : UInt8) (rest : List UInt8) : Cursor :=
  if b = 10 then ⟨rest, c.line + 1, 0⟩ else ⟨rest, c.line, c.column + 1⟩

def next? (c : Cursor) : Option (UInt8 × Cursor) :=
  match c.rest with
  | [] => none
  | b :: rest => some (b, c.pass b rest)

def peek? (c : Cursor) : Option UInt8 := c.rest.head?

/-- One byte on, or the same place at the end. -/
def skip (c : Cursor) : Cursor :=
  match c.next? with
  | none => c
  | some (_, c') => c'

def fail (c : Cursor) (p : Problem) : Except Error α := .error ⟨p, c.line, c.column⟩

/-- Blames the next byte, which counts as read. -/
def failNext (c : Cursor) (p : Problem) : Except Error α := c.skip.fail p

def isSpace (b : UInt8) : Bool := b = 32 || b = 10 || b = 9 || b = 13

def isDigit (b : UInt8) : Bool := 48 ≤ b && b ≤ 57

def skipSpaces (c : Cursor) : Cursor := go c c.rest
where
  go (c : Cursor) : List UInt8 → Cursor
    | [] => c
    | b :: rest => if isSpace b then go (c.pass b rest) rest else c

/-- The digits ahead, by value, and the place after them. -/
def digits (c : Cursor) : List Nat × Cursor :=
  let (ds, rest) := c.rest.span isDigit
  (ds.map fun b => b.toNat - 48, ⟨rest, c.line, c.column + ds.length⟩)

/-- Reads the remaining letters of a word such as `null`. -/
def word (c : Cursor) : List UInt8 → Except Error Cursor
  | [] => .ok c
  | w :: ws => match c.next? with
    | none => c.fail .endInValue
    | some (b, c') => if b = w then c'.word ws else c'.fail .badWord

def hexValue? (b : UInt8) : Option Nat :=
  if isDigit b then some (b.toNat - 48)
  else if 97 ≤ b && b ≤ 102 then some (b.toNat - 87)
  else if 65 ≤ b && b ≤ 70 then some (b.toNat - 55)
  else none

/-- Reads four hexadecimal digits. -/
def hex4 (c : Cursor) : Except Error (Nat × Cursor) :=
  match c.rest with
  | w :: x :: y :: z :: _ =>
    let after := c.skip.skip.skip.skip
    match hexValue? w, hexValue? x, hexValue? y, hexValue? z with
    | some w, some x, some y, some z => .ok (((w * 16 + x) * 16 + y) * 16 + z, after)
    | _, _, _, _ => after.fail .badEscape
  | short => (short.foldl (fun c _ => c.skip) c).fail .endInText

/-- Reads one byte that has to be `b`, inside an escaped pair of surrogates. -/
def pairByte (c : Cursor) (b : UInt8) : Except Error Cursor :=
  match c.next? with
  | none => c.fail .endInText
  | some (x, c') => if x = b then .ok c' else c'.fail .cutSurrogate

/-- Reads what follows a backslash and a `u`: a character, in one escape or in a surrogate pair. -/
def unicodeEscape (c : Cursor) : Except Error (Char × Cursor) := do
  let (high, c) ← c.hex4
  if 0xDC00 ≤ high && high ≤ 0xDFFF then c.fail .loneSurrogate
  else if high < 0xD800 || 0xDBFF < high then .ok (Char.ofNat high, c)
  else
    let c ← c.pairByte 92
    let c ← c.pairByte 117
    let (low, c) ← c.hex4
    if low < 0xDC00 || 0xDFFF < low then c.fail .loneSurrogate
    else .ok (Char.ofNat ((high - 0xD800) * 0x400 + (low - 0xDC00) + 0x10000), c)

def shortEscape? (b : UInt8) : Option UInt8 :=
  if b = 34 || b = 92 || b = 47 then some b
  else if b = 98 then some 8
  else if b = 102 then some 12
  else if b = 110 then some 10
  else if b = 114 then some 13
  else if b = 116 then some 9
  else none

/-- Reads a text whose opening quote is passed. The fuel bounds the number of characters; `done`
holds the bytes read so far, backwards. -/
def textFrom : Nat → Cursor → List UInt8 → Except Error (String × Cursor)
  | 0, c, _ => c.fail .endInText
  | fuel + 1, c, done => match c.next? with
    | none => c.fail .endInText
    | some (b, c') =>
      if b = 34 then
        .ok ((String.fromUTF8? ⟨done.reverse.toArray⟩).getD "", c')
      else if b = 92 then match c'.next? with
        | none => c'.fail .endInText
        | some (e, c'') =>
          if e = 117 then do
            let (ch, c''') ← c''.unicodeEscape
            textFrom fuel c''' ((String.singleton ch).toUTF8.toList.reverse ++ done)
          else match shortEscape? e with
            | some byte => textFrom fuel c'' (byte :: done)
            | none => c''.fail .badEscape
      else if b < 32 then c'.fail .controlInText
      else textFrom fuel c' (b :: done)

def text (c : Cursor) : Except Error (String × Cursor) := textFrom (c.rest.length + 1) c []

end Cursor

end Cutscene.Json
