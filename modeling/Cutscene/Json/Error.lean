import Cutscene.Text.Blank
import Cutscene.Text.Quoted
import Cutscene.Decimal.Shortest

/-! What can be wrong with a JSON text, with the line and column at which reading stopped. -/

namespace Cutscene.Json

/-- A value met where another kind was wanted. -/
inductive Found where
  | null
  | bool (b : Bool)
  | integer (n : Int)
  | fraction (bits : Nat)
  | text (s : String)
  | list
  | record

inductive Problem where
  | endInValue
  | endInRecord
  | endInText
  | noColon
  | noCommaOrBrace
  | badWord
  | noValue
  | badEscape
  | badNumber
  | numberTooLarge
  | controlInText
  | keyNotText
  | loneSurrogate
  | cutSurrogate
  | trailingComma
  | trailing
  | wrongKind (found : Found) (wanted : String)
  | outOfRange (found : Found) (wanted : String)

/-- Columns count bytes; the first line is line 1. -/
structure Error where
  problem : Problem
  line : Nat
  column : Nat

def Found.describe : Found → String
  | .null => "null"
  | .bool b => if b then "boolean `true`" else "boolean `false`"
  | .integer n => "integer `" ++ Decimal.text n ++ "`"
  | .fraction bits => "floating point `" ++ String.ofList (Decimal.ofBits bits) ++ "`"
  | .text s => "string " ++ Text.onChars Text.quote s
  | .list => "sequence"
  | .record => "map"

def Problem.message : Problem → String
  | .endInValue => "EOF while parsing a value"
  | .endInRecord => "EOF while parsing an object"
  | .endInText => "EOF while parsing a string"
  | .noColon => "expected `:`"
  | .noCommaOrBrace => "expected `,` or `\x7d`"
  | .badWord => "expected ident"
  | .noValue => "expected value"
  | .badEscape => "invalid escape"
  | .badNumber => "invalid number"
  | .numberTooLarge => "number out of range"
  | .controlInText => "control character (\\u0000-\\u001F) found while parsing a string"
  | .keyNotText => "key must be a string"
  | .loneSurrogate => "lone leading surrogate in hex escape"
  | .cutSurrogate => "unexpected end of hex escape"
  | .trailingComma => "trailing comma"
  | .trailing => "trailing characters"
  | .wrongKind found wanted => "invalid type: " ++ found.describe ++ ", expected " ++ wanted
  | .outOfRange found wanted => "invalid value: " ++ found.describe ++ ", expected " ++ wanted

def Error.message (e : Error) : String :=
  e.problem.message ++ " at line " ++ Decimal.text e.line ++ " column " ++ Decimal.text e.column

end Cutscene.Json
