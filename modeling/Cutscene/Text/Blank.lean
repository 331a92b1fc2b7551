/-! White space and trimming. A blank is a character of Unicode's White_Space property, and every
text that a script leaves to the reader's layout is trimmed by this one rule. -/

namespace Cutscene.Text

/-- The 25 characters of Unicode's White_Space property. -/
def isBlank (c : Char) : Bool :=
  let n := c.toNat
  (9 ≤ n && n ≤ 13) || n == 0x20 || n == 0x85 || n == 0xA0 || n == 0x1680 ||
    (0x2000 ≤ n && n ≤ 0x200A) || n == 0x2028 || n == 0x2029 || n == 0x202F || n == 0x205F ||
    n == 0x3000

def trimStart (s : List Char) : List Char := s.dropWhile isBlank

def trimEnd (s : List Char) : List Char := (s.reverse.dropWhile isBlank).reverse

def trim (s : List Char) : List Char := trimEnd (trimStart s)

/-- Takes one `c` off the front, if it is there. -/
def dropFront (c : Char) : List Char → List Char
  | [] => []
  | x :: s => if x = c then s else x :: s

/-- Takes one `c` off the back, if it is there. -/
def dropBack (c : Char) (s : List Char) : List Char := (dropFront c s.reverse).reverse

/-- The text before the first `//`. -/
def beforeComment : List Char → List Char
  | [] => []
  | '/' :: '/' :: _ => []
  | c :: s => c :: beforeComment s

/-- A rule on characters as a function on strings. -/
def onChars (f : List Char → List Char) (s : String) : String := String.ofList (f s.toList)

def isBlankText (s : String) : Bool := s.toList.all isBlank

end Cutscene.Text
