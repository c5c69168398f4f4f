/-! White space and the removal of it from the ends of a text. The class is the Unicode one, with
the four information separators, so more than the space and control characters of ASCII. -/
namespace Walkthrough.Text

def isBlank (c : Char) : Bool :=
  let n := c.toNat
  (9 ≤ n && n ≤ 13) || (28 ≤ n && n ≤ 32) || n == 0x85 || n == 0xA0 || n == 0x1680 ||
    (0x2000 ≤ n && n ≤ 0x200A) || n == 0x2028 || n == 0x2029 || n == 0x202F || n == 0x205F ||
    n == 0x3000

/-- Removes characters of a class from both ends. -/
def trimWhere (p : Char → Bool) (cs : List Char) : List Char :=
  ((cs.dropWhile p).reverse.dropWhile p).reverse

def trim (cs : List Char) : List Char := trimWhere isBlank cs

def strip (s : String) : String := String.ofList (trim s.toList)

def allBlank (cs : List Char) : Bool := cs.all isBlank

end Walkthrough.Text
