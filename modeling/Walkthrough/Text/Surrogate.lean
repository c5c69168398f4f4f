/-! Characters that two 16-bit units spell together. A unit from the high half range waits for one
from the low half range; a half by itself is no character. -/
namespace Walkthrough.Text

def isHighHalf (n : Nat) : Bool := 0xD800 ≤ n && n < 0xDC00
def isLowHalf (n : Nat) : Bool := 0xDC00 ≤ n && n < 0xE000

def joinHalves (high low : Nat) : Char :=
  Char.ofNat (0x10000 + (high - 0xD800) * 1024 + (low - 0xDC00))

/-- The character of a unit by itself; a half becomes the replacement character. -/
def unitChar (n : Nat) : Char :=
  if isHighHalf n || isLowHalf n then '\uFFFD' else Char.ofNat n

end Walkthrough.Text
