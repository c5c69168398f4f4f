/-! Sets of characters given by closed ranges of code points, the form in which the character
tables of this folder are written. -/
namespace Walkthrough.Text

abbrev Ranges := List (Nat × Nat)

def Ranges.holds (ranges : Ranges) (c : Char) : Bool :=
  ranges.any fun (first, last) => first ≤ c.toNat && c.toNat ≤ last

end Walkthrough.Text
