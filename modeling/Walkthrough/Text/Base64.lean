/-! Bytes written with sixty-four signs. Four signs stand for three bytes; other characters among
them say nothing, and a pad ends the text where a group of four is complete with it. -/
namespace Walkthrough.Text

/-- The value of one of the sixty-four signs. -/
def sixBits? (c : Char) : Option Nat :=
  let n := c.toNat
  if 65 ≤ n && n ≤ 90 then some (n - 65)
  else if 97 ≤ n && n ≤ 122 then some (n - 71)
  else if 48 ≤ n && n ≤ 57 then some (n + 4)
  else if c == '+' then some 62
  else if c == '/' then some 63
  else none

/-- Where the reading of a group of four stands: how many signs of it are read, the bits that are
left of the last one, and how many pads follow it. -/
structure Group where
  signs : Nat
  bits : Nat
  pads : Nat

/-- The byte that a sign completes, and where the reading stands then. -/
def Group.take (g : Group) (six : Nat) : List UInt8 × Group :=
  match g.signs with
  | 0 => ([], ⟨1, six, 0⟩)
  | 1 => ([(g.bits * 4 + six / 16).toUInt8], ⟨2, six % 16, 0⟩)
  | 2 => ([(g.bits * 16 + six / 4).toUInt8], ⟨3, six % 4, 0⟩)
  | _ => ([(g.bits * 64 + six).toUInt8], ⟨0, 0, 0⟩)

def bytesFrom? (g : Group) : List Char → Option (List UInt8)
  | [] => if g.signs == 0 then some [] else none
  | c :: cs =>
    if c == '=' then
      if g.signs < 2 then bytesFrom? g cs
      else if 4 ≤ g.signs + g.pads + 1 then some []
      else bytesFrom? { g with pads := g.pads + 1 } cs
    else
      match sixBits? c with
      | none => bytesFrom? g cs
      | some six => (bytesFrom? (g.take six).2 cs).map ((g.take six).1 ++ ·)

/-- The bytes that an ASCII text spells. -/
def bytes? (cs : List Char) : Option (List UInt8) :=
  if cs.all fun c => c.toNat < 128 then bytesFrom? ⟨0, 0, 0⟩ cs else none

end Walkthrough.Text
