/-!
# Binary data

Binary data are written with 64 digits, four for three bytes. Other characters of ASCII have no
meaning; equals signs fill up the last four digits.
-/

namespace RamlTypes.Yaml

/-- The value of one of the 64 digits. -/
def sextet? (c : Char) : Option Nat :=
  if c.isUpper then some (c.toNat - 'A'.toNat)
  else if c.isLower then some (c.toNat - 'a'.toNat + 26)
  else if c.isDigit then some (c.toNat - '0'.toNat + 52)
  else if c = '+' then some 62
  else if c = '/' then some 63
  else none

/-- Reads on behind `place` digits of the last four, with `bits` left over and `fill` equals signs
behind them. Gives the bytes, unless the last four digits are not filled up. -/
def bytesFrom (place bits fill : Nat) : List Char → Option (List Nat)
  | [] => if place = 0 then some [] else none
  | c :: rest =>
      if c = '=' then
        if place < 2 then bytesFrom place bits fill rest
        else if 4 ≤ place + fill + 1 then some []
        else bytesFrom place bits (fill + 1) rest
      else match sextet? c with
        | none => bytesFrom place bits fill rest
        | some n =>
            match place with
            | 0 => bytesFrom 1 n 0 rest
            | 1 => (bytesFrom 2 (n % 16) 0 rest).map ((bits * 4 + n / 16) :: ·)
            | 2 => (bytesFrom 3 (n % 4) 0 rest).map ((bits * 16 + n / 4) :: ·)
            | _ => (bytesFrom 0 0 0 rest).map ((bits * 64 + n) :: ·)

def readBinary (cs : List Char) : Option (List UInt8) :=
  if cs.all (·.toNat < 0x80) then (bytesFrom 0 0 0 cs).map (·.map UInt8.ofNat) else none

end RamlTypes.Yaml
