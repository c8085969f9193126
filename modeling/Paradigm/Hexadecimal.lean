/-
Module: Paradigm.Hexadecimal
Layer: Text
Purpose: Numbers in hexadecimal digits. Reading takes both cases and writing uses lower case.
Imports: none
Main exports: Hexadecimal.digit?, Hexadecimal.read?, Hexadecimal.write
-/
namespace Paradigm.Hexadecimal

/-- The value of a digit. -/
def digit? (c : Char) : Option Nat :=
  let n := c.toNat
  if 0x30 ≤ n && n ≤ 0x39 then some (n - 0x30)
  else if 0x61 ≤ n && n ≤ 0x66 then some (n - 0x61 + 10)
  else if 0x41 ≤ n && n ≤ 0x46 then some (n - 0x41 + 10)
  else none

/-- The number that digits stand for, the first digit being the highest. -/
def read? (digits : List Char) : Option Nat :=
  digits.foldlM (fun n c => (digit? c).map (16 * n + ·)) 0

/-- The lowest digits of a number, as many as asked for. -/
def write (width n : Nat) : String :=
  String.ofList ((List.range width).map fun i =>
    Nat.digitChar (n / Nat.pow 16 (width - 1 - i) % 16))

end Paradigm.Hexadecimal
