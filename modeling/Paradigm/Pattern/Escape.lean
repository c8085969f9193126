/-
Module: Paradigm.Pattern.Escape
Layer: Text
Purpose: What single characters and escapes stand for, both inside and outside brackets.
Imports: Paradigm.Hexadecimal, Paradigm.Pattern.Property, Paradigm.Pattern.Reading
Main exports: Pattern.Atom, Pattern.Atom.fits, Pattern.Mode.escape
-/
import Paradigm.Hexadecimal
import Paradigm.Pattern.Property
import Paradigm.Pattern.Reading

namespace Paradigm.Pattern

/-- What stands for one character, or for a place between characters. -/
inductive Atom where
  /-- A character. One that is written with two hexadecimal digits may also mean a byte. -/
  | literal (c : Char) (byte : Bool)
  /-- Any character but a line end. -/
  | dot
  /-- A place. -/
  | assertion
  /-- Digits, blanks or word characters, or all others. -/
  | shorthand (negated : Bool)
  /-- Characters with a property, or all others. -/
  | property
deriving DecidableEq, Repr

/-- Whether an atom may stand where texts are matched. Where bytes count, it must not match a part
of a longer character. -/
def Atom.fits (m : Mode) : Atom → Bool
  | .literal c byte => m.unicode || !byte || c.toNat < 128
  | .dot | .property => m.unicode
  | .assertion => true
  | .shorthand negated => m.unicode || !negated

/-! ### Character numbers -/

/-- The character with a number. Halves of surrogate pairs are no characters. -/
def charOfNumber? (n : Nat) : Option Char :=
  if n.isValidChar then some (Char.ofNat n) else none

/-- The character whose number is written with these digits. -/
def charOfDigits? (digits : List Char) : Option Char := do
  charOfNumber? (← Hexadecimal.read? digits)

/-- Takes as many characters as asked for, each with what does not count behind it. -/
def Mode.takeCount (m : Mode) : Nat → Reading (List Char)
  | 0 => return []
  | n + 1 => do
      let c ← next
      m.skip
      return c :: (← m.takeCount n)

/-- Takes the number of a character, either a fixed count of digits or any count in braces. -/
def Mode.numbered (m : Mode) (count : Nat) : Reading Atom := do
  m.skip
  if ← take ['\x7b'] then
    let digits ← m.takeWhile (· != '\x7d')
    expect '\x7d'
    guard !digits.isEmpty
    return .literal (← charOfDigits? digits) false
  else
    return .literal (← charOfDigits? (← m.takeCount count)) (count == 2)

/-! ### Properties and places -/

/-- Takes the name of a property, either one letter or any name in braces. -/
def Mode.propertyName (m : Mode) : Reading Atom := do
  m.skip
  if ← take ['\x7b'] then
    let query ← m.takeWhile (· != '\x7d')
    expect '\x7d'
    guard (Property.isKnown query)
  else
    guard (Property.isName [← next])
  return .property

/-- Whether a character may stand in the name of a kind of word boundary. -/
def isBoundaryLetter (c : Char) : Bool := c.isAlpha || c == '-'

/-- The kinds of word boundaries that have names. -/
def boundaryNames : List String := ["start", "end", "start-half", "end-half"]

/-- Takes the kind of a word boundary in braces. Braces that do not begin with a letter are left
alone, for they count repetitions. -/
def Mode.boundary (m : Mode) : Reading Atom := do
  let cs ← get
  if ← take ['\x7b'] then
    m.skip
    if isBoundaryLetter (← look) then
      let name ← m.takeWhile isBoundaryLetter
      expect '\x7d'
      guard (boundaryNames.contains (String.ofList name))
    else set cs
  return .assertion

/-! ### Escapes -/

/-- The characters that letters stand for behind a backslash. -/
def controlLetters : List (Char × Char) :=
  [('a', '\x07'), ('f', '\x0c'), ('n', '\n'), ('r', '\r'), ('t', '\t'), ('v', '\x0b')]

/-- Whether a character stands for itself behind a backslash: any ASCII character but letters,
digits and angle brackets. -/
def isPlainEscape (c : Char) : Bool := c.toNat < 128 && !c.isAlphanum && c != '<' && c != '>'

/-- Takes what follows a backslash. -/
def Mode.escape (m : Mode) : Reading Atom := do
  let c ← next
  if isPlainEscape c then return .literal c false
  match c with
  | 'x' => m.numbered 2
  | 'u' => m.numbered 4
  | 'U' => m.numbered 8
  | 'p' | 'P' => m.propertyName
  | 'd' | 's' | 'w' => return .shorthand false
  | 'D' | 'S' | 'W' => return .shorthand true
  | 'b' => m.boundary
  | 'A' | 'z' | 'B' | '<' | '>' => return .assertion
  | _ =>
      match controlLetters.lookup c with
      | some control => return .literal control false
      | none => failure

/-- Takes an atom that stands outside brackets. -/
def Mode.atom (m : Mode) : Reading Atom := do
  let atom ← match ← next with
    | '\\' => m.escape
    | '.' => pure .dot
    | '^' | '$' => pure .assertion
    | c => pure (.literal c false)
  guard (atom.fits m)
  return atom

end Paradigm.Pattern
