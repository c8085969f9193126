/-
Module: Paradigm.Pattern.Bracket
Layer: Text
Purpose: Classes of characters in brackets: members, ranges, named classes, nested brackets and
  the set operations between them. What is kept of a class is how deep it is nested.
Imports: Paradigm.Pattern.Escape
Main exports: Pattern.nesting, Pattern.Mode.bracket
-/
import Paradigm.Pattern.Escape

namespace Paradigm.Pattern

/-- The depth of parts that stand side by side. A single part is as deep by itself, and more than
one take a level. -/
def nesting : List Nat → Nat
  | [] => 0
  | [depth] => depth
  | depths => 1 + depths.foldl max 0

/-! ### Members -/

/-- Whether an atom may stand in brackets. Where bytes count, members are ASCII. -/
def Atom.fitsBracket (m : Mode) : Atom → Bool
  | .literal c _ => m.unicode || c.toNat < 128
  | .shorthand negated => m.unicode || !negated
  | .property => m.unicode
  | .dot | .assertion => false

/-- Whether two atoms are the ends of a range. -/
def Atom.isRange : Atom → Atom → Bool
  | .literal first _, .literal last _ => first.toNat ≤ last.toNat
  | _, _ => false

/-- Takes an atom in brackets. -/
def Mode.bracketAtom (m : Mode) : Reading Atom := do
  let atom ← match ← next with
    | '\\' => m.escape
    | c => pure (.literal c false)
  guard (atom.fitsBracket m)
  return atom

/-- The character behind blanks. One number sign is passed over like a blank. -/
def behindSign : Bool → List Char → Option Char
  | _, [] => none
  | passed, c :: rest =>
      if isBlank c then behindSign passed rest
      else if c == '#' && !passed then behindSign true rest
      else some c

/-- Whether a hyphen with these characters behind it is the middle of a range. At the end of the
brackets it stands for itself, and a second one makes it an operation. -/
def Mode.joins (m : Mode) (behind : List Char) : Bool :=
  let c := if m.extended then behindSign false behind else behind.head?
  c != some ']' && c != some '-'

/-- Takes a hyphen that is the middle of a range, if there is one. -/
def Mode.takeJoin (m : Mode) : Reading Bool := modifyGet fun
  | '-' :: rest => if m.joins rest then (true, rest) else (false, '-' :: rest)
  | cs => (false, cs)

/-- Takes an atom or a range. -/
def Mode.member (m : Mode) : Reading Unit := do
  let first ← m.bracketAtom
  m.skip
  if ← m.takeJoin then
    m.skip
    guard (first.isRange (← m.bracketAtom))

/-- The names of classes that stand between colons. -/
def namedClasses : List String :=
  ["alnum", "alpha", "ascii", "blank", "cntrl", "digit", "graph", "lower", "print", "punct",
    "space", "upper", "word", "xdigit"]

/-- Takes a named class, if there is one, and says whether it is negated. What is not a class with
a known name stays. -/
def namedClass : Reading (Option Bool) := do
  let cs ← get
  if ← take ['[', ':'] then
    let negated ← take ['^']
    let name ← span (· != ':')
    if namedClasses.contains (String.ofList name) then
      if ← take [':', ']'] then
        return some negated
  set cs
  return none

/-! ### Brackets -/

/-- A bracket that is still open: the depths of its members, and the depth of what stands before
the last operation. -/
structure Bracket where
  members : List Nat
  left : Option Nat := none

/-- The depth of the set so far. An operation takes a level. -/
def Bracket.setDepth (b : Bracket) : Nat :=
  match b.left with
  | none => nesting b.members
  | some left => 1 + max left (nesting b.members)

/-- Adds a member of some depth. -/
def Bracket.push (b : Bracket) (depth : Nat) : Bracket := { b with members := depth :: b.members }

/-- Begins the right side of an operation. -/
def Bracket.operate (b : Bracket) : Bracket := { members := [], left := some b.setDepth }

/-- Takes the beginning of a bracket: the sign of negation, hyphens, and a closing bracket that
stands for itself because nothing is before it. Where bytes count, nothing may be negated. -/
def Mode.openBracket (m : Mode) : Reading Bracket := do
  m.skip
  if ← take ['^'] then
    guard m.unicode
    m.skip
  let hyphens ← m.takeWhile (· == '-')
  if hyphens.isEmpty then
    if ← take [']'] then
      return { members := [0] }
  return { members := hyphens.map fun _ => 0 }

/-- Open brackets, the innermost first. -/
abbrev Brackets := Bracket × List Bracket

/-- Takes one member, operation or bracket. The result is the depth of the outermost bracket. -/
def Mode.bracketStep (m : Mode) (b : Brackets) : Reading (Brackets ⊕ Nat) := do
  m.skip
  match ← get with
  | ']' :: rest =>
      set rest
      let depth := 1 + b.1.setDepth
      match b.2 with
      | [] => return .inr depth
      | outer :: outers => return .inl (outer.push depth, outers)
  | '&' :: '&' :: rest | '-' :: '-' :: rest | '~' :: '~' :: rest =>
      set rest
      return .inl (b.1.operate, b.2)
  | '[' :: rest =>
      match ← namedClass with
      | some negated =>
          guard (m.unicode || !negated)
          return .inl (b.1.push 0, b.2)
      | none =>
          set rest
          return .inl (← m.openBracket, b.1 :: b.2)
  | _ =>
      m.member
      return .inl (b.1.push 0, b.2)

/-- Takes a class whose first bracket has been taken; the result is its depth. -/
def Mode.bracket (m : Mode) : Reading Nat := do
  iterate m.bracketStep (← m.openBracket, [])

end Paradigm.Pattern
