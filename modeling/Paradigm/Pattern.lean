/-
Module: Paradigm.Pattern
Layer: Text
Purpose: Which texts are regular expressions. A pattern is read with the groups that are open at
  each place; what is kept of it is how deep it is nested, for that is bounded.
Imports: Paradigm.Pattern.Bracket, Paradigm.Pattern.Group
Main exports: Pattern.depth?, Pattern.isValid
-/
import Paradigm.Pattern.Bracket
import Paradigm.Pattern.Group

namespace Paradigm.Pattern

/-! ### Parts -/

/-- A part of a sequence. Flags cannot be repeated. -/
structure Part where
  depth : Nat
  repeatable : Bool := true

/-- A group that is still open: its mode, the depths of its finished alternatives, and the parts of
the last one. The last part comes first. -/
structure OpenGroup where
  mode : Mode := {}
  alternatives : List Nat := []
  parts : List Part := []

namespace OpenGroup

/-- The depth of the parts of the last alternative. -/
def sequenceDepth (g : OpenGroup) : Nat := nesting (g.parts.map (·.depth))

/-- The depth of all that a group holds. -/
def depth (g : OpenGroup) : Nat := nesting (g.sequenceDepth :: g.alternatives)

/-- Adds a part. -/
def push (g : OpenGroup) (part : Part) : OpenGroup := { g with parts := part :: g.parts }

/-- Begins another alternative. -/
def alternate (g : OpenGroup) : OpenGroup :=
  { g with alternatives := g.sequenceDepth :: g.alternatives, parts := [] }

/-- Repeats the last part. -/
def repeated? (g : OpenGroup) : Option OpenGroup :=
  match g.parts with
  | part :: parts =>
      if part.repeatable then some { g with parts := { depth := 1 + part.depth } :: parts }
      else none
  | [] => none

end OpenGroup

/-- What has been read: the names of captures and the groups that are open. -/
structure Progress where
  names : List String := []
  current : OpenGroup := {}
  outer : List OpenGroup := []

namespace Progress

/-- Adds a part to the innermost group. -/
def push (p : Progress) (part : Part) : Progress := { p with current := p.current.push part }

/-- Opens a group. -/
def enter (p : Progress) (mode : Mode) : Progress :=
  { p with current := { mode := mode }, outer := p.current :: p.outer }

/-- Closes the innermost group, which becomes a part of the one around it. -/
def leave? (p : Progress) : Option Progress :=
  match p.outer with
  | [] => none
  | g :: outer =>
      some { p with current := g.push { depth := 1 + p.current.depth }, outer := outer }

/-- Repeats the last part. -/
def repeated? (p : Progress) : Option Progress :=
  p.current.repeated?.map fun g => { p with current := g }

/-- Begins a group, or changes the mode. A name belongs to one capture only. -/
def start (p : Progress) : GroupStart → Option Progress
  | .unnamed => some (p.enter p.current.mode)
  | .named name =>
      if p.names.contains name then none
      else some { p.enter p.current.mode with names := name :: p.names }
  | .flagged mode => some (p.enter mode)
  | .change mode =>
      let changed := { p with current := { p.current with mode := mode } }
      some (changed.push { depth := 0, repeatable := false })

end Progress

/-! ### Counted repetitions -/

/-- The largest count of repetitions. -/
def maxCount : Nat := 4294967295

/-- Takes a count. Blanks may stand on both sides of it. -/
def Mode.count (m : Mode) : Reading Nat := do
  discard (span isBlank)
  let digits ← m.takeWhile Char.isDigit
  discard (span isBlank)
  guard !digits.isEmpty
  let n := Nat.ofDigitChars 10 digits 0
  guard (n ≤ maxCount)
  return n

/-- Takes the counts of a repetition whose opening brace has been taken: one, or a least and
perhaps a greatest one. -/
def Mode.counts (m : Mode) : Reading Unit := do
  m.skip
  let least ← m.count
  if ← take [','] then
    m.skip
    if (← look) != '\x7d' then
      guard (least ≤ (← m.count))
  expect '\x7d'

/-! ### Whole patterns -/

/-- Takes one part, or a mark between parts. The result is the depth of the pattern. -/
def step (p : Progress) : Reading (Progress ⊕ Nat) := do
  let mode := p.current.mode
  mode.skip
  match ← get with
  | [] =>
      guard p.outer.isEmpty
      return .inr p.current.depth
  | '(' :: rest =>
      set rest
      return .inl (← p.start (← mode.groupStart))
  | ')' :: rest =>
      set rest
      return .inl (← p.leave?)
  | '|' :: rest =>
      set rest
      return .inl { p with current := p.current.alternate }
  | '[' :: rest =>
      set rest
      return .inl (p.push { depth := ← mode.bracket })
  | '?' :: rest | '*' :: rest | '+' :: rest =>
      set rest
      discard (take ['?'])
      return .inl (← p.repeated?)
  | '\x7b' :: rest =>
      set rest
      mode.counts
      mode.skip
      discard (take ['?'])
      return .inl (← p.repeated?)
  | _ =>
      discard mode.atom
      return .inl (p.push { depth := 0 })

/-- How deep a regular expression is nested. Other texts have no depth. -/
def depth? (pattern : String) : Option Nat := (iterate step {} pattern.toList).map (·.1)

/-- The greatest depth that is accepted. -/
def maxDepth : Nat := 250

/-- Whether a text is a regular expression that is not nested too deep. -/
def isValid (pattern : String) : Bool :=
  match depth? pattern with
  | some depth => depth ≤ maxDepth
  | none => false

end Paradigm.Pattern
