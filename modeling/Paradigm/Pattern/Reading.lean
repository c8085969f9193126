/-
Module: Paradigm.Pattern.Reading
Layer: Text
Purpose: Reading a pattern from its front. Under flag x, blanks and comments may stand between
  characters; a comment runs from a number sign to the end of its line.
Imports: Paradigm.Pattern.Letter
Main exports: Pattern.Mode, Pattern.Reading, Pattern.next, Pattern.expect, Pattern.take,
  Pattern.iterate, Pattern.Mode.skip, Pattern.Mode.takeWhile
-/
import Paradigm.Pattern.Letter

namespace Paradigm.Pattern

/-- The flags that bear on whether a stretch of a pattern is accepted. -/
structure Mode where
  /-- Flag x: blanks and comments are passed over. -/
  extended : Bool := false
  /-- Flag u: characters are matched, not bytes. -/
  unicode : Bool := true
deriving DecidableEq, Repr

/-- What takes characters from the front of a text, or fails. -/
abbrev Reading := StateT (List Char) Option

/-! ### Single characters -/

/-- Takes the next character. Fails at the end. -/
def next : Reading Char := do
  match ← get with
  | [] => failure
  | c :: rest =>
      set rest
      return c

/-- The next character, which stays. Fails at the end. -/
def look : Reading Char := do
  match ← get with
  | [] => failure
  | c :: _ => return c

/-- Takes this character and fails at any other. -/
def expect (c : Char) : Reading Unit := do
  guard ((← next) == c)

/-- Takes these characters if they stand in front, and says whether they do. -/
def take (word : List Char) : Reading Bool :=
  modifyGet fun cs => if word.isPrefixOf cs then (true, cs.drop word.length) else (false, cs)

/-- Takes the characters of a class. -/
def span (p : Char → Bool) : Reading (List Char) := modifyGet (List.span p)

/-- Repeats a step until it has a result. A step that asks for another one has to take a
character. -/
def iterate {σ α : Type} (step : σ → Reading (σ ⊕ α)) (s : σ) : Reading α := fun cs =>
  match step s cs with
  | some (.inl s', rest) =>
      if _h : rest.length < cs.length then iterate step s' rest else none
  | some (.inr a, rest) => some (a, rest)
  | none => none
termination_by cs => cs.length

/-! ### Blanks and comments -/

/-- What follows the blanks and comments in front, from inside a comment or outside. -/
def behindBlanks : Bool → List Char → List Char
  | _, [] => []
  | true, c :: rest => behindBlanks (c != '\n') rest
  | false, c :: rest =>
      if isBlank c then behindBlanks false rest
      else if c == '#' then behindBlanks true rest
      else c :: rest

/-- The characters of a class in front, with the blanks and comments before, between and behind
them left out, and what follows. -/
def splitSpaced (p : Char → Bool) : Bool → List Char → List Char × List Char
  | _, [] => ([], [])
  | true, c :: rest => splitSpaced p (c != '\n') rest
  | false, c :: rest =>
      if isBlank c then splitSpaced p false rest
      else if c == '#' then splitSpaced p true rest
      else if p c then ((splitSpaced p false rest).map (c :: ·) id)
      else ([], c :: rest)

/-- Passes over blanks and comments where they do not count. -/
def Mode.skip (m : Mode) : Reading Unit :=
  modify fun cs => if m.extended then behindBlanks false cs else cs

/-- Takes the characters of a class, and the blanks and comments that do not count. -/
def Mode.takeWhile (m : Mode) (p : Char → Bool) : Reading (List Char) :=
  if m.extended then modifyGet (splitSpaced p false) else span p

end Paradigm.Pattern
