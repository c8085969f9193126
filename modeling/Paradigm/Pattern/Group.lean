/-
Module: Paradigm.Pattern.Group
Layer: Text
Purpose: What stands behind the opening parenthesis of a group: flags, or the name of a capture.
Imports: Paradigm.Pattern.Reading
Main exports: Pattern.GroupStart, Pattern.Mode.groupStart
-/
import Paradigm.Pattern.Reading

namespace Paradigm.Pattern

/-- How a group begins. -/
inductive GroupStart where
  /-- A group that captures without a name. -/
  | unnamed
  | named (name : String)
  /-- A group that is read in a mode of its own. -/
  | flagged (mode : Mode)
  /-- No group: the mode changes up to the end of the group around. -/
  | change (mode : Mode)

/-! ### Flags -/

/-- The flags, and the sign behind which flags are turned off. -/
def flagLetters : List Char := ['i', 'm', 's', 'U', 'u', 'R', 'x', '-']

/-- Whether flags are known, none is repeated and the sign is not the last of them. -/
def areFlags (flags : List Char) : Bool :=
  flags.all flagLetters.contains && decide flags.Nodup && flags.getLast? != some '-'

/-- Whether a flag is on after some flags have been given. -/
def settingOf (flag : Char) (flags : List Char) (before : Bool) : Bool :=
  if (flags.takeWhile (· != '-')).contains flag then true
  else !flags.contains flag && before

/-- The mode after some flags have been given. -/
def Mode.withFlags (m : Mode) (flags : List Char) : Mode :=
  { extended := settingOf 'x' flags m.extended, unicode := settingOf 'u' flags m.unicode }

/-- Takes flags and what ends them. -/
def Mode.flags (m : Mode) : Reading GroupStart := do
  let flags ← span fun c => c != ':' && c != ')'
  guard (areFlags flags)
  if ← take [':'] then
    return .flagged (m.withFlags flags)
  else
    expect ')'
    guard !flags.isEmpty
    return .change (m.withFlags flags)

/-! ### Names -/

/-- Whether a text may name a capture. -/
def isCaptureName : List Char → Bool
  | [] => false
  | c :: rest =>
      (c == '_' || isAlphabetic c)
        && rest.all fun d => ['_', '.', '[', ']'].contains d || isAlphabetic d || isNumeric d

/-- Takes the name of a capture up to its closing angle bracket. -/
def captureName : Reading GroupStart := do
  let name ← span (· != '>')
  expect '>'
  guard (isCaptureName name)
  return .named (String.ofList name)

/-! ### Groups -/

/-- How conditions on what stands before or behind a place begin. There are no such conditions. -/
def lookAround : List (List Char) := [['?', '='], ['?', '!'], ['?', '<', '='], ['?', '<', '!']]

/-- Takes what stands behind an opening parenthesis. -/
def Mode.groupStart (m : Mode) : Reading GroupStart := do
  m.skip
  let cs ← get
  guard !(lookAround.any fun mark => mark.isPrefixOf cs)
  if ← take ['?', 'P', '<'] then captureName
  else if ← take ['?', '<'] then captureName
  else if ← take ['?'] then m.flags
  else return .unnamed

end Paradigm.Pattern
