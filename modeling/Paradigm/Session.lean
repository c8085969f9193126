/-
Module: Paradigm.Session
Layer: Authoring
Purpose: What an author keeps while building a tree: the source of identifiers and the registry of
  sampling tokens.
Imports: Paradigm.Failure, Paradigm.Sampling
Main exports: IdSource, Issuing, Session, Session.sample, Session.sampleFrom,
  Page.create, Choice.create, Item.create, Block.create
-/
import Paradigm.Failure
import Paradigm.Sampling

namespace Paradigm

/-! ### Identifiers -/

/-- Issues identifiers: the decimal texts of a counter of 64 bits, moved on by one before each. Here
`last` counts on from the seed without end, and the counter is what 64 bits hold of it. -/
structure IdSource where
  last : Nat := 0
deriving DecidableEq, Repr, Inhabited

/-- Computations that take identifiers from a source. -/
abbrev Issuing := StateM IdSource

namespace IdSource

/-- The counter. After the greatest number of 64 bits it goes on from zero, as addition of machine
words does without a check for overflow. -/
def counter (source : IdSource) : UInt64 := .ofNat source.last

/-- The next identifier of a source, and the source after it. -/
def next (source : IdSource) : String × IdSource :=
  (toString (source.counter + 1), { last := source.last + 1 })

/-- Whether the counter can issue that many identifiers before it goes on from zero. -/
def HasRoom (source : IdSource) (count : Nat) : Prop :=
  source.counter.toNat + count < UInt64.size

instance (source : IdSource) (count : Nat) : Decidable (source.HasRoom count) :=
  inferInstanceAs (Decidable (_ < _))

end IdSource

/-- Takes the next identifier. -/
def issueId : Issuing String := fun source => source.next

/-! ### Sessions -/

/-- The state behind the building of one experiment. -/
structure Session where
  ids : IdSource := {}
  registry : Registry := {}
deriving DecidableEq, Inhabited

/-- Building steps: they may be refused, and what was issued before a refusal stays issued. -/
abbrev Authoring := EStateM Failure Session

/-- What an author asks of a placeholder. At most one of the three relations may be asked for. -/
structure DrawRequest where
  sharing : Option String := none
  unlike : Option String := none
  field : Option String := none
  replacing : Bool := false
deriving DecidableEq, Repr

/-- The relation that a request asks for, if it asks for one at most. -/
def DrawRequest.draw? (request : DrawRequest) : Option Draw :=
  match request.sharing, request.unlike, request.replacing with
  | none, none, false => some .fresh
  | some token, none, false => some (.shared token)
  | none, some token, false => some (.unlike token)
  | none, none, true => some .replacing
  | _, _, _ => none

namespace Session

/-- A session whose first identifier is one above the seed. -/
def ofSeed (seed : Nat) : Session := { ids := { last := seed } }

/-- Takes identifiers within a session. -/
def issuing {α : Type} (m : Issuing α) : Authoring α := fun s =>
  let (value, ids) := m s.ids
  .ok value { s with ids := ids }

/-- Makes a placeholder as requested. It makes its bank known and reserves the slot of its
token. -/
def sampleFrom (bank : String) (request : DrawRequest) : Authoring Placeholder := fun s =>
  match request.draw? with
  | none => .error (.rule s!"sample from `{bank}`" .combinedDraws) s
  | some draw =>
      let p : Placeholder := { bank := bank, draw := draw, field := request.field }
      .ok p { s with registry := s.registry.note p }

/-- Makes a placeholder whose value no other one shares. -/
def sample (bank : String) : Authoring Placeholder := sampleFrom bank {}

end Session

/-! ### New nodes -/

/-- A page with a text and nothing else. -/
def Page.create (text : PageText) : Issuing Page := do
  let id ← issueId
  return { id := id, text := text }

/-- An answer option, with or without a label. -/
def Choice.create (text : Option Text) : Issuing Choice := do
  let id ← issueId
  return { id := id, text := text }

/-- An item with its contents. -/
def Item.create (contents : ItemContents) : Issuing Item := do
  let id ← issueId
  return { id := id, contents := contents }

/-- A block that has no contents yet. -/
def Block.create : Issuing Block := do
  let id ← issueId
  return { id := id }

end Paradigm
