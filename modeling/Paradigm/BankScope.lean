/-
Module: Paradigm.BankScope
Layer: Compilation
Purpose: Which declared bank a placeholder draws from, and whether the bank can serve all of its
  placeholders. Banks are declared on blocks and on the experiment; a placeholder is bound to the
  nearest declaration around it, and a declaration is checked when its block ends.
Imports: Paradigm.Rules.Bank
Main exports: Slot, Use, Usage.slots, Usage.needed, checkUsage, Frame, Frame.bind?, Frame.check
-/
import Paradigm.Rules.Bank

namespace Paradigm

/-! ### Uses of a bank -/

/-- What a placeholder draws: the value of a slot, a value other than that of a slot, or any. -/
inductive Slot where
  | holds (slot : Nat)
  | avoids (slot : Nat)
  | any
deriving DecidableEq, Repr

/-- The slot that is named, be it held or avoided. -/
def Slot.named? : Slot → Option Nat
  | .holds slot => some slot
  | .avoids slot => some slot
  | .any => none

/-- Whether a slot is to be avoided. -/
def Slot.isAvoiding : Slot → Bool
  | .avoids _ => true
  | _ => false

/-- A placeholder bound to a bank: the node that holds it, the field it asks for and its slot. -/
structure Use where
  node : String
  field : Option String
  slot : Slot
deriving DecidableEq, Repr

/-- All placeholders bound to one declaration of a bank, in order. -/
abbrev Usage := List Use

namespace Usage

/-- The distinct slots that are named. -/
def slots (usage : Usage) : List Nat := (usage.filterMap (·.slot.named?)).eraseDups

/-- How many placeholders draw any value. -/
def replacing (usage : Usage) : Nat := usage.countP fun use => use.slot == .any

/-- How many distinct values are drawn: one for each slot, and one more where a slot has to be
avoided. -/
def needed (usage : Usage) : Nat :=
  usage.slots.length + (if usage.any (·.slot.isAvoiding) then 1 else 0)

/-- The highest slot that is named. -/
def highest (usage : Usage) : Option Nat := usage.slots.max?

end Usage

/-- The fields of the records of a bank, if it holds records. -/
def Bank.fields? (bank : Bank) : Option (List String) :=
  match bank.head? with
  | some (.record record) => some record.keys
  | _ => none

/-- A use asks for a field exactly where the bank holds records, and for one that they have. -/
def checkField (name : String) (fields : Option (List String)) (use : Use) : Verdict :=
  match fields, use.field with
  | some known, some field => require (known.contains field) use.node (.noSuchField name field)
  | some _, none => refuse use.node (.fieldMissing name)
  | none, some field => refuse use.node (.fieldOfTexts name field)
  | none, none => .ok ()

/-- A bank serves its placeholders: they ask for its fields, they draw either all with replacement
or all without, and in the latter case there are values enough and no slot lies past the end. -/
def checkUsage (owner name : String) (bank : Bank) (usage : Usage) : Verdict := do
  checkAll (checkField name bank.fields?) usage
  require (usage.replacing == 0 || usage.replacing == usage.length) owner (.mixedReplacement name)
  require (usage.replacing != 0 || usage.needed ≤ bank.length) owner
    (.tooFewValues name bank.length usage.needed)
  match usage.highest with
  | some slot => require (slot < bank.length) owner (.slotPastEnd name bank.length slot)
  | none => pure ()

/-! ### Declarations around a node -/

/-- The banks that a node declares, with the placeholders bound to them so far, each beside the
name of its bank. -/
structure Frame where
  owner : String
  banks : Banks
  uses : List (String × Use) := []

/-- The placeholders bound to one bank of a frame. -/
def Frame.usage (frame : Frame) (name : String) : Usage :=
  frame.uses.filterMap fun entry => if entry.1 = name then some entry.2 else none

/-- Binds a placeholder to the nearest frame that declares its bank, the innermost frame first. -/
def Frame.bind? (bank : String) (use : Use) : List Frame → Option (List Frame)
  | [] => none
  | frame :: outer =>
      if frame.banks.contains bank then
        some ({ frame with uses := frame.uses ++ [(bank, use)] } :: outer)
      else (Frame.bind? bank use outer).map (frame :: ·)

/-- Checks the banks of a frame in the order of their declaration. A bank that nothing is bound
to is not checked. -/
def Frame.check (frame : Frame) : Verdict :=
  checkAll (fun declared =>
    let usage := frame.usage declared.1
    if usage.isEmpty then .ok () else checkUsage frame.owner declared.1 declared.2 usage)
    frame.banks.entries

end Paradigm
