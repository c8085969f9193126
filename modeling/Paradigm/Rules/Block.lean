/-
Module: Paradigm.Rules.Block
Layer: Rules
Purpose: The rules of blocks and of the experiment as a whole: one kind of contents, references to
  children only, and ordering policies that the contents can honour.
Imports: Paradigm.Rules.Bank, Paradigm.Rules.Node
Main exports: Block.check, Block.notices, Experiment.check, Experiment.notices, balanced
-/
import Paradigm.Rules.Bank
import Paradigm.Rules.Node

namespace Paradigm

/-! ### Contents and references -/

/-- The kinds of contents that a block has. -/
def Block.contentKinds (b : Block) : List ContentKind :=
  (if b.pages.isSome then [.pages] else []) ++ (if b.items.isSome then [.items] else [])
    ++ (if b.groups.isSome then [.groups] else []) ++ (if b.blocks.isSome then [.blocks] else [])

/-- A block has exactly one kind of contents. -/
def Block.checkContents (b : Block) : Verdict :=
  require (b.contentKinds.length == 1) b.id (.contentKinds b.contentKinds)

/-- References to blocks with the list that each stands in. -/
def references (exchangeable counterbalance : List String) (treatments : List (List String)) :
    List (ReferenceList × String) :=
  exchangeable.map (.exchangeable, ·) ++ counterbalance.map (.counterbalance, ·)
    ++ treatments.flatten.map (.treatments, ·)

/-- Every reference names a child. -/
def checkReferences (owner : String) (children : List Block)
    (refs : List (ReferenceList × String)) : Verdict :=
  checkAll
    (fun ref => require ((children.map (·.id)).contains ref.2) owner (.strayReference ref.1 ref.2))
    refs

/-- The references of a block. -/
def Block.references (b : Block) : List (ReferenceList × String) :=
  Paradigm.references b.exchangeable b.counterbalance b.treatments

/-- Whether a block has a reference list with anything in it. -/
def Block.hasReferences (b : Block) : Bool :=
  !b.exchangeable.isEmpty || !b.counterbalance.isEmpty || !b.treatments.isEmpty

/-- References need child blocks and name only those. -/
def Block.checkReferences (b : Block) : Verdict :=
  if b.hasReferences then
    match b.blocks with
    | none => refuse b.id .referencesWithoutBlocks
    | some children => Paradigm.checkReferences b.id children b.references
  else .ok ()

/-! ### Ordering policies -/

/-- A latin square needs groups of one length. -/
def Block.checkLatinSquare (b : Block) : Verdict :=
  if b.latinSquare == some true then
    match b.groups with
    | none => refuse b.id .latinSquareWithoutGroups
    | some [] => .ok ()
    | some (first :: rest) =>
        require (rest.all fun group => group.length == first.length) b.id .unequalGroups
  else .ok ()

/-- The condition of a member of a pseudorandom block, which has to be there and literal. -/
def Block.literalCondition (b : Block) (member : String × Option Text) :
    Except Failure String :=
  match member.2 with
  | some (.literal condition) => .ok condition
  | some (.sample _) => refuse member.1 (.sampledCondition b.id)
  | none => refuse member.1 (.conditionMissing b.id)

/-- The conditions of members, up to the first that is missing or not literal. -/
def Block.literalConditions (b : Block) :
    List (String × Option Text) → Except Failure (List String)
  | [] => .ok []
  | member :: rest => do
      let condition ← b.literalCondition member
      return condition :: (← b.literalConditions rest)

/-- How often each name occurs, in the order of first occurrence. -/
def tally (names : List String) : Assoc Nat :=
  names.foldl (fun counts name => counts.insert name ((counts.get? name).getD 0 + 1)) .empty

/-- Whether all names that occur do so equally often. -/
def balanced (names : List String) : Bool :=
  match (tally names).values with
  | [] => true
  | first :: rest => rest.all (· == first)

/-- An item as a member with the condition that counts for it. -/
def Item.member (item : Item) : String × Option Text := (item.id, item.effectiveCondition)

/-- Pages or items can be ordered by their conditions, and groups as far as a latin square decides
beforehand which of their items are shown; then the conditions also have to be balanced. -/
def Block.checkPseudorandom (b : Block) : Verdict :=
  if b.pseudorandom == some true then
    match b.groups, b.pages, b.items with
    | some groups, _, _ =>
        if b.latinSquare == some true then do
          let conditions ← b.literalConditions (groups.flatten.map Item.member)
          require (balanced conditions) b.id .unequalConditions
        else refuse b.id .pseudorandomGroups
    | none, some pages, _ => do
        let _ ← b.literalConditions (pages.map fun page => (page.id, page.condition))
    | none, none, some items => do
        let _ ← b.literalConditions (items.map Item.member)
    | none, none, none => refuse b.id .pseudorandomBlocks
  else .ok ()

/-- A block repeats for a streak of at least one, or a share above zero and at most one, and runs
at least once. -/
def Block.checkRepetition (b : Block) : Verdict := do
  match b.criterion with
  | some (.streak length) => require (length != 0) b.id .emptyStreak
  | some (.proportion share) =>
      require (share.gtInt 0 && share.leInt 1) b.id (.proportionRange share)
  | none => pure ()
  require (b.cutoff != some 0) b.id .emptyCutoff

/-! ### All together -/

/-- The rules of a block, apart from those of what it contains. -/
def Block.check (b : Block) : Verdict := do
  b.checkContents
  b.checkReferences
  b.checkLatinSquare
  b.checkPseudorandom
  b.checkRepetition
  checkBanks b.id b.banks
  Guard.checkOption b.guard b.id

/-- The warning about two lists of a node that read the same permutation. -/
def sharedPermutation (node : String) (counterbalance : List String)
    (treatments : List (List String)) : List Warning :=
  if counterbalance.isEmpty || treatments.isEmpty then [] else [.sharedPermutation node]

/-- The warnings that checking a block gives. They come once its references are found in order. -/
def Block.notices (b : Block) : List Warning :=
  match b.checkContents, b.checkReferences with
  | .ok _, .ok _ => Paradigm.sharedPermutation b.id b.counterbalance b.treatments
  | _, _ => []

/-- The references at the root name top-level blocks. -/
def Experiment.checkReferences (e : Experiment) : Verdict :=
  Paradigm.checkReferences Experiment.node e.blocks
    (references e.exchangeable e.counterbalance e.treatments)

/-- The rules of the root. -/
def Experiment.check (e : Experiment) : Verdict := do
  e.checkReferences
  checkBanks Experiment.node e.banks

/-- The warnings that checking the root gives. -/
def Experiment.notices (e : Experiment) : List Warning :=
  match e.checkReferences with
  | .ok _ => Paradigm.sharedPermutation Experiment.node e.counterbalance e.treatments
  | .error _ => []

end Paradigm
