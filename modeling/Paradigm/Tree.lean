/-
Module: Paradigm.Tree
Layer: Data
Purpose: The tree that an author builds: an experiment of blocks, which hold pages, items of pages,
  groups of items or further blocks. Pages ask and answer options reply; both may carry feedback.
  A placeholder stands for a value drawn from a bank when the experiment runs.
Imports: Paradigm.Assoc, Paradigm.Binary64
Main exports: Placeholder, Text, Page, Choice, Feedback, Item, Block, Experiment, Guard, Bank
-/
import Paradigm.Assoc
import Paradigm.Binary64

namespace Paradigm

/-! ### Values -/

/-- How a placeholder relates to the other placeholders on its bank. -/
inductive Draw where
  /-- A value that no other slot of the bank holds. -/
  | fresh
  /-- The value shared by all placeholders with this token. -/
  | shared (token : String)
  /-- A value other than the one shared under this token. -/
  | unlike (token : String)
  /-- Any value, repeats allowed. -/
  | replacing
deriving DecidableEq, Repr

/-- Stands for a value of a bank, or for one field of a record of it. -/
structure Placeholder where
  bank : String
  draw : Draw
  field : Option String
deriving DecidableEq, Repr

/-- A text given by the author or drawn from a bank. -/
inductive Text where
  | literal (value : String)
  | sample (placeholder : Placeholder)
deriving DecidableEq, Repr

/-- What a page shows: one text, or several in sequence. -/
inductive PageText where
  | single (text : Text)
  | lines (texts : List Text)
deriving DecidableEq, Repr

/-- When an answer is correct: a flag on a choice, a pattern for a text box. -/
inductive AnswerKey where
  | flag (value : Bool)
  | pattern (value : String)
deriving DecidableEq, Repr

/-- Key bindings: the standard pair for two options or not, or one key for each option. -/
inductive Keyboard where
  | standard (on : Bool)
  | keys (names : List String)
deriving DecidableEq, Repr

/-- A media file with its playing options. -/
structure Resource where
  source : Text
  mediaType : Option String := none
  autoplay : Bool := false
  controls : Bool := true
  required : Bool := false
deriving DecidableEq, Repr

/-- A resource as the author gives it: a file name, a full record, or a file name drawn from a
bank. -/
inductive ResourceEntry where
  | file (name : String)
  | full (resource : Resource)
  | sample (placeholder : Placeholder)
deriving DecidableEq, Repr

/-- Free-form labels passed on to the results. -/
abbrev Tags := Assoc String

/-! ### Banks -/

/-- A value of a bank: a text, or a record of named texts. -/
inductive BankEntry where
  | text (value : String)
  | record (fields : Assoc String)
deriving DecidableEq

/-- The values to draw from, in order. -/
abbrev Bank := List BankEntry

/-- Banks by name, in the order of declaration. -/
abbrev Banks := Assoc Bank

/-! ### Guards -/

/-- Names an item to watch, with the number of pages it had when it was named. -/
structure ItemHandle where
  id : String
  pages : Nat
deriving DecidableEq, Repr

/-- When a node is shown: only after a watched page was last answered a certain way, or only for
one value of the permutation of the participant. -/
structure Guard where
  item : Option ItemHandle := none
  page : Option String := none
  choice : Option String := none
  regex : Option String := none
  permutation : Option UInt32 := none
deriving DecidableEq, Repr

/-! ### Pages -/

mutual

/-- Shown after a page is answered or a choice is made. -/
inductive Feedback where
  | text (text : Text)
  | page (page : Page)

/-- An answer option of a page. Whether it shows as a button or as a text box is up to the page. -/
structure Choice where
  id : String
  text : Option Text := none
  correct : Option AnswerKey := none
  feedback : Option Feedback := none
  resources : List ResourceEntry := []
  tags : Tags := .empty

/-- One screen. -/
structure Page where
  id : String
  text : PageText
  choices : List Choice := []
  feedback : Option Feedback := none
  correct : Option AnswerKey := none
  resources : List ResourceEntry := []
  condition : Option Text := none
  tags : Tags := .empty
  /-- The choices may be reversed but not shuffled. -/
  ordered : Option Bool := none
  /-- Only one choice may be made. -/
  exclusive : Option Bool := none
  /-- The single choice is a text box. -/
  freetext : Option Bool := none
  keyboard : Option Keyboard := none
  guard : Option Guard := none

end

/-- Whether the page shows a text box. -/
def Page.isFreetext (p : Page) : Bool := p.freetext == some true

/-! ### Items -/

/-- What an item is given: the text of its only page, one page, or several. -/
inductive ItemContents where
  | text (text : Text)
  | page (page : Page)
  | pages (pages : List Page)

/-- Pages that stay together in their order while the item as a whole is shuffled. -/
structure Item where
  id : String
  contents : ItemContents
  condition : Option Text := none
  tags : Tags := .empty
  guard : Option Guard := none

/-- How many pages the item has. A text makes one. -/
def Item.pageCount (item : Item) : Nat :=
  match item.contents with
  | .text _ => 1
  | .page _ => 1
  | .pages pages => pages.length

/-- The pages that are there already; a text has none yet. -/
def Item.pages (item : Item) : List Page :=
  match item.contents with
  | .text _ => []
  | .page page => [page]
  | .pages pages => pages

/-- The condition of the item, or else that of its first page. -/
def Item.effectiveCondition (item : Item) : Option Text :=
  item.condition.or (item.pages.head?.bind (·.condition))

/-- The handle by which guards name the item. -/
def Item.handle (item : Item) : ItemHandle := { id := item.id, pages := item.pageCount }

/-! ### Blocks and experiments -/

/-- When a repeated block may end. -/
inductive Criterion where
  /-- That many correct answers in a row. -/
  | streak (length : UInt32)
  /-- That share of correct answers, above zero and at most one. -/
  | proportion (share : Binary64)
deriving DecidableEq

/-- A container with one kind of contents and rules for their order. Blocks named in lists are
direct children, by identifier. -/
structure Block where
  id : String
  pages : Option (List Page) := none
  items : Option (List Item) := none
  /-- Each participant sees one item of each group. -/
  groups : Option (List (List Item)) := none
  blocks : Option (List Block) := none
  /-- Children that may swap places at random. -/
  exchangeable : List String := []
  /-- Children ordered by the permutation of the participant. -/
  counterbalance : List String := []
  /-- Children in sublist `i` run only for permutation `i`. -/
  treatments : List (List String) := []
  latinSquare : Option Bool := none
  pseudorandom : Option Bool := none
  criterion : Option Criterion := none
  /-- How often a block with a criterion runs at most. -/
  cutoff : Option UInt32 := none
  guard : Option Guard := none
  banks : Banks := .empty

/-- The whole experiment: its top-level blocks, rules for their order, and banks for all of them. -/
structure Experiment where
  blocks : List Block
  exchangeable : List String := []
  counterbalance : List String := []
  treatments : List (List String) := []
  banks : Banks := .empty

/-- The name under which the experiment itself appears in reports. -/
def Experiment.node : String := "experiment"

/-- All items of a block, those in groups included, its child blocks excluded. -/
def Block.ownItems (b : Block) : List Item :=
  b.items.getD [] ++ (b.groups.getD []).flatten

end Paradigm
