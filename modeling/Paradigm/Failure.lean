/-
Module: Paradigm.Failure
Layer: Data
Purpose: Why an experiment is refused and what is worth a warning. Every cause of a refusal breaks
  one promise that compiled experiments keep; the promise has a stable code and the cause has a
  wording. A refusal names the node that it is about.
Imports: Paradigm.Binary64.Decimal, Paradigm.Json.Token
Main exports: Promise, Cause, Failure, Failure.message, Failure.code, Failure.node?,
  Failure.guarantee, Warning
-/
import Paradigm.Binary64.Decimal
import Paradigm.Json.Token

namespace Paradigm

/-! ### Promises -/

/-- What compiled experiments promise about their nodes. -/
inductive Promise where
  | structural
  | missingAttribute
  | imbalance
  | bankSize
  | replacementPolicy
  | bankFields
  | unknownField
  | answerType
  | lengthMismatch
  | unsupportedArity
  | ambiguousReference
  | policy
  | invalidCombination
deriving DecidableEq, Repr

/-- The stable code of a promise. -/
def Promise.code : Promise → String
  | .structural => "SPR-STRUCTURE"
  | .missingAttribute => "SPR-MISSING-ATTRIBUTE"
  | .imbalance => "SPR-IMBALANCE"
  | .bankSize => "SPR-BANK-SIZE"
  | .replacementPolicy => "SPR-REPLACEMENT-POLICY"
  | .bankFields => "SPR-BANK-SCHEMA"
  | .unknownField => "SPR-UNKNOWN-FIELD"
  | .answerType => "SPR-TYPE"
  | .lengthMismatch => "SPR-LENGTH-MISMATCH"
  | .unsupportedArity => "SPR-UNSUPPORTED-ARITY"
  | .ambiguousReference => "SPR-AMBIGUOUS-REFERENCE"
  | .policy => "SPR-POLICY"
  | .invalidCombination => "SPR-INVALID-COMBINATION"

/-- The promise in words. -/
def Promise.guarantee : Promise → String
  | .structural =>
      "Mutually exclusive fields are set exactly as often as the node kind allows."
  | .missingAttribute =>
      "Every attribute a policy depends on is present, "
        ++ "and every reference names a node in the tree."
  | .imbalance => "Balanced designs present every condition equally often."
  | .bankSize =>
      "A bank holds enough values for every distinct sample drawn without replacement."
  | .replacementPolicy => "All samples from one bank follow the same replacement policy."
  | .bankFields =>
      "A bank is non-empty and holds only strings or only records with one shared field set."
  | .unknownField => "Samples from record banks name a field every record carries."
  | .answerType =>
      "Answer checks are booleans for choices and regular expressions for text boxes."
  | .lengthMismatch => "Every option has exactly one key binding."
  | .unsupportedArity => "Default key bindings apply to two-option pages only."
  | .ambiguousReference => "A conditional guard keyed on an item observes exactly one page."
  | .policy => "Ordering policies are only combined in ways the runner can honor."
  | .invalidCombination =>
      "A sample placeholder carries at most one of variable, not_variable and with_replacement."

/-! ### Causes -/

/-- The kinds of contents of a block. -/
inductive ContentKind where
  | pages
  | items
  | groups
  | blocks
deriving DecidableEq, Repr

/-- The name of a kind of contents. -/
def ContentKind.name : ContentKind → String
  | .pages => "pages"
  | .items => "items"
  | .groups => "groups"
  | .blocks => "blocks"

/-- The lists that name child blocks. -/
inductive ReferenceList where
  | exchangeable
  | counterbalance
  | treatments
deriving DecidableEq, Repr

/-- The name of a reference list. -/
def ReferenceList.name : ReferenceList → String
  | .exchangeable => "exchangeable"
  | .counterbalance => "counterbalance"
  | .treatments => "treatments"

/-- The kinds of nodes with identifiers of their own. -/
inductive NodeKind where
  | block
  | item
  | page
  | choice
deriving DecidableEq, Repr

/-- The name of a kind of nodes. -/
def NodeKind.name : NodeKind → String
  | .block => "block"
  | .item => "item"
  | .page => "page"
  | .choice => "option"

/-- What exactly is wrong with a node. -/
inductive Cause where
  /-- A page shown as feedback offers answer options. -/
  | feedbackWithChoices (page : String)
  | textBoxChoices (found : Nat)
  | emptyItem
  | contentKinds (found : List ContentKind)
  | referencesWithoutBlocks
  | guardTargets (found : Nat)
  | guardChoiceAndRegex
  | guardPermutationTest
  | repeatedId (kind : NodeKind) (id : String)
  | unregisteredToken (token bank : String)
  | conditionMissing (block : String)
  | strayReference (list : ReferenceList) (id : String)
  | watchedMissing (kind : NodeKind) (id : String)
  | undeclaredBank (bank : String)
  | unequalGroups
  | unequalConditions
  | tooFewValues (bank : String) (size needed : Nat)
  | slotPastEnd (bank : String) (size slot : Nat)
  | mixedReplacement (bank : String)
  | emptyBank (bank : String)
  | mixedBank (bank : String)
  | unequalFields (bank : String)
  | noSuchField (bank field : String)
  | fieldMissing (bank : String)
  | fieldOfTexts (bank field : String)
  | flagOnTextBox
  | patternOnChoice (pattern : String)
  | invalidPattern (pattern : String)
  | keyCount (keys choices : Nat)
  | standardKeys (choices : Nat)
  | watchedPages (item : String) (pages : Nat)
  | latinSquareWithoutGroups
  | pseudorandomGroups
  | pseudorandomBlocks
  | sampledCondition (block : String)
  | emptyStreak
  | proportionRange (share : Binary64)
  | emptyCutoff
  | combinedDraws
  /-- A refusal that an author states in words of their own. -/
  | stated (promise : Promise) (message : String)
deriving DecidableEq

/-- The promise that a cause breaks. -/
def Cause.promise : Cause → Promise
  | .feedbackWithChoices _ | .textBoxChoices _ | .emptyItem | .contentKinds _
  | .referencesWithoutBlocks | .guardTargets _ | .guardChoiceAndRegex | .guardPermutationTest
  | .repeatedId _ _ => .structural
  | .unregisteredToken _ _ | .conditionMissing _ | .strayReference _ _ | .watchedMissing _ _
  | .undeclaredBank _ => .missingAttribute
  | .unequalGroups | .unequalConditions => .imbalance
  | .tooFewValues _ _ _ | .slotPastEnd _ _ _ => .bankSize
  | .mixedReplacement _ => .replacementPolicy
  | .emptyBank _ | .mixedBank _ | .unequalFields _ => .bankFields
  | .noSuchField _ _ | .fieldMissing _ | .fieldOfTexts _ _ => .unknownField
  | .flagOnTextBox | .patternOnChoice _ | .invalidPattern _ => .answerType
  | .keyCount _ _ => .lengthMismatch
  | .standardKeys _ => .unsupportedArity
  | .watchedPages _ _ => .ambiguousReference
  | .latinSquareWithoutGroups | .pseudorandomGroups | .pseudorandomBlocks | .sampledCondition _
  | .emptyStreak | .proportionRange _ | .emptyCutoff => .policy
  | .combinedDraws => .invalidCombination
  | .stated promise _ => promise

/-- The wording of a cause. -/
def Cause.message : Cause → String
  | .feedbackWithChoices page => s!"feedback page {page} must not have options"
  | .textBoxChoices found =>
      s!"a freetext page has a single text box option, found {found} options"
  | .emptyItem => "an item must contain at least one page"
  | .contentKinds found =>
      "a block must have exactly one content kind of pages, items, groups and blocks, found ["
        ++ ", ".intercalate (found.map ContentKind.name) ++ "]"
  | .referencesWithoutBlocks =>
      "exchangeable, counterbalance and treatments need blocks as contents"
  | .guardTargets found =>
      s!"run_if must have exactly one of item, page and permutation, found {found}"
  | .guardChoiceAndRegex => "run_if takes an option or a regex, not both"
  | .guardPermutationTest => "a permutation run_if cannot also test an option or a regex"
  | .repeatedId kind id => s!"{kind.name} identifier `{id}` is used more than once"
  | .unregisteredToken token bank =>
      s!"variable `{token}` was never registered for bank `{bank}`; "
        ++ "compile with the session that built the tree"
  | .conditionMissing block => s!"block {block} is pseudorandom, so every member needs a condition"
  | .strayReference list id => s!"{list.name} names block {id} which is not a direct child"
  | .watchedMissing kind id =>
      s!"run_if watches {kind.name} {id} which is not in the experiment"
  | .undeclaredBank bank =>
      s!"bank `{bank}` is not declared on any enclosing block or on the experiment"
  | .unequalGroups => "a latin square needs every group to have the same length"
  | .unequalConditions => "pseudorandom needs every condition to occur the same number of times"
  | .tooFewValues bank size needed =>
      s!"bank `{bank}` has {size} values but {needed} distinct samples "
        ++ "are drawn without replacement"
  | .slotPastEnd bank size slot =>
      s!"bank `{bank}` has {size} values but a sample reads slot {slot}; "
        ++ "declare the bank once or drop variables that are never placed"
  | .mixedReplacement bank =>
      s!"bank `{bank}` is sampled both with and without replacement; all samples must agree"
  | .emptyBank bank => s!"bank `{bank}` is empty"
  | .mixedBank bank => s!"bank `{bank}` mixes strings and records"
  | .unequalFields bank => s!"all records in bank `{bank}` must have the same fields"
  | .noSuchField bank field => s!"bank `{bank}` has no field `{field}`"
  | .fieldMissing bank => s!"samples from record bank `{bank}` must name a field"
  | .fieldOfTexts bank field => s!"bank `{bank}` holds strings, it has no field `{field}`"
  | .flagOnTextBox => "a text box is checked with a regular expression, not a boolean"
  | .patternOnChoice pattern =>
      s!"`{pattern}` is a pattern, but choices are marked correct with a boolean"
  | .invalidPattern pattern => s!"`{pattern}` is not a valid regular expression:"
  | .keyCount keys choices => s!"{keys} key bindings given for {choices} options"
  | .standardKeys choices =>
      s!"default key bindings need exactly two options, found {choices}"
  | .watchedPages item pages =>
      s!"run_if watches item {item} which has {pages} pages; an item guard needs exactly one"
  | .latinSquareWithoutGroups =>
      "latin_square chooses from groups; give the block groups as contents"
  | .pseudorandomGroups =>
      "pages chosen randomly from groups cannot be pseudorandomized; "
        ++ "supply pages, set latin_square, or drop pseudorandom"
  | .pseudorandomBlocks => "pseudorandom orders pages or items, not blocks"
  | .sampledCondition block => s!"block {block} is pseudorandom, so conditions cannot be sampled"
  | .emptyStreak => "a criterion streak must be at least 1"
  | .proportionRange share =>
      s!"a criterion proportion must be in (0, 1], got " ++ share.plainText
  | .emptyCutoff => "cutoff counts runs from 1"
  | .combinedDraws =>
      "at most one of variable, not_variable and with_replacement may be given"
  | .stated _ message => message

/-! ### Failures -/

/-- A refusal. -/
inductive Failure where
  /-- A node breaks a promise. -/
  | rule (node : String) (cause : Cause)
  /-- A document breaks the schema of the runner. -/
  | schema (diagnostics : List String)
  /-- A script variable has an impossible name. -/
  | variableName (name : String)
  /-- A text does not read as what it should be. -/
  | unreadable (refusal : Json.Refusal)
  /-- A file could not be written. -/
  | file (context : String)
deriving DecidableEq

/-- The code under which a document that breaks the schema is reported. -/
def Failure.schemaCode : String := "SPR-SCHEMA"

/-- The stable code of a failure, where it has one. -/
def Failure.code : Failure → Option String
  | .rule _ cause => some cause.promise.code
  | .schema _ => some schemaCode
  | _ => none

/-- The node that a failure is about. -/
def Failure.node? : Failure → Option String
  | .rule node _ => some node
  | _ => none

/-- What is promised where the failure does not occur. -/
def Failure.guarantee : Failure → String
  | .rule _ cause => cause.promise.guarantee
  | .schema _ => "The emitted document conforms to the runner's schema."
  | _ => ""

/-- The full wording of a failure. -/
def Failure.message : Failure → String
  | .rule node cause => s!"[{cause.promise.code}] {node}: {cause.message}"
  | .schema diagnostics =>
      s!"[{schemaCode}] document does not match the runner schema: "
        ++ "; ".intercalate diagnostics
  | .variableName name => s!"invalid variable name `{name}`: expected a JavaScript identifier"
  | .unreadable .malformed => "JSON error: not JSON"
  | .unreadable .truncated => "JSON error: the text ends too early"
  | .unreadable .misshapen => "JSON error: JSON of another shape"
  | .file context => s!"IO error: {context}"

/-! ### Warnings -/

/-- What does not stop compilation but deserves a look. -/
inductive Warning where
  /-- Two lists of a node read the same permutation of the participant. -/
  | sharedPermutation (node : String)
  /-- A block stands in two treatments. -/
  | reassigned (node block : String) (previous permutation : Nat)
  /-- A treatment takes the place of a guard of the author. -/
  | guardReplaced (node : String) (permutation : Nat)
deriving DecidableEq, Repr

/-- The wording of a warning. -/
def Warning.message : Warning → String
  | .sharedPermutation _ =>
      "counterbalance and treatments share the permutation variable; "
        ++ "use exchangeable instead of counterbalance to order blocks independently"
  | .reassigned _ _ _ _ => "block appears in more than one treatment; the last one wins"
  | .guardReplaced _ _ => "treatment replaces the block's own run_if"

/-- The particulars of a warning, by name. -/
def Warning.details : Warning → List (String × String)
  | .sharedPermutation node => [("node", node)]
  | .reassigned node block previous permutation =>
      [("node", node), ("block", block), ("previous", toString previous),
        ("permutation", toString permutation)]
  | .guardReplaced node permutation => [("node", node), ("permutation", toString permutation)]

end Paradigm
