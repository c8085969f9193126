import Paradigm.Assoc
import Paradigm.BankScope
import Paradigm.Binary64
import Paradigm.Binary64.Decimal
import Paradigm.Compilation
import Paradigm.Digest
import Paradigm.Document
import Paradigm.Document.Encoding
import Paradigm.Document.Equality
import Paradigm.Document.Reading
import Paradigm.Emission
import Paradigm.Failure
import Paradigm.Hexadecimal
import Paradigm.Json
import Paradigm.Json.Draft
import Paradigm.Json.Reading
import Paradigm.Json.Text
import Paradigm.Json.Token
import Paradigm.Pattern
import Paradigm.Pattern.Bracket
import Paradigm.Pattern.Escape
import Paradigm.Pattern.Group
import Paradigm.Pattern.Letter
import Paradigm.Pattern.Property
import Paradigm.Pattern.Reading
import Paradigm.Proofs.Answers
import Paradigm.Proofs.BankChecks
import Paradigm.Proofs.BankSafety
import Paradigm.Proofs.Compilation
import Paradigm.Proofs.Conformance
import Paradigm.Proofs.CopiedBlocks
import Paradigm.Proofs.Copies
import Paradigm.Proofs.Document.Contents
import Paradigm.Proofs.Equivariance
import Paradigm.Proofs.Expansion
import Paradigm.Proofs.Expansion.Contents
import Paradigm.Proofs.Expansion.Items
import Paradigm.Proofs.Expansion.Minting
import Paradigm.Proofs.Failures
import Paradigm.Proofs.FaithfulCopies
import Paradigm.Proofs.Families
import Paradigm.Proofs.FeedbackPages
import Paradigm.Proofs.Guards
import Paradigm.Proofs.Identifiers
import Paradigm.Proofs.ItemPages
import Paradigm.Proofs.LaterSessions
import Paradigm.Proofs.Layout
import Paradigm.Proofs.NormalForm
import Paradigm.Proofs.Policies
import Paradigm.Proofs.Pseudorandom
import Paradigm.Proofs.References
import Paradigm.Proofs.Refusals
import Paradigm.Proofs.Relabelling
import Paradigm.Proofs.Relabelling.Compilation
import Paradigm.Proofs.Relabelling.Copies
import Paradigm.Proofs.Relabelling.Expansion
import Paradigm.Proofs.Relabelling.Index
import Paradigm.Proofs.Relabelling.Names
import Paradigm.Proofs.Relabelling.Naming
import Paradigm.Proofs.Relabelling.Reports
import Paradigm.Proofs.Relabelling.Resolution
import Paradigm.Proofs.Relabelling.Rules
import Paradigm.Proofs.Relabelling.Slots
import Paradigm.Proofs.Renaming
import Paradigm.Proofs.Rendering
import Paradigm.Proofs.ReplacedGuards
import Paradigm.Proofs.Resolution
import Paradigm.Proofs.Resolution.Nodes
import Paradigm.Proofs.Resolution.Scopes
import Paradigm.Proofs.Resolution.Silence
import Paradigm.Proofs.Resolution.Slots
import Paradigm.Proofs.RoundTrip
import Paradigm.Proofs.Rules
import Paradigm.Proofs.Schema.Acceptance
import Paradigm.Proofs.Schema.Nodes
import Paradigm.Proofs.Schema.Order
import Paradigm.Proofs.Schema.Values
import Paradigm.Proofs.SchemaAgreement
import Paradigm.Proofs.SecondChecks
import Paradigm.Proofs.Sessions
import Paradigm.Proofs.SideBySide
import Paradigm.Proofs.SlotAssignment
import Paradigm.Proofs.Step
import Paradigm.Proofs.Tokens
import Paradigm.Proofs.Treatments
import Paradigm.Proofs.Tree.Nodes
import Paradigm.Proofs.Tree.Placeholders
import Paradigm.Proofs.Tree.Placements
import Paradigm.Proofs.Warnings
import Paradigm.Proofs.Wire.AcceptedValues
import Paradigm.Proofs.Wire.Keeping
import Paradigm.Proofs.Wire.Nodes
import Paradigm.Proofs.Wire.Pruning
import Paradigm.Proofs.Wire.Reading
import Paradigm.Proofs.Wire.Record
import Paradigm.Proofs.Wire.Values
import Paradigm.Resolution
import Paradigm.Rules.Bank
import Paradigm.Rules.Block
import Paradigm.Rules.Node
import Paradigm.Rules.Verdict
import Paradigm.Sampling
import Paradigm.Schema
import Paradigm.Schema.Diagnosis
import Paradigm.Session
import Paradigm.Tree
import Paradigm.Tree.Copy
import Paradigm.Tree.Expansion
import Paradigm.Tree.Index
