/-
Module: Paradigm.Rules.Bank
Layer: Rules
Purpose: The rules of a declared bank: it has values, and they are all texts or all records with
  one set of fields.
Imports: Paradigm.Tree, Paradigm.Rules.Verdict
Main exports: checkBank, checkBanks, sameNames
-/
import Paradigm.Rules.Verdict
import Paradigm.Tree

namespace Paradigm

/-- Whether two lists hold the same names in any order. -/
def sameNames (xs ys : List String) : Bool := xs.all ys.contains && ys.all xs.contains

/-- A value beside a first one that is a record with the given fields. -/
def checkRecord (owner name : String) (fields : List String) : BankEntry → Verdict
  | .text _ => refuse owner (.mixedBank name)
  | .record record => require (sameNames record.keys fields) owner (.unequalFields name)

/-- The rules of one bank. -/
def checkBank (owner name : String) (bank : Bank) : Verdict :=
  match bank with
  | [] => refuse owner (.emptyBank name)
  | .text _ :: rest =>
      require (rest.all fun entry => entry matches .text _) owner (.mixedBank name)
  | .record first :: rest =>
      checkAll (checkRecord owner name first.keys) (.record first :: rest)

/-- The rules of all banks that a node declares, in order. -/
def checkBanks (owner : String) (banks : Banks) : Verdict :=
  checkAll (fun declared => checkBank owner declared.1 declared.2) banks.entries

end Paradigm
