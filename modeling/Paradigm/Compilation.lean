/-
Module: Paradigm.Compilation
Layer: Compilation
Purpose: Compilation of an experiment: expansion, the index of identifiers, resolution. It takes
  identifiers from the session, also where it fails, and leaves the registry as it is.
Imports: Paradigm.Tree.Expansion, Paradigm.Resolution
Main exports: Compilation, Experiment.compile
-/
import Paradigm.Resolution
import Paradigm.Tree.Expansion

namespace Paradigm

/-- What a compilation gives: a document or a failure, the session after it, and the warnings in
their order. -/
structure Compilation where
  outcome : Except Failure Document.Experiment
  session : Session
  warnings : List Warning

/-- Compiles an experiment in the session that its tree was built in. -/
def Experiment.compile (e : Experiment) (session : Session) : Compilation :=
  match e.expand { ids := session.ids, warnings := [] } with
  | .error failure progress =>
      { outcome := .error failure
        session := { session with ids := progress.ids }
        warnings := progress.warnings }
  | .ok expanded progress =>
      let session := { session with ids := progress.ids }
      match Index.ofTrees expanded e with
      | .error failure =>
          { outcome := .error failure, session := session, warnings := progress.warnings }
      | .ok index =>
          let registry := session.registry
          match expanded.resolve { index := index, registry := registry } (.start registry) with
          | .error failure gathered =>
              { outcome := .error failure
                session := session
                warnings := progress.warnings ++ gathered.warnings }
          | .ok document gathered =>
              { outcome := .ok document
                session := session
                warnings := progress.warnings ++ gathered.warnings }

end Paradigm
