/-
Module: Paradigm.Json.Reading
Layer: Text
Purpose: Readers of drafts: single values, lists, maps and records. A record is an object with known
  names, or an array of its fields in their order. Mistakes count in the order of the text, so the
  first one met decides between a text that is not JSON, one that ends too early and one of
  another shape.
Imports: Paradigm.Json.Draft, Paradigm.Assoc
Main exports: Json.Presence, Json.Draft.record, Json.Draft.list, Json.Draft.assoc,
  Json.Draft.variants
-/
import Paradigm.Assoc
import Paradigm.Json.Draft

namespace Paradigm.Json

/-- When a field of a record may be missing: never, from an object only, or from an array as
well. -/
inductive Presence where
  | required
  | nullable
  | defaulted
deriving DecidableEq

namespace Draft

/-! ### Single values -/

/-- A text. -/
def asString : Draft → Except Refusal String
  | .str s => .ok s
  | .broken r _ => .error r
  | _ => .error .misshapen

/-- A truth value. -/
def asBool : Draft → Except Refusal Bool
  | .bool b => .ok b
  | .broken r _ => .error r
  | _ => .error .misshapen

/-- An integer literal that is not negative. -/
def asNat : Draft → Except Refusal Nat
  | .num (.int i) => if 0 ≤ i then .ok i.toNat else .error .misshapen
  | .broken r _ => .error r
  | _ => .error .misshapen

/-- An integer literal that fits 32 bits. -/
def asUInt32 (d : Draft) : Except Refusal UInt32 := do
  let n ← d.asNat
  if n < UInt32.size then return n.toUInt32 else throw .misshapen

/-- A number of either kind, rounded if need be. -/
def asBinary64 : Draft → Except Refusal Binary64
  | .num (.int i) => .ok (Binary64.ofInt i)
  | .num (.float x) => .ok x
  | .broken r _ => .error r
  | _ => .error .misshapen

/-- Null as nothing, and anything else as the reader has it. -/
def asOption {α : Type} (d : Draft) (read : Draft → Except Refusal α) :
    Except Refusal (Option α) :=
  match d with
  | .null => .ok none
  | d => some <$> read d

/-- Succeeds where the closing bracket stands. -/
def closed {α : Type} (value : α) : Option Refusal → Except Refusal α
  | none => .ok value
  | some r => .error r

/-! ### Lists and maps -/

/-- Reads elements from the left. The bound tells a recursive reader that it goes down. -/
def readItems {α : Type} (bound : Nat)
    (read : (x : Draft) → sizeOf x < bound → Except Refusal α) :
    (items : List Draft) → sizeOf items ≤ bound → Except Refusal (List α)
  | [], _ => .ok []
  | x :: rest, h => do
      let value ← read x (by simp at h; omega)
      let values ← readItems bound read rest (by simp at h; omega)
      return value :: values

/-- Reads an array with a reader that may go down recursively. -/
def list {α : Type} (d : Draft) (read : (x : Draft) → sizeOf x < sizeOf d → Except Refusal α) :
    Except Refusal (List α) :=
  match d with
  | .arr items stop => do
      let values ← readItems _ read items (by simp; omega)
      closed values stop
  | .broken r _ => .error r
  | .sunken true _ => .error .malformed
  | _ => .error .misshapen

/-- Reads an array. -/
def asList {α : Type} (read : Draft → Except Refusal α) (d : Draft) : Except Refusal (List α) :=
  d.list fun x _ => read x

/-- Reads members into a map. Of equal names the first fixes the place and the last the value. -/
def readEntries {α : Type} (read : Draft → Except Refusal α) (m : Assoc α) :
    List (Option String × Draft) → Except Refusal (Assoc α)
  | [] => .ok m
  | (none, _) :: _ => .error .malformed
  | (some name, x) :: rest => do
      let value ← read x
      readEntries read (m.insert name value) rest

/-- Reads an object into a map. -/
def assoc {α : Type} (read : Draft → Except Refusal α) : Draft → Except Refusal (Assoc α)
  | .obj members stop => do
      let m ← readEntries read .empty members
      closed m stop
  | .broken r _ => .error r
  | .sunken false _ => .error .malformed
  | _ => .error .misshapen

/-! ### Records -/

/-- Whether all fields that an object needs have been seen. -/
def complete (fields : List (String × Presence)) (seen : List String) : Bool :=
  fields.all fun field => field.2 != .required || seen.contains field.1

/-- Reads the members of a record. A field given twice is refused at its second name; a member
without a field is passed over. -/
def readMembers {σ : Type} (fields : List (String × Presence)) (bound : Nat)
    (put : σ → String → (x : Draft) → sizeOf x < bound → Except Refusal σ)
    (state : σ) (seen : List String) :
    (members : List (Option String × Draft)) → sizeOf members ≤ bound →
      Except Refusal (σ × List String)
  | [], _ => .ok (state, seen)
  | (none, _) :: _, _ => .error .malformed
  | (some name, x) :: rest, h =>
      if (fields.lookup name).isSome then
        if seen.contains name then .error .misshapen
        else do
          let next ← put state name x (by simp at h; omega)
          readMembers fields bound put next (name :: seen) rest (by simp at h; omega)
      else
        match passed? x with
        | some r => .error r
        | none => readMembers fields bound put state seen rest (by simp at h; omega)

/-- Reads the fields of a record from the elements of an array. Elements beyond the fields are
refused as trailing text. -/
def readFields {σ : Type} (bound : Nat)
    (put : σ → String → (x : Draft) → sizeOf x < bound → Except Refusal σ)
    (stop : Option Refusal) (state : σ) :
    List (String × Presence) → (items : List Draft) → sizeOf items ≤ bound → Except Refusal σ
  | [], [], _ => closed state stop
  | [], _ :: _, _ => .error .malformed
  | fields, [], _ =>
      match stop with
      | some r => .error r
      | none => if fields.all fun field => field.2 == .defaulted then .ok state
          else .error .misshapen
  | field :: fields, x :: rest, h => do
      let next ← put state field.1 x (by simp at h; omega)
      readFields bound put stop next fields rest (by simp at h; omega)

/-- Reads a record: starting from a blank one, each field that comes is put into it. -/
def record {σ : Type} (d : Draft) (fields : List (String × Presence)) (blank : σ)
    (put : σ → String → (x : Draft) → sizeOf x < sizeOf d → Except Refusal σ) :
    Except Refusal σ :=
  match d with
  | .obj members stop => do
      let outcome ← readMembers fields _ put blank [] members (by simp; omega)
      let _ ← closed () stop
      if complete fields outcome.2 then return outcome.1 else throw .misshapen
  | .arr items stop => readFields _ put stop blank fields items (by simp; omega)
  | .broken r _ => .error r
  | .sunken _ _ => .error .malformed
  | _ => .error .misshapen

/-! ### Choices between shapes -/

/-- The first of several readings that succeeds. -/
def firstOk {α : Type} : List (Except Refusal α) → Except Refusal α
  | [] => .error .misshapen
  | .ok value :: _ => .ok value
  | .error _ :: rest => firstOk rest

/-- Reads a value that may have several shapes. The whole value is taken in first, so a mistake
anywhere in it counts before any shape is tried; then the first shape that fits decides. -/
def variants {α : Type} (d : Draft) (readings : Unit → List (Except Refusal α)) :
    Except Refusal α := do
  let _ ← d.toJson
  firstOk (readings ())

end Draft

end Paradigm.Json
