/-
Module: Paradigm.Json.Draft
Layer: Text
Purpose: JSON texts with their mistakes in place. A draft is what can be made of a text up to the
  first word that ends everything; reading it for a purpose decides which mistake is met first, as
  reading the text once from the left would. A value without mistakes is a draft too, so one set of
  readers serves texts and values.
Imports: Paradigm.Json.Token
Main exports: Json.Draft, Json.Draft.ofJson, Json.Draft.toJson, Json.Draft.ofText, Json.parse
-/
import Paradigm.Json.Token

namespace Paradigm.Json

/-- A JSON value as far as the text gives one. -/
inductive Draft where
  | null
  | bool (value : Bool)
  | num (value : Json.Number)
  | str (value : String)
  /-- Elements, and what stands in place of the closing bracket. -/
  | arr (items : List Draft) (stop : Option Refusal)
  /-- Members, and what stands in place of the closing bracket. A name that cannot be read, though
  it can be passed over, is missing. -/
  | obj (members : List (Option String × Draft)) (stop : Option Refusal)
  /-- An array or object nested too deeply to be read, and what passing over it meets. -/
  | sunken (isArray : Bool) (passed : Option Refusal)
  /-- What cannot be read, and what passing over it meets. -/
  | broken (read : Refusal) (passed : Option Refusal)

namespace Draft

instance : Inhabited Draft := ⟨.null⟩

/-! ### Values as drafts -/

mutual

/-- The draft of a value has no mistakes. -/
def ofJson : Json → Draft
  | .null => .null
  | .bool b => .bool b
  | .num n => .num n
  | .str s => .str s
  | .arr items => .arr (ofItems items) none
  | .obj members => .obj (ofMembers members) none

/-- The drafts of elements. -/
def ofItems : List Json → List Draft
  | [] => []
  | item :: rest => ofJson item :: ofItems rest

/-- The drafts of members. -/
def ofMembers : List (String × Json) → List (Option String × Draft)
  | [] => []
  | (name, value) :: rest => (some name, ofJson value) :: ofMembers rest

end

mutual

/-- The value of a draft, or the first mistake in it. -/
def toJson : Draft → Except Refusal Json
  | .null => .ok .null
  | .bool b => .ok (.bool b)
  | .num n => .ok (.num n)
  | .str s => .ok (.str s)
  | .arr items stop => do
      let values ← toItems items
      match stop with
      | none => return .arr values
      | some r => throw r
  | .obj members stop => do
      let values ← toMembers members
      match stop with
      | none => return .obj values
      | some r => throw r
  | .sunken _ _ => .error .malformed
  | .broken r _ => .error r

/-- The values of elements. -/
def toItems : List Draft → Except Refusal (List Json)
  | [] => .ok []
  | item :: rest => do
      let value ← toJson item
      return value :: (← toItems rest)

/-- The values of members. -/
def toMembers : List (Option String × Draft) → Except Refusal (List (String × Json))
  | [] => .ok []
  | (none, _) :: _ => .error .malformed
  | (some name, draft) :: rest => do
      let value ← toJson draft
      return (name, value) :: (← toMembers rest)

end

mutual

/-- A value and its draft correspond. -/
theorem toJson_ofJson : ∀ value : Json, toJson (ofJson value) = .ok value
  | .null => rfl
  | .bool _ => rfl
  | .num _ => rfl
  | .str _ => rfl
  | .arr items => by rw [ofJson, toJson, toItems_ofItems items]; rfl
  | .obj members => by rw [ofJson, toJson, toMembers_ofMembers members]; rfl

theorem toItems_ofItems : ∀ items : List Json, toItems (ofItems items) = .ok items
  | [] => rfl
  | item :: rest => by
      rw [ofItems, toItems, toJson_ofJson item, toItems_ofItems rest]; rfl

theorem toMembers_ofMembers : ∀ members : List (String × Json),
    toMembers (ofMembers members) = .ok members
  | [] => rfl
  | (name, value) :: rest => by
      rw [ofMembers, toMembers, toJson_ofJson value, toMembers_ofMembers rest]; rfl

end

/-! ### Passing over -/

mutual

/-- The first thing that passing over a draft meets. Names are not decoded and depth does not
count. -/
def passed? : Draft → Option Refusal
  | .arr items stop => (passedItems? items).or stop
  | .obj members stop => (passedMembers? members).or stop
  | .sunken _ passed => passed
  | .broken _ passed => passed
  | _ => none

/-- The first thing that passing over elements meets. -/
def passedItems? : List Draft → Option Refusal
  | [] => none
  | item :: rest => (passed? item).or (passedItems? rest)

/-- The first thing that passing over members meets. -/
def passedMembers? : List (Option String × Draft) → Option Refusal
  | [] => none
  | (_, draft) :: rest => (passed? draft).or (passedMembers? rest)

end

mutual

/-- Marks the arrays and objects below a number of levels as too deep. -/
def limited : Nat → Draft → Draft
  | 0, .arr items stop => .sunken true (passed? (.arr items stop))
  | 0, .obj members stop => .sunken false (passed? (.obj members stop))
  | n + 1, .arr items stop => .arr (limitedItems n items) stop
  | n + 1, .obj members stop => .obj (limitedMembers n members) stop
  | _, other => other

/-- Marks within elements. -/
def limitedItems : Nat → List Draft → List Draft
  | _, [] => []
  | n, item :: rest => limited n item :: limitedItems n rest

/-- Marks within members. -/
def limitedMembers : Nat → List (Option String × Draft) → List (Option String × Draft)
  | _, [] => []
  | n, (name, draft) :: rest => (name, limited n draft) :: limitedMembers n rest

end

/-! ### From words -/

/-- An array or object whose end has not come: its parts in reverse, and for an object the name
whose value is due. -/
inductive Frame where
  | items (done : List Draft)
  | members (done : List (Option String × Draft)) (name : Option String)

/-- What may come next. -/
inductive Expected where
  | value
  | firstItem
  | firstName
  | name
  | colon
  | separator

/-- The draft of a whole text, and whether words follow its value. -/
structure Outcome where
  draft : Draft
  trailing : Bool

/-- The array or object of a frame, closed as given. -/
def Frame.close (stop : Option Refusal) : Frame → Draft
  | .items done => .arr done.reverse stop
  | .members done _ => .obj done.reverse stop

/-- The frame with one more part. -/
def Frame.put (d : Draft) : Frame → Frame
  | .items done => .items (d :: done)
  | .members done name => .members ((name, d) :: done) none

/-- Ends the text inside nested frames: the last part is the one with the mistake. -/
def abandon (r : Refusal) (d : Draft) : List Frame → Outcome
  | [] => { draft := d, trailing := false }
  | frame :: outer => abandon r ((frame.put d).close (some r)) outer

/-- Ends the text where a value should be. -/
def noValue (r : Refusal) (frames : List Frame) : Outcome :=
  abandon r (.broken r (some r)) frames

/-- Ends the text where the innermost frame should go on or close. -/
def noEnd (r : Refusal) : List Frame → Outcome
  | [] => { draft := .broken r (some r), trailing := false }
  | frame :: outer => abandon r (frame.close (some r)) outer

/-- The draft of a text or other single value. -/
def ofRead (read : Except Refusal Json) (passed : Option Refusal) : Draft :=
  match read with
  | .ok value => ofJson value
  | .error r => .broken r passed

/-- Builds the draft from the words of a text, inside the given frames. -/
def build : List Frame → Expected → List Token → Outcome
  -- the text ends
  | frames, .value, [] => noValue .truncated frames
  | frames, .colon, [] => noValue .truncated frames
  | frames, _, [] => noEnd .truncated frames
  -- a value is due
  | .items done :: outer, .firstItem, .arrayEnd :: rest =>
      settle (Frame.close none (.items done)) outer rest
  | frames, .firstItem, word :: rest => value frames word rest
  | frames, .value, word :: rest => value frames word rest
  -- a name is due
  | .members done name :: outer, .firstName, .objectEnd :: rest =>
      settle (Frame.close none (.members done name)) outer rest
  | frames, .firstName, word :: rest => memberName frames word rest
  | frames, .name, word :: rest => memberName frames word rest
  | frames, .colon, .colon :: rest => build frames .value rest
  | frames, .colon, _ :: _ => noValue .malformed frames
  -- a part is complete
  | [], .separator, _ :: _ => { draft := .null, trailing := true }
  | .items done :: outer, .separator, .comma :: rest => build (.items done :: outer) .value rest
  | .items done :: outer, .separator, .arrayEnd :: rest =>
      settle (Frame.close none (.items done)) outer rest
  | .members done name :: outer, .separator, .comma :: rest =>
      build (.members done name :: outer) .name rest
  | .members done name :: outer, .separator, .objectEnd :: rest =>
      settle (Frame.close none (.members done name)) outer rest
  | frames, .separator, _ :: _ => noEnd .malformed frames
termination_by _ _ words => (words.length, 1)
where
  /-- Goes on behind a complete value. -/
  settle (d : Draft) (frames : List Frame) (rest : List Token) : Outcome :=
    match frames with
    | [] => { draft := d, trailing := !rest.isEmpty }
    | frame :: outer => build (frame.put d :: outer) .separator rest
  termination_by (rest.length, 2)
  /-- Takes the word of a value. -/
  value (frames : List Frame) (word : Token) (rest : List Token) : Outcome :=
    match word with
    | .arrayStart => build (.items [] :: frames) .firstItem rest
    | .objectStart => build (.members [] none :: frames) .firstName rest
    | .text read passed => settle (ofRead (read.map .str) passed) frames rest
    | .value read passed => settle (ofRead read passed) frames rest
    | _ => noValue .malformed frames
  termination_by (rest.length, 3)
  /-- Takes the name of a member. -/
  memberName (frames : List Frame) (word : Token) (rest : List Token) : Outcome :=
    match word, frames with
    | .text read none, .members done _ :: outer =>
        build (.members done read.toOption :: outer) .colon rest
    | .text (.error .malformed) (some r), .members done _ :: outer =>
        abandon r (Frame.close (some r) (.members ((none, .broken r (some r)) :: done) none)) outer
    | .text _ (some r), frames => noEnd r frames
    | _, frames => noEnd .malformed frames
  termination_by (rest.length, 3)

/-- How deeply arrays and objects may be nested in a text. -/
def maxDepth : Nat := 127

/-- The draft of a text. -/
def ofText (text : String) : Outcome :=
  let outcome := build [] .value (Token.lex text.toList)
  { outcome with draft := limited maxDepth outcome.draft }

/-- Reads a whole text. Words behind the value are refused once the value itself is read. -/
def readText {α : Type} (read : Draft → Except Refusal α) (text : String) : Except Refusal α := do
  let outcome := ofText text
  let value ← read outcome.draft
  if outcome.trailing then throw .malformed
  return value

end Draft

/-- The value of a text. -/
def parse (text : String) : Except Refusal Json := Draft.readText Draft.toJson text

end Paradigm.Json
