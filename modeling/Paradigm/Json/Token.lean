/-
Module: Paradigm.Json.Token
Layer: Text
Purpose: The words of a JSON text. Some texts are refused when a value is wanted and accepted when
  the value is passed over, such as half of a surrogate pair or a number beyond the range; a
  word therefore carries what happens in either case.
Imports: Paradigm.Json, Paradigm.Binary64.Decimal, Paradigm.Hexadecimal
Main exports: Json.Refusal, Json.Token, Json.Token.lex
-/
import Paradigm.Json
import Paradigm.Binary64.Decimal
import Paradigm.Hexadecimal

namespace Paradigm.Json

/-- Why a text is not read: it is not JSON, it ends too early, or it is JSON of another shape
than the one wanted. -/
inductive Refusal where
  | malformed
  | truncated
  | misshapen
deriving DecidableEq, Repr

/-- A word: punctuation, a text, or another value without parts. A text or value comes as it is
read, and with what passing over it meets. -/
inductive Token where
  | arrayStart
  | arrayEnd
  | objectStart
  | objectEnd
  | comma
  | colon
  | text (read : Except Refusal String) (passed : Option Refusal)
  | value (read : Except Refusal Json) (passed : Option Refusal)

namespace Token

/-! ### Texts -/

/-- How many bytes characters take up. -/
def byteLength (cs : List Char) : Nat := cs.foldr (fun c n => c.utf8Size + n) 0

/-- The character that a letter stands for behind a backslash. -/
def shortEscape? (c : Char) : Option Char :=
  if c == '"' || c == '\\' || c == '/' then some c
  else if c == 'b' then some '\x08'
  else if c == 'f' then some '\x0c'
  else if c == 'n' then some '\n'
  else if c == 'r' then some '\r'
  else if c == 't' then some '\t'
  else none

/-- A scanned text: how it reads, what passing over it meets, and what follows it. -/
structure Scan (α : Type) where
  read : Except Refusal α
  passed : Option Refusal
  rest : List Char

/-- The state of scanning: the characters so far in reverse, the first half of a surrogate pair
that waits for its second, and whether reading has failed already. -/
structure TextState where
  done : List Char := []
  half : Option Nat := none
  failed : Bool := false

/-- Takes one more character. A waiting half must not be followed by one. -/
def TextState.push (s : TextState) (c : Char) : TextState :=
  { done := c :: s.done, half := none, failed := s.failed || s.half.isSome }

/-- Takes one code unit. -/
def TextState.pushUnit (s : TextState) (n : Nat) : TextState :=
  match s.half with
  | some high =>
      if 0xDC00 ≤ n && n ≤ 0xDFFF then
        { s with
          done := Char.ofNat (0x10000 + (high - 0xD800) * 0x400 + (n - 0xDC00)) :: s.done
          half := none }
      else { s with half := none, failed := true }
  | none =>
      if 0xD800 ≤ n && n ≤ 0xDBFF then { s with half := some n }
      else if 0xDC00 ≤ n && n ≤ 0xDFFF then { s with failed := true }
      else { s with done := Char.ofNat n :: s.done }

/-- A text that cannot even be passed over. -/
def TextState.stop (s : TextState) (r : Refusal) : Scan String :=
  { read := .error (if s.failed then .malformed else r), passed := some r, rest := [] }

/-- The text at its closing quote. -/
def TextState.finish (s : TextState) (rest : List Char) : Scan String :=
  { read := if s.failed || s.half.isSome then .error .malformed
      else .ok (String.ofList s.done.reverse)
    passed := none
    rest := rest }

/-- Scans the characters behind an opening quote up to the closing one. -/
def scanText (s : TextState) : List Char → Scan String
  | [] => s.stop .truncated
  | '"' :: rest => s.finish rest
  | '\\' :: [] => s.stop .truncated
  | '\\' :: 'u' :: a :: b :: c :: d :: rest =>
      match Hexadecimal.read? [a, b, c, d] with
      | some n => scanText (s.pushUnit n) rest
      | none => s.stop .malformed
  | '\\' :: 'u' :: rest => s.stop (if 4 ≤ byteLength rest then .malformed else .truncated)
  | '\\' :: c :: rest =>
      match shortEscape? c with
      | some e => scanText (s.push e) rest
      | none => s.stop .malformed
  | c :: rest => if c.toNat < 32 then s.stop .malformed else scanText (s.push c) rest

theorem length_rest_scanText (s : TextState) (cs : List Char) :
    (scanText s cs).rest.length ≤ cs.length := by
  fun_induction scanText s cs <;> simp_all [TextState.stop, TextState.finish] <;> omega

/-! ### Numbers -/

/-- The largest integer literal. -/
def maxWord : Nat := 18446744073709551615

/-- Takes digits onto a number as long as it stays within a word; gives back the digits left. -/
def accumulate (n : Nat) : List Char → Nat × List Char
  | [] => (n, [])
  | c :: rest =>
      let next := 10 * n + (c.toNat - '0'.toNat)
      if next ≤ maxWord then accumulate next rest else (n, c :: rest)

/-- The number nearest to a power of ten. -/
def powerOfTen (k : Nat) : Binary64 := Binary64.ofRatio false (Nat.pow 10 k) 1

/-- Multiplies by a power of ten in as few rounded steps as the powers of the range allow. There
is no result beyond the range. -/
def scale (x : Binary64) (power : Int) : Option Binary64 :=
  if power.natAbs ≤ 308 then
    if 0 ≤ power then
      let y := x.mul (powerOfTen power.natAbs)
      if y.isFinite then some y else none
    else some (x.div (powerOfTen power.natAbs))
  else if x.isZero then some x
  else if 0 ≤ power then none
  else scale (x.div (powerOfTen 308)) (power + 308)
termination_by power.natAbs
decreasing_by omega

/-- The parts of a number literal. -/
structure Literal where
  negative : Bool
  whole : List Char
  fraction : List Char
  exponent : Option Int

/-- The number of a literal. An integer stays one as long as it fits a word; anything else is a
floating-point number made from the leading digits that fit a word. -/
def Literal.number (l : Literal) : Except Refusal Number :=
  let leading := accumulate 0 l.whole
  if l.fraction.isEmpty && l.exponent.isNone && leading.2.isEmpty then
    if !l.negative then .ok (.int leading.1)
    else if leading.1 = 0 then .ok (.float (Binary64.zero true))
    else if leading.1 ≤ 9223372036854775808 then .ok (.int (-(leading.1 : Int)))
    else .ok (.float (Binary64.ofInt (-(leading.1 : Int))))
  else
    let all := accumulate leading.1 l.fraction
    let taken : Int := (l.fraction.length : Int) - all.2.length
    let power := l.exponent.getD 0 + leading.2.length - taken
    match scale (Binary64.ofRatio false all.1 1) power with
    | some x => .ok (.float (if l.negative then x.neg else x))
    | none => .error .malformed

/-- A number that cannot be passed over. At the end of the text reading finds it cut short, while
passing over finds it wrong. -/
def brokenNumber (rest : List Char) : Scan Number :=
  { read := .error (if rest.isEmpty then .truncated else .malformed)
    passed := some .malformed
    rest := [] }

/-- Scans the exponent behind the letter `e`, if there is one, and finishes the literal. -/
def scanExponent (l : Literal) (cs : List Char) : Scan Number :=
  match cs with
  | c :: rest =>
      if c == 'e' || c == 'E' then
        let signed := Binary64.takeSign rest
        let digits := signed.2.takeWhile Char.isDigit
        if digits.isEmpty then brokenNumber signed.2
        else
          let n : Int := Binary64.digitsValue digits
          { read := { l with exponent := some (if signed.1 then -n else n) }.number
            passed := none
            rest := signed.2.dropWhile Char.isDigit }
      else { read := l.number, passed := none, rest := cs }
  | [] => { read := l.number, passed := none, rest := [] }

/-- Scans the fraction behind the point, if there is one. -/
def scanFraction (l : Literal) : List Char → Scan Number
  | '.' :: rest =>
      let digits := rest.takeWhile Char.isDigit
      if digits.isEmpty then brokenNumber rest
      else scanExponent { l with fraction := digits } (rest.dropWhile Char.isDigit)
  | cs => scanExponent l cs

/-- Scans a number behind its sign. A leading zero stands alone. -/
def scanDigits (negative : Bool) (cs : List Char) : Scan Number :=
  let digits := cs.takeWhile Char.isDigit
  let rest := cs.dropWhile Char.isDigit
  match digits with
  | [] => brokenNumber cs
  | '0' :: _ :: _ => brokenNumber cs
  | _ => scanFraction ⟨negative, digits, [], none⟩ rest

/-- Scans a number. -/
def scanNumber : List Char → Scan Number
  | '-' :: rest => scanDigits true rest
  | cs => scanDigits false cs

theorem length_dropWhile_le {α : Type} (p : α → Bool) (xs : List α) :
    (xs.dropWhile p).length ≤ xs.length :=
  (List.dropWhile_sublist p).length_le

theorem length_rest_scanExponent (l : Literal) (cs : List Char) :
    (scanExponent l cs).rest.length ≤ cs.length := by
  unfold scanExponent
  split
  · rename_i c rest
    split
    · dsimp only
      split
      · simp [brokenNumber]
      · exact Nat.le_succ_of_le
          (Nat.le_trans (length_dropWhile_le _ _) (Binary64.length_takeSign_le rest))
    · simp
  · simp

theorem length_rest_scanFraction (l : Literal) (cs : List Char) :
    (scanFraction l cs).rest.length ≤ cs.length := by
  unfold scanFraction
  split
  · rename_i rest
    dsimp only
    split
    · simp [brokenNumber]
    · refine Nat.le_trans (length_rest_scanExponent _ _) ?_
      exact Nat.le_trans (length_dropWhile_le _ rest) (Nat.le_succ _)
  · exact length_rest_scanExponent _ _

theorem length_rest_scanDigits_lt (negative : Bool) (cs : List Char) (h : cs ≠ []) :
    (scanDigits negative cs).rest.length < cs.length := by
  have hpos : 0 < cs.length := List.length_pos_iff.2 h
  unfold scanDigits
  dsimp only
  split
  · simpa [brokenNumber] using hpos
  · simpa [brokenNumber] using hpos
  · rename_i hne _
    refine Nat.lt_of_le_of_lt (length_rest_scanFraction _ _) ?_
    cases cs with
    | nil => exact absurd rfl h
    | cons c rest =>
        by_cases hc : c.isDigit
        · simpa [List.dropWhile, hc] using
            Nat.lt_succ_of_le (length_dropWhile_le Char.isDigit rest)
        · exact absurd (by simp [List.takeWhile, hc]) hne

theorem length_rest_scanNumber_lt (cs : List Char) (h : cs ≠ []) :
    (scanNumber cs).rest.length < cs.length := by
  unfold scanNumber
  split
  · rename_i rest
    by_cases hr : rest = []
    · subst hr; simp [scanDigits, brokenNumber]
    · exact Nat.lt_succ_of_lt (length_rest_scanDigits_lt true rest hr)
  · exact length_rest_scanDigits_lt false cs h

/-! ### Words -/

/-- Compares a text with the letters of a word that its first character has announced. -/
def scanWord (value : Json) : List Char → List Char → Scan Json
  | [], rest => { read := .ok value, passed := none, rest := rest }
  | _ :: _, [] => { read := .error .truncated, passed := some .truncated, rest := [] }
  | w :: word, c :: rest =>
      if w = c then scanWord value word rest
      else { read := .error .malformed, passed := some .malformed, rest := [] }

theorem length_rest_scanWord (value : Json) (word cs : List Char) :
    (scanWord value word cs).rest.length ≤ cs.length := by
  induction word generalizing cs with
  | nil => simp [scanWord]
  | cons w word ih =>
      cases cs with
      | nil => simp [scanWord]
      | cons c rest =>
          simp only [scanWord]
          split
          · exact Nat.le_succ_of_le (ih rest)
          · simp

/-- Space, tab and the two line ends. -/
def isBlank (c : Char) : Bool := c == ' ' || c == '\t' || c == '\n' || c == '\r'

/-- The word of a value. -/
def ofScan (scan : Scan Json) : Token := .value scan.read scan.passed

/-- The words of a text. A word that cannot be passed over is the last one. -/
def lex : List Char → List Token
  | [] => []
  | c :: rest =>
      if isBlank c then lex rest
      else if c == '[' then .arrayStart :: lex rest
      else if c == ']' then .arrayEnd :: lex rest
      else if c == '\x7b' then .objectStart :: lex rest
      else if c == '\x7d' then .objectEnd :: lex rest
      else if c == ',' then .comma :: lex rest
      else if c == ':' then .colon :: lex rest
      else if c == '"' then
        let scan := scanText {} rest
        have : scan.rest.length ≤ rest.length := length_rest_scanText {} rest
        .text scan.read scan.passed :: lex scan.rest
      else if c == 't' then
        let scan := scanWord (.bool true) ['r', 'u', 'e'] rest
        have : scan.rest.length ≤ rest.length :=
          length_rest_scanWord (.bool true) ['r', 'u', 'e'] rest
        ofScan scan :: lex scan.rest
      else if c == 'f' then
        let scan := scanWord (.bool false) ['a', 'l', 's', 'e'] rest
        have : scan.rest.length ≤ rest.length :=
          length_rest_scanWord (.bool false) ['a', 'l', 's', 'e'] rest
        ofScan scan :: lex scan.rest
      else if c == 'n' then
        let scan := scanWord .null ['u', 'l', 'l'] rest
        have : scan.rest.length ≤ rest.length :=
          length_rest_scanWord .null ['u', 'l', 'l'] rest
        ofScan scan :: lex scan.rest
      else if c == '-' || c.isDigit then
        let scan := scanNumber (c :: rest)
        have : scan.rest.length < (c :: rest).length :=
          length_rest_scanNumber_lt (c :: rest) (List.cons_ne_nil c rest)
        .value (scan.read.map .num) scan.passed :: lex scan.rest
      else [.value (.error .malformed) (some .malformed)]
termination_by cs => cs.length
decreasing_by all_goals (simp +zetaDelta only [List.length_cons] at *; omega)

end Token

end Paradigm.Json
