import CanonicalIdl.Json.Document
import CanonicalIdl.Text.Numeral

/-!
# Scanning a text into a document

The scan is total: it never fails, but leaves its faults in the document.  It goes on
behind a fault that does not matter to a reader who skips the place, and it ends at any
other.

Containers may be nested 127 deep; a deeper one is unreadable as a whole.
-/

namespace CanonicalIdl.Json

/-- The blanks between the tokens of a JSON text. -/
def isJsonBlank (c : Char) : Bool :=
  c == ' ' || c == '\n' || c == '\t' || c == '\r'

/-- The text behind its leading blanks. -/
def skipBlanks (text : List Char) : List Char :=
  text.dropWhile isJsonBlank

/-- The text behind the letters of a word. -/
def afterWord : List Char → List Char → Except Malformation (List Char)
  | [], text => .ok text
  | _ :: _, [] => .error .endInToken
  | letter :: letters, c :: text =>
    if c == letter then afterWord letters text else .error .expectedWord

/-! ## Strings -/

/-- A character of a string, or the 16-bit code that a hexadecimal escape stands for. -/
inductive StringUnit where
  | char (c : Char)
  | code (n : Nat)
  deriving Repr, DecidableEq

/-- The character that a one-letter escape stands for. -/
def simpleEscape? (c : Char) : Option Char :=
  if c == '"' || c == '\\' || c == '/' then some c
  else if c == 'b' then some (Char.ofNat 8)
  else if c == 'f' then some (Char.ofNat 12)
  else if c == 'n' then some '\n'
  else if c == 'r' then some '\r'
  else if c == 't' then some '\t'
  else none

/-- The value of a hexadecimal digit. -/
def hexDigit? (c : Char) : Option Nat :=
  if c.isDigit then some (c.toNat - 48)
  else if 'a' ≤ c && c ≤ 'f' then some (c.toNat - 87)
  else if 'A' ≤ c && c ≤ 'F' then some (c.toNat - 55)
  else none

/-- The code of four hexadecimal digits. -/
def hexCode? (a b c d : Char) : Option Nat := do
  let a ← hexDigit? a
  let b ← hexDigit? b
  let c ← hexDigit? c
  let d ← hexDigit? d
  return ((a * 16 + b) * 16 + c) * 16 + d

/-- The number of bytes of a text. -/
def byteCount (text : List Char) : Nat :=
  (String.ofList text).utf8ByteSize

/-- The fault of an escape that is not followed by four hexadecimal digits: the text has
ended if fewer than four bytes are left. -/
def hexFault (text : List Char) : Malformation :=
  if byteCount text < 4 then .endInString else .invalidEscape

/-- The units of a string up to its closing quotation mark, and the text behind that mark
or the fault in front of it. -/
def stringUnits : List Char → List StringUnit × Except Malformation (List Char)
  | [] => ([], .error .endInString)
  | c :: rest =>
    if c == '"' then ([], .ok rest)
    else if c == '\\' then
      match rest with
      | [] => ([], .error .endInString)
      | 'u' :: h1 :: h2 :: h3 :: h4 :: rest =>
        match hexCode? h1 h2 h3 h4 with
        | some n =>
          let (units, after) := stringUnits rest
          (.code n :: units, after)
        | none => ([], .error .invalidEscape)
      | e :: rest =>
        if e == 'u' then ([], .error (hexFault rest))
        else match simpleEscape? e with
          | some c =>
            let (units, after) := stringUnits rest
            (.char c :: units, after)
          | none => ([], .error .invalidEscape)
    else if c.toNat < 0x20 then ([], .error .controlInString)
    else
      let (units, after) := stringUnits rest
      (.char c :: units, after)

/-- Codes of the first half of a surrogate pair. -/
def isHighSurrogate (n : Nat) : Bool :=
  0xD800 ≤ n && n < 0xDC00

/-- Codes of the second half of a surrogate pair. -/
def isLowSurrogate (n : Nat) : Bool :=
  0xDC00 ≤ n && n < 0xE000

/-- The character of a surrogate pair. -/
def pairedChar (high low : Nat) : Char :=
  Char.ofNat (0x10000 + (high - 0xD800) * 0x400 + (low - 0xDC00))

/-- The fault of a text that stops behind the first half of a pair: an unfinished escape
keeps its own fault. -/
def afterHighSurrogate : Option Malformation → Malformation
  | some .endInString => .endInString
  | some .invalidEscape => .invalidEscape
  | _ => .unpairedSurrogate

/-- The characters of the units of a string, where `stop` is the fault behind the last. -/
def unitChars (stop : Option Malformation) : List StringUnit → Except Malformation (List Char)
  | [] =>
    match stop with
    | some fault => .error fault
    | none => .ok []
  | .char c :: rest =>
    match unitChars stop rest with
    | .ok chars => .ok (c :: chars)
    | .error fault => .error fault
  | .code n :: rest =>
    if isLowSurrogate n then .error .loneSurrogate
    else if isHighSurrogate n then
      match rest with
      | .code m :: rest =>
        if isLowSurrogate m then
          match unitChars stop rest with
          | .ok chars => .ok (pairedChar n m :: chars)
          | .error fault => .error fault
        else .error .loneSurrogate
      | .char _ :: _ => .error .unpairedSurrogate
      | [] => .error (afterHighSurrogate stop)
    else
      match unitChars stop rest with
      | .ok chars => .ok (Char.ofNat n :: chars)
      | .error fault => .error fault

/-- A string up to its closing quotation mark: how it reads, and the text behind it or
what stops even a reader who skips it. -/
def scanString (text : List Char) :
    Except Malformation String × Except Malformation (List Char) :=
  let (units, after) := stringUnits text
  let stop :=
    match after with
    | .ok _ => none
    | .error fault => some fault
  ((unitChars stop units).map String.ofList, after)

/-! ## Numbers -/

/-- Whether a digit follows. -/
def startsWithDigit : List Char → Bool
  | c :: _ => c.isDigit
  | [] => false

/-- The value of a decimal digit. -/
def digitValue (c : Char) : Nat :=
  c.toNat - 48

/-- The 64-bit number that digits build up on `start`, how many of them it takes in, and
the digits left when the next one would not fit. -/
def absorbDigits (start : Nat) : List Char → Nat × Nat × List Char
  | [] => (start, 0, [])
  | d :: rest =>
    let grown := start * 10 + digitValue d
    if grown < UInt64.size then
      let (value, count, left) := absorbDigits grown rest
      (value, count + 1, left)
    else (start, 0, d :: rest)

/-- The parts of a number: digits before and after the point and the exponent. -/
structure NumberParts where
  negative : Bool
  whole : List Char
  fraction : List Char
  exponent : Option Int
  deriving Repr

/-- The number of these parts as an integer, if it has neither fraction nor exponent and
fits in 64 bits.  The negative zero is no integer. -/
def NumberParts.int? (parts : NumberParts) : Option Int :=
  let n := Nat.ofDigitChars 10 parts.whole 0
  if parts.fraction.isEmpty && parts.exponent.isNone then
    if parts.negative then
      if 0 < n && n ≤ UInt64.size / 2 then some (-n) else none
    else if n < UInt64.size then some n else none
  else none

/-- The number of these parts in binary, if it is in range.  Digits beyond 64 bits of
significand count only by their place. -/
def NumberParts.double? (parts : NumberParts) : Option Double :=
  let (start, _, dropped) := absorbDigits 0 parts.whole
  let (significand, taken, _) := absorbDigits start parts.fraction
  let exponent : Int := dropped.length - taken + parts.exponent.getD 0
  (Magnitude.ofDecimal? significand exponent).map fun m => ⟨parts.negative, m⟩

/-- The number of these parts. -/
def NumberParts.document (parts : NumberParts) : Document :=
  match parts.int? with
  | some n => .int n
  | none =>
    match parts.double? with
    | some x => .double x
    | none => .unreadable .numberOutOfRange none

/-- What a scan step leaves: a document and the text behind it, unless a fault stops it. -/
abbrev Scanned := Document × Option (List Char)

/-- A fault that stops readers and skippers alike. -/
def stopped (whenRead whenSkipped : Malformation) : Scanned :=
  (.unreadable whenRead (some whenSkipped), none)

/-- A number from its exponent's digits on. -/
def scanExponentDigits (negative : Bool) (whole fraction : List Char) (below : Bool) :
    List Char → Scanned
  | [] => stopped .endInToken .invalidNumber
  | c :: rest =>
    if c.isDigit then
      let digits := (c :: rest).takeWhile Char.isDigit
      let n := Nat.ofDigitChars 10 digits 0
      let parts : NumberParts := ⟨negative, whole, fraction, some (if below then -n else n)⟩
      (parts.document, some ((c :: rest).dropWhile Char.isDigit))
    else stopped .invalidNumber .invalidNumber

/-- A number behind its fraction. -/
def scanExponent (negative : Bool) (whole fraction : List Char) (text : List Char) : Scanned :=
  match text with
  | c :: rest =>
    if c == 'e' || c == 'E' then
      match rest with
      | '+' :: rest => scanExponentDigits negative whole fraction false rest
      | '-' :: rest => scanExponentDigits negative whole fraction true rest
      | _ => scanExponentDigits negative whole fraction false rest
    else ((⟨negative, whole, fraction, none⟩ : NumberParts).document, some text)
  | [] => ((⟨negative, whole, fraction, none⟩ : NumberParts).document, some text)

/-- A number behind the digits in front of the point. -/
def scanFraction (negative : Bool) (whole : List Char) (text : List Char) : Scanned :=
  match text with
  | '.' :: rest =>
    if startsWithDigit rest then
      scanExponent negative whole (rest.takeWhile Char.isDigit) (rest.dropWhile Char.isDigit)
    else stopped (if rest.isEmpty then .endInToken else .invalidNumber) .invalidNumber
  | _ => scanExponent negative whole [] text

/-- A number behind its sign.  A leading zero stands alone. -/
def scanNumber (negative : Bool) (text : List Char) : Scanned :=
  match text with
  | [] => stopped .endInToken .invalidNumber
  | c :: rest =>
    if c == '0' then
      if startsWithDigit rest then stopped .invalidNumber .invalidNumber
      else scanFraction negative ['0'] rest
    else if c.isDigit then
      scanFraction negative (text.takeWhile Char.isDigit) (text.dropWhile Char.isDigit)
    else stopped .invalidNumber .invalidNumber

/-! ## Values -/

/-- A word that stands for a value. -/
def scanWord (value : Document) (letters text : List Char) : Scanned :=
  match afterWord letters text with
  | .ok rest => (value, some rest)
  | .error fault => stopped fault fault

/-- A string as a value. -/
def scanStringValue (text : List Char) : Scanned :=
  match scanString text with
  | (.ok s, .ok rest) => (.string s, some rest)
  | (.error fault, .ok rest) => (.unreadable fault none, some rest)
  | (.ok _, .error fault) => stopped fault fault
  | (.error fault, .error skipFault) => stopped fault skipFault

/-- Containers inside one another that a reader follows. -/
def nestingLimit : Nat := 127

/-- A container, unreadable when there are already too many around it. -/
def withinLimit (around : Nat) (container : Document) : Document :=
  if around < nestingLimit then container
  else .unreadable .tooDeep
    (match container.skip with
    | .ok _ => none
    | .error fault => some fault)

mutual

/-- A value with `around` containers around it. -/
def scanValue (around : Nat) : Nat → List Char → Scanned
  | 0, _ => stopped .endInValue .endInValue
  | fuel + 1, text =>
    match skipBlanks text with
    | [] => stopped .endInValue .endInValue
    | c :: rest =>
      if c == '"' then scanStringValue rest
      else if c == '[' then
        let (items, ending, after) := scanItems (around + 1) fuel true rest
        (withinLimit around (.array items ending), after)
      else if c == '\x7b' then
        let (members, ending, after) := scanMembers (around + 1) fuel true rest
        (withinLimit around (.object members ending), after)
      else if c == 'n' then scanWord .null ['u', 'l', 'l'] rest
      else if c == 't' then scanWord (.bool true) ['r', 'u', 'e'] rest
      else if c == 'f' then scanWord (.bool false) ['a', 'l', 's', 'e'] rest
      else if c == '-' then scanNumber true rest
      else if c.isDigit then scanNumber false (c :: rest)
      else stopped .expectedValue .expectedValue
termination_by structural fuel => fuel

/-- The items of an array up to its end; `first` says that none has been read yet. -/
def scanItems (around : Nat) :
    Nat → Bool → List Char → List Document × Ending × Option (List Char)
  | 0, _, _ => ([], .broken .endInList .endInList, none)
  | fuel + 1, first, text =>
    match skipBlanks text with
    | [] => ([], .broken .endInList .endInList, none)
    | c :: rest =>
      if c == ']' then ([], .closed, some rest)
      else if first then scanItem around fuel (c :: rest)
      else if c == ',' then
        match skipBlanks rest with
        | [] => ([], .broken .endInValue .endInValue, none)
        | c :: rest =>
          if c == ']' then ([], .broken .trailingComma .expectedValue, none)
          else scanItem around fuel (c :: rest)
      else ([], .broken .expectedListEnd .expectedListEnd, none)
termination_by structural fuel => fuel

/-- An item of an array and the items behind it. -/
def scanItem (around : Nat) :
    Nat → List Char → List Document × Ending × Option (List Char)
  | 0, _ => ([], .broken .endInList .endInList, none)
  | fuel + 1, text =>
    match scanValue around fuel text with
    | (item, none) => ([item], .broken .endInList .endInList, none)
    | (item, some rest) =>
      let (items, ending, after) := scanItems around fuel false rest
      (item :: items, ending, after)
termination_by structural fuel => fuel

/-- The members of an object up to its end; `first` says that none has been read yet. -/
def scanMembers (around : Nat) : Nat → Bool → List Char →
    List (Except Malformation String × Document) × Ending × Option (List Char)
  | 0, _, _ => ([], .broken .endInObject .endInObject, none)
  | fuel + 1, first, text =>
    match skipBlanks text with
    | [] => ([], .broken .endInObject .endInObject, none)
    | c :: rest =>
      if c == '\x7d' then ([], .closed, some rest)
      else if first then
        if c == '"' then scanMember around fuel rest
        else
          ([(.error .keyNotString, (scanValue around fuel (c :: rest)).1)],
            .broken .keyNotString .keyNotString, none)
      else if c == ',' then
        match skipBlanks rest with
        | [] => ([], .broken .endInValue .endInObject, none)
        | c :: rest =>
          if c == '"' then scanMember around fuel rest
          else if c == '\x7d' then ([], .broken .trailingComma .keyNotString, none)
          else ([], .broken .keyNotString .keyNotString, none)
      else ([], .broken .expectedObjectEnd .expectedObjectEnd, none)
termination_by structural fuel => fuel

/-- A member of an object, from behind the quotation mark of its key, and the members
behind it.  A missing colon is a fault of the value. -/
def scanMember (around : Nat) : Nat → List Char →
    List (Except Malformation String × Document) × Ending × Option (List Char)
  | 0, _ => ([], .broken .endInObject .endInObject, none)
  | fuel + 1, text =>
    match scanString text with
    | (key, .error fault) =>
      ([(key, .unreadable fault (some fault))], .broken .endInObject .endInObject, none)
    | (key, .ok rest) =>
      match skipBlanks rest with
      | ':' :: rest =>
        match scanValue around fuel rest with
        | (value, none) => ([(key, value)], .broken .endInObject .endInObject, none)
        | (value, some rest) =>
          let (members, ending, after) := scanMembers around fuel false rest
          ((key, value) :: members, ending, after)
      | [] =>
        ([(key, .unreadable .endInObject (some .endInObject))],
          .broken .endInObject .endInObject, none)
      | _ =>
        ([(key, .unreadable .expectedColon (some .expectedColon))],
          .broken .expectedColon .expectedColon, none)
termination_by structural fuel => fuel

end

/-- A scanned text: the document at its start, and whether more than blanks follow it. -/
structure Source where
  document : Document
  trailing : Bool

/-- Scan a text. -/
def Source.ofText (text : String) : Source :=
  let chars := text.toList
  let (document, after) := scanValue 0 (3 * chars.length + 3) chars
  { document, trailing := !(skipBlanks (after.getD [])).isEmpty }

/-- Read a whole text: the document first, then the end of the text. -/
def parseWith {α : Type} (read : Document → Except Fault α) (text : String) : Except Fault α :=
  let source := Source.ofText text
  match read source.document with
  | .error fault => .error fault
  | .ok a => if source.trailing then .error (.malformed .trailingText) else .ok a

/-- The value that a text holds. -/
def parse (text : String) : Except Fault Json :=
  parseWith Document.read text

end CanonicalIdl.Json
