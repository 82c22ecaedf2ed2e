import FilterResolution.Json.Doc
import FilterResolution.Number.Scale

/-!
Reading JSON text from the front. Each reader takes the characters not yet read and returns
what it read with the rest, or the first defect met on the way; so a reader that stops early
reports nothing about the text after it. Containers may nest 127 deep: `room` counts the
containers that may still open and starts at 128. Loops carry fuel; the public entry points
pass more fuel than the text has characters, and every step reads at least one.

`skipValue` checks a value without building it and follows rules of its own: numbers are
checked for form only, strings for escapes only, and nesting is not limited.
-/

namespace FilterResolution.Json

open FilterResolution.Number

/-- A read value with the characters after it, or the error that stopped the reading. -/
abbrev Step (α : Type) := Except DecodeError (α × List Char)

/-- Fails with a defect of the text. -/
def fail {α : Type} (f : Fault) : Except DecodeError α := .error (.fault f)

/-- The blanks between tokens: space, line feed, tab and carriage return. -/
def isBlank (c : Char) : Bool := c == ' ' || c == '\n' || c == '\t' || c == '\r'

/-- Drops leading blanks. -/
def skipBlank (cs : List Char) : List Char := cs.dropWhile isBlank

/-- Decimal digits. -/
def isDigit (c : Char) : Bool := '0' ≤ c && c ≤ '9'

/-- The value of a decimal digit. -/
def digitValue (c : Char) : Nat := c.toNat - '0'.toNat

/-- The value of an ASCII hexadecimal digit. -/
def hexValue (c : Char) : Option Nat :=
  if isDigit c then some (digitValue c)
  else if 'a' ≤ c && c ≤ 'f' then some (c.toNat - 'a'.toNat + 10)
  else if 'A' ≤ c && c ≤ 'F' then some (c.toNat - 'A'.toNat + 10)
  else none

/-- The containers that may open in a fresh reading. -/
def depthLimit : Nat := 128

/-- Opens a container: one less may open inside it, and none may open at the limit. -/
def enter (room : Nat) : Except DecodeError Nat :=
  if room ≤ 1 then fail .depthExceeded else .ok (room - 1)

/-- Reads the remaining letters of `null`, `true` or `false`. -/
def expectWord : List Char → List Char → Except DecodeError (List Char)
  | [], cs => .ok cs
  | _ :: _, [] => fail .eofInValue
  | w :: ws, c :: cs => if c == w then expectWord ws cs else fail .expectedIdent

/-! ## Strings -/

/-- Four hexadecimal digits of a `\u` escape. With fewer than four bytes of text left the
text has ended inside the string; otherwise anything but four hex digits is an invalid escape. -/
def readHex4 (cs : List Char) : Except DecodeError (Nat × List Char) :=
  match cs with
  | a :: b :: c :: d :: rest =>
    match hexValue a, hexValue b, hexValue c, hexValue d with
    | some w, some x, some y, some z => .ok (((w * 16 + x) * 16 + y) * 16 + z, rest)
    | _, _, _, _ => fail .invalidEscape
  | short =>
    if ((short.map Char.utf8Size).foldr (· + ·) 0 < 4) then fail .eofInString
    else fail .invalidEscape

/-- The character of a `\u` escape after the `u`. A leading surrogate must be followed by an
escaped trailing one; a trailing surrogate on its own is refused. -/
def readCodeEscape (cs : List Char) : Except DecodeError (Char × List Char) := do
  let (n, rest) ← readHex4 cs
  if 0xDC00 ≤ n ∧ n ≤ 0xDFFF then fail .loneSurrogate
  else if n < 0xD800 ∨ 0xDBFF < n then pure (Char.ofNat n, rest)
  else
    match rest with
    | [] => fail .eofInString
    | '\\' :: [] => fail .eofInString
    | '\\' :: 'u' :: rest => do
      let (n₂, rest) ← readHex4 rest
      if n₂ < 0xDC00 ∨ 0xDFFF < n₂ then fail .loneSurrogate
      else pure (Char.ofNat (((n - 0xD800) * 1024 + (n₂ - 0xDC00)) + 0x10000), rest)
    | _ => fail .unpairedSurrogate

/-- The character of an escape after the backslash. -/
def readEscape : List Char → Except DecodeError (Char × List Char)
  | [] => fail .eofInString
  | c :: rest =>
    match c with
    | '"' => .ok ('"', rest)
    | '\\' => .ok ('\\', rest)
    | '/' => .ok ('/', rest)
    | 'b' => .ok ('\x08', rest)
    | 'f' => .ok ('\x0c', rest)
    | 'n' => .ok ('\n', rest)
    | 'r' => .ok ('\r', rest)
    | 't' => .ok ('\t', rest)
    | 'u' => readCodeEscape rest
    | _ => fail .invalidEscape

/-- The rest of a string after its opening quote; `acc` holds what was read, reversed. -/
def readStringBody : Nat → List Char → List Char → Step String
  | 0, _, _ => fail .eofInString
  | _ + 1, _, [] => fail .eofInString
  | fuel + 1, acc, c :: rest =>
    if c == '"' then .ok (String.ofList acc.reverse, rest)
    else if c == '\\' then
      match readEscape rest with
      | .ok (e, rest) => readStringBody fuel (e :: acc) rest
      | .error err => .error err
    else if c.toNat < 0x20 then fail .controlInString
    else readStringBody fuel (c :: acc) rest

/-- A string after its opening quote. -/
def readString (cs : List Char) : Step String := readStringBody (cs.length + 1) [] cs

/-! ## Numbers -/

/-- The largest unsigned 64-bit integer. -/
def maxUnsigned : Nat := Nat.pow 2 64 - 1

/-- The largest signed 32-bit integer, the bound of written exponents. -/
def maxExponent : Nat := Nat.pow 2 31 - 1

/-- Clamps an exponent to the signed 32-bit range. -/
def saturate (e : Int) : Int := max (-(Int.pow 2 31)) (min e (Int.pow 2 31 - 1))

/-- The double for `significand * 10 ^ exponent` with the sign of `positive`, or a failure when
out of range. -/
def toDouble (positive : Bool) (significand : Nat) (exponent : Int) :
    Except DecodeError Number :=
  match Binary64.ofDecimal (!positive) significand exponent with
  | some x => .ok (.float x)
  | none => fail .numberOutOfRange

/-- Exponent digits after the first; `none` once the value passes `maxExponent`. -/
def exponentDigits (e : Nat) : List Char → Option Nat
  | [] => some e
  | c :: rest => if e * 10 + digitValue c > maxExponent then none
    else exponentDigits (e * 10 + digitValue c) rest

/-- The exponent part after `e` or `E`, for significand `s` whose point shifts by `start`. An
exponent too large to hold makes a non-zero significand out of range and a zero one zero. -/
def readExponent (positive : Bool) (s : Nat) (start : Int) (cs : List Char) : Step Number :=
  let (up, cs) : Bool × List Char := match cs with
    | '+' :: r => (true, r)
    | '-' :: r => (false, r)
    | _ => (true, cs)
  match cs with
  | [] => fail .eofInValue
  | c :: rest =>
    if !isDigit c then fail .invalidNumber else
    let ds := rest.takeWhile isDigit
    let after := rest.dropWhile isDigit
    match exponentDigits (digitValue c) ds with
    | none =>
      if s != 0 && up then fail .numberOutOfRange
      else .ok (.float (Binary64.zero (!positive)), after)
    | some e =>
      let final := if up then saturate (start + e) else saturate (start - e)
      (toDouble positive s final).map (·, after)

/-- After the significand has no room for another digit: the remaining digits are dropped and
an exponent may follow. -/
def readDroppedDigits (positive : Bool) (s : Nat) (e : Int) (cs : List Char) : Step Number :=
  match cs.dropWhile isDigit with
  | 'e' :: r => readExponent positive s e r
  | 'E' :: r => readExponent positive s e r
  | rest => (toDouble positive s e).map (·, rest)

/-- Digits after the point; `s` is the significand so far, `e0` the shift before the point and
`shift` the digits taken after it. At least one digit must follow the point. -/
def readFraction (positive : Bool) (e0 : Int) : Nat → Int → List Char → Step Number
  | s, shift, c :: rest =>
    if isDigit c then
      if s * 10 + digitValue c > maxUnsigned then readDroppedDigits positive s (e0 + shift) (c :: rest)
      else readFraction positive e0 (s * 10 + digitValue c) (shift - 1) rest
    else if shift == 0 then fail .invalidNumber
    else if c == 'e' || c == 'E' then readExponent positive s (e0 + shift) rest
    else (toDouble positive s (e0 + shift)).map (·, c :: rest)
  | s, shift, [] =>
    if shift == 0 then fail .eofInValue else (toDouble positive s (e0 + shift)).map (·, [])

/-- After the integer digits: a fraction, an exponent, or an integer. A non-negative integer is
unsigned; a negative one is signed when it fits, and `-0` and larger ones are doubles. -/
def afterInteger (positive : Bool) (s : Nat) (cs : List Char) : Step Number :=
  match cs with
  | '.' :: rest => readFraction positive 0 s 0 rest
  | 'e' :: rest => readExponent positive s 0 rest
  | 'E' :: rest => readExponent positive s 0 rest
  | _ =>
    if positive then .ok (.unsigned (UInt64.ofNat s), cs)
    else if s = 0 then .ok (.float (Binary64.zero true), cs)
    else if s ≤ Nat.pow 2 63 then .ok (.signed (Int64.ofInt (-(s : Int))), cs)
    else .ok (.float (Binary64.ofRatio true s 1), cs)

/-- Integer digits beyond 64 bits: they only shift the point. -/
def readLongInteger (positive : Bool) (s : Nat) (cs : List Char) : Step Number :=
  let extra := (cs.takeWhile isDigit).length
  match cs.dropWhile isDigit with
  | '.' :: rest => readFraction positive extra s 0 rest
  | 'e' :: rest => readExponent positive s extra rest
  | 'E' :: rest => readExponent positive s extra rest
  | rest => (toDouble positive s extra).map (·, rest)

/-- Integer digits after the first non-zero one. -/
def readDigits (positive : Bool) : Nat → List Char → Step Number
  | s, c :: rest =>
    if isDigit c then
      if s * 10 + digitValue c > maxUnsigned then readLongInteger positive s (c :: rest)
      else readDigits positive (s * 10 + digitValue c) rest
    else afterInteger positive s (c :: rest)
  | s, [] => afterInteger positive s []

/-- A number after its optional minus sign. A leading zero stands alone. -/
def readNumber (positive : Bool) (cs : List Char) : Step Number :=
  match cs with
  | [] => fail .eofInValue
  | c :: rest =>
    if c == '0' then
      match rest with
      | d :: _ => if isDigit d then fail .invalidNumber else afterInteger positive 0 rest
      | [] => afterInteger positive 0 rest
    else if isDigit c then readDigits positive (digitValue c) rest
    else fail .invalidNumber

/-! ## Separators -/

/-- Whether another element of a list follows, given whether it would be the first. Returns
the text at the element, or `none` at the closing bracket (left unread). -/
def nextElement (first : Bool) (cs : List Char) : Except DecodeError (Option (List Char)) :=
  match skipBlank cs with
  | [] => fail .eofInList
  | c :: r =>
    if c == ']' then .ok none
    else if first then .ok (some (c :: r))
    else if c == ',' then
      match skipBlank r with
      | [] => fail .eofInValue
      | d :: r' => if d == ']' then fail .trailingComma else .ok (some (d :: r'))
    else fail .expectedListSeparator

/-- Closes a list once its reader has stopped taking elements. -/
def closeList (cs : List Char) : Except DecodeError (List Char) :=
  match skipBlank cs with
  | [] => fail .eofInList
  | c :: r =>
    if c == ']' then .ok r
    else if c == ',' then
      match skipBlank r with
      | d :: _ => if d == ']' then fail .trailingComma else fail .trailingCharacters
      | [] => fail .trailingCharacters
    else fail .trailingCharacters

/-- The next key of an object, given whether it would be the first, or `none` at the closing
brace (left unread). -/
def nextKey (first : Bool) (cs : List Char) : Except DecodeError (Option (String × List Char)) :=
  match skipBlank cs with
  | [] => fail .eofInObject
  | c :: r =>
    if c == '\x7d' then .ok none
    else
      let atKey : Except DecodeError (List Char) :=
        if c == ',' && !first then .ok (skipBlank r)
        else if first then .ok (c :: r)
        else fail .expectedObjectSeparator
      match atKey with
      | .error e => .error e
      | .ok [] => fail .eofInValue
      | .ok (d :: r') =>
        if d == '"' then (readString r').map some
        else if d == '\x7d' then fail .trailingComma
        else fail .keyNotString

/-- The colon between a key and its value. -/
def readColon (cs : List Char) : Except DecodeError (List Char) :=
  match skipBlank cs with
  | [] => fail .eofInObject
  | c :: r => if c == ':' then .ok r else fail .expectedColon

/-- Closes an object once its reader has stopped taking members. -/
def closeObject (cs : List Char) : Except DecodeError (List Char) :=
  match skipBlank cs with
  | [] => fail .eofInObject
  | c :: r =>
    if c == '\x7d' then .ok r
    else if c == ',' then fail .trailingComma
    else fail .trailingCharacters

/-! ## Documents -/

mutual
/-- One value as a document; objects keep the last member written for each key. -/
def readDoc : Nat → Nat → List Char → Step Doc
  | 0, _, _ => fail .eofInValue
  | fuel + 1, room, cs =>
    match skipBlank cs with
    | [] => fail .eofInValue
    | c :: r =>
      if c == 'n' then (expectWord ['u', 'l', 'l'] r).map (.null, ·)
      else if c == 't' then (expectWord ['r', 'u', 'e'] r).map (.bool true, ·)
      else if c == 'f' then (expectWord ['a', 'l', 's', 'e'] r).map (.bool false, ·)
      else if c == '-' then (readNumber false r).map fun (n, r) => (.number n, r)
      else if isDigit c then (readNumber true (c :: r)).map fun (n, r) => (.number n, r)
      else if c == '"' then (readString r).map fun (s, r) => (.string s, r)
      else if c == '[' then
        match enter room with
        | .error e => .error e
        | .ok inner =>
          match readItems fuel inner true [] r with
          | .error e => .error e
          | .ok (items, r) => (closeList r).map (.array items, ·)
      else if c == '\x7b' then
        match enter room with
        | .error e => .error e
        | .ok inner =>
          match readMembers fuel inner true [] r with
          | .error e => .error e
          | .ok (members, r) => (closeObject r).map (.object members, ·)
      else fail .expectedValue

/-- The elements of a list up to its closing bracket. -/
def readItems : Nat → Nat → Bool → List Doc → List Char → Step (List Doc)
  | 0, _, _, _, _ => fail .eofInList
  | fuel + 1, room, first, acc, cs =>
    match nextElement first cs with
    | .error e => .error e
    | .ok none => .ok (acc.reverse, cs)
    | .ok (some cs) =>
      match readDoc fuel room cs with
      | .error e => .error e
      | .ok (d, r) => readItems fuel room false (d :: acc) r

/-- The members of an object up to its closing brace, by key. -/
def readMembers : Nat → Nat → Bool → List (String × Doc) → List Char → Step (List (String × Doc))
  | 0, _, _, _, _ => fail .eofInObject
  | fuel + 1, room, first, acc, cs =>
    match nextKey first cs with
    | .error e => .error e
    | .ok none => .ok (acc, cs)
    | .ok (some (key, r)) =>
      match readColon r with
      | .error e => .error e
      | .ok r =>
        match readDoc fuel room r with
        | .error e => .error e
        | .ok (d, r) => readMembers fuel room false (KeyMap.insert key d acc) r
end

/-- Enough fuel for any reading of `cs`. -/
def fuelFor (cs : List Char) : Nat := 2 * cs.length + 4

/-- Fails unless only blanks are left. -/
def expectEnd (cs : List Char) : Except DecodeError Unit :=
  if (skipBlank cs).isEmpty then .ok () else fail .trailingCharacters

/-- A whole text as one document. -/
def Doc.ofText (text : String) : Except DecodeError Doc := do
  let cs := text.toList
  let (d, rest) ← readDoc (fuelFor cs) depthLimit cs
  expectEnd rest
  pure d

/-- A document as a reader of its text sees it. A double is written in its shortest digits and
read back by the stepwise rule, which for a long significand can land on a neighbouring double,
so this is not always the document itself. Text too deep to read back leaves the document
as it is. -/
def Doc.reread (d : Doc) : Doc :=
  match Doc.ofText d.render with
  | .ok e => e
  | .error _ => d

/-- The column (1-based, counted in bytes) of the first bracket in `cs` that opens a container
nested `depthLimit` deep; `column` bytes come before `cs`, `depth` containers are open, and
`inString` and `escaped` say whether the scan stands inside a string, just after a backslash.
Reading stops at that bracket, so this is where reading the text back fails. -/
def nestingColumn? (column depth : Nat) (inString escaped : Bool) : List Char → Option Nat
  | [] => none
  | c :: rest =>
    let next := column + c.utf8Size
    if inString then
      if escaped then nestingColumn? next depth true false rest
      else nestingColumn? next depth (c != '"') (c == '\\') rest
    else if c == '"' then nestingColumn? next depth true false rest
    else if c == '[' || c == '\x7b' then
      if depthLimit ≤ depth + 1 then some (column + 1)
      else nestingColumn? next (depth + 1) false false rest
    else if c == ']' || c == '\x7d' then nestingColumn? next (depth - 1) false false rest
    else nestingColumn? next depth false false rest

/-- Where the text of a document nests too deep to be read back, as `nestingColumn?` finds it. -/
def Doc.deepColumn? (d : Doc) : Option Nat := nestingColumn? 0 0 false false d.render.toList

example : nestingColumn? 0 0 false false ("[1]".toList) = none := by decide
example : nestingColumn? 0 126 false false ("[\"[\",[1]]".toList) = some 6 := by decide

/-! ## Skipping -/

/-- The rest of a number checked for form only, after its optional minus sign. -/
def skipNumber (cs : List Char) : Except DecodeError (List Char) := do
  let afterInt ← match cs with
    | '0' :: r =>
      match r with
      | d :: _ => if isDigit d then fail .invalidNumber else pure r
      | [] => pure r
    | c :: r => if isDigit c then pure (r.dropWhile isDigit) else fail .invalidNumber
    | [] => fail .invalidNumber
  let afterFrac ← match afterInt with
    | '.' :: r =>
      match r with
      | d :: _ => if isDigit d then pure (r.dropWhile isDigit) else fail .invalidNumber
      | [] => fail .invalidNumber
    | r => pure r
  match afterFrac with
  | e :: r =>
    if e == 'e' || e == 'E' then
      let r := match r with
        | '+' :: r' => r'
        | '-' :: r' => r'
        | _ => r
      match r with
      | d :: r' => if isDigit d then pure (r'.dropWhile isDigit) else fail .invalidNumber
      | [] => fail .invalidNumber
    else pure (e :: r)
  | [] => pure []

/-- The rest of a string checked for escapes only, after its opening quote. -/
def skipStringBody : Nat → List Char → Except DecodeError (List Char)
  | 0, _ => fail .eofInString
  | _ + 1, [] => fail .eofInString
  | fuel + 1, c :: rest =>
    if c == '"' then .ok rest
    else if c == '\\' then
      match rest with
      | [] => fail .eofInString
      | e :: rest =>
        if e == 'u' then
          match readHex4 rest with
          | .ok (_, rest) => skipStringBody fuel rest
          | .error err => .error err
        else if ['"', '\\', '/', 'b', 'f', 'n', 'r', 't'].contains e then skipStringBody fuel rest
        else fail .invalidEscape
    else if c.toNat < 0x20 then fail .controlInString
    else skipStringBody fuel rest

/-- A scalar value checked without building it. -/
def skipScalar (c : Char) (r : List Char) : Except DecodeError (List Char) :=
  if c == 'n' then expectWord ['u', 'l', 'l'] r
  else if c == 't' then expectWord ['r', 'u', 'e'] r
  else if c == 'f' then expectWord ['a', 'l', 's', 'e'] r
  else if c == '-' then skipNumber r
  else if isDigit c then skipNumber (c :: r)
  else if c == '"' then skipStringBody (r.length + 1) r
  else fail .expectedValue

/-- A key and its colon inside a skipped object. -/
def skipKey (cs : List Char) : Except DecodeError (List Char) :=
  match skipBlank cs with
  | [] => fail .eofInObject
  | c :: r =>
    if c != '"' then fail .keyNotString
    else
      match skipStringBody (r.length + 1) r with
      | .error e => .error e
      | .ok r =>
        match skipBlank r with
        | [] => fail .eofInObject
        | c :: r => if c == ':' then .ok r else fail .expectedColon

/-- What follows a value inside the container `frame`, with `outer` the containers around it
(innermost first): closing brackets, then a comma or the start of the first value. Gives the
text after the outermost closing bracket (`.inl`), or the containers open and the text of the
next value (`.inr`). A comma is allowed once the container holds a value (`comma`). -/
def skipClose : Nat → Char → List Char → Bool → List Char →
    Except DecodeError (List Char ⊕ (List Char × List Char))
  | 0, _, _, _, _ => fail .eofInValue
  | fuel + 1, frame, outer, comma, cs =>
    match skipBlank cs with
    | [] => fail (if frame == '[' then .eofInList else .eofInObject)
    | c :: r =>
      if comma && c == ',' then
        if frame == '\x7b' then (skipKey r).map fun r => .inr (frame :: outer, r)
        else .ok (.inr (frame :: outer, r))
      else if (frame == '[' && c == ']') || (frame == '\x7b' && c == '\x7d') then
        match outer with
        | [] => .ok (.inl r)
        | f :: outer => skipClose fuel f outer true r
      else if comma then
        fail (if frame == '[' then .expectedListSeparator else .expectedObjectSeparator)
      else if frame == '\x7b' then (skipKey (c :: r)).map fun r => .inr (frame :: outer, r)
      else .ok (.inr (frame :: outer, c :: r))

/-- Skips one value: `opened` holds the containers entered and not yet closed, innermost first. -/
def skipLoop : Nat → List Char → List Char → Except DecodeError (List Char)
  | 0, _, _ => fail .eofInValue
  | fuel + 1, opened, cs =>
    match skipBlank cs with
    | [] => fail .eofInValue
    | c :: r =>
      let after : Except DecodeError (List Char ⊕ (List Char × List Char)) :=
        if c == '[' || c == '\x7b' then skipClose fuel c opened false r
        else
          match skipScalar c r with
          | .error e => .error e
          | .ok r =>
            match opened with
            | [] => .ok (.inl r)
            | f :: outer => skipClose fuel f outer true r
      match after with
      | .error e => .error e
      | .ok (.inl r) => .ok r
      | .ok (.inr (opened, r)) => skipLoop fuel opened r

/-- Skips one value, checking its form without building it. -/
def skipValue (cs : List Char) : Except DecodeError (List Char) :=
  skipLoop (fuelFor cs) [] cs

end FilterResolution.Json
