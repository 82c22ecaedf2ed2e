import FilterResolution.Json.Reader

/-!
Typed reading of JSON text in stream order. A typed reader looks at the first token: when it
is not the kind asked for, the error names what was found (reading the whole token first, so
a defect inside it wins), while a container of the wrong kind is named without being read.
Containers are read element by element, so the first error in text order is the one reported,
whether a defect of the text or a value of the wrong kind.
-/

namespace FilterResolution.Json

/-- The error for text that holds another kind of value than `expected`. Scalars are read in
full first, so a defect inside them is reported instead; `cs` starts at the value. -/
def invalidAt (expected : String) (cs : List Char) : DecodeError :=
  let named (r : Except DecodeError Unexpected) : DecodeError :=
    match r with
    | .ok u => .invalidType u expected
    | .error e => e
  match cs with
  | [] => .fault .eofInValue
  | c :: r =>
    if c == 'n' then named ((expectWord ['u', 'l', 'l'] r).map fun _ => .null)
    else if c == 't' then named ((expectWord ['r', 'u', 'e'] r).map fun _ => .bool true)
    else if c == 'f' then named ((expectWord ['a', 'l', 's', 'e'] r).map fun _ => .bool false)
    else if c == '-' then named ((readNumber false r).map fun (n, _) => n.unexpected)
    else if isDigit c then named ((readNumber true cs).map fun (n, _) => n.unexpected)
    else if c == '"' then named ((readString r).map fun (s, _) => .string s)
    else if c == '[' then .invalidType .sequence expected
    else if c == '\x7b' then .invalidType .map expected
    else .fault .expectedValue

/-- A boolean. -/
def readBool (cs : List Char) : Step Bool :=
  match skipBlank cs with
  | [] => fail .eofInValue
  | c :: r =>
    if c == 't' then (expectWord ['r', 'u', 'e'] r).map (true, ·)
    else if c == 'f' then (expectWord ['a', 'l', 's', 'e'] r).map (false, ·)
    else .error (invalidAt "a boolean" (c :: r))

/-- An unsigned 64-bit integer, named `expected` in errors. A negative integer is an invalid
value and a double an invalid type. -/
def readUnsigned (expected : String) (cs : List Char) : Step Nat :=
  let classify (r : Step Number) : Step Nat :=
    match r with
    | .error e => .error e
    | .ok (.unsigned n, rest) => .ok (n.toNat, rest)
    | .ok (.signed n, _) => .error (.invalidValue (.signed n.toInt) expected)
    | .ok (.float x, _) => .error (.invalidType (.float x) expected)
  match skipBlank cs with
  | [] => fail .eofInValue
  | c :: r =>
    if c == '-' then classify (readNumber false r)
    else if isDigit c then classify (readNumber true (c :: r))
    else .error (invalidAt expected (c :: r))

/-- A string value, named `expected` in errors. -/
def readStringValue (expected : String) (cs : List Char) : Step String :=
  match skipBlank cs with
  | [] => fail .eofInValue
  | c :: r => if c == '"' then readString r else .error (invalidAt expected (c :: r))

/-- The elements of a list after its bracket, each read by `elem` with the room left. -/
def readElements {α : Type} (elem : Nat → List Char → Step α) :
    Nat → Nat → Bool → List α → List Char → Step (List α)
  | 0, _, _, _, _ => fail .eofInList
  | fuel + 1, room, first, acc, cs =>
    match nextElement first cs with
    | .error e => .error e
    | .ok none => .ok (acc.reverse, cs)
    | .ok (some cs) =>
      match elem room cs with
      | .error e => .error e
      | .ok (x, r) => readElements elem fuel room false (x :: acc) r

/-- A list whose elements `elem` reads; `expected` names the list in errors. -/
def readSeq {α : Type} (expected : String) (elem : Nat → List Char → Step α) (room : Nat)
    (cs : List Char) : Except DecodeError (List α × List Char) :=
  match skipBlank cs with
  | [] => fail .eofInValue
  | c :: r =>
    if c == '[' then do
      let inner ← enter room
      let (items, r) ← readElements elem (fuelFor r) inner true [] r
      let r ← closeList r
      pure (items, r)
    else .error (invalidAt expected (c :: r))

/-- Walks the members of an object after its brace. `visit` receives each key with the text
after it and reads the colon and value, or refuses the key. -/
def walkMembers {σ : Type} (visit : σ → String → List Char → Step σ) :
    Nat → σ → Bool → List Char → Step σ
  | 0, _, _, _ => fail .eofInObject
  | fuel + 1, st, first, cs =>
    match nextKey first cs with
    | .error e => .error e
    | .ok none => .ok (st, cs)
    | .ok (some (key, r)) =>
      match visit st key r with
      | .error e => .error e
      | .ok (st, r) => walkMembers visit fuel st false r

/-- A map from keys to values that `elem` reads; a later entry for a key replaces an earlier
one. `expected` names the map in errors. -/
def readMap {α : Type} (expected : String) (elem : Nat → List Char → Step α) (room : Nat)
    (cs : List Char) : Except DecodeError (List (String × α) × List Char) :=
  match skipBlank cs with
  | [] => fail .eofInValue
  | c :: r =>
    if c == '\x7b' then do
      let inner ← enter room
      let visit (m : List (String × α)) (key : String) (r : List Char) :
          Except DecodeError (List (String × α) × List Char) := do
        let r ← readColon r
        let (v, r) ← elem inner r
        pure (KeyMap.insert key v m, r)
      let (m, r) ← walkMembers visit (fuelFor r) [] true r
      let r ← closeObject r
      pure (m, r)
    else .error (invalidAt expected (c :: r))

/-- The `null` of a unit value. -/
def readUnit (cs : List Char) : Except DecodeError (List Char) :=
  match skipBlank cs with
  | [] => fail .eofInValue
  | c :: r => if c == 'n' then expectWord ['u', 'l', 'l'] r else .error (invalidAt "unit" (c :: r))

/-- The name of a variant: a string among `variants`. -/
def readVariantName (variants : List String) (cs : List Char) :
    Except DecodeError (String × List Char) := do
  let (name, r) ← readStringValue "variant identifier" cs
  if variants.contains name then pure (name, r) else .error (.unknownVariant name variants)

/-- A variant without data of an enum whose variants are `variants`: written as its name, or as
an object whose one key is the name and whose value is `null`. In the object form the key is
looked at before anything is read: the end of the text, a closing brace and anything but a
string each have their own fault. -/
def readUnitVariant (variants : List String) (room : Nat) (cs : List Char) :
    Except DecodeError (String × List Char) :=
  match skipBlank cs with
  | [] => fail .eofInValue
  | c :: r =>
    if c == '"' then readVariantName variants (c :: r)
    else if c == '\x7b' then do
      let _ ← enter room
      let (name, r) ← match skipBlank r with
        | [] => fail .eofInObject
        | d :: r =>
          if d == '"' then readVariantName variants (d :: r)
          else if d == '\x7d' then fail .expectedValue
          else fail .keyNotString
      let r ← readColon r
      let r ← readUnit r
      match skipBlank r with
      | [] => fail .eofInObject
      | d :: r => if d == '\x7d' then pure (name, r) else fail .expectedValue
    else fail .expectedValue

/-- Reads a whole text with `read`, which starts with the full room; only blanks may follow. -/
def readAll {α : Type} (read : Nat → List Char → Step α) (text : String) :
    Except DecodeError α := do
  let (x, rest) ← read depthLimit text.toList
  expectEnd rest
  pure x

end FilterResolution.Json
