import FilterResolution.Json.Stream

/-!
Engine settings: how deep groups may nest (64 by default) and what registering an
association twice does (refused by default). Read from JSON text, each setting may be left
out, other members are skipped, and the array form lists the settings in order.
-/

namespace FilterResolution.Virtual

open FilterResolution.Json

/-- What registering an association a second time does. -/
inductive DuplicatePolicy where
  | reject
  | firstWins
  deriving DecidableEq, Repr, Inhabited

namespace DuplicatePolicy

/-- The JSON names of the policies, in declaration order. -/
def names : List String := ["reject", "first_wins"]

/-- The JSON name of a policy. -/
def name : DuplicatePolicy → String
  | .reject => "reject"
  | .firstWins => "first_wins"

/-- The policy with a JSON name. -/
def ofName (s : String) : DuplicatePolicy := if s == "first_wins" then .firstWins else .reject

end DuplicatePolicy

/-- Engine settings. -/
structure Config where
  maxGroupDepth : Nat := 64
  duplicatePolicy : DuplicatePolicy := .reject
  deriving Repr, Inhabited

namespace Config

/-- The JSON form of the settings. -/
def toDoc (c : Config) : Doc :=
  .object [("max_group_depth", .number (.unsigned (UInt64.ofNat c.maxGroupDepth))),
    ("duplicate_policy", .string c.duplicatePolicy.name)]

/-- A depth setting: an unsigned 64-bit integer. -/
def readDepth (cs : List Char) : Except DecodeError (Nat × List Char) := readUnsigned "usize" cs

/-- A policy setting. -/
def readPolicy (room : Nat) (cs : List Char) : Except DecodeError (DuplicatePolicy × List Char) :=
  (readUnitVariant DuplicatePolicy.names room cs).map fun (s, r) => (DuplicatePolicy.ofName s, r)

/-- The members of a settings object read so far. -/
structure Fields where
  maxGroupDepth : Option Nat := none
  duplicatePolicy : Option DuplicatePolicy := none

/-- Settings from text at the front of `cs`. -/
def readText (room : Nat) (cs : List Char) : Except DecodeError (Config × List Char) :=
  match skipBlank cs with
  | [] => fail .eofInValue
  | c :: r =>
    if c == '[' then do
      let inner ← enter room
      let (depth, r) ← match nextElement true r with
        | .error e => .error e
        | .ok none => pure (64, r)
        | .ok (some r) => readDepth r
      let (policy, r) ← match nextElement false r with
        | .error e => .error e
        | .ok none => pure (.reject, r)
        | .ok (some r) => readPolicy inner r
      let r ← closeList r
      pure ({ maxGroupDepth := depth, duplicatePolicy := policy }, r)
    else if c == '\x7b' then do
      let inner ← enter room
      let visit (st : Fields) (key : String) (r : List Char) :
          Except DecodeError (Fields × List Char) :=
        if key == "max_group_depth" then
          if st.maxGroupDepth.isSome then .error (.duplicateField "max_group_depth") else do
            let r ← readColon r
            let (v, r) ← readDepth r
            pure ({ st with maxGroupDepth := some v }, r)
        else if key == "duplicate_policy" then
          if st.duplicatePolicy.isSome then .error (.duplicateField "duplicate_policy") else do
            let r ← readColon r
            let (v, r) ← readPolicy inner r
            pure ({ st with duplicatePolicy := some v }, r)
        else do
          let r ← readColon r
          let r ← skipValue r
          pure (st, r)
      let (st, r) ← walkMembers visit (fuelFor r) {} true r
      let r ← closeObject r
      pure ({ maxGroupDepth := st.maxGroupDepth.getD 64,
              duplicatePolicy := st.duplicatePolicy.getD .reject }, r)
    else .error (invalidAt "struct RewriterConfig" (c :: r))

/-- Settings from JSON text. -/
def ofJson (text : String) : Except DecodeError Config := readAll readText text

end Config

end FilterResolution.Virtual
