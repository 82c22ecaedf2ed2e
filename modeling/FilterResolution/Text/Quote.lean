import FilterResolution.Text.Escaped

/-!
Quoted text as diagnostic output writes it: between double quotes, with backslash escapes for
the quote, the backslash and the common control characters, and `\u{…}` (lowercase hex, no
leading zeros) for characters that are not printable or that extend a grapheme (the table of
`Text.Escaped`). Printable text, including letters of any script and emoji, stays as it is.
-/

namespace FilterResolution.Text

/-- Lowercase hexadecimal digits of `n`, without leading zeros. -/
def hexDigits (n : Nat) : List Char := Nat.toDigits 16 n

/-- The characters that stand for `c` inside quoted text. -/
def escapeChar (c : Char) : List Char :=
  match c with
  | '\x00' => ['\\', '0']
  | '\t' => ['\\', 't']
  | '\r' => ['\\', 'r']
  | '\n' => ['\\', 'n']
  | '\\' => ['\\', '\\']
  | '"' => ['\\', '"']
  | _ => if needsCodeEscape c then ['\\', 'u', '\x7b'] ++ hexDigits c.toNat ++ ['\x7d'] else [c]

/-- `s` between double quotes with its characters escaped. -/
def quote (s : String) : String :=
  String.ofList ('"' :: s.toList.flatMap escapeChar ++ ['"'])

/-- The characters that stand for `c` inside a quoted character: as inside quoted text, except
that the single quote is escaped and the double quote is not. -/
def escapeCharAlone (c : Char) : List Char :=
  if c == '\x27' then ['\\', '\x27']
  else if c == '"' then ['"']
  else escapeChar c

/-- `c` between single quotes, escaped as a character alone. -/
def quoteChar (c : Char) : String :=
  String.ofList ('\x27' :: escapeCharAlone c ++ ['\x27'])

example : quote "a\"b\n" = "\"a\\\"b\\n\"" := by decide +kernel
example : quote "é😀" = "\"é😀\"" := by decide +kernel
example : quote "a\u0378z" = "\"a\\u\x7b378\x7dz\"" := by decide +kernel
example : quoteChar 'é' = "\x27é\x27" := by decide +kernel
example : quoteChar '"' = "\x27\"\x27" := by decide +kernel

end FilterResolution.Text
