import ChainScript.Text.Printable

/-!
# Quoted text

The form in which messages show a text so that nothing in it can be mistaken: between double
quotes, with a backslash before a quote or a backslash, short escapes for the common controls
and the hexadecimal code point for every other character that does not print.
-/

namespace ChainScript.Text

/-- The digits of `n` in base sixteen, in lower case. -/
def hexDigits (n : Nat) : String := String.ofList (Nat.toDigits 16 n)

/-- How a quoted text shows one character. -/
def quoteChar (c : Char) : String :=
  if c = '"' then "\\\""
  else if c = '\\' then "\\\\"
  else if c = '\n' then "\\n"
  else if c = '\r' then "\\r"
  else if c = '\t' then "\\t"
  else if c = '\x00' then "\\0"
  else if isPrintable c then c.toString
  else "\\u\x7b" ++ hexDigits c.toNat ++ "\x7d"

/-- The text between double quotes, with every character as `quoteChar` shows it. -/
def quote (s : String) : String :=
  "\"" ++ String.join (s.toList.map quoteChar) ++ "\""

/-- The shown items between brackets, with commas between them. -/
def bracketed (items : List String) : String :=
  "[" ++ ", ".intercalate items ++ "]"

end ChainScript.Text
