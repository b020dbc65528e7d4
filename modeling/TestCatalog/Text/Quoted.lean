import TestCatalog.Text.PrintTable

/-!
# Quoted text

A quoted text stands between double quotes, with an escape for every character that would not
show as itself.
-/

namespace TestCatalog.Text

def quoteChar (c : Char) : Text :=
  if c = '\x00' then ['\\', '0']
  else if c = '\t' then ['\\', 't']
  else if c = '\n' then ['\\', 'n']
  else if c = '\r' then ['\\', 'r']
  else if c = '"' then ['\\', '"']
  else if c = '\\' then ['\\', '\\']
  else if isVisible c then [c]
  else "\\u\x7b" ++ Nat.toDigits 16 c.toNat ++ "\x7d"

/-- The text between double quotes, with escapes. -/
def quote (t : Text) : Text :=
  ['"'] ++ t.flatMap quoteChar ++ ['"']

end TestCatalog.Text
