import TestCatalog.Text.Basic

/-!
# Markup escapes

Text of an author reaches the catalogue with the five characters of markup written as entities.
-/

namespace TestCatalog

def escapeMarkupChar (c : Char) : Text :=
  if c = '&' then "&amp;"
  else if c = '<' then "&lt;"
  else if c = '>' then "&gt;"
  else if c = '"' then "&quot;"
  else if c = '\'' then "&#x27;"
  else [c]

def escapeMarkup (t : Text) : Text :=
  t.flatMap escapeMarkupChar

end TestCatalog
