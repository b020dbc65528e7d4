import TestCatalog.Text.CaseTable

/-!
# Lower case

The lower case of a text under the full Unicode rules: U+0130 lowers to two characters, and a
capital sigma that ends a word lowers to its final form.
-/

namespace TestCatalog.Text

/-- The lower case of one character outside any word. -/
def lowerChar (c : Char) : Text :=
  let n := c.toNat
  if n = 0x130 then ['i', '\u0307']
  else
    match caseRuns.find? fun run =>
        run.first ≤ n && n ≤ run.last && (n - run.first) % run.stride == 0 with
    | some run => [Char.ofNat (n + run.shift).toNat]
    | none => [c]

/-- Whether a cased character comes first once the ignorable ones are passed over. -/
def meetsCased (t : Text) : Bool :=
  match t.dropWhile fun c => inRanges caseIgnorableRanges c.toNat with
  | c :: _ => inRanges casedRanges c.toNat
  | [] => false

/-- Lowers a text that follows the characters `before`, nearest first. -/
def lowerAfter (before : Text) : Text → Text
  | [] => []
  | c :: after =>
    let lowered :=
      if c = 'Σ' then [if meetsCased before && !meetsCased after then 'ς' else 'σ']
      else lowerChar c
    lowered ++ lowerAfter (c :: before) after

def lowercase (t : Text) : Text :=
  lowerAfter [] t

end TestCatalog.Text
