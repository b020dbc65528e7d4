/-!
# Text

Text is a list of characters. This file has the blank characters, trimming, lines, search and
replacement that every other part of the library reads and writes with.
-/

namespace TestCatalog

/-- A text is the list of its characters; texts are ordered by code point. -/
abbrev Text := List Char

instance : Coe String Text := ⟨String.toList⟩

namespace Text

/-! ## Blanks -/

/-- The characters with the Unicode property `White_Space`. -/
def isBlank (c : Char) : Bool :=
  let n := c.toNat
  (9 ≤ n && n ≤ 13) || n == 0x20 || n == 0x85 || n == 0xA0 || n == 0x1680 ||
    (0x2000 ≤ n && n ≤ 0x200A) || n == 0x2028 || n == 0x2029 || n == 0x202F || n == 0x205F ||
    n == 0x3000

def trimStart (t : Text) : Text :=
  t.dropWhile isBlank

def trimEnd (t : Text) : Text :=
  (t.reverse.dropWhile isBlank).reverse

def trim (t : Text) : Text :=
  trimEnd (trimStart t)

def dropEndWhile (p : Char → Bool) (t : Text) : Text :=
  (t.reverse.dropWhile p).reverse

/-! ## Lines -/

/-- A carriage return at the end of a terminated line belongs to its terminator. -/
def dropReturn (line : Text) : Text :=
  if line.getLast? = some '\r' then line.dropLast else line

/-- The lines of a text: each ends at a line feed, and an empty last line is not counted. -/
def lines (t : Text) : List Text :=
  let pieces := t.splitOn '\n'
  pieces.dropLast.map dropReturn ++ (pieces.getLast?.filter (· ≠ [])).toList

/-- The lines of a text with their line feeds, so that their concatenation is the text. -/
def linesInclusive (t : Text) : List Text :=
  let pieces := t.splitOn '\n'
  pieces.dropLast.map (· ++ ['\n']) ++ (pieces.getLast?.filter (· ≠ [])).toList

def join (separator : Text) (pieces : List Text) : Text :=
  separator.intercalate pieces

/-! ## Search -/

def startsWith (start t : Text) : Bool :=
  start.isPrefixOf t

def stripStart? : Text → Text → Option Text
  | [], t => some t
  | _ :: _, [] => none
  | s :: start, c :: t => if s = c then stripStart? start t else none

def contains (needle : Text) : Text → Bool
  | [] => needle.isEmpty
  | c :: t => startsWith needle (c :: t) || contains needle t

def after? (needle : Text) : Text → Option Text
  | [] => stripStart? needle []
  | c :: t =>
    match stripStart? needle (c :: t) with
    | some rest => some rest
    | none => after? needle t

def cut? (needle : Text) : Text → Option (Text × Text)
  | [] => if needle = [] then some ([], []) else none
  | c :: t =>
    match stripStart? needle (c :: t) with
    | some rest => some ([], rest)
    | none => (cut? needle t).map fun (before, after) => (c :: before, after)

/-- Occurrences of `needle` that do not overlap, from the left; the first `skip` characters belong
to the occurrence before them. -/
def countFrom (needle : Text) : (skip found : Nat) → Text → Nat
  | _, found, [] => found
  | skip + 1, found, _ :: t => countFrom needle skip found t
  | 0, found, c :: t =>
    if startsWith needle (c :: t) then countFrom needle (needle.length - 1) (found + 1) t
    else countFrom needle 0 found t

/-- The number of occurrences of a nonempty `needle` that do not overlap, from the left. -/
def count (needle t : Text) : Nat :=
  countFrom needle 0 0 t

/-! ## Replacement -/

def replaceFirst (old new t : Text) : Text :=
  match cut? old t with
  | some (before, after) => before ++ new ++ after
  | none => t

/-- Replaces from the left, where the first `skip` characters are already replaced. -/
def replaceFrom (old new : Text) : (skip : Nat) → Text → Text
  | _, [] => []
  | skip + 1, _ :: t => replaceFrom old new skip t
  | 0, c :: t =>
    if startsWith old (c :: t) then new ++ replaceFrom old new (old.length - 1) t
    else c :: replaceFrom old new 0 t

/-- Replaces every occurrence of a nonempty `old`, from the left and without overlap. -/
def replaceAll (old new t : Text) : Text :=
  replaceFrom old new 0 t

/-! ## Numerals -/

def ofNat (n : Nat) : Text :=
  Nat.toDigits 10 n

def ofBool (b : Bool) : Text :=
  if b then "true" else "false"

/-- Lowers `A` to `Z` and keeps every other character. -/
def asciiLowercase (t : Text) : Text :=
  t.map Char.toLower

end Text

end TestCatalog
