import TestCatalog.Toml.Basic

/-!
# Scanning configuration documents

Keys, texts, numbers, dates, arrays and inline tables. A scanner takes what it reads from the front
of the text, or refuses.
-/

namespace TestCatalog.Toml

/-- Takes something from the front of a text. -/
abbrev Scan (α : Type) := StateT Text Option α

namespace Scan

variable {α : Type}

def char (p : Char → Bool) : Scan Char := do
  match ← get with
  | c :: rest =>
    if p c then
      set rest
      return c
    else failure
  | [] => failure

def tag (t : Text) : Scan Unit := do
  match Text.stripStart? t (← get) with
  | some rest => set rest
  | none => failure

def takeWhile (p : Char → Bool) : Scan Text := do
  let t ← get
  set (t.dropWhile p)
  return t.takeWhile p

def atEnd : Scan Unit := do
  if (← get) = [] then return else failure

def optional (s : Scan α) : Scan (Option α) :=
  some <$> s <|> pure none

/-- As often as it succeeds, at most once for each character of `bound`; what was read before comes
first. -/
def upTo (s : Scan α) (reversed : List α) : (bound : Text) → Scan (List α)
  | [] => pure reversed.reverse
  | _ :: bound => do
    match ← optional s with
    | some a => upTo s (a :: reversed) bound
    | none => pure reversed.reverse

/-- As often as it succeeds; it must take something each time. -/
def many (s : Scan α) : Scan (List α) := do
  upTo s [] (← get)

def separated (s : Scan α) (separator : Scan Unit) : Scan (List α) := do
  return (← s) :: (← many (do separator; s))

def exactly (n : Nat) (s : Scan α) : Scan (List α) :=
  (List.replicate n s).mapM id

/-! ## Blanks, comments and line ends -/

def isBlank (c : Char) : Bool :=
  c = ' ' || c = '\t'

def blanks : Scan Unit := do
  let _ ← takeWhile isBlank

def newline : Scan Unit :=
  tag "\n" <|> tag "\r\n"

/-- The characters that may stand in comments and literal texts. -/
def isPlain (c : Char) : Bool :=
  c = '\t' || (0x20 ≤ c.toNat && c.toNat ≠ 0x7F)

def comment : Scan Unit := do
  tag "#"
  let _ ← takeWhile isPlain

/-- Blanks and a comment up to the end of the line. -/
def lineEnd : Scan Unit := do
  blanks
  let _ ← optional comment
  newline <|> atEnd

def gap : Scan Unit := do
  let _ ← many ((do let _ ← char isBlank) <|> (do let _ ← optional comment; newline))

/-! ## Texts -/

def hexValue (digits : List Char) : Nat :=
  digits.foldl (fun n c => n * 16 + (if c.isDigit then c.toNat - 48 else c.toLower.toNat - 87)) 0

def isHex (c : Char) : Bool :=
  c.isDigit || ('a' ≤ c.toLower && c.toLower ≤ 'f')

def scalarValue (digits : Nat) : Scan Char := do
  let n := hexValue (← exactly digits (char isHex))
  if n.isValidChar then return .ofNat n else failure

def escape : Scan Char := do
  match ← char fun _ => true with
  | 'b' => return '\x08'
  | 't' => return '\t'
  | 'n' => return '\n'
  | 'f' => return '\x0c'
  | 'r' => return '\r'
  | '"' => return '"'
  | '\\' => return '\\'
  | 'u' => scalarValue 4
  | 'U' => scalarValue 8
  | _ => failure

def basicText : Scan Text := do
  tag ['"']
  let t ← many ((do tag ['\\']; escape) <|> char fun c => isPlain c && c ≠ '"' && c ≠ '\\')
  tag ['"']
  return t

def literalText : Scan Text := do
  tag ['\'']
  let t ← takeWhile fun c => isPlain c && c ≠ '\''
  tag ['\'']
  return t

/-- Up to two of the three quotes that would end the text. -/
def fewQuotes (quote : Char) : Scan Text := do
  let quotes := (← get).takeWhile (· = quote)
  if 0 < quotes.length ∧ quotes.length < 3 then takeWhile (· = quote) else failure

/-- The end of a text of several lines: three quotes, and up to two more that belong to the text. -/
def closingQuotes (quote : Char) : Scan Text := do
  let quotes ← takeWhile (· = quote)
  if 3 ≤ quotes.length ∧ quotes.length ≤ 5 then return quotes.drop 3 else failure

/-- A line end that a backslash takes away, with the blanks and line ends after it. -/
def escapedLineEnd : Scan Text := do
  tag ['\\']
  blanks
  newline
  let _ ← many ((do let _ ← char isBlank) <|> newline)
  return []

def multilineText (quote : Char) (piece : Scan Text) : Scan Text := do
  tag (List.replicate 3 quote)
  let _ ← optional newline
  let pieces ← many (fewQuotes quote <|> (do newline; return ['\n']) <|> piece)
  return pieces.flatten ++ (← closingQuotes quote)

def text : Scan Text :=
  multilineText '"' (escapedLineEnd <|> (do tag ['\\']; return [← escape]) <|>
      (do return [← char fun c => isPlain c && c ≠ '"' && c ≠ '\\'])) <|>
    multilineText '\'' (do return [← char fun c => isPlain c && c ≠ '\'']) <|>
    basicText <|> literalText

/-! ## Keys -/

def isBareKey (c : Char) : Bool :=
  c.isAlphanum || c = '-' || c = '_'

def simpleKey : Scan Text :=
  basicText <|> literalText <|> do
    return (← char isBareKey) :: (← takeWhile isBareKey)

def key : Scan (List Text) := do
  let keys ← separated (do blanks; let k ← simpleKey; blanks; return k) (tag ".")
  if keys.length < maxDepth then return keys else failure

/-! ## Numbers -/

/-- Digits, where single underscores may stand between them. -/
def digits (p : Char → Bool) : Scan Text := do
  let first ← char p
  let rest ← many (char p <|> do tag "_"; char p)
  return first :: rest

def sign : Scan (Option Char) :=
  optional (char fun c => c = '+' || c = '-')

def decimal : Scan (Option Char × Text) := do
  let s ← sign
  let ds ← (do
    let first ← char fun c => '1' ≤ c && c ≤ '9'
    let rest ← many (char Char.isDigit <|> do tag "_"; char Char.isDigit)
    return first :: rest) <|> (do return [← char (· = '0')])
  return (s, ds)

def decimalValue (ds : Text) : Nat :=
  ds.foldl (fun n c => n * 10 + (c.toNat - 48)) 0

def radix (mark : Text) (base : Nat) (p : Char → Bool) : Scan Unit := do
  tag mark
  let ds ← digits p
  let n := ds.foldl (fun n c => n * base + hexValue [c]) 0
  if n < Nat.pow 2 63 then return else failure

def integer : Scan Unit :=
  radix "0x" 16 isHex <|> radix "0o" 8 (fun c => '0' ≤ c && c ≤ '7') <|>
    radix "0b" 2 (fun c => c = '0' || c = '1') <|> do
      let (s, ds) ← decimal
      let n := decimalValue ds
      if n < Nat.pow 2 63 ∨ (s = some '-' ∧ n = Nat.pow 2 63) then return else failure

/-- Whether `ds` times ten to the power `exponent` is beyond every binary number of double
precision. -/
def overflows (ds : Text) (exponent : Int) : Bool :=
  let n := decimalValue ds
  let size : Int := ((Text.ofNat n).length : Int) + exponent
  let bound := Nat.pow 2 1024 - Nat.pow 2 970
  if n = 0 ∨ size < 308 then false
  else if 310 < size then true
  else
    match exponent with
    | .ofNat e => decide (bound ≤ n * Nat.pow 10 e)
    | .negSucc e => decide (bound * Nat.pow 10 (e + 1) ≤ n)

def exponent : Scan Int := do
  let _ ← char fun c => c = 'e' || c = 'E'
  let s ← sign
  let n : Nat := decimalValue (← digits Char.isDigit)
  return if s = some '-' then -(n : Int) else n

def float : Scan Unit :=
  (do
    let (s, whole) ← decimal
    let (fraction, e) ← (do
      tag "."
      let fraction ← digits Char.isDigit
      return (fraction, (← optional exponent).getD 0)) <|> (do return ([], ← exponent))
    if s ≠ some '-' ∧ overflows (whole ++ fraction) (e - fraction.length) then failure) <|>
  (do
    let _ ← sign
    tag "inf" <|> tag "nan")

/-! ## Dates -/

def field (width least most : Nat) : Scan Nat := do
  let n := decimalValue (← exactly width (char Char.isDigit))
  if least ≤ n ∧ n ≤ most then return n else failure

def daysIn (year month : Nat) : Nat :=
  if month = 2 then
    if year % 4 = 0 ∧ (year % 100 ≠ 0 ∨ year % 400 = 0) then 29 else 28
  else if month ∈ [4, 6, 9, 11] then 30
  else 31

def date : Scan Unit := do
  let year ← field 4 0 9999
  tag "-"
  let month ← field 2 1 12
  tag "-"
  let _ ← field 2 1 (daysIn year month)

def time : Scan Unit := do
  let _ ← field 2 0 23
  tag ":"
  let _ ← field 2 0 59
  tag ":"
  let _ ← field 2 0 60
  let _ ← optional (do tag "."; fraction)
where
  fraction : Scan Unit := do
    let _ ← char Char.isDigit
    let _ ← takeWhile Char.isDigit

def zone : Scan Unit :=
  (do let _ ← char fun c => c = 'Z' || c = 'z') <|> do
    let _ ← char fun c => c = '+' || c = '-'
    let _ ← field 2 0 23
    tag ":"
    let _ ← field 2 0 59

def dateTime : Scan Unit :=
  (do
    date
    let _ ← optional (do
      let _ ← char fun c => c = 'T' || c = 't' || c = ' '
      time
      let _ ← optional zone)) <|> time

/-! ## Values -/

def atom : Scan Toml :=
  Toml.text <$> text <|>
    (do dateTime <|> float <|> integer <|> tag "true" <|> tag "false"; return .scalar)

/-- Adds the entries of an inline table one after another. -/
def collect (entries : Entries) : List (List Text × Toml) → Option Entries
  | [] => some entries
  | (path, value) :: rest => do
    let entries ← insert path.dropLast (path.getLast?.getD []) value .inline entries
    collect entries rest

/-- A value nested less than `depth` deep. -/
def value : (depth : Nat) → Scan Toml
  | 0 => failure
  | depth + 1 =>
    atom <|>
    (do
      tag "["
      let items ← optional (do
        let items ← separated (do gap; let v ← value depth; gap; return v) (tag ",")
        let _ ← optional (tag ",")
        return items)
      gap
      tag "]"
      nested depth
      return .array (items.getD [])) <|>
    (do
      tag ['\x7b']
      let pairs ← optional (separated (do
        let k ← key
        tag "="
        blanks
        let v ← value depth
        blanks
        return (k, v)) (tag ","))
      blanks
      tag ['\x7d']
      nested depth
      match collect [] (pairs.getD []) with
      | some entries => return .table .inline entries
      | none => failure)
where
  nested (depth : Nat) : Scan Unit := if depth = 0 then failure else pure ()

end Scan

end TestCatalog.Toml
