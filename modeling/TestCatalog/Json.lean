import TestCatalog.Text.Basic

/-!
# JSON values

The value type of payloads and structured log lines, its compact written form, and the readers
that a record's decoder is made of.
-/

namespace TestCatalog

/-- A JSON value. A number that is no natural numeral keeps its literal. -/
inductive Json where
  | null
  | bool (b : Bool)
  | natural (n : Nat)
  | otherNumber (literal : Text)
  | string (t : Text)
  | array (items : List Json)
  | object (fields : List (Text × Json))

instance : Inhabited Json := ⟨.null⟩

namespace Json

/-! ## Written form -/

def escapeChar (c : Char) : Text :=
  if c = '"' then ['\\', '"']
  else if c = '\\' then ['\\', '\\']
  else if c = '\x08' then ['\\', 'b']
  else if c = '\x0c' then ['\\', 'f']
  else if c = '\n' then ['\\', 'n']
  else if c = '\r' then ['\\', 'r']
  else if c = '\t' then ['\\', 't']
  else if c.toNat < 0x20 then
    let digits := Nat.toDigits 16 c.toNat
    "\\u" ++ List.replicate (4 - digits.length) '0' ++ digits
  else [c]

def renderString (t : Text) : Text :=
  ['"'] ++ t.flatMap escapeChar ++ ['"']

mutual

/-- The value on one line without blanks. -/
def render : Json → Text
  | null => "null"
  | bool b => Text.ofBool b
  | natural n => Text.ofNat n
  | otherNumber literal => literal
  | string t => renderString t
  | array items => "[" ++ Text.join "," (renderItems items) ++ "]"
  | object fields => ['\x7b'] ++ Text.join "," (renderFields fields) ++ ['\x7d']

def renderItems : List Json → List Text
  | [] => []
  | item :: items => render item :: renderItems items

def renderFields : List (Text × Json) → List Text
  | [] => []
  | (key, value) :: fields => (renderString key ++ ":" ++ render value) :: renderFields fields

end

/-! ## Readers -/

/-- The value of a field; of fields with one key the last counts. -/
def field? (fields : List (Text × Json)) (key : Text) : Option Json :=
  (fields.reverse.find? fun field => field.1 = key).map Prod.snd

def toText? : Json → Option Text
  | string t => some t
  | _ => none

/-- A natural number of at most 64 bits. -/
def toWord? : Json → Option Nat
  | natural n => if n < Nat.pow 2 64 then some n else none
  | _ => none

def toList? {α : Type} (item? : Json → Option α) : Json → Option (List α)
  | array items => items.mapM item?
  | _ => none

def toOption? {α : Type} (value? : Json → Option α) : Json → Option (Option α)
  | null => some none
  | value => (value? value).map some

/-- The values of a record's fields, from an object or from an array in the order of the fields.
An object may leave out the fields marked optional, which then count as null, and may have fields
of other names. -/
def toRecord? (keys : List (Text × Bool)) : Json → Option (List Json)
  | object fields => keys.mapM fun (key, optional) =>
      match field? fields key with
      | some value => some value
      | none => if optional then some null else none
  | array items => if items.length = keys.length then some items else none
  | _ => none

end Json

end TestCatalog
