import TestCatalog.Text.Basic

/-!
# UTF-8

The size of a text in UTF-8, the cut of a text at a byte limit, and the reading of bytes.
-/

namespace TestCatalog.Text

def utf8Size (t : Text) : Nat :=
  t.foldl (fun size c => size + c.utf8Size) 0

/-! ## Cutting at a byte limit -/

/-- Whether the first `n` bytes of the text are whole characters. -/
def isBoundary : Text → Nat → Bool
  | _, 0 => true
  | [], _ + 1 => false
  | c :: t, n + 1 => c.utf8Size ≤ n + 1 && isBoundary t (n + 1 - c.utf8Size)

def boundaryAtMost (t : Text) : Nat → Nat
  | 0 => 0
  | n + 1 => if isBoundary t (n + 1) then n + 1 else boundaryAtMost t n

def takeBytes : Nat → Text → Text
  | _, [] => []
  | n, c :: t => if c.utf8Size ≤ n then c :: takeBytes (n - c.utf8Size) t else []

/-- Cuts a text of more than `limit` bytes at the last boundary and marks the cut by three dots. -/
def truncate (limit : Nat) (t : Text) : Text :=
  if limit < utf8Size t then takeBytes (boundaryAtMost t limit) t ++ "..." else t

/-! ## Reading bytes -/

def continuation? (b : UInt8) : Option Nat :=
  if 0x80 ≤ b && b ≤ 0xBF then some (b.toNat - 0x80) else none

/-- The scalar value `n`, if it is one and needs more than the code points below `least`. -/
def scalar? (least n : Nat) : Option Char :=
  if least ≤ n ∧ n.isValidChar then some (Char.ofNat n) else none

/-- The text that the bytes encode: shortest forms of scalar values only. -/
def ofUtf8? : List UInt8 → Option Text
  | [] => some []
  | b :: rest =>
    if b < 0x80 then (ofUtf8? rest).map (Char.ofNat b.toNat :: ·)
    else if b < 0xE0 then
      match rest with
      | b₁ :: rest => do
        guard (0xC0 ≤ b)
        let c ← scalar? 0x80 ((b.toNat - 0xC0) * 64 + (← continuation? b₁))
        (ofUtf8? rest).map (c :: ·)
      | _ => none
    else if b < 0xF0 then
      match rest with
      | b₁ :: b₂ :: rest => do
        let high := (b.toNat - 0xE0) * 64 + (← continuation? b₁)
        let c ← scalar? 0x800 (high * 64 + (← continuation? b₂))
        (ofUtf8? rest).map (c :: ·)
      | _ => none
    else
      match rest with
      | b₁ :: b₂ :: b₃ :: rest => do
        let high := ((b.toNat - 0xF0) * 64 + (← continuation? b₁)) * 64 + (← continuation? b₂)
        let c ← scalar? 0x10000 (high * 64 + (← continuation? b₃))
        (ofUtf8? rest).map (c :: ·)
      | _ => none

end TestCatalog.Text
