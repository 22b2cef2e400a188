import JavaInspect.Document.Value

/-!
# Whole numbers in documents

A plain scalar is a whole number when it is a run of digits that does not start
with a superfluous zero. A plus sign may stand before it, and a base other than
ten is announced by `0x`, `0o` or `0b`. Numbers beyond sixty-four bits are
refused.
-/

namespace JavaInspect.Document

/-- The value of a digit of any base up to sixteen. -/
def digitValue? (c : Char) : Option Nat :=
  if c.isDigit then some (c.toNat - '0'.toNat)
  else if 'a' ≤ c && c ≤ 'f' then some (c.toNat - 'a'.toNat + 10)
  else if 'A' ≤ c && c ≤ 'F' then some (c.toNat - 'A'.toNat + 10)
  else none

/-- The number that a run of digits stands for, appended to those read before. -/
def digitsFrom? (base : Nat) (known : Nat) : List Char → Option Nat
  | [] => some known
  | c :: rest =>
      match digitValue? c with
      | some digit =>
          if digit < base then digitsFrom? base (known * base + digit) rest else none
      | none => none

/-- The number that a non-empty run of digits stands for. -/
def digits? (base : Nat) : List Char → Option Nat
  | [] => none
  | c :: rest => digitsFrom? base 0 (c :: rest)

/-- The number that a text without a sign stands for. -/
def unsigned? : List Char → Option Nat
  | ['0'] => some 0
  | '0' :: 'x' :: rest => digits? 16 rest
  | '0' :: 'o' :: rest => digits? 8 rest
  | '0' :: 'b' :: rest => digits? 2 rest
  | '0' :: _ => none
  | rest => digits? 10 rest

/-- The greatest number that a document can hold. -/
def greatestNatural : Nat := 18446744073709551615

/-- The whole number that a plain scalar stands for. -/
def naturalOf? (text : String) : Option Nat :=
  let number :=
    match text.toList with
    | '+' :: rest => unsigned? rest
    | rest => unsigned? rest
  number.filter (· ≤ greatestNatural)

/-- A whole number. -/
def Value.asNatural : Decoder Nat
  | .plain text => naturalOf? text
  | .number natural => natural.filter (· ≤ greatestNatural)
  | _ => none

end JavaInspect.Document
