/-
# Addresses in text

How `std::net` of Rust reads an `IpAddr`: first as four decimal numbers with points between them,
and if that fails as an IPv6 address, in groups of hexadecimal digits with at most one `::` and
possibly an IPv4 address in the last two groups.  The whole text has to be used up.

A reader takes a text and gives what it read and what is left, or nothing; a reader that fails has
consumed nothing, which is what `read_atomically` is for in the original.
-/
import WebrtcBridge.Lib.Text

namespace WebrtcBridge.Lib

/-- An address: four bytes, or eight groups of sixteen bits. -/
inductive IpAddr where
  | v4 (a b c d : UInt8)
  | v6 (groups : List UInt16)
  deriving DecidableEq, Repr

def IpAddr.isIpv4 : IpAddr → Bool
  | .v4 .. => true
  | .v6 _ => false

namespace IpAddr

/-! ## 1. Numbers -/

/-- `char::to_digit`. -/
def toDigit (radix : Nat) (c : Char) : Option Nat :=
  let value :=
    if c.isDigit then c.toNat - '0'.toNat
    else if 'a' ≤ c ∧ c ≤ 'z' then c.toNat - 'a'.toNat + 10
    else if 'A' ≤ c ∧ c ≤ 'Z' then c.toNat - 'A'.toNat + 10
    else radix
  if value < radix then some value else none

/-- The digits of a number, its value and their count so far.  A digit too many is a failure, not
the end of the number. -/
def digitsGo (radix maxDigits result count : Nat) : Text → Option (Nat × Nat × Text)
  | [] => some (result, count, [])
  | c :: rest =>
    match toDigit radix c with
    | none => some (result, count, c :: rest)
    | some d =>
      if maxDigits < count + 1 then none
      else digitsGo radix maxDigits (result * radix + d) (count + 1) rest

/-- `read_number`, for the type with the values below `bound`. -/
def readNumber (bound radix maxDigits : Nat) (allowZeroPrefix : Bool) (t : Text) :
    Option (Nat × Text) := do
  let (result, count, rest) ← digitsGo radix maxDigits 0 0 t
  if count = 0 then none
  else if allowZeroPrefix = false ∧ t.head? = some '0' ∧ 1 < count then none
  else if result < bound then some (result, rest)
  else none

/-- `read_given_char`. -/
def readGivenChar (given : Char) : Text → Option Text
  | [] => none
  | c :: rest => if c = given then some rest else none

/-- `read_separator`: the separator stands before every element but the first. -/
def readSeparator {β : Type} (sep : Char) (index : Nat) (inner : Text → Option (β × Text))
    (t : Text) : Option (β × Text) := do
  inner (← if 0 < index then readGivenChar sep t else some t)

/-! ## 2. Addresses -/

/-- `read_ipv4_addr`. -/
def readIpv4 (t : Text) : Option ((UInt8 × UInt8 × UInt8 × UInt8) × Text) := do
  let octet := readNumber 256 10 3 false
  let (a, t) ← readSeparator '.' 0 octet t
  let (b, t) ← readSeparator '.' 1 octet t
  let (c, t) ← readSeparator '.' 2 octet t
  let (d, t) ← readSeparator '.' 3 octet t
  return ((.ofNat a, .ofNat b, .ofNat c, .ofNat d), t)

/-- Two bytes as a group, the high one first. -/
def groupOf (high low : UInt8) : UInt16 := .ofNat (high.toNat * 256 + low.toNat)

/-- `read_groups`: up to so many groups behind the first `index`, and whether the last two of them
are an IPv4 address.  That is tried first at every place where two groups are left. -/
def readGroups (index : Nat) : Nat → Text → List UInt16 × Bool × Text
  | 0, t => ([], false, t)
  | left + 1, t =>
    match (if 0 < left then readSeparator ':' index readIpv4 t else none) with
    | some ((a, b, c, d), rest) => ([groupOf a b, groupOf c d], true, rest)
    | none =>
      match readSeparator ':' index (readNumber 65536 16 4 true) t with
      | some (g, rest) =>
        let (groups, ipv4, rest) := readGroups (index + 1) left rest
        (.ofNat g :: groups, ipv4, rest)
      | none => ([], false, t)

/-- `read_ipv6_addr`: eight groups, or two runs of groups with `::` between them that stands for at
least one group of zeros.  No IPv4 address may stand before the `::`. -/
def readIpv6 (t : Text) : Option (List UInt16 × Text) :=
  let (head, headIpv4, rest) := readGroups 0 8 t
  if head.length = 8 then some (head, rest)
  else if headIpv4 then none
  else do
    let rest ← readGivenChar ':' rest
    let rest ← readGivenChar ':' rest
    let (tail, _, rest) := readGroups 0 (8 - (head.length + 1)) rest
    return (head ++ List.replicate (8 - head.length - tail.length) 0 ++ tail, rest)

/-- `read_ip_addr`. -/
def readIpAddr (t : Text) : Option (IpAddr × Text) :=
  match readIpv4 t with
  | some ((a, b, c, d), rest) => some (.v4 a b c d, rest)
  | none => (readIpv6 t).map fun (groups, rest) => (.v6 groups, rest)

/-- `IpAddr::from_str`. -/
def parseIp (t : Text) : Option IpAddr :=
  match readIpAddr t with
  | some (ip, []) => some ip
  | _ => none

example : parseIp "fe80::1:203.0.113.9".toList
    = some (.v6 [0xfe80, 0, 0, 0, 0, 1, 0xcb00, 0x7109]) := by decide

end IpAddr

end WebrtcBridge.Lib
