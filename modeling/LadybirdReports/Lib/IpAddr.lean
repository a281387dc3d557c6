import LadybirdReports.Lib.StrSearch

/-!
# Internet addresses

`IpAddr` and its `parse`, as the standard library reads them: an IPv4 address is four decimal groups
without leading zeros; an IPv6 address is eight hexadecimal groups, of which `::` leaves out one or
more that are zero and an IPv4 address stands for the last two.
-/

namespace Rust

/-- `IpAddr`, as the numbers its octets make. -/
inductive IpAddr
  | v4 (address : BitVec 32)
  | v6 (address : BitVec 128)
  deriving DecidableEq, Repr

namespace IpAddr

/-- A reader of the standard library's address parser: what it read, and what is left. -/
abbrev Reader (α : Type) := Str → Option (α × Str)

/-- `char::to_digit`. -/
def toDigit (radix : ℕ) (c : Char) : Option ℕ :=
  let n := c.toNat
  let value :=
    if '0'.toNat ≤ n && n ≤ '9'.toNat then n - '0'.toNat
    else if 'a'.toNat ≤ n && n ≤ 'z'.toNat then n - 'a'.toNat + 10
    else if 'A'.toNat ≤ n && n ≤ 'Z'.toNat then n - 'A'.toNat + 10
    else radix
  if value < radix then some value else none

/-- `read_number`: at most so many digits, for a value below the bound. -/
def readNumber (radix maximumDigits bound : ℕ) (allowZeroPrefix : Bool) : Reader ℕ := fun s =>
  let digits := (s.takeWhile fun c => (toDigit radix c).isSome).filterMap (toDigit radix)
  let value := digits.foldl (fun value digit => value * radix + digit) 0
  if digits.length = 0 || maximumDigits < digits.length then none
  else if !allowZeroPrefix && digits.head? = some 0 && 1 < digits.length then none
  else if bound ≤ value then none
  else some (value, s.drop digits.length)

/-- `read_given_char`. -/
def readGivenChar (c : Char) : Reader Unit
  | [] => none
  | d :: s => if d = c then some ((), s) else none

/-- `read_separator`: every part but the first stands after the separator. -/
def readSeparator {α : Type} (separator : Char) (first : Bool) (inner : Reader α) : Reader α :=
  fun s => do
    if first then inner s
    else
      let (_, s) ← readGivenChar separator s
      inner s

/-- `read_ipv4_addr`. -/
def readIpv4 : Reader ℕ := fun s => do
  let (a, s) ← readSeparator '.' true (readNumber 10 3 256 false) s
  let (b, s) ← readSeparator '.' false (readNumber 10 3 256 false) s
  let (c, s) ← readSeparator '.' false (readNumber 10 3 256 false) s
  let (d, s) ← readSeparator '.' false (readNumber 10 3 256 false) s
  return (((a * 256 + b) * 256 + c) * 256 + d, s)

/-- `read_groups`, for as many as there is room: the groups, whether they end with an IPv4 address,
and what is left. -/
def readGroups : ℕ → Bool → Str → List ℕ × Bool × Str
  | 0, _, s => ([], false, s)
  | room + 1, first, s =>
    match if 0 < room then readSeparator ':' first readIpv4 s else none with
    | some (address, s) => ([address / 65536, address % 65536], true, s)
    | none =>
      match readSeparator ':' first (readNumber 16 4 65536 true) s with
      | none => ([], false, s)
      | some (group, s) =>
        let (groups, ipv4, s) := readGroups room false s
        (group :: groups, ipv4, s)

/-- `read_ipv6_addr`. -/
def readIpv6 : Reader (List ℕ) := fun s => do
  let (head, ipv4, s) := readGroups 8 true s
  if head.length = 8 then return (head, s)
  if ipv4 then none
  let (_, s) ← readGivenChar ':' s
  let (_, s) ← readGivenChar ':' s
  let (tail, _, s) := readGroups (8 - (head.length + 1)) true s
  return (head ++ List.replicate (8 - head.length - tail.length) 0 ++ tail, s)

/-- The reader has read everything. -/
def complete {α : Type} (result : Option (α × Str)) : Option α :=
  result.bind fun (a, s) => if s = [] then some a else none

/-- `str::parse::<IpAddr>`: what reads as an IPv4 address is not read again as another. -/
def parse (s : Str) : Option IpAddr :=
  match readIpv4 s with
  | some result => (complete (some result)).map fun address => v4 (BitVec.ofNat 32 address)
  | none => (complete (readIpv6 s)).map fun groups =>
    v6 (BitVec.ofNat 128 (groups.foldl (fun address group => address * 65536 + group) 0))

example : parse "10.0.0.1".toList = some (v4 0x0a000001) := by decide +kernel

example : parse "::ffff:10.0.0.1".toList = some (v6 0xffff0a000001) := by decide +kernel

end IpAddr

end Rust
