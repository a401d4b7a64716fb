import GrpcLite.Client.Stream

/-!
# Response header fields

The pure parts of the response header intake of `channel.zig`: how a field is charged against
the limit and how its value is read.
-/

namespace GrpcLite.Client

/-- `accountResponseHeaderField`: the total with one more field charged, unless it exceeds the
limit. -/
def accountResponseHeaderField (total nameLength valueLength limit : ℕ) : Option ℕ :=
  match checkedAdd nameLength valueLength with
  | none => none
  | some fieldSize =>
    match checkedAdd fieldSize 32 with
    | none => none
    | some chargedSize =>
      if limit < chargedSize ∨ limit - chargedSize < total then none else some (total + chargedSize)

def isDigit (byte : UInt8) : Bool := 48 ≤ byte && byte ≤ 57

def maxU32 : ℕ := 2 ^ 32 - 1

/-- `std.fmt.parseInt` in base ten at an unsigned type with the given largest value: a sign is
allowed, and underscores between other characters are skipped. -/
def parseUnsigned (largest : ℕ) (value : Bytes) : Option ℕ :=
  let negative := value.head? == some 45
  let digits := if negative || value.head? == some 43 then value.tail else value
  if digits.isEmpty || digits.head? == some 95 || digits.getLast? == some 95 then none
  else
    let kept := digits.filter (· ≠ 95)
    if !kept.all isDigit then none
    else
      let amount := digitsToNat kept
      if largest < amount ∨ (negative ∧ amount ≠ 0) then none else some amount

/-- An invalid `grpc-status` becomes the largest `u32`. -/
def parseGrpcStatus (value : Bytes) : ℕ :=
  if value.isEmpty || (1 < value.length && value.head? == some 48) || !value.all isDigit then maxU32
  else if maxU32 < digitsToNat value then maxU32
  else digitsToNat value

def isReservedResponseHeader (name : Bytes) : Bool :=
  name == ascii "content-type" || (ascii "grpc-").isPrefixOf name

def isResponseMetadata (name : Bytes) : Bool :=
  isApplicationKey name && !isReservedResponseHeader name

def isMalformedResponseMetadataName (name : Bytes) : Bool :=
  if name.isEmpty || name.head? == some 58 || isReservedResponseHeader name then false
  else !isValidKey name

inductive RetainError where
  | overflow
  | responseHeadersTooLarge
  | base64 (err : Base64.DecodeError)
  deriving DecidableEq, Repr

def chargeRetained (nameLength valueLength : ℕ) : Except RetainError ℕ :=
  match checkedAdd nameLength valueLength with
  | none => .error .overflow
  | some fieldSize =>
    match checkedAdd fieldSize 32 with
    | none => .error .overflow
    | some chargedSize => .ok chargedSize

/-- The values of a binary field, each charged with its own copy of the name. -/
def retainedBinarySize (name : Bytes) : List Bytes → ℕ → Except RetainError ℕ
  | [], total => .ok total
  | encoded :: rest, total => do
    let decoder := if (ascii "=").isSuffixOf encoded then Base64.standard else Base64.standardNoPad
    let decodedLength ← (Base64.calcSizeForSlice decoder encoded).mapError .base64
    let chargedSize ← chargeRetained name.length decodedLength
    match checkedAdd total chargedSize with
    | none => .error .overflow
    | some total => retainedBinarySize name rest total

def retainedMetadataFieldSize (name value : Bytes) : Except RetainError ℕ :=
  if !isBinaryKey name then
    if !isValidAsciiValue value then .ok 0 else chargeRetained name.length value.length
  else retainedBinarySize name (value.splitOn comma) 0

/-- The retained total with one more field, before anything is copied. -/
def preflightRetainedMetadata (total : ℕ) (name value : Bytes) (limit : ℕ) :
    Except RetainError ℕ :=
  match retainedMetadataFieldSize name value with
  | .error .overflow => .error .responseHeadersTooLarge
  | .error err => .error err
  | .ok chargedSize =>
    if limit < chargedSize ∨ limit - chargedSize < total then .error .responseHeadersTooLarge
    else .ok (total + chargedSize)

end GrpcLite.Client
