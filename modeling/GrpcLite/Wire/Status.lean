import GrpcLite.Wire.Base64

/-!
# Status codes, compression names and timeouts

The small vocabularies of `status.zig`, `compression.zig` and `deadline.zig`.
-/

namespace GrpcLite

inductive Code where
  | ok
  | cancelled
  | unknown
  | invalidArgument
  | deadlineExceeded
  | notFound
  | alreadyExists
  | permissionDenied
  | resourceExhausted
  | failedPrecondition
  | aborted
  | outOfRange
  | unimplemented
  | internal
  | unavailable
  | dataLoss
  | unauthenticated
  deriving DecidableEq, Repr

namespace Code

def fromInt : ℕ → Code
  | 0 => ok
  | 1 => cancelled
  | 2 => unknown
  | 3 => invalidArgument
  | 4 => deadlineExceeded
  | 5 => notFound
  | 6 => alreadyExists
  | 7 => permissionDenied
  | 8 => resourceExhausted
  | 9 => failedPrecondition
  | 10 => aborted
  | 11 => outOfRange
  | 12 => unimplemented
  | 13 => internal
  | 14 => unavailable
  | 15 => dataLoss
  | 16 => unauthenticated
  | _ => unknown

theorem fromInt_eq_ok {value : ℕ} : fromInt value = ok ↔ value = 0 := by
  constructor
  · unfold fromInt
    split <;> simp
  · rintro rfl
    rfl

end Code

structure Status where
  code : Code
  message : Bytes := []
  deriving DecidableEq, Repr

namespace Status

def init (code : Code) (text : String) : Status := ⟨code, ascii text⟩

def isOk (status : Status) : Bool := status.code = .ok

end Status

inductive Compression where
  | identity
  | gzip
  deriving DecidableEq, Repr

namespace Compression

def name : Compression → Bytes
  | identity => ascii "identity"
  | gzip => ascii "gzip"

def parse (value : Bytes) : Option Compression :=
  if value = ascii "identity" then some identity
  else if value = ascii "gzip" then some gzip
  else none

end Compression

def maxU64 : ℕ := 2 ^ 64 - 1

def satAdd (a b : ℕ) : ℕ := min (a + b) maxU64

def checkedAdd (a b : ℕ) : Option ℕ := if a + b ≤ maxU64 then some (a + b) else none

theorem checkedAdd_eq_some {a b c : ℕ} (h : checkedAdd a b = some c) : c = a + b := by
  unfold checkedAdd at h
  split at h
  · cases h
    rfl
  · cases h

def digitsToNat (digits : Bytes) : ℕ :=
  digits.foldl (fun amount digit => 10 * amount + (digit.toNat - 48)) 0

def timeoutMultiplier (unit : UInt8) : Option ℕ :=
  if unit = 110 then some 1
  else if unit = 117 then some 1000
  else if unit = 109 then some 1000000
  else if unit = 83 then some 1000000000
  else if unit = 77 then some 60000000000
  else if unit = 72 then some 3600000000000
  else none

/-- The amount in units of `divisor`, rounded up. -/
def timeoutAmount (timeout divisor : ℕ) : ℕ := max 1 ((timeout + divisor - 1) / divisor)

def formatTimeoutIn (timeout : ℕ) : List (ℕ × String) → Bytes
  | [] => ascii (toString (min (timeoutAmount timeout 3600000000000) 99999999) ++ "H")
  | (divisor, suffix) :: rest =>
    if timeoutAmount timeout divisor ≤ 99999999 then
      ascii (toString (timeoutAmount timeout divisor) ++ suffix)
    else formatTimeoutIn timeout rest

/-- The finest unit in which the amount has at most eight digits. -/
def formatTimeout (timeout : ℕ) : Bytes :=
  formatTimeoutIn timeout
    [(1, "n"), (1000, "u"), (1000000, "m"), (1000000000, "S"), (60000000000, "M")]

def parseTimeout (value : Bytes) : Option ℕ :=
  if value.length < 2 ∨ 9 < value.length then none
  else if !value.dropLast.all (fun digit => 48 ≤ digit && digit ≤ 57) then none
  else match value.getLast?.bind timeoutMultiplier with
    | none => none
    | some multiplier => some (min (digitsToNat value.dropLast * multiplier) maxU64)

end GrpcLite
