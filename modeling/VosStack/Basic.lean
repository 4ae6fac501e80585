import Mathlib.Data.List.Basic

/-!
# Byte strings, result codes and transport types

`CAWMessageBlock` is a chain of blocks of bytes; most functions use it only through the string of
bytes it holds, so a chain is its `Bytes`. Where the operations on the chain itself matter, they are
those of `MessageBlock`.

`CAWResult` lists the result codes that the modelled functions return or test.
-/

namespace VosStack

/-- The bytes of a `CAWMessageBlock` chain, front to back. -/
abbrev Bytes := List UInt8

/-- The result codes of the modelled functions. -/
inductive CAWResult
  | ok
  | failure
  | partialData
  | networkSocketError
  | networkSocketClose
  | networkConnectError
  | networkConnectTimeout
  | notInitialized
  | alreadyInitialized
  | invalidArg
  | nullPointer
  | outOfMemory
  | notFound
  | found
  | unexpected
  deriving DecidableEq, Repr

namespace CAWResult

/-- `CAW_SUCCEEDED(rv)`. -/
def succeeded (rv : CAWResult) : Bool := rv == .ok

/-- `CAW_FAILED(rv)`. -/
def failed (rv : CAWResult) : Bool := !rv.succeeded

@[simp] theorem succeeded_iff {rv : CAWResult} : rv.succeeded = true ↔ rv = .ok := by
  simp [succeeded]

@[simp] theorem failed_iff {rv : CAWResult} : rv.failed = true ↔ rv ≠ .ok := by
  simp [failed, succeeded]

end CAWResult

/-- The transport type bits of `IFSConnectionManager::CType`. -/
inductive CType
  | tcp
  | udp
  deriving DecidableEq, Repr

end VosStack
