/-
  WHAT THE SECURITY MODULES SHARE: errors, keys, instants and bytes (security).

  The keys, device ids and errors come from the mesh crate; only what the modelled
  functions use of them is here.
-/
import Peat.Schema

namespace Peat.Security

inductive SecurityError where
  | authenticationFailed (message : String)
  | challengeExpired (seconds : Nat)
  | invalidPublicKey (message : String)
  | invalidSignature (message : String)
  | userNotFound (username : String)
  | userAlreadyExists (username : String)
  | accountLocked (username : String)
  | accountDisabled (username : String)
  | accountPending (username : String)
  | invalidCredential (username : String)
  | invalidMfaCode
  | totpError (message : String)
  | passwordHashError (message : String)
  | unsupportedAuthMethod (method : String)
  | sessionNotFound
  | sessionExpired
  deriving DecidableEq, Repr

abbrev PublicKey := Vector UInt8 32

abbrev DeviceId := Vector UInt8 16

def u64Count : Nat := 18446744073709551616

def nanosPerSec : Nat := 1000000000

def timestampOf (nanos : Nat) : Timestamp := ⟨nanos / nanosPerSec, nanos % nanosPerSec⟩

def nanosOf (t : Timestamp) : Nat := t.seconds * nanosPerSec + t.nanos

def bytesOf (s : String) : List UInt8 := s.toUTF8.data.toList

def toLeBytes : Nat → Nat → List UInt8
  | 0, _ => []
  | width + 1, n => UInt8.ofNat (n % 256) :: toLeBytes width (n / 256)

end Peat.Security
