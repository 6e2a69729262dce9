import NatRelay.Allocation.Basic

/-! The numbered errors that requests are refused with. -/
namespace NatRelay
open Stun (ErrorCode)

inductive Refusal where
  | badRequest
  | unauthorized
  | forbidden
  | unknownAttribute
  | allocationMismatch
  | staleNonce
  | addressFamilyNotSupported
  | wrongCredentials
  | unsupportedTransportProtocol
  | peerAddressFamilyMismatch
  | allocationQuotaReached
  | serverError
  | insufficientCapacity
  deriving DecidableEq

namespace Refusal

def code : Refusal → UInt16
  | badRequest => 400
  | unauthorized => 401
  | forbidden => 403
  | unknownAttribute => 420
  | allocationMismatch => 437
  | staleNonce => 438
  | addressFamilyNotSupported => 440
  | wrongCredentials => 441
  | unsupportedTransportProtocol => 442
  | peerAddressFamilyMismatch => 443
  | allocationQuotaReached => 486
  | serverError => 500
  | insufficientCapacity => 508

def reason : Refusal → String
  | badRequest => "Bad Request"
  | unauthorized => "Unauthorized"
  | forbidden => "Forbidden"
  | unknownAttribute => "Unknown Attribute"
  | allocationMismatch => "Allocation Mismatch"
  | staleNonce => "Stale Nonce"
  | addressFamilyNotSupported => "Address Family not Supported"
  | wrongCredentials => "Wrong Credentials"
  | unsupportedTransportProtocol => "Unsupported Transport Protocol"
  | peerAddressFamilyMismatch => "Peer Address Family Mismatch"
  | allocationQuotaReached => "Allocation Quota Reached"
  | serverError => "Server Error"
  | insufficientCapacity => "Insufficient Capacity"

def errorCode (r : Refusal) : ErrorCode := ⟨r.code, r.reason⟩

/-- How a request is refused that the table refuses. -/
def ofTableError : TableError → Refusal
  | .notFound _ | .alreadyExists _ => allocationMismatch
  | .capacity => insufficientCapacity
  | .quota _ => allocationQuotaReached
  | .channelConflict _ => badRequest
  | .familyMismatch _ => peerAddressFamilyMismatch

end Refusal
end NatRelay
