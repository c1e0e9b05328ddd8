import ClusterRouter.Channel.RotationStore

/-! What a vendor's own error means for key selection and how long a key retired for it stays
out (`internal/channel/vendor_error.go`). -/

set_option autoImplicit false

namespace ClusterRouter.Channel

open Foundation

inductive VendorClass where
  | none
  | transient
  | rateLimited
  | quotaWindow
  | balance
  | request
  | auth
  deriving DecidableEq, Repr

def vendorRateCooldown : Int := 30 * Duration.second

def vendorBalanceCooldown : Int := 15 * Duration.minute

def vendorQuotaFallbackWindow : Int := 5 * Duration.hour

structure VendorSignal where
  code : Int
  cls : VendorClass
  resetAt : Option Int
  deriving DecidableEq, Repr

namespace VendorSignal

def retires (signal : VendorSignal) : Bool :=
  match signal.cls with
  | .rateLimited | .quotaWindow | .balance => true
  | _ => false

def reason (signal : VendorSignal) : RetireReason :=
  match signal.cls with
  | .rateLimited => .rateLimit
  | .balance => .balance
  | .quotaWindow => .quota
  | _ => .error

end VendorSignal

/-- When a key retired for the signal may serve again; `none` is the zero time,
which retires nothing. -/
def vendorRetireUntil (signal : VendorSignal) (now : Int) (windowEnd : Option Int) : Option Int :=
  match signal.cls with
  | .rateLimited => some (now + vendorRateCooldown)
  | .balance => some (now + vendorBalanceCooldown)
  | .quotaWindow =>
    if Time.deadlineAfter signal.resetAt now then signal.resetAt
    else if Time.deadlineAfter windowEnd now then windowEnd
    else some (now + vendorQuotaFallbackWindow)
  | _ => none

end ClusterRouter.Channel
