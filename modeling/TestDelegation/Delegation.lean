import TestDelegation.Codec
import TestDelegation.Response
import TestDelegation.Settings

/-!
Why a class could not be delegated. Main definition: `DelegationError.cause`, the failure that is
reported for it.
-/

namespace TestDelegation

structure AssumptionViolated where
  message : String
  deriving DecidableEq

inductive StoppedByUser where
  | stopped
  deriving DecidableEq

def StoppedByUser.message : StoppedByUser → String
  | .stopped => "test run stopped by user"

inductive DelegationError where
  | configuration (error : ConfigurationError)
  | transport (error : TransportError)
  | decode (error : DecodeError)
  | assumption (violation : AssumptionViolated)
  | stopped (stop : StoppedByUser)

namespace DelegationError

def category : DelegationError → String
  | .configuration _ => "configuration error"
  | .transport _ => "transport error"
  | .decode _ => "decode error"
  | .assumption _ => "assumption violated"
  | .stopped _ => "stopped by user"

def message : DelegationError → String
  | .configuration error => error.message
  | .transport error => error.message
  | .decode error => error.message
  | .assumption violation => "assumption violated: " ++ violation.message
  | .stopped stop => stop.message

def sources : DelegationError → List String
  | .configuration _ => []
  | .transport error => error.sources
  | .decode error => error.sources
  | .assumption _ => []
  | .stopped _ => []

def cause (error : DelegationError) : FailureCause where
  outer := { exceptionType := some error.category, message := some error.message }
  nested := error.sources.map fun text => { message := some text }

end DelegationError

end TestDelegation
