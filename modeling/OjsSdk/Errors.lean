import OjsSdk.Json
import OjsSdk.Duration

namespace OjsSdk

structure RateLimitInfo where
  limit : Option Int
  remaining : Option Int
  reset : Option Int
  retryAfter : Option Duration
  deriving DecidableEq, Repr

structure ServerError where
  code : String
  message : String
  retryable : Bool
  details : Option (List (String × Value))
  requestId : Option String
  httpStatus : Nat
  retryAfter : Option Duration
  rateLimit : Option RateLimitInfo
  deriving Repr

def ServerError.toText (e : ServerError) : String :=
  "[" ++ e.code ++ "] " ++ e.message

inductive OjsError
  | server (e : ServerError)
  | transport (message : String)
  | serialization (message : String)
  | handler (message : String)
  | nonRetryable (message : String)
  | builder (message : String)
  | noHandler (jobType : String)
  | workerShutdown
  deriving Repr

/-- `impl Display for OjsError`, from the `#[error(..)]` attributes. -/
def OjsError.toText : OjsError → String
  | .server e => e.toText
  | .transport m => "transport error: " ++ m
  | .serialization m => "serialization error: " ++ m
  | .handler m => "handler error: " ++ m
  | .nonRetryable m => "non-retryable error: " ++ m
  | .builder m => "builder error: " ++ m
  | .noHandler t => "no handler registered for job type: " ++ t
  | .workerShutdown => "worker shut down"

structure ServerErrorPayload where
  code : String
  message : String
  retryable : Bool
  details : Option (List (String × Value))
  requestId : Option String
  deriving Repr

def ServerErrorPayload.intoServerError (p : ServerErrorPayload) (httpStatus : Nat) : ServerError :=
  { code := p.code
    message := p.message
    retryable := p.retryable
    details := p.details
    requestId := p.requestId
    httpStatus
    retryAfter := none
    rateLimit := none }

structure JobError where
  errorType : String
  message : String
  backtrace : Option (List String)
  deriving DecidableEq, Repr

end OjsSdk
