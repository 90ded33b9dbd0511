import OjsSdk.HttpResponse
import OjsSdk.RetryConfig

namespace OjsSdk

inductive Method
  | get
  | post
  | delete
  | patch
  deriving DecidableEq, Repr

def ojsContentType : String := "application/openjobspec+json"

def basePath : String := "/ojs/v1"

def ojsVersion : String := "1.0"

structure TransportConfig where
  authToken : Option String
  headers : List (String × String)
  retryConfig : Option RetryConfig

/-- The HTTP transport. The headers are in the order in which its map lists them. -/
structure HttpTransport where
  baseUrl : String
  authToken : Option String
  headers : List (String × String)
  retryConfig : RetryConfig

structure HttpRequest where
  method : Method
  url : String
  headers : List (String × String)
  body : Option (List UInt8)
  deriving DecidableEq, Repr

/-- What one attempt meets: the id drawn for it, what the HTTP client returns, and
the nanoseconds of the clock if its failure is followed by a delay. -/
structure Attempt where
  requestId : String
  reply : Reply
  nanos : Nat

/-- What a call of `request` does: the requests it sends, its sleeps, and its end. -/
structure Exchange where
  sent : List HttpRequest
  slept : List Duration
  result : Except Panic (Except OjsError (Option Value))

namespace HttpTransport

def new (baseUrl : String) (config : TransportConfig) : HttpTransport where
  baseUrl := String.ofList (baseUrl.toList.reverse.dropWhile (fun c => c = '/')).reverse
  authToken := config.authToken
  headers := config.headers
  retryConfig := config.retryConfig.getD RetryConfig.default

def url (t : HttpTransport) (path : String) : String := t.baseUrl ++ basePath ++ path

def urlRaw (t : HttpTransport) (path : String) : String := t.baseUrl ++ path

/-- `HttpTransport::build_request`. Only a post or a patch carries the body. -/
def buildRequest (json : SerdeJson) (method : Method) (url : String) (body : Option Value) :
    Except OjsError HttpRequest :=
  let plain : HttpRequest := { method, url, headers := [], body := none }
  match method, body with
  | .post, some value | .patch, some value =>
    match json.toVec value with
    | .ok bytes => .ok { plain with body := some bytes }
    | .error e => .error (.serialization ("failed to serialize request body: " ++ e))
  | _, _ => .ok plain

/-- `HttpTransport::apply_headers`, with the generated request id as a parameter. -/
def applyHeaders (t : HttpTransport) (requestId : String) (req : HttpRequest) : HttpRequest :=
  let authorization :=
    match t.authToken with
    | some token => [("Authorization", "Bearer " ++ token)]
    | none => []
  { req with
    headers := req.headers ++
      [("Content-Type", ojsContentType), ("Accept", ojsContentType),
        ("OJS-Version", ojsVersion), ("X-Request-ID", requestId)] ++
      authorization ++ t.headers }

/-- `max_attempts`. The addition panics or wraps when it overflows. -/
def maxAttempts (t : HttpTransport) (overflowChecks : Bool) : Except Panic Nat :=
  if t.retryConfig.enabled then
    let sum := t.retryConfig.maxRetries.toNat + 1
    if sum < 2 ^ 32 then .ok sum
    else if overflowChecks then .error .addOverflow
    else .ok (sum % 2 ^ 32)
  else .ok 1

/-- Whether the error of an attempt is retried, and with which `Retry-After`. -/
def retryAfter (c : RetryConfig) : OjsError → Option (Option Duration)
  | .server e =>
    if e.httpStatus = 429 then some e.retryAfter
    else if c.retryServerErrors && e.httpStatus ∈ [502, 503, 504] then some none
    else none
  | _ => none

section

variable (t : HttpTransport) (json : SerdeJson) (method : Method) (url : String)
  (body : Option Value) (env : Nat → Attempt) (limit : Nat)

/-- The loop over the attempts, of which there are `limit` in all. The first number
counts those that are left. -/
def attempts : Nat → Nat → Exchange
  | 0, _ => { sent := [], slept := [], result := .error .unreachable }
  | left + 1, attempt =>
    match buildRequest json method url body with
    | .error e => { sent := [], slept := [], result := .ok (.error e) }
    | .ok req =>
      let req := t.applyHeaders (env attempt).requestId req
      match execute json (env attempt).reply with
      | .error panic => { sent := [req], slept := [], result := .error panic }
      | .ok (.ok value) => { sent := [req], slept := [], result := .ok (.ok value) }
      | .ok (.error e) =>
        let stop : Exchange := { sent := [req], slept := [], result := .ok (.error e) }
        if limit ≤ attempt + 1 then stop
        else
          match retryAfter t.retryConfig e with
          | none => stop
          | some ra =>
            let delay := t.retryConfig.computeBackoff attempt ra (env attempt).nanos
            let later := attempts left (attempt + 1)
            { sent := req :: later.sent
              slept := delay :: later.slept
              result := later.result }

end

def request (t : HttpTransport) (json : SerdeJson) (overflowChecks : Bool) (method : Method)
    (path : String) (body : Option Value) (rawPath : Bool) (env : Nat → Attempt) : Exchange :=
  let url := if rawPath then t.urlRaw path else t.url path
  match t.maxAttempts overflowChecks with
  | .error panic => { sent := [], slept := [], result := .error panic }
  | .ok limit => t.attempts json method url body env limit limit 0

end HttpTransport

end OjsSdk
