import OjsSdk.Errors
import OjsSdk.StdText

namespace OjsSdk

/-- The headers of a response, their names in lower case. -/
abbrev HeaderMap := List (String × List UInt8)

/-- What one attempt of the HTTP client comes to: `send` fails, or a response is
received, whose body may fail to arrive. -/
inductive Reply
  | failed (message : String)
  | response (status : Nat) (headers : HeaderMap) (body : Except String (List UInt8))

inductive Panic
  | addOverflow
  | unreachable
  | fromSecsF64
  deriving DecidableEq, Repr

/-- `HeaderMap::get`, which takes the first of several values. -/
def HeaderMap.get (headers : HeaderMap) (name : String) : Option (List UInt8) :=
  let key := String.ofList (name.toList.map Char.toLower)
  (headers.find? (fun entry => entry.1 == key)).map Prod.snd

def headerToStr (value : List UInt8) : Option (List Char) :=
  if value.all (fun b => b = 9 || (32 ≤ b && b < 127)) then
    some (value.map (fun b => Char.ofNat b.toNat))
  else none

/-- The number in the `Retry-After` header, if it is there and is one. -/
def retryAfterSeconds (headers : HeaderMap) : Option Binary64 :=
  ((headers.get "Retry-After").bind headerToStr).bind StdText.parseF64

def parseRetryAfterHeader (headers : HeaderMap) : Except Panic (Option Duration) :=
  match retryAfterSeconds headers with
  | none => .ok none
  | some seconds =>
    match Duration.fromSecsF64 seconds with
    | some d => .ok (some d)
    | none => .error .fromSecsF64

def parseRateLimitHeaders (headers : HeaderMap) (retryAfter : Option Duration) :
    Option RateLimitInfo :=
  let number (name : String) := ((headers.get name).bind headerToStr).bind StdText.parseI64
  let limit := number "X-RateLimit-Limit"
  let remaining := number "X-RateLimit-Remaining"
  let reset := number "X-RateLimit-Reset"
  if limit.isNone && remaining.isNone && reset.isNone && retryAfter.isNone then none
  else some { limit, remaining, reset, retryAfter }

/-- The fields of `ServerErrorPayload` as a body has them, before serde fills in defaults. -/
structure ErrorFields where
  code : String
  message : String
  retryable : Option Bool
  details : Option (Option (List (String × Value)))
  requestId : Option (Option String)
  deriving Repr

/-- The fields with `#[serde(default)]` that are left out get the `Default` of their type. -/
def ErrorFields.toPayload (fields : ErrorFields) : ServerErrorPayload where
  code := fields.code
  message := fields.message
  retryable := fields.retryable.getD false
  details := fields.details.getD none
  requestId := fields.requestId.getD none

def nullable {α : Type} (decode : Value → Option α) : Value → Option (Option α)
  | .null => some none
  | v => (decode v).map some

def optionalField {α : Type} (decode : Value → Option α) : Option Value → Option (Option α)
  | none => some none
  | some v => (decode v).map some

def ErrorFields.decode (v : Value) : Option ErrorFields := do
  let field ← structFields ["code", "message", "retryable", "details", "request_id"] v
  let code ← (field "code").bind Value.asStr
  let message ← (field "message").bind Value.asStr
  let retryable ← optionalField Value.asBool (field "retryable")
  let details ← optionalField (nullable Value.asObject) (field "details")
  let requestId ← optionalField (nullable Value.asStr) (field "request_id")
  return { code, message, retryable, details, requestId }

def decodeErrorFields (v : Value) : Option ErrorFields := do
  let field ← structFields ["error"] v
  (field "error").bind ErrorFields.decode

/-- `serde_json`, as far as the transport uses it: `from_slice` and `to_vec` at `Value`, and
`from_slice` at `ErrorResponse`, with its error dropped and the fields as the body has them. -/
structure SerdeJson where
  fromSlice : List UInt8 → Except String Value
  toVec : Value → Except String (List UInt8)
  readError : List UInt8 → Option ErrorFields :=
    fun body => (fromSlice body).toOption.bind decodeErrorFields

def parseErrorResponse (json : SerdeJson) (body : List UInt8) (status : Nat)
    (retryAfter : Option Duration) (rateLimit : Option RateLimitInfo) : OjsError :=
  match json.readError body with
  | some fields => .server { fields.toPayload.intoServerError status with retryAfter, rateLimit }
  | none =>
    let message := StdText.fromUtf8Lossy body
    .server
      { code := "http_" ++ toString status
        message := if message = "" then "HTTP " ++ toString status else message
        retryable := status = 429 || 500 ≤ status
        details := none
        requestId := none
        httpStatus := status
        retryAfter
        rateLimit }

def isSuccess (status : Nat) : Bool := 200 ≤ status && status < 300

/-- `HttpTransport::execute` on the reply to a request. -/
def execute (json : SerdeJson) : Reply → Except Panic (Except OjsError (Option Value))
  | .failed message => .ok (.error (.transport message))
  | .response status headers body =>
    if isSuccess status then
      match body with
      | .error message => .ok (.error (.transport message))
      | .ok [] => .ok (.ok none)
      | .ok bytes =>
        match json.fromSlice bytes with
        | .ok value => .ok (.ok (some value))
        | .error e =>
          .ok (.error (.serialization ("failed to parse response: " ++ e ++ " (body: " ++
            StdText.fromUtf8Lossy bytes ++ ")")))
    else
      match parseRetryAfterHeader headers with
      | .error panic => .error panic
      | .ok retryAfter =>
        let rateLimit := parseRateLimitHeaders headers retryAfter
        match body with
        | .error message => .ok (.error (.transport message))
        | .ok bytes => .ok (.error (parseErrorResponse json bytes status retryAfter rateLimit))

/-- A reply that is not a success and whose `Retry-After` header is a number that
is not a duration. -/
def Reply.BadRetryAfter : Reply → Prop
  | .failed _ => False
  | .response status headers _ =>
    isSuccess status = false ∧ ∃ seconds ∈ retryAfterSeconds headers, ¬Duration.InSecs seconds

theorem parseRetryAfterHeader_eq_error_iff (headers : HeaderMap) :
    (∃ panic, parseRetryAfterHeader headers = .error panic) ↔
      ∃ seconds ∈ retryAfterSeconds headers, ¬Duration.InSecs seconds := by
  unfold parseRetryAfterHeader
  cases hs : retryAfterSeconds headers with
  | none => simp
  | some seconds =>
    simp only [Option.mem_def, Option.some.injEq, exists_eq_left']
    rw [← Duration.fromSecsF64_eq_none_iff]
    cases Duration.fromSecsF64 seconds <;> simp

/-- Only the conversion of the `Retry-After` header can panic in an attempt. -/
theorem execute_eq_error_iff (json : SerdeJson) (reply : Reply) :
    (∃ panic, execute json reply = .error panic) ↔ reply.BadRetryAfter := by
  cases reply with
  | failed message => simp [execute, Reply.BadRetryAfter]
  | response status headers body =>
    simp only [execute, Reply.BadRetryAfter, ← parseRetryAfterHeader_eq_error_iff]
    cases hs : isSuccess status with
    | true =>
      simp only [↓reduceIte, Bool.true_eq_false, false_and, iff_false, not_exists]
      intro panic
      split
      next => simp
      next => simp
      next => split <;> simp
    | false =>
      simp only [Bool.false_eq_true, ↓reduceIte, true_and]
      cases hp : parseRetryAfterHeader headers with
      | error panic => simp
      | ok retryAfter => cases body <;> simp

theorem parseErrorResponse_status (json : SerdeJson) (body : List UInt8) (status : Nat)
    (retryAfter : Option Duration) (rateLimit : Option RateLimitInfo) :
    ∃ e, parseErrorResponse json body status retryAfter rateLimit = .server e ∧
      e.httpStatus = status ∧ e.retryAfter = retryAfter ∧ e.rateLimit = rateLimit := by
  unfold parseErrorResponse
  split <;> exact ⟨_, rfl, rfl, rfl, rfl⟩

end OjsSdk
