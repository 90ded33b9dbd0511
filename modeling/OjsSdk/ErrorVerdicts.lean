import OjsSdk.Client
import OjsSdk.HttpResponse

namespace OjsSdk

/-- The error that `parse_error_response` makes of a body that does not decode. -/
def undecodedError (body : List UInt8) (status : Nat) (retryAfter : Option Duration)
    (rateLimit : Option RateLimitInfo) : ServerError :=
  let message := StdText.fromUtf8Lossy body
  { code := "http_" ++ toString status
    message := if message = "" then "HTTP " ++ toString status else message
    retryable := status = 429 || 500 ≤ status
    details := none
    requestId := none
    httpStatus := status
    retryAfter
    rateLimit }

/-- `parse_error_response`, where `fromSlice` is `serde_json::from_slice::<ErrorResponse>` with
its error dropped. -/
def parseErrorResponseWith (fromSlice : List UInt8 → Option ErrorFields) (body : List UInt8)
    (status : Nat) (retryAfter : Option Duration) (rateLimit : Option RateLimitInfo) : OjsError :=
  match fromSlice body with
  | some fields => .server { fields.toPayload.intoServerError status with retryAfter, rateLimit }
  | none => .server (undecodedError body status retryAfter rateLimit)

/-- The transport reads the error of a response from the fields that its body has. -/
theorem parseErrorResponse_eq (json : SerdeJson) (body : List UInt8) (status : Nat)
    (retryAfter : Option Duration) (rateLimit : Option RateLimitInfo) :
    parseErrorResponse json body status retryAfter rateLimit =
      parseErrorResponseWith json.readError body status retryAfter rateLimit := by
  unfold parseErrorResponse parseErrorResponseWith
  cases json.readError body with
  | none => rfl
  | some fields => rfl

/-- The boolean at `error.retryable` of a body that is JSON. -/
def SerdeJson.statedRetryable (json : SerdeJson) (body : List UInt8) : Option Bool := do
  let v ← (json.fromSlice body).toOption
  let outer ← structFields ["error"] v
  let error ← outer "error"
  let field ← structFields ["code", "message", "retryable", "details", "request_id"] error
  (field "retryable").bind Value.asBool

theorem retryable_eq_of_optionalField {field : Option Value} {retryable : Option Bool}
    (read : optionalField Value.asBool field = some retryable) :
    field.bind Value.asBool = retryable := by
  cases field with
  | none => exact Option.some.inj read
  | some v =>
    obtain ⟨b, hb, rfl⟩ := Option.map_eq_some_iff.mp read
    exact hb

/-- A reading of what bodies state about `retryable`, right on every body that decodes. -/
def ReadsRetryable (fromSlice : List UInt8 → Option ErrorFields)
    (states : List UInt8 → Option Bool) : Prop :=
  ∀ body fields, fromSlice body = some fields → states body = fields.retryable

theorem SerdeJson.readsRetryable {json : SerdeJson}
    (byValue : ∀ body, json.readError body = (json.fromSlice body).toOption.bind decodeErrorFields) :
    ReadsRetryable json.readError json.statedRetryable := by
  intro body fields decoded
  rw [byValue] at decoded
  obtain ⟨v, hv, decoded⟩ := Option.bind_eq_some_iff.mp decoded
  obtain ⟨outer, houter, decoded⟩ := Option.bind_eq_some_iff.mp decoded
  obtain ⟨error, herror, decoded⟩ := Option.bind_eq_some_iff.mp decoded
  obtain ⟨field, hfield, decoded⟩ := Option.bind_eq_some_iff.mp decoded
  obtain ⟨code, -, decoded⟩ := Option.bind_eq_some_iff.mp decoded
  obtain ⟨message, -, decoded⟩ := Option.bind_eq_some_iff.mp decoded
  obtain ⟨retryable, hretryable, decoded⟩ := Option.bind_eq_some_iff.mp decoded
  obtain ⟨details, -, decoded⟩ := Option.bind_eq_some_iff.mp decoded
  obtain ⟨requestId, -, made⟩ := Option.bind_eq_some_iff.mp decoded
  obtain rfl := Option.some.inj made
  have stated := retryable_eq_of_optionalField hretryable
  simpa only [SerdeJson.statedRetryable, hv, houter, herror, hfield, Option.bind_eq_bind,
    Option.bind_some] using stated

/-- The statuses that stand for temporary failures. -/
def Transient (status : Nat) : Prop := status = 429 ∨ 500 ≤ status

/-- What the error is to carry of a response that states so much about `retryable`. -/
structure Classified (stated : Option Bool) (status : Nat) (retryAfter : Option Duration)
    (rateLimit : Option RateLimitInfo) (e : ServerError) : Prop where
  httpStatus : e.httpStatus = status
  retryAfter : e.retryAfter = retryAfter
  rateLimit : e.rateLimit = rateLimit
  kept : ∀ b, stated = some b → e.retryable = b
  inferred : stated = none → (e.retryable = true ↔ Transient status)

/-- An error object does not leave `retryable` out under a transient status, and what is stated by
a body that is no error object agrees with the status. -/
structure StatesVerdict (fromSlice : List UInt8 → Option ErrorFields)
    (states : List UInt8 → Option Bool) (body : List UInt8) (status : Nat) : Prop where
  decoded : ∀ fields, fromSlice body = some fields → fields.retryable = none → ¬Transient status
  undecoded : fromSlice body = none → ∀ b, states body = some b → (b = true ↔ Transient status)

section

variable {fromSlice : List UInt8 → Option ErrorFields} {states : List UInt8 → Option Bool}
  {body : List UInt8} {status : Nat} {retryAfter : Option Duration}
  {rateLimit : Option RateLimitInfo}

theorem classified_intoServerError_iff (fields : ErrorFields) :
    Classified fields.retryable status retryAfter rateLimit
        { fields.toPayload.intoServerError status with retryAfter, rateLimit } ↔
      (fields.retryable = none → ¬Transient status) := by
  refine ⟨fun classified omitted transient => ?_, fun quiet => ⟨rfl, rfl, rfl, ?_, ?_⟩⟩
  · have retryable := (classified.inferred omitted).mpr transient
    simp [ErrorFields.toPayload, ServerErrorPayload.intoServerError, omitted] at retryable
  · intro b stated
    simp [ErrorFields.toPayload, ServerErrorPayload.intoServerError, stated]
  · intro omitted
    simp [ErrorFields.toPayload, ServerErrorPayload.intoServerError, omitted, quiet omitted]

theorem classified_undecodedError_iff {stated : Option Bool} :
    Classified stated status retryAfter rateLimit
        (undecodedError body status retryAfter rateLimit) ↔
      ∀ b, stated = some b → (b = true ↔ Transient status) := by
  have verdict : (undecodedError body status retryAfter rateLimit).retryable = true ↔
      Transient status := by simp [undecodedError, Transient]
  refine ⟨fun classified b hb => ?_, fun agrees => ⟨rfl, rfl, rfl, ?_, fun _ => verdict⟩⟩
  · rw [← classified.kept b hb]
    exact verdict
  · intro b hb
    exact Bool.eq_iff_iff.mpr (verdict.trans (agrees b hb).symm)

/-- The verdict on a response is right, whatever the shape of its body, exactly if the body states
it as `StatesVerdict` asks. -/
theorem parseErrorResponse_classified_iff (reads : ReadsRetryable fromSlice states)
    (body : List UInt8) (status : Nat) (retryAfter : Option Duration)
    (rateLimit : Option RateLimitInfo) :
    (∃ e, parseErrorResponseWith fromSlice body status retryAfter rateLimit = .server e ∧
        Classified (states body) status retryAfter rateLimit e) ↔
      StatesVerdict fromSlice states body status := by
  unfold parseErrorResponseWith
  cases decoded : fromSlice body with
  | some fields =>
    simp only [OjsError.server.injEq, exists_eq_left', reads body fields decoded,
      classified_intoServerError_iff]
    refine ⟨fun quiet => ⟨fun found same => ?_, fun none => ?_⟩, fun h => h.decoded fields decoded⟩
    · obtain rfl := Option.some.inj (decoded.symm.trans same)
      exact quiet
    · rw [decoded] at none
      cases none
  | none =>
    simp only [OjsError.server.injEq, exists_eq_left', classified_undecodedError_iff]
    refine ⟨fun agrees => ⟨fun found same => ?_, fun _ => agrees⟩, fun h => h.undecoded decoded⟩
    rw [decoded] at same
    cases same

end

def timeoutBody : String :=
  "\x7b\"error\":\x7b\"code\":\"backend_error\",\"message\":\"database timeout\"\x7d\x7d"

def pausedBody : String :=
  "\x7b\"error\":\x7b\"code\":\"queue_paused\",\"message\":\"paused\",\"retryable\":true\x7d\x7d"

/-- Reads the two bodies. -/
def errorJson : SerdeJson where
  fromSlice bytes :=
    if bytes = utf8Bytes timeoutBody then
      .ok (.object [("error",
        .object [("code", .string "backend_error"), ("message", .string "database timeout")])])
    else if bytes = utf8Bytes pausedBody then
      .ok (.object [("error", .object [("code", .string "queue_paused"),
        ("message", .string "paused"), ("retryable", .bool true)])])
    else .error "expected value at line 1 column 1"
  toVec _ := .error "not used"

def timeoutFields : ErrorFields where
  code := "backend_error"
  message := "database timeout"
  retryable := none
  details := none
  requestId := none

def pausedFields : ErrorFields where
  code := "queue_paused"
  message := "paused"
  retryable := some true
  details := none
  requestId := none

theorem errorJson_readsRetryable : ReadsRetryable errorJson.readError errorJson.statedRetryable :=
  SerdeJson.readsRetryable fun _ => rfl

theorem readError_timeoutBody :
    errorJson.readError (utf8Bytes timeoutBody) = some timeoutFields := by
  simp only [errorJson, if_pos]
  rfl

theorem readError_pausedBody :
    errorJson.readError (utf8Bytes pausedBody) = some pausedFields := by
  have other : utf8Bytes pausedBody ≠ utf8Bytes timeoutBody := by decide
  simp only [errorJson, if_neg other, if_pos]
  rfl

theorem parseErrorResponse_pausedBody :
    ∃ e, parseErrorResponseWith errorJson.readError (utf8Bytes pausedBody) 422 none none =
        .server e ∧ Classified (some true) 422 none none e := by
  have stated := errorJson_readsRetryable _ _ readError_pausedBody
  have classified := (parseErrorResponse_classified_iff errorJson_readsRetryable
    (utf8Bytes pausedBody) 422 none none).mpr ⟨?_, ?_⟩
  · rwa [stated] at classified
  · intro fields decoded omitted
    rw [readError_pausedBody] at decoded
    obtain rfl := Option.some.inj decoded
    cases omitted
  · intro undecoded
    rw [readError_pausedBody] at undecoded
    cases undecoded

/-- One failure is retryable where a text reports it and not where an error object does. -/
theorem parseErrorResponse_timeoutBody :
    (∃ e, parseErrorResponse errorJson (utf8Bytes "database timeout") 503 none none = .server e ∧
        e.retryable = true) ∧
      errorJson.statedRetryable (utf8Bytes timeoutBody) = none ∧
      ∃ e, parseErrorResponse errorJson (utf8Bytes timeoutBody) 503 none none = .server e ∧
        e.retryable = false ∧ ¬Classified none 503 none none e := by
  have text : errorJson.readError (utf8Bytes "database timeout") = none := by
    have first : utf8Bytes "database timeout" ≠ utf8Bytes timeoutBody := by decide
    have second : utf8Bytes "database timeout" ≠ utf8Bytes pausedBody := by decide
    simp only [errorJson, if_neg first, if_neg second]
    rfl
  refine ⟨?_, errorJson_readsRetryable _ _ readError_timeoutBody, ?_⟩
  · rw [parseErrorResponse_eq, parseErrorResponseWith, text]
    exact ⟨_, rfl, rfl⟩
  · rw [parseErrorResponse_eq, parseErrorResponseWith, readError_timeoutBody]
    refine ⟨_, rfl, rfl, fun classified => ?_⟩
    have quiet := (classified_intoServerError_iff timeoutFields).mp classified rfl
    exact quiet (.inr (by decide))

end OjsSdk
