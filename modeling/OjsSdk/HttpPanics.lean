import OjsSdk.HttpTransport

namespace OjsSdk

variable {t : HttpTransport} {json : SerdeJson} {method : Method} {url : String}
  {body : Option Value} {env : Nat → Attempt} {limit : Nat}

def RetryConfig.attemptLimit (c : RetryConfig) : Nat :=
  if c.enabled then c.maxRetries.toNat + 1 else 1

theorem RetryConfig.attemptLimit_pos (c : RetryConfig) : 0 < c.attemptLimit := by
  unfold attemptLimit
  split <;> omega

/-- A received response that is retried while attempts are left. -/
def Reply.Retried (c : RetryConfig) : Reply → Prop
  | .response status _ (.ok _) =>
    status = 429 ∨ (c.retryServerErrors = true ∧ status ∈ [502, 503, 504])
  | _ => False

theorem retryAfter_server_iff (c : RetryConfig) (e : ServerError) :
    (∃ ra, HttpTransport.retryAfter c (.server e) = some ra) ↔
      e.httpStatus = 429 ∨ (c.retryServerErrors = true ∧ e.httpStatus ∈ [502, 503, 504]) := by
  unfold HttpTransport.retryAfter
  by_cases limited : e.httpStatus = 429
  · simp [limited]
  · by_cases transient : c.retryServerErrors = true ∧ e.httpStatus ∈ [502, 503, 504]
    · simp [limited, transient]
    · simp_all

theorem Reply.not_retried_of_isSuccess (c : RetryConfig) {status : Nat} (headers : HeaderMap)
    (body : Except String (List UInt8)) (success : isSuccess status = true) :
    ¬(Reply.response status headers body).Retried c := by
  cases body with
  | error message => exact id
  | ok bytes =>
    simp only [isSuccess, Bool.and_eq_true, decide_eq_true_eq] at success
    simp only [Retried, List.mem_cons, List.not_mem_nil, or_false]
    omega

theorem execute_not_retried_of_isSuccess (c : RetryConfig) {status : Nat} {headers : HeaderMap}
    {body : Except String (List UInt8)} {r : Except OjsError (Option Value)}
    (success : isSuccess status = true)
    (h : execute json (.response status headers body) = .ok r) :
    ¬∃ e ra, r = .error e ∧ HttpTransport.retryAfter c e = some ra := by
  simp only [execute, success, ↓reduceIte] at h
  split at h
  next => cases h; simp [HttpTransport.retryAfter]
  next => cases h; simp
  next =>
    split at h
    next => cases h; simp
    next => cases h; simp [HttpTransport.retryAfter]

theorem Reply.retried_iff (c : RetryConfig) {reply : Reply}
    {r : Except OjsError (Option Value)} (h : execute json reply = .ok r) :
    reply.Retried c ↔ ∃ e ra, r = .error e ∧ HttpTransport.retryAfter c e = some ra := by
  cases reply with
  | failed message =>
    cases h
    simp [Retried, HttpTransport.retryAfter]
  | response status headers body =>
    cases hs : isSuccess status with
    | true =>
      exact iff_of_false (not_retried_of_isSuccess c headers body hs)
        (execute_not_retried_of_isSuccess c hs h)
    | false =>
      simp only [execute, hs, Bool.false_eq_true, ↓reduceIte] at h
      cases hp : parseRetryAfterHeader headers with
      | error panic => simp [hp] at h
      | ok retryAfter =>
        simp only [hp] at h
        cases body with
        | error message =>
          cases h
          simp [Retried, HttpTransport.retryAfter]
        | ok bytes =>
          obtain ⟨e, he, hstatus, _, _⟩ :=
            parseErrorResponse_status json bytes status retryAfter
              (parseRateLimitHeaders headers retryAfter)
          simp only [he] at h
          cases h
          have decided := retryAfter_server_iff c e
          rw [hstatus] at decided
          simpa [Retried] using decided.symm

namespace HttpTransport

/-- What the attempts from `attempt` on come to, by what comes of this one: it panics, it is the
last, or it is followed by another after a delay. -/
inductive Attempted (t : HttpTransport) (env : Nat → Attempt) (limit attempt : Nat)
    (req : HttpRequest) (later : Exchange) : Exchange → Prop
  | panicked (panic : Panic) (bad : (env attempt).reply.BadRetryAfter) :
      Attempted t env limit attempt req later
        { sent := [t.applyHeaders (env attempt).requestId req], slept := [], result := .error panic }
  | settled (r : Except OjsError (Option Value)) (good : ¬(env attempt).reply.BadRetryAfter)
      (last : (env attempt).reply.Retried t.retryConfig → limit ≤ attempt + 1) :
      Attempted t env limit attempt req later
        { sent := [t.applyHeaders (env attempt).requestId req], slept := [], result := .ok r }
  | retried (delay : Duration) (good : ¬(env attempt).reply.BadRetryAfter)
      (again : (env attempt).reply.Retried t.retryConfig) (more : attempt + 1 < limit) :
      Attempted t env limit attempt req later
        { sent := t.applyHeaders (env attempt).requestId req :: later.sent
          slept := delay :: later.slept
          result := later.result }

theorem attempts_succ (t : HttpTransport) (env : Nat → Attempt) (limit : Nat) {req : HttpRequest}
    (built : buildRequest json method url body = .ok req) (left attempt : Nat) :
    Attempted t env limit attempt req (t.attempts json method url body env limit left (attempt + 1))
      (t.attempts json method url body env limit (left + 1) attempt) := by
  have panics := execute_eq_error_iff json (env attempt).reply
  simp only [attempts, built]
  cases he : execute json (env attempt).reply with
  | error panic => exact .panicked panic (panics.mp ⟨panic, he⟩)
  | ok r =>
    have good : ¬(env attempt).reply.BadRetryAfter := by
      rw [← panics, he]
      simp
    have retried := Reply.retried_iff t.retryConfig he
    cases r with
    | ok value => exact .settled _ good (by simp [retried])
    | error e =>
      by_cases last : limit ≤ attempt + 1
      · simp only [last, ↓reduceIte]
        exact .settled _ good (fun _ => last)
      · simp only [last, ↓reduceIte]
        cases ha : retryAfter t.retryConfig e with
        | none => exact .settled _ good (by simp [retried, ha])
        | some ra => exact .retried _ good (retried.mpr ⟨e, ra, rfl, ha⟩) (by omega)

/-- What holds of all attempts that take place, by the first of them. -/
theorem forall_attempts_iff {P Q : Nat → Prop} {attempt : Nat} (lt : attempt < limit) :
    (∀ k, attempt ≤ k → k < limit → (∀ j, attempt ≤ j → j < k → P j) → Q k) ↔
      Q attempt ∧ (P attempt →
        ∀ k, attempt + 1 ≤ k → k < limit → (∀ j, attempt + 1 ≤ j → j < k → P j) → Q k) := by
  constructor
  · intro all
    refine ⟨all attempt (Nat.le_refl _) lt (fun j _ _ => by omega), ?_⟩
    intro first k hk hlimit before
    refine all k (by omega) hlimit (fun j hj hjk => ?_)
    rcases Nat.eq_or_lt_of_le hj with rfl | beyond
    · exact first
    · exact before j beyond hjk
  · rintro ⟨here, later⟩ k hk hlimit before
    rcases Nat.eq_or_lt_of_le hk with rfl | beyond
    · exact here
    · have first := before attempt (Nat.le_refl _) beyond
      exact later first k beyond hlimit (fun j hj => before j (by omega))

/-- The attempts from `attempt` on end in a result exactly when none of those that
take place gets a bad `Retry-After`. -/
theorem attempts_finish_iff {req : HttpRequest} (built : buildRequest json method url body = .ok req)
    (left attempt : Nat) (total : attempt + left = limit) (positive : 0 < left) :
    (∃ r, (t.attempts json method url body env limit left attempt).result = .ok r) ↔
      ∀ k, attempt ≤ k → k < limit →
        (∀ j, attempt ≤ j → j < k → (env j).reply.Retried t.retryConfig) →
        ¬(env k).reply.BadRetryAfter := by
  induction left generalizing attempt with
  | zero => omega
  | succ left ih =>
    rw [forall_attempts_iff (by omega)]
    have attempted := attempts_succ t env limit built left attempt
    generalize t.attempts json method url body env limit (left + 1) attempt = exchange at attempted
    cases attempted with
    | panicked panic bad => exact iff_of_false (by simp) (fun good => good.1 bad)
    | settled r good last =>
      refine iff_of_true ⟨r, rfl⟩ ⟨good, fun again k hk hlimit => ?_⟩
      have := last again
      omega
    | retried delay good again more =>
      rw [ih (attempt + 1) (by omega) (by omega)]
      exact ⟨fun later => ⟨good, fun _ => later⟩, fun all => all.2 again⟩

theorem maxAttempts_eq (t : HttpTransport) (overflowChecks : Bool)
    (h : t.retryConfig.enabled = true → t.retryConfig.maxRetries.toNat + 1 < 2 ^ 32) :
    t.maxAttempts overflowChecks = .ok t.retryConfig.attemptLimit := by
  unfold maxAttempts RetryConfig.attemptLimit
  cases he : t.retryConfig.enabled with
  | false => rfl
  | true => simp only [↓reduceIte, h he]

/-- With `u32::MAX` retries the number of attempts overflows: the addition panics,
or it wraps to 0 and the loop falls through. -/
theorem request_overflow {overflowChecks rawPath : Bool} {path : String}
    (enabled : t.retryConfig.enabled = true)
    (most : 2 ^ 32 ≤ t.retryConfig.maxRetries.toNat + 1) :
    ∃ panic, (t.request json overflowChecks method path body rawPath env).result =
      .error panic := by
  have all : t.retryConfig.maxRetries.toNat + 1 = 2 ^ 32 := by
    have := t.retryConfig.maxRetries.toNat_lt
    omega
  cases overflowChecks <;> simp [request, maxAttempts, enabled, all, attempts]

end HttpTransport

/-- `HttpTransport::request` ends in a result exactly when the number of attempts
fits in a `u32` and no attempt that takes place gets a failure response whose
`Retry-After` is a number outside the range of a duration. -/
theorem request_finishes_iff (t : HttpTransport) (json : SerdeJson) (overflowChecks : Bool)
    (method : Method) (path : String) (body : Option Value) (rawPath : Bool)
    (env : Nat → Attempt) :
    (∃ r, (t.request json overflowChecks method path body rawPath env).result = .ok r) ↔
      (t.retryConfig.enabled = true → t.retryConfig.maxRetries.toNat + 1 < 2 ^ 32) ∧
      ((∃ req, HttpTransport.buildRequest json method
          (if rawPath then t.urlRaw path else t.url path) body = .ok req) →
        ∀ k < t.retryConfig.attemptLimit,
          (∀ j < k, (env j).reply.Retried t.retryConfig) → ¬(env k).reply.BadRetryAfter) := by
  by_cases fits : t.retryConfig.enabled = true → t.retryConfig.maxRetries.toNat + 1 < 2 ^ 32
  · have positive := t.retryConfig.attemptLimit_pos
    simp only [HttpTransport.request, t.maxAttempts_eq overflowChecks fits]
    constructor
    · rintro finishes
      refine ⟨fits, ?_⟩
      rintro ⟨req, built⟩ k hk before
      exact (HttpTransport.attempts_finish_iff built _ 0 (Nat.zero_add _) positive).mp finishes k
        (Nat.zero_le k) hk (fun j _ hj => before j hj)
    · rintro ⟨_, good⟩
      cases built : HttpTransport.buildRequest json method
          (if rawPath then t.urlRaw path else t.url path) body with
      | error e =>
        obtain ⟨left, hl⟩ := Nat.exists_eq_succ_of_ne_zero (Nat.ne_of_gt positive)
        rw [hl]
        exact ⟨.error e, by simp only [HttpTransport.attempts, built]⟩
      | ok req =>
        apply (HttpTransport.attempts_finish_iff built _ 0 (Nat.zero_add _) positive).mpr
        intro k _ hk before
        exact good ⟨req, built⟩ k hk (fun j hj => before j (Nat.zero_le j) hj)
  · refine iff_of_false ?_ (fun good => fits good.1)
    simp only [Classical.not_imp, Nat.not_lt] at fits
    obtain ⟨panic, hp⟩ := HttpTransport.request_overflow fits.1 fits.2
    rintro ⟨r, hr⟩
    rw [hp] at hr
    cases hr

/-- A parser that has read nothing but the empty body. -/
def emptyBodyJson : SerdeJson where
  fromSlice _ := .error "EOF while parsing a value at line 1 column 0"
  toVec _ := .ok []

def defaultTransport : HttpTransport :=
  .new "http://localhost:8080" { authToken := none, headers := [], retryConfig := none }

def negativeRetryAfter : Reply := .response 429 [("retry-after", [45, 49])] (.ok [])

/-- The default configuration panics on a negative `Retry-After`. -/
theorem request_negative_retryAfter :
    ¬ ∀ (t : HttpTransport) (json : SerdeJson) (overflowChecks : Bool) (method : Method)
        (path : String) (body : Option Value) (rawPath : Bool) (env : Nat → Attempt),
      ∃ r, (t.request json overflowChecks method path body rawPath env).result = .ok r := by
  intro all
  have bad : negativeRetryAfter.BadRetryAfter := ⟨rfl, .ofDecimal true 1 0, rfl, by decide +kernel⟩
  obtain ⟨panic, hp⟩ := (execute_eq_error_iff emptyBodyJson negativeRetryAfter).mpr bad
  obtain ⟨r, hr⟩ := all defaultTransport emptyBodyJson true .get "/jobs/job-1" none false
    (fun _ => { requestId := "request-1", reply := negativeRetryAfter, nanos := 0 })
  have limit : defaultTransport.maxAttempts true = .ok 4 := rfl
  simp [HttpTransport.request, limit, HttpTransport.attempts, HttpTransport.buildRequest, hp] at hr

end OjsSdk
