import OjsSdk.HttpPanics
import OjsSdk.Backoff

namespace OjsSdk

variable {t : HttpTransport} {json : SerdeJson} {method : Method} {url : String}
  {body : Option Value} {env : Nat → Attempt} {limit : Nat}

/-- An outcome that is retried, with the `Retry-After` that its delay follows. -/
inductive RetriedAfter (c : RetryConfig) :
    Except Panic (Except OjsError (Option Value)) → Option Duration → Prop
  | rateLimited (e : ServerError) (status : e.httpStatus = 429) :
      RetriedAfter c (.ok (.error (.server e))) e.retryAfter
  | unavailable (e : ServerError) (status : e.httpStatus ∈ [502, 503, 504])
      (transient : c.retryServerErrors = true) : RetriedAfter c (.ok (.error (.server e))) none

namespace HttpTransport

/-- What attempt `k` comes to. -/
def outcome (json : SerdeJson) (method : Method) (url : String) (body : Option Value)
    (env : Nat → Attempt) (k : Nat) : Except Panic (Except OjsError (Option Value)) :=
  match buildRequest json method url body with
  | .error e => .ok (.error e)
  | .ok _ => execute json (env k).reply

end HttpTransport

theorem retryAfter_eq_some_iff {c : RetryConfig} {e : OjsError} {ra : Option Duration} :
    HttpTransport.retryAfter c e = some ra ↔ RetriedAfter c (.ok (.error e)) ra := by
  constructor
  · intro retried
    cases e with
    | server e =>
      simp only [HttpTransport.retryAfter] at retried
      by_cases status : e.httpStatus = 429
      · rw [if_pos status] at retried
        cases retried
        exact .rateLimited e status
      · by_cases transient : (c.retryServerErrors && e.httpStatus ∈ [502, 503, 504]) = true
        · rw [if_neg status, if_pos transient] at retried
          cases retried
          rw [Bool.and_eq_true, decide_eq_true_eq] at transient
          exact .unavailable e transient.2 transient.1
        · rw [if_neg status, if_neg transient] at retried
          cases retried
    | _ => cases retried
  · intro retried
    cases retried with
    | rateLimited e status => exact if_pos status
    | unavailable e status transient =>
      have other : e.httpStatus ≠ 429 := by
        intro limited
        rw [limited] at status
        simp at status
      simp [HttpTransport.retryAfter, other, transient, status]

namespace HttpTransport

/-- The loop from attempt `first` on, which retries `m` times and then ends. -/
structure Retries (t : HttpTransport) (json : SerdeJson) (method : Method) (url : String)
    (body : Option Value) (env : Nat → Attempt) (limit first : Nat) (exchange : Exchange)
    (m : Nat) : Prop where
  within : first + m < limit
  again : ∀ k < m, ∃ ra,
    RetriedAfter t.retryConfig (outcome json method url body env (first + k)) ra ∧
    exchange.slept[k]? = some (t.retryConfig.computeBackoff (first + k) ra (env (first + k)).nanos)
  slept : exchange.slept.length = m
  stops : first + m + 1 < limit →
    ∀ ra, ¬RetriedAfter t.retryConfig (outcome json method url body env (first + m)) ra
  result : exchange.result = outcome json method url body env (first + m)
  sent : (∃ req, buildRequest json method url body = .ok req) → exchange.sent.length = m + 1

/-- Attempt `attempt`, which is the last one or has the others follow it. -/
inductive Made (t : HttpTransport) (json : SerdeJson) (method : Method) (url : String)
    (body : Option Value) (env : Nat → Attempt) (limit attempt : Nat) (later : Exchange) :
    Exchange → Prop
  | last (sent : List HttpRequest)
      (one : (∃ req, buildRequest json method url body = .ok req) → sent.length = 1)
      (stops : ∀ ra, RetriedAfter t.retryConfig (outcome json method url body env attempt) ra →
        limit ≤ attempt + 1) :
      Made t json method url body env limit attempt later
        { sent, slept := [], result := outcome json method url body env attempt }
  | again (req : HttpRequest) (ra : Option Duration)
      (retried : RetriedAfter t.retryConfig (outcome json method url body env attempt) ra)
      (more : attempt + 1 < limit) :
      Made t json method url body env limit attempt later
        { sent := req :: later.sent
          slept := t.retryConfig.computeBackoff attempt ra (env attempt).nanos :: later.slept
          result := later.result }

theorem buildRequest_eq_error {e : OjsError}
    (failed : buildRequest json method url body = .error e) :
    ∃ message, e = .serialization message := by
  unfold buildRequest at failed
  split at failed
  · split at failed
    · cases failed
    · cases failed
      exact ⟨_, rfl⟩
  · split at failed
    · cases failed
    · cases failed
      exact ⟨_, rfl⟩
  · cases failed

theorem maxAttempts_le (t : HttpTransport) {overflowChecks : Bool}
    (attempts : t.maxAttempts overflowChecks = .ok limit) :
    limit ≤ t.retryConfig.maxRetries.toNat + 1 := by
  simp only [maxAttempts] at attempts
  split at attempts
  next =>
    split at attempts
    next =>
      cases attempts
      exact Nat.le_refl _
    next =>
      split at attempts
      next => cases attempts
      next =>
        cases attempts
        exact Nat.mod_le _ _
  next =>
    cases attempts
    omega

theorem Made.stopped {later : Exchange} {attempt : Nat} {sent : List HttpRequest}
    {result : Except Panic (Except OjsError (Option Value))}
    (comes : outcome json method url body env attempt = result)
    (one : (∃ req, buildRequest json method url body = .ok req) → sent.length = 1)
    (stops : ∀ ra, RetriedAfter t.retryConfig result ra → limit ≤ attempt + 1) :
    Made t json method url body env limit attempt later { sent, slept := [], result } := by
  subst comes
  exact .last sent one stops

theorem attempts_made (t : HttpTransport) (json : SerdeJson) (method : Method) (url : String)
    (body : Option Value) (env : Nat → Attempt) (limit left attempt : Nat) :
    Made t json method url body env limit attempt
      (t.attempts json method url body env limit left (attempt + 1))
      (t.attempts json method url body env limit (left + 1) attempt) := by
  cases built : buildRequest json method url body with
  | error e =>
    obtain ⟨message, rfl⟩ := buildRequest_eq_error built
    simp only [attempts, built]
    have comes : outcome json method url body env attempt =
        .ok (.error (.serialization message)) := by simp only [outcome, built]
    refine .stopped comes (by simp [built]) ?_
    rintro ra ⟨⟩
  | ok req =>
    have comes : outcome json method url body env attempt = execute json (env attempt).reply := by
      simp only [outcome, built]
    simp only [attempts, built]
    cases ended : execute json (env attempt).reply with
    | error panic =>
      refine .stopped (comes.trans ended) (fun _ => rfl) ?_
      rintro ra ⟨⟩
    | ok r =>
      have returned := comes.trans ended
      cases r with
      | ok value =>
        refine .stopped returned (fun _ => rfl) ?_
        rintro ra ⟨⟩
      | error e =>
        simp only
        by_cases last : limit ≤ attempt + 1
        · rw [if_pos last]
          exact .stopped returned (fun _ => rfl) (fun _ _ => last)
        · rw [if_neg last]
          cases again : retryAfter t.retryConfig e with
          | none =>
            refine .stopped returned (fun _ => rfl) (fun ra retried => ?_)
            rw [← retryAfter_eq_some_iff, again] at retried
            cases retried
          | some ra =>
            refine .again _ ra ?_ (by omega)
            rw [returned, ← retryAfter_eq_some_iff]
            exact again

theorem attempts_retries (t : HttpTransport) (json : SerdeJson) (method : Method) (url : String)
    (body : Option Value) (env : Nat → Attempt) (left attempt : Nat)
    (total : attempt + left = limit) (positive : 0 < left) :
    ∃ m, Retries t json method url body env limit attempt
      (t.attempts json method url body env limit left attempt) m := by
  induction left generalizing attempt with
  | zero => omega
  | succ left ih =>
    have made := attempts_made t json method url body env limit left attempt
    generalize t.attempts json method url body env limit (left + 1) attempt = exchange at made
    cases made with
    | last sent one stops =>
      refine ⟨0, ?_⟩
      exact {
        within := by omega
        again := fun k less => by omega
        slept := rfl
        stops := fun more ra retried => by
          have last := stops ra retried
          omega
        result := rfl
        sent := one }
    | again req ra retried more =>
      obtain ⟨m, later⟩ := ih (attempt + 1) (by omega) (by omega)
      have shift : ∀ k, attempt + 1 + k = attempt + (k + 1) := fun k => by omega
      have within := later.within
      have again := later.again
      have stops := later.stops
      have result := later.result
      simp only [shift] at within again stops result
      refine ⟨m + 1, ?_⟩
      exact {
        within := within
        again := fun k less => by
          cases k with
          | zero => exact ⟨ra, retried, rfl⟩
          | succ k => exact again k (by omega)
        slept := congrArg Nat.succ later.slept
        stops := stops
        result := result
        sent := fun built => congrArg Nat.succ (later.sent built) }

theorem attempts_slept_le (t : HttpTransport) (json : SerdeJson) (method : Method) (url : String)
    (body : Option Value) (env : Nat → Attempt) (left attempt : Nat)
    (total : attempt + left = limit) :
    ((t.attempts json method url body env limit left attempt).slept.map Duration.nanos).sum ≤
      (left - 1) * t.retryConfig.maxBackoff.nanos := by
  induction left generalizing attempt with
  | zero => exact Nat.zero_le _
  | succ left ih =>
    have made := attempts_made t json method url body env limit left attempt
    generalize t.attempts json method url body env limit (left + 1) attempt = exchange at made
    cases made with
    | last => exact Nat.zero_le _
    | again req ra retried more =>
      have delay := t.retryConfig.computeBackoff_le attempt ra (env attempt).nanos
      have later := ih (attempt + 1) (by omega)
      obtain ⟨rest, rfl⟩ : ∃ rest, left = rest + 1 := ⟨left - 1, by omega⟩
      rw [List.map_cons, List.sum_cons, Nat.add_sub_cancel, Nat.succ_mul, Nat.add_comm]
      exact Nat.add_le_add later delay

end HttpTransport

/-- `HttpTransport::request` attempts once, and again while the outcome is retried and attempts are
left. It returns the last outcome. -/
theorem request_retries (t : HttpTransport) (json : SerdeJson) (overflowChecks : Bool)
    (method : Method) (path : String) (body : Option Value) (rawPath : Bool) (env : Nat → Attempt)
    (fits : t.retryConfig.maxRetries.toNat + 1 < 2 ^ 32) :
    ∃ m, HttpTransport.Retries t json method (if rawPath then t.urlRaw path else t.url path) body
      env t.retryConfig.attemptLimit 0 (t.request json overflowChecks method path body rawPath env)
      m := by
  have limit := t.maxAttempts_eq overflowChecks (fun _ => fits)
  simp only [HttpTransport.request, limit]
  exact HttpTransport.attempts_retries t json method _ body env _ 0 (Nat.zero_add _)
    t.retryConfig.attemptLimit_pos

/-- The first attempt is rate limited, the others succeed. -/
def limitedOnce : Nat → Attempt
  | 0 => { requestId := "request-1", reply := .response 429 [] (.ok []), nanos := 7 }
  | _ => { requestId := "request-2", reply := .response 204 [] (.ok []), nanos := 0 }

theorem limitedOnce_retries : ∃ m, HttpTransport.Retries defaultTransport emptyBodyJson .get
    (defaultTransport.url "/jobs/job-1") none limitedOnce 4 0
    (defaultTransport.request emptyBodyJson true .get "/jobs/job-1" none false limitedOnce) m :=
  request_retries defaultTransport emptyBodyJson true .get "/jobs/job-1" none false limitedOnce
    (by decide)

/-- `compute_backoff` does not overflow and stays within `max_backoff`, and one request sleeps at
most `max_retries` times as long. -/
theorem backoff_bounded :
    (∀ (c : RetryConfig) (attempt : Nat) (retryAfter : Option Duration) (nanos : Nat),
      c.computeBackoffChecked attempt retryAfter nanos =
        some (c.computeBackoff attempt retryAfter nanos) ∧
      (c.computeBackoff attempt retryAfter nanos).nanos ≤ c.maxBackoff.nanos) ∧
    ∀ (t : HttpTransport) (json : SerdeJson) (overflowChecks : Bool) (method : Method)
      (path : String) (body : Option Value) (rawPath : Bool) (env : Nat → Attempt),
      ((t.request json overflowChecks method path body rawPath env).slept.map Duration.nanos).sum ≤
        t.retryConfig.maxRetries.toNat * t.retryConfig.maxBackoff.nanos := by
  refine ⟨fun c attempt retryAfter nanos => ⟨c.computeBackoffChecked_eq attempt retryAfter nanos,
    c.computeBackoff_le attempt retryAfter nanos⟩, ?_⟩
  intro t json overflowChecks method path body rawPath env
  unfold HttpTransport.request
  cases attempts : t.maxAttempts overflowChecks with
  | error panic => exact Nat.zero_le _
  | ok limit =>
    have few := t.maxAttempts_le attempts
    have slept := HttpTransport.attempts_slept_le t json method
      (if rawPath then t.urlRaw path else t.url path) body env limit 0 (Nat.zero_add _)
    exact slept.trans (Nat.mul_le_mul_right _ (by omega))

end OjsSdk
