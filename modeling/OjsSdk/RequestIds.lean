import OjsSdk.Client
import OjsSdk.HttpPanics
import OjsSdk.Deduplication

namespace OjsSdk

open Deduplication

variable {t : HttpTransport} {json : SerdeJson} {method : Method} {url : String}
  {body : Option Value} {env : Nat → Attempt} {limit : Nat}

def lowerCase (s : String) : String := String.ofList (s.toList.map Char.toLower)

/-- The value a server finds under a header name, the first of several. -/
def HttpRequest.header (r : HttpRequest) (name : String) : Option String :=
  (r.headers.find? (fun entry => lowerCase entry.1 == lowerCase name)).map Prod.snd

def HttpRequest.requestId (r : HttpRequest) : Option String := r.header "X-Request-ID"

theorem requestId_applyHeaders {req : HttpRequest} (id : String) (h : req.headers = []) :
    (t.applyHeaders id req).requestId = some id := by
  have names : lowerCase "Content-Type" ≠ lowerCase "X-Request-ID" ∧
      lowerCase "Accept" ≠ lowerCase "X-Request-ID" ∧
      lowerCase "OJS-Version" ≠ lowerCase "X-Request-ID" := by decide
  obtain ⟨contentType, accept, version⟩ := names
  simp [HttpRequest.requestId, HttpRequest.header, HttpTransport.applyHeaders, h, contentType,
    accept, version]

namespace HttpTransport

/-- The requests of the attempts that take place differ in their ids only. -/
theorem attempts_sent (t : HttpTransport) (env : Nat → Attempt) (limit : Nat) {req : HttpRequest}
    (built : buildRequest json method url body = .ok req) (left attempt : Nat) :
    ∃ n ≤ left, (0 < left → 0 < n) ∧
      (t.attempts json method url body env limit left attempt).sent =
        (List.range n).map (fun k => t.applyHeaders (env (attempt + k)).requestId req) := by
  induction left generalizing attempt with
  | zero => exact ⟨0, Nat.le_refl 0, id, rfl⟩
  | succ left ih =>
    have one : ∃ n ≤ left + 1, (0 < left + 1 → 0 < n) ∧
        [t.applyHeaders (env attempt).requestId req] =
          (List.range n).map (fun k => t.applyHeaders (env (attempt + k)).requestId req) :=
      ⟨1, by omega, fun _ => Nat.one_pos, rfl⟩
    have attempted := attempts_succ t env limit built left attempt
    generalize t.attempts json method url body env limit (left + 1) attempt = exchange at attempted
    cases attempted with
    | panicked panic bad => exact one
    | settled r good last => exact one
    | retried delay good again more =>
      obtain ⟨n, hn, _, later⟩ := ih (attempt + 1)
      refine ⟨n + 1, by omega, fun _ => n.succ_pos, ?_⟩
      simp only [later, List.range_succ_eq_map, List.map_cons, List.map_map, Nat.add_zero]
      congr 1
      refine List.map_congr_left (fun k _ => ?_)
      simp only [Function.comp, Nat.succ_eq_add_one, Nat.add_assoc, Nat.add_comm 1]

/-- A second attempt takes place exactly when there is one left and the reply to the
first is one to retry on, with a delay that can be computed. -/
theorem two_le_attempts_sent_iff {req : HttpRequest}
    (built : buildRequest json method url body = .ok req) :
    2 ≤ (t.attempts json method url body env limit limit 0).sent.length ↔
      2 ≤ limit ∧ (env 0).reply.Retried t.retryConfig ∧ ¬(env 0).reply.BadRetryAfter := by
  cases limit with
  | zero => simp [attempts]
  | succ left =>
    have attempted := attempts_succ t env (left + 1) built left 0
    generalize t.attempts json method url body env (left + 1) (left + 1) 0 = exchange at attempted
    cases attempted with
    | panicked panic bad => exact iff_of_false (by simp) (fun second => second.2.2 bad)
    | settled r good last =>
      refine iff_of_false (by simp) (fun second => ?_)
      have := last second.2.1
      omega
    | retried delay good again more =>
      obtain ⟨n, _, positive, later⟩ := attempts_sent t env (left + 1) built left (0 + 1)
      have one : 0 < n := positive (by omega)
      simp only [later, List.length_cons, List.length_map, List.length_range]
      exact iff_of_true (by omega) ⟨by omega, again, good⟩

end HttpTransport

/-- The posts that one call of `HttpTransport::request` with a body sends. -/
def HttpTransport.posts (t : HttpTransport) (json : SerdeJson) (overflowChecks : Bool)
    (path : String) (value : Value) (env : Nat → Attempt) : List HttpRequest :=
  (t.request json overflowChecks .post path (some value) false env).sent

/-- What makes a call of `request` post a second time. -/
structure HttpTransport.Reposts (t : HttpTransport) (json : SerdeJson) (value : Value)
    (env : Nat → Attempt) : Prop where
  enabled : t.retryConfig.enabled = true
  retries : 0 < t.retryConfig.maxRetries.toNat
  fits : t.retryConfig.maxRetries.toNat + 1 < 2 ^ 32
  serialized : ∃ bytes, json.toVec value = .ok bytes
  retried : (env 0).reply.Retried t.retryConfig
  delayed : ¬(env 0).reply.BadRetryAfter

namespace HttpTransport

variable {overflowChecks : Bool} {path : String} {value : Value}

theorem buildRequest_post (json : SerdeJson) (url : String) (value : Value) :
    (∃ e e', json.toVec value = .error e ∧
        buildRequest json .post url (some value) = .error e') ∨
      ∃ bytes, json.toVec value = .ok bytes ∧ buildRequest json .post url (some value) =
        .ok { method := .post, url, headers := [], body := some bytes } := by
  cases ht : json.toVec value with
  | error e =>
    exact .inl ⟨e, .serialization ("failed to serialize request body: " ++ e), rfl,
      by simp only [buildRequest, ht]⟩
  | ok bytes => exact .inr ⟨bytes, rfl, by simp only [buildRequest, ht]⟩

theorem attempts_sent_of_not_built {e : OjsError}
    (built : buildRequest json method url body = .error e) (left attempt : Nat) :
    (t.attempts json method url body env limit left attempt).sent = [] := by
  cases left with
  | zero => rfl
  | succ left => simp only [attempts, built]

theorem posts_eq (t : HttpTransport) (json : SerdeJson) (overflowChecks : Bool) (path : String)
    (value : Value) (env : Nat → Attempt) :
    ∃ n req, req.headers = [] ∧ t.posts json overflowChecks path value env =
      (List.range n).map (fun k => t.applyHeaders (env k).requestId req) := by
  have none : ∃ n, ∃ req : HttpRequest, req.headers = [] ∧
      [] = (List.range n).map (fun k => t.applyHeaders (env k).requestId req) :=
    ⟨0, { method := .post, url := path, headers := [], body := Option.none }, rfl, rfl⟩
  simp only [posts, request, Bool.false_eq_true, ↓reduceIte]
  cases t.maxAttempts overflowChecks with
  | error panic => exact none
  | ok limit =>
    rcases buildRequest_post json (t.url path) value with ⟨_, _, _, failed⟩ | ⟨bytes, _, built⟩
    · simpa only [attempts_sent_of_not_built failed] using none
    · obtain ⟨n, _, _, sent⟩ := attempts_sent t env limit built limit 0
      exact ⟨n, _, rfl, by simpa only [Nat.zero_add] using sent⟩

theorem two_le_posts_iff (overflowChecks : Bool) (path : String) :
    2 ≤ (t.posts json overflowChecks path value env).length ↔ t.Reposts json value env := by
  simp only [posts, request, Bool.false_eq_true, ↓reduceIte]
  by_cases fits : t.retryConfig.enabled = true → t.retryConfig.maxRetries.toNat + 1 < 2 ^ 32
  · rw [t.maxAttempts_eq overflowChecks fits]
    rcases buildRequest_post json (t.url path) value with ⟨e, _, refused, failed⟩ | ⟨bytes, accepted, built⟩
    · refine iff_of_false (by simp [attempts_sent_of_not_built failed]) (fun again => ?_)
      obtain ⟨bytes, accepted⟩ := again.serialized
      simp [refused] at accepted
    · refine (two_le_attempts_sent_iff built).trans ?_
      constructor
      · rintro ⟨more, retried, delayed⟩
        unfold RetryConfig.attemptLimit at more
        by_cases enabled : t.retryConfig.enabled = true
        · rw [if_pos enabled] at more
          exact ⟨enabled, by omega, fits enabled, ⟨bytes, accepted⟩, retried, delayed⟩
        · rw [if_neg enabled] at more
          omega
      · intro again
        refine ⟨?_, again.retried, again.delayed⟩
        unfold RetryConfig.attemptLimit
        rw [if_pos again.enabled]
        have := again.retries
        omega
  · refine iff_of_false ?_ (fun again => fits (fun _ => again.fits))
    simp only [Classical.not_imp, Nat.not_lt] at fits
    have most := t.retryConfig.maxRetries.toNat_lt
    have all : t.retryConfig.maxRetries.toNat + 1 = 2 ^ 32 := by omega
    cases overflowChecks <;> simp [maxAttempts, fits.1, all, attempts]

end HttpTransport

/-- Every attempt of a call posts under the id drawn for it, so that a server which
recognises a request by its id applies the call once for each attempt that takes place:
more than once exactly when there is a second one. -/
theorem applied_posts (t : HttpTransport) (json : SerdeJson) (overflowChecks : Bool)
    (path : String) (value : Value) (env : Nat → Attempt)
    (fresh : Function.Injective (fun k => (env k).requestId)) :
    (∀ (k : Nat) (req : HttpRequest), (t.posts json overflowChecks path value env)[k]? = some req →
        req.requestId = some (env k).requestId) ∧
      applied HttpRequest.requestId (t.posts json overflowChecks path value env) =
        t.posts json overflowChecks path value env ∧
      ((applied HttpRequest.requestId (t.posts json overflowChecks path value env)).length ≤ 1 ↔
        ¬t.Reposts json value env) := by
  obtain ⟨n, base, plain, sent⟩ := t.posts_eq json overflowChecks path value env
  have all : applied HttpRequest.requestId (t.posts json overflowChecks path value env) =
      t.posts json overflowChecks path value env := by
    apply applied_of_nodup
    rw [sent, List.map_map]
    refine List.nodup_range.map (fun i j same => ?_)
    simp only [Function.comp, requestId_applyHeaders _ plain, Option.some.injEq] at same
    exact fresh same
  refine ⟨?_, all, ?_⟩
  · intro k req hk
    rw [sent, List.getElem?_map] at hk
    obtain ⟨i, hi, rfl⟩ := Option.map_eq_some_iff.mp hk
    obtain ⟨_, rfl⟩ := List.getElem?_eq_some_iff.mp hi
    rw [List.getElem_range, requestId_applyHeaders _ plain]
  · rw [all, ← HttpTransport.two_le_posts_iff overflowChecks path]
    omega

/-- The reply of a server that has applied the post, or what a gateway puts in its place. -/
def Reply.Applied : Reply → Prop
  | .response status _ _ => isSuccess status = true ∨ status ∈ [502, 503, 504]
  | .failed _ => False

/-- The first reply is lost at the gateway. -/
def timedOutOnce (k : Nat) : Attempt where
  requestId := toString k
  reply := .response (if k = 0 then 504 else 201) [] (.ok [])
  nanos := 0

/-- The body of `client.enqueue("email.send", ["a@b.com"])`. -/
def enqueueBody : Value :=
  .object [("type", .string "email.send"), ("args", .array [.string "a@b.com"])]

def enqueueText : List UInt8 :=
  utf8Bytes "\x7b\"type\":\"email.send\",\"args\":[\"a@b.com\"]\x7d"

/-- JSON for a single body. -/
def enqueueJson : SerdeJson where
  fromSlice bytes := if bytes = enqueueText then .ok enqueueBody else .error "syntax"
  toVec
    | .object [("type", .string "email.send"), ("args", .array [.string "a@b.com"])] =>
      .ok enqueueText
    | _ => .error "unsupported"

/-- A call whose first reply is lost posts twice under two ids, and is applied twice. -/
theorem enqueue_applied_twice :
    ¬ ∀ (t : HttpTransport) (json : SerdeJson) (overflowChecks : Bool) (path : String)
        (value : Value) (env : Nat → Attempt), (∀ k, (env k).reply.Applied) →
      (applied HttpRequest.requestId (t.posts json overflowChecks path value env)).length ≤ 1 := by
  intro all
  have gateway (k : Nat) : (timedOutOnce k).reply.Applied := by
    unfold timedOutOnce Reply.Applied
    by_cases first : k = 0 <;> simp [first, isSuccess]
  have once := all defaultTransport enqueueJson true "/jobs" enqueueBody timedOutOnce gateway
  have twice : (applied HttpRequest.requestId
      (defaultTransport.posts enqueueJson true "/jobs" enqueueBody timedOutOnce)).length = 2 := by
    decide +kernel
  omega

/-- A call whose first reply arrives is applied once. Where it is lost, the two attempts post under
their own ids, and both are applied. -/
theorem enqueue_applied_once :
    (applied HttpRequest.requestId (defaultTransport.posts enqueueJson true "/jobs" enqueueBody
        (fun k => { timedOutOnce k with reply := .response 201 [] (.ok []) }))).length ≤ 1 ∧
      ((defaultTransport.posts enqueueJson true "/jobs" enqueueBody timedOutOnce).map
          HttpRequest.requestId = [some "0", some "1"] ∧
        applied HttpRequest.requestId
            (defaultTransport.posts enqueueJson true "/jobs" enqueueBody timedOutOnce) =
          defaultTransport.posts enqueueJson true "/jobs" enqueueBody timedOutOnce) := by
  have distinct : Function.Injective (fun k => (timedOutOnce k).requestId) :=
    fun _ _ same => StdText.toString_injective same
  have arrived := applied_posts defaultTransport enqueueJson true "/jobs" enqueueBody
    (fun k => { timedOutOnce k with reply := .response 201 [] (.ok []) }) distinct
  have lost := applied_posts defaultTransport enqueueJson true "/jobs" enqueueBody timedOutOnce
    distinct
  refine ⟨arrived.2.2.mpr fun again => ?_, by decide +kernel, lost.2.1⟩
  have retried := again.retried
  simp [Reply.Retried] at retried

end OjsSdk
