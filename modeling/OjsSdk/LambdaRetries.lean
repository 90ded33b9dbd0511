import OjsSdk.LambdaHandler
import OjsSdk.ProcessJob
import Mathlib.Data.List.Basic

namespace OjsSdk

variable {W : Type} {l : LambdaHandler W} {json : LambdaJson} {env : Nat → W}

/-- The answer asks the server to deliver the job again. -/
def PushDeliveryResponse.retries (response : PushDeliveryResponse) : Bool :=
  response.status == "failed" && response.error.any PushError.retryable

/-- The answer to a push of the job. The other fields of the request are not read. -/
def LambdaHandler.push (l : LambdaHandler W) (w : W) (job : JobEvent) : PushDeliveryResponse :=
  l.handleHttp w { job, workerId := "", deliveryId := "" }

def LambdaHandler.pushRetries (l : LambdaHandler W) (json : LambdaJson) (w : W)
    (record : SqsMessage) : Bool :=
  match json.jobEvent record.body with
  | none => false
  | some job => (l.push w job).retries

def LambdaHandler.fails (l : LambdaHandler W) (json : LambdaJson) (w : W) (record : SqsMessage) :
    Bool :=
  match json.jobEvent record.body with
  | none => true
  | some job => !(l.processJob w job).isOk

/-- The failures of a batch, of which `fails` says which ones they are. -/
def failuresOf (env : Nat → W) (fails : W → SqsMessage → Bool) (records : List SqsMessage) :
    List BatchItemFailure :=
  (records.zipIdx.filter (fun r => fails (env r.2) r.1)).map
    (fun r => { itemIdentifier := r.1.messageId })

/-- The batch and the pushes of an event's jobs come to the same, and so does a worker that has
no handler for one of them. -/
structure DeliveriesAgree (l : LambdaHandler W) (json : LambdaJson) (env : Nat → W)
    (event : SqsEvent) : Prop where
  batch : l.handleSqs json env event = .ok
    { batchItemFailures := failuresOf env (l.pushRetries json) event.records }
  noHandler : ∀ record i job, (record, i) ∈ event.records.zipIdx →
    json.jobEvent record.body = some job → l.handlers job.jobType = none →
    ∀ job' : Job, job'.jobType = job.jobType →
      (l.push (env i) job).error.map PushError.retryable = (settlement job' .noHandler).retryable

/-- Every job of the event has a handler, and the handler does not rule a retry out. -/
def EveryRetryWelcome (l : LambdaHandler W) (json : LambdaJson) (env : Nat → W)
    (event : SqsEvent) : Prop :=
  ∀ record i job, (record, i) ∈ event.records.zipIdx →
    json.jobEvent record.body = some job →
    ∃ handler, l.handlers job.jobType = some handler ∧
      ∀ message, handler { ojsUrl := l.ojsUrl } job (env i) ≠ .error (.nonRetryable message)

theorem sqsLoop_eq (i : Nat) (records : List SqsMessage) (failures : List BatchItemFailure) :
    l.sqsLoop json env i records failures = failures ++
      ((records.zipIdx i).filter (fun r => l.fails json (env r.2) r.1)).map
        (fun r => { itemIdentifier := r.1.messageId }) := by
  induction records generalizing i failures with
  | nil => simp [LambdaHandler.sqsLoop]
  | cons record rest ih =>
    unfold LambdaHandler.sqsLoop
    rw [List.zipIdx_cons, List.filter_cons]
    cases decoded : json.jobEvent record.body with
    | none =>
      have fails : l.fails json (env i) record = true := by simp [LambdaHandler.fails, decoded]
      simp [ih, fails]
    | some job =>
      cases result : l.processJob (env i) job with
      | ok _ =>
        have fails : l.fails json (env i) record = false := by
          simp [LambdaHandler.fails, decoded, result, Except.isOk, Except.toBool]
        simp [result, ih, fails]
      | error e =>
        have fails : l.fails json (env i) record = true := by
          simp [LambdaHandler.fails, decoded, result, Except.isOk, Except.toBool]
        simp [result, ih, fails]

theorem handleSqs_eq (event : SqsEvent) : l.handleSqs json env event = .ok
    { batchItemFailures := failuresOf env (l.fails json) event.records } := by
  rw [LambdaHandler.handleSqs, sqsLoop_eq, failuresOf, List.nil_append]

theorem push_retries_iff (w : W) (job : JobEvent) : (l.push w job).retries = true ↔
    ∃ e, l.processJob w job = .error e ∧ e.isNonRetryable = false := by
  unfold LambdaHandler.push LambdaHandler.handleHttp
  cases l.processJob w job with
  | ok _ => simp [PushDeliveryResponse.retries]
  | error e => simp [PushDeliveryResponse.retries]

theorem fails_of_pushRetries {w : W} {record : SqsMessage}
    (retries : l.pushRetries json w record = true) : l.fails json w record = true := by
  unfold LambdaHandler.pushRetries at retries
  unfold LambdaHandler.fails
  split at retries
  next => cases retries
  next job _ =>
    obtain ⟨e, failed, -⟩ := (push_retries_iff w job).mp retries
    simp [failed, Except.isOk, Except.toBool]

/-- Two selections of which one includes the other are equally long only if they are the same. -/
theorem failuresOf_eq_iff {p q : W → SqsMessage → Bool} (records : List SqsMessage)
    (sub : ∀ w record, p w record = true → q w record = true) :
    failuresOf env q records = failuresOf env p records ↔
      ∀ record i, (record, i) ∈ records.zipIdx → q (env i) record = true →
        p (env i) record = true := by
  have sublist : (records.zipIdx.filter (fun r => p (env r.2) r.1)).Sublist
      (records.zipIdx.filter (fun r => q (env r.2) r.1)) :=
    List.monotone_filter_right _ (fun r => sub (env r.2) r.1)
  constructor
  · intro same record i member chosen
    have lengths := congrArg List.length same
    simp only [failuresOf, List.length_map] at lengths
    have filters := sublist.eq_of_length lengths.symm
    have mem_q : (record, i) ∈ records.zipIdx.filter (fun r => q (env r.2) r.1) :=
      List.mem_filter.mpr ⟨member, chosen⟩
    rw [← filters] at mem_q
    exact (List.mem_filter.mp mem_q).2
  · intro all
    unfold failuresOf
    rw [List.filter_congr (fun r member => ?_)]
    exact Bool.eq_iff_iff.mpr ⟨all r.1 r.2 member, sub (env r.2) r.1⟩

/-- What the batch reports and a push does not is a job whose handler rules a retry out. -/
theorem pushRetries_of_fails_iff {w : W} {record : SqsMessage} {job : JobEvent}
    (decoded : json.jobEvent record.body = some job) :
    (l.fails json w record = true → l.pushRetries json w record = true) ↔
      ∀ message, l.processJob w job ≠ .error (.nonRetryable message) := by
  simp only [LambdaHandler.fails, LambdaHandler.pushRetries, decoded, push_retries_iff]
  cases result : l.processJob w job with
  | ok _ => simp [Except.isOk, Except.toBool]
  | error e => cases e <;> simp [Except.isOk, Except.toBool, ServerlessError.isNonRetryable]

theorem push_of_noHandler {w : W} {job : JobEvent} (none : l.handlers job.jobType = none) :
    (l.push w job).error.map PushError.retryable = some true := by
  simp [LambdaHandler.push, LambdaHandler.handleHttp, LambdaHandler.processJob, none,
    ServerlessError.isNonRetryable]

/-- The ways in which a job is delivered agree on what is retried if and only if each job of the
event has a handler and none of them fails for good. -/
theorem deliveries_agree_iff {event : SqsEvent}
    (decodes : ∀ record ∈ event.records, ∃ job, json.jobEvent record.body = some job) :
    DeliveriesAgree l json env event ↔ EveryRetryWelcome l json env event := by
  have batch : failuresOf env (l.fails json) event.records =
      failuresOf env (l.pushRetries json) event.records ↔ _ :=
    failuresOf_eq_iff event.records (fun _ _ => fails_of_pushRetries)
  constructor
  · intro agree record i job member decoded
    cases registered : l.handlers job.jobType with
    | none =>
      have verdict := agree.noHandler record i job member decoded registered
        (Job.ofWire job.id job.jobType job.args) rfl
      rw [push_of_noHandler registered] at verdict
      cases verdict
    | some handler =>
      have same := agree.batch
      rw [handleSqs_eq, Except.ok.injEq, SqsBatchResponse.mk.injEq] at same
      have retries := (pushRetries_of_fails_iff decoded).mp (batch.mp same record i member)
      refine ⟨handler, rfl, fun message failed => retries message ?_⟩
      simp [LambdaHandler.processJob, registered, failed]
  · intro welcome
    refine ⟨?_, ?_⟩
    · rw [handleSqs_eq, batch.mpr ?_]
      intro record i member
      obtain ⟨job, decoded⟩ := decodes record (List.fst_mem_of_mem_zipIdx member)
      obtain ⟨handler, registered, never⟩ := welcome record i job member decoded
      refine (pushRetries_of_fails_iff decoded).mpr (fun message failed => never message ?_)
      simpa [LambdaHandler.processJob, registered] using failed
    · intro record i job member decoded unregistered
      obtain ⟨handler, registered, -⟩ := welcome record i job member decoded
      rw [unregistered] at registered
      cases registered

def mailBody : String := "\x7b\"id\":\"job-1\",\"type\":\"email.send\"\x7d"

/-- Reads the one body. -/
def mailJson : LambdaJson :=
  .ofValue fun bytes =>
    if bytes = utf8Bytes mailBody then
      .ok (.object [("id", .string "job-1"), ("type", .string "email.send")])
    else .error "expected value at line 1 column 1"

def mailJob : JobEvent where
  id := "job-1"
  jobType := "email.send"
  queue := "default"
  args := .array []
  attempt := 1
  metadata := none
  priority := 0

def mailEvent : SqsEvent where
  records := [{ messageId := "m-1", body := mailBody }]

/-- Cannot deliver the mail, for the reason given. -/
def bouncing (reason : ServerlessError) : LambdaHandler Unit :=
  LambdaHandler.new.register "email.send" (fun _ _ _ => .error reason)

theorem mailJob_decoded : mailJson.jobEvent mailBody = some mailJob := by
  simp only [mailJson, LambdaJson.ofValue, ↓reduceIte]
  rfl

theorem mailEvent_decodes :
    ∀ record ∈ mailEvent.records, ∃ job, mailJson.jobEvent record.body = some job := by
  intro record member
  obtain rfl := List.mem_singleton.mp member
  exact ⟨mailJob, mailJob_decoded⟩

theorem bouncing_agrees :
    DeliveriesAgree (bouncing (.handler "mailbox full")) mailJson (fun _ => ()) mailEvent := by
  refine (deliveries_agree_iff mailEvent_decodes).mpr ?_
  intro record i job member decoded
  obtain rfl := List.mem_singleton.mp (List.fst_mem_of_mem_zipIdx member)
  rw [mailJob_decoded] at decoded
  cases decoded
  exact ⟨_, rfl, fun message failed => by cases failed⟩

/-- The queue delivers a mail again that the handler has given up. -/
theorem bouncing_redelivered :
    ¬∀ (l : LambdaHandler Unit) (json : LambdaJson) (env : Nat → Unit) (event : SqsEvent),
      (∀ record ∈ event.records, ∃ job, json.jobEvent record.body = some job) →
      DeliveriesAgree l json env event := by
  intro claim
  have agree := claim (bouncing (.nonRetryable "no such mailbox")) mailJson (fun _ => ())
    mailEvent mailEvent_decodes
  have same := agree.batch
  rw [handleSqs_eq, Except.ok.injEq, SqsBatchResponse.mk.injEq] at same
  have retries := (failuresOf_eq_iff mailEvent.records (fun _ _ => fails_of_pushRetries)).mp same
  have given_up := retries _ 0 (List.mem_singleton.mpr rfl)
  exact (pushRetries_of_fails_iff mailJob_decoded).mp given_up "no such mailbox" rfl

end OjsSdk
