import OjsSdk.HttpResponse
import OjsSdk.WireTypes
import OjsSdk.Client
import Mathlib.Logic.Function.Basic

namespace OjsSdk

open Serde

/-- A job delivered to a serverless function. `metadata` is the source's `meta`. -/
structure JobEvent where
  id : String
  jobType : String
  queue : String
  args : Value
  attempt : UInt32
  metadata : Option Value
  priority : Int32
  deriving Repr

namespace JobEvent

theorem queue_default : Wire.string.decode (Wire.string.encode "default") = some "default" := rfl

theorem args_default :
    Wire.value.decode (Wire.value.encode (.array [])) = some (.array []) := rfl

theorem attempt_default : Wire.u32.decode (Wire.u32.encode 1) = some 1 := rfl

theorem priority_default : Wire.i32.decode (Wire.i32.encode 0) = some 0 := rfl

end JobEvent

def JobEvent.wire : Wire JobEvent :=
  Record.struct
    (.field "id" Wire.string.required <|
      .field "type" Wire.string.required <|
      .field "queue" (Wire.string.defaulted "default" queue_default) <|
      .field "args" (Wire.value.defaulted (.array []) args_default) <|
      .field "attempt" (Wire.u32.defaulted 1 attempt_default) <|
      .field "meta" Wire.value.optional <|
      .field "priority" (Wire.i32.defaulted 0 priority_default) .empty)
    (fun (id, jobType, queue, args, attempt, metadata, priority, ()) =>
      { id, jobType, queue, args, attempt, metadata, priority })
    (fun e => (e.id, e.jobType, e.queue, e.args, e.attempt, e.metadata, e.priority, ()))
    (by simp) (fun _ => rfl)

structure SqsMessage where
  messageId : String
  body : String
  deriving DecidableEq, Repr

structure SqsEvent where
  records : List SqsMessage

structure BatchItemFailure where
  itemIdentifier : String
  deriving DecidableEq, Repr

structure SqsBatchResponse where
  batchItemFailures : List BatchItemFailure
  deriving DecidableEq, Repr

structure PushDeliveryRequest where
  job : JobEvent
  workerId : String
  deliveryId : String

theorem PushDeliveryRequest.text_default :
    Wire.string.decode (Wire.string.encode "") = some "" := rfl

def PushDeliveryRequest.wire : Wire PushDeliveryRequest :=
  Record.struct
    (.field "job" JobEvent.wire.required <|
      .field "worker_id" (Wire.string.defaulted "" text_default) <|
      .field "delivery_id" (Wire.string.defaulted "" text_default) .empty)
    (fun (job, workerId, deliveryId, ()) => { job, workerId, deliveryId })
    (fun r => (r.job, r.workerId, r.deliveryId, ()))
    (by simp) (fun _ => rfl)

/-- `serde_json::from_str` at the types of a message body and of a push. -/
structure LambdaJson where
  jobEvent : String → Option JobEvent
  pushDelivery : String → Option PushDeliveryRequest

/-- The two decoders on texts whose fields are each there once. -/
def LambdaJson.ofValue (fromSlice : List UInt8 → Except String Value) : LambdaJson where
  jobEvent body := (fromSlice (utf8Bytes body)).toOption.bind JobEvent.wire.decode
  pushDelivery body := (fromSlice (utf8Bytes body)).toOption.bind PushDeliveryRequest.wire.decode

structure PushError where
  code : String
  message : String
  retryable : Bool
  deriving DecidableEq, Repr

structure PushDeliveryResponse where
  status : String
  result : Option Value
  error : Option PushError
  deriving Repr

structure DirectResponse where
  status : String
  jobId : String
  error : Option String
  deriving DecidableEq, Repr

structure HandlerContext where
  ojsUrl : Option String

inductive ServerlessError
  | handler (message : String)
  | nonRetryable (message : String)
  | deserialization (message : String)
  | noHandler (jobType : String)
  deriving DecidableEq, Repr

def ServerlessError.toText : ServerlessError → String
  | .handler m => "handler error: " ++ m
  | .nonRetryable m => "non-retryable error: " ++ m
  | .deserialization m => "deserialization error: " ++ m
  | .noHandler t => "no handler registered for job type: " ++ t

def ServerlessError.isNonRetryable : ServerlessError → Bool
  | .nonRetryable _ => true
  | _ => false

/-- A handler, in the world that it is called in. -/
abbrev ServerlessHandler (W : Type) := HandlerContext → JobEvent → W → Except ServerlessError Unit

structure LambdaHandler (W : Type) where
  handlers : String → Option (ServerlessHandler W)
  ojsUrl : Option String

namespace LambdaHandler

variable {W : Type}

def new : LambdaHandler W where
  handlers _ := none
  ojsUrl := none

def withOjsUrl (url : String) : LambdaHandler W where
  handlers _ := none
  ojsUrl := some url

def register (l : LambdaHandler W) (jobType : String) (handler : ServerlessHandler W) :
    LambdaHandler W :=
  { l with handlers := Function.update l.handlers jobType (some handler) }

def processJob (l : LambdaHandler W) (w : W) (job : JobEvent) : Except ServerlessError Unit :=
  match l.handlers job.jobType with
  | none => .error (.noHandler job.jobType)
  | some handler => handler { ojsUrl := l.ojsUrl } job w

/-- The loop of `handle_sqs`, from record `i` on. The world at record `i` is `env i`. -/
def sqsLoop (l : LambdaHandler W) (json : LambdaJson) (env : Nat → W) :
    Nat → List SqsMessage → List BatchItemFailure → List BatchItemFailure
  | _, [], failures => failures
  | i, record :: rest, failures =>
    match json.jobEvent record.body with
    | none => l.sqsLoop json env (i + 1) rest (failures ++ [{ itemIdentifier := record.messageId }])
    | some job =>
      match l.processJob (env i) job with
      | .ok () => l.sqsLoop json env (i + 1) rest failures
      | .error _ =>
        l.sqsLoop json env (i + 1) rest (failures ++ [{ itemIdentifier := record.messageId }])

def handleSqs (l : LambdaHandler W) (json : LambdaJson) (env : Nat → W) (event : SqsEvent) :
    Except ServerlessError SqsBatchResponse :=
  .ok { batchItemFailures := l.sqsLoop json env 0 event.records [] }

def handleHttp (l : LambdaHandler W) (w : W) (request : PushDeliveryRequest) :
    PushDeliveryResponse :=
  match l.processJob w request.job with
  | .ok () => { status := "completed", result := none, error := none }
  | .error e =>
    { status := "failed"
      result := none
      error := some
        { code := "handler_error", message := e.toText, retryable := !e.isNonRetryable } }

/-- `errorText` is what `serde_json` says of a body that is no push delivery. -/
def handleHttpRaw (l : LambdaHandler W) (json : LambdaJson) (errorText : String → String) (w : W)
    (body : String) : Except ServerlessError PushDeliveryResponse :=
  match json.pushDelivery body with
  | none => .error (.deserialization (errorText body))
  | some request => .ok (l.handleHttp w request)

def handleDirect (l : LambdaHandler W) (w : W) (event : JobEvent) : DirectResponse :=
  match l.processJob w event with
  | .ok () => { status := "completed", jobId := event.id, error := none }
  | .error e => { status := "failed", jobId := event.id, error := some e.toText }

end LambdaHandler

end OjsSdk
