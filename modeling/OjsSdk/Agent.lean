import OjsSdk.Operations

namespace OjsSdk

open Serde

inductive MergeStrategy
  | ours
  | theirs
  | union
  deriving DecidableEq, Repr

def MergeStrategy.wireName : MergeStrategy → String
  | ours => "ours"
  | theirs => "theirs"
  | union => "union"

def MergeStrategy.wire : Wire MergeStrategy := .unitEnum [.ours, .theirs, .union] wireName

structure ForkOptions where
  atTurn : UInt64
  branchName : String

structure ForkResult where
  branchId : String
  contentId : String

structure MergeOptions where
  branchA : String
  branchB : String
  strategy : MergeStrategy

structure MergeResult where
  mergedId : String
  conflicts : List String

/-- The metadata are in the order in which the map lists them. -/
structure ResumeDecision where
  approved : Bool
  comment : String
  metadata : List (String × Value)

structure ReplayOptions where
  fromTurn : UInt64
  mockProviders : List (String × String)

structure Divergence where
  turn : UInt64
  expected : String
  actual : String

structure ReplayResult where
  steps : UInt64
  divergences : List Divergence

theorem mapM_texts (entries : List (String × String)) :
    (entries.map (fun entry => (entry.1, Value.string entry.2))).mapM
      (fun entry => entry.2.asStr.map (Prod.mk entry.1)) = some entries := by
  induction entries with
  | nil => rfl
  | cons entry entries ih =>
    rw [List.map_cons, List.mapM_cons, ih]
    rfl

/-- `HashMap<String, String>`. -/
def textMap : Wire (List (String × String)) where
  decode
    | .object fields => fields.mapM (fun entry => entry.2.asStr.map (Prod.mk entry.1))
    | _ => none
  encode entries := .object (entries.map (fun entry => (entry.1, .string entry.2)))
  stable _ entries _ := mapM_texts entries
  not_null _ _ _ null := by cases null

namespace ForkOptions

def record : Record (UInt64 × String × Unit) :=
  .field "at_turn" Wire.u64.required <| .field "branch_name" Wire.string.required .empty

def fields (o : ForkOptions) : UInt64 × String × Unit := (o.atTurn, o.branchName, ())

def wire : Wire ForkOptions :=
  record.struct (fun (atTurn, branchName, ()) => { atTurn, branchName }) fields (by simp [record])
    (fun _ => rfl)

end ForkOptions

namespace MergeOptions

def record : Record (String × String × MergeStrategy × Unit) :=
  .field "branch_a" Wire.string.required <|
    .field "branch_b" Wire.string.required <|
    .field "strategy" MergeStrategy.wire.required .empty

def fields (o : MergeOptions) : String × String × MergeStrategy × Unit :=
  (o.branchA, o.branchB, o.strategy, ())

def wire : Wire MergeOptions :=
  record.struct (fun (branchA, branchB, strategy, ()) => { branchA, branchB, strategy }) fields
    (by simp [record]) (fun _ => rfl)

end MergeOptions

namespace ResumeDecision

def record : Record (Bool × String × List (String × Value) × Unit) :=
  .field "approved" Wire.bool.required <|
    .field "comment" (Wire.string.defaulted "") <|
    .field "metadata" (Wire.map.defaulted []) .empty

def fields (d : ResumeDecision) : Bool × String × List (String × Value) × Unit :=
  (d.approved, d.comment, d.metadata, ())

def wire : Wire ResumeDecision :=
  record.struct (fun (approved, comment, metadata, ()) => { approved, comment, metadata }) fields
    (by simp [record]) (fun _ => rfl)

end ResumeDecision

namespace ReplayOptions

def record : Record (UInt64 × List (String × String) × Unit) :=
  .field "from_turn" Wire.u64.required <|
    .field "mock_providers" (textMap.defaulted []) .empty

def fields (o : ReplayOptions) : UInt64 × List (String × String) × Unit :=
  (o.fromTurn, o.mockProviders, ())

def wire : Wire ReplayOptions :=
  record.struct (fun (fromTurn, mockProviders, ()) => { fromTurn, mockProviders }) fields
    (by simp [record]) (fun _ => rfl)

end ReplayOptions

def pauseRecord : Record (String × Unit) := .field "reason" Wire.string.required .empty

def pauseWire : Wire String :=
  pauseRecord.struct (fun (reason, ()) => reason) (fun reason => (reason, ())) (by simp [pauseRecord])
    (fun _ => rfl)

/-- A call of the client, apart from the job it is about. -/
inductive AgentCall
  | fork (opts : ForkOptions)
  | merge (opts : MergeOptions)
  | pause (reason : String)
  | resume (decision : ResumeDecision)
  | replay (opts : ReplayOptions)

namespace AgentCall

def action : AgentCall → String
  | fork _ => "fork"
  | merge _ => "merge"
  | pause _ => "pause"
  | resume _ => "resume"
  | replay _ => "replay"

/-- The JSON of the request. Its members are in the order in which they are written. -/
def body : AgentCall → Value
  | fork opts => ForkOptions.record.members opts.fields
  | merge opts => MergeOptions.record.members opts.fields
  | pause reason => pauseRecord.members (reason, ())
  | resume decision => ResumeDecision.record.members decision.fields
  | replay opts => ReplayOptions.record.members opts.fields

/-- What the call returns. -/
def Result : AgentCall → Type
  | fork _ => ForkResult
  | merge _ => MergeResult
  | pause _ | resume _ => Unit
  | replay _ => ReplayResult

end AgentCall

/-- `serde_json`, as far as the client uses it: the text of a value, and the typed `from_slice`. -/
structure AgentJson where
  toVec : Value → Except String (List UInt8)
  forkResult : List UInt8 → Except String ForkResult
  mergeResult : List UInt8 → Except String MergeResult
  replayResult : List UInt8 → Except String ReplayResult

structure AgentClient where
  baseUrl : String

namespace AgentClient

/-- `AgentClient::new` and `AgentClient::with_client`. -/
def new (baseUrl : String) : Except OjsError AgentClient :=
  if baseUrl = "" then .error (.builder "base URL must not be empty")
  else .ok
    { baseUrl := String.ofList (baseUrl.toList.reverse.dropWhile (fun c => c = '/')).reverse }

def path (jobId action : String) : String := "/v1/agent/jobs/" ++ jobId ++ "/" ++ action

def url (client : AgentClient) (jobId action : String) : String :=
  client.baseUrl ++ path jobId action

def refusal (status : Nat) : OjsError :=
  match status with
  | 404 => .transport "agent not found"
  | 409 => .transport "branch conflict"
  | 422 => .transport "agent is not paused"
  | _ => .transport ("unexpected status " ++ toString status)

def handleResponse {R : Type} (fromSlice : List UInt8 → Except String R) (status : Nat)
    (body : Except String (List UInt8)) : Except OjsError R :=
  if isSuccess status then
    match body with
    | .error message => .error (.transport message)
    | .ok bytes =>
      match fromSlice bytes with
      | .ok r => .ok r
      | .error e => .error (.transport e)
  else .error (refusal status)

def handleEmptyResponse (status : Nat) : Except OjsError Unit :=
  if isSuccess status then .ok () else .error (refusal status)

/-- `handle_response` or `handle_empty_response`, as the call has it. -/
def handle (json : AgentJson) (call : AgentCall) (status : Nat)
    (body : Except String (List UInt8)) : Except OjsError call.Result :=
  match call with
  | .fork _ => handleResponse json.forkResult status body
  | .merge _ => handleResponse json.mergeResult status body
  | .pause _ | .resume _ => handleEmptyResponse status
  | .replay _ => handleResponse json.replayResult status body

/-- The end of a call, from what `send` comes to. -/
def receive (json : AgentJson) (call : AgentCall) : Reply → Except OjsError call.Result
  | .failed message => .error (.transport message)
  | .response status _ body => handle json call status body

/-- The request of a call, if its body can be written. -/
def request (client : AgentClient) (json : AgentJson) (jobId : String) (call : AgentCall) :
    Except String HttpRequest :=
  match json.toVec call.body with
  | .error e => .error e
  | .ok bytes => .ok
    { method := .post
      url := client.url jobId call.action
      headers := [("Content-Type", "application/json")]
      body := some bytes }

/-- A call. A body that cannot be written makes `send` fail without a request. -/
def run (client : AgentClient) (json : AgentJson) (jobId : String) (call : AgentCall)
    (send : HttpRequest → Reply) : Except OjsError call.Result :=
  match client.request json jobId call with
  | .error e => .error (.transport e)
  | .ok req => receive json call (send req)

end AgentClient

/-- The call with this action. -/
def AgentCall.decode (action : String) (v : Value) : Option AgentCall :=
  match action with
  | "fork" => (ForkOptions.wire.decode v).map .fork
  | "merge" => (MergeOptions.wire.decode v).map .merge
  | "pause" => (pauseWire.decode v).map .pause
  | "resume" => (ResumeDecision.wire.decode v).map .resume
  | "replay" => (ReplayOptions.wire.decode v).map .replay
  | _ => none

theorem MergeStrategy.wire_keeps (s : MergeStrategy) : wire.Keeps s := by
  cases s <;> rfl

namespace AgentCall

end AgentCall

end OjsSdk
