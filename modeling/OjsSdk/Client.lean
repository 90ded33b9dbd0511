import OjsSdk.Workflow

namespace OjsSdk

def maxTypeLength : Nat := 255

def maxQueueLength : Nat := 128

def isLower (c : Char) : Bool := 'a' ≤ c && c ≤ 'z'

def isAsciiDigit (c : Char) : Bool := '0' ≤ c && c ≤ '9'

/-- `str::split` at one character. -/
def splitAtChar (separator : Char) : List Char → List (List Char)
  | [] => [[]]
  | c :: rest =>
    if c = separator then [] :: splitAtChar separator rest
    else
      match splitAtChar separator rest with
      | segment :: segments => (c :: segment) :: segments
      | [] => [[c]]

def isTypeSegment (segment : List Char) : Bool :=
  (match segment with
    | [] => false
    | c :: _ => isLower c) &&
    segment.all (fun c => isLower c || isAsciiDigit c || c = '_')

/-- `validate_job_type`. The first argument stands for the `{:?}` text of a string. -/
def validateJobType (debug : String → String) (jobType : String) : Except OjsError Unit :=
  if jobType.isEmpty then .error (.builder "job type must not be empty")
  else if maxTypeLength < jobType.utf8ByteSize then
    .error (.builder ("job type must not exceed " ++ toString maxTypeLength ++
      " characters, got " ++ toString jobType.utf8ByteSize))
  else if !(splitAtChar '.' jobType.toList).all isTypeSegment then
    .error (.builder ("invalid job type " ++ debug jobType ++
      ": each segment must match [a-z][a-z0-9_]*"))
  else .ok ()

def utf8Bytes (s : String) : List UInt8 := s.toByteArray.data.toList

theorem utf8Bytes_inj {s t : String} : utf8Bytes s = utf8Bytes t ↔ s = t := by
  refine ⟨fun same => ?_, congrArg utf8Bytes⟩
  have arrays : s.toByteArray.data = t.toByteArray.data := Array.toList_inj.mp same
  exact String.toByteArray_inj.mp (ByteArray.ext arrays)

/-- `u8 as char`. -/
def latin1 (b : UInt8) : Char := Char.ofNat b.toNat

def isQueueAlnum (b : UInt8) : Bool := isLower (latin1 b) || isAsciiDigit (latin1 b)

def isSeparator (b : UInt8) : Bool := latin1 b = '-' || latin1 b = '.'

/-- The loop of `validate_queue_name` over the bytes of the name. -/
def checkQueueBytes (debug : String → String) (queue : String) : List UInt8 → Except OjsError Unit
  | [] => .ok ()
  | b :: rest =>
    if !(isQueueAlnum b || isSeparator b) then
      .error (.builder ("invalid queue name " ++ debug queue ++
        ": must contain only lowercase alphanumeric, hyphens, and dots"))
    else if isSeparator b && (rest.head?.map isSeparator).getD false then
      .error (.builder ("invalid queue name " ++ debug queue ++
        ": must not contain consecutive separators"))
    else checkQueueBytes debug queue rest

def validateQueueName (debug : String → String) (queue : String) : Except OjsError Unit :=
  let bytes := utf8Bytes queue
  if queue.isEmpty then .error (.builder "queue name must not be empty")
  else if maxQueueLength < queue.utf8ByteSize then
    .error (.builder ("queue name must not exceed " ++ toString maxQueueLength ++
      " characters, got " ++ toString queue.utf8ByteSize))
  else if !(bytes.head?.map isQueueAlnum).getD false then
    .error (.builder ("invalid queue name " ++ debug queue ++
      ": must start with lowercase alphanumeric"))
  else if !(bytes.getLast?.map isQueueAlnum).getD false then
    .error (.builder ("invalid queue name " ++ debug queue ++
      ": must end with lowercase alphanumeric"))
  else checkQueueBytes debug queue bytes

structure EnqueueRequest where
  jobType : String
  args : Value
  metadata : Option MetaMap
  schema : Option String
  options : Option EnqueueOptionsWire

structure BatchEnqueueRequest where
  jobs : List EnqueueRequest

/-- `EnqueueBuilder`, without its client. -/
structure EnqueueBuilder where
  jobType : String
  args : Value
  options : List EnqueueOption
  metadata : Option MetaMap
  schema : Option String

structure JobRequest where
  jobType : String
  args : Value
  metadata : Option MetaMap
  options : List EnqueueOption

/-- The end of a call that is not an `Ok`. -/
inductive Stop
  | error (e : OjsError)
  | panicked (panic : ChronoPanic)

/-- A call of the client: what it hands to the transport, and its end. -/
structure ClientCall (Body Reply : Type) where
  posted : Option (String × Body)
  result : Except Stop Reply

/-- `Transport::request` for a post. Turning a body into JSON cannot fail for the bodies
of this client. -/
abbrev Transport (Body : Type) := String → Body → Except OjsError (Option Value)

def deserializeResponse {Reply : Type} (decode : Decoder Reply) :
    Option Value → Except OjsError Reply
  | some v =>
    match decode v with
    | .ok reply => .ok reply
    | .error e => .error (.serialization ("failed to parse response: " ++ e))
  | none => .error (.serialization "empty response body")

def transportPost {Body Reply : Type} (transport : Transport Body) (decode : Decoder Reply)
    (path : String) (body : Body) : ClientCall Body Reply where
  posted := some (path, body)
  result :=
    match (transport path body).bind (deserializeResponse decode) with
    | .ok reply => .ok reply
    | .error e => .error (.error e)

/-- A call that ends before anything is handed to the transport. -/
def ClientCall.stopped {Body Reply : Type} (stop : Stop) : ClientCall Body Reply where
  posted := none
  result := .error stop

/-- The request of `EnqueueBuilder::send`, after its checks. -/
def EnqueueBuilder.request (chrono : Chrono) (clock : Clock) (b : EnqueueBuilder) :
    Except ChronoPanic EnqueueRequest := do
  let options ← resolveOptions chrono clock b.options
  return {
    jobType := b.jobType
    args := normalizeArgs b.args
    metadata := b.metadata.or (extractMeta b.options)
    schema := b.schema
    options }

def checkQueueOption (debug : String → String) : EnqueueOption → Except OjsError Unit
  | .queue q => validateQueueName debug q
  | _ => .ok ()

/-- The checks of `EnqueueBuilder::send`: the job type, then every queue option. -/
def EnqueueBuilder.validate (debug : String → String) (b : EnqueueBuilder) :
    Except OjsError Unit := do
  validateJobType debug b.jobType
  forM b.options (checkQueueOption debug)

def EnqueueBuilder.send {Reply : Type} (debug : String → String) (chrono : Chrono) (clock : Clock)
    (transport : Transport EnqueueRequest) (decode : Decoder Reply) (b : EnqueueBuilder) :
    ClientCall EnqueueRequest Reply :=
  match b.validate debug with
  | .error e => .stopped (.error e)
  | .ok () =>
    match b.request chrono clock with
    | .error panic => .stopped (.panicked panic)
    | .ok request => transportPost transport decode "/jobs" request

/-- One wire request of `Client::enqueue_batch`. -/
def JobRequest.request (chrono : Chrono) (clock : Clock) (r : JobRequest) :
    Except ChronoPanic EnqueueRequest := do
  let options ← resolveOptions chrono clock r.options
  return {
    jobType := r.jobType
    args := normalizeArgs r.args
    metadata := r.metadata
    schema := none
    options }

/-- The wire requests of `Client::enqueue_batch`, each with the clock of its options. -/
def batchRequests (chrono : Chrono) (clocks : Nat → Clock) (requests : List JobRequest) :
    Except ChronoPanic (List EnqueueRequest) :=
  requests.zipIdx.mapM (fun (r, i) => r.request chrono (clocks i))

def enqueueBatch {Reply : Type} (chrono : Chrono) (clocks : Nat → Clock)
    (transport : Transport BatchEnqueueRequest) (decode : Decoder Reply)
    (requests : List JobRequest) : ClientCall BatchEnqueueRequest Reply :=
  match batchRequests chrono clocks requests with
  | .error panic => .stopped (.panicked panic)
  | .ok jobs => transportPost transport decode "/jobs/batch" { jobs }

def createWorkflow {Reply : Type} (chrono : Chrono) (clocks : Nat → Clock)
    (transport : Transport WorkflowRequest) (decode : Decoder Reply) (d : WorkflowDefinition) :
    ClientCall WorkflowRequest Reply :=
  match d.toWire chrono clocks with
  | .error panic => .stopped (.panicked panic)
  | .ok request => transportPost transport decode "/workflows" request

end OjsSdk
