import OjsSdk.ClientPaths
import OjsSdk.RequestBodies
import OjsSdk.HttpRetries
import OjsSdk.RequestIds

namespace OjsSdk

open Serde
open UrlTarget (slash questionMark numberSign joined isDots)

/-- `transport_post` and `transport_post_no_response`, with the body as JSON. -/
def transportPostBody (path : String) (body : Value) : TransportCall := ⟨.post, path, some body, false⟩

def transportGetRaw (path : String) : TransportCall := ⟨.get, path, none, true⟩

def listQueues : TransportCall := transportGet "/queues"

def listCronJobs : TransportCall := transportGet "/cron"

def listSchemas : TransportCall := transportGet "/schemas"

def health : TransportCall := transportGet "/health"

def manifest : TransportCall := transportGetRaw "/ojs/manifest"

def listDeadLetterJobs (urlEncode : String → String) (queue : String) (limit offset : UInt64) :
    TransportCall :=
  transportGet ("/dead-letter?queue=" ++ urlEncode queue ++ "&limit=" ++
    toString limit.toNat ++ "&offset=" ++ toString offset.toNat)

def registerCronJob (req : CronJobRequest) : TransportCall :=
  transportPostBody "/cron" (CronJobRequest.wire.encode req)

def registerSchema (req : RegisterSchemaRequest) : TransportCall :=
  transportPostBody "/schemas" (RegisterSchemaRequest.wire.encode req)

/-- What the client and the worker ask of a server. -/
inductive Operation
  | identified (operation : IdentifierCall) (identifier : String)
  | enqueue (req : EnqueueRequest)
  | enqueueBatch (req : BatchEnqueueRequest)
  | createWorkflow (req : WorkflowRequest)
  | listQueues
  | listDeadLetterJobs (queue : String) (limit offset : UInt64)
  | listCronJobs
  | registerCronJob (req : CronJobRequest)
  | listSchemas
  | registerSchema (req : RegisterSchemaRequest)
  | health
  | manifest
  | fetch (req : FetchRequest)
  | ack (req : AckRequest)
  | nack (req : NackRequest)
  | heartbeat (req : HeartbeatRequest)

namespace Operation

def call (urlEncode : String → String) (sc : Scalars) : Operation → TransportCall
  | identified operation identifier => operation.call urlEncode identifier
  | enqueue req => transportPostBody "/jobs" ((EnqueueRequest.wire sc).encode req)
  | enqueueBatch req => transportPostBody "/jobs/batch" ((BatchEnqueueRequest.wire sc).encode req)
  | createWorkflow req => transportPostBody "/workflows" ((WorkflowRequest.wire sc).encode req)
  | listQueues => OjsSdk.listQueues
  | listDeadLetterJobs queue limit offset =>
    OjsSdk.listDeadLetterJobs urlEncode queue limit offset
  | listCronJobs => OjsSdk.listCronJobs
  | registerCronJob req => OjsSdk.registerCronJob req
  | listSchemas => OjsSdk.listSchemas
  | registerSchema req => OjsSdk.registerSchema req
  | health => OjsSdk.health
  | manifest => OjsSdk.manifest
  | fetch req => transportPostBody "/workers/fetch" (FetchRequest.wire.encode req)
  | ack req => transportPostBody "/workers/ack" (AckRequest.wire.encode req)
  | nack req => transportPostBody "/workers/nack" (NackRequest.wire.encode req)
  | heartbeat req => transportPostBody "/workers/heartbeat" (HeartbeatRequest.wire.encode req)

/-- `Transport::request` of the HTTP transport for the operation. -/
def exchange (urlEncode : String → String) (sc : Scalars) (t : HttpTransport) (json : SerdeJson)
    (overflowChecks : Bool) (env : Nat → Attempt) (op : Operation) : Exchange :=
  let call := op.call urlEncode sc
  t.request json overflowChecks call.method call.path call.body call.rawPath env

/-- The arguments are such that nothing of them is lost: an identifier gets through, and the values
of the body are read back. -/
def Readable (sc : Scalars) : Operation → Prop
  | identified operation identifier => operation.Keeps identifier
  | enqueue req => ∀ o ∈ req.options, o.Exact sc
  | enqueueBatch req => ∀ job ∈ req.jobs, ∀ o ∈ job.options, o.Exact sc
  | createWorkflow req =>
    (∀ step ∈ req.steps, ∀ o ∈ step.options, o.Exact sc) ∧ ∀ o ∈ req.options, o.Exact sc
  | registerCronJob req => req.args ≠ some .null ∧ req.options ≠ some .null
  | fetch req => ∀ n ∈ req.count, n < 2 ^ 32
  | ack req => req.result ≠ some .null
  | _ => True

end Operation

def readText (bytes : List UInt8) : Option String := String.fromUTF8? ⟨bytes.toArray⟩

def readTarget (target : List UInt8) : Option (List String × List (String × String)) := do
  let parts := UrlTarget.parse target
  let segments ← parts.segments.mapM readText
  let query ← parts.query.mapM (fun (key, value) => do return (← readText key, ← readText value))
  return (segments, query)

/-- A `u64` in decimal. -/
def readU64 (s : String) : Option UInt64 :=
  if s.toList ≠ [] ∧ s.toList.all Char.isDigit = true ∧
      Nat.ofDigitChars 10 s.toList 0 < 2 ^ 64 then
    some (UInt64.ofNat (Nat.ofDigitChars 10 s.toList 0))
  else none

/-- The routes under the base path. -/
def route (sc : Scalars) (method : Method) (segments : List String)
    (query : List (String × String)) (body : Option Value) : Option Operation :=
  match method, segments, query, body with
  | .get, ["jobs", id], [], none => some (.identified .getJob id)
  | .delete, ["jobs", id], [], none => some (.identified .cancelJob id)
  | .get, ["workflows", id], [], none => some (.identified .getWorkflow id)
  | .delete, ["workflows", id], [], none => some (.identified .cancelWorkflow id)
  | .post, ["dead-letter", id, "retry"], [], none =>
    some (.identified .retryDeadLetterJob id)
  | .delete, ["dead-letter", id], [], none => some (.identified .discardDeadLetterJob id)
  | .get, ["queues", name, "stats"], [], none => some (.identified .getQueueStats name)
  | .post, ["queues", name, "pause"], [], none => some (.identified .pauseQueue name)
  | .post, ["queues", name, "resume"], [], none => some (.identified .resumeQueue name)
  | .delete, ["cron", name], [], none => some (.identified .unregisterCronJob name)
  | .get, ["schemas", uri], [], none => some (.identified .getSchema uri)
  | .delete, ["schemas", uri], [], none => some (.identified .deleteSchema uri)
  | .get, ["queues"], [], none => some .listQueues
  | .get, ["cron"], [], none => some .listCronJobs
  | .get, ["schemas"], [], none => some .listSchemas
  | .get, ["health"], [], none => some .health
  | .get, ["dead-letter"], [("queue", queue), ("limit", limit), ("offset", offset)], none => do
    return .listDeadLetterJobs queue (← readU64 limit) (← readU64 offset)
  | .post, ["jobs"], [], some body => ((EnqueueRequest.wire sc).decode body).map .enqueue
  | .post, ["jobs", "batch"], [], some body =>
    ((BatchEnqueueRequest.wire sc).decode body).map .enqueueBatch
  | .post, ["workflows"], [], some body =>
    ((WorkflowRequest.wire sc).decode body).map .createWorkflow
  | .post, ["cron"], [], some body => (CronJobRequest.wire.decode body).map .registerCronJob
  | .post, ["schemas"], [], some body =>
    (RegisterSchemaRequest.wire.decode body).map .registerSchema
  | .post, ["workers", "fetch"], [], some body => (FetchRequest.wire.decode body).map .fetch
  | .post, ["workers", "ack"], [], some body => (AckRequest.wire.decode body).map .ack
  | .post, ["workers", "nack"], [], some body => (NackRequest.wire.decode body).map .nack
  | .post, ["workers", "heartbeat"], [], some body =>
    (HeartbeatRequest.wire.decode body).map .heartbeat
  | _, _, _, _ => none

/-- The only route outside of the base path. -/
def rawRoute (method : Method) (segments : List String) (query : List (String × String))
    (body : Option Value) : Option Operation :=
  match method, segments, query, body with
  | .get, ["ojs", "manifest"], [], none => some .manifest
  | _, _, _, _ => none

def readBody (json : SerdeJson) : Option (List UInt8) → Option (Option Value)
  | none => some none
  | some bytes => (json.fromSlice bytes).toOption.map some

/-- What a server makes of a request. It finds the routes under the segments of its base URL, in the
target that the client sends for the URL. -/
def readRequest (sc : Scalars) (json : SerdeJson) (sends : List UInt8 → List UInt8)
    (mount : List String) (req : HttpRequest) : Option Operation := do
  let (segments, query) ← readTarget (sends (utf8Bytes req.url))
  let parts ← segments.dropPrefix? ("" :: mount)
  let body ← readBody json req.body
  match parts with
  | "ojs" :: "v1" :: parts => route sc req.method parts query body
  | _ => rawRoute req.method parts query body

/-- The parts of the call under its base path are those of the operation. -/
def TransportCall.ReadAs (sc : Scalars) (call : TransportCall) (op : Operation) : Prop :=
  ∃ parts query, Addresses call.path parts query ∧
    (if call.rawPath then rawRoute call.method parts query call.body
      else route sc call.method parts query call.body) = some op

theorem readText_utf8Bytes (s : String) : readText (utf8Bytes s) = some s := by
  have same : (⟨(utf8Bytes s).toArray⟩ : ByteArray) = s.toByteArray := by
    simp [utf8Bytes]
  rw [readText, same, String.fromUTF8?, dif_pos s.isValidUTF8]
  rfl

theorem readTexts_utf8Bytes (texts : List String) :
    (texts.map utf8Bytes).mapM readText = some texts := by
  induction texts with
  | nil => rfl
  | cons s texts ih =>
    rw [List.map_cons, List.mapM_cons, readText_utf8Bytes, ih]
    rfl

theorem alphanumeric_toString {n : Nat} {b : UInt8} (mem : b ∈ utf8Bytes (toString n)) :
    PercentCoding.isAlphanumeric b = true := by
  rw [utf8Bytes, StdText.utf8_toList, Nat.toString_eq_repr, Nat.toList_repr] at mem
  obtain ⟨c, digit, inside⟩ := List.mem_flatMap.mp mem
  have decimal := Nat.isDigit_of_mem_toDigits (by decide) (by decide) digit
  simp only [Char.isDigit, Bool.and_eq_true, decide_eq_true_eq, UInt32.le_iff_toNat_le] at decimal
  have low : (48 : Nat) ≤ c.toNat := decimal.1
  have high : c.toNat ≤ 57 := decimal.2
  rw [StdText.utf8EncodeChar_ascii (by omega), List.mem_singleton] at inside
  have code : b.toNat = c.toNat := by
    rw [inside, UInt8.toNat_ofNat']
    omega
  have first : (0x30 : UInt8).toNat = 48 := rfl
  have last : (0x39 : UInt8).toNat = 57 := rfl
  simp only [PercentCoding.isAlphanumeric, Bool.or_eq_true, Bool.and_eq_true, decide_eq_true_eq,
    UInt8.le_iff_toNat_le]
  omega

theorem decode_toString (n : Nat) :
    PercentCoding.decode (utf8Bytes (toString n)) = utf8Bytes (toString n) := by
  refine (PercentCoding.decode_eq_self_iff _).mpr ?_
  rintro ⟨before, b, c, after, whole, -⟩
  have sign : PercentCoding.percent ∈ utf8Bytes (toString n) := by
    rw [whole]
    simp
  exact absurd (alphanumeric_toString sign) (by decide)

theorem readU64_toString (n : UInt64) : readU64 (toString n.toNat) = some n := by
  have digits : ∀ c ∈ Nat.toDigits 10 n.toNat, c.isDigit = true :=
    fun c mem => Nat.isDigit_of_mem_toDigits (by decide) (by decide) mem
  have number : Nat.ofDigitChars 10 (Nat.toDigits 10 n.toNat) 0 = n.toNat :=
    Nat.ofDigitChars_toDigits (by decide) (by decide)
  have small : n.toNat < 2 ^ 64 := n.toNat_lt
  unfold readU64
  rw [Nat.toString_eq_repr, Nat.toList_repr, number, if_pos, UInt64.ofNat_toNat]
  exact ⟨Nat.toDigits_ne_nil, List.all_eq_true.mpr digits, small⟩

theorem readTarget_of_parse {target : List UInt8} {segments : List String}
    {query : List (String × String)} (parsed : UrlTarget.parse target =
      { segments := segments.map utf8Bytes
        query := query.map (fun (key, value) => (utf8Bytes key, utf8Bytes value)) }) :
    readTarget target = some (segments, query) := by
  have pairs : ∀ query : List (String × String),
      (query.map (fun (key, value) => (utf8Bytes key, utf8Bytes value))).mapM
        (fun (key, value) => do return (← readText key, ← readText value)) = some query := by
    intro query
    induction query with
    | nil => rfl
    | cons pair query ih =>
      obtain ⟨key, value⟩ := pair
      rw [List.map_cons, List.mapM_cons, ih]
      simp only [readText_utf8Bytes]
      rfl
  unfold readTarget
  simp only [parsed, readTexts_utf8Bytes, pairs]
  rfl

/-- What a server is sent for a path that is put after its base URL. -/
theorem ServedAt.readTarget {sends : List UInt8 → List UInt8} {mount : List String}
    {baseUrl : String} (served : ServedAt sends mount baseUrl) {path : String} {parts : List String}
    {query : List (String × String)} (addresses : Addresses path parts query)
    (slashed : (utf8Bytes path).head? = some slash) :
    OjsSdk.readTarget (sends (utf8Bytes (baseUrl ++ path))) =
      some ("" :: (mount ++ parts), query) := by
  obtain ⟨e, sent⟩ := served.sent
  refine readTarget_of_parse ?_
  rw [sent path slashed, addresses e _ served.fixed]
  rfl

theorem dropPrefix_mount (mount parts : List String) :
    ("" :: (mount ++ parts)).dropPrefix? ("" :: mount) = some parts :=
  List.dropPrefix?_append_of_beq parts (beq_self_eq_true ("" :: mount))

/-- A path of fixed parts. -/
theorem addresses_fixed {path : String} {parts : List String}
    (whole : utf8Bytes path = joined (parts.map utf8Bytes)) (fixed : ∀ part ∈ parts, Fixed part) :
    Addresses path parts [] := by
  intro e mount outer
  have all : ∀ part ∈ mount ++ parts, Fixed part := fun part mem =>
    (List.mem_append.mp mem).elim (outer part) (fixed part)
  obtain ⟨solid, plain, decoded⟩ := fixed_map all
  have visible := UrlTarget.forall_mem_joined (P := fun b => UrlTarget.isBlank b = false) (by decide)
    fun part mem => (fixed_after all part mem).2.2
  have split : (mount ++ parts).map utf8Bytes = mount.map utf8Bytes ++ parts.map utf8Bytes :=
    List.map_append
  rw [whole, ← UrlTarget.joined_append, ← split, UrlTarget.parse_normalize_joined solid e plain
    (fun b mem => visible b (List.mem_of_getLast? mem)), decoded]
  rfl

section

variable {urlEncode : String → String}
  (documented : ∀ s, utf8Bytes (urlEncode s) = PercentCoding.encode (utf8Bytes s))

include documented

theorem decode_urlEncode (s : String) :
    PercentCoding.decode (utf8Bytes (urlEncode s)) = utf8Bytes s := by
  rw [documented, PercentCoding.decode_encode]

/-- The three values of the query are read back. -/
theorem addresses_listDeadLetterJobs (queue : String) (limit offset : UInt64) :
    Addresses (listDeadLetterJobs urlEncode queue limit offset).path ["dead-letter"]
      [("queue", queue), ("limit", toString limit.toNat), ("offset", toString offset.toNat)] := by
  let first := utf8Bytes "queue" ++ UrlTarget.equalsSign :: utf8Bytes (urlEncode queue)
  let second := utf8Bytes "limit" ++ UrlTarget.equalsSign :: utf8Bytes (toString limit.toNat)
  let third := utf8Bytes "offset" ++ UrlTarget.equalsSign :: utf8Bytes (toString offset.toNat)
  let query := first ++ UrlTarget.ampersand :: (second ++ UrlTarget.ampersand :: third)
  have bytes : utf8Bytes (listDeadLetterJobs urlEncode queue limit offset).path =
      joined [utf8Bytes "dead-letter"] ++ questionMark :: query := by
    show utf8Bytes ("/dead-letter?queue=" ++ urlEncode queue ++ "&limit=" ++
      toString limit.toNat ++ "&offset=" ++ toString offset.toNat) = _
    have opening : utf8Bytes "/dead-letter?queue=" =
        joined [utf8Bytes "dead-letter"] ++
          questionMark :: (utf8Bytes "queue" ++ [UrlTarget.equalsSign]) := by decide
    have limits : utf8Bytes "&limit=" =
        UrlTarget.ampersand :: (utf8Bytes "limit" ++ [UrlTarget.equalsSign]) := by decide
    have offsets : utf8Bytes "&offset=" =
        UrlTarget.ampersand :: (utf8Bytes "offset" ++ [UrlTarget.equalsSign]) := by decide
    simp only [utf8Bytes_append, opening, limits, offsets, query, first, second, third,
      List.append_assoc, List.cons_append, List.nil_append]
  have shape : ∀ (key : String) (value : List UInt8),
      (utf8Bytes key).all PercentCoding.isAlphanumeric = true →
      (∀ b ∈ value, PercentCoding.isAlphanumeric b = true ∨ b = PercentCoding.percent) →
      ∀ b ∈ utf8Bytes key ++ UrlTarget.equalsSign :: value, PercentCoding.isAlphanumeric b = true ∨
        b = PercentCoding.percent ∨ b = UrlTarget.equalsSign := by
    intro key value plain simple b mem
    rcases List.mem_append.mp mem with inside | rest
    · exact .inl (List.all_eq_true.mp plain b inside)
    · rcases List.mem_cons.mp rest with rfl | inside
      · exact .inr (.inr rfl)
      · exact (simple b inside).imp_right .inl
  have number : ∀ (n : Nat), ∀ b ∈ utf8Bytes (toString n), PercentCoding.isAlphanumeric b = true ∨
      b = PercentCoding.percent := fun n b mem => .inl (alphanumeric_toString mem)
  have name : ∀ b ∈ utf8Bytes (urlEncode queue), PercentCoding.isAlphanumeric b = true ∨
      b = PercentCoding.percent := fun b mem => PercentCoding.mem_encode (documented queue ▸ mem)
  have simple := shape "queue" _ (by decide) name
  have simple' := shape "limit" _ (by decide) (number limit.toNat)
  have simple'' := shape "offset" _ (by decide) (number offset.toNat)
  have single : ∀ piece : List UInt8, (∀ b ∈ piece, PercentCoding.isAlphanumeric b = true ∨
      b = PercentCoding.percent ∨ b = UrlTarget.equalsSign) → UrlTarget.ampersand ∉ piece :=
    fun piece each mem => absurd (each _ mem) (by decide)
  have whole : ∀ b ∈ query, PercentCoding.isAlphanumeric b = true ∨ b = PercentCoding.percent ∨
      b = UrlTarget.ampersand ∨ b = UrlTarget.equalsSign := by
    have wider : ∀ {b : UInt8}, PercentCoding.isAlphanumeric b = true ∨ b = PercentCoding.percent ∨
        b = UrlTarget.equalsSign → PercentCoding.isAlphanumeric b = true ∨
          b = PercentCoding.percent ∨ b = UrlTarget.ampersand ∨ b = UrlTarget.equalsSign :=
      fun piece => piece.imp_right (.imp_right .inr)
    intro b mem
    rcases List.mem_append.mp mem with inside | rest
    · exact wider (simple b inside)
    · rcases List.mem_cons.mp rest with rfl | rest
      · exact .inr (.inr (.inl rfl))
      · rcases List.mem_append.mp rest with inside | rest
        · exact wider (simple' b inside)
        · rcases List.mem_cons.mp rest with rfl | inside
          · exact .inr (.inr (.inl rfl))
          · exact wider (simple'' b inside)
  have keys : PercentCoding.decode (utf8Bytes "queue") = utf8Bytes "queue" ∧
      PercentCoding.decode (utf8Bytes "limit") = utf8Bytes "limit" ∧
      PercentCoding.decode (utf8Bytes "offset") = utf8Bytes "offset" := by decide
  have pairs : UrlTarget.pairs query =
      [(utf8Bytes "queue", utf8Bytes queue), (utf8Bytes "limit", utf8Bytes (toString limit.toNat)),
        (utf8Bytes "offset", utf8Bytes (toString offset.toNat))] := by
    rw [UrlTarget.pairs_append (single _ simple), UrlTarget.pairs_append (single _ simple'),
      UrlTarget.pairs_single (single _ simple''), UrlTarget.pair_eq (by decide),
      UrlTarget.pair_eq (by decide), UrlTarget.pair_eq (by decide), decode_urlEncode documented, decode_toString, decode_toString, keys.1, keys.2.1, keys.2.2]
  intro e mount outer
  have fixed : Fixed "dead-letter" := by decide
  have all : ∀ part ∈ mount ++ ["dead-letter"], Fixed part := fun part mem =>
    (List.mem_append.mp mem).elim (outer part) (fun here => List.mem_singleton.mp here ▸ fixed)
  obtain ⟨solid, plain, decoded⟩ := fixed_map all
  have split : (mount ++ ["dead-letter"]).map utf8Bytes =
      mount.map utf8Bytes ++ [utf8Bytes "dead-letter"] := List.map_append
  rw [bytes, ← List.append_assoc, ← UrlTarget.joined_append, ← split,
    UrlTarget.parse_normalize_query solid e plain whole, decoded, pairs]
  rfl

end

/-- The requests with a body, by how it is decoded. -/
theorem post_readAs {sc : Scalars} {Body : Type} {w : Wire Body} {body : Body}
    {make : Body → Operation} {path : String} {parts : List String}
    (whole : utf8Bytes path = joined (parts.map utf8Bytes)) (fixed : ∀ part ∈ parts, Fixed part)
    (routed : ∀ v, route sc .post parts [] (some v) = (w.decode v).map make) (kept : w.Keeps body) :
    (transportPostBody path (w.encode body)).ReadAs sc (make body) := by
  have decoded : w.decode (w.encode body) = some body := kept
  have found := routed (w.encode body)
  rw [decoded] at found
  exact ⟨parts, [], addresses_fixed whole fixed, found⟩

theorem route_deadLetter (sc : Scalars) {queue limitText offsetText : String}
    {limit offset : UInt64} (limits : readU64 limitText = some limit)
    (offsets : readU64 offsetText = some offset) :
    route sc .get ["dead-letter"]
        [("queue", queue), ("limit", limitText), ("offset", offsetText)] none =
      some (.listDeadLetterJobs queue limit offset) := by
  have computed : route sc .get ["dead-letter"]
      [("queue", queue), ("limit", limitText), ("offset", offsetText)] none =
        (readU64 limitText).bind (fun limit =>
          (readU64 offsetText).bind (fun offset =>
            some (.listDeadLetterJobs queue limit offset))) := rfl
  rw [computed, limits, offsets]
  rfl

/-- A server finds the operation in its call. -/
theorem Operation.readAs_call {urlEncode : String → String}
    (documented : ∀ s, utf8Bytes (urlEncode s) = PercentCoding.encode (utf8Bytes s))
    (sc : Scalars) {op : Operation} (readable : op.Readable sc) :
    (op.call urlEncode sc).ReadAs sc op := by
  cases op with
  | identified operation identifier =>
    exact ⟨_, _, IdentifierCall.Keeps.addresses documented readable, by cases operation <;> rfl⟩
  | listDeadLetterJobs queue limit offset =>
    exact ⟨_, _, addresses_listDeadLetterJobs documented queue limit offset,
      route_deadLetter sc (readU64_toString limit) (readU64_toString offset)⟩
  | enqueue req =>
    have parts : utf8Bytes "/jobs" = joined (["jobs"].map utf8Bytes) := by decide
    exact post_readAs parts (by decide) (fun _ => rfl) (EnqueueRequest.wire_keeps readable)
  | enqueueBatch req =>
    have parts : utf8Bytes "/jobs/batch" = joined (["jobs", "batch"].map utf8Bytes) := by decide
    exact post_readAs parts (by decide) (fun _ => rfl) (BatchEnqueueRequest.wire_keeps readable)
  | createWorkflow req =>
    have parts : utf8Bytes "/workflows" = joined (["workflows"].map utf8Bytes) := by decide
    exact post_readAs parts (by decide) (fun _ => rfl)
      (WorkflowRequest.wire_keeps readable.1 readable.2)
  | registerCronJob req =>
    have parts : utf8Bytes "/cron" = joined (["cron"].map utf8Bytes) := by decide
    exact post_readAs parts (by decide) (fun _ => rfl)
      (CronJobRequest.wire_keeps readable.1 readable.2)
  | registerSchema req =>
    have parts : utf8Bytes "/schemas" = joined (["schemas"].map utf8Bytes) := by decide
    exact post_readAs parts (by decide) (fun _ => rfl) req.wire_keeps
  | fetch req =>
    have parts : utf8Bytes "/workers/fetch" = joined (["workers", "fetch"].map utf8Bytes) := by
      decide
    exact post_readAs parts (by decide) (fun _ => rfl) (FetchRequest.wire_keeps readable)
  | ack req =>
    have parts : utf8Bytes "/workers/ack" = joined (["workers", "ack"].map utf8Bytes) := by decide
    exact post_readAs parts (by decide) (fun _ => rfl) (AckRequest.wire_keeps readable)
  | nack req =>
    have parts : utf8Bytes "/workers/nack" = joined (["workers", "nack"].map utf8Bytes) := by
      decide
    exact post_readAs parts (by decide) (fun _ => rfl) req.wire_keeps
  | heartbeat req =>
    have parts : utf8Bytes "/workers/heartbeat" =
        joined (["workers", "heartbeat"].map utf8Bytes) := by decide
    exact post_readAs parts (by decide) (fun _ => rfl) req.wire_keeps
  | listQueues =>
    have parts : utf8Bytes "/queues" = joined (["queues"].map utf8Bytes) := by decide
    exact ⟨["queues"], [], addresses_fixed parts (by decide), rfl⟩
  | listCronJobs =>
    have parts : utf8Bytes "/cron" = joined (["cron"].map utf8Bytes) := by decide
    exact ⟨["cron"], [], addresses_fixed parts (by decide), rfl⟩
  | listSchemas =>
    have parts : utf8Bytes "/schemas" = joined (["schemas"].map utf8Bytes) := by decide
    exact ⟨["schemas"], [], addresses_fixed parts (by decide), rfl⟩
  | health =>
    have parts : utf8Bytes "/health" = joined (["health"].map utf8Bytes) := by decide
    exact ⟨["health"], [], addresses_fixed parts (by decide), rfl⟩
  | manifest =>
    have parts : utf8Bytes "/ojs/manifest" = joined (["ojs", "manifest"].map utf8Bytes) := by decide
    exact ⟨["ojs", "manifest"], [], addresses_fixed parts (by decide), rfl⟩

theorem rawRoute_parts {method : Method} {parts : List String} {query : List (String × String)}
    {body : Option Value} {op : Operation} (routed : rawRoute method parts query body = some op) :
    parts = ["ojs", "manifest"] := by
  unfold rawRoute at routed
  split at routed
  next => rfl
  next => cases routed

namespace HttpTransport

/-- What a built request has of its parts. -/
theorem buildRequest_parts {json : SerdeJson} {method : Method} {url : String} {body : Option Value}
    {req : HttpRequest} (built : buildRequest json method url body = .ok req)
    (carried : method = .post ∨ body = none) :
    req.method = method ∧ req.url = url ∧
      ((body = none ∧ req.body = none) ∨
        ∃ value bytes, body = some value ∧ json.toVec value = .ok bytes ∧
          req.body = some bytes) := by
  cases body with
  | none =>
    have plain : buildRequest json method url none =
        .ok { method, url, headers := [], body := none } := by
      cases method <;> rfl
    rw [plain] at built
    cases built
    exact ⟨rfl, rfl, .inl ⟨rfl, rfl⟩⟩
  | some value =>
    have post : method = .post := carried.resolve_right (by simp)
    subst post
    rcases buildRequest_post json url value with ⟨e, e', -, failed⟩ | ⟨bytes, written, whole⟩
    · rw [failed] at built
      cases built
    · rw [whole] at built
      cases built
      exact ⟨rfl, rfl, .inr ⟨value, bytes, rfl, written, rfl⟩⟩

end HttpTransport

/-- A request is read as the operation that its parts are read as. -/
theorem readRequest_applyHeaders {sc : Scalars} {json : SerdeJson}
    {sends : List UInt8 → List UInt8} {mount : List String} {t : HttpTransport}
    (served : ServedAt sends mount t.baseUrl) (requestId : String) {call : TransportCall}
    {req : HttpRequest} {op : Operation}
    (lossless : ∀ v ∈ call.body, ∀ bytes, json.toVec v = .ok bytes → json.fromSlice bytes = .ok v)
    (built : HttpTransport.buildRequest json call.method
      (if call.rawPath then t.urlRaw call.path else t.url call.path) call.body = .ok req)
    (carried : call.method = .post ∨ call.body = none)
    (slashed : (utf8Bytes call.path).head? = some slash) (readAs : call.ReadAs sc op) :
    readRequest sc json sends mount (t.applyHeaders requestId req) = some op := by
  obtain ⟨method, path, body, rawPath⟩ := call
  obtain ⟨parts, query, addresses, routed⟩ := readAs
  obtain ⟨same, url, content⟩ := HttpTransport.buildRequest_parts built carried
  have read : readBody json req.body = some body := by
    rcases content with ⟨rfl, none⟩ | ⟨value, bytes, rfl, written, some⟩
    · rw [none]
      rfl
    · rw [some, readBody, lossless value rfl bytes written]
      rfl
  unfold readRequest
  show (readTarget (sends (utf8Bytes req.url))).bind _ = _
  cases rawPath with
  | false =>
    have slashed' : (utf8Bytes (basePath ++ path)).head? = some slash := by
      rw [utf8Bytes_append]
      rfl
    have target : readTarget (sends (utf8Bytes req.url)) =
        some ("" :: (mount ++ ("ojs" :: "v1" :: parts)), query) := by
      rw [url]
      show readTarget (sends (utf8Bytes (t.url path))) = _
      rw [HttpTransport.url, String.append_assoc, served.readTarget addresses.base slashed']
    rw [target, Option.bind_some]
    show (List.dropPrefix? _ _).bind _ = _
    rw [dropPrefix_mount, Option.bind_some]
    show (readBody json req.body).bind _ = _
    rw [read, Option.bind_some]
    show route sc req.method parts query body = _
    rw [same]
    exact routed
  | true =>
    have target : readTarget (sends (utf8Bytes req.url)) = some ("" :: (mount ++ parts), query) := by
      rw [url]
      exact served.readTarget addresses slashed
    rw [target, Option.bind_some]
    show (List.dropPrefix? _ _).bind _ = _
    rw [dropPrefix_mount, Option.bind_some]
    have manifest := rawRoute_parts routed
    subst manifest
    show (readBody json req.body).bind _ = _
    rw [read, Option.bind_some]
    show rawRoute req.method ["ojs", "manifest"] query body = _
    rw [same]
    exact routed

namespace Operation

variable {urlEncode : String → String} {sc : Scalars}

theorem call_carried (op : Operation) :
    (op.call urlEncode sc).method = .post ∨ (op.call urlEncode sc).body = none := by
  cases op with
  | identified operation identifier => exact .inr (by cases operation <;> rfl)
  | listQueues | listDeadLetterJobs | listCronJobs | listSchemas | health | manifest =>
    exact .inr rfl
  | _ => exact .inl rfl

theorem call_slashed (op : Operation) :
    (utf8Bytes (op.call urlEncode sc).path).head? = some slash := by
  cases op with
  | identified operation identifier => exact operation.path_slashed identifier
  | listDeadLetterJobs queue limit offset =>
    show (utf8Bytes ("/dead-letter?queue=" ++ urlEncode queue ++ "&limit=" ++
      toString limit.toNat ++ "&offset=" ++ toString offset.toNat)).head? = _
    simp only [utf8Bytes_append, List.append_assoc]
    rfl
  | _ => rfl

theorem sent_reads (documented : ∀ s, utf8Bytes (urlEncode s) = PercentCoding.encode (utf8Bytes s))
    {sends : List UInt8 → List UInt8} {mount : List String} {t : HttpTransport}
    (served : ServedAt sends mount t.baseUrl) (sc : Scalars) (json : SerdeJson)
    (overflowChecks : Bool) (env : Nat → Attempt) {op : Operation} (readable : op.Readable sc)
    (lossless : ∀ v ∈ (op.call urlEncode sc).body, ∀ bytes, json.toVec v = .ok bytes →
      json.fromSlice bytes = .ok v) {req : HttpRequest}
    (mem : req ∈ (op.exchange urlEncode sc t json overflowChecks env).sent) :
    readRequest sc json sends mount req = some op := by
  unfold exchange HttpTransport.request at mem
  cases attempts : t.maxAttempts overflowChecks with
  | error panic =>
    simp only [attempts] at mem
    cases mem
  | ok limit =>
    simp only [attempts] at mem
    cases built : HttpTransport.buildRequest json (op.call urlEncode sc).method
        (if (op.call urlEncode sc).rawPath then t.urlRaw (op.call urlEncode sc).path
          else t.url (op.call urlEncode sc).path) (op.call urlEncode sc).body with
    | error e =>
      rw [HttpTransport.attempts_sent_of_not_built built] at mem
      cases mem
    | ok base =>
      obtain ⟨n, -, -, sent⟩ := HttpTransport.attempts_sent t env limit built limit 0
      rw [sent] at mem
      obtain ⟨k, -, rfl⟩ := List.mem_map.mp mem
      exact readRequest_applyHeaders served _ lossless built op.call_carried op.call_slashed
        (op.readAs_call documented sc readable)

/-- Every attempt of every operation is read by the server as that operation, with all of its
arguments: over the URL, the query and the body. -/
theorem requests_read_back
    (documented : ∀ s, utf8Bytes (urlEncode s) = PercentCoding.encode (utf8Bytes s))
    {sends : List UInt8 → List UInt8} {mount : List String} {t : HttpTransport}
    (served : ServedAt sends mount t.baseUrl) (sc : Scalars) (json : SerdeJson)
    (overflowChecks : Bool) (env : Nat → Attempt) {op : Operation} (readable : op.Readable sc)
    (lossless : ∀ v ∈ (op.call urlEncode sc).body, ∀ bytes, json.toVec v = .ok bytes →
      json.fromSlice bytes = .ok v) :
    ∀ req ∈ (op.exchange urlEncode sc t json overflowChecks env).sent,
      readRequest sc json sends mount req = some op :=
  fun _ mem => sent_reads documented served sc json overflowChecks env readable lossless mem

end Operation

def settledBody : List UInt8 := utf8Bytes "\x7b\"job_id\":\"job-1\"\x7d"

/-- JSON for a single acknowledgement. -/
def settledJson : SerdeJson where
  fromSlice bytes :=
    if bytes = settledBody then .ok (.object [("job_id", .string "job-1")]) else .error "syntax"
  toVec
    | .object [("job_id", .string "job-1")] => .ok settledBody
    | _ => .error "unsupported"

theorem settledJson_lossless {v : Value} {bytes : List UInt8}
    (written : settledJson.toVec v = .ok bytes) : settledJson.fromSlice bytes = .ok v := by
  simp only [settledJson] at written
  split at written
  · cases written
    rfl
  · cases written

/-- An acknowledgement that is sent twice. -/
theorem ack_read_back :
    ((Operation.ack { jobId := "job-1", result := none }).exchange percentEncode newYear
        defaultTransport settledJson true limitedOnce).sent.map
        (readRequest newYear settledJson localhostClient []) =
      List.replicate 2 (some (.ack { jobId := "job-1", result := none })) := by
  have twice : ((Operation.ack { jobId := "job-1", result := none }).exchange percentEncode newYear
      defaultTransport settledJson true limitedOnce).sent.length = 2 := rfl
  rw [← twice]
  exact List.map_eq_replicate_iff.mpr (Operation.requests_read_back utf8Bytes_percentEncode
    servedAt_localhost newYear settledJson true limitedOnce (by simp [Operation.Readable])
    (fun _ _ _ => settledJson_lossless))

end OjsSdk
