import OjsSdk.DurableReplay
import OjsSdk.Operations
import OjsSdk.StepSystem

namespace OjsSdk

variable {σ T : Type}

inductive CheckpointMethod
  | put
  | get
  | delete
  deriving DecidableEq, Repr

structure CheckpointRequest where
  method : CheckpointMethod
  url : String
  body : Option Value

/-- A response, with its body as `Response::json` reads it. -/
structure CheckpointAnswer where
  status : Nat
  body : Except String Value

/-- `Value::get` with a string. -/
def Value.getField (key : String) : Value → Option Value
  | .object fields => lookupField fields key
  | _ => none

def checkpointPath (jobId : String) : String := "/ojs/v1/jobs/" ++ jobId ++ "/checkpoint"

def checkpointUrl (baseUrl jobId : String) : String := baseUrl ++ checkpointPath jobId

section

variable (statusText : Nat → String) (baseUrl jobId : String)
  (send : CheckpointRequest → Except String CheckpointAnswer)

def saveRequest (state : Value) : CheckpointRequest where
  method := .put
  url := checkpointUrl baseUrl jobId
  body := some (.object [("state", state)])

def resumeRequest : CheckpointRequest where
  method := .get
  url := checkpointUrl baseUrl jobId
  body := none

def deleteRequest : CheckpointRequest where
  method := .delete
  url := checkpointUrl baseUrl jobId
  body := none

/-- The macro `json!` panics where a state has no JSON form. -/
def DurableContext.checkpoint (codec : Codec T) (state : T) : HelperResult Unit :=
  match codec.toValue state with
  | .error _ => .panicked
  | .ok v =>
    match send (saveRequest baseUrl jobId v) with
    | .error e => .failed (.transport e)
    | .ok answer =>
      if !isSuccess answer.status then
        .failed (.server ("checkpoint save failed: " ++ statusText answer.status))
      else .value ()

def DurableContext.resume (codec : Codec T) : HelperResult (Option T) :=
  match send (resumeRequest baseUrl jobId) with
  | .error e => .failed (.transport e)
  | .ok answer =>
    if answer.status = 404 then .value none
    else if !isSuccess answer.status then
      .failed (.server ("checkpoint get failed: " ++ statusText answer.status))
    else
      match answer.body with
      | .error e => .failed (.deserialization e)
      | .ok body =>
        match body.getField "state" with
        | some state =>
          match codec.fromValue state with
          | .ok t => .value (some t)
          | .error e => .failed (.deserialization e)
        | none => .value none

def DurableContext.delete : HelperResult Unit :=
  match send (deleteRequest baseUrl jobId) with
  | .error e => .failed (.transport e)
  | .ok answer =>
    if isSuccess answer.status || answer.status = 404 then .value ()
    else .failed (.server ("checkpoint delete failed: " ++ statusText answer.status))

end

/-- What a server is asked about the checkpoint of a job. -/
inductive CheckpointOperation
  | save (jobId : String) (state : Value)
  | resume (jobId : String)
  | delete (jobId : String)

def checkpointOperation (jobId : String) :
    CheckpointMethod → Option Value → Option CheckpointOperation
  | .put, some body => (body.getField "state").map (.save jobId)
  | .get, none => some (.resume jobId)
  | .delete, none => some (.delete jobId)
  | _, _ => none

/-- The operation in the target that the client sends for the URL of a request, under the segments
of the base URL. -/
def readCheckpoint (sends : List UInt8 → List UInt8) (mount : List String)
    (request : CheckpointRequest) : Option CheckpointOperation := do
  let (segments, query) ← readTarget (sends (utf8Bytes request.url))
  match ← segments.dropPrefix? ("" :: mount), query with
  | ["ojs", "v1", "jobs", jobId, "checkpoint"], [] =>
    checkpointOperation jobId request.method request.body
  | _, _ => none

/-- A server that keeps a state for each job, and answers what it reads. -/
structure CheckpointService (σ : Type) where
  handle : σ → Option CheckpointOperation → σ × CheckpointAnswer
  held : σ → String → Option Value

/-- A request with a success status is applied, any other is not; there is nothing to get or to
delete where the status is 404. -/
structure CheckpointService.Documented (service : CheckpointService σ) : Prop where
  save : ∀ s jobId v, let (s', answer) := service.handle s (some (.save jobId v))
    service.held s' = if isSuccess answer.status then
      Function.update (service.held s) jobId (some v) else service.held s
  get : ∀ s jobId, let (s', answer) := service.handle s (some (.resume jobId))
    service.held s' = service.held s ∧
      (answer.status = 404 → service.held s jobId = none) ∧
      (isSuccess answer.status → ∀ body, answer.body = .ok body →
        body.getField "state" = service.held s jobId)
  delete : ∀ s jobId, let (s', answer) := service.handle s (some (.delete jobId))
    service.held s' = if isSuccess answer.status || answer.status = 404 then
      Function.update (service.held s) jobId none else service.held s

inductive CheckpointCall (T : Type)
  | save (state : T)
  | resume
  | delete

/-- What the network does with a call: both messages arrive, the answer is lost, or the call
gives up before the request arrives, if it ever does. -/
inductive Delivery
  | answered
  | unheard (error : String)
  | late (error : String)

/-- A call that has ended. -/
inductive CheckpointEvent (T : Type)
  | saved (jobId : String) (state : T) (result : HelperResult Unit)
  | resumed (jobId : String) (result : HelperResult (Option T))
  | deleted (jobId : String) (result : HelperResult Unit)

/-- The server, the requests still on their way, and the calls that have ended, latest first. -/
structure CheckpointWorld (σ T : Type) where
  server : σ
  inFlight : List CheckpointRequest
  history : List (CheckpointEvent T)

inductive CheckpointAction (T : Type)
  | call (jobId : String) (call : CheckpointCall T) (delivery : Delivery)
  | arrive (i : Nat)

/-- The id of the job stands in a path as it is. -/
def CheckpointAction.Plain : CheckpointAction T → Prop
  | .call jobId _ _ => OjsSdk.Plain jobId ∧ ¬IsDots jobId
  | .arrive _ => True

section

variable (service : CheckpointService σ) (sends : List UInt8 → List UInt8) (mount : List String)
  (statusText : Nat → String) (codec : Codec T) (baseUrl : String)

/-- The request of a call, if it makes one. -/
def CheckpointCall.request (jobId : String) : CheckpointCall T → Option CheckpointRequest
  | .save state => (codec.toValue state).toOption.map (saveRequest baseUrl jobId)
  | .resume => some (resumeRequest baseUrl jobId)
  | .delete => some (deleteRequest baseUrl jobId)

/-- The operation that the request stands for. -/
def CheckpointCall.operation (jobId : String) : CheckpointCall T → Option CheckpointOperation
  | .save state => (codec.toValue state).toOption.map (.save jobId)
  | .resume => some (.resume jobId)
  | .delete => some (.delete jobId)

/-- A call with what comes back to it. -/
def CheckpointCall.event (jobId : String) (reply : Except String CheckpointAnswer) :
    CheckpointCall T → CheckpointEvent T
  | .save state =>
    .saved jobId state
      (DurableContext.checkpoint statusText baseUrl jobId (fun _ => reply) codec state)
  | .resume => .resumed jobId (DurableContext.resume statusText baseUrl jobId (fun _ => reply) codec)
  | .delete => .deleted jobId (DurableContext.delete statusText baseUrl jobId (fun _ => reply))

namespace CheckpointWorld

def start (s : σ) : CheckpointWorld σ T where
  server := s
  inFlight := []
  history := []

/-- A call of a job that makes a request. -/
def exchange (w : CheckpointWorld σ T) (jobId : String) (call : CheckpointCall T)
    (request : CheckpointRequest) : Delivery → CheckpointWorld σ T
  | .answered =>
    let (server, answer) := service.handle w.server (readCheckpoint sends mount request)
    { w with
      server
      history := call.event statusText codec baseUrl jobId (.ok answer) :: w.history }
  | .unheard error =>
    { w with
      server := (service.handle w.server (readCheckpoint sends mount request)).1
      history := call.event statusText codec baseUrl jobId (.error error) :: w.history }
  | .late error =>
    { w with
      inFlight := w.inFlight ++ [request]
      history := call.event statusText codec baseUrl jobId (.error error) :: w.history }

def step (w : CheckpointWorld σ T) : CheckpointAction T → Option (CheckpointWorld σ T)
  | .call jobId call delivery =>
    some <| match call.request codec baseUrl jobId with
      | some request =>
        w.exchange service sends mount statusText codec baseUrl jobId call request delivery
      | none =>
        { w with history := call.event statusText codec baseUrl jobId (.error "") :: w.history }
  | .arrive i =>
    w.inFlight[i]?.map fun request =>
      { w with
        server := (service.handle w.server (readCheckpoint sends mount request)).1
        inFlight := w.inFlight.eraseIdx i }

end CheckpointWorld

end

section

variable (jobId : String)

/-- What the last call of a job that is known to have been applied left: a state, or nothing. -/
def lastConfirmed : List (CheckpointEvent T) → Option T
  | [] => none
  | .saved j state (.value ()) :: earlier => if j = jobId then some state else lastConfirmed earlier
  | .deleted j (.value ()) :: earlier => if j = jobId then none else lastConfirmed earlier
  | _ :: earlier => lastConfirmed earlier

/-- What the calls of a job leave of which it is not known whether they are applied. -/
def unconfirmed : List (CheckpointEvent T) → List (Option T)
  | [] => []
  | .saved j state (.failed (.transport _)) :: earlier =>
    if j = jobId then some state :: unconfirmed earlier else unconfirmed earlier
  | .deleted j (.failed (.transport _)) :: earlier =>
    if j = jobId then none :: unconfirmed earlier else unconfirmed earlier
  | _ :: earlier => unconfirmed earlier

/-- A job may find this when it resumes. -/
def Recalls (history : List (CheckpointEvent T)) (r : Option T) : Prop :=
  r = lastConfirmed jobId history ∨ r ∈ unconfirmed jobId history

end

/-- The JSON form of what a job may find. -/
def Stores (codec : Codec T) : Option T → Option Value → Prop
  | none, c => c = none
  | some state, c => ∃ v, codec.toValue state = .ok v ∧ c = some v

section

variable {sends : List UInt8 → List UInt8} {mount : List String} {baseUrl jobId : String}

/-- A server reads a plain id in the URL of a checkpoint. -/
theorem readTarget_checkpointUrl (served : ServedAt sends mount baseUrl) (plain : Plain jobId)
    (notDots : ¬IsDots jobId) : readTarget (sends (utf8Bytes (checkpointUrl baseUrl jobId))) =
      some ("" :: (mount ++ ["ojs", "v1", "jobs", jobId, "checkpoint"]), []) := by
  have around : utf8Bytes (checkpointPath jobId) = UrlTarget.joined (["ojs", "v1", "jobs"].map
      utf8Bytes ++ utf8Bytes jobId :: ["checkpoint"].map utf8Bytes) := by
    have front : utf8Bytes "/ojs/v1/jobs/" =
        UrlTarget.joined (["ojs", "v1", "jobs"].map utf8Bytes) ++ [UrlTarget.slash] := by decide
    have back : utf8Bytes "/checkpoint" = UrlTarget.joined (["checkpoint"].map utf8Bytes) := by
      decide
    rw [checkpointPath, utf8Bytes_append, utf8Bytes_append, front, back]
    simp
  have addresses := addresses_plain (by decide) (by decide) around plain notDots
    (fun none => by cases none)
  have slashed : (utf8Bytes (checkpointPath jobId)).head? = some UrlTarget.slash := by
    rw [around]
    rfl
  exact served.readTarget addresses slashed

theorem readCheckpoint_request (served : ServedAt sends mount baseUrl) (plain : Plain jobId)
    (notDots : ¬IsDots jobId) {codec : Codec T} {call : CheckpointCall T}
    {request : CheckpointRequest} (made : call.request codec baseUrl jobId = some request) :
    readCheckpoint sends mount request = call.operation codec jobId := by
  have read : ∀ method body,
      readCheckpoint sends mount ⟨method, checkpointUrl baseUrl jobId, body⟩ =
        checkpointOperation jobId method body := by
    intro method body
    unfold readCheckpoint
    rw [readTarget_checkpointUrl served plain notDots]
    show (List.dropPrefix? _ _).bind _ = _
    rw [dropPrefix_mount]
    rfl
  cases call with
  | save state =>
    obtain ⟨v, encoded, rfl⟩ := Option.map_eq_some_iff.mp made
    rw [saveRequest, read, CheckpointCall.operation, encoded]
    rfl
  | resume =>
    cases made
    exact read .get none
  | delete =>
    cases made
    exact read .delete none

end

section

variable {codec : Codec T} {baseUrl jobId : String} {history : List (CheckpointEvent T)}
  {r : Option T} {service : CheckpointService σ} {operation : Option CheckpointOperation}

/-- An event after which no more is known to have been applied. -/
def CheckpointEvent.Inconclusive : CheckpointEvent T → Prop
  | .saved _ _ (.value ()) | .deleted _ (.value ()) => False
  | _ => True

theorem unconfirmed_cons (event : CheckpointEvent T) (h : r ∈ unconfirmed jobId history) :
    r ∈ unconfirmed jobId (event :: history) := by
  unfold unconfirmed
  split
  · next empty => cases empty
  · next same =>
    cases same
    split
    · exact List.mem_cons_of_mem _ h
    · exact h
  · next same =>
    cases same
    split
    · exact List.mem_cons_of_mem _ h
    · exact h
  · next same =>
    cases same
    exact h

theorem lastConfirmed_cons {event : CheckpointEvent T} (inconclusive : event.Inconclusive) :
    lastConfirmed jobId (event :: history) = lastConfirmed jobId history := by
  match event with
  | .saved _ _ (.failed _) | .saved _ _ .panicked => rfl
  | .deleted _ (.failed _) | .deleted _ .panicked => rfl
  | .resumed _ _ => rfl

theorem Recalls.cons {event : CheckpointEvent T} (inconclusive : event.Inconclusive)
    (recalls : Recalls jobId history r) : Recalls jobId (event :: history) r := by
  rcases recalls with rfl | maybe
  · exact .inl (lastConfirmed_cons inconclusive).symm
  · exact .inr (unconfirmed_cons event maybe)

/-- The operation of a call that has given up. -/
def Foreseen (codec : Codec T) (history : List (CheckpointEvent T))
    (operation : Option CheckpointOperation) : Prop :=
  ∃ jobId, operation = some (.resume jobId) ∨
    (∃ state v, codec.toValue state = .ok v ∧ operation = some (.save jobId v) ∧
      some state ∈ unconfirmed jobId history) ∨
    (operation = some (.delete jobId) ∧ none ∈ unconfirmed jobId history)

theorem Foreseen.cons (event : CheckpointEvent T) (foreseen : Foreseen codec history operation) :
    Foreseen codec (event :: history) operation := by
  obtain ⟨jobId, asks | ⟨state, v, encoded, saves, maybe⟩ | ⟨deletes, maybe⟩⟩ := foreseen
  · exact ⟨jobId, .inl asks⟩
  · exact ⟨jobId, .inr (.inl ⟨state, v, encoded, saves, unconfirmed_cons event maybe⟩)⟩
  · exact ⟨jobId, .inr (.inr ⟨deletes, unconfirmed_cons event maybe⟩)⟩

/-- What the server holds for a job is something that the job may find. -/
def HoldsRecalled (service : CheckpointService σ) (codec : Codec T) (server : σ)
    (history : List (CheckpointEvent T)) : Prop :=
  ∀ jobId, ∃ r, Recalls jobId history r ∧ Stores codec r (service.held server jobId)

theorem HoldsRecalled.cons {server : σ} {event : CheckpointEvent T}
    (inconclusive : event.Inconclusive) (holds : HoldsRecalled service codec server history) :
    HoldsRecalled service codec server (event :: history) := by
  intro jobId
  obtain ⟨r, recalls, stores⟩ := holds jobId
  exact ⟨r, recalls.cons inconclusive, stores⟩

theorem HoldsRecalled.of_held {server server' : σ}
    (holds : HoldsRecalled service codec server history)
    (same : service.held server' = service.held server) :
    HoldsRecalled service codec server' history := by
  intro jobId
  rw [same]
  exact holds jobId

/-- A change of what is held for one job. -/
theorem HoldsRecalled.update {server server' : σ} {c : Option Value}
    (holds : ∀ other, other ≠ jobId → ∃ r, Recalls other history r ∧
      Stores codec r (service.held server other))
    (held : service.held server' = Function.update (service.held server) jobId c)
    (recalls : Recalls jobId history r) (stores : Stores codec r c) :
    HoldsRecalled service codec server' history := by
  intro other
  rw [held]
  by_cases same : other = jobId
  · subst same
    exact ⟨r, recalls, by rwa [Function.update_self]⟩
  · rw [Function.update_of_ne same]
    exact holds other same

/-- A foreseen operation may be applied at any time. -/
theorem HoldsRecalled.handle (documented : service.Documented) {server : σ}
    (holds : HoldsRecalled service codec server history)
    (foreseen : Foreseen codec history operation) :
    HoldsRecalled service codec (service.handle server operation).1 history := by
  obtain ⟨jobId, rfl | ⟨state, v, encoded, rfl, maybe⟩ | ⟨rfl, maybe⟩⟩ := foreseen
  · exact holds.of_held (documented.get server jobId).1
  · have held := documented.save server jobId v
    dsimp only at held
    split at held
    · exact .update (fun other _ => holds other) held (.inr maybe) ⟨v, encoded, rfl⟩
    · exact holds.of_held held
  · have held := documented.delete server jobId
    dsimp only at held
    split at held
    · exact .update (fun other _ => holds other) held (.inr maybe) rfl
    · exact holds.of_held held

/-- A success is confirmed for the job of the call, and no other job is concerned. -/
theorem HoldsRecalled.save (documented : service.Documented) {server : σ} {state : T} {v : Value}
    (statusText : Nat → String) (baseUrl : String)
    (holds : HoldsRecalled service codec server history) (encoded : codec.toValue state = .ok v) :
    let (server', answer) := service.handle server (some (.save jobId v))
    HoldsRecalled service codec server'
      ((CheckpointCall.save state).event statusText codec baseUrl jobId (.ok answer) :: history) := by
  have held := documented.save server jobId v
  dsimp only at held ⊢
  simp only [CheckpointCall.event, DurableContext.checkpoint, encoded]
  split at held
  · next success =>
    rw [success]
    refine .update (r := some state) ?_ held (.inl (by simp [lastConfirmed])) ⟨v, encoded, rfl⟩
    intro other apart
    obtain ⟨r, recalls, stores⟩ := holds other
    refine ⟨r, ?_, stores⟩
    simpa [Recalls, lastConfirmed, unconfirmed, Ne.symm apart] using recalls
  · next refused =>
    rw [Bool.not_eq_true] at refused
    rw [refused]
    exact (holds.of_held held).cons trivial

theorem HoldsRecalled.delete (documented : service.Documented) {server : σ}
    (statusText : Nat → String) (baseUrl : String)
    (holds : HoldsRecalled service codec server history) :
    let (server', answer) := service.handle server (some (.delete jobId))
    HoldsRecalled service codec server'
      (CheckpointCall.delete.event statusText codec baseUrl jobId (.ok answer) :: history) := by
  have held := documented.delete server jobId
  dsimp only at held ⊢
  simp only [CheckpointCall.event, DurableContext.delete]
  split at held
  · next success =>
    rw [if_pos success]
    refine .update (r := none) ?_ held (.inl (by simp [lastConfirmed])) rfl
    intro other apart
    obtain ⟨r, recalls, stores⟩ := holds other
    refine ⟨r, ?_, stores⟩
    simpa [Recalls, lastConfirmed, unconfirmed, Ne.symm apart] using recalls
  · next refused =>
    rw [if_neg refused]
    exact (holds.of_held held).cons trivial

/-- A job that resumes finds what is held for it, if it finds an answer. -/
theorem resume_recalls (documented : service.Documented) (lossless : codec.Lossless) {server : σ}
    (statusText : Nat → String) (holds : HoldsRecalled service codec server history)
    (found : DurableContext.resume statusText baseUrl jobId
      (fun _ => .ok (service.handle server (some (.resume jobId))).2) codec = .value r) :
    Recalls jobId history r := by
  obtain ⟨-, absent, present⟩ := documented.get server jobId
  obtain ⟨r', recalls, stores⟩ := holds jobId
  suffices same : r = r' by rwa [same]
  unfold DurableContext.resume at found
  dsimp only at found
  split at found
  · next notFound =>
    rw [absent notFound] at stores
    cases r' with
    | none =>
      cases found
      rfl
    | some state =>
      obtain ⟨v, _, other⟩ := stores
      cases other
  · split at found
    · cases found
    · next success =>
      have status : isSuccess (service.handle server (some (.resume jobId))).2.status := by
        simpa using success
      cases read : (service.handle server (some (.resume jobId))).2.body with
      | error e => simp [read] at found
      | ok body =>
        rw [← present status body read] at stores
        simp only [read] at found
        cases r' with
        | none =>
          have none : body.getField "state" = none := stores
          rw [none] at found
          cases found
          rfl
        | some state =>
          obtain ⟨v, encoded, some⟩ := stores
          rw [some] at found
          simp only [lossless state v encoded] at found
          cases found
          rfl

end

/-- What holds of a server, the requests on their way to it and the calls that have ended. -/
structure CheckpointWorld.Kept (service : CheckpointService σ) (sends : List UInt8 → List UInt8)
    (mount : List String) (codec : Codec T) (w : CheckpointWorld σ T) : Prop where
  held : HoldsRecalled service codec w.server w.history
  inFlight : ∀ request ∈ w.inFlight, Foreseen codec w.history (readCheckpoint sends mount request)
  resumed : ∀ later jobId r earlier, w.history = later ++ .resumed jobId (.value r) :: earlier →
    Recalls jobId earlier r

namespace CheckpointWorld

variable {service : CheckpointService σ} {sends : List UInt8 → List UInt8} {mount : List String}
  {statusText : Nat → String} {codec : Codec T} {baseUrl : String} {w w' : CheckpointWorld σ T}

/-- The end of a call, with what is known of it. -/
theorem Kept.ended {server : σ} {inFlight : List CheckpointRequest} {event : CheckpointEvent T}
    (kept : Kept service sends mount codec w)
    (held : HoldsRecalled service codec server (event :: w.history))
    (flying : ∀ request ∈ inFlight, request ∈ w.inFlight ∨
      Foreseen codec (event :: w.history) (readCheckpoint sends mount request))
    (resumed : ∀ jobId r, event = .resumed jobId (.value r) → Recalls jobId w.history r) :
    Kept service sends mount codec ⟨server, inFlight, event :: w.history⟩ where
  held := held
  inFlight := by
    intro request mem
    rcases flying request mem with old | new
    · exact (kept.inFlight request old).cons event
    · exact new
  resumed := by
    intro later jobId r earlier same
    rcases List.cons_eq_append_iff.mp same with ⟨rfl, first⟩ | ⟨rest, rfl, tail⟩
    · obtain ⟨rfl, rfl⟩ := List.cons.inj first
      exact resumed jobId r rfl
    · exact kept.resumed rest jobId r earlier tail

/-- A call that gets no answer is one that is not known to have been applied. -/
theorem foreseen_of_transport {jobId : String} {call : CheckpointCall T}
    {request : CheckpointRequest} (statusText : Nat → String) (error : String)
    (history : List (CheckpointEvent T))
    (made : call.request codec baseUrl jobId = some request) :
    Foreseen codec (call.event statusText codec baseUrl jobId (.error error) :: history)
        (call.operation codec jobId) ∧
      (call.event statusText codec baseUrl jobId (.error error)).Inconclusive ∧
      ∀ other r, call.event statusText codec baseUrl jobId (.error error) =
        .resumed other (.value r) → Recalls other history r := by
  cases call with
  | save state =>
    cases encoded : codec.toValue state with
    | error e => simp [CheckpointCall.request, encoded, Except.toOption] at made
    | ok v =>
      simp only [CheckpointCall.event, CheckpointCall.operation, DurableContext.checkpoint, encoded]
      refine ⟨⟨jobId, .inr (.inl ⟨state, v, encoded, rfl, ?_⟩)⟩, trivial, by simp⟩
      simp [unconfirmed]
  | resume => exact ⟨⟨jobId, .inl rfl⟩, trivial, by simp [CheckpointCall.event, DurableContext.resume]⟩
  | delete =>
    refine ⟨⟨jobId, .inr (.inr ⟨rfl, ?_⟩)⟩, trivial, by simp [CheckpointCall.event]⟩
    simp [CheckpointCall.event, DurableContext.delete, unconfirmed]

theorem Kept.answered (documented : service.Documented) (lossless : codec.Lossless)
    {jobId : String} {call : CheckpointCall T} {request : CheckpointRequest}
    (kept : Kept service sends mount codec w)
    (made : call.request codec baseUrl jobId = some request) :
    let (server, answer) := service.handle w.server (call.operation codec jobId)
    Kept service sends mount codec ⟨server, w.inFlight,
      call.event statusText codec baseUrl jobId (.ok answer) :: w.history⟩ := by
  refine kept.ended ?_ (fun _ mem => .inl mem) ?_
  · cases call with
    | save state =>
      cases encoded : codec.toValue state with
      | error e => simp [CheckpointCall.request, encoded, Except.toOption] at made
      | ok v =>
        simp only [CheckpointCall.operation, encoded]
        exact kept.held.save documented statusText baseUrl encoded
    | resume =>
      have same := (documented.get w.server jobId).1
      exact (kept.held.of_held same).cons trivial
    | delete => exact kept.held.delete documented statusText baseUrl
  · intro other r same
    cases call with
    | save state => cases same
    | delete => cases same
    | resume =>
      obtain ⟨rfl, found⟩ := CheckpointEvent.resumed.inj same
      exact resume_recalls documented lossless statusText kept.held found

theorem Kept.exchange (documented : service.Documented) (lossless : codec.Lossless)
    (served : ServedAt sends mount baseUrl) {jobId : String} (plain : Plain jobId)
    (notDots : ¬IsDots jobId) {call : CheckpointCall T} {request : CheckpointRequest}
    (kept : Kept service sends mount codec w)
    (made : call.request codec baseUrl jobId = some request) (delivery : Delivery) :
    Kept service sends mount codec
      (w.exchange service sends mount statusText codec baseUrl jobId call request delivery) := by
  have read := readCheckpoint_request served plain notDots made
  cases delivery with
  | answered =>
    simp only [CheckpointWorld.exchange, read]
    exact kept.answered documented lossless made
  | unheard error =>
    obtain ⟨foreseen, inconclusive, other⟩ :=
      foreseen_of_transport statusText error w.history made
    simp only [CheckpointWorld.exchange, read]
    have held := (kept.held.cons inconclusive).handle documented foreseen
    exact kept.ended held (fun _ mem => .inl mem) other
  | late error =>
    obtain ⟨foreseen, inconclusive, other⟩ :=
      foreseen_of_transport statusText error w.history made
    refine kept.ended (kept.held.cons inconclusive) ?_ other
    intro later mem
    rcases List.mem_append.mp mem with old | new
    · exact .inl old
    · rw [List.mem_singleton.mp new, read]
      exact .inr foreseen

theorem Kept.step (documented : service.Documented) (lossless : codec.Lossless)
    (served : ServedAt sends mount baseUrl) {action : CheckpointAction T} (plain : action.Plain)
    (kept : Kept service sends mount codec w)
    (h : w.step service sends mount statusText codec baseUrl action = some w') :
    Kept service sends mount codec w' := by
  cases action with
  | arrive i =>
    obtain ⟨request, found, rfl⟩ := Option.map_eq_some_iff.mp h
    have foreseen := kept.inFlight request (List.mem_of_getElem? found)
    refine ⟨kept.held.handle documented foreseen, ?_, kept.resumed⟩
    exact fun other mem => kept.inFlight other (List.mem_of_mem_eraseIdx mem)
  | call jobId call delivery =>
    have moved := Option.some.inj h
    cases made : call.request codec baseUrl jobId with
    | some request =>
      rw [made] at moved
      exact moved ▸ kept.exchange documented lossless served plain.1 plain.2 made delivery
    | none =>
      rw [made] at moved
      rw [← moved]
      cases call with
      | resume => cases made
      | delete => cases made
      | save state =>
        cases encoded : codec.toValue state with
        | ok v => simp [CheckpointCall.request, encoded, Except.toOption] at made
        | error e =>
          refine kept.ended (kept.held.cons ?_) (fun _ mem => .inl mem) (fun _ _ same => by cases same)
          simp only [CheckpointCall.event, DurableContext.checkpoint, encoded]
          trivial

end CheckpointWorld

end OjsSdk
