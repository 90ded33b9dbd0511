import OjsSdk.Client
import OjsSdk.HttpPanics
import OjsSdk.UrlSending
import OjsSdk.Utf8Chunks

namespace OjsSdk

open UrlTarget (slash backslash questionMark numberSign joined isSolid isDots isBlank
  isTabOrNewline)

/-- What a client operation gives to `Transport::request`. -/
structure TransportCall where
  method : Method
  path : String
  body : Option Value
  rawPath : Bool

/-- `transport_get` -/
def transportGet (path : String) : TransportCall := ⟨.get, path, none, false⟩

/-- `transport_post_empty` and `transport_post_empty_no_response` -/
def transportPostEmpty (path : String) : TransportCall := ⟨.post, path, none, false⟩

/-- `transport_delete` and `transport_delete_no_response` -/
def transportDelete (path : String) : TransportCall := ⟨.delete, path, none, false⟩

def getJob (id : String) : TransportCall := transportGet ("/jobs/" ++ id)

def cancelJob (id : String) : TransportCall := transportDelete ("/jobs/" ++ id)

def getWorkflow (id : String) : TransportCall := transportGet ("/workflows/" ++ id)

def cancelWorkflow (id : String) : TransportCall := transportDelete ("/workflows/" ++ id)

def retryDeadLetterJob (id : String) : TransportCall :=
  transportPostEmpty ("/dead-letter/" ++ id ++ "/retry")

def discardDeadLetterJob (id : String) : TransportCall := transportDelete ("/dead-letter/" ++ id)

section

variable (urlEncode : String → String)

def getQueueStats (name : String) : TransportCall :=
  transportGet ("/queues/" ++ urlEncode name ++ "/stats")

def pauseQueue (name : String) : TransportCall :=
  transportPostEmpty ("/queues/" ++ urlEncode name ++ "/pause")

def resumeQueue (name : String) : TransportCall :=
  transportPostEmpty ("/queues/" ++ urlEncode name ++ "/resume")

def unregisterCronJob (name : String) : TransportCall :=
  transportDelete ("/cron/" ++ urlEncode name)

def getSchema (uri : String) : TransportCall := transportGet ("/schemas/" ++ urlEncode uri)

def deleteSchema (uri : String) : TransportCall := transportDelete ("/schemas/" ++ urlEncode uri)

end

/-- The operations that put an identifier into a path. -/
inductive IdentifierCall
  | getJob
  | cancelJob
  | getWorkflow
  | cancelWorkflow
  | retryDeadLetterJob
  | discardDeadLetterJob
  | getQueueStats
  | pauseQueue
  | resumeQueue
  | unregisterCronJob
  | getSchema
  | deleteSchema
  deriving DecidableEq, Repr

namespace IdentifierCall

def call (urlEncode : String → String) : IdentifierCall → String → TransportCall
  | getJob => OjsSdk.getJob
  | cancelJob => OjsSdk.cancelJob
  | getWorkflow => OjsSdk.getWorkflow
  | cancelWorkflow => OjsSdk.cancelWorkflow
  | retryDeadLetterJob => OjsSdk.retryDeadLetterJob
  | discardDeadLetterJob => OjsSdk.discardDeadLetterJob
  | getQueueStats => OjsSdk.getQueueStats urlEncode
  | pauseQueue => OjsSdk.pauseQueue urlEncode
  | resumeQueue => OjsSdk.resumeQueue urlEncode
  | unregisterCronJob => OjsSdk.unregisterCronJob urlEncode
  | getSchema => OjsSdk.getSchema urlEncode
  | deleteSchema => OjsSdk.deleteSchema urlEncode

/-- The fixed segments before the identifier. -/
def before : IdentifierCall → List String
  | getJob | cancelJob => ["jobs"]
  | getWorkflow | cancelWorkflow => ["workflows"]
  | retryDeadLetterJob | discardDeadLetterJob => ["dead-letter"]
  | getQueueStats | pauseQueue | resumeQueue => ["queues"]
  | unregisterCronJob => ["cron"]
  | getSchema | deleteSchema => ["schemas"]

def after : IdentifierCall → List String
  | retryDeadLetterJob => ["retry"]
  | getQueueStats => ["stats"]
  | pauseQueue => ["pause"]
  | resumeQueue => ["resume"]
  | _ => []

/-- The operations that encode their identifier. -/
def encodes : IdentifierCall → Bool
  | getQueueStats | pauseQueue | resumeQueue | unregisterCronJob | getSchema | deleteSchema => true
  | _ => false

end IdentifierCall

/-- The path has the fixed segments and one more, which is the encoded identifier, and neither a
query nor a fragment. -/
structure OneSegment (before after : List String) (path identifier : String) : Prop where
  segments : ∃ segment, (utf8Bytes path).splitOn slash =
      [] :: (before.map utf8Bytes ++ [segment] ++ after.map utf8Bytes) ∧
    PercentCoding.decode segment = utf8Bytes identifier
  query : questionMark ∉ utf8Bytes path
  fragment : numberSign ∉ utf8Bytes path

/-- What the HTTP client sends for the URL names this resource of a server, which finds it under the
segments of its base URL. -/
def Reaches (sends : List UInt8 → List UInt8) (mount : List String) (url : String)
    (resource : List String) : Prop :=
  UrlTarget.parse (sends (utf8Bytes url)) =
    { segments := [] :: (mount ++ resource).map utf8Bytes, query := [] }

/-- A part of a path that is sent and read as it is, wherever it stands. -/
def Fixed (part : String) : Prop :=
  isSolid (utf8Bytes part) = true ∧ isDots (utf8Bytes part) = false ∧
    PercentCoding.decode (utf8Bytes part) = utf8Bytes part ∧
    (utf8Bytes part).any isBlank = false
  deriving Decidable

def mountPath : List String → String
  | [] => ""
  | part :: mount => "/" ++ part ++ mountPath mount

/-- A base URL that is meant has a scheme and a host, and a path of parts that need no encoding. For
the URLs under it the client sends what the URL standard has for them. -/
structure ServedAt (sends : List UInt8 → List UInt8) (mount : List String) (baseUrl : String) :
    Prop where
  url : ∃ origin, UrlTarget.Standard (utf8Bytes origin) sends ∧ baseUrl = origin ++ mountPath mount
  fixed : ∀ part ∈ mount, Fixed part

/-- An identifier that is safe in a path as it is, unless it is one of dots or ends in a blank. -/
structure Plain (identifier : String) : Prop where
  slash : slash ∉ utf8Bytes identifier
  backslash : backslash ∉ utf8Bytes identifier
  query : questionMark ∉ utf8Bytes identifier
  fragment : numberSign ∉ utf8Bytes identifier
  breaks : ∀ b ∈ utf8Bytes identifier, isTabOrNewline b = false
  escape : ¬PercentCoding.Escapes (utf8Bytes identifier)

def IsDots (identifier : String) : Prop := identifier = "." ∨ identifier = ".."

def EndsBlank (identifier : String) : Prop :=
  ∃ b ∈ (utf8Bytes identifier).getLast?, isBlank b = true

/-- The identifier gets through: the operation encodes it, or it needs no encoding. Dots do not in
either case. -/
def IdentifierCall.Keeps (operation : IdentifierCall) (identifier : String) : Prop :=
  ¬IsDots identifier ∧
    (operation.encodes = true ∨
      Plain identifier ∧ (operation.after = [] → ¬EndsBlank identifier))

theorem utf8Bytes_append (s t : String) : utf8Bytes (s ++ t) = utf8Bytes s ++ utf8Bytes t := by
  simp [utf8Bytes]

theorem utf8Bytes_mountPath (mount : List String) :
    utf8Bytes (mountPath mount) = joined (mount.map utf8Bytes) := by
  induction mount with
  | nil => rfl
  | cons part mount ih =>
    have opening : utf8Bytes "/" = [slash] := by decide
    rw [mountPath, utf8Bytes_append, utf8Bytes_append, opening, ih, List.map_cons,
      UrlTarget.joined_cons]
    rfl

theorem utf8Bytes_eq_dots_iff (identifier : String) :
    (utf8Bytes identifier = [UrlTarget.dot] ↔ identifier = ".") ∧
      (utf8Bytes identifier = [UrlTarget.dot, UrlTarget.dot] ↔ identifier = "..") := by
  have single : utf8Bytes "." = [UrlTarget.dot] := by decide
  have double : utf8Bytes ".." = [UrlTarget.dot, UrlTarget.dot] := by decide
  exact ⟨by rw [← single, utf8Bytes_inj], by rw [← double, utf8Bytes_inj]⟩

theorem isDots_utf8Bytes_iff {identifier : String}
    (unescaped : PercentCoding.decode (utf8Bytes identifier) = utf8Bytes identifier) :
    isDots (utf8Bytes identifier) = false ↔ ¬IsDots identifier := by
  obtain ⟨single, double⟩ := utf8Bytes_eq_dots_iff identifier
  simp only [isDots, UrlTarget.isSingleDot, UrlTarget.isDoubleDot, unescaped,
    Bool.or_eq_false_iff, beq_eq_false_iff_ne, ne_eq, single, double, IsDots, not_or]

theorem Plain.isSolid {identifier : String} (plain : Plain identifier) :
    isSolid (utf8Bytes identifier) = true :=
  UrlTarget.isSolid_iff.mpr fun b mem =>
    ⟨fun same => plain.slash (same ▸ mem), fun same => plain.backslash (same ▸ mem),
      fun same => plain.query (same ▸ mem), fun same => plain.fragment (same ▸ mem),
      plain.breaks b mem⟩

theorem plain_iff {identifier : String} : Plain identifier ↔
    isSolid (utf8Bytes identifier) = true ∧ ¬PercentCoding.Escapes (utf8Bytes identifier) := by
  constructor
  · intro plain
    exact ⟨plain.isSolid, plain.escape⟩
  · rintro ⟨solid, escape⟩
    have each := UrlTarget.isSolid_iff.mp solid
    exact ⟨fun mem => (each _ mem).1 rfl, fun mem => (each _ mem).2.1 rfl,
      fun mem => (each _ mem).2.2.1 rfl, fun mem => (each _ mem).2.2.2.1 rfl,
      fun b mem => (each b mem).2.2.2.2, escape⟩

/-- To the client the base URL and the path are parts of one path. -/
theorem ServedAt.sent {sends : List UInt8 → List UInt8} {mount : List String} {baseUrl : String}
    (served : ServedAt sends mount baseUrl) : ∃ e : UrlTarget.Escaping, ∀ path : String,
      (utf8Bytes path).head? = some slash → sends (utf8Bytes (baseUrl ++ path)) =
        UrlTarget.normalize e (joined (mount.map utf8Bytes) ++ utf8Bytes path) := by
  obtain ⟨origin, ⟨e, documented⟩, rfl⟩ := served.url
  refine ⟨e, fun path slashed => ?_⟩
  rw [utf8Bytes_append, utf8Bytes_append, utf8Bytes_mountPath, List.append_assoc]
  refine documented _ ?_
  cases mount with
  | nil => exact slashed
  | cons part mount => rfl

/-- The parts that stand before every path of the protocol. -/
theorem ServedAt.fixed_base {sends : List UInt8 → List UInt8} {mount : List String}
    {baseUrl : String} (served : ServedAt sends mount baseUrl) :
    ∀ part ∈ mount ++ ["ojs", "v1"], Fixed part := by
  intro part mem
  rcases List.mem_append.mp mem with there | base
  · exact served.fixed part there
  · exact (by decide : ∀ part ∈ ["ojs", "v1"], Fixed part) part base

theorem ServedAt.sent_url {sends : List UInt8 → List UInt8} {mount : List String}
    {t : HttpTransport} (served : ServedAt sends mount t.baseUrl) :
    ∃ e : UrlTarget.Escaping, ∀ path : String, sends (utf8Bytes (t.url path)) =
      UrlTarget.normalize e (joined ((mount ++ ["ojs", "v1"]).map utf8Bytes) ++ utf8Bytes path) := by
  obtain ⟨e, sent⟩ := served.sent
  have base : utf8Bytes basePath = joined (["ojs", "v1"].map utf8Bytes) := by decide
  refine ⟨e, fun path => ?_⟩
  have slashed : (utf8Bytes (basePath ++ path)).head? = some slash := by
    rw [utf8Bytes_append, base]
    rfl
  rw [HttpTransport.url, String.append_assoc, sent _ slashed, utf8Bytes_append, base,
    List.map_append, UrlTarget.joined_append, List.append_assoc]

/-- Under any parts that stand before it, the path is read as these parts and this query. -/
def Addresses (path : String) (parts : List String) (query : List (String × String)) : Prop :=
  ∀ (e : UrlTarget.Escaping) (mount : List String), (∀ part ∈ mount, Fixed part) →
    UrlTarget.parse (UrlTarget.normalize e (joined (mount.map utf8Bytes) ++ utf8Bytes path)) =
      { segments := [] :: (mount ++ parts).map utf8Bytes
        query := query.map (fun (key, value) => (utf8Bytes key, utf8Bytes value)) }

section

variable {before after : List String}

/-- The fixed parts around a segment, as the library has them. -/
theorem fixed_before (fixed : ∀ part ∈ before, Fixed part) : ∀ part ∈ before.map utf8Bytes,
    isSolid part = true ∧ PercentCoding.decode part = part :=
  List.forall_mem_map.mpr fun part mem => ⟨(fixed part mem).1, (fixed part mem).2.2.1⟩

theorem fixed_after (fixed : ∀ part ∈ after, Fixed part) : ∀ part ∈ after.map utf8Bytes,
    isSolid part = true ∧ PercentCoding.decode part = part ∧ ∀ b ∈ part, isBlank b = false :=
  List.forall_mem_map.mpr fun part mem =>
    have ⟨solid, _, decoded, visible⟩ := fixed part mem
    ⟨solid, decoded, fun b inside => Bool.eq_false_iff.mpr (List.any_eq_false.mp visible b inside)⟩

/-- Fixed parts on their own. -/
theorem fixed_map {parts : List String} (fixed : ∀ part ∈ parts, Fixed part) :
    (∀ part ∈ parts.map utf8Bytes, isSolid part = true) ∧
      (∀ part ∈ parts.map utf8Bytes, isDots part = false) ∧
      (parts.map utf8Bytes).map PercentCoding.decode = parts.map utf8Bytes := by
  refine ⟨List.forall_mem_map.mpr fun part mem => (fixed part mem).1,
    List.forall_mem_map.mpr fun part mem => (fixed part mem).2.1, ?_⟩
  rw [List.map_map]
  exact List.map_congr_left fun part mem => (fixed part mem).2.2.1

theorem fixed_around (first : ∀ part ∈ before, Fixed part) (last : ∀ part ∈ after, Fixed part) :
    ∀ part ∈ before.map utf8Bytes ++ after.map utf8Bytes, isDots part = false := by
  intro part mem
  rw [← List.map_append] at mem
  obtain ⟨text, inside, rfl⟩ := List.mem_map.mp mem
  rcases List.mem_append.mp inside with here | here
  · exact (first text here).2.1
  · exact (last text here).2.1

/-- A segment that no byte of it cuts is the one segment between the fixed ones. -/
theorem oneSegment_of_solid {path identifier : String} {segment : List UInt8}
    (first : ∀ part ∈ before, Fixed part) (last : ∀ part ∈ after, Fixed part)
    (around : utf8Bytes path =
      joined (before.map utf8Bytes ++ segment :: after.map utf8Bytes))
    (solid : isSolid segment = true)
    (decoded : PercentCoding.decode segment = utf8Bytes identifier) :
    OneSegment before after path identifier := by
  have all := UrlTarget.solid_around (fixed_before first) (fixed_after last) solid
  obtain ⟨query, fragment⟩ := UrlTarget.not_mem_joined_of_solid all
  have cut := UrlTarget.splitOn_joined fun part mem inside =>
    (UrlTarget.isSolid_iff.mp (all part mem) _ inside).1 rfl
  rw [← around] at query fragment cut
  refine ⟨⟨segment, ?_, decoded⟩, query, fragment⟩
  rw [cut, List.append_assoc]
  rfl

theorem addresses_around {path identifier : String} {segment : List UInt8}
    (first : ∀ part ∈ before, Fixed part) (last : ∀ part ∈ after, Fixed part)
    (around : utf8Bytes path =
      joined (before.map utf8Bytes ++ segment :: after.map utf8Bytes))
    (decoded : PercentCoding.decode segment = utf8Bytes identifier)
    (solid : isSolid segment = true) (notDots : isDots segment = false)
    (closed : after.map utf8Bytes = [] → ∀ b ∈ segment.getLast?, isBlank b = false) :
    Addresses path (before ++ [identifier] ++ after) [] := by
  intro e mount fixed
  have front : ∀ part ∈ mount ++ before, Fixed part := fun part mem =>
    (List.mem_append.mp mem).elim (fixed part) (first part)
  have whole : (mount ++ (before ++ [identifier] ++ after)).map utf8Bytes =
      (mount ++ before).map utf8Bytes ++ utf8Bytes identifier :: after.map utf8Bytes := by simp
  have split : (mount ++ before).map utf8Bytes = mount.map utf8Bytes ++ before.map utf8Bytes :=
    List.map_append
  rw [around, ← UrlTarget.joined_append, ← List.append_assoc, ← split,
    UrlTarget.parse_around (fixed_before front) (fixed_after last) e (fixed_around front last) solid
      notDots closed, decoded, whole]
  rfl

/-- An identifier that is put into a path as it is. -/
theorem addresses_plain {path identifier : String}
    (first : ∀ part ∈ before, Fixed part) (last : ∀ part ∈ after, Fixed part)
    (around : utf8Bytes path =
      joined (before.map utf8Bytes ++ utf8Bytes identifier :: after.map utf8Bytes))
    (plain : Plain identifier) (notDots : ¬IsDots identifier)
    (closed : after = [] → ¬EndsBlank identifier) :
    Addresses path (before ++ [identifier] ++ after) [] := by
  have unescaped := (PercentCoding.decode_eq_self_iff _).mpr plain.escape
  refine addresses_around first last around unescaped plain.isSolid
    ((isDots_utf8Bytes_iff unescaped).mpr notDots) ?_
  intro ended b mem
  cases blank : isBlank b with
  | false => rfl
  | true => exact absurd ⟨b, mem, blank⟩ (closed (List.map_eq_nil_iff.mp ended))

/-- The paths of the protocol stand under its base path. -/
theorem Addresses.base {path : String} {parts : List String} {query : List (String × String)}
    (addresses : Addresses path parts query) :
    Addresses (basePath ++ path) ("ojs" :: "v1" :: parts) query := by
  intro e mount fixed
  have base : utf8Bytes basePath = joined (["ojs", "v1"].map utf8Bytes) := by decide
  have front : ∀ part ∈ mount ++ ["ojs", "v1"], Fixed part := fun part mem =>
    (List.mem_append.mp mem).elim (fixed part)
      ((by decide : ∀ part ∈ ["ojs", "v1"], Fixed part) part)
  have read := addresses e (mount ++ ["ojs", "v1"]) front
  rw [List.map_append, UrlTarget.joined_append, List.append_assoc, ← base, List.append_assoc] at read
  rw [utf8Bytes_append, read]
  rfl

end

namespace IdentifierCall

variable {urlEncode : String → String}

/-- What stands for the identifier in the path. -/
def segment (urlEncode : String → String) (operation : IdentifierCall) (identifier : String) :
    String :=
  if operation.encodes then urlEncode identifier else identifier

theorem path_eq (operation : IdentifierCall) (identifier : String) :
    utf8Bytes (operation.call urlEncode identifier).path =
      joined (operation.before.map utf8Bytes ++
        utf8Bytes (operation.segment urlEncode identifier) :: operation.after.map utf8Bytes) := by
  have whole : ∀ (front back : String) (before after : List (List UInt8)) (segment : String),
      utf8Bytes front = joined before ++ [slash] → utf8Bytes back = joined after →
      utf8Bytes (front ++ segment ++ back) = joined (before ++ utf8Bytes segment :: after) := by
    intro front back before after segment first last
    rw [utf8Bytes_append, utf8Bytes_append, first, last]
    simp
  have short : ∀ (front : String) (before : List (List UInt8)) (segment : String),
      utf8Bytes front = joined before ++ [slash] →
      utf8Bytes (front ++ segment) = joined (before ++ utf8Bytes segment :: []) := by
    intro front before segment first
    rw [utf8Bytes_append, first]
    simp
  cases operation with
  | retryDeadLetterJob | getQueueStats | pauseQueue | resumeQueue =>
    exact whole _ _ _ _ _ (by decide) (by decide)
  | _ => exact short _ _ _ (by decide)

theorem fixed_parts (operation : IdentifierCall) :
    (∀ part ∈ operation.before, Fixed part) ∧ ∀ part ∈ operation.after, Fixed part := by
  cases operation <;> decide

theorem path_slashed (operation : IdentifierCall) (identifier : String) :
    (utf8Bytes (operation.call urlEncode identifier).path).head? = some slash := by
  rw [path_eq]
  cases operation <;> rfl

end IdentifierCall

/-- `utf8_percent_encode` with `NON_ALPHANUMERIC` -/
def percentEncode (s : String) : String :=
  String.ofList ((PercentCoding.encode (utf8Bytes s)).map latin1)

theorem utf8Bytes_percentEncode (s : String) :
    utf8Bytes (percentEncode s) = PercentCoding.encode (utf8Bytes s) := by
  have each : ∀ b ∈ PercentCoding.encode (utf8Bytes s),
      String.utf8EncodeChar (latin1 b) = [b] := by
    intro b mem
    have ascii : b.toNat < 0x80 := by
      rcases PercentCoding.mem_encode mem with alnum | rfl
      · simp only [PercentCoding.isAlphanumeric, Bool.or_eq_true, Bool.and_eq_true,
          decide_eq_true_eq, UInt8.le_iff_toNat_le] at alnum
        have digit : (0x39 : UInt8).toNat = 0x39 := rfl
        have upper : (0x5A : UInt8).toNat = 0x5A := rfl
        have lower : (0x7A : UInt8).toNat = 0x7A := rfl
        omega
      · decide
    have code : (latin1 b).toNat = b.toNat :=
      StdText.toNat_charOfNat (Or.inl (Nat.lt_trans ascii (by decide)))
    rw [StdText.utf8EncodeChar_ascii (by rwa [code]), code, UInt8.ofNat_toNat]
  rw [utf8Bytes, StdText.utf8_toList, percentEncode, String.toList_ofList, List.flatMap_map,
    List.flatMap_congr each, List.flatMap_singleton']

namespace IdentifierCall

variable {urlEncode : String → String}
  (documented : ∀ s, utf8Bytes (urlEncode s) = PercentCoding.encode (utf8Bytes s))

include documented

/-- An identifier that gets through, as a segment of the path. -/
theorem Keeps.segment {operation : IdentifierCall} {identifier : String}
    (keeps : operation.Keeps identifier) :
    let segment := utf8Bytes (operation.segment urlEncode identifier)
    PercentCoding.decode segment = utf8Bytes identifier ∧ isSolid segment = true ∧
      isDots segment = false ∧
      (operation.after.map utf8Bytes = [] → ∀ b ∈ segment.getLast?, isBlank b = false) := by
  obtain ⟨notDots, way⟩ := keeps
  unfold IdentifierCall.segment
  split
  next encoded =>
    rw [documented]
    refine ⟨PercentCoding.decode_encode _, UrlTarget.isSolid_encode _,
      (UrlTarget.isDots_encode_iff _).mpr ?_, fun _ b mem =>
        (UrlTarget.visible_of_mem_encode (List.mem_of_getLast? mem)).1⟩
    obtain ⟨single, double⟩ := utf8Bytes_eq_dots_iff identifier
    rwa [ne_eq, ne_eq, single, double, ← not_or]
  next raw =>
    obtain ⟨plain, closed⟩ := way.resolve_left raw
    have unescaped := (PercentCoding.decode_eq_self_iff _).mpr plain.escape
    refine ⟨unescaped, plain.isSolid, (isDots_utf8Bytes_iff unescaped).mpr notDots, ?_⟩
    intro last b mem
    cases blank : isBlank b with
    | false => rfl
    | true => exact absurd ⟨b, mem, blank⟩ (closed (List.map_eq_nil_iff.mp last))

theorem Keeps.addresses {operation : IdentifierCall} {identifier : String}
    (keeps : operation.Keeps identifier) :
    Addresses (operation.call urlEncode identifier).path
      (operation.before ++ [identifier] ++ operation.after) [] := by
  obtain ⟨first, last⟩ := operation.fixed_parts
  obtain ⟨decoded, solid, notDots, closed⟩ := keeps.segment documented
  exact addresses_around first last (operation.path_eq identifier) decoded solid notDots closed

end IdentifierCall

/-- An identifier stays inside its segment, and the call reaches the resource that it names and no
other, if and only if the operation encodes it or it needs no encoding, and it is not dots. -/
theorem identifier_one_segment_iff {urlEncode : String → String}
    (documented : ∀ s, utf8Bytes (urlEncode s) = PercentCoding.encode (utf8Bytes s))
    {sends : List UInt8 → List UInt8} {mount : List String} {t : HttpTransport}
    (served : ServedAt sends mount t.baseUrl) (operation : IdentifierCall) (identifier : String) :
    let path := (operation.call urlEncode identifier).path
    OneSegment operation.before operation.after path identifier ∧
        Reaches sends mount (t.url path)
          (["ojs", "v1"] ++ (operation.before ++ [identifier] ++ operation.after)) ↔
      operation.Keeps identifier := by
  intro path
  obtain ⟨first, last⟩ := operation.fixed_parts
  obtain ⟨e, sent⟩ := served.sent_url
  constructor
  · rintro ⟨-, reached⟩
    let before := mount ++ ["ojs", "v1"] ++ operation.before
    have front : ∀ part ∈ before, Fixed part := fun part mem =>
      (List.mem_append.mp mem).elim (served.fixed_base part) (first part)
    have split : before.map utf8Bytes = (mount ++ ["ojs", "v1"]).map utf8Bytes ++
        operation.before.map utf8Bytes := List.map_append
    have resource : (mount ++ (["ojs", "v1"] ++ (operation.before ++ [identifier] ++
        operation.after))).map utf8Bytes =
          before.map utf8Bytes ++ utf8Bytes identifier :: operation.after.map utf8Bytes := by
      simp [before]
    unfold Reaches at reached
    rw [sent, operation.path_eq, ← UrlTarget.joined_append, ← List.append_assoc, ← split,
      resource] at reached
    have read := congrArg UrlTarget.Parts.segments reached
    unfold IdentifierCall.segment at read
    split at read
    next encoded =>
      rw [documented] at read
      have other := (UrlTarget.segments_around_encode_iff (fixed_before front) (fixed_after last) e
        _ (fixed_around front last)).mp read
      obtain ⟨single, double⟩ := utf8Bytes_eq_dots_iff identifier
      rw [ne_eq, ne_eq, single, double, ← not_or] at other
      exact ⟨other, .inl encoded⟩
    next raw =>
      obtain ⟨solid, notDots, escape, closed⟩ := (UrlTarget.segments_around_iff (fixed_before front)
        (fixed_after last) e _ (fixed_around front last)).mp read
      have unescaped := (PercentCoding.decode_eq_self_iff _).mpr escape
      refine ⟨(isDots_utf8Bytes_iff unescaped).mp notDots, .inr ⟨plain_iff.mpr ⟨solid, escape⟩, ?_⟩⟩
      rintro ended ⟨b, mem, blank⟩
      rw [closed (by rw [ended]; rfl) b mem] at blank
      cases blank
  · intro keeps
    obtain ⟨decoded, solid, -, -⟩ := keeps.segment documented
    refine ⟨oneSegment_of_solid first last (operation.path_eq identifier) solid decoded, ?_⟩
    unfold Reaches
    rw [sent, ← List.append_assoc]
    exact keeps.addresses documented e _ served.fixed_base

/-- A client of the standard for the server at this host. -/
def localhostClient : List UInt8 → List UInt8 :=
  UrlTarget.standardClient (utf8Bytes "http://localhost:8080")

theorem servedAt_localhost : ServedAt localhostClient [] defaultTransport.baseUrl :=
  ⟨⟨"http://localhost:8080", UrlTarget.standard_standardClient _, by decide⟩, by simp⟩

/-- A queue name with every special character in it. -/
theorem odd_queue_one_segment :
    let path := (getQueueStats percentEncode "../a\\?b#c%2F").path
    OneSegment ["queues"] ["stats"] path "../a\\?b#c%2F" ∧
      Reaches localhostClient [] (defaultTransport.url path)
        ["ojs", "v1", "queues", "../a\\?b#c%2F", "stats"] :=
  (identifier_one_segment_iff utf8Bytes_percentEncode servedAt_localhost .getQueueStats
    "../a\\?b#c%2F").mpr ⟨by unfold IsDots; decide, .inl rfl⟩

/-- The cancellation of a job is sent to a path with a segment too many, and a queue of two dots,
though they are encoded, is taken for the directory above. -/
theorem slash_redirects : (cancelJob "a/b").path = "/jobs/a/b" ∧
    ¬OneSegment ["jobs"] [] (cancelJob "a/b").path "a/b" ∧
    Reaches localhostClient [] (defaultTransport.url (getQueueStats percentEncode "..").path)
      ["ojs", "v1", "stats"] := by
  refine ⟨by decide, ?_, by unfold Reaches; decide⟩
  rintro ⟨⟨segment, cut, _⟩, _, _⟩
  have length := congrArg List.length cut
  rw [List.length_cons, List.length_append, List.length_append, List.length_singleton] at length
  exact absurd length (by decide)

end OjsSdk
