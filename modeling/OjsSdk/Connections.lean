import OjsSdk.LastWriter
import OjsSdk.RequestIds
import Mathlib.Data.List.AList

namespace OjsSdk

/-- `HashMap<String, String>`. -/
abbrev HeaderSettings := AList (fun _ : String => String)

structure ConnectionConfig where
  url : String
  authToken : Option String
  headers : HeaderSettings

inductive ConfigSetting
  | authToken (token : String)
  | header (key value : String)

namespace ConnectionConfig

def new (url : String) : ConnectionConfig where
  url
  authToken := none
  headers := ∅

def set (c : ConnectionConfig) : ConfigSetting → ConnectionConfig
  | .authToken token => { c with authToken := some token }
  | .header key value => { c with headers := c.headers.insert key value }

end ConnectionConfig

/-- The fields that a `ClientBuilder` hands on to its transport, and a `WorkerBuilder` to its. -/
structure Connection where
  url : Option String
  authToken : Option String
  headers : HeaderSettings
  retryConfig : Option RetryConfig

/-- A call of a method of the builders. That of `header` is one of `ClientBuilder` only. -/
inductive Setting
  | url (url : String)
  | connection (config : ConnectionConfig)
  | authToken (token : String)
  | header (key value : String)
  | retryConfig (config : RetryConfig)

namespace Connection

def new : Connection where
  url := none
  authToken := none
  headers := ∅
  retryConfig := none

def set (c : Connection) : Setting → Connection
  | .url url => { c with url := some url }
  | .connection config =>
    { c with url := some config.url, authToken := config.authToken, headers := config.headers }
  | .authToken token => { c with authToken := some token }
  | .header key value => { c with headers := c.headers.insert key value }
  | .retryConfig config => { c with retryConfig := some config }

/-- The order in which the map of headers lists its entries is a parameter. -/
def transport (order : List (String × String) → List (String × String)) (c : Connection)
    (url : String) : HttpTransport :=
  .new url
    { authToken := c.authToken
      headers := order (c.headers.entries.map (fun entry => (entry.1, entry.2)))
      retryConfig := c.retryConfig }

/-- What `ClientBuilder::build` and `WorkerBuilder::build` make of the connection. -/
def build (order : List (String × String) → List (String × String)) (c : Connection) :
    Except OjsError HttpTransport :=
  match c.url with
  | none => .error (.builder "url is required")
  | some url => .ok (c.transport order url)

end Connection

namespace Setting

end Setting

namespace Connection

variable (settings : List Setting)

end Connection

theorem HeaderSettings.nodup (headers : HeaderSettings) :
    ((headers.entries.map (fun entry => (entry.1, entry.2))).map Prod.fst).Nodup := by
  rw [List.map_map]
  exact headers.keys_nodup

namespace HttpTransport

variable {t : HttpTransport} {json : SerdeJson} {overflowChecks : Bool} {method : Method}
  {path : String} {body : Option Value} {rawPath : Bool} {env : Nat → Attempt}

end HttpTransport

namespace ConnectionConfig

/-- The same setting of a builder. -/
def setting : ConfigSetting → Setting
  | .authToken token => .authToken token
  | .header key value => .header key value

theorem set_connection (c : Connection) (config : ConnectionConfig) (setting : ConfigSetting) :
    c.set (.connection (config.set setting)) =
      (c.set (.connection config)).set (ConnectionConfig.setting setting) := by
  cases setting <;> rfl

/-- A shared connection does what its settings do when they are made on the builder itself. -/
theorem foldl_connection (settings : List ConfigSetting) (url : String) :
    Connection.new.set (.connection (settings.foldl set (new url))) =
      (settings.map setting).foldl Connection.set (Connection.new.set (.url url)) := by
  have each : ∀ config : ConnectionConfig,
      Connection.new.set (.connection (settings.foldl set config)) =
        (settings.map setting).foldl Connection.set (Connection.new.set (.connection config)) := by
    induction settings with
    | nil => exact fun _ => rfl
    | cons first settings ih =>
      intro config
      rw [List.foldl_cons, List.map_cons, List.foldl_cons, ih, set_connection]
  exact each (new url)

end ConnectionConfig

end OjsSdk
