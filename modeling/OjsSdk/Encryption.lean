import OjsSdk.EnqueueOptions
import Mathlib.Data.Vector.Basic

namespace OjsSdk

structure KeyProvider where
  getKey : String → Option (List UInt8)
  currentKeyId : String

structure StaticKeyProvider where
  keys : List (String × List UInt8)
  current : String

namespace StaticKeyProvider

def new (keyId : String) (key : List UInt8) : StaticKeyProvider where
  keys := [(keyId, key)]
  current := keyId

def addKey (p : StaticKeyProvider) (keyId : String) (key : List UInt8) : StaticKeyProvider where
  keys := (keyId, key) :: p.keys.filter (fun entry => entry.1 != keyId)
  current := p.current

def toKeyProvider (p : StaticKeyProvider) : KeyProvider where
  getKey keyId := (p.keys.find? (fun entry => entry.1 == keyId)).map Prod.snd
  currentKeyId := p.current

end StaticKeyProvider

def keySize : Nat := 32

def nonceSize : Nat := 12

/-- The parts of `aes_gcm`, `base64` and `serde_json` that the codec calls, with the texts
of their errors. The cipher is AES-256-GCM under a key and a nonce. -/
structure CodecBackend where
  encrypt : List.Vector UInt8 keySize → List.Vector UInt8 nonceSize → List UInt8 →
    Except String (List UInt8)
  decrypt : List.Vector UInt8 keySize → List.Vector UInt8 nonceSize → List UInt8 →
    Except String (List UInt8)
  base64Encode : List UInt8 → String
  base64Decode : String → Except String (List UInt8)
  toVec : Value → Except String (List UInt8)
  fromSlice : List UInt8 → Except String Value

/-- The slice of a wrong length that `from_slice` was given. -/
inductive SlicePanic
  | key
  | nonce
  deriving DecidableEq, Repr

inductive CodecFault
  | failed (e : OjsError)
  | panicked (panic : SlicePanic)

/-- `Key::from_slice` and `Nonce::from_slice`. -/
def sliceOf (n : Nat) (panic : SlicePanic) (bytes : List UInt8) :
    Except CodecFault (List.Vector UInt8 n) :=
  if h : bytes.length = n then .ok ⟨bytes, h⟩ else .error (.panicked panic)

/-- `.map_err(|e| OjsError::Handler(format!("..{}", e)))` -/
def handlerErr {α : Type} (text : String) : Except String α → Except CodecFault α
  | .ok a => .ok a
  | .error e => .error (.failed (.handler (text ++ e)))

/-- `.ok_or_else(|| OjsError::Handler(..))` -/
def okOrHandler {α : Type} (message : String) : Option α → Except CodecFault α
  | some a => .ok a
  | none => .error (.failed (.handler message))

namespace EncryptionCodec

def encrypt (backend : CodecBackend) (nonceBytes : List.Vector UInt8 nonceSize)
    (plaintext key : List UInt8) : Except CodecFault (List UInt8) := do
  let key ← sliceOf keySize .key key
  let ciphertext ← handlerErr "encryption failed: " (backend.encrypt key nonceBytes plaintext)
  .ok (nonceBytes.toList ++ ciphertext)

def decrypt (backend : CodecBackend) (data key : List UInt8) : Except CodecFault (List UInt8) :=
  if data.length < nonceSize then
    .error (.failed (.handler "encrypted data too short to contain nonce"))
  else do
    let (nonceBytes, ciphertext) := data.splitAt nonceSize
    let key ← sliceOf keySize .key key
    let nonce ← sliceOf nonceSize .nonce nonceBytes
    handlerErr "decryption failed: " (backend.decrypt key nonce ciphertext)

end EncryptionCodec

namespace MetaMap

def remove (m : MetaMap) (key : String) : MetaMap :=
  m.filter (fun entry => entry.1 != key)

def insert (m : MetaMap) (key : String) (value : Value) : MetaMap :=
  (key, value) :: remove m key

variable {m : MetaMap} {key key' : String} {value : Value}

@[simp] theorem lookupField_insert_self : lookupField (insert m key value) key = some value := by
  simp [insert, lookupField]

theorem lookupField_remove_of_ne (h : key' ≠ key) :
    lookupField (remove m key) key' = lookupField m key' := by
  unfold lookupField remove
  rw [List.find?_filter]
  congr 2
  funext entry
  by_cases same : entry.1 = key' <;> simp [same, h]

@[simp] theorem lookupField_insert_of_ne (h : key' ≠ key) :
    lookupField (insert m key value) key' = lookupField m key' := by
  have head : lookupField (insert m key value) key' = lookupField (remove m key) key' := by
    simp [insert, lookupField, Ne.symm h]
  rw [head, lookupField_remove_of_ne h]

theorem remove_of_lookupField_eq_none (h : lookupField m key = none) : remove m key = m := by
  simp only [lookupField, Option.map_eq_none_iff, List.find?_eq_none] at h
  exact List.filter_eq_self.mpr (fun entry mem => by simpa using h entry mem)

theorem remove_remove_self : remove (remove m key) key = remove m key := by
  simp [remove]

@[simp] theorem remove_insert_self : remove (insert m key value) key = remove m key := by
  have head : remove (insert m key value) key = remove (remove m key) key := by
    simp [insert, remove]
  rw [head, remove_remove_self]

theorem remove_comm : remove (remove m key) key' = remove (remove m key') key := by
  simp only [remove, List.filter_filter]
  congr 1
  funext entry
  exact Bool.and_comm _ _

@[simp] theorem remove_insert_of_ne (h : key' ≠ key) :
    remove (insert m key value) key' = insert (remove m key') key value := by
  have head : remove (insert m key value) key' = (key, value) :: remove (remove m key) key' := by
    simp [insert, remove, Ne.symm h]
  rw [head, remove_comm]
  rfl

end MetaMap

def metaCodecEncodings : String := "ojs.codec.encodings"

def metaCodecKeyId : String := "ojs.codec.key_id"

def encodingBinaryEncrypted : String := "binary/encrypted"

def legacyMetaEncrypted : String := "_encrypted"

def legacyMetaKeyId : String := "_encryption_key_id"

namespace EncryptionMiddleware

def hasCanonicalMarker (metadata : Option MetaMap) : Bool :=
  match metadata.bind (fun m => lookupField m metaCodecEncodings) with
  | some (.array arr) => arr.any (fun e => e.asStr == some encodingBinaryEncrypted)
  | _ => false

def hasLegacyMarker (metadata : Option MetaMap) : Bool :=
  ((metadata.bind (fun m => lookupField m legacyMetaEncrypted)).bind Value.asBool).getD false

def isEncrypted (metadata : Option MetaMap) : Bool :=
  hasCanonicalMarker metadata || hasLegacyMarker metadata

def keyId (metadata : Option MetaMap) : Except CodecFault String :=
  okOrHandler "encrypted job missing ojs.codec.key_id in meta"
    ((metadata.bind (fun m =>
      (lookupField m metaCodecKeyId).or (lookupField m legacyMetaKeyId))).bind Value.asStr)

/-- The payload of an encrypted job: a base64 string, or an array of one. -/
def encodedArgs : Value → Except CodecFault String
  | .string s => .ok s
  | .array [item] => okOrHandler "encrypted args element is not a string" item.asStr
  | _ => .error (.failed (.handler "encrypted args must be a base64 string or single-element array"))

def removeMarkers (m : MetaMap) : MetaMap :=
  [metaCodecEncodings, metaCodecKeyId, legacyMetaEncrypted, legacyMetaKeyId].foldl MetaMap.remove m

/-- What `handle` does to the context before it runs the next handler. -/
def decryptContext (backend : CodecBackend) (keys : KeyProvider) (ctx : JobContext) :
    Except CodecFault JobContext :=
  if isEncrypted ctx.job.metadata then do
    let keyId ← keyId ctx.job.metadata
    let key ← okOrHandler ("unknown encryption key id: " ++ keyId) (keys.getKey keyId)
    let encoded ← encodedArgs ctx.job.args
    let raw ← handlerErr "base64 decode of encrypted args failed: " (backend.base64Decode encoded)
    let plaintext ← EncryptionCodec.decrypt backend raw key
    let decrypted ← handlerErr "failed to parse decrypted args as JSON: "
      (backend.fromSlice plaintext)
    .ok { ctx with
      job := { ctx.job with
        args := decrypted
        metadata := ctx.job.metadata.map removeMarkers } }
  else .ok ctx

/-- The middleware, before a handler that may do anything, in any monad. -/
def handle {n : Type → Type} [Monad n] (backend : CodecBackend) (keys : KeyProvider)
    (ctx : JobContext) (next : JobContext → ExceptT SlicePanic n HandlerResult) :
    ExceptT SlicePanic n HandlerResult :=
  match decryptContext backend keys ctx with
  | .ok ctx => next ctx
  | .error (.failed e) => pure (.error e)
  | .error (.panicked panic) => throw panic

end EncryptionMiddleware

def encryptJob (backend : CodecBackend) (nonceBytes : List.Vector UInt8 nonceSize)
    (keys : KeyProvider) (job : Job) : Except CodecFault Job := do
  let keyId := keys.currentKeyId
  let key ← okOrHandler ("current encryption key not found: " ++ keyId) (keys.getKey keyId)
  let plaintext ← handlerErr "failed to serialize args: " (backend.toVec job.args)
  let encrypted ← EncryptionCodec.encrypt backend nonceBytes plaintext key
  let encoded := backend.base64Encode encrypted
  let metadata := MetaMap.insert (job.metadata.getD []) metaCodecEncodings
    (.array [.string encodingBinaryEncrypted])
  .ok { job with
    args := .array [.string encoded]
    metadata := some (MetaMap.insert metadata metaCodecKeyId (.string keyId)) }

end OjsSdk
