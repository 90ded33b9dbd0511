import OjsSdk.Encryption
import OjsSdk.ArgsRoundTrip
import OjsSdk.Base64
import OjsSdk.StdText

namespace OjsSdk

variable {backend : CodecBackend} {nonce : List.Vector UInt8 nonceSize}
  {key : List.Vector UInt8 keySize} {keys later : KeyProvider} {job sealed : Job}

/-- Decoding inverts what the cipher and base64 have encoded. -/
structure CodecBackend.Lossless (backend : CodecBackend) : Prop where
  cipher : ∀ key nonce plaintext ciphertext,
    backend.encrypt key nonce plaintext = .ok ciphertext →
      backend.decrypt key nonce ciphertext = .ok plaintext
  base64 : ∀ bytes, backend.base64Decode (backend.base64Encode bytes) = .ok bytes

/-- serde_json reads back what it has written for a value. -/
def CodecBackend.ReadsBack (backend : CodecBackend) (v : Value) : Prop :=
  ∀ bytes, backend.toVec v = .ok bytes → backend.fromSlice bytes = .ok v

theorem handlerErr_eq_ok {α : Type} {text : String} {r : Except String α} {a : α} :
    handlerErr text r = .ok a ↔ r = .ok a := by
  cases r <;> simp [handlerErr]

theorem sliceOf_toList {n : Nat} (panic : SlicePanic) (v : List.Vector UInt8 n) :
    sliceOf n panic v.toList = .ok v := by
  simp [sliceOf]

namespace EncryptionCodec

/-- Under a key of 32 bytes, encryption frames a ciphertext with its nonce, or the cipher
has refused. -/
theorem encrypt_eq_ok_iff {plaintext data : List UInt8} :
    encrypt backend nonce plaintext key.toList = .ok data ↔
      ∃ ciphertext, backend.encrypt key nonce plaintext = .ok ciphertext ∧
        data = nonce.toList ++ ciphertext := by
  unfold encrypt
  rw [sliceOf_toList]
  cases cipher : backend.encrypt key nonce plaintext with
  | error e => simp [handlerErr, bind, Except.bind, cipher]
  | ok ciphertext => simp [handlerErr, bind, Except.bind, cipher, eq_comm]

theorem decrypt_framed (ciphertext : List UInt8) :
    decrypt backend (nonce.toList ++ ciphertext) key.toList =
      handlerErr "decryption failed: " (backend.decrypt key nonce ciphertext) := by
  have length : nonce.toList.length = nonceSize := nonce.toList_length
  have long : ¬(nonce.toList ++ ciphertext).length < nonceSize := by
    rw [List.length_append, length]
    omega
  have split : (nonce.toList ++ ciphertext).splitAt nonceSize = (nonce.toList, ciphertext) := by
    rw [List.splitAt_eq, List.take_left' length, List.drop_left' length]
  unfold decrypt
  simp only [long, ↓reduceIte, split, sliceOf_toList, bind, Except.bind]

theorem decrypt_encrypt (lossless : backend.Lossless) {plaintext data : List UInt8}
    (encrypted : encrypt backend nonce plaintext key.toList = .ok data) :
    decrypt backend data key.toList = .ok plaintext := by
  obtain ⟨ciphertext, refused, rfl⟩ := encrypt_eq_ok_iff.mp encrypted
  rw [decrypt_framed, handlerErr_eq_ok]
  exact lossless.cipher key nonce plaintext ciphertext refused

end EncryptionCodec

/-- The metadata that an encrypted job carries. -/
def sealedMeta (keyId : String) (metadata : Option MetaMap) : MetaMap :=
  MetaMap.insert
    (MetaMap.insert (metadata.getD []) metaCodecEncodings (.array [.string encodingBinaryEncrypted]))
    metaCodecKeyId (.string keyId)

theorem encryptJob_eq_ok_iff (known : keys.getKey keys.currentKeyId = some key.toList) :
    encryptJob backend nonce keys job = .ok sealed ↔
      ∃ plaintext data, backend.toVec job.args = .ok plaintext ∧
        EncryptionCodec.encrypt backend nonce plaintext key.toList = .ok data ∧
        sealed = { job with
          args := .array [.string (backend.base64Encode data)]
          metadata := some (sealedMeta keys.currentKeyId job.metadata) } := by
  unfold encryptJob
  simp only [known, okOrHandler, bind, Except.bind]
  cases json : backend.toVec job.args with
  | error e => simp [handlerErr]
  | ok plaintext =>
    cases encrypted : EncryptionCodec.encrypt backend nonce plaintext key.toList with
    | error e => simp [handlerErr, encrypted]
    | ok data => simp [handlerErr, encrypted, sealedMeta, eq_comm]

namespace EncryptionMiddleware

/-- The four keys under which a job is marked as encrypted. -/
def markerKeys : List String :=
  [metaCodecEncodings, metaCodecKeyId, legacyMetaEncrypted, legacyMetaKeyId]

def Unmarked (metadata : Option MetaMap) : Prop :=
  ∀ key ∈ markerKeys, lookupField (metadata.getD []) key = none

theorem isEncrypted_sealedMeta (keyId : String) (metadata : Option MetaMap) :
    isEncrypted (some (sealedMeta keyId metadata)) = true := by
  have other : metaCodecEncodings ≠ metaCodecKeyId := by decide
  have canonical : hasCanonicalMarker (some (sealedMeta keyId metadata)) = true := by
    simp [hasCanonicalMarker, sealedMeta, other, Value.asStr]
  simp [isEncrypted, canonical]

theorem keyId_sealedMeta (id : String) (metadata : Option MetaMap) :
    keyId (some (sealedMeta id metadata)) = .ok id := by
  simp [keyId, sealedMeta, okOrHandler, Value.asStr]

theorem removeMarkers_eq_filter (m : MetaMap) :
    removeMarkers m = m.filter (fun entry => !markerKeys.contains entry.1) := by
  simp only [removeMarkers, markerKeys, List.foldl_cons, List.foldl_nil, MetaMap.remove,
    List.filter_filter]
  congr 1
  funext entry
  simp only [List.contains_cons, List.contains_nil, Bool.or_false, Bool.not_or, bne]
  grind

theorem lookupField_removeMarkers (m : MetaMap) (key : String) :
    lookupField (removeMarkers m) key = if key ∈ markerKeys then none else lookupField m key := by
  rw [removeMarkers_eq_filter]
  unfold lookupField
  rw [List.find?_filter]
  by_cases marker : key ∈ markerKeys
  · rw [if_pos marker, Option.map_eq_none_iff, List.find?_eq_none]
    intro entry _ kept
    have outside : entry.1 ∉ markerKeys ∧ entry.1 = key := by simpa using kept
    rw [outside.2] at outside
    exact outside.1 marker
  · rw [if_neg marker]
    congr 2
    funext entry
    by_cases same : entry.1 = key <;> simp [same, marker]

theorem unmarked_removeMarkers (m : MetaMap) : Unmarked (some (removeMarkers m)) := by
  intro key marker
  rw [Option.getD_some, lookupField_removeMarkers, if_pos marker]

theorem removeMarkers_of_unmarked {metadata : Option MetaMap} (unmarked : Unmarked metadata) :
    removeMarkers (metadata.getD []) = metadata.getD [] := by
  have encodings := MetaMap.remove_of_lookupField_eq_none (unmarked metaCodecEncodings (by decide))
  have canonicalId := MetaMap.remove_of_lookupField_eq_none (unmarked metaCodecKeyId (by decide))
  have legacy := MetaMap.remove_of_lookupField_eq_none (unmarked legacyMetaEncrypted (by decide))
  have legacyId := MetaMap.remove_of_lookupField_eq_none (unmarked legacyMetaKeyId (by decide))
  simp only [removeMarkers, List.foldl_cons, List.foldl_nil, encodings, canonicalId, legacy,
    legacyId]

theorem removeMarkers_sealedMeta (keyId : String) (metadata : Option MetaMap) :
    removeMarkers (sealedMeta keyId metadata) = removeMarkers (metadata.getD []) := by
  have other : metaCodecEncodings ≠ metaCodecKeyId := by decide
  simp only [removeMarkers, sealedMeta, List.foldl_cons, List.foldl_nil,
    MetaMap.remove_insert_of_ne other, MetaMap.remove_insert_self]

/-- The middleware opens an encrypted job under the key that its metadata names. All markers go,
whether or not the encryption has set them. -/
theorem decryptContext_encryptJob (lossless : backend.Lossless) (json : backend.ReadsBack job.args)
    (known : keys.getKey keys.currentKeyId = some key.toList)
    (kept : later.getKey keys.currentKeyId = some key.toList)
    (encrypted : encryptJob backend nonce keys job = .ok sealed) {ctx : JobContext}
    (delivered : ctx.job = sealed) :
    decryptContext backend later ctx =
      .ok { ctx with
        job := { job with metadata := some (removeMarkers (job.metadata.getD [])) } } := by
  obtain ⟨plaintext, data, written, cipher, rfl⟩ := (encryptJob_eq_ok_iff known).mp encrypted
  have decrypted := EncryptionCodec.decrypt_encrypt lossless cipher
  have parsed := json plaintext written
  unfold decryptContext
  simp only [delivered, isEncrypted_sealedMeta, ↓reduceIte, keyId_sealedMeta, kept, okOrHandler,
    encodedArgs, Value.asStr, lossless.base64, handlerErr, decrypted, parsed, Option.map_some,
    removeMarkers_sealedMeta, bind, Except.bind]

end EncryptionMiddleware

/-- Under a key of 32 bytes a job is encrypted, unless serde_json or the cipher refuses it. Its
wire form stays as it is, and the middleware runs the next handler on the job as it was,
whatever has become of the other keys. -/
theorem encryption_transparent (nonce : List.Vector UInt8 nonceSize)
    (lossless : backend.Lossless) (json : backend.ReadsBack job.args)
    (unmarked : EncryptionMiddleware.Unmarked job.metadata)
    (known : keys.getKey keys.currentKeyId = some key.toList)
    (kept : later.getKey keys.currentKeyId = some key.toList) :
    ((∃ sealed, encryptJob backend nonce keys job = .ok sealed) ↔
      ∃ plaintext ciphertext, backend.toVec job.args = .ok plaintext ∧
        backend.encrypt key nonce plaintext = .ok ciphertext) ∧
    ∀ sealed, encryptJob backend nonce keys job = .ok sealed →
      normalizeArgs sealed.args = sealed.args ∧
      ∀ ctx : JobContext, ctx.job = sealed →
        ∀ {n : Type → Type} [Monad n] (next : JobContext → ExceptT SlicePanic n HandlerResult),
          EncryptionMiddleware.handle backend later ctx next =
            next { ctx with job := { job with metadata := some (job.metadata.getD []) } } := by
  refine ⟨?_, fun sealed encrypted => ⟨?_, fun ctx delivered n _ next => ?_⟩⟩
  · simp only [encryptJob_eq_ok_iff known, EncryptionCodec.encrypt_eq_ok_iff]
    constructor
    · rintro ⟨_, plaintext, _, written, ⟨ciphertext, cipher, _⟩, _⟩
      exact ⟨plaintext, ciphertext, written, cipher⟩
    · rintro ⟨plaintext, ciphertext, written, cipher⟩
      exact ⟨_, plaintext, _, written, ⟨ciphertext, cipher, rfl⟩, rfl⟩
  · obtain ⟨_, _, _, _, rfl⟩ := (encryptJob_eq_ok_iff known).mp encrypted
    rfl
  · have opened := EncryptionMiddleware.decryptContext_encryptJob lossless json known kept
      encrypted delivered
    simp only [EncryptionMiddleware.handle, opened,
      EncryptionMiddleware.removeMarkers_of_unmarked unmarked]

/-- A character that JSON writes as it is. -/
def isPlainText (c : Char) : Bool :=
  0x20 ≤ c.toNat && c.toNat < 0x7F && c.toNat != 0x22 && c.toNat != 0x5C

/-- The JSON of an array of one plain string. -/
def quoted (s : String) : List UInt8 :=
  [91, 34] ++ s.toList.map (fun c => UInt8.ofNat c.toNat) ++ [34, 93]

def unquoted (bytes : List UInt8) : String :=
  String.ofList ((bytes.drop 2).dropLast.dropLast.map (fun b => Char.ofNat b.toNat))

def zeroKey : List.Vector UInt8 keySize := .replicate keySize 0

/-- AES-256-GCM of `["test"]` under the zero key and the zero nonce. -/
def testCiphertext : List UInt8 :=
  [149, 133, 52, 88, 62, 20, 73, 51, 228, 218, 220, 214, 201, 208, 218, 71, 210, 84, 222, 171, 32,
    76, 15, 235]

def testPlaintext : List UInt8 := [91, 34, 116, 101, 115, 116, 34, 93]

def testData : List UInt8 := List.replicate 12 0 ++ testCiphertext

def testEncoded : String := "AAAAAAAAAAAAAAAAlYU0WD4USTPk2tzWydDaR9JU3qsgTA/r"

/-- The same of the array of `testEncoded`, under the zero key and a nonce of ones. -/
def sealedCiphertext : List UInt8 :=
  [46, 98, 130, 43, 59, 200, 57, 188, 35, 247, 165, 199, 250, 110, 61, 40, 253, 36, 128, 2, 90,
    214, 98, 114, 59, 224, 66, 228, 175, 132, 149, 152, 250, 127, 222, 57, 190, 26, 190, 218, 2,
    199, 223, 15, 239, 15, 148, 57, 205, 38, 194, 99, 6, 151, 115, 131, 27, 242, 186, 76, 34, 188,
    146, 33, 103, 156, 155, 128]

/-- The parts of the codec, with a cipher for two encryptions of one job. -/
def testBackend : CodecBackend where
  encrypt key nonce plaintext :=
    if key = zeroKey ∧ nonce = .replicate nonceSize 0 ∧ plaintext = testPlaintext then
      .ok testCiphertext
    else if key = zeroKey ∧ nonce = .replicate nonceSize 1 ∧ plaintext = quoted testEncoded then
      .ok sealedCiphertext
    else .error "aead::Error"
  decrypt key nonce ciphertext :=
    if key = zeroKey ∧ nonce = .replicate nonceSize 0 ∧ ciphertext = testCiphertext then
      .ok testPlaintext
    else if key = zeroKey ∧ nonce = .replicate nonceSize 1 ∧ ciphertext = sealedCiphertext then
      .ok (quoted testEncoded)
    else .error "aead::Error"
  base64Encode bytes := String.ofList (Base64.encode bytes)
  base64Decode s :=
    match Base64.decode s.toList with
    | some bytes => .ok bytes
    | none => .error "Invalid symbol"
  toVec
    | .array [.string s] =>
      if s.toList.all isPlainText = true then .ok (quoted s) else .error "not plain"
    | _ => .error "not a single string"
  fromSlice bytes :=
    let s := unquoted bytes
    if s.toList.all isPlainText = true ∧ bytes = quoted s then .ok (.array [.string s])
    else .error "not a plain string"

theorem unquoted_quoted {s : String} (plain : s.toList.all isPlainText = true) :
    unquoted (quoted s) = s := by
  have back : ∀ c ∈ s.toList, Char.ofNat (UInt8.ofNat c.toNat).toNat = c := by
    intro c mem
    have small := List.all_eq_true.mp plain c mem
    simp only [isPlainText, Bool.and_eq_true, decide_eq_true_eq] at small
    rw [UInt8.toNat_ofNat', Nat.mod_eq_of_lt (by omega), Char.ofNat_toNat]
  have inner : ((quoted s).drop 2).dropLast.dropLast =
      s.toList.map (fun c => UInt8.ofNat c.toNat) := by
    simp [quoted]
  have same : s.toList.map ((fun b : UInt8 => Char.ofNat b.toNat) ∘ fun c => UInt8.ofNat c.toNat) =
      s.toList :=
    (List.map_congr_left back).trans (List.map_id _)
  rw [unquoted, inner, List.map_map, same, String.ofList_toList]

theorem testBackend_base64 (bytes : List UInt8) :
    testBackend.base64Decode (testBackend.base64Encode bytes) = .ok bytes := by
  simp only [testBackend, String.toList_ofList, Base64.decode_encode]

theorem testBackend_readsBack (v : Value) : testBackend.ReadsBack v := by
  intro bytes written
  simp only [testBackend] at written ⊢
  split at written
  next s =>
    split at written
    next plain =>
      cases written
      rw [unquoted_quoted plain, if_pos ⟨plain, rfl⟩]
    next => cases written
  next => cases written

theorem testBackend_lossless : testBackend.Lossless where
  cipher key nonce plaintext ciphertext encrypted := by
    simp only [testBackend] at encrypted
    split at encrypted
    next first =>
      obtain ⟨rfl, rfl, rfl⟩ := first
      cases encrypted
      rfl
    next =>
      split at encrypted
      next second =>
        obtain ⟨rfl, rfl, rfl⟩ := second
        cases encrypted
        rfl
      next => cases encrypted
  base64 := testBackend_base64

def testJob : Job :=
  { Job.ofWire "job-1" "test.encrypt" (.array [.string "test"]) with
    metadata := some [("tenant", .string "acme")] }

/-- A job comes back after its key has been rotated out. -/
theorem encryption_transparent_rotated :
    let keys := (StaticKeyProvider.new "k1" zeroKey.toList).toKeyProvider
    let later := ((StaticKeyProvider.new "k2" (List.replicate 32 1)).addKey "k1"
      zeroKey.toList).toKeyProvider
    ∃ sealed, encryptJob testBackend (.replicate nonceSize 0) keys testJob = .ok sealed ∧
      sealed.args = .array [.string testEncoded] ∧
      ∀ ctx : JobContext, ctx.job = sealed →
        ∀ next : JobContext → ExceptT SlicePanic Id HandlerResult,
          EncryptionMiddleware.handle testBackend later ctx next =
            next { ctx with job := testJob } := by
  intro keys later
  have unmarked : EncryptionMiddleware.Unmarked testJob.metadata := by
    simp [EncryptionMiddleware.Unmarked, EncryptionMiddleware.markerKeys, testJob, lookupField,
      metaCodecEncodings, metaCodecKeyId, legacyMetaEncrypted, legacyMetaKeyId]
  have known : keys.getKey keys.currentKeyId = some zeroKey.toList := rfl
  have kept : later.getKey keys.currentKeyId = some zeroKey.toList := rfl
  have transparent := encryption_transparent (.replicate nonceSize 0) testBackend_lossless
    (testBackend_readsBack testJob.args) unmarked known kept
  obtain ⟨sealed, encrypted⟩ := transparent.1.mpr ⟨testPlaintext, testCiphertext, rfl, rfl⟩
  refine ⟨sealed, encrypted, ?_, fun ctx delivered next => ?_⟩
  · cases encrypted
    rfl
  · exact (transparent.2 sealed encrypted).2 ctx delivered next

end OjsSdk
