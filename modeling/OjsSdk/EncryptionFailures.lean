import OjsSdk.EncryptionRoundTrip

namespace OjsSdk

variable {backend : CodecBackend} {keys : KeyProvider} {ctx : JobContext}

namespace EncryptionMiddleware

/-- The metadata marks the arguments as encrypted, in the canonical or in the legacy way. -/
def Marked (metadata : Option MetaMap) : Prop :=
  (∃ arr, lookupField (metadata.getD []) metaCodecEncodings = some (.array arr) ∧
    .string encodingBinaryEncrypted ∈ arr) ∨
  lookupField (metadata.getD []) legacyMetaEncrypted = some (.bool true)

/-- The metadata names a key. The legacy entry counts where there is no canonical one. -/
def NamesKey (metadata : Option MetaMap) (id : String) : Prop :=
  lookupField (metadata.getD []) metaCodecKeyId = some (.string id) ∨
  lookupField (metadata.getD []) metaCodecKeyId = none ∧
    lookupField (metadata.getD []) legacyMetaKeyId = some (.string id)

def CarriesPayload (args : Value) (encoded : String) : Prop :=
  args = .string encoded ∨ args = .array [.string encoded]

theorem bind_lookupField (metadata : Option MetaMap) (key : String) :
    metadata.bind (fun m => lookupField m key) = lookupField (metadata.getD []) key := by
  cases metadata with
  | none => rfl
  | some m => rfl

theorem asStr_eq_some_iff {v : Value} {s : String} : v.asStr = some s ↔ v = .string s := by
  cases v <;> simp [Value.asStr]

theorem hasCanonicalMarker_iff (metadata : Option MetaMap) :
    hasCanonicalMarker metadata = true ↔
      ∃ arr, lookupField (metadata.getD []) metaCodecEncodings = some (.array arr) ∧
        .string encodingBinaryEncrypted ∈ arr := by
  unfold hasCanonicalMarker
  rw [bind_lookupField]
  have member : ∀ arr : List Value,
      arr.any (fun e => e.asStr == some encodingBinaryEncrypted) = true ↔
        .string encodingBinaryEncrypted ∈ arr := by
    intro arr
    simp only [List.any_eq_true, beq_iff_eq, asStr_eq_some_iff, exists_eq_right]
  cases lookupField (metadata.getD []) metaCodecEncodings with
  | none => simp
  | some v =>
    cases v with
    | array arr =>
      simp only [member, Option.some.injEq, Value.array.injEq]
      constructor
      · intro mem
        exact ⟨arr, rfl, mem⟩
      · rintro ⟨_, rfl, mem⟩
        exact mem
    | _ => simp

theorem isEncrypted_iff (metadata : Option MetaMap) :
    isEncrypted metadata = true ↔ Marked metadata := by
  have legacy : hasLegacyMarker metadata = true ↔
      lookupField (metadata.getD []) legacyMetaEncrypted = some (.bool true) := by
    unfold hasLegacyMarker
    rw [bind_lookupField]
    cases lookupField (metadata.getD []) legacyMetaEncrypted with
    | none => simp
    | some v => cases v <;> simp [Value.asBool]
  rw [isEncrypted, Bool.or_eq_true, hasCanonicalMarker_iff, legacy, Marked]

theorem keyId_eq_ok_iff (metadata : Option MetaMap) (id : String) :
    keyId metadata = .ok id ↔ NamesKey metadata id := by
  have either : metadata.bind (fun m =>
      (lookupField m metaCodecKeyId).or (lookupField m legacyMetaKeyId)) =
        (lookupField (metadata.getD []) metaCodecKeyId).or
          (lookupField (metadata.getD []) legacyMetaKeyId) := by
    cases metadata with
    | none => rfl
    | some m => rfl
  have named : ∀ v : Option Value,
      okOrHandler "encrypted job missing ojs.codec.key_id in meta" (v.bind Value.asStr) = .ok id ↔
        v = some (.string id) := by
    intro v
    cases v with
    | none => simp [okOrHandler]
    | some v => cases v <;> simp [okOrHandler, Value.asStr]
  rw [keyId, either, named, NamesKey]
  cases lookupField (metadata.getD []) metaCodecKeyId with
  | none => simp
  | some v => simp

theorem encodedArgs_eq_ok_iff (args : Value) (encoded : String) :
    encodedArgs args = .ok encoded ↔ CarriesPayload args encoded := by
  unfold CarriesPayload
  constructor
  · intro found
    unfold encodedArgs at found
    split at found
    · cases found
      exact .inl rfl
    · next item =>
      cases text : item.asStr with
      | none => simp [okOrHandler, text] at found
      | some s =>
        simp only [okOrHandler, text, Except.ok.injEq] at found
        rw [asStr_eq_some_iff.mp text, found]
        exact .inr rfl
    · cases found
  · rintro (rfl | rfl)
    · rfl
    · rfl

/-- The middleware comes to decrypt these bytes under this key. -/
def Reaches (backend : CodecBackend) (keys : KeyProvider) (ctx : JobContext)
    (key raw : List UInt8) : Prop :=
  Marked ctx.job.metadata ∧
  (∃ id, NamesKey ctx.job.metadata id ∧ keys.getKey id = some key) ∧
  ∃ encoded, CarriesPayload ctx.job.args encoded ∧ backend.base64Decode encoded = .ok raw

/-- What the middleware makes of the decrypted bytes. -/
def openWith (backend : CodecBackend) (ctx : JobContext) (plaintext : List UInt8) :
    Except CodecFault JobContext := do
  let decrypted ← handlerErr "failed to parse decrypted args as JSON: "
    (backend.fromSlice plaintext)
  .ok { ctx with
    job := { ctx.job with
      args := decrypted
      metadata := ctx.job.metadata.map removeMarkers } }

theorem decryptContext_of_unmarked (unmarked : ¬Marked ctx.job.metadata) :
    decryptContext backend keys ctx = .ok ctx := by
  have not_encrypted : ¬isEncrypted ctx.job.metadata = true := by rwa [isEncrypted_iff]
  rw [decryptContext, if_neg not_encrypted]

theorem Unmarked.not_marked {metadata : Option MetaMap} (unmarked : Unmarked metadata) :
    ¬Marked metadata := by
  rintro (⟨arr, listed, _⟩ | flagged)
  · rw [unmarked metaCodecEncodings (by decide)] at listed
    cases listed
  · rw [unmarked legacyMetaEncrypted (by decide)] at flagged
    cases flagged

theorem Reaches.decryptContext_eq {key raw : List UInt8}
    (reaches : Reaches backend keys ctx key raw) :
    decryptContext backend keys ctx =
      (EncryptionCodec.decrypt backend raw key).bind (openWith backend ctx) := by
  obtain ⟨marked, ⟨id, names, known⟩, encoded, carries, decoded⟩ := reaches
  rw [← isEncrypted_iff] at marked
  rw [← keyId_eq_ok_iff] at names
  rw [← encodedArgs_eq_ok_iff] at carries
  simp only [decryptContext, marked, ↓reduceIte, names, known, carries, decoded, okOrHandler,
    handlerErr, bind, Except.bind]
  rfl

theorem failed_of_keyId_error {metadata : Option MetaMap} {fault : CodecFault}
    (h : keyId metadata = .error fault) : ∃ e, fault = .failed e := by
  unfold keyId okOrHandler at h
  split at h
  · cases h
  · cases h
    exact ⟨_, rfl⟩

theorem failed_of_encodedArgs_error {args : Value} {fault : CodecFault}
    (h : encodedArgs args = .error fault) : ∃ e, fault = .failed e := by
  unfold encodedArgs okOrHandler at h
  repeat' split at h
  all_goals
    cases h
    try exact ⟨_, rfl⟩

/-- A marked job that does not come to the cipher has failed before it. -/
theorem reaches_or_failed (marked : Marked ctx.job.metadata) :
    (∃ key raw, Reaches backend keys ctx key raw) ∨
      ∃ e, decryptContext backend keys ctx = .error (.failed e) := by
  have encrypted := (isEncrypted_iff _).mpr marked
  unfold decryptContext
  simp only [encrypted, ↓reduceIte, bind, Except.bind]
  cases names : keyId ctx.job.metadata with
  | error fault =>
    obtain ⟨e, rfl⟩ := failed_of_keyId_error names
    exact .inr ⟨e, rfl⟩
  | ok id =>
    cases known : keys.getKey id with
    | none => simp [okOrHandler, known]
    | some key =>
      cases carries : encodedArgs ctx.job.args with
      | error fault =>
        obtain ⟨e, rfl⟩ := failed_of_encodedArgs_error carries
        simp [okOrHandler, known]
      | ok encoded =>
        cases decoded : backend.base64Decode encoded with
        | error e => simp [okOrHandler, handlerErr, known, decoded]
        | ok raw =>
          have named := (keyId_eq_ok_iff _ _).mp names
          have payload := (encodedArgs_eq_ok_iff _ _).mp carries
          exact .inl ⟨key, raw, marked, ⟨id, named, known⟩, encoded, payload, decoded⟩

end EncryptionMiddleware

theorem EncryptionCodec.decrypt_cases (data key : List UInt8) :
    (data.length < nonceSize ∧ ∃ e, decrypt backend data key = .error (.failed e)) ∨
    (nonceSize ≤ data.length ∧ key.length ≠ keySize ∧
      decrypt backend data key = .error (.panicked .key)) ∨
    ∃ (sized : List.Vector UInt8 keySize) (nonce : List.Vector UInt8 nonceSize)
      (ciphertext : List UInt8), key = sized.toList ∧ data = nonce.toList ++ ciphertext ∧
      decrypt backend data key =
        handlerErr "decryption failed: " (backend.decrypt sized nonce ciphertext) := by
  by_cases short : data.length < nonceSize
  · exact .inl ⟨short, _, if_pos short⟩
  · by_cases unsized : key.length = keySize
    · have front : (data.take nonceSize).length = nonceSize := by
        rw [List.length_take]
        omega
      have framed := @decrypt_framed backend ⟨data.take nonceSize, front⟩ ⟨key, unsized⟩
        (data.drop nonceSize)
      have whole : data = data.take nonceSize ++ data.drop nonceSize :=
        (List.take_append_drop nonceSize data).symm
      refine .inr (.inr ⟨⟨key, unsized⟩, ⟨data.take nonceSize, front⟩, data.drop nonceSize,
        rfl, whole, ?_⟩)
      rw [← framed]
      congr 1
    · refine .inr (.inl ⟨by omega, unsized, ?_⟩)
      simp only [decrypt, short, ↓reduceIte, sliceOf, unsized, bind, Except.bind]
      rfl

/-- Decoding, decrypting and parsing give no more bytes than they are given. -/
structure CodecBackend.NeverLonger (backend : CodecBackend) : Prop where
  base64 : ∀ s bytes, backend.base64Decode s = .ok bytes → bytes.length ≤ s.utf8ByteSize
  cipher : ∀ key nonce ciphertext plaintext,
    backend.decrypt key nonce ciphertext = .ok plaintext → plaintext.length ≤ ciphertext.length
  json : ∀ bytes v s, backend.fromSlice bytes = .ok v →
    EncryptionMiddleware.CarriesPayload v s → s.utf8ByteSize ≤ bytes.length

namespace EncryptionMiddleware

/-- The job of `opened` is the authenticated decryption of the job of `ctx`, whose payload is
`encoded`. -/
def Opens (backend : CodecBackend) (keys : KeyProvider) (ctx : JobContext) (encoded : String)
    (opened : JobContext) : Prop :=
  ∃ (id : String) (key : List.Vector UInt8 keySize) (nonce : List.Vector UInt8 nonceSize)
    (ciphertext plaintext : List UInt8) (decrypted : Value),
    NamesKey ctx.job.metadata id ∧ keys.getKey id = some key.toList ∧
    CarriesPayload ctx.job.args encoded ∧
    backend.base64Decode encoded = .ok (nonce.toList ++ ciphertext) ∧
    backend.decrypt key nonce ciphertext = .ok plaintext ∧
    backend.fromSlice plaintext = .ok decrypted ∧
    opened = { ctx with
      job := { ctx.job with
        args := decrypted
        metadata := ctx.job.metadata.map removeMarkers } }

variable {opened : JobContext} {encoded : String}

theorem Opens.unmarked (opens : Opens backend keys ctx encoded opened) :
    Unmarked opened.job.metadata := by
  obtain ⟨_, _, _, _, _, _, _, _, _, _, _, _, rfl⟩ := opens
  cases stored : ctx.job.metadata with
  | none => simp [Unmarked, lookupField]
  | some m =>
    simp only [Option.map_some]
    exact unmarked_removeMarkers m

/-- The nonce alone makes the payload longer than anything that it can carry. -/
theorem Opens.not_carriesPayload (narrow : backend.NeverLonger)
    (opens : Opens backend keys ctx encoded opened) :
    ¬CarriesPayload opened.job.args encoded := by
  obtain ⟨_, key, nonce, ciphertext, plaintext, decrypted, _, _, _, decoded, authentic, parsed,
    rfl⟩ := opens
  intro carried
  have framed := narrow.base64 encoded _ decoded
  have shorter := narrow.cipher key nonce ciphertext plaintext authentic
  have within := narrow.json plaintext decrypted encoded parsed carried
  have length : nonce.toList.length = nonceSize := nonce.toList_length
  have positive : 0 < nonceSize := by decide
  rw [List.length_append, length] at framed
  omega

theorem Reaches.opens_or_failed {key raw : List UInt8} (reaches : Reaches backend keys ctx key raw)
    (sized : key.length = keySize) :
    (∃ encoded opened, Opens backend keys ctx encoded opened ∧
      decryptContext backend keys ctx = .ok opened) ∨
    ∃ e, decryptContext backend keys ctx = .error (.failed e) := by
  have decrypts := reaches.decryptContext_eq
  obtain ⟨_, ⟨id, named, known⟩, encoded, carries, decoded⟩ := reaches
  rcases @EncryptionCodec.decrypt_cases backend raw key with
    ⟨_, e, failed⟩ | ⟨_, unsized, _⟩ | ⟨key, nonce, ciphertext, rfl, rfl, cipher⟩
  · exact .inr ⟨e, by rw [decrypts, failed]; rfl⟩
  · exact absurd sized unsized
  · rw [cipher] at decrypts
    cases authentic : backend.decrypt key nonce ciphertext with
    | error e =>
      rw [authentic] at decrypts
      exact .inr ⟨_, decrypts⟩
    | ok plaintext =>
      rw [authentic] at decrypts
      cases parsed : backend.fromSlice plaintext with
      | error e =>
        have failed : openWith backend ctx plaintext = .error (.failed (.handler
            ("failed to parse decrypted args as JSON: " ++ e))) := by
          simp only [openWith, parsed, handlerErr, bind, Except.bind]
        exact .inr ⟨_, decrypts.trans failed⟩
      | ok decrypted =>
        have opens : openWith backend ctx plaintext = .ok { ctx with
            job := { ctx.job with
              args := decrypted
              metadata := ctx.job.metadata.map removeMarkers } } := by
          simp only [openWith, parsed, handlerErr, bind, Except.bind]
        refine .inl ⟨encoded, _, ?_, decrypts.trans opens⟩
        exact ⟨id, key, nonce, ciphertext, plaintext, decrypted, named, known, carries, decoded,
          authentic, parsed, rfl⟩

/-- A marked job is opened or refused, and its handler never runs on the payload. -/
theorem marked_fails_closed (narrow : backend.NeverLonger)
    (sized : ∀ id key, keys.getKey id = some key → key.length = keySize) (ctx : JobContext) :
    (¬Marked ctx.job.metadata →
      ∀ {n : Type → Type} [Monad n] (next : JobContext → ExceptT SlicePanic n HandlerResult),
        handle backend keys ctx next = next ctx) ∧
    (Marked ctx.job.metadata →
      (∃ encoded opened, Opens backend keys ctx encoded opened ∧
        Unmarked opened.job.metadata ∧ ¬CarriesPayload opened.job.args encoded ∧
        ∀ {n : Type → Type} [Monad n] (next : JobContext → ExceptT SlicePanic n HandlerResult),
          handle backend keys ctx next = next opened) ∨
      ∃ e, ∀ {n : Type → Type} [Monad n]
        (next : JobContext → ExceptT SlicePanic n HandlerResult),
          handle backend keys ctx next = pure (.error e)) := by
  constructor
  · intro unmarked n _ next
    simp only [handle, decryptContext_of_unmarked unmarked]
  · intro marked
    have settled : (∃ encoded opened, Opens backend keys ctx encoded opened ∧
        decryptContext backend keys ctx = .ok opened) ∨
        ∃ e, decryptContext backend keys ctx = .error (.failed e) := by
      rcases @reaches_or_failed backend keys _ marked with
        ⟨key, raw, reaches⟩ | failed
      · obtain ⟨id, _, known⟩ := reaches.2.1
        exact reaches.opens_or_failed (sized id key known)
      · exact .inr failed
    rcases settled with ⟨encoded, opened, opens, eq⟩ | ⟨e, eq⟩
    · refine .inl ⟨encoded, opened, opens, opens.unmarked, opens.not_carriesPayload narrow, ?_⟩
      intro n _ next
      simp only [handle, eq]
    · refine .inr ⟨e, ?_⟩
      intro n _ next
      simp only [handle, eq]

theorem utf8ByteSize_of_plain {s : String} (plain : s.toList.all isPlainText = true) :
    s.utf8ByteSize = s.toList.length := by
  have bytes : s.utf8ByteSize = s.toByteArray.data.toList.length := by simp
  have each : ∀ c ∈ s.toList, (String.utf8EncodeChar c).length = 1 := by
    intro c mem
    have small := List.all_eq_true.mp plain c mem
    simp only [isPlainText, Bool.and_eq_true, decide_eq_true_eq] at small
    rw [String.length_utf8EncodeChar, Char.utf8Size_eq_one_iff, UInt32.le_iff_toNat_le]
    exact Nat.le_of_lt small.1.1.2
  rw [bytes, StdText.utf8_toList, List.length_flatMap, List.map_congr_left each]
  simp

theorem testBackend_neverLonger : testBackend.NeverLonger where
  base64 s bytes decoded := by
    simp only [testBackend] at decoded
    split at decoded
    next found =>
      cases decoded
      exact (Base64.length_le_of_decode found).trans (StdText.length_le_utf8ByteSize s)
    next => cases decoded
  cipher key nonce ciphertext plaintext decrypted := by
    simp only [testBackend] at decrypted
    split at decrypted
    next first =>
      obtain ⟨-, -, rfl⟩ := first
      cases decrypted
      decide
    next =>
      split at decrypted
      next second =>
        obtain ⟨-, -, rfl⟩ := second
        cases decrypted
        decide
      next => cases decrypted
  json bytes v s parsed carried := by
    simp only [testBackend] at parsed
    split at parsed
    next plain =>
      cases parsed
      rcases carried with carried | carried
      · cases carried
      · cases carried
        rw [utf8ByteSize_of_plain plain.1, plain.2, unquoted_quoted plain.1, quoted]
        simp only [List.length_append, List.length_map, List.length_cons, List.length_nil]
        omega
    next => cases parsed

def testContext (args : Value) (metadata : Option MetaMap) : JobContext where
  job := { testJob with args, metadata }
  attempt := 1
  queue := "default"
  workflowId := none
  parentResults := none
  workerId := "worker_1"

/-- A payload of six bytes is too short for its nonce, and is refused. -/
theorem truncated_fails_closed :
    let keys := (StaticKeyProvider.new "k1" zeroKey.toList).toKeyProvider
    let ctx := testContext (.array [.string "AAAAAAAA"])
      (some [(metaCodecEncodings, .array [.string encodingBinaryEncrypted]),
        (metaCodecKeyId, .string "k1")])
    NamesKey ctx.job.metadata "k1" ∧
      testBackend.base64Decode "AAAAAAAA" = .ok (List.replicate 6 0) ∧
      ∃ e, ∀ next : JobContext → ExceptT SlicePanic Id HandlerResult,
        handle testBackend keys ctx next = pure (.error e) := by
  intro keys ctx
  have sized : ∀ id key, keys.getKey id = some key → key.length = keySize := by
    intro id key known
    simp only [keys, StaticKeyProvider.toKeyProvider, StaticKeyProvider.new, Option.map_eq_some_iff]
      at known
    obtain ⟨entry, found, rfl⟩ := known
    cases List.mem_singleton.mp (List.mem_of_find?_eq_some found)
    exact zeroKey.toList_length
  have marked : Marked ctx.job.metadata :=
    .inl ⟨_, rfl, List.mem_singleton.mpr rfl⟩
  have short : testBackend.base64Decode "AAAAAAAA" = .ok (List.replicate 6 0) := by rfl
  refine ⟨.inl rfl, short, ?_⟩
  rcases (marked_fails_closed testBackend_neverLonger sized ctx).2 marked with
    ⟨encoded, opened, ⟨_, _, nonce, ciphertext, _, _, _, _, carries, decoded, _⟩, _⟩ | ⟨e, refused⟩
  · rcases carries with same | same
    · cases same
    · cases same
      rw [short] at decoded
      have length := congrArg List.length (Except.ok.inj decoded)
      have needed : nonceSize = 12 := rfl
      rw [List.length_append, nonce.toList_length, List.length_replicate] at length
      omega
  · exact ⟨e, refused⟩

end EncryptionMiddleware

/-- The call ends in `Ok` or `Err`. -/
def NeverPanics {α : Type} (r : Except CodecFault α) : Prop := ∀ panic, r ≠ .error (.panicked panic)

/-- The handler chain ends in `Ok` or `Err` from every state of the world. -/
def Returns {W : Type} (run : ExceptT SlicePanic (StateM W) HandlerResult) : Prop :=
  ∀ w panic, (run.run w).1 ≠ .error panic

theorem neverPanics_ok {α : Type} (a : α) : NeverPanics (.ok a) := by
  simp [NeverPanics]

theorem neverPanics_failed {α : Type} (e : OjsError) :
    NeverPanics (.error (.failed e) : Except CodecFault α) := by
  simp [NeverPanics]

theorem not_neverPanics_panicked {α : Type} (panic : SlicePanic) :
    ¬NeverPanics (.error (.panicked panic) : Except CodecFault α) := by
  simp [NeverPanics]

theorem neverPanics_handlerErr {α : Type} (text : String) (r : Except String α) :
    NeverPanics (handlerErr text r) := by
  cases r with
  | error e => exact neverPanics_failed _
  | ok a => exact neverPanics_ok a

theorem encrypt_neverPanics_iff (nonce : List.Vector UInt8 nonceSize) (plaintext key : List UInt8) :
    NeverPanics (EncryptionCodec.encrypt backend nonce plaintext key) ↔ key.length = keySize := by
  by_cases sized : key.length = keySize
  · simp only [EncryptionCodec.encrypt, sliceOf, sized, ↓reduceDIte, bind, Except.bind, iff_true]
    cases backend.encrypt ⟨key, sized⟩ nonce plaintext with
    | error e => exact neverPanics_failed _
    | ok ciphertext => exact neverPanics_ok _
  · simp only [EncryptionCodec.encrypt, sliceOf, sized, ↓reduceDIte, bind, Except.bind, iff_false]
    exact not_neverPanics_panicked _

theorem decrypt_neverPanics_iff (data key : List UInt8) :
    NeverPanics (EncryptionCodec.decrypt backend data key) ↔
      data.length < nonceSize ∨ key.length = keySize := by
  rcases @EncryptionCodec.decrypt_cases backend data key with
    ⟨short, e, failed⟩ | ⟨long, unsized, panicked⟩ | ⟨key, nonce, ciphertext, rfl, rfl, cipher⟩
  · simp only [failed, neverPanics_failed, short, true_or]
  · simp only [panicked, not_neverPanics_panicked, unsized, or_false, false_iff]
    omega
  · have sized : key.toList.length = keySize := key.toList_length
    simp only [cipher, neverPanics_handlerErr, sized, or_true]

theorem encryptJob_neverPanics_iff (nonce : List.Vector UInt8 nonceSize) (keys : KeyProvider)
    (job : Job) :
    NeverPanics (encryptJob backend nonce keys job) ↔
      ∀ key plaintext, keys.getKey keys.currentKeyId = some key →
        backend.toVec job.args = .ok plaintext → key.length = keySize := by
  cases known : keys.getKey keys.currentKeyId with
  | none =>
    simp only [encryptJob, known, okOrHandler, bind, Except.bind, neverPanics_failed]
    simp
  | some key =>
    cases json : backend.toVec job.args with
    | error e =>
      simp only [encryptJob, known, okOrHandler, json, handlerErr, bind, Except.bind,
        neverPanics_failed]
      simp
    | ok plaintext =>
      have inner := @encrypt_neverPanics_iff backend nonce plaintext key
      have same : NeverPanics (encryptJob backend nonce keys job) ↔
          NeverPanics (EncryptionCodec.encrypt backend nonce plaintext key) := by
        simp only [encryptJob, known, okOrHandler, json, handlerErr, bind, Except.bind]
        cases EncryptionCodec.encrypt backend nonce plaintext key with
        | error fault => simp [NeverPanics]
        | ok data => simp [NeverPanics]
      rw [same, inner]
      simp

theorem neverPanics_bind_openWith (r : Except CodecFault (List UInt8)) :
    NeverPanics (r.bind (EncryptionMiddleware.openWith backend ctx)) ↔ NeverPanics r := by
  cases r with
  | error fault => simp [NeverPanics, Except.bind]
  | ok plaintext =>
    have opens : NeverPanics (EncryptionMiddleware.openWith backend ctx plaintext) := by
      unfold EncryptionMiddleware.openWith
      cases backend.fromSlice plaintext with
      | error e => exact neverPanics_failed _
      | ok decrypted => exact neverPanics_ok _
    simp only [Except.bind, opens, neverPanics_ok]

theorem decryptContext_neverPanics_iff (keys : KeyProvider) (ctx : JobContext) :
    NeverPanics (EncryptionMiddleware.decryptContext backend keys ctx) ↔
      ∀ key raw, EncryptionMiddleware.Reaches backend keys ctx key raw →
        nonceSize ≤ raw.length → key.length = keySize := by
  constructor
  · intro calm key raw reaches long
    rw [reaches.decryptContext_eq, neverPanics_bind_openWith, decrypt_neverPanics_iff] at calm
    omega
  · intro sized
    by_cases marked : EncryptionMiddleware.Marked ctx.job.metadata
    · rcases @EncryptionMiddleware.reaches_or_failed backend keys _ marked with
        ⟨key, raw, reaches⟩ | ⟨e, failed⟩
      · rw [reaches.decryptContext_eq, neverPanics_bind_openWith, decrypt_neverPanics_iff]
        have guarded := sized key raw reaches
        omega
      · rw [failed]
        exact neverPanics_failed e
    · rw [EncryptionMiddleware.decryptContext_of_unmarked marked]
      exact neverPanics_ok ctx

theorem handle_returns_iff (keys : KeyProvider) (ctx : JobContext) :
    (∀ (W : Type) (next : JobContext → ExceptT SlicePanic (StateM W) HandlerResult),
      (∀ c, Returns (next c)) → Returns (EncryptionMiddleware.handle backend keys ctx next)) ↔
      NeverPanics (EncryptionMiddleware.decryptContext backend keys ctx) := by
  unfold EncryptionMiddleware.handle
  cases EncryptionMiddleware.decryptContext backend keys ctx with
  | ok opened =>
    simp only [neverPanics_ok, iff_true]
    intro W next calm
    exact calm opened
  | error fault =>
    cases fault with
    | failed e =>
      simp only [neverPanics_failed, iff_true]
      intro W next _ w panic h
      cases h
    | panicked panic =>
      simp only [not_neverPanics_panicked, iff_false]
      intro returns
      have calm : ∀ c : JobContext,
          Returns (pure (.ok .null) : ExceptT SlicePanic (StateM Unit) HandlerResult) := by
        intro c w other h
        cases h
      exact returns Unit (fun _ => pure (.ok .null)) calm () panic rfl

/-- The key length is the one thing that the codec does not check. It asserts it wherever it
comes to the cipher. -/
theorem codec_neverPanics_iff (backend : CodecBackend) :
    (∀ nonce plaintext key,
      NeverPanics (EncryptionCodec.encrypt backend nonce plaintext key) ↔ key.length = keySize) ∧
    (∀ data key, NeverPanics (EncryptionCodec.decrypt backend data key) ↔
      data.length < nonceSize ∨ key.length = keySize) ∧
    (∀ nonce keys job, NeverPanics (encryptJob backend nonce keys job) ↔
      ∀ key plaintext, keys.getKey keys.currentKeyId = some key →
        backend.toVec job.args = .ok plaintext → key.length = keySize) ∧
    ∀ keys ctx,
      (∀ (W : Type) (next : JobContext → ExceptT SlicePanic (StateM W) HandlerResult),
        (∀ c, Returns (next c)) → Returns (EncryptionMiddleware.handle backend keys ctx next)) ↔
      ∀ key raw, EncryptionMiddleware.Reaches backend keys ctx key raw →
        nonceSize ≤ raw.length → key.length = keySize := by
  refine ⟨encrypt_neverPanics_iff, decrypt_neverPanics_iff, encryptJob_neverPanics_iff, ?_⟩
  intro keys ctx
  rw [handle_returns_iff, decryptContext_neverPanics_iff]

/-- A key of 31 bytes. -/
theorem shortKey_panics :
    let short := List.replicate 31 (0 : UInt8)
    let keys := (StaticKeyProvider.new "k1" short).toKeyProvider
    ¬NeverPanics (encryptJob testBackend (.replicate nonceSize 0) keys testJob) ∧
      ¬NeverPanics
        (EncryptionCodec.encrypt testBackend (.replicate nonceSize 0) testPlaintext short) ∧
      ¬NeverPanics (EncryptionCodec.decrypt testBackend testData short) := by
  intro short keys
  exact ⟨fun calm => calm .key rfl, fun calm => calm .key rfl, fun calm => calm .key rfl⟩

end OjsSdk
