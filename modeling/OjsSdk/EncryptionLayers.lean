import OjsSdk.EncryptionFailures
import OjsSdk.MiddlewareOnion

namespace OjsSdk

variable {backend : CodecBackend} {nonce : List.Vector UInt8 nonceSize}
  {nonces : List (List.Vector UInt8 nonceSize)} {keys : KeyProvider} {job inner sealed : Job}

/-- `encrypt_job` once for each nonce. -/
def encryptLayers (backend : CodecBackend) (keys : KeyProvider) :
    List (List.Vector UInt8 nonceSize) → Job → Except CodecFault Job
  | [], job => .ok job
  | nonce :: rest, job => (encryptJob backend nonce keys job).bind (encryptLayers backend keys rest)

/-- So many layers of the middleware around a handler. -/
def decryptLayers {n : Type → Type} [Monad n] (backend : CodecBackend) (keys : KeyProvider)
    (layers : Nat) (handler : JobContext → ExceptT SlicePanic n HandlerResult) :
    JobContext → ExceptT SlicePanic n HandlerResult :=
  MiddlewareChain.wrap (fun keys => EncryptionMiddleware.handle backend keys) handler
    ⟨List.replicate layers ⟨"encryption", keys⟩⟩

theorem encryptLayers_cons_eq_ok_iff :
    encryptLayers backend keys (nonce :: nonces) job = .ok sealed ↔
      ∃ inner, encryptJob backend nonce keys job = .ok inner ∧
        encryptLayers backend keys nonces inner = .ok sealed := by
  cases first : encryptJob backend nonce keys job with
  | error fault => simp [encryptLayers, first, Except.bind]
  | ok inner => simp [encryptLayers, first, Except.bind]

theorem encryptLayers_concat_eq_ok_iff :
    encryptLayers backend keys (nonces ++ [nonce]) job = .ok sealed ↔
      ∃ inner, encryptLayers backend keys nonces job = .ok inner ∧
        encryptJob backend nonce keys inner = .ok sealed := by
  induction nonces generalizing job with
  | nil =>
    rw [List.nil_append, encryptLayers_cons_eq_ok_iff]
    simp [encryptLayers]
  | cons first rest ih =>
    rw [List.cons_append, encryptLayers_cons_eq_ok_iff]
    simp only [ih, encryptLayers_cons_eq_ok_iff]
    constructor
    · rintro ⟨outer, once, inner, layers, last⟩
      exact ⟨inner, ⟨outer, once, layers⟩, last⟩
    · rintro ⟨inner, ⟨outer, once, layers⟩, last⟩
      exact ⟨outer, once, inner, layers, last⟩

theorem exists_key_of_encryptJob (encrypted : encryptJob backend nonce keys job = .ok sealed) :
    ∃ key : List.Vector UInt8 keySize, keys.getKey keys.currentKeyId = some key.toList := by
  have calm : NeverPanics (encryptJob backend nonce keys job) := by
    rw [encrypted]
    exact neverPanics_ok sealed
  rw [encryptJob_neverPanics_iff] at calm
  cases known : keys.getKey keys.currentKeyId with
  | none => simp [encryptJob, known, okOrHandler, bind, Except.bind] at encrypted
  | some key =>
    cases json : backend.toVec job.args with
    | error e =>
      simp [encryptJob, known, json, okOrHandler, handlerErr, bind, Except.bind] at encrypted
    | ok plaintext => exact ⟨⟨key, calm key plaintext known json⟩, rfl⟩

/-- An encryption leaves all but the arguments and the markers as they were. -/
theorem encryptJob_keeps (encrypted : encryptJob backend nonce keys job = .ok sealed) :
    sealed = { job with args := sealed.args, metadata := sealed.metadata } ∧
      EncryptionMiddleware.removeMarkers (sealed.metadata.getD []) =
        EncryptionMiddleware.removeMarkers (job.metadata.getD []) := by
  obtain ⟨key, known⟩ := exists_key_of_encryptJob encrypted
  obtain ⟨_, _, _, _, rfl⟩ := (encryptJob_eq_ok_iff known).mp encrypted
  exact ⟨rfl, EncryptionMiddleware.removeMarkers_sealedMeta _ _⟩

theorem encryptLayers_keeps (encrypted : encryptLayers backend keys nonces job = .ok sealed) :
    sealed = { job with args := sealed.args, metadata := sealed.metadata } ∧
      EncryptionMiddleware.removeMarkers (sealed.metadata.getD []) =
        EncryptionMiddleware.removeMarkers (job.metadata.getD []) := by
  induction nonces generalizing job with
  | nil =>
    cases encrypted
    exact ⟨rfl, rfl⟩
  | cons nonce rest ih =>
    obtain ⟨inner, once, layers⟩ := encryptLayers_cons_eq_ok_iff.mp encrypted
    obtain ⟨fields, markers⟩ := ih layers
    obtain ⟨fields', markers'⟩ := encryptJob_keeps once
    refine ⟨?_, markers.trans markers'⟩
    rw [fields, fields']

/-- The payload of an encrypted job is longer than one that is encrypted in it. -/
theorem encryptJob_grows (lossless : backend.Lossless) (narrow : backend.NeverLonger)
    (json : backend.ReadsBack job.args)
    (encrypted : encryptJob backend nonce keys job = .ok sealed) :
    ∃ encoded, sealed.args = .array [.string encoded] ∧
      ∀ s, EncryptionMiddleware.CarriesPayload job.args s →
        s.utf8ByteSize < encoded.utf8ByteSize := by
  obtain ⟨key, known⟩ := exists_key_of_encryptJob encrypted
  obtain ⟨plaintext, data, written, cipher, rfl⟩ := (encryptJob_eq_ok_iff known).mp encrypted
  obtain ⟨ciphertext, sealing, rfl⟩ := EncryptionCodec.encrypt_eq_ok_iff.mp cipher
  refine ⟨_, rfl, ?_⟩
  intro s carried
  have framed := narrow.base64 _ _ (lossless.base64 (nonce.toList ++ ciphertext))
  have shorter := narrow.cipher key nonce ciphertext plaintext
    (lossless.cipher key nonce plaintext ciphertext sealing)
  have within := narrow.json plaintext job.args s (json plaintext written) carried
  have positive : 0 < nonceSize := by decide
  rw [List.length_append, nonce.toList_length] at framed
  omega

theorem encryptLayers_grows (lossless : backend.Lossless) (narrow : backend.NeverLonger)
    (texts : ∀ s, backend.ReadsBack (.array [.string s])) (json : backend.ReadsBack job.args)
    (some_layer : nonces ≠ []) (encrypted : encryptLayers backend keys nonces job = .ok sealed) :
    ∃ encoded, sealed.args = .array [.string encoded] ∧
      ∀ s, EncryptionMiddleware.CarriesPayload job.args s →
        s.utf8ByteSize < encoded.utf8ByteSize := by
  induction nonces generalizing job with
  | nil => exact absurd rfl some_layer
  | cons nonce rest ih =>
    obtain ⟨inner, once, layers⟩ := encryptLayers_cons_eq_ok_iff.mp encrypted
    obtain ⟨first, args, longer⟩ := encryptJob_grows lossless narrow json once
    by_cases last : rest = []
    · subst last
      cases layers
      exact ⟨first, args, longer⟩
    · have readsBack : backend.ReadsBack inner.args := by
        rw [args]
        exact texts first
      obtain ⟨encoded, args', longer'⟩ := ih readsBack last layers
      refine ⟨encoded, args', ?_⟩
      intro s carried
      exact Nat.lt_trans (longer s carried) (longer' first (.inr args))

theorem encryptLayers_args_ne (lossless : backend.Lossless) (narrow : backend.NeverLonger)
    (texts : ∀ s, backend.ReadsBack (.array [.string s])) (json : backend.ReadsBack job.args)
    (some_layer : nonces ≠ []) (encrypted : encryptLayers backend keys nonces job = .ok sealed) :
    sealed.args ≠ job.args := by
  obtain ⟨encoded, args, longer⟩ :=
    encryptLayers_grows lossless narrow texts json some_layer encrypted
  intro same
  exact Nat.lt_irrefl _ (longer encoded (.inr (same.symm.trans args)))

theorem encryptLayers_args_eq_iff (lossless : backend.Lossless) (narrow : backend.NeverLonger)
    (texts : ∀ s, backend.ReadsBack (.array [.string s])) (json : backend.ReadsBack job.args)
    (encrypted : encryptLayers backend keys nonces job = .ok sealed) :
    sealed.args = job.args ↔ nonces = [] := by
  constructor
  · intro same
    by_contra some_layer
    exact encryptLayers_args_ne lossless narrow texts json some_layer encrypted same
  · intro none
    subst none
    cases encrypted
    rfl

/-- What an encryption puts out can be encrypted again. -/
theorem encryptLayers_readsBack (lossless : backend.Lossless) (narrow : backend.NeverLonger)
    (texts : ∀ s, backend.ReadsBack (.array [.string s])) (json : backend.ReadsBack job.args)
    (encrypted : encryptLayers backend keys nonces job = .ok sealed) :
    backend.ReadsBack sealed.args := by
  by_cases some_layer : nonces = []
  · subst some_layer
    cases encrypted
    exact json
  · obtain ⟨encoded, args, _⟩ :=
      encryptLayers_grows lossless narrow texts json some_layer encrypted
    rw [args]
    exact texts encoded

theorem decryptLayers_of_unmarked {n : Type → Type} [Monad n] (layers : Nat)
    (handler : JobContext → ExceptT SlicePanic n HandlerResult) {ctx : JobContext}
    (unmarked : ¬EncryptionMiddleware.Marked ctx.job.metadata) :
    decryptLayers backend keys layers handler ctx = handler ctx := by
  induction layers with
  | zero => rfl
  | succ layers ih =>
    unfold decryptLayers at ih ⊢
    rw [List.replicate_succ, MiddlewareChain.wrap_cons]
    simp only [EncryptionMiddleware.handle,
      EncryptionMiddleware.decryptContext_of_unmarked unmarked]
    exact ih

/-- One layer opens the job, and the others have nothing to do. -/
theorem decryptLayers_of_opened {n : Type → Type} [Monad n] (layers : Nat)
    (handler : JobContext → ExceptT SlicePanic n HandlerResult) {ctx opened : JobContext}
    (opens : EncryptionMiddleware.decryptContext backend keys ctx = .ok opened)
    (unmarked : ¬EncryptionMiddleware.Marked opened.job.metadata) :
    decryptLayers backend keys (layers + 1) handler ctx = handler opened := by
  have others := @decryptLayers_of_unmarked backend keys n _ layers handler opened unmarked
  unfold decryptLayers at others ⊢
  rw [List.replicate_succ, MiddlewareChain.wrap_cons]
  simp only [EncryptionMiddleware.handle, opens]
  exact others

/-- However often a job has been encrypted, the first layer of the middleware opens the last
encryption and takes all markers, and the other layers leave the rest closed. -/
theorem layers_open_last (lossless : backend.Lossless) (narrow : backend.NeverLonger)
    (texts : ∀ s, backend.ReadsBack (.array [.string s])) (json : backend.ReadsBack job.args)
    (some_layer : nonces ≠ []) (encrypted : encryptLayers backend keys nonces job = .ok sealed) :
    ∃ inner, encryptLayers backend keys nonces.dropLast job = .ok inner ∧
      (inner.args = job.args ↔ nonces.length = 1) ∧
      ∃ bare : MetaMap,
        (∀ key, lookupField bare key =
          if key ∈ EncryptionMiddleware.markerKeys then none
          else lookupField (job.metadata.getD []) key) ∧
        ∀ ctx : JobContext, ctx.job = sealed →
          ∀ {n : Type → Type} [Monad n] (handler : JobContext → ExceptT SlicePanic n HandlerResult),
            decryptLayers backend keys nonces.length handler ctx =
              handler { ctx with job := { job with args := inner.args, metadata := some bare } } := by
  have split := List.dropLast_append_getLast some_layer
  rw [← split, encryptLayers_concat_eq_ok_iff] at encrypted
  obtain ⟨inner, layers, last⟩ := encrypted
  obtain ⟨fields, markers⟩ := encryptLayers_keeps layers
  obtain ⟨key, known⟩ := exists_key_of_encryptJob last
  have readsBack := encryptLayers_readsBack lossless narrow texts json layers
  refine ⟨inner, layers, ?_, EncryptionMiddleware.removeMarkers (job.metadata.getD []),
    EncryptionMiddleware.lookupField_removeMarkers _, ?_⟩
  · have positive : 0 < nonces.length := List.length_pos_iff.mpr some_layer
    rw [encryptLayers_args_eq_iff lossless narrow texts json layers, ← List.length_eq_zero_iff,
      List.length_dropLast]
    omega
  · intro ctx delivered n _ handler
    have opened :=
      EncryptionMiddleware.decryptContext_encryptJob lossless readsBack known known last delivered
    have bare := EncryptionMiddleware.unmarked_removeMarkers (inner.metadata.getD [])
    obtain ⟨layers, count⟩ := Nat.exists_eq_add_of_lt (List.length_pos_iff.mpr some_layer)
    rw [Nat.zero_add] at count
    rw [count, decryptLayers_of_opened layers handler opened bare.not_marked, markers, fields]

def testKeys : KeyProvider := (StaticKeyProvider.new "k1" zeroKey.toList).toKeyProvider

/-- The job after one encryption and after two. -/
theorem testJob_encrypted :
    encryptLayers testBackend testKeys [.replicate nonceSize 0] testJob =
        .ok { testJob with
          args := .array [.string testEncoded]
          metadata := some (sealedMeta "k1" testJob.metadata) } ∧
      ∃ sealed, encryptLayers testBackend testKeys
        [.replicate nonceSize 0, .replicate nonceSize 1] testJob = .ok sealed := by
  have known : testKeys.getKey testKeys.currentKeyId = some zeroKey.toList := rfl
  have encoded : testBackend.base64Encode testData = testEncoded := by decide +kernel
  have once : encryptJob testBackend (.replicate nonceSize 0) testKeys testJob =
      .ok { testJob with
        args := .array [.string testEncoded]
        metadata := some (sealedMeta "k1" testJob.metadata) } := by
    refine (encryptJob_eq_ok_iff known).mpr ⟨testPlaintext, testData, rfl, rfl, ?_⟩
    rw [encoded]
    rfl
  have plain : testEncoded.toList.all isPlainText = true := by decide +kernel
  have written : testBackend.toVec (.array [.string testEncoded]) = .ok (quoted testEncoded) := by
    simp only [testBackend, plain, ↓reduceIte]
  have cipher : testBackend.encrypt zeroKey (.replicate nonceSize 1) (quoted testEncoded) =
      .ok sealedCiphertext := by
    have other : List.Vector.replicate nonceSize (1 : UInt8) ≠ .replicate nonceSize 0 := by decide
    simp only [testBackend, other, false_and, and_false, true_and, ↓reduceIte]
  refine ⟨encryptLayers_cons_eq_ok_iff.mpr ⟨_, once, rfl⟩, _, encryptLayers_cons_eq_ok_iff.mpr
    ⟨_, once, encryptLayers_cons_eq_ok_iff.mpr ⟨_, (encryptJob_eq_ok_iff known).mpr
      ⟨_, _, written, EncryptionCodec.encrypt_eq_ok_iff.mpr ⟨_, cipher, rfl⟩, rfl⟩, rfl⟩⟩⟩

/-- Of two encryptions two layers open one. The handler gets the arguments as the first one has left
them. -/
theorem testJob_opens : ∃ sealed,
    encryptLayers testBackend testKeys [.replicate nonceSize 0, .replicate nonceSize 1] testJob =
      .ok sealed ∧
    ∃ bare : MetaMap, lookupField bare "tenant" = some (.string "acme") ∧
      ∀ ctx : JobContext, ctx.job = sealed →
        ∀ handler : JobContext → ExceptT SlicePanic Id HandlerResult,
          decryptLayers testBackend testKeys 2 handler ctx =
            handler { ctx with
              job := { testJob with
                args := .array [.string testEncoded]
                metadata := some bare } } := by
  obtain ⟨once, sealed, twice⟩ := testJob_encrypted
  obtain ⟨inner, layers, _, bare, kept, opens⟩ := layers_open_last testBackend_lossless
    EncryptionMiddleware.testBackend_neverLonger (fun s => testBackend_readsBack _)
    (testBackend_readsBack _) (List.cons_ne_nil _ _) twice
  refine ⟨sealed, twice, bare, ?_, ?_⟩
  · rw [kept "tenant", if_neg (by decide)]
    rfl
  · intro ctx delivered handler
    cases once.symm.trans layers
    exact opens ctx delivered handler

/-- A job that another codec has encoded already. -/
def gzippedJob : Job :=
  { testJob with
    metadata := some [(metaCodecEncodings, .array [.string "binary/gzip"]),
      (metaCodecKeyId, .string "k0")] }

/-- The earlier encoding is lost. -/
theorem gzippedJob_forgets : ∃ sealed,
    encryptJob testBackend (.replicate nonceSize 0) testKeys gzippedJob = .ok sealed ∧
    ∀ ctx : JobContext, ctx.job = sealed → ∃ opened : JobContext,
      (∀ next : JobContext → ExceptT SlicePanic Id HandlerResult,
        EncryptionMiddleware.handle testBackend testKeys ctx next = next opened) ∧
      lookupField (gzippedJob.metadata.getD []) metaCodecEncodings =
        some (.array [.string "binary/gzip"]) ∧
      lookupField (opened.job.metadata.getD []) metaCodecEncodings = none ∧
      lookupField (opened.job.metadata.getD []) metaCodecKeyId = none := by
  refine ⟨_, rfl, ?_⟩
  intro ctx delivered
  have opened := @EncryptionMiddleware.decryptContext_encryptJob _ (.replicate nonceSize 0) zeroKey
    testKeys testKeys gzippedJob _ testBackend_lossless (testBackend_readsBack _) rfl rfl rfl _
    delivered
  have gone := EncryptionMiddleware.unmarked_removeMarkers (gzippedJob.metadata.getD [])
  refine ⟨{ ctx with job := { gzippedJob with
    metadata := some (EncryptionMiddleware.removeMarkers (gzippedJob.metadata.getD [])) } },
    ?_, rfl, gone _ (by decide), gone _ (by decide)⟩
  intro next
  simp only [EncryptionMiddleware.handle, opened]

end OjsSdk
