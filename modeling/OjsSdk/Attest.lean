import OjsSdk.Durable
import OjsSdk.Client
import OjsSdk.JoinedWords

namespace OjsSdk

open JoinedWords (Shifted)

namespace quoteType

def pqcOnly : String := "pqc-only"

def none : String := "none"

end quoteType

namespace algorithm

def ed25519 : String := "ed25519"

end algorithm

structure AttestInput where
  jobId : String
  jobType : String
  argsHash : String
  resultHash : String
  timestamp : String
  deriving DecidableEq, Repr

structure Quote where
  quoteType : String
  evidence : List UInt8
  nonce : String
  issuedAt : String
  deriving DecidableEq, Repr

structure Jurisdiction where
  region : String
  datacenter : String
  prover : String
  deriving DecidableEq, Repr

structure ModelFingerprint where
  sha256 : String
  registryUrl : String
  deriving DecidableEq, Repr

structure Signature where
  algorithm : String
  value : String
  keyId : String
  deriving DecidableEq, Repr

structure AttestResult where
  quote : Option Quote
  jurisdiction : Option Jurisdiction
  modelFingerprint : Option ModelFingerprint
  signature : Signature
  deriving DecidableEq, Repr

structure Receipt where
  jobId : String
  quote : Option Quote
  jurisdiction : Option Jurisdiction
  modelFingerprint : Option ModelFingerprint
  signature : Signature
  issuedAt : String

inductive AttestError
  | notAvailable
  | verificationFailed (msg : String)
  | invalidReceipt (msg : String)
  deriving DecidableEq, Repr

/-- `impl Display for AttestError`. -/
def AttestError.toText : AttestError → String
  | .notAvailable => "attestation not available on this platform"
  | .verificationFailed msg => "verification failed: " ++ msg
  | .invalidReceipt msg => "invalid receipt: " ++ msg

/-- The trait `Attestor`. -/
class Attestor (A : Type) where
  name : A → String
  attest : A → AttestInput → Except AttestError AttestResult
  verify : A → Receipt → Except AttestError Unit

structure NoneAttestor where

instance : Attestor NoneAttestor where
  name _ := "none"
  attest _ input := .ok {
    quote := some {
      quoteType := quoteType.none
      evidence := []
      nonce := ""
      issuedAt := input.timestamp }
    jurisdiction := none
    modelFingerprint := none
    signature := { algorithm := algorithm.ed25519, value := "", keyId := "" } }
  verify _ _ := .ok ()

/-- One round of `simple_hash`. -/
def simpleHashRound (hash : List UInt8) (item : UInt8 × Nat) : List UInt8 :=
  hash.modify (item.2 % 32) (fun h => ((h ^^^ item.1) + item.1) * 31)

def simpleHash (data : List UInt8) : List UInt8 :=
  data.zipIdx.foldl simpleHashRound (List.replicate 32 0)

/-- `digest_input`, the text whose bytes `attest` hashes. -/
def AttestInput.digestInput (input : AttestInput) : String :=
  input.argsHash ++ input.resultHash ++ input.timestamp

structure PqcOnlyAttestor where
  keyId : String

instance : Attestor PqcOnlyAttestor where
  name _ := "pqc-only"
  attest a input :=
    let digestBytes := simpleHash (utf8Bytes input.digestInput)
    .ok {
      quote := some {
        quoteType := quoteType.pqcOnly
        evidence := digestBytes
        nonce := toHex (digestBytes.take 16)
        issuedAt := input.timestamp }
      jurisdiction := none
      modelFingerprint := none
      signature := { algorithm := algorithm.ed25519, value := "", keyId := a.keyId } }
  verify _ receipt :=
    if receipt.quote.isNone then .error (.invalidReceipt "receipt has no quote") else .ok ()

theorem length_foldl_simpleHashRound (items : List (UInt8 × Nat)) (hash : List UInt8) :
    (items.foldl simpleHashRound hash).length = hash.length := by
  induction items generalizing hash with
  | nil => rfl
  | cons item items ih => rw [List.foldl_cons, ih, simpleHashRound, List.length_modify]

/-- The index `i % 32` of `simple_hash` is always inside. -/
theorem length_simpleHash (data : List UInt8) : (simpleHash data).length = 32 := by
  rw [simpleHash, length_foldl_simpleHashRound, List.length_replicate]

theorem verify_attest {a : PqcOnlyAttestor} {input : AttestInput} {result : AttestResult}
    (attested : Attestor.attest a input = .ok result) {receipt : Receipt}
    (quoted : receipt.quote = result.quote) : Attestor.verify a receipt = .ok () := by
  cases attested
  simp only [Attestor.verify, quoted, Option.isNone_some, Bool.false_eq_true, if_false]

/-- Nothing but the digest and the timestamp of an input reaches its attestation. -/
theorem attest_congr (a : PqcOnlyAttestor) {x y : AttestInput}
    (digest : x.digestInput = y.digestInput) (timestamp : x.timestamp = y.timestamp) :
    Attestor.attest a x = Attestor.attest a y := by
  simp only [Attestor.attest, digest, timestamp]

/-- The fields that the digest is made of. -/
def AttestInput.hashedFields (input : AttestInput) : List (List Char) :=
  [input.argsHash.toList, input.resultHash.toList, input.timestamp.toList]

/-- The inputs differ, but at most in the job and in the places where the hashed text is cut into
its fields. -/
def Recut (x y : AttestInput) : Prop :=
  x ≠ y ∧ Shifted x.hashedFields y.hashedFields

theorem toList_digestInput (input : AttestInput) :
    input.digestInput.toList = input.hashedFields.flatten := by
  simp [AttestInput.digestInput, AttestInput.hashedFields]

theorem digestInput_eq_iff_shifted (x y : AttestInput) :
    x.digestInput = y.digestInput ↔ Shifted x.hashedFields y.hashedFields := by
  have same : x.hashedFields.length = y.hashedFields.length := rfl
  rw [← String.toList_inj, toList_digestInput, toList_digestInput]
  exact JoinedWords.flatten_eq_iff same

/-- The digest binds the hashed fields of two inputs where the hashes have their lengths. -/
theorem digestInput_eq_iff_of_length {x y : AttestInput}
    (args : x.argsHash.length = y.argsHash.length)
    (result : x.resultHash.length = y.resultHash.length) :
    x.digestInput = y.digestInput ↔
      x.argsHash = y.argsHash ∧ x.resultHash = y.resultHash ∧ x.timestamp = y.timestamp := by
  refine ⟨fun same => ?_, fun h => ?_⟩
  · have texts := congrArg String.toList same
    simp only [AttestInput.digestInput, String.toList_append, List.append_assoc] at texts
    obtain ⟨first, rest⟩ := List.append_inj texts (by simpa only [String.length_toList] using args)
    obtain ⟨second, third⟩ :=
      List.append_inj rest (by simpa only [String.length_toList] using result)
    exact ⟨String.toList_inj.mp first, String.toList_inj.mp second, String.toList_inj.mp third⟩
  · obtain ⟨first, second, third⟩ := h
    rw [AttestInput.digestInput, AttestInput.digestInput, first, second, third]

/-- Two inputs feed different bytes to the digest, unless one is a recut of the other. -/
theorem digest_binds_iff (x y : AttestInput) :
    (x ≠ y → utf8Bytes x.digestInput ≠ utf8Bytes y.digestInput) ↔ ¬Recut x y := by
  have bytes : utf8Bytes x.digestInput = utf8Bytes y.digestInput ↔
      Shifted x.hashedFields y.hashedFields :=
    utf8Bytes_inj.trans (digestInput_eq_iff_shifted x y)
  rw [Recut, ne_eq, ne_eq, bytes, not_and]

def trainingInput : AttestInput where
  jobId := "job-1"
  jobType := "ml.train"
  argsHash := "sha256:abc"
  resultHash := "sha256:def"
  timestamp := "2024-01-15T12:00:00Z"

/-- The attestation of one job and its hashes is also that of another job, and of other hashes. -/
theorem digest_binds_neither_job_nor_hashes :
    let other := { trainingInput with jobId := "job-2", jobType := "ml.evaluate" }
    let moved := { trainingInput with argsHash := "sha256:abcsha256:", resultHash := "def" }
    trainingInput ≠ other ∧ trainingInput ≠ moved ∧
      utf8Bytes trainingInput.digestInput = utf8Bytes other.digestInput ∧
      utf8Bytes trainingInput.digestInput = utf8Bytes moved.digestInput ∧
      ∀ a : PqcOnlyAttestor, Attestor.attest a trainingInput = Attestor.attest a other ∧
        Attestor.attest a trainingInput = Attestor.attest a moved := by
  intro other moved
  have job : trainingInput.digestInput = other.digestInput := rfl
  have hashes : trainingInput.digestInput = moved.digestInput := by decide
  exact ⟨by decide, by decide, congrArg utf8Bytes job, congrArg utf8Bytes hashes,
    fun a => ⟨attest_congr a job rfl, attest_congr a hashes rfl⟩⟩

end OjsSdk
