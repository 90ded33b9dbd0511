import OjsSdk.FakeStore
import Mathlib.Data.List.Basic

namespace OjsSdk

variable {W : Type}

/-- When the arguments and the metadata of a job meet what a criterion gives. -/
structure Matching where
  args : List Value → List Value → Bool
  metadata : List (String × Value) → List (String × Value) → Bool

namespace MatchCriteria

def queueMet (c : MatchCriteria) (job : FakeJob) : Bool :=
  c.queue.all (· == job.queue)

def argsMet (m : Matching) (c : MatchCriteria) (job : FakeJob) : Bool :=
  c.args.all (m.args · job.args)

def metadataMet (m : Matching) (c : MatchCriteria) (job : FakeJob) : Bool :=
  c.metadata.all (m.metadata · job.metadata)

/-- The job has the type and is in the queue. -/
def placed (c : MatchCriteria) (jobType : String) (job : FakeJob) : Bool :=
  job.jobType == jobType && c.queueMet job

/-- The job has the type and meets every criterion. -/
def meets (m : Matching) (c : MatchCriteria) (jobType : String) (job : FakeJob) : Bool :=
  c.placed jobType job && (c.argsMet m job && c.metadataMet m job)

end MatchCriteria

/-- The assertion succeeds exactly when the jobs that meet the criteria are as many as they
have to be. -/
def HonoursCriteria (m : Matching) (debug : String → String) (s : FakeStore W) (jobType : String)
    (c : MatchCriteria) : Prop :=
  s.assertEnqueued debug jobType (some c) = .ok () ↔
    match c.count with
    | some expected => s.enqueued.countP (c.meets m jobType) = expected
    | none => 1 ≤ s.enqueued.countP (c.meets m jobType)

/-- What the arguments and the metadata of a job are makes no difference. -/
def IgnoringIsHarmless (m : Matching) (s : FakeStore W) (jobType : String) (c : MatchCriteria) :
    Prop :=
  match c.count with
  | some expected =>
    (∀ job ∈ s.enqueued, c.placed jobType job = true →
      c.argsMet m job = true ∧ c.metadataMet m job = true) ∨
      s.enqueued.countP (c.placed jobType) ≠ expected ∧
        s.enqueued.countP (c.meets m jobType) ≠ expected
  | none =>
    (∃ job ∈ s.enqueued, c.meets m jobType job = true) ∨
      ∀ job ∈ s.enqueued, c.placed jobType job = false

theorem filterJobs_length (jobs : List FakeJob) (jobType : String) (c : MatchCriteria) :
    (filterJobs jobs jobType (some c)).length = jobs.countP (c.placed jobType) := by
  rw [filterJobs, ← List.countP_eq_length_filter]
  refine List.countP_congr (fun job _ => ?_)
  by_cases type : job.jobType = jobType
  · cases queue : c.queue with
    | none => simp [MatchCriteria.placed, MatchCriteria.queueMet, type, queue]
    | some q =>
      have swap : (q == job.queue) = (job.queue == q) := BEq.comm
      simp [MatchCriteria.placed, MatchCriteria.queueMet, type, queue, swap]
  · simp [MatchCriteria.placed, type]

theorem assertEnqueued_eq_ok_iff (debug : String → String) (s : FakeStore W) (jobType : String)
    (c : MatchCriteria) : s.assertEnqueued debug jobType (some c) = .ok () ↔
      match c.count with
      | some expected => s.enqueued.countP (c.placed jobType) = expected
      | none => 1 ≤ s.enqueued.countP (c.placed jobType) := by
  have found := filterJobs_length s.enqueued jobType c
  unfold FakeStore.assertEnqueued
  cases count : c.count with
  | some expected => simp [count, found]
  | none =>
    cases jobs : filterJobs s.enqueued jobType (some c) with
    | nil =>
      rw [jobs] at found
      simp [count, ← found]
    | cons job rest =>
      rw [jobs] at found
      simp [count, ← found]

/-- Of two counts one of which is over more members, both are the same only if the members are. -/
theorem countP_and_eq_iff {α : Type} (p q : α → Bool) (l : List α) :
    l.countP (fun a => p a && q a) = l.countP p ↔ ∀ a ∈ l, p a = true → q a = true := by
  induction l with
  | nil => simp
  | cons a l ih =>
    have le : l.countP (fun a => p a && q a) ≤ l.countP p :=
      List.countP_mono_left (fun b _ both => (Bool.and_eq_true_iff.mp both).1)
    rw [List.countP_cons, List.countP_cons, List.forall_mem_cons, ← ih]
    cases p a with
    | false => simp
    | true =>
      cases q a with
      | true => simp
      | false =>
        simp
        omega

/-- An assertion honours its criteria if and only if it makes no difference that those on the
arguments and the metadata are not applied. -/
theorem honours_criteria_iff (m : Matching) (debug : String → String) (s : FakeStore W)
    (jobType : String) (c : MatchCriteria) :
    HonoursCriteria m debug s jobType c ↔ IgnoringIsHarmless m s jobType c := by
  have le : s.enqueued.countP (c.meets m jobType) ≤ s.enqueued.countP (c.placed jobType) :=
    List.countP_mono_left (fun job _ both => (Bool.and_eq_true_iff.mp both).1)
  have same : s.enqueued.countP (c.meets m jobType) = s.enqueued.countP (c.placed jobType) ↔ _ :=
    countP_and_eq_iff (c.placed jobType) (fun job => c.argsMet m job && c.metadataMet m job)
      s.enqueued
  simp only [Bool.and_eq_true] at same
  rw [HonoursCriteria, assertEnqueued_eq_ok_iff, IgnoringIsHarmless]
  cases c.count with
  | some expected =>
    rw [← same]
    simp only
    omega
  | none =>
    have somebody : 1 ≤ s.enqueued.countP (c.meets m jobType) ↔
        ∃ job ∈ s.enqueued, c.meets m jobType job = true := List.countP_pos_iff
    have nobody : s.enqueued.countP (c.placed jobType) = 0 ↔
        ∀ job ∈ s.enqueued, c.placed jobType job = false := by
      simp only [List.countP_eq_zero, Bool.not_eq_true]
    rw [← somebody, ← nobody]
    simp only
    omega

def sentMail : FakeJob where
  id := "fake-000001"
  jobType := "email.send"
  queue := "default"
  args := [.string "a@b.com"]
  metadata := []
  state := "available"
  attempt := 0
  createdAt := "2025-01-01T00:00:00+00:00"

/-- Mail has gone to one address, and the assertion asks for another. -/
theorem other_address_accepted :
    ∃ (s : FakeStore Unit) (c : MatchCriteria), ∀ m : Matching,
      m.args [.string "c@d.com"] [.string "a@b.com"] = false →
      ¬HonoursCriteria m id s "email.send" c := by
  refine ⟨{ FakeStore.new with enqueued := [sentMail] },
    { MatchCriteria.default with args := some [.string "c@d.com"] }, fun m other honours => ?_⟩
  obtain ⟨job, member, met⟩ := List.countP_pos_iff.mp (honours.mp rfl)
  obtain rfl := List.mem_singleton.mp member
  simp [MatchCriteria.meets, MatchCriteria.argsMet, sentMail, other] at met

end OjsSdk
