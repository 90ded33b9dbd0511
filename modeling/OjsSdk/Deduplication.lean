import Mathlib.Data.List.Nodup

namespace Deduplication

variable {μ κ : Type*} [DecidableEq κ] {key : μ → κ} {done sent : List μ}

/-- A message is applied unless one with its key has been applied. -/
def receive (key : μ → κ) (done : List μ) (m : μ) : List μ :=
  if key m ∈ done.map key then done else done ++ [m]

def applied (key : μ → κ) (sent : List μ) : List μ := sent.foldl (receive key) []

theorem foldl_receive_of_nodup (distinct : ((done ++ sent).map key).Nodup) :
    sent.foldl (receive key) done = done ++ sent := by
  induction sent generalizing done with
  | nil => simp
  | cons m sent ih =>
    have new : key m ∉ done.map key := by
      intro old
      rw [List.map_append, List.map_cons] at distinct
      exact (List.nodup_append.mp distinct).2.2 _ old _ List.mem_cons_self rfl
    rw [List.foldl_cons, receive, if_neg new, ih (by simpa using distinct), List.append_assoc,
      List.singleton_append]

/-- Messages with distinct keys are all applied. -/
theorem applied_of_nodup (distinct : (sent.map key).Nodup) : applied key sent = sent := by
  unfold applied
  rw [foldl_receive_of_nodup (by simpa using distinct), List.nil_append]

end Deduplication
