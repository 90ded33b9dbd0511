import OjsSdk.Agent

namespace OjsSdk

open Serde
open UrlTarget (slash joined isDots)

namespace AgentClient

def before : List String := ["v1", "agent", "jobs"]

theorem fixed_parts (call : AgentCall) :
    (∀ part ∈ before, Fixed part) ∧ ∀ part ∈ [call.action], Fixed part := by
  have each : ∀ action ∈ ["fork", "merge", "pause", "resume", "replay"], Fixed action := by decide
  refine ⟨by decide, ?_⟩
  intro part mem
  rw [List.mem_singleton.mp mem]
  refine each call.action ?_
  cases call <;> simp [AgentCall.action]

end AgentClient

namespace AgentClient

end AgentClient

end OjsSdk
