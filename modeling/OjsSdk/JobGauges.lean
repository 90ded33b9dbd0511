import OjsSdk.CommonMiddleware
import OjsSdk.Interleaving

namespace OjsSdk

open Suspension

variable {R V : Type} [DecidableEq R]

/-- The jobs in flight, as a recorder counts them or as a meter does. -/
inductive Gauge (R : Type)
  | recorder (recorder : R)
  | meter (meter : R)
  deriving DecidableEq, Repr

namespace Gauge

/-- A job has started. -/
def opens : Gauge R → Signal R V → Bool
  | recorder r, .record r' (.jobStarted _ _) => r = r'
  | meter m, .count m' instrument _ => m = m' && instrument = "ojs.job.started"
  | _, _ => false

/-- A job has completed or failed. -/
def closes : Gauge R → Signal R V → Bool
  | recorder r, .record r' (.jobCompleted _ _ _) => r = r'
  | recorder r, .record r' (.jobFailed _ _ _ _) => r = r'
  | meter m, .count m' instrument _ =>
    m = m' && (instrument = "ojs.job.completed" || instrument = "ojs.job.failed")
  | _, _ => false

/-- How often a middleware counts a job. -/
def weight : Gauge R → CommonMiddleware R V → Nat
  | recorder r, .metrics r' => if r = r' then 1 else 0
  | meter m, .otelMetrics m' => if m = m' then 1 else 0
  | _, _ => 0

def total (g : Gauge R) (chain : MiddlewareChain (CommonMiddleware R V)) : Nat :=
  (chain.middleware.map (fun named => g.weight named.middleware)).sum

variable {g : Gauge R} {mw : CommonMiddleware R V} {o : Observer R V} {ctx : JobContext}
  {next : JobContext → JobProc R V} {k : Nat}

end Gauge

end OjsSdk
