import OjsSdk.WorkerStart

namespace OjsSdk

namespace State

/-- The steps of the body of `start`, by what happens in the source. -/
inductive MainMove (w : Worker) (s : State) : MainEvent → MainPc → Effect → Prop
  | sawShutdown : s.main = .checkShutdown → s.shutdown = true →
      MainMove w s .advance .storeTerminate .skip
  | sawNoShutdown : s.main = .checkShutdown → s.shutdown = false →
      MainMove w s .advance .checkState .skip
  | storedTerminate : s.main = .storeTerminate →
      MainMove w s .advance .graceCheck (.store .terminate)
  | sawTerminate : s.main = .checkState → s.state = .terminate →
      MainMove w s .advance .graceCheck .skip
  | sawQuiet : s.main = .checkState → s.state = .quiet →
      MainMove w s .advance (.wait .quiet) .skip
  | sawRunning : s.main = .checkState → s.state = .running →
      MainMove w s .advance .loadActive .skip
  | slept (site) : s.main = .wait site → MainMove w s .elapsed site.resume .skip
  | notified (site) : s.main = .wait site → s.shutdown = true →
      MainMove w s .notified .graceCheck .skip
  | full : s.main = .loadActive → w.concurrency ≤ asUsize s.activeCount →
      MainMove w s .advance (.wait .capacity) .skip
  | spare : s.main = .loadActive → asUsize s.activeCount < w.concurrency →
      MainMove w s .advance (.fetch (min (w.concurrency - asUsize s.activeCount) 10)) .skip
  | called (count) : s.main = .fetch count →
      MainMove w s .advance (.fetching count) (.callFetch (w.fetchRequest count))
  | receivedNone (count) : s.main = .fetching count →
      MainMove w s (.response (.ok [])) (.wait .empty) (.receive [])
  | received (count job rest) : s.main = .fetching count →
      MainMove w s (.response (.ok (job :: rest))) (.spawning .acquire job rest)
        (.receive (job :: rest))
  | fetchFailed (count e) : s.main = .fetching count →
      MainMove w s (.response (.error e)) (.wait .error) .skip
  | fetchPanicked (count) : s.main = .fetching count → MainMove w s .panicked .unwound .skip
  | acquired (job rest) : s.main = .spawning .acquire job rest → 0 < s.permits →
      MainMove w s .advance (.spawning .count job rest) .acquirePermit
  | countedIn (job rest) : s.main = .spawning .count job rest →
      MainMove w s .advance (.spawning .track job rest) .countIn
  | tracked (job rest) : s.main = .spawning .track job rest →
      MainMove w s .advance (.spawning .spawn job rest) (.track job.id)
  | spawned (job rest) : s.main = .spawning .spawn job rest →
      MainMove w s .advance (nextJob rest) (.spawn job)
  | reaped (i t) : s.main = .reaping → s.joinable i = some t →
      MainMove w s (.reaped i) .reaping (.reap i t)
  | allReaped : s.main = .reaping → MainMove w s .advance .checkShutdown .skip
  | drained : s.main = .graceCheck → s.activeCount = 0 →
      MainMove w s .advance (.stopping true) .skip
  | stillActive : s.main = .graceCheck → s.activeCount ≠ 0 →
      MainMove w s .advance .graceDeadline .skip
  | expired : s.main = .graceDeadline →
      MainMove w s (.deadline true) (.stopping false) .skip
  | inTime : s.main = .graceDeadline → MainMove w s (.deadline false) .graceWait .skip
  | graceReaped (i t) : s.main = .graceWait → s.joinable i = some t →
      MainMove w s (.reaped i) .graceCheck (.reap i t)
  | graceEmpty : s.main = .graceWait → MainMove w s .advance .graceCheck .skip
  | graceSlept : s.main = .graceWait → MainMove w s .elapsed .graceCheck .skip
  | stopped (d) : s.main = .stopping d → MainMove w s .advance (.returned d) .stop

variable {w : Worker} {s t : State} {a : Action}

theorem mainMove_of_step {e : MainEvent} {pc : MainPc} {eff : Effect}
    (h : s.mainStep w e = some (pc, eff)) : MainMove w s e pc eff := by
  unfold mainStep at h
  split at h
  next hm =>
    cases h
    split
    next hs => exact .sawShutdown hm hs
    next hs => exact .sawNoShutdown hm (by simpa using hs)
  next hm => cases h; exact .storedTerminate hm
  next hm =>
    cases h
    split
    next hs => exact .sawTerminate hm hs
    next hs => exact .sawQuiet hm hs
    next hs => exact .sawRunning hm hs
  next site hm => cases h; exact .slept site hm
  next site hm =>
    split at h
    next hs => cases h; exact .notified site hm hs
    next => cases h
  next hm =>
    cases h
    split
    next hc => exact .full hm (by omega)
    next hc => exact .spare hm (by omega)
  next count hm => cases h; exact .called count hm
  next count jobs hm =>
    cases h
    split
    next => exact .receivedNone count hm
    next job rest => exact .received count job rest hm
  next count e hm => cases h; exact .fetchFailed count e hm
  next count hm => cases h; exact .fetchPanicked count hm
  next job rest hm =>
    split at h
    next hp => cases h; exact .acquired job rest hm hp
    next => cases h
  next job rest hm => cases h; exact .countedIn job rest hm
  next job rest hm => cases h; exact .tracked job rest hm
  next job rest hm => cases h; exact .spawned job rest hm
  next i hm =>
    obtain ⟨u, hu, he⟩ := Option.map_eq_some_iff.mp h
    cases he; exact .reaped i u hm hu
  next hm => cases h; exact .allReaped hm
  next hm =>
    cases h
    split
    next hc => exact .drained hm hc
    next hc => exact .stillActive hm hc
  next passed hm =>
    cases h
    cases passed with
    | true => exact .expired hm
    | false => exact .inTime hm
  next i hm =>
    obtain ⟨u, hu, he⟩ := Option.map_eq_some_iff.mp h
    cases he; exact .graceReaped i u hm hu
  next hm =>
    split at h
    next => cases h; exact .graceEmpty hm
    next => cases h
  next hm => cases h; exact .graceSlept hm
  next d hm => cases h; exact .stopped d hm
  next => cases h

inductive HeartbeatMove (w : Worker) (s : State) : HeartbeatEvent → HeartbeatPc → Effect → Prop
  | zeroInterval : s.heartbeat = .starting → w.heartbeatInterval.nanos = 0 →
      HeartbeatMove w s .start .exited .skip
  | started : s.heartbeat = .starting → w.heartbeatInterval.nanos ≠ 0 →
      HeartbeatMove w s .start .selecting .skip
  | ticked (jobs) : s.heartbeat = .selecting → jobs.Nodup → jobs.toFinset = s.activeJobs →
      HeartbeatMove w s (.tick jobs) (.posting (w.heartbeatRequest jobs)) .skip
  | answered (req resp) : s.heartbeat = .posting req →
      HeartbeatMove w s (.response (.ok resp)) .selecting (directive resp.state)
  | failed (req e) : s.heartbeat = .posting req →
      HeartbeatMove w s (.response (.error e)) .selecting .skip
  | panicked (req) : s.heartbeat = .posting req → HeartbeatMove w s .panicked .exited .skip
  | notified : s.heartbeat = .selecting → s.shutdown = true →
      HeartbeatMove w s .notified .exited .skip
  | aborted : s.heartbeat ≠ .exited → s.abortHeartbeat = true →
      HeartbeatMove w s .aborted .exited .skip

theorem heartbeatMove_of_step {e : HeartbeatEvent} {pc : HeartbeatPc} {eff : Effect}
    (h : s.heartbeatStep w e = some (pc, eff)) : HeartbeatMove w s e pc eff := by
  unfold heartbeatStep at h
  split at h
  next hb =>
    cases h
    split
    next hz => exact .zeroInterval hb hz
    next hz => exact .started hb hz
  next jobs hb =>
    split at h
    next hj => cases h; exact .ticked jobs hb hj.1 hj.2
    next => cases h
  next req resp hb => cases h; exact .answered req resp hb
  next req e hb => cases h; exact .failed req e hb
  next req hb => cases h; exact .panicked req hb
  next hb =>
    split at h
    next hs => cases h; exact .notified hb hs
    next => cases h
  next => cases h
  next hb =>
    split at h
    next ha => cases h; exact .aborted hb ha
    next => cases h
  next => cases h

/-- The steps of a run, by the party that takes them. -/
inductive Move (w : Worker) (s : State) : Action → State → Prop
  | main {e pc eff} : MainMove w s e pc eff →
      Move w s (.main e) { s.perform eff with main := pc }
  | task {i e u v eff} : s.tasks[i]? = some u →
      Task.Move w.workerId s.handlers s.main.isOver u e v eff →
      Move w s (.task i e) { s.perform eff with tasks := s.tasks.set i v }
  | heartbeat {e pc eff} : HeartbeatMove w s e pc eff →
      Move w s (.heartbeat e) { s.perform eff with heartbeat := pc }
  | signal : s.signalled = false →
      Move w s .signal { s with shutdown := true, signalled := true }
  | register (jobType) :
      Move w s (.register jobType) { s with handlers := insert jobType s.handlers }

theorem move_of_step (h : s.step w a = some t) : Move w s a t := by
  cases a with
  | main e =>
    obtain ⟨⟨pc, eff⟩, hm, he⟩ := Option.map_eq_some_iff.mp h
    cases he
    exact .main (mainMove_of_step hm)
  | task i e =>
    obtain ⟨u, hu, h⟩ := Option.bind_eq_some_iff.mp h
    obtain ⟨⟨v, eff⟩, hv, he⟩ := Option.map_eq_some_iff.mp h
    cases he
    exact .task hu (Task.move_of_step hv)
  | heartbeat e =>
    obtain ⟨⟨pc, eff⟩, hb, he⟩ := Option.map_eq_some_iff.mp h
    cases he
    exact .heartbeat (heartbeatMove_of_step hb)
  | signal =>
    simp only [step] at h
    split at h
    next => cases h
    next hs => cases h; exact .signal (by simpa using hs)
  | register jobType => cases h; exact .register jobType

end State

end OjsSdk
