import Mathlib.Data.List.Basic
import OjsSdk.StepSystem

namespace BoundedChannel

variable {σ α : Type} {capacity : Nat}

structure Channel (α : Type) (capacity : Nat) where
  queue : List α
  sender : Bool
  receiver : Bool
  fits : queue.length ≤ capacity
  /-- A receiver that goes away takes the unread messages with it. -/
  unread : receiver = false → queue = []

inductive Sending (α : Type) (capacity : Nat)
  | sent (c : Channel α capacity)
  | full
  | closed

inductive Receiving (α : Type) (capacity : Nat)
  | message (a : α) (c : Channel α capacity)
  | pending
  | closed

namespace Channel

def new (α : Type) (capacity : Nat) : Channel α capacity where
  queue := []
  sender := true
  receiver := true
  fits := Nat.zero_le capacity
  unread := fun _ => rfl

def send (c : Channel α capacity) (a : α) : Sending α capacity :=
  if there : c.receiver then
    if room : c.queue.length < capacity then
      .sent
        { c with
          queue := c.queue ++ [a]
          fits := by
            rw [List.length_append, List.length_singleton]
            omega
          unread := by simp [there] }
    else .full
  else .closed

def recv (c : Channel α capacity) : Receiving α capacity :=
  match h : c.queue with
  | a :: rest =>
    .message a
      { c with
        queue := rest
        fits := by
          have fits := c.fits
          rw [h, List.length_cons] at fits
          omega
        unread := fun gone => by simp [c.unread gone] at h }
  | [] => if c.sender then .pending else .closed

def dropSender (c : Channel α capacity) : Channel α capacity := { c with sender := false }

def dropReceiver (c : Channel α capacity) : Channel α capacity where
  queue := []
  sender := c.sender
  receiver := false
  fits := Nat.zero_le capacity
  unread := fun _ => rfl

variable {c d : Channel α capacity} {a : α}

theorem send_eq_sent (h : c.send a = .sent d) : c.receiver = true ∧ d.receiver = true ∧
    d.sender = c.sender ∧ d.queue = c.queue ++ [a] := by
  unfold send at h
  split at h
  · next there =>
    split at h
    · cases h
      exact ⟨there, there, rfl, rfl⟩
    · cases h
  · cases h

theorem send_eq_closed (h : c.send a = .closed) : c.receiver = false := by
  unfold send at h
  split at h
  · split at h <;> cases h
  · next gone => simpa using gone

theorem recv_eq_message (h : c.recv = .message a d) : c.queue = a :: d.queue ∧
    d.receiver = c.receiver ∧ d.sender = c.sender := by
  unfold recv at h
  split at h
  · next same =>
    cases h
    exact ⟨same, rfl, rfl⟩
  · split at h <;> cases h

theorem recv_eq_closed (h : c.recv = .closed) : c.queue = [] ∧ c.sender = false := by
  unfold recv at h
  split at h
  · cases h
  · next empty =>
    split at h
    · cases h
    · next gone => exact ⟨empty, by simpa using gone⟩

end Channel

/-- What a producer does next. -/
inductive Move (σ α : Type)
  | quiet (t : σ)
  | emit (a : α) (t : σ)
  | done

/-- A producer between two moves, in the middle of a send, or after its end. -/
inductive Stage (σ α : Type)
  | running (s : σ)
  | sending (a : α) (s : σ)
  | returned

/-- `closed` says that the receiver has been told the end of the messages. -/
structure System (σ α : Type) (capacity : Nat) where
  stage : Stage σ α
  channel : Channel α capacity
  received : List α
  closed : Bool

inductive ChannelAction
  | produce
  | receive
  | drop
  deriving DecidableEq, Repr

namespace System

def start (capacity : Nat) (s : σ) : System σ α capacity where
  stage := .running s
  channel := .new α capacity
  received := []
  closed := false

def finish (s : System σ α capacity) : System σ α capacity :=
  { s with stage := .returned, channel := s.channel.dropSender }

def produce (next : σ → Move σ α) (s : System σ α capacity) : Option (System σ α capacity) :=
  match s.stage with
  | .running p =>
    match next p with
    | .quiet q => some { s with stage := .running q }
    | .emit a q => some { s with stage := .sending a q }
    | .done => some s.finish
  | .sending a q =>
    match s.channel.send a with
    | .sent channel => some { s with stage := .running q, channel }
    | .full => none
    | .closed => some s.finish
  | .returned => none

/-- A receiver that has been told the end, or is gone, receives nothing more. -/
def receive (s : System σ α capacity) : Option (System σ α capacity) :=
  if s.closed || !s.channel.receiver then none
  else
    match s.channel.recv with
    | .message a channel => some { s with channel, received := s.received ++ [a] }
    | .pending => none
    | .closed => some { s with closed := true }

def drop (s : System σ α capacity) : Option (System σ α capacity) :=
  if s.channel.receiver then some { s with channel := s.channel.dropReceiver } else none

def step (next : σ → Move σ α) (s : System σ α capacity) :
    ChannelAction → Option (System σ α capacity)
  | .produce => s.produce next
  | .receive => s.receive
  | .drop => s.drop

end System

/-- What a producer sends from each of its states on, and a rank that its moves use up. -/
structure Produces (next : σ → Move σ α) (output : σ → List α) (rank : σ → Nat) : Prop where
  quiet : ∀ s t, next s = .quiet t → output s = output t ∧ rank t < rank s
  emit : ∀ s a t, next s = .emit a t → output s = a :: output t ∧ rank t < rank s
  done : ∀ s, next s = .done → output s = []

/-- What is still to be put in the channel. -/
def Stage.coming (output : σ → List α) : Stage σ α → List α
  | .running p => output p
  | .sending a p => a :: output p
  | .returned => []

def Stage.weight (rank : σ → Nat) : Stage σ α → Nat
  | .running p => 4 * rank p + 2
  | .sending _ p => 4 * rank p + 4
  | .returned => 0

namespace System

/-- An upper bound for the number of steps that are left. -/
def weight (rank : σ → Nat) (s : System σ α capacity) : Nat :=
  s.stage.weight rank + s.channel.queue.length +
    s.channel.receiver.toNat + (!s.closed).toNat

/-- The messages that the producer has to send, in their order: those received, those in the
channel, those to come. -/
structure Kept (output : σ → List α) (whole : List α) (s : System σ α capacity) : Prop where
  listening : s.channel.receiver = true →
    s.received ++ s.channel.queue ++ s.stage.coming output = whole
  gone : s.received <+: whole
  sender : s.channel.sender = false ↔ ∀ p, s.stage ≠ .running p ∧ ∀ a, s.stage ≠ .sending a p
  closed : s.closed = true → s.received = whole

variable {next : σ → Move σ α} {output : σ → List α} {rank : σ → Nat} {whole : List α}
  {s t : System σ α capacity}

/-- Everything that a move of the producer can be. -/
theorem produce_cases (h : s.produce next = some t) :
    (∃ p q, s.stage = .running p ∧ next p = .quiet q ∧ t = { s with stage := .running q }) ∨
    (∃ p a q, s.stage = .running p ∧ next p = .emit a q ∧ t = { s with stage := .sending a q }) ∨
    (∃ p, s.stage = .running p ∧ next p = .done ∧ t = s.finish) ∨
    (∃ a q channel, s.stage = .sending a q ∧ s.channel.send a = .sent channel ∧
      t = { s with stage := .running q, channel }) ∨
    (∃ a q, s.stage = .sending a q ∧ s.channel.receiver = false ∧ t = s.finish) := by
  unfold produce at h
  cases stage : s.stage with
  | running p =>
    rw [stage] at h
    cases move : next p with
    | quiet q => exact .inl ⟨p, q, rfl, move, by simpa [move] using h.symm⟩
    | emit a q => exact .inr (.inl ⟨p, a, q, rfl, move, by simpa [move] using h.symm⟩)
    | done => exact .inr (.inr (.inl ⟨p, rfl, move, by simpa [move] using h.symm⟩))
  | sending a q =>
    rw [stage] at h
    cases sends : s.channel.send a with
    | sent channel =>
      exact .inr (.inr (.inr (.inl ⟨a, q, channel, rfl, sends, by simpa [sends] using h.symm⟩)))
    | full => simp [sends] at h
    | closed =>
      have gone := Channel.send_eq_closed sends
      exact .inr (.inr (.inr (.inr ⟨a, q, rfl, gone, by simpa [sends] using h.symm⟩)))
  | returned => simp [stage] at h

theorem receive_cases (h : s.receive = some t) : s.closed = false ∧ s.channel.receiver = true ∧
    ((∃ a channel, s.channel.recv = .message a channel ∧
      t = { s with channel, received := s.received ++ [a] }) ∨
    (s.channel.recv = .closed ∧ t = { s with closed := true })) := by
  unfold receive at h
  split at h
  · cases h
  · next listens =>
    obtain ⟨more, there⟩ : s.closed = false ∧ s.channel.receiver = true := by
      simpa using listens
    refine ⟨more, there, ?_⟩
    cases gets : s.channel.recv with
    | message a channel => exact .inl ⟨a, channel, rfl, by simpa [gets] using h.symm⟩
    | pending => simp [gets] at h
    | closed => exact .inr ⟨rfl, by simpa [gets] using h.symm⟩

theorem drop_cases (h : s.drop = some t) :
    s.channel.receiver = true ∧ t = { s with channel := s.channel.dropReceiver } := by
  unfold drop at h
  split at h
  · next there => exact ⟨there, by simpa using h.symm⟩
  · cases h

theorem Kept.start (output : σ → List α) (p : σ) :
    Kept output (output p) (start capacity p : System σ α capacity) where
  listening := fun _ => rfl
  gone := List.nil_prefix
  sender := by simp [System.start, Channel.new]
  closed := fun h => by simp [System.start] at h

theorem Kept.produce (made : Produces next output rank) (kept : Kept output whole s)
    (h : s.produce next = some t) : Kept output whole t := by
  rcases produce_cases h with ⟨p, q, stage, move, rfl⟩ | ⟨p, a, q, stage, move, rfl⟩ |
    ⟨p, stage, move, rfl⟩ | ⟨a, q, channel, stage, sends, rfl⟩ | ⟨a, q, stage, absent, rfl⟩
  · have same := (made.quiet p q move).1
    refine ⟨fun there => ?_, kept.gone, ?_, kept.closed⟩
    · have whole := kept.listening there
      rwa [stage, Stage.coming, same] at whole
    · have sender := kept.sender
      simpa [stage] using sender
  · have same := (made.emit p a q move).1
    refine ⟨fun there => ?_, kept.gone, ?_, kept.closed⟩
    · have whole := kept.listening there
      rwa [stage, Stage.coming, same] at whole
    · have sender := kept.sender
      simpa [stage] using sender
  · have same := made.done p move
    refine ⟨fun there => ?_, kept.gone, by simp [finish, Channel.dropSender], kept.closed⟩
    have whole := kept.listening there
    rwa [stage, Stage.coming, same] at whole
  · obtain ⟨there, _, sender, queue⟩ := Channel.send_eq_sent sends
    refine ⟨fun _ => ?_, kept.gone, ?_, kept.closed⟩
    · have whole := kept.listening there
      rw [stage, Stage.coming] at whole
      show s.received ++ channel.queue ++ output q = _
      rw [queue, ← whole]
      simp
    · have sender' := kept.sender
      rw [stage] at sender'
      simpa [sender] using sender'
  · refine ⟨fun there => ?_, kept.gone, by simp [finish, Channel.dropSender], kept.closed⟩
    exact absurd there (by simp [finish, Channel.dropSender, absent])

theorem Kept.receive (kept : Kept output whole s) (h : s.receive = some t) :
    Kept output whole t := by
  obtain ⟨more, there, ⟨a, channel, gets, rfl⟩ | ⟨gets, rfl⟩⟩ := receive_cases h
  · obtain ⟨queue, receiver, sender⟩ := Channel.recv_eq_message gets
    have all := kept.listening there
    have all' : s.received ++ [a] ++ channel.queue ++ s.stage.coming output = whole := by
      rw [← all, queue]
      simp
    refine ⟨fun _ => all', ?_, ?_, fun closed => absurd closed (by simp [more])⟩
    · rw [List.append_assoc] at all'
      exact ⟨_, all'⟩
    · rw [sender]
      exact kept.sender
  · obtain ⟨empty, gone⟩ := Channel.recv_eq_closed gets
    refine ⟨kept.listening, kept.gone, kept.sender, fun _ => ?_⟩
    have all := kept.listening there
    have ended : s.stage.coming output = [] := by
      have after := kept.sender.mp gone
      cases stage : s.stage with
      | running p => exact absurd stage (after p).1
      | sending a p => exact absurd stage ((after p).2 a)
      | returned => rfl
    simpa [empty, ended] using all

theorem Kept.drop (kept : Kept output whole s) (h : s.drop = some t) : Kept output whole t := by
  obtain ⟨there, rfl⟩ := drop_cases h
  refine ⟨fun still => ?_, kept.gone, kept.sender, kept.closed⟩
  exact absurd still (by simp [Channel.dropReceiver])

/-- What is received is what the producer sends, in its order, and all of it once the receiver
has been told the end. -/
theorem kept_of_run (made : Produces next output rank) {p : σ}
    {past : List (System σ α capacity × ChannelAction)}
    (run : StepSystem.Run (step next) (start capacity p) past s) : Kept output (output p) s := by
  refine run.invariant (Kept.start output p) ?_
  intro past s a t _ kept h
  cases a with
  | produce => exact kept.produce made h
  | receive => exact kept.receive h
  | drop => exact kept.drop h

/-- What holds from the moment on when the receiver was dropped in `e`. -/
structure Dropped (output : σ → List α) (e s : System σ α capacity) : Prop where
  gone : s.channel.receiver = false
  received : s.received = e.received
  coming : s.stage = .returned ∨ s.stage.coming output = e.stage.coming output

theorem Dropped.step (made : Produces next output rank) {e : System σ α capacity}
    (dropped : Dropped output e s) {a : ChannelAction} (h : step next s a = some t) :
    Dropped output e t := by
  obtain ⟨gone, received, coming⟩ := dropped
  cases a with
  | produce =>
    rcases produce_cases h with ⟨p, q, stage, move, rfl⟩ | ⟨p, a, q, stage, move, rfl⟩ |
      ⟨p, stage, move, rfl⟩ | ⟨a, q, channel, stage, sends, rfl⟩ | ⟨a, q, stage, _, rfl⟩
    · refine ⟨gone, received, .inr ?_⟩
      have same := (made.quiet p q move).1
      simpa [stage, Stage.coming, same] using coming
    · refine ⟨gone, received, .inr ?_⟩
      have same := (made.emit p a q move).1
      simpa [stage, Stage.coming, same] using coming
    · exact ⟨gone, received, .inl rfl⟩
    · have there := (Channel.send_eq_sent sends).1
      simp [gone] at there
    · exact ⟨gone, received, .inl rfl⟩
  | receive =>
    have there := (receive_cases h).2.1
    simp [gone] at there
  | drop =>
    have there := (drop_cases h).1
    simp [gone] at there

/-- A receiver that is dropped keeps what it has received, and the producer goes no further than
the message that is next. -/
theorem dropped_of_run (made : Produces next output rank) {init : System σ α capacity}
    {past : List (System σ α capacity × ChannelAction)}
    (run : StepSystem.Run (step next) init past s) {e : System σ α capacity}
    (h : (e, .drop) ∈ past) : Dropped output e s := by
  refine run.lasting (e := (e, .drop)) ?_ (fun _ _ _ _ _ q h => q.step made h) h
  intro past t _ h
  obtain ⟨_, rfl⟩ := drop_cases h
  exact ⟨rfl, rfl, .inr rfl⟩

end System

end BoundedChannel
