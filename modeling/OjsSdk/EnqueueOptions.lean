import OjsSdk.Job
import OjsSdk.TypedArgs

namespace OjsSdk

/-- A `HashMap<String, serde_json::Value>`, in the order in which it lists its entries. -/
abbrev MetaMap := List (String × Value)

/-- `chrono::Duration`, in nanoseconds. -/
structure TimeDelta where
  nanos : Int
  deriving DecidableEq, Repr

/-- The two functions of chrono that option resolution uses: `Duration::from_std`, with
`none` for a duration out of range, and `DateTime + Duration`, with `none` where the
addition panics. -/
structure Chrono where
  fromStd : Duration → Option TimeDelta
  add : DateTime → TimeDelta → Option DateTime

/-- The readings of the clock, by the position of the option that is being resolved. -/
abbrev Clock := Nat → DateTime

inductive EnqueueOption
  | queue (q : String)
  | priority (p : Int32)
  | timeout (d : Duration)
  | delay (d : Duration)
  | scheduledAt (t : DateTime)
  | expiresAt (t : DateTime)
  | retry (r : RetryPolicy)
  | unique (u : UniquePolicy)
  | tags (t : List String)
  | metadata (m : MetaMap)
  | visibilityTimeout (d : Duration)
  deriving Repr

structure EnqueueOptionsWire where
  queue : Option String
  priority : Option Int32
  timeoutMs : Option UInt64
  delayUntil : Option DateTime
  expiresAt : Option DateTime
  retry : Option RetryPolicy
  unique : Option UniquePolicy
  tags : Option (List String)
  visibilityTimeoutMs : Option UInt64
  deriving DecidableEq, Repr

def EnqueueOptionsWire.default : EnqueueOptionsWire where
  queue := none
  priority := none
  timeoutMs := none
  delayUntil := none
  expiresAt := none
  retry := none
  unique := none
  tags := none
  visibilityTimeoutMs := none

inductive ChronoPanic
  | dateTimeOverflow
  deriving DecidableEq, Repr

/-- `Utc::now() + chrono::Duration::from_std(d).unwrap_or_default()`. -/
def afterDelay (chrono : Chrono) (now : DateTime) (d : Duration) : Except ChronoPanic DateTime :=
  match chrono.add now ((chrono.fromStd d).getD ⟨0⟩) with
  | some t => .ok t
  | none => .error .dateTimeOverflow

/-- The body of the loop of `resolve_options`. -/
def EnqueueOptionsWire.resolve (chrono : Chrono) (now : DateTime) (wire : EnqueueOptionsWire) :
    EnqueueOption → Except ChronoPanic EnqueueOptionsWire
  | .queue q => .ok { wire with queue := some q }
  | .priority p => .ok { wire with priority := some p }
  | .timeout d => .ok { wire with timeoutMs := some (UInt64.ofNat d.asMillis) }
  | .delay d => (afterDelay chrono now d).map (fun t => { wire with delayUntil := some t })
  | .scheduledAt t => .ok { wire with delayUntil := some t }
  | .expiresAt t => .ok { wire with expiresAt := some t }
  | .retry r => .ok { wire with retry := some r }
  | .unique u => .ok { wire with unique := some u }
  | .tags t => .ok { wire with tags := some t }
  | .visibilityTimeout d =>
    .ok { wire with visibilityTimeoutMs := some (UInt64.ofNat d.asMillis) }
  -- Metadata is not an option on the wire: it has its own field in the request body.
  | .metadata _ => .ok wire

def resolveFrom (chrono : Chrono) (clock : Clock) :
    Nat → EnqueueOptionsWire → List EnqueueOption → Except ChronoPanic EnqueueOptionsWire
  | _, wire, [] => .ok wire
  | i, wire, opt :: rest => do
    let wire ← wire.resolve chrono (clock i) opt
    resolveFrom chrono clock (i + 1) wire rest

def resolveOptions (chrono : Chrono) (clock : Clock) (opts : List EnqueueOption) :
    Except ChronoPanic (Option EnqueueOptionsWire) :=
  if opts.isEmpty then .ok none
  else (resolveFrom chrono clock 0 .default opts).map some

def extractMeta : List EnqueueOption → Option MetaMap
  | [] => none
  | .metadata m :: _ => some m
  | _ :: rest => extractMeta rest

/-- chrono for times and sums from the epoch on: a duration has at most `i64::MAX`
milliseconds, and the last time is the end of the year 262142. -/
def Chrono.utc : Chrono where
  fromStd d := if d.nanos ≤ (2 ^ 63 - 1) * 10 ^ 6 then some ⟨d.nanos⟩ else none
  add t delta :=
    if t.nanos + delta.nanos < 8210266876800 * 10 ^ 9 then some ⟨t.nanos + delta.nanos⟩ else none

/-- The delays of a list of options, added to the readings of the clock, stay within
the range of chrono. -/
def DelaysFit (chrono : Chrono) (clock : Clock) (opts : List EnqueueOption) : Prop :=
  ∀ i d, opts[i]? = some (.delay d) →
    (chrono.add (clock i) ((chrono.fromStd d).getD ⟨0⟩)).isSome = true

/-- The field of the wire options that an option sets. -/
def EnqueueOption.FilledIn (wire : EnqueueOptionsWire) : EnqueueOption → Prop
  | .queue _ => wire.queue.isSome = true
  | .priority _ => wire.priority.isSome = true
  | .timeout _ => wire.timeoutMs.isSome = true
  | .delay _ | .scheduledAt _ => wire.delayUntil.isSome = true
  | .expiresAt _ => wire.expiresAt.isSome = true
  | .retry _ => wire.retry.isSome = true
  | .unique _ => wire.unique.isSome = true
  | .tags _ => wire.tags.isSome = true
  | .metadata _ => True
  | .visibilityTimeout _ => wire.visibilityTimeoutMs.isSome = true

def EnqueueOption.queueName : EnqueueOption → Option String
  | .queue q => some q
  | _ => none

/-- The queue that a list of options asks for: the last one it names. -/
def lastQueue (opts : List EnqueueOption) : Option String :=
  (opts.filterMap EnqueueOption.queueName).getLast?

section

variable {chrono : Chrono} {clock : Clock} {now : DateTime} {wire wire' : EnqueueOptionsWire}
  {opt : EnqueueOption} {opts : List EnqueueOption}

theorem resolve_delay_eq_ok {d : Duration} (h : wire.resolve chrono now (.delay d) = .ok wire') :
    ∃ t, chrono.add now ((chrono.fromStd d).getD ⟨0⟩) = some t ∧
      wire' = { wire with delayUntil := some t } := by
  unfold EnqueueOptionsWire.resolve afterDelay at h
  cases ht : chrono.add now ((chrono.fromStd d).getD ⟨0⟩) with
  | none => simp [ht, Except.map] at h
  | some t =>
    simp only [ht, Except.map] at h
    cases h
    exact ⟨t, rfl, rfl⟩

theorem exists_resolve_eq_ok_iff (chrono : Chrono) (now : DateTime) (wire : EnqueueOptionsWire)
    (opt : EnqueueOption) :
    (∃ wire', wire.resolve chrono now opt = .ok wire') ↔
      ∀ d, opt = .delay d → (chrono.add now ((chrono.fromStd d).getD ⟨0⟩)).isSome = true := by
  cases opt with
  | delay d =>
    simp only [EnqueueOptionsWire.resolve, afterDelay, EnqueueOption.delay.injEq, forall_eq']
    cases chrono.add now ((chrono.fromStd d).getD ⟨0⟩) <;> simp [Except.map]
  | _ => exact iff_of_true ⟨_, rfl⟩ (by simp)

theorem resolveFrom_cons_eq_ok_iff {i : Nat} :
    resolveFrom chrono clock i wire (opt :: opts) = .ok wire' ↔
      ∃ next, wire.resolve chrono (clock i) opt = .ok next ∧
        resolveFrom chrono clock (i + 1) next opts = .ok wire' := by
  simp only [resolveFrom]
  cases wire.resolve chrono (clock i) opt <;> simp [bind, Except.bind]

theorem exists_resolveFrom_eq_ok_iff (chrono : Chrono) (clock : Clock) (opts : List EnqueueOption)
    (i : Nat) (wire : EnqueueOptionsWire) :
    (∃ wire', resolveFrom chrono clock i wire opts = .ok wire') ↔
      DelaysFit chrono (fun j => clock (i + j)) opts := by
  induction opts generalizing i wire with
  | nil => simp [resolveFrom, DelaysFit]
  | cons opt opts ih =>
    simp only [resolveFrom_cons_eq_ok_iff]
    have first := exists_resolve_eq_ok_iff chrono (clock i) wire opt
    constructor
    · rintro ⟨wire', next, hn, hr⟩ j d hj
      cases j with
      | zero => exact first.mp ⟨next, hn⟩ d (by simpa using hj)
      | succ j =>
        have fits := (ih (i + 1) next).mp ⟨wire', hr⟩ j d (by simpa using hj)
        simpa only [Nat.add_assoc, Nat.add_comm 1] using fits
    · intro fits
      obtain ⟨next, hn⟩ := first.mpr (fun d hd => fits 0 d (by simp [hd]))
      obtain ⟨wire', hr⟩ := (ih (i + 1) next).mpr (fun j d hj => by
        have later := fits (j + 1) d (by simpa using hj)
        simpa only [Nat.add_assoc, Nat.add_comm 1] using later)
      exact ⟨wire', next, hn, hr⟩

theorem exists_resolveOptions_eq_ok_iff (chrono : Chrono) (clock : Clock)
    (opts : List EnqueueOption) :
    (∃ options, resolveOptions chrono clock opts = .ok options) ↔ DelaysFit chrono clock opts := by
  have whole := exists_resolveFrom_eq_ok_iff chrono clock opts 0 .default
  simp only [Nat.zero_add] at whole
  rw [← whole]
  unfold resolveOptions
  cases opts with
  | nil => simp [resolveFrom]
  | cons opt opts =>
    simp only [List.isEmpty_cons, Bool.false_eq_true, ↓reduceIte]
    cases resolveFrom chrono clock 0 .default (opt :: opts) <;> simp [Except.map]

theorem filledIn_resolve (h : wire.resolve chrono now opt = .ok wire') : opt.FilledIn wire' := by
  cases opt with
  | delay d =>
    obtain ⟨t, _, rfl⟩ := resolve_delay_eq_ok h
    rfl
  | metadata m => trivial
  | _ => cases h; rfl

theorem EnqueueOption.FilledIn.resolve {earlier : EnqueueOption} (filled : earlier.FilledIn wire)
    (h : wire.resolve chrono now opt = .ok wire') : earlier.FilledIn wire' := by
  cases opt with
  | delay d =>
    obtain ⟨t, _, rfl⟩ := resolve_delay_eq_ok h
    cases earlier <;> first | exact filled | rfl
  | _ => cases h; cases earlier <;> first | exact filled | rfl

theorem EnqueueOption.FilledIn.resolveFrom {earlier : EnqueueOption} {i : Nat}
    (filled : earlier.FilledIn wire)
    (h : OjsSdk.resolveFrom chrono clock i wire opts = .ok wire') : earlier.FilledIn wire' := by
  induction opts generalizing i wire with
  | nil => cases h; exact filled
  | cons opt opts ih =>
    obtain ⟨next, hn, hr⟩ := resolveFrom_cons_eq_ok_iff.mp h
    exact ih (filled.resolve hn) hr

theorem filledIn_resolveFrom {i : Nat} (h : resolveFrom chrono clock i wire opts = .ok wire') :
    ∀ opt ∈ opts, opt.FilledIn wire' := by
  induction opts generalizing i wire with
  | nil => simp
  | cons opt opts ih =>
    obtain ⟨next, hn, hr⟩ := resolveFrom_cons_eq_ok_iff.mp h
    exact List.forall_mem_cons.mpr ⟨(filledIn_resolve hn).resolveFrom hr, ih hr⟩

theorem queue_resolve (h : wire.resolve chrono now opt = .ok wire') :
    wire'.queue = opt.queueName.or wire.queue := by
  cases opt with
  | delay d =>
    obtain ⟨t, _, rfl⟩ := resolve_delay_eq_ok h
    rfl
  | _ => cases h; rfl

theorem queue_resolveFrom {i : Nat} (h : resolveFrom chrono clock i wire opts = .ok wire') :
    wire'.queue = (lastQueue opts).or wire.queue := by
  induction opts generalizing i wire with
  | nil => cases h; rfl
  | cons opt opts ih =>
    obtain ⟨next, hn, hr⟩ := resolveFrom_cons_eq_ok_iff.mp h
    rw [ih hr, queue_resolve hn, lastQueue, lastQueue, List.filterMap_cons]
    cases opt.queueName with
    | none => rfl
    | some q => cases hl : (opts.filterMap EnqueueOption.queueName).getLast? <;>
        simp [List.getLast?_cons, hl]

theorem resolveOptions_eq_ok_cases {options : Option EnqueueOptionsWire}
    (h : resolveOptions chrono clock opts = .ok options) :
    (opts = [] ∧ options = none) ∨
      ∃ wire, options = some wire ∧ resolveFrom chrono clock 0 .default opts = .ok wire := by
  unfold resolveOptions at h
  cases opts with
  | nil =>
    cases h
    exact .inl ⟨rfl, rfl⟩
  | cons opt opts =>
    right
    simp only [List.isEmpty_cons, Bool.false_eq_true, ↓reduceIte] at h
    cases hr : resolveFrom chrono clock 0 .default (opt :: opts) with
    | error e => simp [hr, Except.map] at h
    | ok wire =>
      simp only [hr, Except.map] at h
      cases h
      exact ⟨wire, rfl, rfl⟩

/-- The queue on the wire is the last one that the options name. -/
theorem queue_resolveOptions {options : Option EnqueueOptionsWire}
    (h : resolveOptions chrono clock opts = .ok options) :
    options.bind EnqueueOptionsWire.queue = lastQueue opts := by
  rcases resolveOptions_eq_ok_cases h with ⟨rfl, rfl⟩ | ⟨wire, rfl, hr⟩
  · rfl
  · simpa [EnqueueOptionsWire.default] using queue_resolveFrom hr

end

end OjsSdk
