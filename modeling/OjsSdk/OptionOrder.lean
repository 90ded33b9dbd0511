import OjsSdk.EnqueueOptions
import OjsSdk.LastWriter

namespace OjsSdk

open LastWriter

variable {chrono : Chrono} {now : DateTime} {wire wire' : EnqueueOptionsWire}
  {opt : EnqueueOption} {opts : List EnqueueOption}

inductive WireField
  | queue
  | priority
  | timeoutMs
  | delayUntil
  | expiresAt
  | retry
  | unique
  | tags
  | visibilityTimeoutMs
  deriving DecidableEq, Repr

abbrev WireField.Value : WireField → Type
  | .queue => String
  | .priority => Int32
  | .timeoutMs => UInt64
  | .delayUntil => DateTime
  | .expiresAt => DateTime
  | .retry => RetryPolicy
  | .unique => UniquePolicy
  | .tags => List String
  | .visibilityTimeoutMs => UInt64

namespace EnqueueOptionsWire

def get (wire : EnqueueOptionsWire) : Fields WireField.Value
  | .queue => wire.queue
  | .priority => wire.priority
  | .timeoutMs => wire.timeoutMs
  | .delayUntil => wire.delayUntil
  | .expiresAt => wire.expiresAt
  | .retry => wire.retry
  | .unique => wire.unique
  | .tags => wire.tags
  | .visibilityTimeoutMs => wire.visibilityTimeoutMs

def ofFields (r : Fields WireField.Value) : EnqueueOptionsWire where
  queue := r .queue
  priority := r .priority
  timeoutMs := r .timeoutMs
  delayUntil := r .delayUntil
  expiresAt := r .expiresAt
  retry := r .retry
  unique := r .unique
  tags := r .tags
  visibilityTimeoutMs := r .visibilityTimeoutMs

theorem get_ofFields (r : Fields WireField.Value) : (ofFields r).get = r := by
  funext f
  cases f with
  | _ => rfl

theorem get_injective (same : wire.get = wire'.get) : wire = wire' :=
  congrArg ofFields same

/-- The fields of the later options, and those that they leave open as they were. -/
def override (wire later : EnqueueOptionsWire) : EnqueueOptionsWire where
  queue := later.queue.or wire.queue
  priority := later.priority.or wire.priority
  timeoutMs := later.timeoutMs.or wire.timeoutMs
  delayUntil := later.delayUntil.or wire.delayUntil
  expiresAt := later.expiresAt.or wire.expiresAt
  retry := later.retry.or wire.retry
  unique := later.unique.or wire.unique
  tags := later.tags.or wire.tags
  visibilityTimeoutMs := later.visibilityTimeoutMs.or wire.visibilityTimeoutMs

theorem get_override (wire later : EnqueueOptionsWire) :
    (wire.override later).get = merge wire.get later.get := by
  funext f
  cases f with
  | _ => rfl

end EnqueueOptionsWire

/-- The right-biased merge. -/
def mergeOptions : Option EnqueueOptionsWire → Option EnqueueOptionsWire →
    Option EnqueueOptionsWire
  | none, later => later
  | some wire, none => some wire
  | some wire, some later => some (wire.override later)

namespace EnqueueOption

/-- The field of the wire options that an option sets. -/
def field : EnqueueOption → Option WireField
  | .queue _ => some .queue
  | .priority _ => some .priority
  | .timeout _ => some .timeoutMs
  | .delay _ => some .delayUntil
  | .scheduledAt _ => some .delayUntil
  | .expiresAt _ => some .expiresAt
  | .retry _ => some .retry
  | .unique _ => some .unique
  | .tags _ => some .tags
  | .metadata _ => none
  | .visibilityTimeout _ => some .visibilityTimeoutMs

/-- The field with the value that the option gives it at the time `now`. -/
def setting (chrono : Chrono) (now : DateTime) : EnqueueOption → Option (Write WireField.Value)
  | .queue q => some ⟨.queue, q⟩
  | .priority p => some ⟨.priority, p⟩
  | .timeout d => some ⟨.timeoutMs, UInt64.ofNat d.asMillis⟩
  | .delay d => (chrono.add now ((chrono.fromStd d).getD ⟨0⟩)).map (fun t => ⟨.delayUntil, t⟩)
  | .scheduledAt t => some ⟨.delayUntil, t⟩
  | .expiresAt t => some ⟨.expiresAt, t⟩
  | .retry r => some ⟨.retry, r⟩
  | .unique u => some ⟨.unique, u⟩
  | .tags t => some ⟨.tags, t⟩
  | .metadata _ => none
  | .visibilityTimeout d => some ⟨.visibilityTimeoutMs, UInt64.ofNat d.asMillis⟩

theorem field_of_setting {w : Write WireField.Value} (sets : opt.setting chrono now = some w) :
    opt.field = some w.field := by
  cases opt with
  | delay d =>
    obtain ⟨t, -, rfl⟩ := Option.map_eq_some_iff.mp sets
    rfl
  | _ => cases sets <;> rfl

end EnqueueOption

/-- What the last option that sets a field gives it. -/
def lastSetting (chrono : Chrono) (now : DateTime) (opts : List EnqueueOption) :
    Fields WireField.Value :=
  last (opts.filterMap (EnqueueOption.setting chrono now))

theorem get_resolve (resolved : wire.resolve chrono now opt = .ok wire') :
    wire'.get = (opt.setting chrono now).toList.foldl Fields.write wire.get := by
  cases opt with
  | delay d =>
    obtain ⟨t, added, rfl⟩ := resolve_delay_eq_ok resolved
    rw [EnqueueOption.setting, added]
    funext f
    cases f with
    | _ => rfl
  | _ =>
    cases resolved
    funext f
    cases f with
    | _ => rfl

theorem get_resolveFrom {i : Nat}
    (resolved : resolveFrom chrono (fun _ => now) i wire opts = .ok wire') :
    wire'.get = merge wire.get (lastSetting chrono now opts) := by
  rw [lastSetting, ← foldl_write]
  induction opts generalizing i wire with
  | nil =>
    cases resolved
    rfl
  | cons opt opts ih =>
    obtain ⟨next, first, rest⟩ := resolveFrom_cons_eq_ok_iff.mp resolved
    rw [ih rest, get_resolve first, List.filterMap_cons]
    cases opt.setting chrono now with
    | none => rfl
    | some w => rfl

theorem delaysFit_iff : DelaysFit chrono (fun _ => now) opts ↔
    ∀ d, .delay d ∈ opts → (chrono.add now ((chrono.fromStd d).getD ⟨0⟩)).isSome = true := by
  constructor
  · intro fits d mem
    obtain ⟨i, here⟩ := List.mem_iff_getElem?.mp mem
    exact fits i d here
  · intro fits i d here
    exact fits d (List.mem_of_getElem? here)

/-- What the options come to, where none of them overflows. -/
def lastOptions (chrono : Chrono) (now : DateTime) (opts : List EnqueueOption) :
    Option EnqueueOptionsWire :=
  if opts.isEmpty then none else some (.ofFields (lastSetting chrono now opts))

theorem resolveOptions_of_fits (fits : DelaysFit chrono (fun _ => now) opts) :
    resolveOptions chrono (fun _ => now) opts = .ok (lastOptions chrono now opts) := by
  obtain ⟨options, resolved⟩ := (exists_resolveOptions_eq_ok_iff chrono _ opts).mpr fits
  rcases resolveOptions_eq_ok_cases resolved with ⟨rfl, rfl⟩ | ⟨wire, rfl, from_default⟩
  · rfl
  · have fields := get_resolveFrom from_default
    have same : wire = .ofFields (lastSetting chrono now opts) := by
      refine EnqueueOptionsWire.get_injective (fields.trans ?_)
      rw [EnqueueOptionsWire.get_ofFields]
      funext f
      cases f with
      | _ => exact Option.or_none
    have some_option : opts.isEmpty = false := by
      cases opts with
      | nil => cases resolved
      | cons opt opts => rfl
    rw [resolved, lastOptions, some_option, same]
    rfl

theorem lastOptions_append (a b : List EnqueueOption) :
    lastOptions chrono now (a ++ b) =
      mergeOptions (lastOptions chrono now a) (lastOptions chrono now b) := by
  have split : lastSetting chrono now (a ++ b) =
      merge (lastSetting chrono now a) (lastSetting chrono now b) := by
    rw [lastSetting, List.filterMap_append, last_append]
    rfl
  cases a with
  | nil => rfl
  | cons x a =>
    cases b with
    | nil =>
      rw [List.append_nil]
      rfl
    | cons y b =>
      have fields : EnqueueOptionsWire.ofFields (lastSetting chrono now (x :: a ++ y :: b)) =
          (EnqueueOptionsWire.ofFields (lastSetting chrono now (x :: a))).override
            (.ofFields (lastSetting chrono now (y :: b))) := by
        refine EnqueueOptionsWire.get_injective ?_
        rw [EnqueueOptionsWire.get_override, EnqueueOptionsWire.get_ofFields,
          EnqueueOptionsWire.get_ofFields, EnqueueOptionsWire.get_ofFields, split]
      unfold lastOptions
      rw [fields]
      rfl

theorem lastOptions_swap {x y : EnqueueOption} (other : x.field ≠ y.field)
    (a b : List EnqueueOption) :
    lastOptions chrono now (a ++ x :: y :: b) = lastOptions chrono now (a ++ y :: x :: b) := by
  have same : lastSetting chrono now (a ++ x :: y :: b) =
      lastSetting chrono now (a ++ y :: x :: b) := by
    unfold lastSetting
    rw [List.filterMap_append, List.filterMap_append]
    cases setX : x.setting chrono now with
    | none => simp only [List.filterMap_cons, setX]
    | some v =>
      cases setY : y.setting chrono now with
      | none => simp only [List.filterMap_cons, setX, setY]
      | some w =>
        simp only [List.filterMap_cons, setX, setY]
        refine last_swap (fun same => other ?_) _ _
        rw [EnqueueOption.field_of_setting setX, EnqueueOption.field_of_setting setY, same]
  unfold lastOptions
  rw [same]
  simp

/-- The last option that sets a field wins, so that the options of two lists are merged and the
order of options for different fields does not matter. -/
structure LastWriterWins (chrono : Chrono) (now : DateTime) (opts : List EnqueueOption) : Prop where
  resolved : ∃ options, resolveOptions chrono (fun _ => now) opts = .ok options ∧
    (options = none ↔ opts = []) ∧ ∀ wire ∈ options, wire.get = lastSetting chrono now opts
  merged : ∀ a b, opts = a ++ b → ∃ first later,
    resolveOptions chrono (fun _ => now) a = .ok first ∧
    resolveOptions chrono (fun _ => now) b = .ok later ∧
    resolveOptions chrono (fun _ => now) opts = .ok (mergeOptions first later)
  swapped : ∀ a x y b, opts = a ++ x :: y :: b → x.field ≠ y.field →
    resolveOptions chrono (fun _ => now) (a ++ y :: x :: b) =
      resolveOptions chrono (fun _ => now) opts

/-- The last writer wins if and only if no delay of the options runs over the end of chrono's
time. -/
theorem last_writer_wins_iff (chrono : Chrono) (now : DateTime) (opts : List EnqueueOption) :
    LastWriterWins chrono now opts ↔ DelaysFit chrono (fun _ => now) opts := by
  constructor
  · intro wins
    obtain ⟨options, resolved, -⟩ := wins.resolved
    exact (exists_resolveOptions_eq_ok_iff chrono _ opts).mp ⟨options, resolved⟩
  · intro fits
    have all := delaysFit_iff.mp fits
    refine ⟨⟨_, resolveOptions_of_fits fits, ?_, ?_⟩, ?_, ?_⟩
    · cases opts with
      | nil => simp [lastOptions]
      | cons opt opts => simp [lastOptions]
    · intro wire member
      cases opts with
      | nil => cases member
      | cons opt opts =>
        cases member
        funext f
        cases f with
        | _ => rfl
    · intro a b split
      subst split
      have fits_a := delaysFit_iff.mpr (fun d mem => all d (List.mem_append_left b mem))
      have fits_b := delaysFit_iff.mpr (fun d mem => all d (List.mem_append_right a mem))
      refine ⟨_, _, resolveOptions_of_fits fits_a, resolveOptions_of_fits fits_b, ?_⟩
      rw [resolveOptions_of_fits fits, lastOptions_append]
    · intro a x y b split other
      subst split
      have fits' : DelaysFit chrono (fun _ => now) (a ++ y :: x :: b) := by
        refine delaysFit_iff.mpr (fun d mem => all d ?_)
        simp only [List.mem_append, List.mem_cons] at mem ⊢
        tauto
      rw [resolveOptions_of_fits fits, resolveOptions_of_fits fits', lastOptions_swap other]

theorem aeon_in_range : 10 ^ 15 < 2 ^ 64 := by decide

/-- Thirty million years, and then a date instead of them. -/
def rescheduled : List EnqueueOption :=
  [.delay (Duration.fromSecs (10 ^ 15) aeon_in_range), .scheduledAt ⟨0⟩]

theorem rescheduled_panics :
    ¬∀ (chrono : Chrono) (now : DateTime) (opts : List EnqueueOption),
      LastWriterWins chrono now opts := by
  intro claim
  obtain ⟨options, resolved, -⟩ := (claim .utc ⟨0⟩ rescheduled).resolved
  have fits := (exists_resolveOptions_eq_ok_iff _ _ _).mp ⟨options, resolved⟩
  exact absurd (fits 0 _ rfl) (by decide)

end OjsSdk
