import OjsSdk.EnqueueOptions

namespace OjsSdk

/-- What chrono documents: a duration above `longest` is out of range for `from_std`, and the
sum with a duration panics past `latest`. -/
structure Chrono.Documented (chrono : Chrono) (longest : Nat) (latest : Int) : Prop where
  fromStd : ∀ d : Duration,
    chrono.fromStd d = if d.nanos ≤ longest then some ⟨d.nanos⟩ else none
  add : ∀ (t : DateTime) (delta : TimeDelta), 0 ≤ delta.nanos →
    chrono.add t delta =
      if t.nanos + delta.nanos ≤ latest then some ⟨t.nanos + delta.nanos⟩ else none
  millisecond : 10 ^ 6 ≤ longest

variable {chrono : Chrono} {now t : DateTime} {d : Duration} {longest : Nat} {latest : Int}

/-- Resolved alone, the option gives a field the value. -/
def ResolvesTo {α : Type} (chrono : Chrono) (now : DateTime) (opt : EnqueueOption)
    (read : EnqueueOptionsWire → Option α) (v : α) : Prop :=
  ∃ wire, resolveOptions chrono (fun _ => now) [opt] = .ok (some wire) ∧ read wire = some v

/-- The value is the duration in whole milliseconds, or the cap, and no shorter duration gives a
greater one. -/
structure FaithfulMillis (chrono : Chrono) (now : DateTime) (option : Duration → EnqueueOption)
    (read : EnqueueOptionsWire → Option UInt64) (d : Duration) : Prop where
  capped : ∃ ms, ResolvesTo chrono now (option d) read ms ∧
    ms.toNat = min d.asMillis (2 ^ 64 - 1)
  monotone : ∀ shorter : Duration, shorter.nanos ≤ d.nanos → ∀ ms ms',
    ResolvesTo chrono now (option shorter) read ms → ResolvesTo chrono now (option d) read ms' →
      ms ≤ ms'

/-- The delay ends at some time, after the present one if it is long enough, and no shorter delay
ends later. -/
structure FaithfulDelay (chrono : Chrono) (now : DateTime) (d : Duration) : Prop where
  returns : ∃ t, ResolvesTo chrono now (.delay d) (·.delayUntil) t
  waits : 10 ^ 6 ≤ d.nanos → ¬ResolvesTo chrono now (.delay d) (·.delayUntil) now
  monotone : ∀ shorter : Duration, shorter.nanos ≤ d.nanos → ∀ t t',
    ResolvesTo chrono now (.delay shorter) (·.delayUntil) t →
    ResolvesTo chrono now (.delay d) (·.delayUntil) t' → t.nanos ≤ t'.nanos

/-- The milliseconds fit into 64 bits, or what is left of them there is the cap. -/
def MillisFit (d : Duration) : Prop :=
  d.asMillis < 2 ^ 64 ∨ d.asMillis % 2 ^ 64 = 2 ^ 64 - 1

theorem resolvesTo_timeout {ms : UInt64} :
    ResolvesTo chrono now (.timeout d) (·.timeoutMs) ms ↔ ms = UInt64.ofNat d.asMillis := by
  constructor
  · rintro ⟨wire, resolved, read⟩
    cases resolved
    exact (Option.some.inj read).symm
  · intro value
    subst value
    exact ⟨_, rfl, rfl⟩

theorem resolvesTo_visibilityTimeout {ms : UInt64} :
    ResolvesTo chrono now (.visibilityTimeout d) (·.visibilityTimeoutMs) ms ↔
      ms = UInt64.ofNat d.asMillis := by
  constructor
  · rintro ⟨wire, resolved, read⟩
    cases resolved
    exact (Option.some.inj read).symm
  · intro value
    subst value
    exact ⟨_, rfl, rfl⟩

theorem resolvesTo_delay : ResolvesTo chrono now (.delay d) (·.delayUntil) t ↔
    chrono.add now ((chrono.fromStd d).getD ⟨0⟩) = some t := by
  constructor
  · rintro ⟨wire, resolved, read⟩
    rcases resolveOptions_eq_ok_cases resolved with ⟨none, -⟩ | ⟨_, same, run⟩
    · cases none
    · obtain rfl := Option.some.inj same
      obtain ⟨next, first, rest⟩ := resolveFrom_cons_eq_ok_iff.mp run
      obtain ⟨t', added, rfl⟩ := resolve_delay_eq_ok first
      cases rest
      rw [added, ← read]
  · intro added
    refine ⟨{ EnqueueOptionsWire.default with delayUntil := some t }, ?_, rfl⟩
    simp only [resolveOptions, List.isEmpty_cons, Bool.false_eq_true, ↓reduceIte, resolveFrom,
      EnqueueOptionsWire.resolve, afterDelay, added, Except.map, bind, Except.bind]

theorem faithfulMillis_iff {option : Duration → EnqueueOption}
    {read : EnqueueOptionsWire → Option UInt64}
    (value : ∀ (d : Duration) (ms : UInt64),
      ResolvesTo chrono now (option d) read ms ↔ ms = UInt64.ofNat d.asMillis) :
    FaithfulMillis chrono now option read d ↔ MillisFit d := by
  have wrapped : ∀ d : Duration, (UInt64.ofNat d.asMillis).toNat = d.asMillis % 2 ^ 64 :=
    fun d => UInt64.toNat_ofNat'
  have capped_iff : d.asMillis % 2 ^ 64 = min d.asMillis (2 ^ 64 - 1) ↔ MillisFit d := by
    unfold MillisFit
    omega
  constructor
  · intro faithful
    obtain ⟨ms, resolves, capped⟩ := faithful.capped
    rw [(value d ms).mp resolves, wrapped] at capped
    exact capped_iff.mp capped
  · intro fits
    have capped := capped_iff.mpr fits
    refine ⟨⟨_, (value d _).mpr rfl, (wrapped d).trans capped⟩, ?_⟩
    intro shorter le ms ms' resolves resolves'
    have millis : shorter.asMillis ≤ d.asMillis := Nat.div_le_div_right le
    rw [(value _ _).mp resolves, (value _ _).mp resolves', UInt64.le_iff_toNat_le, wrapped, wrapped]
    omega

/-- Where a delay ends: one that `from_std` refuses is none at all. -/
theorem resolvesTo_delay_iff (documented : chrono.Documented longest latest) :
    ResolvesTo chrono now (.delay d) (·.delayUntil) t ↔
      t.nanos = now.nanos + (if d.nanos ≤ longest then d.nanos else 0 : Nat) ∧
        t.nanos ≤ latest := by
  have amount : (if d.nanos ≤ longest then some ⟨d.nanos⟩ else none).getD (⟨0⟩ : TimeDelta) =
      ⟨(if d.nanos ≤ longest then d.nanos else 0 : Nat)⟩ := by
    by_cases short : d.nanos ≤ longest
    · rw [if_pos short, if_pos short, Option.getD_some]
    · rw [if_neg short, if_neg short, Option.getD_none, Int.natCast_zero]
  rw [resolvesTo_delay, documented.fromStd, amount,
    documented.add now _ (Int.natCast_nonneg _)]
  simp only
  generalize (if d.nanos ≤ longest then d.nanos else 0) = added
  by_cases early : now.nanos + (added : Int) ≤ latest
  · rw [if_pos early]
    constructor
    · intro ends
      cases ends
      exact ⟨rfl, early⟩
    · rintro ⟨ends, -⟩
      rw [← ends]
  · rw [if_neg early]
    constructor
    · intro ends
      cases ends
    · rintro ⟨ends, inside⟩
      omega

theorem faithfulDelay_iff (documented : chrono.Documented longest latest) :
    FaithfulDelay chrono now d ↔ d.nanos ≤ longest ∧ now.nanos + d.nanos ≤ latest := by
  have ends : ∀ t, ResolvesTo chrono now (.delay d) (·.delayUntil) t ↔
      t.nanos = now.nanos + (if d.nanos ≤ longest then d.nanos else 0 : Nat) ∧
        t.nanos ≤ latest := fun t => resolvesTo_delay_iff documented
  constructor
  · intro faithful
    obtain ⟨t, resolves⟩ := faithful.returns
    have waits := faithful.waits
    rw [ends] at resolves waits
    by_cases short : d.nanos ≤ longest
    · rw [if_pos short] at resolves
      exact ⟨short, by omega⟩
    · have long : 10 ^ 6 ≤ d.nanos := by
        have least := documented.millisecond
        omega
      rw [if_neg short] at resolves waits
      exact absurd ⟨by omega, by omega⟩ (waits long)
  · rintro ⟨short, early⟩
    rw [if_pos short] at ends
    refine ⟨⟨⟨now.nanos + d.nanos⟩, (ends _).mpr ⟨rfl, early⟩⟩, ?_, ?_⟩
    · intro long resolves
      have now_ends := ((ends now).mp resolves).1
      omega
    · intro shorter le t t' resolves resolves'
      have first := ((resolvesTo_delay_iff documented).mp resolves).1
      have second := ((ends t').mp resolves').1
      rw [if_pos (Nat.le_trans le short)] at first
      omega

/-- The timeouts are converted faithfully if and only if the milliseconds fit, and the delay if
and only if neither the duration nor the time that it leads to is out of chrono's range. -/
theorem durations_faithful_iff (documented : chrono.Documented longest latest) (now : DateTime)
    (d : Duration) :
    (FaithfulMillis chrono now .timeout (·.timeoutMs) d ↔ MillisFit d) ∧
    (FaithfulMillis chrono now .visibilityTimeout (·.visibilityTimeoutMs) d ↔ MillisFit d) ∧
    (FaithfulDelay chrono now d ↔ d.nanos ≤ longest ∧ now.nanos + d.nanos ≤ latest) := by
  refine ⟨?_, ?_, faithfulDelay_iff documented⟩
  · exact faithfulMillis_iff (fun _ _ => resolvesTo_timeout)
  · exact faithfulMillis_iff (fun _ _ => resolvesTo_visibilityTimeout)

theorem Chrono.utc_documented :
    Chrono.utc.Documented ((2 ^ 63 - 1) * 10 ^ 6) (8210266876800 * 10 ^ 9 - 1) where
  fromStd _ := rfl
  add t delta _ := by
    have bound : t.nanos + delta.nanos < 8210266876800 * 10 ^ 9 ↔
        t.nanos + delta.nanos ≤ 8210266876800 * 10 ^ 9 - 1 := by omega
    simp only [Chrono.utc, bound]
  millisecond := by decide

def day : Duration := .fromSecs 86400 (by decide)

/-- A day is a faithful delay on the first of January 1970. -/
theorem day_faithful : Chrono.utc.Documented ((2 ^ 63 - 1) * 10 ^ 6) (8210266876800 * 10 ^ 9 - 1) ∧
    FaithfulMillis .utc ⟨0⟩ .timeout (·.timeoutMs) day ∧ FaithfulDelay .utc ⟨0⟩ day := by
  have faithful := durations_faithful_iff Chrono.utc_documented ⟨0⟩ day
  exact ⟨Chrono.utc_documented, faithful.1.mpr (.inl (by decide)),
    faithful.2.2.mpr ⟨by decide, by decide⟩⟩

/-- `Duration::MAX`, which callers use as never. -/
def longestDuration : Duration := ⟨durationLimit - 1, by decide⟩

/-- The longest delay is no delay. -/
theorem longestDuration_due_now :
    ¬∀ (chrono : Chrono) (longest : Nat) (latest : Int), chrono.Documented longest latest →
      ∀ (now : DateTime) (d : Duration), FaithfulMillis chrono now .timeout (·.timeoutMs) d ∧
        FaithfulMillis chrono now .visibilityTimeout (·.visibilityTimeoutMs) d ∧
        FaithfulDelay chrono now d := by
  intro claim
  obtain ⟨-, -, faithful⟩ := claim _ _ _ Chrono.utc_documented ⟨0⟩ longestDuration
  exact faithful.waits (by decide) (resolvesTo_delay.mpr rfl)

end OjsSdk
