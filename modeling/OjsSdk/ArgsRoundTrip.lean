import OjsSdk.TypedArgs

namespace OjsSdk

variable {job : Job} {v item : Value} {fields : List (String × Value)}

theorem normalizeArgs_cases (v : Value) :
    (∃ items, v = .array items ∧ normalizeArgs v = v) ∨
      ((∀ items, v ≠ .array items) ∧ normalizeArgs v = .array [v]) := by
  cases v with
  | array items => exact .inl ⟨items, rfl, rfl⟩
  | _ => exact .inr ⟨by simp, rfl⟩

theorem normalizeArgs_idem (v : Value) : normalizeArgs (normalizeArgs v) = normalizeArgs v := by
  rcases normalizeArgs_cases v with ⟨items, rfl, _⟩ | ⟨_, h⟩
  · rfl
  · rw [h]
    rfl

/-- The wire form of a one-element array is also that of its element, if that is
not an array: no decoder tells the two apart. -/
theorem normalizeArgs_singleton (h : ∀ items, item ≠ .array items) :
    normalizeArgs (.array [item]) = normalizeArgs item := by
  rcases normalizeArgs_cases item with ⟨items, other, _⟩ | ⟨_, wrapped⟩
  · exact absurd other (h items)
  · exact wrapped.symm

theorem argsAsInput_of_enqueued (enqueued : job.args = normalizeArgs v)
    (h : ¬∃ item, v = .array [item]) : job.argsAsInput = v := by
  rcases normalizeArgs_cases v with ⟨items, rfl, same⟩ | ⟨_, wrapped⟩
  · rw [same] at enqueued
    rw [argsAsInput_of_not_singleton (by rwa [enqueued]), enqueued]
  · exact argsAsInput_singleton (enqueued.trans wrapped)

theorem argsAsInput_of_enqueued_singleton (enqueued : job.args = normalizeArgs (.array [item])) :
    job.argsAsInput = item :=
  argsAsInput_singleton enqueued

theorem arg_of_singleton {T : Type} (decode : Decoder T) (key : String)
    (wrapped : job.args = .array [.object fields]) :
    job.arg decode key =
      match lookupField fields key with
      | none => .error (.handler ("missing argument: " ++ key))
      | some value =>
        match decode value with
        | .ok t => .ok t
        | .error e => .error (.handler ("failed to deserialize arg '" ++ key ++ "': " ++ e)) := by
  unfold Job.arg
  rw [wrapped]
  cases hl : lookupField fields key with
  | none => simp [Value.asObject, hl]; rfl
  | some value => cases hd : decode value <;> simp [Value.asObject, hl, hd] <;> rfl

/-- What a job's decoders make of the wire form of its arguments. `args_as` gives the
decoder the value itself, except that it unwraps a one-element array, and `arg` reads
the fields of an object. -/
theorem args_round_trip (v : Value) (job : Job) (enqueued : job.args = normalizeArgs v) :
    (job.argsAsInput = v ↔ ¬∃ item, v = .array [item]) ∧
      (∀ item, v = .array [item] → job.argsAsInput = item) ∧
      normalizeArgs (normalizeArgs v) = normalizeArgs v ∧
      ∀ fields, v = .object fields → ∀ (T : Type) (decode : Decoder T) (key : String),
        (∀ t, job.arg decode key = .ok t ↔
          ∃ value, lookupField fields key = some value ∧ decode value = .ok t) ∧
        ((∃ e, job.arg decode key = .error e) ↔
          lookupField fields key = none ∨
            ∃ value e, lookupField fields key = some value ∧ decode value = .error e) := by
  refine ⟨⟨?_, argsAsInput_of_enqueued enqueued⟩, ?_, normalizeArgs_idem v, ?_⟩
  · rintro same ⟨item, rfl⟩
    rw [argsAsInput_of_enqueued_singleton enqueued] at same
    exact Value.array_singleton_ne item same.symm
  · rintro item rfl
    exact argsAsInput_of_enqueued_singleton enqueued
  · rintro fields rfl T decode key
    rw [arg_of_singleton decode key enqueued]
    cases hl : lookupField fields key with
    | none => simp
    | some value => cases hd : decode value <;> simp [hd]

/-- An object comes back as it was enqueued. -/
theorem args_round_trip_email : emailContext.job.argsAsInput = .object emailObject :=
  (args_round_trip (.object emailObject) emailContext.job rfl).1.mpr (by simp)

/-- An array of one tag reaches the decoder as the tag. -/
theorem args_singleton_unwrapped :
    ¬ ∀ (v : Value) (job : Job), job.args = normalizeArgs v → job.argsAsInput = v := by
  intro all
  have same := all (.array [.string "urgent"])
    (Job.ofWire "job-1" "tags.add" (normalizeArgs (.array [.string "urgent"]))) rfl
  exact Value.array_singleton_ne (.string "urgent") same.symm

end OjsSdk
