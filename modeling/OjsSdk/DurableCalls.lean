import OjsSdk.Durable
import Mathlib.Data.List.Infix

namespace OjsSdk

variable {W T σ : Type}

/-- The entry at the cursor is one that the helper takes. -/
def DurableContext.Answers (ctx : DurableContext) (k : Helper W T) : Prop :=
  ∃ entry, ctx.replayLog[ctx.replayCursor]? = some entry ∧ k.accepts entry = true

/-- Asked afresh, the helper has a value to record. -/
def Helper.Gives (k : Helper W T) (w : W) : Prop :=
  ∃ t v, k.fresh w = .value t ∧ k.encode t = .value v

/-- What a helper comes back with. -/
inductive Consulted (k : Helper W T) (w : W) (ctx : DurableContext) :
    HelperResult T × DurableContext × Option Source → Prop
  | replayed (entry : ReplayEntry) (found : ctx.replayLog[ctx.replayCursor]? = some entry)
      (accepted : k.accepts entry = true) :
      Consulted k w ctx (k.decode entry.result, ctx.advance, none)
  | recorded (t : T) (v : Value) (unanswered : ¬ctx.Answers k) (fresh : k.fresh w = .value t)
      (encoded : k.encode t = .value v) :
      Consulted k w ctx (.value t, ctx.record k.entryType k.key v, some k.source)
  | refused (result : HelperResult T) (unanswered : ¬ctx.Answers k) (nothing : ¬k.Gives w)
      (noValue : ∀ t, result ≠ .value t) : Consulted k w ctx (result, ctx, some k.source)

theorem DurableContext.consulted (k : Helper W T) (w : W) (ctx : DurableContext) :
    Consulted k w ctx (ctx.consult k w) := by
  unfold consult
  cases found : (ctx.replayLog[ctx.replayCursor]?).filter k.accepts with
  | some entry =>
    obtain ⟨here, accepted⟩ := Option.filter_eq_some_iff.mp found
    exact .replayed entry here accepted
  | none =>
    have unanswered : ¬ctx.Answers k := by
      rintro ⟨entry, here, accepted⟩
      simp [here, accepted] at found
    cases fresh : k.fresh w with
    | value t =>
      cases encoded : k.encode t with
      | value v =>
        simp only [encoded]
        exact .recorded t v unanswered fresh encoded
      | failed e =>
        simp only [encoded]
        exact .refused _ unanswered (by simp [Helper.Gives, fresh, encoded]) (by simp)
      | panicked =>
        simp only [encoded]
        exact .refused _ unanswered (by simp [Helper.Gives, fresh, encoded]) (by simp)
    | failed e => exact .refused _ unanswered (by simp [Helper.Gives, fresh]) (by simp)
    | panicked => exact .refused _ unanswered (by simp [Helper.Gives, fresh]) (by simp)

theorem DurableContext.consult_cursor_le (k : Helper W T) (w : W) (ctx : DurableContext) :
    ctx.replayCursor ≤ (ctx.consult k w).2.1.replayCursor := by
  have consulted := ctx.consulted k w
  generalize ctx.consult k w = r at consulted
  cases consulted with
  | replayed entry _ _ => exact Nat.le_succ _
  | recorded t v _ _ _ => exact Nat.le_succ _
  | refused result _ _ _ => exact Nat.le_refl _

namespace Execution

variable (e : Execution σ) (r : HelperResult T × DurableContext × Option Source)
  (wrap : T → Returned) (resume : T → σ) (recover : DurableError → Option σ)

@[simp] theorem after_ctx : (e.after r wrap resume recover).ctx = r.2.1 := by
  rcases r with ⟨t | err | _, ctx, source⟩
  · rfl
  · cases hr : recover err <;> simp [after, hr]
  · rfl

@[simp] theorem after_invoked :
    (e.after r wrap resume recover).invoked = e.invoked ++ r.2.2.toList := by
  rcases r with ⟨t | err | _, ctx, source⟩
  · rfl
  · cases hr : recover err <;> simp [after, hr]
  · rfl

end Execution

end OjsSdk
