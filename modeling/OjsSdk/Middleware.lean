import OjsSdk.TypedArgs

namespace OjsSdk

/-- A middleware under its name. `M` is the type of the objects that implement the trait. -/
structure NamedMiddleware (M : Type) where
  name : String
  middleware : M

structure MiddlewareChain (M : Type) where
  middleware : List (NamedMiddleware M)

namespace MiddlewareChain

variable {M : Type}

def new : MiddlewareChain M where
  middleware := []

def add (name : String) (mw : M) (chain : MiddlewareChain M) : MiddlewareChain M where
  middleware := chain.middleware ++ [{ name, middleware := mw }]

def prepend (name : String) (mw : M) (chain : MiddlewareChain M) : MiddlewareChain M where
  middleware := chain.middleware.insertIdx 0 { name, middleware := mw }

/-- Where the first middleware of that name stands. -/
def position (existing : String) (chain : MiddlewareChain M) : Option Nat :=
  chain.middleware.findIdx? (fun m => m.name == existing)

theorem position_lt {existing : String} {i : Nat} (chain : MiddlewareChain M)
    (found : chain.position existing = some i) : i < chain.middleware.length :=
  (List.findIdx?_eq_some_iff_findIdx_eq.mp found).1

def insertBefore (existing name : String) (mw : M) (chain : MiddlewareChain M) :
    MiddlewareChain M where
  middleware := chain.middleware.insertIdx ((chain.position existing).getD 0)
    { name, middleware := mw }

def insertAfter (existing name : String) (mw : M) (chain : MiddlewareChain M) :
    MiddlewareChain M where
  middleware := chain.middleware.insertIdx
    (((chain.position existing).map (· + 1)).getD chain.middleware.length)
    { name, middleware := mw }

def remove (name : String) (chain : MiddlewareChain M) : MiddlewareChain M where
  middleware := chain.middleware.filter (fun m => m.name != name)

/-- The handler that runs the chain around `handler`. `handle` is the method of the trait,
which is given the next handler. -/
def wrap {m : Type → Type}
    (handle : M → JobContext → (JobContext → m HandlerResult) → m HandlerResult)
    (handler : JobContext → m HandlerResult) (chain : MiddlewareChain M) :
    JobContext → m HandlerResult :=
  chain.middleware.reverse.foldl (fun h named ctx => handle named.middleware ctx h) handler

end MiddlewareChain

/-- A change to a chain. -/
inductive ChainEdit (M : Type)
  | add (name : String) (mw : M)
  | prepend (name : String) (mw : M)
  | insertBefore (existing name : String) (mw : M)
  | insertAfter (existing name : String) (mw : M)
  | remove (name : String)

namespace ChainEdit

variable {M : Type}

def apply : ChainEdit M → MiddlewareChain M → MiddlewareChain M
  | .add name mw => .add name mw
  | .prepend name mw => .prepend name mw
  | .insertBefore existing name mw => .insertBefore existing name mw
  | .insertAfter existing name mw => .insertAfter existing name mw
  | .remove name => .remove name

def inserted : ChainEdit M → Option (NamedMiddleware M)
  | .add name mw => some ⟨name, mw⟩
  | .prepend name mw => some ⟨name, mw⟩
  | .insertBefore _ name mw => some ⟨name, mw⟩
  | .insertAfter _ name mw => some ⟨name, mw⟩
  | .remove _ => none

/-- The middlewares that survive the edit. -/
def keeps : ChainEdit M → NamedMiddleware M → Bool
  | .remove name, m => m.name != name
  | _, _ => true

theorem insertIdx_length {α : Type} (before after : List α) (a : α) :
    (before ++ after).insertIdx before.length a = before ++ a :: after := by
  induction before with
  | nil => rfl
  | cons b before ih =>
    rw [List.cons_append, List.length_cons, List.insertIdx_succ_cons, ih, List.cons_append]

/-- The survivors stay in order, and what is inserted stands between two of them or at an end. -/
def KeepsOrder (edit : ChainEdit M) (chain : MiddlewareChain M) : Prop :=
  ∃ before after, chain.middleware.filter edit.keeps = before ++ after ∧
    (edit.apply chain).middleware = before ++ edit.inserted.toList ++ after

theorem keepsOrder_of_insertIdx {edit : ChainEdit M} {chain : MiddlewareChain M} {i : Nat}
    {m : NamedMiddleware M} (all : chain.middleware.filter edit.keeps = chain.middleware)
    (inserted : edit.inserted = some m) (le : i ≤ chain.middleware.length)
    (result : (edit.apply chain).middleware = chain.middleware.insertIdx i m) :
    edit.KeepsOrder chain := by
  refine ⟨chain.middleware.take i, chain.middleware.drop i, ?_, ?_⟩
  · rw [all, List.take_append_drop]
  · have split := insertIdx_length (chain.middleware.take i) (chain.middleware.drop i) m
    rw [List.take_append_drop, List.length_take_of_le le] at split
    rw [result, split, inserted]
    simp

theorem keepsOrder (edit : ChainEdit M) (chain : MiddlewareChain M) : edit.KeepsOrder chain := by
  have all : ∀ l : List (NamedMiddleware M), l.filter (fun _ => true) = l :=
    fun l => List.filter_eq_self.mpr (fun _ _ => rfl)
  cases edit with
  | add name mw =>
    exact keepsOrder_of_insertIdx (all _) rfl (Nat.le_refl _) List.insertIdx_length_self.symm
  | prepend name mw => exact keepsOrder_of_insertIdx (all _) rfl (Nat.zero_le _) rfl
  | insertBefore existing name mw =>
    refine keepsOrder_of_insertIdx (all _) rfl ?_ rfl
    cases found : chain.position existing with
    | none => exact Nat.zero_le _
    | some i => exact Nat.le_of_lt (chain.position_lt found)
  | insertAfter existing name mw =>
    refine keepsOrder_of_insertIdx (all _) rfl ?_ rfl
    cases found : chain.position existing with
    | none => exact Nat.le_refl _
    | some i => exact chain.position_lt found
  | remove name =>
    refine ⟨chain.middleware.filter (fun m => m.name != name), [], ?_, ?_⟩
    · rw [List.append_nil]
      rfl
    · simp [apply, MiddlewareChain.remove, inserted]

end ChainEdit

end OjsSdk
