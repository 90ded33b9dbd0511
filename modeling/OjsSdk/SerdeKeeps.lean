import OjsSdk.Serde

namespace Serde

open OjsSdk

variable {α S T : Type}

def Wire.Keeps (w : Wire α) (a : α) : Prop := w.decode (w.encode a) = some a

def Slot.Keeps (s : Slot α) (a : α) : Prop := s.decode (s.encode a) = some a

/-- Fields are kept if their names are told apart. -/
def Record.Keeps (r : Record T) (t : T) : Prop :=
  r.names.Nodup → r.read (lookupField (r.write t)) = some t

namespace Wire

variable {w : Wire α}

@[simp] theorem value_keeps (v : Value) : value.Keeps v := rfl

@[simp] theorem string_keeps (s : String) : string.Keeps s := rfl

@[simp] theorem bool_keeps (b : Bool) : bool.Keeps b := rfl

@[simp] theorem map_keeps (fields : List (String × Value)) : map.Keeps fields := rfl

@[simp] theorem u64_keeps (n : UInt64) : u64.Keeps n := rfl

@[simp] theorem u32_keeps (n : UInt32) : u32.Keeps n := by
  have lt : n.toNat < 2 ^ 32 := n.toNat_lt
  simp only [Keeps, u32, UInt32.toNat_toUInt64, lt, ↓reduceIte, UInt32.ofNat_toNat]

@[simp] theorem i32_keeps (n : Int32) : i32.Keeps n := by
  have upper : n.toInt < 2 ^ 31 := n.toInt_lt
  have lower : -2 ^ 31 ≤ n.toInt := n.le_toInt
  -- Some value decodes to `n`, and what decodes is kept.
  by_cases sign : 0 ≤ n.toInt
  · have size : (UInt64.ofNat n.toInt.toNat).toNat = n.toInt.toNat := by
      rw [UInt64.toNat_ofNat']
      omega
    have small : n.toInt.toNat < 2 ^ 31 := by omega
    have back : Int32.ofInt (n.toInt.toNat : Int) = n := by
      rw [Int.toNat_of_nonneg sign, Int32.ofInt_toInt]
    refine i32.stable (.number (.posInt (UInt64.ofNat n.toInt.toNat))) n ?_
    simp only [i32, size, small, ↓reduceIte, back]
  · have size : (Int64.ofInt n.toInt).toInt = n.toInt :=
      Int64.toInt_ofInt_of_le (by omega) (by omega)
    refine i32.stable (.number (.negInt (Int64.ofInt n.toInt))) n ?_
    simp only [i32, size, lower, ↓reduceIte, Int32.ofInt_toInt]

theorem list_keeps_iff {items : List α} : w.list.Keeps items ↔ ∀ a ∈ items, w.Keeps a := by
  unfold Keeps list
  simp only
  induction items with
  | nil => simp
  | cons a items ih =>
    rw [List.forall_mem_cons, ← ih, List.map_cons, List.mapM_cons]
    cases first : w.decode (w.encode a) with
    | none => simp
    | some b =>
      cases others : (items.map w.encode).mapM w.decode with
      | none => simp
      | some rest => simp

theorem required_keeps {a : α} (kept : w.Keeps a) : w.required.Keeps a := kept

theorem defaulted_keeps {default a : α} {fine : w.decode (w.encode default) = some default}
    (kept : w.Keeps a) : (w.defaulted default fine).Keeps a := kept

theorem optional_decode_some {v : Value} (given : v ≠ .null) :
    w.optional.decode (some v) = (w.decode v).map some := by
  cases v with
  | null => exact absurd rfl given
  | _ => rfl

/-- An optional field is kept unless it holds what is written as `null`. -/
theorem optional_keeps_iff {o : Option α} :
    w.optional.Keeps o ↔ ∀ a ∈ o, w.Keeps a ∧ w.encode a ≠ .null := by
  cases o with
  | none => exact iff_of_true rfl (fun a absent => by cases absent)
  | some a =>
    simp only [Option.mem_def, Option.some.injEq, forall_eq']
    constructor
    · intro kept
      have read : w.optional.decode (some (w.encode a)) = some (some a) := kept
      have solid : w.encode a ≠ .null := by
        intro null
        rw [null] at read
        cases read
      rw [optional_decode_some solid] at read
      obtain ⟨b, found, same⟩ := Option.map_eq_some_iff.mp read
      cases same
      exact ⟨found, solid⟩
    · rintro ⟨kept, solid⟩
      have again : w.decode (w.encode a) = some a := kept
      show w.optional.decode (some (w.encode a)) = some (some a)
      rw [optional_decode_some solid, again]
      rfl

/-- For a type that is never written as `null`. -/
theorem optional_keeps {o : Option α} (solid : ∀ a, w.encode a ≠ .null)
    (kept : ∀ a ∈ o, w.Keeps a) : w.optional.Keeps o :=
  optional_keeps_iff.mpr (fun a given => ⟨kept a given, solid a⟩)

theorem skipEmpty_keeps_iff {items : List α} :
    w.skipEmpty.Keeps items ↔ ∀ a ∈ items, w.Keeps a := by
  cases items with
  | nil => exact iff_of_true rfl (fun a absent => by cases absent)
  | cons item items => exact list_keeps_iff

end Wire

namespace Record

theorem empty_keeps : empty.Keeps () := fun _ => rfl

theorem lookupField_write_field {name : String} {slot : Slot α} {rest : Record T}
    (fresh : name ∉ rest.names) (a : α) (t : T) (key : String) :
    lookupField ((field name slot rest).write (a, t)) key =
      if name = key then slot.encode a else lookupField (rest.write t) key :=
  lookupField_fieldWrite fresh (a, t) key

theorem Keeps.field {name : String} {slot : Slot α} {rest : Record T} {a : α} {t : T}
    (here : slot.Keeps a) (others : rest.Keeps t) : (Record.field name slot rest).Keeps (a, t) := by
  intro nodup
  obtain ⟨fresh, apart⟩ := List.nodup_cons.mp nodup
  refine fieldRead_eq_some_iff.mpr ⟨?_, ?_⟩
  · rw [lookupField_write_field fresh, if_pos rfl]
    exact here
  · rw [← others apart]
    refine rest.read_congr _ _ (fun n member => ?_)
    have other : name ≠ n := fun same => fresh (same ▸ member)
    rw [lookupField_write_field fresh, if_neg other]

/-- A struct is kept if its fields are. -/
theorem struct_keeps {r : Record T} {make : T → S} {fields : S → T} {nodup : r.names.Nodup}
    {fields_make : ∀ t, fields (make t) = t} {s : S} (same : make (fields s) = s)
    (kept : r.Keeps (fields s)) : (struct r make fields nodup fields_make).Keeps s := by
  show (r.read (lookupField (collectFields (r.write (fields s))))).bind _ = _
  rw [lookupField_collectFields, kept nodup]
  exact congrArg some same

/-- The members of a struct in the order of its fields, in which they are written to a text. -/
def members (r : Record T) (t : T) : Value := .object (r.write t)

end Record

end Serde
