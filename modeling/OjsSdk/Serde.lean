import OjsSdk.Json
import Mathlib.Data.List.Nodup
import Mathlib.Algebra.Order.Ring.Int

namespace Serde

open OjsSdk

/-- `BTreeMap::insert` on the entries of an object. -/
def insertField (key : String) (value : Value) : List (String × Value) → List (String × Value)
  | [] => [(key, value)]
  | entry :: rest =>
    if key < entry.1 then (key, value) :: entry :: rest
    else if entry.1 = key then (key, value) :: rest
    else entry :: insertField key value rest

/-- The map that the entries written by a serializer make up. -/
def collectFields (entries : List (String × Value)) : List (String × Value) :=
  entries.foldr (fun entry fields => insertField entry.1 entry.2 fields) []

@[simp] theorem lookupField_cons (entry : String × Value) (rest : List (String × Value))
    (key : String) : lookupField (entry :: rest) key =
      if entry.1 = key then some entry.2 else lookupField rest key := by
  by_cases here : entry.1 = key
  · simp [lookupField, here]
  · simp [lookupField, here]

theorem lookupField_insertField (key : String) (value : Value) (fields : List (String × Value))
    (k : String) : lookupField (insertField key value fields) k =
      if key = k then some value else lookupField fields k := by
  induction fields with
  | nil => simp [insertField]
  | cons entry rest ih =>
    unfold insertField
    split
    next => rw [lookupField_cons]
    next =>
      split
      next same =>
        rw [lookupField_cons, lookupField_cons, same]
        split <;> rfl
      next other =>
        rw [lookupField_cons, lookupField_cons, ih]
        split
        next here =>
          have : key ≠ k := fun he => other (here.trans he.symm)
          simp [this]
        next => rfl

theorem lookupField_collectFields (entries : List (String × Value)) :
    lookupField (collectFields entries) = lookupField entries := by
  funext key
  induction entries with
  | nil => rfl
  | cons entry rest ih =>
    rw [lookupField_cons, ← ih]
    exact lookupField_insertField entry.1 entry.2 (collectFields rest) key

theorem lookupField_eq_none {entries : List (String × Value)} {key : String}
    (absent : ∀ entry ∈ entries, entry.1 ≠ key) : lookupField entries key = none := by
  simpa [lookupField] using absent

/-- A type on the wire. -/
structure Wire (α : Type) where
  decode : Value → Option α
  encode : α → Value
  stable : ∀ v a, decode v = some a → decode (encode a) = some a
  not_null : ∀ v a, decode v = some a → encode a = .null → v = .null

/-- A field of a struct, with its attributes: what it makes of the entry it finds, and the
entry it writes, unless it skips it. -/
structure Slot (α : Type) where
  decode : Option Value → Option α
  encode : α → Option Value
  stable : ∀ o a, decode o = some a → decode (encode a) = some a

namespace Wire

variable {α : Type}

def value : Wire Value where
  decode v := some v
  encode v := v
  stable _ _ _ := rfl
  not_null v a same null := by
    cases same
    exact null

def string : Wire String where
  decode := Value.asStr
  encode := .string
  stable _ _ _ := rfl
  not_null _ _ _ null := by cases null

def bool : Wire Bool where
  decode := Value.asBool
  encode := .bool
  stable _ _ _ := rfl
  not_null _ _ _ null := by cases null

/-- `HashMap<String, Value>`. -/
def map : Wire (List (String × Value)) where
  decode := Value.asObject
  encode := .object
  stable _ _ _ := rfl
  not_null _ _ _ null := by cases null

def u64 : Wire UInt64 where
  decode
    | .number (.posInt n) => some n
    | _ => none
  encode n := .number (.posInt n)
  stable _ _ _ := rfl
  not_null _ _ _ null := by cases null

def u32 : Wire UInt32 where
  decode
    | .number (.posInt n) => if n.toNat < 2 ^ 32 then some (UInt32.ofNat n.toNat) else none
    | _ => none
  encode n := .number (.posInt n.toUInt64)
  stable _ n _ := by
    have lt : n.toNat < 2 ^ 32 := n.toNat_lt
    simp only [UInt32.toNat_toUInt64, lt, ↓reduceIte, UInt32.ofNat_toNat]
  not_null _ _ _ null := by cases null

def i32 : Wire Int32 where
  decode
    | .number (.posInt n) => if n.toNat < 2 ^ 31 then some (Int32.ofInt n.toNat) else none
    | .number (.negInt n) => if -2 ^ 31 ≤ n.toInt then some (Int32.ofInt n.toInt) else none
    | _ => none
  encode n :=
    if 0 ≤ n.toInt then .number (.posInt (UInt64.ofNat n.toInt.toNat))
    else .number (.negInt (Int64.ofInt n.toInt))
  stable _ n _ := by
    have upper : n.toInt < 2 ^ 31 := n.toInt_lt
    have lower : -2 ^ 31 ≤ n.toInt := n.le_toInt
    by_cases sign : 0 ≤ n.toInt
    · have size : (UInt64.ofNat n.toInt.toNat).toNat = n.toInt.toNat := by
        rw [UInt64.toNat_ofNat']
        omega
      have small : n.toInt.toNat < 2 ^ 31 := by omega
      have back : Int32.ofInt (n.toInt.toNat : Int) = n := by
        rw [Int.toNat_of_nonneg sign, Int32.ofInt_toInt]
      simp only [sign, ↓reduceIte, size, small, back]
    · have size : (Int64.ofInt n.toInt).toInt = n.toInt :=
        Int64.toInt_ofInt_of_le (by omega) (by omega)
      simp only [sign, ↓reduceIte, size, lower, Int32.ofInt_toInt]
  not_null _ n _ null := by
    split at null
    next => cases null
    next => cases null

theorem mapM_encode {w : Wire α} {values : List Value} {items : List α}
    (decoded : values.mapM w.decode = some items) :
    (items.map w.encode).mapM w.decode = some items := by
  induction values generalizing items with
  | nil =>
    cases decoded
    rfl
  | cons v values ih =>
    rw [List.mapM_cons] at decoded
    obtain ⟨a, first, decoded⟩ := Option.bind_eq_some_iff.mp decoded
    obtain ⟨rest, others, same⟩ := Option.bind_eq_some_iff.mp decoded
    cases same
    rw [List.map_cons, List.mapM_cons, w.stable v a first, ih others]
    rfl

def list (w : Wire α) : Wire (List α) where
  decode
    | .array items => items.mapM w.decode
    | _ => none
  encode items := .array (items.map w.encode)
  stable v items decoded := by
    split at decoded
    next values => exact mapM_encode decoded
    next => cases decoded
  not_null _ _ _ null := by cases null

theorem find?_name {variants : List α} {name : α → String} {s : String} {a : α}
    (found : variants.find? (fun a => name a == s) = some a) :
    variants.find? (fun b => name b == name a) = some a := by
  have same : name a = s := by simpa using List.find?_some found
  rwa [same]

/-- An enumeration without data: the name of a variant, or an object that has it as its
single key. -/
def unitEnum (variants : List α) (name : α → String) : Wire α where
  decode
    | .string s => variants.find? (fun a => name a == s)
    | .object [(s, .null)] => variants.find? (fun a => name a == s)
    | _ => none
  encode a := .string (name a)
  stable v a decoded := by
    split at decoded
    next s => exact find?_name decoded
    next s => exact find?_name decoded
    next => cases decoded
  not_null _ _ _ null := by cases null

/-- A field without attributes. -/
def required (w : Wire α) : Slot α where
  decode o := o.bind w.decode
  encode a := some (w.encode a)
  stable o a decoded := by
    obtain ⟨v, -, decoded⟩ := Option.bind_eq_some_iff.mp decoded
    exact w.stable v a decoded

/-- A field with `#[serde(default)]`. -/
def defaulted (w : Wire α) (default : α)
    (fine : w.decode (w.encode default) = some default := by rfl) : Slot α where
  decode
    | none => some default
    | some v => w.decode v
  encode a := some (w.encode a)
  stable o a decoded := by
    split at decoded
    next =>
      cases decoded
      exact fine
    next v => exact w.stable v a decoded

theorem optional_encode {w : Wire α} {v : Value} {a : α} (decoded : w.decode v = some a)
    (given : v ≠ .null) :
    (match some (w.encode a) with
      | none => some none
      | some .null => some none
      | some v => (w.decode v).map some) = some (some a) := by
  have again := w.stable v a decoded
  have solid := mt (w.not_null v a decoded) given
  split
  next nothing => cases nothing
  next null => exact absurd (Option.some.inj null) solid
  next v' same =>
    cases same
    rw [again]
    rfl

/-- An `Option` with `#[serde(default, skip_serializing_if = "Option::is_none")]`. -/
def optional (w : Wire α) : Slot (Option α) where
  decode
    | none => some none
    | some .null => some none
    | some v => (w.decode v).map some
  encode a := a.map w.encode
  stable o a decoded := by
    split at decoded
    next => cases decoded; rfl
    next => cases decoded; rfl
    next v given =>
      obtain ⟨b, inner, rfl⟩ := Option.map_eq_some_iff.mp decoded
      exact optional_encode inner given

/-- A `Vec` with `#[serde(default, skip_serializing_if = "Vec::is_empty")]`. -/
def skipEmpty (w : Wire α) : Slot (List α) where
  decode
    | none => some []
    | some v => w.list.decode v
  encode items := if items.isEmpty then none else some (w.list.encode items)
  stable o items decoded := by
    cases items with
    | nil => rfl
    | cons item items =>
      split at decoded
      next => cases decoded
      next v => exact w.list.stable v (item :: items) decoded

end Wire

/-- The fields of a struct, which decode to a tuple. -/
structure Record (T : Type) where
  names : List String
  read : (String → Option Value) → Option T
  write : T → List (String × Value)
  read_congr : ∀ f g, (∀ n ∈ names, f n = g n) → read f = read g
  write_names : ∀ t, ∀ entry ∈ write t, entry.1 ∈ names
  stable : names.Nodup → ∀ f t, read f = some t → read (lookupField (write t)) = some t

namespace Record

variable {α T S : Type}

def empty : Record Unit where
  names := []
  read _ := some ()
  write _ := []
  read_congr _ _ _ := rfl
  write_names _ _ member := by cases member
  stable _ _ _ _ := rfl

def fieldRead (name : String) (slot : Slot α) (rest : Record T) (f : String → Option Value) :
    Option (α × T) := do
  let a ← slot.decode (f name)
  let t ← rest.read f
  return (a, t)

def fieldWrite (name : String) (slot : Slot α) (rest : Record T) (t : α × T) :
    List (String × Value) :=
  match slot.encode t.1 with
  | some v => (name, v) :: rest.write t.2
  | none => rest.write t.2

theorem fieldRead_eq_some_iff {name : String} {slot : Slot α} {rest : Record T}
    {f : String → Option Value} {t : α × T} : fieldRead name slot rest f = some t ↔
      slot.decode (f name) = some t.1 ∧ rest.read f = some t.2 := by
  obtain ⟨a, t⟩ := t
  unfold fieldRead
  cases slot.decode (f name) with
  | none => simp
  | some a' => cases rest.read f <;> simp

theorem lookupField_fieldWrite {name : String} {slot : Slot α} {rest : Record T}
    (fresh : name ∉ rest.names) (t : α × T) (key : String) :
    lookupField (fieldWrite name slot rest t) key =
      if name = key then slot.encode t.1 else lookupField (rest.write t.2) key := by
  unfold fieldWrite
  cases slot.encode t.1 with
  | some v => rw [lookupField_cons]
  | none =>
    by_cases here : name = key
    · have absent : lookupField (rest.write t.2) key = none := by
        refine lookupField_eq_none (fun entry member same => fresh ?_)
        rw [here, ← same]
        exact rest.write_names t.2 entry member
      simp only [here, ↓reduceIte, absent]
    · simp only [here, ↓reduceIte]

def field (name : String) (slot : Slot α) (rest : Record T) : Record (α × T) where
  names := name :: rest.names
  read := fieldRead name slot rest
  write := fieldWrite name slot rest
  read_congr f g same := by
    have here : f name = g name := same name List.mem_cons_self
    have others := rest.read_congr f g (fun n member => same n (List.mem_cons_of_mem _ member))
    unfold fieldRead
    rw [here, others]
  write_names t entry member := by
    unfold fieldWrite at member
    split at member
    next v _ =>
      rcases List.mem_cons.mp member with rfl | later
      · exact List.mem_cons_self
      · exact List.mem_cons_of_mem _ (rest.write_names t.2 entry later)
    next => exact List.mem_cons_of_mem _ (rest.write_names t.2 entry member)
  stable nodup f t decoded := by
    obtain ⟨fresh, nodup⟩ := List.nodup_cons.mp nodup
    obtain ⟨first, others⟩ := fieldRead_eq_some_iff.mp decoded
    refine fieldRead_eq_some_iff.mpr ⟨?_, ?_⟩
    · rw [lookupField_fieldWrite fresh]
      simpa using slot.stable (f name) t.1 first
    · rw [← rest.stable nodup f t.2 others]
      refine rest.read_congr _ _ (fun n member => ?_)
      have other : name ≠ n := fun same => fresh (same ▸ member)
      rw [lookupField_fieldWrite fresh]
      simp [other]

@[simp] theorem names_empty : empty.names = [] := rfl

@[simp] theorem names_field (name : String) (slot : Slot α) (rest : Record T) :
    (field name slot rest).names = name :: rest.names := rfl

/-- The struct with these fields. -/
def struct (r : Record T) (make : T → S) (fields : S → T) (nodup : r.names.Nodup)
    (fields_make : ∀ t, fields (make t) = t) : Wire S where
  decode v := do
    let field ← structFields r.names v
    let t ← r.read field
    return make t
  encode s := .object (collectFields (r.write (fields s)))
  stable v s decoded := by
    obtain ⟨field, -, decoded⟩ := Option.bind_eq_some_iff.mp decoded
    obtain ⟨t, read, same⟩ := Option.bind_eq_some_iff.mp decoded
    cases same
    have again := r.stable nodup field t read
    show (r.read (lookupField (collectFields (r.write (fields (make t)))))).bind _ = _
    rw [fields_make, lookupField_collectFields, again]
    rfl
  not_null _ _ _ null := by cases null

end Record

end Serde
