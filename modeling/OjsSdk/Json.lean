import Mathlib.Data.List.Basic

namespace OjsSdk

/-- `serde_json::Number`. The float variant keeps the bits of its `f64`. -/
inductive Number
  | posInt (n : UInt64)
  | negInt (n : Int64)
  | float (bits : BitVec 64)
  deriving DecidableEq, Repr

/-- `serde_json::Value`. An object lists the entries of its map in key order. -/
inductive Value
  | null
  | bool (b : Bool)
  | number (n : Number)
  | string (s : String)
  | array (items : List Value)
  | object (fields : List (String × Value))
  deriving Repr

def lookupField (fields : List (String × Value)) (key : String) : Option Value :=
  (fields.find? (fun entry => entry.1 == key)).map Prod.snd

namespace Value

def isNull : Value → Bool
  | .null => true
  | _ => false

def asStr : Value → Option String
  | .string s => some s
  | _ => none

def asBool : Value → Option Bool
  | .bool b => some b
  | _ => none

def asObject : Value → Option (List (String × Value))
  | .object fields => some fields
  | _ => none

/-- No value is the one-element array that holds it. -/
theorem array_singleton_ne (v : Value) : Value.array [v] ≠ v := by
  intro h
  have size := congrArg sizeOf h
  simp only [Value.array.sizeOf_spec, List.cons.sizeOf_spec, List.nil.sizeOf_spec] at size
  omega

end Value

/-- The fields a derived `Deserialize` of a struct reads: by name from an object,
by position from an array that is not longer than the struct. -/
def structFields (names : List String) : Value → Option (String → Option Value)
  | .object fields => some (lookupField fields)
  | .array items =>
    if items.length ≤ names.length then
      some (fun key => (names.idxOf? key).bind (fun i => items[i]?))
    else none
  | _ => none

end OjsSdk
