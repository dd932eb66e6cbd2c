import EventsCounter.Data
import EventsCounter.Lib.Outcome

/-!
# RapidJSON values

A parsed document, with the accessors the program applies to it. Every accessor has a precondition
that RapidJSON asserts; the assertions are compiled out, so that a call outside of it is undefined.
-/

namespace EventsCounter

/-- A number as the parser keeps it: an integer literal of at most 64 bits is an integer, every other
number a double. -/
inductive Number
  | integer (z : ℤ)
  | double (bits : UInt64)
deriving DecidableEq, Repr

inductive Json
  | null
  | bool (b : Bool)
  | number (n : Number)
  | string (s : Bytes)
  | array (elems : List Json)
  | object (members : List (Bytes × Json))

/-- RapidJSON's parser; `none` is a parse error. -/
abbrev Parser := Bytes → Option Json

/-- `rapidjson::Type` -/
inductive JsonType
  | kNullType
  | kFalseType
  | kTrueType
  | kObjectType
  | kArrayType
  | kStringType
  | kNumberType
deriving DecidableEq, Repr

namespace Json

def getType : Json → JsonType
  | .null => .kNullType
  | .bool false => .kFalseType
  | .bool true => .kTrueType
  | .number _ => .kNumberType
  | .string _ => .kStringType
  | .array _ => .kArrayType
  | .object _ => .kObjectType

/-! ### What is in a value, if it is of the right kind -/

def child? (v : Json) (name : Bytes) : Option Json :=
  match v with
  | .object members => (members.find? fun m => m.1 = name).map Prod.snd
  | _ => none

def child (v : Json) (name : Bytes) : Json := (v.child? name).getD .null

def hasMember (v : Json) (name : Bytes) : Bool := (v.child? name).isSome

def members : Json → List (Bytes × Json)
  | .object members => members
  | _ => []

def elems : Json → List Json
  | .array elems => elems
  | _ => []

def stringValue : Json → Bytes
  | .string s => s
  | _ => []

def intValue : Json → ℤ
  | .number (.integer z) => z
  | _ => 0

def isString (v : Json) : Bool := v.getType = .kStringType

def isInt64 : Json → Bool
  | .number (.integer z) => -2 ^ 63 ≤ z ∧ z < 2 ^ 63
  | _ => false

def isNumber (v : Json) : Bool := v.getType = .kNumberType

def isUint64 : Json → Bool
  | .number (.integer z) => 0 ≤ z ∧ z < 2 ^ 64
  | _ => false

/-! ### Accessors -/

section
variable {ε : Type}

def findMember (v : Json) (name : Bytes) : Outcome ε (Option Json) :=
  if v.getType = .kObjectType then .ok (v.child? name) else .undefined

def getObject (v : Json) : Outcome ε Json :=
  if v.getType = .kObjectType then .ok v else .undefined

def getArray (v : Json) : Outcome ε (List Json) :=
  if v.getType = .kArrayType then .ok v.elems else .undefined

/-- `GetString`, read as the C string every caller makes of the pointer. -/
def getString (v : Json) : Outcome ε Bytes :=
  if v.isString then .ok (cStr v.stringValue) else .undefined

def getInt64 (v : Json) : Outcome ε Int64 :=
  if v.isInt64 then .ok (Int64.ofInt v.intValue) else .undefined

def getUint64 (v : Json) : Outcome ε UInt64 :=
  if v.isUint64 then .ok (UInt64.ofNat v.intValue.toNat) else .undefined

end

variable {v : Json} {name : Bytes}

theorem eq_array (h : v.getType = .kArrayType) : v = .array v.elems := by
  match v, h with
  | .array _, _ => rfl

theorem eq_string (h : v.getType = .kStringType) : v = .string v.stringValue := by
  match v, h with
  | .string _, _ => rfl

theorem eq_integer (h : v.isInt64 = true) :
    v = .number (.integer v.intValue) ∧ -2 ^ 63 ≤ v.intValue ∧ v.intValue < 2 ^ 63 := by
  match v, h with
  | .number (.integer z), h => exact ⟨rfl, by simpa [isInt64, intValue] using h⟩

theorem isString_iff : v.isString = true ↔ ∃ s, v = .string s := by
  cases v with
  | bool b => cases b <;> simp [isString, getType]
  | _ => simp [isString, getType]

theorem isNumber_iff : v.isNumber = true ↔ ∃ n, v = .number n := by
  cases v with
  | bool b => cases b <;> simp [isNumber, getType]
  | _ => simp [isNumber, getType]

theorem isUint64_iff : v.isUint64 = true ↔ ∃ n : UInt64, v = .number (.integer n.toNat) := by
  constructor
  · intro h
    match v, h with
    | .number (.integer z), h =>
      have hz : 0 ≤ z ∧ z < 2 ^ 64 := by simpa [isUint64] using h
      refine ⟨UInt64.ofNat z.toNat, ?_⟩
      rw [UInt64.toNat_ofNat_of_lt' (by simp only [UInt64.size]; omega), Int.toNat_of_nonneg hz.1]
  · rintro ⟨n, rfl⟩
    have hn := n.toNat_lt
    simp [isUint64]
    omega

theorem hasString_iff :
    (!v.hasMember name || !(v.child name).isString) = false ↔ ∃ s, v.child? name = some (.string s) := by
  unfold hasMember child
  cases v.child? name with
  | none => simp
  | some w => simp [isString_iff]

theorem hasNumber_iff :
    (!v.hasMember name || !(v.child name).isNumber) = false ↔ ∃ n, v.child? name = some (.number n) := by
  unfold hasMember child
  cases v.child? name with
  | none => simp
  | some w => simp [isNumber_iff]

theorem child_eq_of_some {w : Json} (h : v.child? name = some w) : v.child name = w := by
  rw [child, h]
  rfl

theorem child?_eq_some {t : JsonType} (h : (v.child name).getType = t) (ht : t ≠ .kNullType) :
    v.child? name = some (v.child name) := by
  unfold child at h ⊢
  cases hc : v.child? name with
  | none =>
    rw [hc] at h
    exact absurd h.symm ht
  | some w => rfl

theorem isObject_of_child? {w : Json} (h : v.child? name = some w) : v.getType = .kObjectType := by
  match v, h with
  | .object _, _ => rfl

end Json
end EventsCounter
