import SectionLexer.Number.Double
import SectionLexer.Text.Lowercase

/-! Values of settings, and how one is laid over another. -/
namespace SectionLexer.Settings

/-- The types that an integer may be given in. -/
inductive IntType where
  | i64
  | u64
  | i128
  | u128
deriving DecidableEq, Repr

namespace IntType

def signed : IntType → Bool
  | i64 | i128 => true
  | u64 | u128 => false

def bits : IntType → Nat
  | i64 | u64 => 64
  | i128 | u128 => 128

/-- The least number of a type. -/
def low (t : IntType) : Int := if t.signed then -Nat.pow 2 (t.bits - 1) else 0

/-- One past the greatest number of a type. -/
def limit (t : IntType) : Int := Nat.pow 2 (if t.signed then t.bits - 1 else t.bits)

/-- The number is one of the type. -/
def Holds (t : IntType) (n : Int) : Prop := t.low ≤ n ∧ n < t.limit

instance (t : IntType) (n : Int) : Decidable (t.Holds n) := inferInstanceAs (Decidable (_ ∧ _))

end IntType

/-- A number of an integer type. -/
structure Integer where
  type : IntType
  n : Int
  holds : type.Holds n
deriving DecidableEq, Repr

theorem IntType.holds_emod (n : Int) : u64.Holds (n % u64.limit) :=
  ⟨Int.emod_nonneg n (by decide), Int.emod_lt_of_pos n (by decide)⟩

/-- A number in 64 bits, signed where it fits so. One that fits neither way wraps. -/
def Integer.ofInt (n : Int) : Integer :=
  if h : IntType.i64.Holds n then ⟨.i64, n, h⟩
  else ⟨.u64, n % IntType.u64.limit, IntType.holds_emod n⟩

inductive Scalar where
  | nil
  | bool (b : Bool)
  | integer (i : Integer)
  | float (x : Double)
  | text (s : String)
deriving DecidableEq, Repr

def Scalar.int (n : Int) : Scalar := .integer (.ofInt n)

/-- A value, with the name of the file it was read from if there is one. A table holds one value for
each key. -/
inductive Value where
  | leaf (origin : Option String) (scalar : Scalar)
  | array (origin : Option String) (items : List Value)
  | table (origin : Option String) (fields : List (String × Value))
deriving Repr

namespace Value

mutual

def decEq : (v w : Value) → Decidable (v = w)
  | leaf o s, leaf p t => decidable_of_iff (o = p ∧ s = t) (by simp)
  | array o vs, array p ws =>
    have := decEqItems vs ws
    decidable_of_iff (o = p ∧ vs = ws) (by simp)
  | table o fs, table p gs =>
    have := decEqFields fs gs
    decidable_of_iff (o = p ∧ fs = gs) (by simp)
  | leaf .., array .. | leaf .., table .. | array .., leaf .. | array .., table ..
  | table .., leaf .. | table .., array .. => isFalse nofun

def decEqItems : (vs ws : List Value) → Decidable (vs = ws)
  | [], [] => isTrue rfl
  | v :: vs, w :: ws =>
    have := decEq v w
    have := decEqItems vs ws
    decidable_of_iff (v = w ∧ vs = ws) (by simp)
  | [], _ :: _ | _ :: _, [] => isFalse nofun

def decEqFields : (fs gs : List (String × Value)) → Decidable (fs = gs)
  | [], [] => isTrue rfl
  | (j, v) :: fs, (k, w) :: gs =>
    have := decEq v w
    have := decEqFields fs gs
    decidable_of_iff ((j = k ∧ v = w) ∧ fs = gs) (by simp)
  | [], _ :: _ | _ :: _, [] => isFalse nofun

end

instance : DecidableEq Value := decEq

end Value

section Put

variable {κ α : Type} [BEq κ] [LawfulBEq κ]

/-- Sets a key in a list that has one entry for each key. -/
def put (key : κ) (a : α) : List (κ × α) → List (κ × α)
  | [] => [(key, a)]
  | (k, b) :: fields => if key == k then (k, a) :: fields else (k, b) :: put key a fields

theorem lookup_put_self (key : κ) (a : α) (fields : List (κ × α)) :
    (put key a fields).lookup key = some a := by
  induction fields with
  | nil => simp [put]
  | cons f fields ih =>
    obtain ⟨k, b⟩ := f
    cases h : key == k <;> simp [put, List.lookup_cons, h, ih]

theorem lookup_put_of_ne {key other : κ} (h : other ≠ key) (a : α) (fields : List (κ × α)) :
    (put key a fields).lookup other = fields.lookup other := by
  have hb : (other == key) = false := by simpa using h
  induction fields with
  | nil => simp [put, List.lookup_cons, hb]
  | cons f fields ih =>
    obtain ⟨k, b⟩ := f
    cases hk : key == k
    · simp [put, List.lookup_cons, hk, ih]
    · have : (other == k) = false := by simpa [← eq_of_beq hk] using h
      simp [put, List.lookup_cons, hk, this]

end Put

namespace Value

def nil : Value := leaf none .nil

instance : Inhabited Value := ⟨nil⟩

def empty : Value := table none []

def origin : Value → Option String
  | leaf o _ | array o _ | table o _ => o

/-- The value under a key. -/
def get? (w : Value) (key : String) : Option Value :=
  match w with
  | table _ fields => fields.lookup key
  | _ => none

/-- Sets a key. A value that is no table gives way to a new table. -/
def set (w : Value) (key : String) (v : Value) : Value :=
  match w with
  | table o fields => table o (put key v fields)
  | _ => table none [(key, v)]

theorem get?_set_self (w : Value) (key : String) (v : Value) :
    (w.set key v).get? key = some v := by
  cases w <;> simp [set, get?, lookup_put_self]

theorem get?_set_of_ne (w : Value) {key other : String} (h : other ≠ key) (v : Value) :
    (w.set key v).get? other = w.get? other := by
  have hb : (other == key) = false := by simpa using h
  cases w <;> simp [set, get?, lookup_put_of_ne h, List.lookup_cons, hb]

mutual

/-- Lays a value over what stands in its place. A table is merged key by key in lowercase; anything
else takes the place. -/
def merge (below : Option Value) : Value → Value
  | table _ fields => mergeEach (below.getD empty) fields
  | v => v

/-- Lays fields over those of a value. -/
def mergeEach (below : Value) : List (String × Value) → Value
  | [] => below
  | (k, v) :: fields =>
    let key := Text.lowercase k
    mergeEach (below.set key (merge (below.get? key) v)) fields

end

end Value

end SectionLexer.Settings
