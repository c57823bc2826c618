import Mathlib.Tactic.Common

/-!
# Documents of nested objects

A document is built from integers, texts, arrays and objects.  An object
binds each key to at most one value, and setting a key again replaces its
value.  A typed reader looks a key up and fails on a value of another type.
-/

namespace Spaceless
namespace Logic

inductive Json
  | int (value : Int)
  | text (value : List Char)
  | array (items : List Json)
  | object (members : List (String × Json))

/-- The members of an object, the one that was set last first. -/
abbrev JsonObject := List (String × Json)

namespace JsonObject

/-- Bind a key to a value, in place of what it was bound to. -/
def set (object : JsonObject) (key : String) (value : Json) : JsonObject :=
  (key, value) :: object.filter fun member => member.1 ≠ key

def get (object : JsonObject) (key : String) : Option Json :=
  object.lookup key

@[simp] theorem get_set_self (object : JsonObject) (key : String)
    (value : Json) : (object.set key value).get key = some value := by
  rw [get, set, List.lookup_cons_self]

theorem lookup_filter_of_ne (object : JsonObject) {key other : String}
    (different : key ≠ other) :
    (object.filter fun member => member.1 ≠ key).lookup other =
      object.lookup other := by
  induction object with
  | nil => rfl
  | cons member object inductionHypothesis =>
      obtain ⟨name, value⟩ := member
      by_cases replaced : name = key
      · rw [List.filter_cons_of_neg (by simpa using replaced),
          inductionHypothesis, List.lookup_cons,
          beq_false_of_ne (replaced ▸ different.symm)]
      · rw [List.filter_cons_of_pos (by simpa using replaced),
          List.lookup_cons, List.lookup_cons, inductionHypothesis]

@[simp] theorem get_set_of_ne (object : JsonObject) {key other : String}
    (value : Json) (different : key ≠ other) :
    (object.set key value).get other = object.get other := by
  rw [get, set, List.lookup_cons, beq_false_of_ne different.symm]
  exact lookup_filter_of_ne object different

/-! ## Typed readers -/

def getInt (object : JsonObject) (key : String) : Option Int :=
  match object.get key with
  | some (.int value) => some value
  | _ => none

def getText (object : JsonObject) (key : String) : Option (List Char) :=
  match object.get key with
  | some (.text value) => some value
  | _ => none

def getArray (object : JsonObject) (key : String) : Option (List Json) :=
  match object.get key with
  | some (.array items) => some items
  | _ => none

def getObject (object : JsonObject) (key : String) : Option JsonObject :=
  match object.get key with
  | some (.object members) => some members
  | _ => none

section Readers

variable (object : JsonObject) {key other : String} (value : Json)

@[simp] theorem getInt_set_self (number : Int) :
    (object.set key (.int number)).getInt key = some number := by
  rw [getInt, get_set_self]

@[simp] theorem getText_set_self (text : List Char) :
    (object.set key (.text text)).getText key = some text := by
  rw [getText, get_set_self]

@[simp] theorem getArray_set_self (items : List Json) :
    (object.set key (.array items)).getArray key = some items := by
  rw [getArray, get_set_self]

@[simp] theorem getObject_set_self (members : JsonObject) :
    (object.set key (.object members)).getObject key = some members := by
  rw [getObject, get_set_self]

@[simp] theorem getInt_set_of_ne (different : key ≠ other) :
    (object.set key value).getInt other = object.getInt other := by
  rw [getInt, get_set_of_ne object value different, getInt]

@[simp] theorem getText_set_of_ne (different : key ≠ other) :
    (object.set key value).getText other = object.getText other := by
  rw [getText, get_set_of_ne object value different, getText]

@[simp] theorem getArray_set_of_ne (different : key ≠ other) :
    (object.set key value).getArray other = object.getArray other := by
  rw [getArray, get_set_of_ne object value different, getArray]

@[simp] theorem getObject_set_of_ne (different : key ≠ other) :
    (object.set key value).getObject other = object.getObject other := by
  rw [getObject, get_set_of_ne object value different, getObject]

end Readers

end JsonObject

namespace Json

def toInt : Json → Option Int
  | .int value => some value
  | _ => none

def toObject : Json → Option JsonObject
  | .object members => some members
  | _ => none

@[simp] theorem toInt_int (value : Int) : (int value).toInt = some value :=
  rfl

@[simp] theorem toObject_object (members : JsonObject) :
    (object members).toObject = some members := rfl

/-- Reading the items one by one undoes writing them one by one. -/
theorem mapM_map_eq_pure {monad : Type → Type} [Monad monad]
    [LawfulMonad monad] {α β : Type} (write : α → Json)
    (read : Json → monad β) (result : α → β)
    (readsBack : ∀ value, read (write value) = pure (result value))
    (values : List α) :
    (values.map write).mapM read = pure (values.map result) := by
  induction values with
  | nil => simp
  | cons value values inductionHypothesis =>
      simp only [List.map_cons, List.mapM_cons, readsBack,
        inductionHypothesis, pure_bind]

end Json

end Logic
end Spaceless
