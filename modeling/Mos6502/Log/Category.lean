/-!
# Categories of messages

What part of the machine a message is about, and values that are kept for each category.
-/

namespace Mos6502.Log

/-- What a message is about. -/
inductive Category where
  /-- Executed instructions, and where runs start and end. -/
  | cpu
  /-- Bytes pushed and pulled. -/
  | stack
  /-- Behaviour that stands in for something not modelled. -/
  | stubs
deriving DecidableEq, Repr

namespace Category

/-- The name of a category. -/
def name : Category → String
  | cpu => "CPU"
  | stack => "Stack"
  | stubs => "Stubs"

/-- Every category. -/
def all : List Category :=
  [cpu, stack, stubs]

end Category

/-- One value for each category. -/
structure PerCategory (α : Type) where
  cpu : α
  stack : α
  stubs : α
deriving DecidableEq, Repr

namespace PerCategory

/-- The same value for each category. -/
def same (value : α) : PerCategory α :=
  ⟨value, value, value⟩

/-- The value of a category. -/
def get (values : PerCategory α) : Category → α
  | .cpu => values.cpu
  | .stack => values.stack
  | .stubs => values.stubs

/-- The value of one category is replaced. -/
def set (values : PerCategory α) (category : Category) (value : α) : PerCategory α :=
  match category with
  | .cpu => { values with cpu := value }
  | .stack => { values with stack := value }
  | .stubs => { values with stubs := value }

@[simp]
theorem get_same (value : α) (category : Category) : (same value).get category = value := by
  cases category <;> rfl

@[simp]
theorem get_set_self (values : PerCategory α) (category : Category) (value : α) :
    (values.set category value).get category = value := by
  cases category <;> rfl

theorem get_set_of_ne (values : PerCategory α) {category other : Category} (value : α)
    (hne : category ≠ other) : (values.set category value).get other = values.get other := by
  cases category <;> cases other <;> first | rfl | exact absurd rfl hne

end PerCategory

end Mos6502.Log
