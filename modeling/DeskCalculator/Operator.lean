/-!
The four binary operators and the characters they are written as.
-/
namespace DeskCalculator

inductive Operator where
  | add
  | subtract
  | multiply
  | divide
  deriving DecidableEq, Repr

namespace Operator

def all : List Operator := [add, subtract, multiply, divide]

def symbol : Operator → Char
  | add => '+'
  | subtract => '-'
  | multiply => '*'
  | divide => '/'

def ofChar? (c : Char) : Option Operator := all.find? (·.symbol == c)

@[simp] theorem ofChar?_symbol (op : Operator) : ofChar? op.symbol = some op := by
  cases op <;> rfl

theorem symbol_of_ofChar? {c : Char} {op : Operator} (found : ofChar? c = some op) :
    op.symbol = c := by
  simpa using List.find?_some found

end Operator

def isOperator (c : Char) : Bool := (Operator.ofChar? c).isSome

@[simp] theorem isOperator_symbol (op : Operator) : isOperator op.symbol = true := by
  simp [isOperator]

theorem isOperator_iff (c : Char) :
    isOperator c = true ↔ c = '+' ∨ c = '-' ∨ c = '*' ∨ c = '/' := by
  simp only [isOperator, Operator.ofChar?, Operator.all, List.find?_isSome, List.mem_cons,
    List.not_mem_nil, or_false, beq_iff_eq]
  constructor
  · rintro ⟨op, _, rfl⟩
    cases op <;> simp [Operator.symbol]
  · rintro (rfl | rfl | rfl | rfl)
    · exact ⟨.add, by simp, rfl⟩
    · exact ⟨.subtract, by simp, rfl⟩
    · exact ⟨.multiply, by simp, rfl⟩
    · exact ⟨.divide, by simp, rfl⟩

end DeskCalculator
