/-!
# Natural numbers

Sums over lists, and the powers of two and ten that number texts are made of.
-/

namespace BuildingModel.Number

/-- The sum of `f` over a list. -/
def sumOf {β : Type} (f : β → Nat) (xs : List β) : Nat := xs.foldr (fun x sum => f x + sum) 0

@[simp]
theorem sumOf_nil {β : Type} (f : β → Nat) : sumOf f [] = 0 := rfl

@[simp]
theorem sumOf_cons {β : Type} (f : β → Nat) (x : β) (xs : List β) :
    sumOf f (x :: xs) = f x + sumOf f xs := rfl

/-- The sum over two lists is the sum of the sums. -/
@[simp]
theorem sumOf_append {β : Type} (f : β → Nat) (xs ys : List β) :
    sumOf f (xs ++ ys) = sumOf f xs + sumOf f ys := by
  induction xs with
  | nil => simp
  | cons x xs ih =>
    simp only [List.cons_append, sumOf_cons, ih]
    omega

/-- The powers of two. -/
def twoTo (k : Nat) : Nat := Nat.pow 2 k

/-- The powers of ten. -/
def tenTo (k : Nat) : Nat := Nat.pow 10 k

end BuildingModel.Number
