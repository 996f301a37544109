/-!
Lists in order, each element once.
-/

namespace FileOrganizer

/-- Puts an element into its place in an ordered list, where it stands once. -/
def insertBy {α : Type} [DecidableEq α] (before : α → α → Bool) (a : α) : List α → List α
  | [] => [a]
  | b :: bs => if a = b then b :: bs else if before a b then a :: b :: bs else b :: insertBy before a bs

theorem mem_insertBy {α : Type} [DecidableEq α] {before : α → α → Bool} {a b : α} {bs : List α} :
    b ∈ insertBy before a bs ↔ b = a ∨ b ∈ bs := by
  induction bs with
  | nil => simp [insertBy]
  | cons c cs ih =>
    rw [insertBy]
    split
    · next h => subst h; simp
    · split <;> simp [ih, or_left_comm]

def insertText (s : String) (l : List String) : List String := insertBy (fun a b => a < b) s l

end FileOrganizer
