/-! Sorting by a comparison that need not be an order, as numbers with a NaN among them have none. The run at the start
is kept, turned round if it falls, and every later member is put in by bisection. Where the comparison is an order, the
result is sorted and members that are level stay in their order. -/

namespace TypeCatalog.Normal.Sorting

variable {α : Type}

/-- The members that go on with a run after its last member, and those after the run. -/
def splitRun (goesOn : α → α → Bool) (last : α) : List α → List α × List α
  | [] => ([], [])
  | next :: rest =>
    if goesOn last next then
      let (run, others) := splitRun goesOn next rest
      (next :: run, others)
    else ([], next :: rest)

/-- Puts a member in by bisection: behind the middle one unless it is below it. -/
def insert (isLess : α → α → Bool) (member : α) (sorted : List α) : List α :=
  match h : sorted.drop (sorted.length / 2) with
  | [] => [member]
  | middle :: above =>
    have : (sorted.drop (sorted.length / 2)).length = above.length + 1 := by rw [h]; rfl
    have : sorted.length - sorted.length / 2 = above.length + 1 := by rw [← List.length_drop]; assumption
    let below := sorted.take (sorted.length / 2)
    have : below.length ≤ sorted.length / 2 := List.length_take_le ..
    if isLess member middle then insert isLess member below ++ middle :: above
    else below ++ middle :: insert isLess member above
termination_by sorted.length

def sort (isLess : α → α → Bool) : List α → List α
  | first :: second :: rest =>
    let falls := isLess second first
    let (run, others) := splitRun (fun last next => isLess next last == falls) second rest
    let run := first :: second :: run
    others.foldl (fun sorted member => insert isLess member sorted) (if falls then run.reverse else run)
  | short => short

end TypeCatalog.Normal.Sorting
