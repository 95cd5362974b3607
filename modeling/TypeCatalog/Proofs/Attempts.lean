/-! Attempts: computations that succeed or fail. One that succeeds has made all of its steps. -/

namespace TypeCatalog.Proofs

section
variable {ε α β σ : Type} {make : α → Except ε β} {step : σ → β → Except ε σ} {list : List α}

theorem ok_bind (value : α) (next : α → Except ε β) : (.ok value >>= next) = next value := rfl

theorem of_bind_ok {result : Except ε α} {next : α → Except ε β} {value : β}
    (made : (result >>= next) = .ok value) : ∃ middle, result = .ok middle ∧ next middle = .ok value := by
  cases result with
  | error failure => cases made
  | ok middle => exact ⟨middle, rfl, made⟩

theorem mapM_ok (each : ∀ member ∈ list, ∃ value, make member = .ok value) :
    ∃ values, list.mapM make = .ok values := by
  induction list with
  | nil => exact ⟨[], rfl⟩
  | cons member rest ih =>
    obtain ⟨first, others⟩ := List.forall_mem_cons.mp each
    obtain ⟨value, made⟩ := first
    obtain ⟨values, more⟩ := ih others
    refine ⟨value :: values, ?_⟩
    rw [List.mapM_cons, made, more]
    rfl

theorem mapM_mem {values : List β} (made : list.mapM make = .ok values) :
    ∀ value ∈ values, ∃ member ∈ list, make member = .ok value := by
  induction list generalizing values with
  | nil =>
    cases made
    exact List.forall_mem_nil _
  | cons member rest ih =>
    rw [List.mapM_cons] at made
    obtain ⟨value, first, made⟩ := of_bind_ok made
    obtain ⟨more, others, made⟩ := of_bind_ok made
    cases made
    refine List.forall_mem_cons.mpr ⟨⟨member, List.mem_cons_self, first⟩, ?_⟩
    intro value listed
    obtain ⟨other, inside, own⟩ := ih others value listed
    exact ⟨other, List.mem_cons_of_mem _ inside, own⟩

/-- Steps that each make out what to take are steps that take what all of them make out, if they do. -/
theorem foldlM_found {found : List β} (all : list.mapM make = .ok found) (state : σ) :
    list.foldlM (fun state item => make item >>= step state) state = found.foldlM step state := by
  induction list generalizing state found with
  | nil =>
    cases all
    rfl
  | cons item rest ih =>
    rw [List.mapM_cons] at all
    obtain ⟨first, known, others⟩ := of_bind_ok all
    obtain ⟨later, following, same⟩ := of_bind_ok others
    cases same
    rw [List.foldlM_cons, List.foldlM_cons, known]
    exact congrArg (step state first >>= ·) (funext fun state => ih following state)

theorem foldlM_makes {state result : σ}
    (taken : list.foldlM (fun state item => make item >>= step state) state = .ok result) :
    ∃ found, list.mapM make = .ok found := by
  induction list generalizing state with
  | nil => exact ⟨[], rfl⟩
  | cons item rest ih =>
    rw [List.foldlM_cons] at taken
    obtain ⟨next, own, others⟩ := of_bind_ok taken
    obtain ⟨first, known, -⟩ := of_bind_ok own
    obtain ⟨later, following⟩ := ih others
    refine ⟨first :: later, ?_⟩
    rw [List.mapM_cons, known, following]
    rfl

end

end TypeCatalog.Proofs
