import Mathlib.Data.List.Forall2
/-!
Steps that may fail, done one after another. A sequence of steps gets through when each of them
does, and it fails as the first does that fails.
-/

namespace MarkerIndex.Traversal

section

variable {α β ε : Type} {x : Except ε α} {b : β} {error : ε}

/-- What comes second is done with what the first gives. -/
theorem bind_eq_ok_iff {g : α → Except ε β} :
    (x >>= g) = .ok b ↔ ∃ a, x = .ok a ∧ g a = .ok b := by
  cases x <;> simp [bind, Except.bind]

theorem map_eq_ok_iff {g : α → β} : x.map g = .ok b ↔ ∃ a, x = .ok a ∧ g a = b := by
  cases x <;> simp [Except.map]

theorem map_eq_error_iff {g : α → β} : x.map g = .error error ↔ x = .error error := by
  cases x <;> simp [Except.map]

/-- A walk over a list goes on from where its first step leads. -/
theorem foldlM_cons_eq_ok_iff {step : β → α → Except ε β} {first : α} {rest : List α}
    {start last : β} :
    (first :: rest).foldlM step start = .ok last ↔
      ∃ next, step start first = .ok next ∧ rest.foldlM step next = .ok last := by
  rw [List.foldlM_cons, bind_eq_ok_iff]

end

section

variable {α β ε : Type} {f : α → Except ε β} {first : α} {rest xs : List α}
  {ys : List β} {error : ε}

theorem mapM_cons_eq_ok_iff : (first :: rest).mapM f = .ok ys ↔
    ∃ y later, f first = .ok y ∧ rest.mapM f = .ok later ∧ ys = y :: later := by
  rw [List.mapM_cons]
  cases f first <;> cases rest.mapM f <;> simp [bind, Except.bind, pure, Except.pure, eq_comm]

theorem mapM_cons_eq_error_iff : (first :: rest).mapM f = .error error ↔
    f first = .error error ∨ (∃ y, f first = .ok y) ∧ rest.mapM f = .error error := by
  rw [List.mapM_cons]
  cases f first <;> cases rest.mapM f <;> simp [bind, Except.bind, pure, Except.pure]

/-- A traversal gets through just when it gives one result for each element, in their order. -/
theorem mapM_eq_ok_iff :
    xs.mapM f = .ok ys ↔ List.Forall₂ (fun x y => f x = .ok y) xs ys := by
  induction xs generalizing ys with
  | nil =>
      rw [List.mapM_nil, List.forall₂_nil_left_iff]
      exact ⟨fun h => (Except.ok.inj h).symm, fun h => by rw [h]; rfl⟩
  | cons first rest ih => simp only [mapM_cons_eq_ok_iff, List.forall₂_cons_left_iff, ih]

/-- A traversal that gets through has a result for every element. -/
theorem forall_of_mapM_ok (h : xs.mapM f = .ok ys) : ∀ x ∈ xs, ∃ y ∈ ys, f x = .ok y := by
  rw [mapM_eq_ok_iff] at h
  induction h with
  | nil => simp
  | @cons _ y _ later hfirst _ ih =>
      refine List.forall_mem_cons.mpr ⟨⟨y, by simp, hfirst⟩, fun x hx => ?_⟩
      obtain ⟨z, hz, hfound⟩ := ih x hx
      exact ⟨z, List.mem_cons_of_mem _ hz, hfound⟩

/-- What a traversal gives are results of elements. -/
theorem exists_of_mapM_ok (h : xs.mapM f = .ok ys) : ∀ y ∈ ys, ∃ x ∈ xs, f x = .ok y := by
  rw [mapM_eq_ok_iff] at h
  induction h with
  | nil => simp
  | @cons x _ rest _ hfirst _ ih =>
      refine List.forall_mem_cons.mpr ⟨⟨x, by simp, hfirst⟩, fun y hy => ?_⟩
      obtain ⟨z, hz, hfound⟩ := ih y hy
      exact ⟨z, List.mem_cons_of_mem _ hz, hfound⟩

/-- A traversal fails as the first element does that fails. -/
theorem mapM_eq_error_iff : xs.mapM f = .error error ↔ ∃ before x after, xs = before ++ x :: after ∧
    (∀ b ∈ before, ∃ y, f b = .ok y) ∧ f x = .error error := by
  induction xs with
  | nil =>
      rw [List.mapM_nil]
      simp [pure, Except.pure]
  | cons first rest ih =>
      rw [mapM_cons_eq_error_iff, ih]
      constructor
      · rintro (hfirst | ⟨hfirst, before, x, after, rfl, hbefore, hx⟩)
        · exact ⟨[], first, rest, rfl, by simp, hfirst⟩
        · exact ⟨first :: before, x, after, rfl, List.forall_mem_cons.mpr ⟨hfirst, hbefore⟩, hx⟩
      · rintro ⟨_ | ⟨b, before⟩, x, after, hsplit, hbefore, hx⟩
        · obtain ⟨rfl, rfl⟩ := List.cons.inj hsplit
          exact .inl hx
        · obtain ⟨rfl, rfl⟩ := List.cons.inj hsplit
          obtain ⟨hfirst, hbefore⟩ := List.forall_mem_cons.mp hbefore
          exact .inr ⟨hfirst, before, x, after, rfl, hbefore, hx⟩

end

section

variable {α ε : Type} {f : α → Except ε Unit} {xs : List α} {error : ε}

theorem forM_eq_mapM (xs : List α) : xs.forM f = (xs.mapM f).map fun _ => () := by
  induction xs with
  | nil => rfl
  | cons x xs ih =>
      change (f x >>= fun _ => xs.forM f) = _
      rw [List.mapM_cons, ih]
      cases f x with
      | error error => rfl
      | ok u => cases xs.mapM f <;> rfl

/-- Checks are passed one after another when each of them is. -/
theorem forM_eq_ok_iff : xs.forM f = .ok () ↔ ∀ x ∈ xs, f x = .ok () := by
  induction xs with
  | nil => simp [pure, Except.pure]
  | cons x xs ih =>
      change (f x >>= fun _ => xs.forM f) = .ok () ↔ _
      rw [List.forall_mem_cons, ← ih]
      cases f x <;> simp [bind, Except.bind]

/-- Checks one after another fail as the first does that fails. -/
theorem forM_eq_error_iff : xs.forM f = .error error ↔ ∃ before x after, xs = before ++ x :: after ∧
    (∀ b ∈ before, f b = .ok ()) ∧ f x = .error error := by
  have hunit (x : α) : (∃ u, f x = .ok u) ↔ f x = .ok () := ⟨fun ⟨(), h⟩ => h, fun h => ⟨(), h⟩⟩
  rw [forM_eq_mapM, map_eq_error_iff, mapM_eq_error_iff]
  simp only [hunit]

end

end MarkerIndex.Traversal
