import MarkerIndex.ItemPath
/-!
Item paths as lists: going on by names, and the way back to the parent.
-/

namespace MarkerIndex

namespace ItemPath

@[simp] theorem extend_nil (p : ItemPath) : p.extend [] = p := by
  simp [extend]

@[simp] theorem extend_cons (p : ItemPath) (name : String) (names : List String) :
    p.extend (name :: names) = (p.join name).extend names := by
  simp [extend, join]

theorem extend_concat (p : ItemPath) (names : List String) (name : String) :
    p.extend (names ++ [name]) = (p.extend names).join name := by
  simp [extend, join]

@[simp] theorem segments_join_ne_nil (p : ItemPath) (name : String) :
    (p.join name).segments ≠ [] := by
  simp [join]

theorem segments_extend_ne_nil {p : ItemPath} (hp : p.segments ≠ []) (names : List String) :
    (p.extend names).segments ≠ [] := by
  simp [extend, hp]

theorem join_inj {p q : ItemPath} {a b : String} (h : p.join a = q.join b) : p = q ∧ a = b := by
  simp only [join, ItemPath.mk.injEq] at h
  obtain ⟨hpath, hname⟩ := List.append_inj' h rfl
  cases p
  cases q
  simp_all

theorem segments_eq_nil_of_join_eq_crateRoot {p : ItemPath} {name : String}
    (h : p.join name = crateRoot) : p.segments = [] := by
  have hlength := congrArg (·.segments.length) h
  simpa [join, crateRoot] using hlength

theorem simpleName_join (p : ItemPath) (name : String) : (p.join name).simpleName = name := by
  simp [simpleName, join]

theorem parent?_join {p : ItemPath} (hp : p.segments ≠ []) (name : String) :
    (p.join name).parent? = some p := by
  have hlen : ¬ p.segments.length + 1 ≤ 1 := by
    have := List.length_pos_iff.mpr hp
    omega
  simp [parent?, join, hlen]

/-- Going up from any path, at the root to the root itself, leaves at least one name. -/
theorem segments_parent?_getD_ne_nil (p : ItemPath) :
    (p.parent?.getD crateRoot).segments ≠ [] := by
  unfold parent?
  split
  · simp [crateRoot]
  · next hlength =>
      apply List.ne_nil_of_length_pos
      simp only [Option.getD_some, List.length_dropLast]
      omega

end ItemPath

end MarkerIndex
