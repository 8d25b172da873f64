import MarkerIndex.Proofs.NormalPlace
/-!
The normal form of a path as the key of what the path names. It begins with the root if the path
does, then goes up, and then down by names. It is its own normal form, and so is whatever is joined
to it in place of the path. Followed by its spelling alone it leads where the path leads, and two
paths share it just when they lead to the same places, unless both begin at the root, where steps up
lead nowhere else.
-/

namespace MarkerIndex

namespace FilePath

open Component

variable {p q : FilePath}

/-- Where a path leads from a directory by its spelling alone. Nothing goes up from the root. -/
def walk (start : Place) (p : FilePath) : Place :=
  p.components.foldl Component.go start

/-- The components are a root, if the path has one, then steps up, and then names. -/
def GoesUpFirst (absolute : Bool) (cs : List Component) : Prop :=
  ∃ (up : Nat) (names : List String), cs =
    (if absolute then [.root] else []) ++ List.replicate up .parent ++ names.map .normal

theorem isAbsolute_normalize (p : FilePath) : p.normalize.isAbsolute = p.isAbsolute := by
  rw [Bool.eq_iff_iff, ← root_mem_components_iff, ← root_mem_components_iff, components_normalize,
    root_mem_normalComponents_iff]

theorem goesUpFirst_normalize (p : FilePath) : GoesUpFirst p.isAbsolute p.normalize.components := by
  obtain ⟨lead, names, ⟨up, hlead⟩, -, hcomponents⟩ := normalComponents_eq p
  refine ⟨up, names, ?_⟩
  have habsolute : p.isAbsolute = true ↔ .root ∈ lead := by
    rw [← root_mem_components_iff, ← root_mem_normalComponents_iff, hcomponents]
    simp
  rw [components_normalize, hcomponents]
  rcases hlead with rfl | rfl
  · have hrelative : ¬ p.isAbsolute = true := by
      rw [habsolute, List.mem_replicate]
      simp
    rw [if_neg hrelative, List.nil_append]
  · rw [if_pos (habsolute.mpr List.mem_cons_self), List.singleton_append]

theorem normalize_normalize (p : FilePath) : p.normalize.normalize = p.normalize :=
  (isNormal_normalize p).normalize_eq

/-- What is joined to a path may as well be joined to its normal form. -/
theorem normalize_join_normalize (p q : FilePath) :
    (p.normalize.join q).normalize = (p.join q).normalize := by
  by_cases hq : q.isAbsolute = true
  · rw [join_of_isAbsolute _ hq, join_of_isAbsolute _ hq]
  · have hrelative : q.isAbsolute = false := eq_false_of_ne_true hq
    have hsame : normalComponents p.normalize.components = normalComponents p.components := by
      rw [← components_normalize p.normalize, normalize_normalize, components_normalize]
    have hjoin : normalComponents (p.normalize.join q).components =
        normalComponents (p.join q).components := by
      rw [normalComponents_join _ hrelative, normalComponents_join _ hrelative, hsame]
    exact congrArg ofComponents hjoin

theorem walk_normalize (start : Place) (p : FilePath) : p.normalize.walk start = p.walk start := by
  rw [walk, components_normalize, Disk.foldl_go_normalComponents, walk]

/-- A path that does not begin at the root goes up from where it starts, and then down. -/
theorem walk_of_goesUpFirst {up : Nat} {names : List String}
    (h : p.normalize.components = List.replicate up .parent ++ names.map .normal) (start : Place) :
    p.walk start = start.take (start.length - up) ++ names := by
  rw [← walk_normalize, walk, h, List.foldl_append, Disk.foldl_go_replicate, Disk.foldl_go_map]

/-- A path that begins at the root leads to one place. -/
theorem walk_of_isAbsolute (h : p.isAbsolute = true) (start start' : Place) :
    p.walk start = p.walk start' := by
  obtain ⟨up, names, hcomponents⟩ := goesUpFirst_normalize p
  rw [if_pos h, List.append_assoc] at hcomponents
  rw [← walk_normalize start, ← walk_normalize start', walk, walk, hcomponents]
  rfl

/-- Among directories of one name, deep enough, a path leaves some of them and then goes down. -/
theorem walk_replicate {up depth : Nat} {names : List String}
    (h : p.normalize.components = List.replicate up .parent ++ names.map .normal) (name : String) :
    p.walk (List.replicate depth name) = List.replicate (depth - up) name ++ names := by
  rw [walk_of_goesUpFirst h, List.length_replicate, List.take_replicate,
    Nat.min_eq_left (Nat.sub_le depth up)]

/-- Some of the directories are left, so their name tells where a path led. -/
theorem replicate_append_ne {left : Nat} {names names' : List String} (hleft : left ≠ 0) :
    List.replicate left "a" ++ names ≠ List.replicate left "b" ++ names' := by
  obtain ⟨left, rfl⟩ := Nat.exists_eq_succ_of_ne_zero hleft
  rw [List.replicate_succ, List.replicate_succ, List.cons_append, List.cons_append]
  exact fun h => absurd (List.cons.inj h).1 (by decide)

/-- Steps up that are told from each other by what they leave of the directories that are gone up
from. -/
theorem eq_of_ups {depth up up' : Nat} {names names' : List String} (hup : up ≤ depth)
    (hup' : up' ≤ depth)
    (h : ∀ name : String, List.replicate (depth - up) name ++ names =
      List.replicate (depth - up') name ++ names') : up = up' ∧ names = names' := by
  wlog hle : up ≤ up' generalizing up up' names names'
  · obtain ⟨hsame, hnames⟩ := this hup' hup (fun name => (h name).symm) (Nat.le_of_not_le hle)
    exact ⟨hsame.symm, hnames.symm⟩
  have hmore : ∀ name, List.replicate (up' - up) name ++ names = names' := by
    intro name
    have hsplit : depth - up = (depth - up') + (up' - up) := by omega
    have hname := h name
    rw [hsplit, List.replicate_add, List.append_assoc] at hname
    exact List.append_cancel_left hname
  -- one more step up would leave one name less, whatever the name is
  have hnone : up' - up = 0 := by
    by_contra hsome
    exact replicate_append_ne hsome ((hmore "a").trans (hmore "b").symm)
  refine ⟨by omega, ?_⟩
  have hnames := hmore ""
  rwa [hnone] at hnames

/-- Paths that lead to the same places from deep enough have one key, unless both begin at the root.
-/
theorem normalize_eq_of_walk {depth : Nat} (hp : p.isAbsolute = false)
    (hwalk : ∀ start : Place, depth ≤ start.length → p.walk start = q.walk start) :
    p.normalize = q.normalize := by
  obtain ⟨up, names, hcomponents⟩ := goesUpFirst_normalize p
  obtain ⟨up', names', hcomponents'⟩ := goesUpFirst_normalize q
  rw [hp, if_neg Bool.false_ne_true, List.nil_append] at hcomponents
  let deep := depth + up + up' + 1
  have hdeep : ∀ name : String,
      List.replicate (deep - up) name ++ names = q.walk (List.replicate deep name) := by
    intro name
    rw [← walk_replicate hcomponents, hwalk _ (by rw [List.length_replicate]; omega)]
  cases hq : q.isAbsolute with
  | true =>
      -- a path from the root does not tell the directories that are gone up from
      have hsame := (hdeep "a").trans ((walk_of_isAbsolute hq _ _).trans (hdeep "b").symm)
      exact absurd hsame (replicate_append_ne (by omega))
  | false =>
      rw [hq, if_neg Bool.false_ne_true, List.nil_append] at hcomponents'
      obtain ⟨rfl, rfl⟩ : up = up' ∧ names = names' :=
        eq_of_ups (Nat.le_of_lt (by omega : up < deep)) (by omega) fun name =>
          (hdeep name).trans (walk_replicate hcomponents' name)
      exact (isCanonical_normalize p).eq_of_components (isCanonical_normalize q)
        (hcomponents.trans hcomponents'.symm)

/-- A path that does not begin at the root has the key of all paths that lead where it leads from
deep enough. -/
theorem normalize_eq_iff (hp : p.isAbsolute = false) : p.normalize = q.normalize ↔
    ∃ depth, ∀ start : Place, depth ≤ start.length → p.walk start = q.walk start := by
  constructor
  · intro h
    refine ⟨0, fun start _ => ?_⟩
    rw [← walk_normalize, h, walk_normalize]
  · rintro ⟨depth, hwalk⟩
    exact normalize_eq_of_walk hp hwalk

/-- The normal form of a path is a key. -/
theorem normalize_isKey (p : FilePath) :
    GoesUpFirst p.isAbsolute p.normalize.components ∧
      p.normalize.isAbsolute = p.isAbsolute ∧
      p.normalize.normalize = p.normalize ∧
      (∀ q : FilePath, (p.join q).normalize = (p.normalize.join q).normalize) ∧
      (∀ start : Place, p.normalize.walk start = p.walk start) ∧
      ∀ q : FilePath, p.isAbsolute = false → (p.normalize = q.normalize ↔
        ∃ depth, ∀ start : Place, depth ≤ start.length → p.walk start = q.walk start) :=
  ⟨goesUpFirst_normalize p, isAbsolute_normalize p, normalize_normalize p,
    fun q => (normalize_join_normalize p q).symm, fun start => walk_normalize start p,
    fun _ hp => normalize_eq_iff hp⟩

theorem normalize_isKey_roundabout :
    (FilePath.mk "a/../../b").isAbsolute = false ∧
      ∃ depth, ∀ start : Place, depth ≤ start.length →
        (FilePath.mk "a/../../b").walk start = (FilePath.mk ".././c/..//b").walk start :=
  ⟨by decide, ((normalize_isKey ⟨"a/../../b"⟩).2.2.2.2.2 _ (by decide)).mp (by decide +kernel)⟩

end FilePath

end MarkerIndex
