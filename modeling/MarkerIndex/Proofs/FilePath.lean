import MarkerIndex.Path.Normal
import Mathlib.Data.List.Basic
import Mathlib.Data.List.Induction
/-!
Paths by their components. Text that spells a list of components reads back as that list, so that
paths in normal form, and what is joined to them by name, are told apart by components alone. The
order of paths is a linear order on lists of components.
-/

namespace MarkerIndex

namespace Component

theorem isName_of_ofName? {name : List Char} (hslash : '/' ∉ name) {c : Component}
    (h : ofName? name = some c) : c.IsName := by
  simp only [ofName?, Bool.or_eq_true, decide_eq_true_eq] at h
  split at h
  · cases h
  · rename_i hplain
    split at h
    · cases h
      decide
    · rename_i hparent
      cases h
      simp only [not_or] at hplain
      simpa [IsName, text, ofName?, hplain, hparent] using hslash

theorem IsName.text_ne_dot {c : Component} (h : c.IsName) : c.text.toList ≠ ['.'] := by
  intro hdot
  simp [IsName, hdot, ofName?] at h

/-- The name of a component that has one. -/
def name : Component → String
  | normal name => name
  | _ => ""

/-- Components are ordered by kind, and names among themselves as texts. -/
theorem compare_eq_compareLex :
    Component.compare = compareLex (compareOn rank) (compareOn name) := by
  funext a b
  cases a <;> cases b <;> rfl

instance : Std.TransCmp Component.compare := by
  rw [compare_eq_compareLex]
  infer_instance

instance : Std.LawfulEqCmp Component.compare where
  eq_of_compare {a b} h := by
    rw [compare_eq_compareLex] at h
    obtain ⟨hrank, hname⟩ := compareLex_eq_eq.mp h
    have hrank : a.rank = b.rank := Std.LawfulEqOrd.eq_of_compare hrank
    have hname : a.name = b.name := Std.LawfulEqOrd.eq_of_compare hname
    cases a <;> cases b <;> simp_all [rank, name]

end Component

namespace FilePath

open Component

theorem splitSlashes_ne_nil (cs : List Char) : splitSlashes cs ≠ [] := by
  cases cs with
  | nil => simp [splitSlashes]
  | cons c cs =>
      simp only [splitSlashes]
      split
      · simp
      · split <;> simp

theorem splitSlashes_slash (cs : List Char) : splitSlashes ('/' :: cs) = [] :: splitSlashes cs := by
  simp only [splitSlashes]
  split
  · rename_i hnil
    exact absurd hnil (splitSlashes_ne_nil cs)
  · rename_i hsplit
    simp [hsplit]

theorem splitSlashes_append (cs ds : List Char) :
    splitSlashes (cs ++ '/' :: ds) = splitSlashes cs ++ splitSlashes ds := by
  induction cs with
  | nil => simpa [splitSlashes] using splitSlashes_slash ds
  | cons c cs ih =>
      obtain ⟨part, parts, hsplit⟩ := List.exists_cons_of_ne_nil (splitSlashes_ne_nil cs)
      rw [hsplit, List.cons_append] at ih
      by_cases hc : c = '/'
      · simp [splitSlashes, hc, ih, hsplit]
      · simp [splitSlashes, hc, ih, hsplit]

theorem splitSlashes_name {cs : List Char} (h : '/' ∉ cs) : splitSlashes cs = [cs] := by
  induction cs with
  | nil => rfl
  | cons c cs ih =>
      simp only [List.mem_cons, not_or] at h
      simp [splitSlashes, ih h.2, Ne.symm h.1]

theorem not_mem_of_mem_splitSlashes {cs : List Char} :
    ∀ part ∈ splitSlashes cs, '/' ∉ part := by
  induction cs with
  | nil => simp [splitSlashes]
  | cons c cs ih =>
      obtain ⟨part, parts, hsplit⟩ := List.exists_cons_of_ne_nil (splitSlashes_ne_nil cs)
      simp only [hsplit, List.mem_cons, forall_eq_or_imp] at ih
      by_cases hc : c = '/'
      · simpa [splitSlashes, hc, hsplit] using ih
      · simpa [splitSlashes, hc, hsplit, Ne.symm hc] using ih

/-- The names between the slashes of a text. -/
def namesOf (cs : List Char) : List Component :=
  (splitSlashes cs).filterMap ofName?

theorem namesOf_append (cs ds : List Char) :
    namesOf (cs ++ '/' :: ds) = namesOf cs ++ namesOf ds := by
  simp [namesOf, splitSlashes_append]

theorem namesOf_text {c : Component} (h : c.IsName) : namesOf c.text.toList = [c] := by
  simp [namesOf, splitSlashes_name h.1, h.2]

theorem isName_of_mem_namesOf {cs : List Char} : ∀ c ∈ namesOf cs, c.IsName := by
  intro c member
  obtain ⟨part, hpart, hname⟩ := List.mem_filterMap.mp member
  exact isName_of_ofName? (not_mem_of_mem_splitSlashes part hpart) hname

/-- What stands in front of the names of a text. -/
def leadOf : List Char → List Component
  | '/' :: _ => [.root]
  | ['.'] => [.current]
  | '.' :: '/' :: _ => [.current]
  | _ => []

theorem componentsOf_eq (cs : List Char) : componentsOf cs = leadOf cs ++ namesOf cs := by
  unfold componentsOf leadOf namesOf
  split <;> simp

theorem leadOf_cons_cons (a b : Char) (cs ds : List Char) :
    leadOf (a :: b :: cs) = leadOf (a :: b :: ds) := by
  unfold leadOf
  split <;> simp_all

/-- What a path starts with is decided in front of its first name. -/
theorem leadOf_append {cs : List Char} (hcs : cs ≠ []) (ds : List Char) :
    leadOf (cs ++ '/' :: ds) = leadOf cs := by
  match cs with
  | [a] =>
      by_cases ha : a = '/' ∨ a = '.'
      · rcases ha with rfl | rfl <;> rfl
      · simp only [not_or] at ha
        simp [leadOf, ha]
  | a :: b :: cs => exact leadOf_cons_cons a b _ _

theorem leadOf_text {c : Component} (h : c.IsName) : leadOf c.text.toList = [] := by
  have hslash := h.1
  have hdot := h.text_ne_dot
  unfold leadOf
  split <;> simp_all

theorem componentsOf_text {c : Component} (h : c.IsName) : componentsOf c.text.toList = [c] := by
  simp [componentsOf_eq, leadOf_text h, namesOf_text h]

theorem leadOf_cases (p : FilePath) :
    p.isAbsolute = true ∧ leadOf p.text.toList = [.root] ∨
      p.isAbsolute = false ∧ (leadOf p.text.toList = [] ∨ leadOf p.text.toList = [.current]) := by
  unfold leadOf isAbsolute
  split
  · next hchars => exact Or.inl ⟨by simp [hchars], rfl⟩
  · next hchars => exact Or.inr ⟨by simp [hchars], Or.inr rfl⟩
  · next hchars => exact Or.inr ⟨by simp [hchars], Or.inr rfl⟩
  · next hroot _ _ =>
      refine Or.inr ⟨?_, Or.inl rfl⟩
      simp only [decide_eq_false_iff_not]
      intro hhead
      obtain ⟨cs, hchars⟩ := List.head?_eq_some_iff.mp hhead
      exact hroot cs hchars

theorem root_mem_components_iff {p : FilePath} : .root ∈ p.components ↔ p.isAbsolute = true := by
  have hnames : .root ∉ namesOf p.text.toList := fun member =>
    absurd (isName_of_mem_namesOf _ member) (by decide)
  rw [components, componentsOf_eq, List.mem_append, or_iff_left hnames]
  rcases leadOf_cases p with ⟨habsolute, hlead⟩ | ⟨hrelative, hlead | hlead⟩
  · simp [habsolute, hlead]
  · simp [hrelative, hlead]
  · simp [hrelative, hlead]

/-- What is joined to a path stands behind a slash, which may be that of the path. -/
theorem exists_front_of_join {p q : FilePath} (hp : p.text ≠ "") (hq : q.isAbsolute = false) :
    ∃ front, (p.join q).text.toList = front ++ '/' :: q.text.toList ∧
      (p.text.toList = front ∨ p.text.toList = front ++ ['/']) := by
  by_cases hend : p.endsWithSlash = true
  · obtain ⟨front, hfront⟩ := List.getLast?_eq_some_iff.mp (by simpa [endsWithSlash] using hend)
    exact ⟨front, by simp [join, hq, hp, hend, hfront], Or.inr hfront⟩
  · exact ⟨p.text.toList, by simp [join, hq, hp, hend], Or.inl rfl⟩

theorem namesOf_front {p : FilePath} {front : List Char}
    (h : p.text.toList = front ∨ p.text.toList = front ++ ['/']) :
    namesOf p.text.toList = namesOf front := by
  rcases h with hsame | hslash
  · rw [hsame]
  · rw [hslash, namesOf_append]
    exact List.append_nil _

/-- What does not start anew puts its names behind the path that it is joined to. -/
theorem components_join_of_ne_empty {p q : FilePath} (hp : p.text ≠ "")
    (hq : q.isAbsolute = false) :
    (p.join q).components = p.components ++ namesOf q.text.toList := by
  obtain ⟨front, hchars, hfront⟩ := exists_front_of_join hp hq
  have hlead : leadOf (front ++ '/' :: q.text.toList) = leadOf p.text.toList := by
    rcases hfront with hsame | hslash
    · rw [← hsame]
      exact leadOf_append (by simpa using hp) _
    · rw [hslash]
      cases front with
      | nil => rfl
      | cons c front => rw [leadOf_append (by simp), leadOf_append (by simp)]
  rw [components, hchars, componentsOf_eq, hlead, namesOf_append,
    ← namesOf_front hfront, components, componentsOf_eq, List.append_assoc]

/-- A name goes to the end of the path that it is joined to. -/
theorem components_join (p : FilePath) {c : Component} (h : c.IsName) :
    (p.join ⟨c.text⟩).components = p.components ++ [c] := by
  by_cases hempty : p.text = ""
  · simpa [join, hempty, components, show componentsOf [] = [] from rfl] using componentsOf_text h
  · have hrelative : (FilePath.mk c.text).isAbsolute = false := by
      simp only [isAbsolute, decide_eq_false_iff_not]
      intro hhead
      exact h.1 (List.mem_of_head? hhead)
    rw [components_join_of_ne_empty hempty hrelative, namesOf_text h]

/-- Components that are read back as they are spelled: names, with or without a root in front. -/
def Spellable (cs : List Component) : Prop :=
  ∃ names, (∀ c ∈ names, c.IsName) ∧ (cs = names ∨ cs = .root :: names)

theorem Spellable.of_append {cs : List Component} {c : Component} (h : Spellable (cs ++ [c])) :
    Spellable cs := by
  obtain ⟨names, hnames, hcs | hcs⟩ := h
  · subst hcs
    exact ⟨cs, fun c member => hnames c (by simp [member]), Or.inl rfl⟩
  · cases cs with
    | nil => exact ⟨[], by simp⟩
    | cons a cs =>
        rw [List.cons_append, List.cons.injEq] at hcs
        obtain ⟨rfl, rfl⟩ := hcs
        exact ⟨cs, fun c member => hnames c (by simp [member]), Or.inr rfl⟩

theorem Spellable.concat {cs : List Component} (h : Spellable cs) {c : Component} (hc : c.IsName) :
    Spellable (cs ++ [c]) := by
  obtain ⟨names, hnames, hcs⟩ := h
  refine ⟨names ++ [c], ?_, ?_⟩
  · simpa [or_imp, forall_and] using ⟨hnames, hc⟩
  · exact hcs.imp (by simp [·]) (by simp [·])

theorem components_foldl_join (p : FilePath) {names : List Component}
    (hnames : ∀ c ∈ names, c.IsName) :
    (names.foldl (fun p c => p.join ⟨c.text⟩) p).components = p.components ++ names := by
  induction names generalizing p with
  | nil => simp
  | cons c names ih =>
      simp only [List.mem_cons, forall_eq_or_imp] at hnames
      simp [ih _ hnames.2, components_join p hnames.1]

theorem components_ofComponents {cs : List Component} (h : Spellable cs) :
    (ofComponents cs).components = cs := by
  obtain ⟨names, hnames, rfl | rfl⟩ := h
  · exact components_foldl_join ⟨""⟩ hnames
  · exact components_foldl_join ⟨"/"⟩ hnames

/-- A step up takes back a name or stands as one itself. -/
theorem spellable_normalStep {done : List Component} (hdone : Spellable done.reverse)
    {c : Component} (hc : c.IsName) : Spellable (normalStep done c).reverse := by
  unfold normalStep
  split
  · exact hdone
  · rw [List.reverse_cons] at hdone
    exact hdone.of_append
  · rw [List.reverse_cons]
    exact hdone.concat hc

theorem spellable_foldl_normalStep {done names : List Component} (hdone : Spellable done.reverse)
    (hnames : ∀ c ∈ names, c.IsName) : Spellable (names.foldl normalStep done).reverse := by
  induction names generalizing done with
  | nil => exact hdone
  | cons c names ih =>
      simp only [List.mem_cons, forall_eq_or_imp] at hnames
      exact ih (spellable_normalStep hdone hnames.1) hnames.2

theorem spellable_normalComponents (p : FilePath) : Spellable (normalComponents p.components) := by
  have hlead : Spellable ((leadOf p.text.toList).foldl normalStep []).reverse := by
    unfold leadOf
    split
    · exact ⟨[], by simp [normalStep]⟩
    all_goals exact ⟨[], by simp, Or.inl rfl⟩
  rw [normalComponents, components, componentsOf_eq, List.foldl_append]
  exact spellable_foldl_normalStep hlead isName_of_mem_namesOf

/-- A path that its components spell. -/
def IsCanonical (p : FilePath) : Prop :=
  ∃ cs, Spellable cs ∧ ofComponents cs = p

theorem IsCanonical.eq_of_components {p q : FilePath} (hp : p.IsCanonical) (hq : q.IsCanonical)
    (h : p.components = q.components) : p = q := by
  obtain ⟨cs, hcs, rfl⟩ := hp
  obtain ⟨ds, hds, rfl⟩ := hq
  rw [components_ofComponents hcs, components_ofComponents hds] at h
  rw [h]

theorem isCanonical_normalize (p : FilePath) : p.normalize.IsCanonical :=
  ⟨_, spellable_normalComponents p, rfl⟩

/-- What is joined by name to a canonical path is canonical. -/
theorem IsCanonical.join {p : FilePath} (hp : p.IsCanonical) {c : Component} (hc : c.IsName) :
    (p.join ⟨c.text⟩).IsCanonical := by
  obtain ⟨cs, hcs, rfl⟩ := hp
  exact ⟨cs ++ [c], hcs.concat hc, by simp [ofComponents]⟩

theorem compareComponents_eq (as bs : List Component) :
    compareComponents as bs = List.compareLex Component.compare as bs := by
  fun_induction compareComponents as bs with
  | case4 a as b bs ih => simp [List.compareLex_cons_cons, ih]
  | _ => simp [List.compareLex_nil_nil, List.compareLex_nil_cons, List.compareLex_cons_nil]

theorem compare_eq (p q : FilePath) :
    p.compare q = List.compareLex Component.compare p.components q.components :=
  compareComponents_eq _ _

theorem le_eq (p q : FilePath) :
    p.le q = (List.compareLex Component.compare p.components q.components).isLE := by
  rw [le, compare_eq]
  cases List.compareLex Component.compare p.components q.components <;> rfl

theorem le_trans (p q r : FilePath) (hpq : p.le q = true) (hqr : q.le r = true) :
    p.le r = true := by
  rw [le_eq] at *
  exact Std.TransCmp.isLE_trans hpq hqr

theorem le_total (p q : FilePath) : (p.le q || q.le p) = true := by
  have hswap : List.compareLex Component.compare q.components p.components =
      (List.compareLex Component.compare p.components q.components).swap :=
    Std.OrientedCmp.eq_swap
  rw [le_eq, le_eq, hswap]
  cases List.compareLex Component.compare p.components q.components <;> rfl

theorem components_eq_of_compare {p q : FilePath} (h : p.compare q = .eq) :
    p.components = q.components := by
  rw [compare_eq] at h
  exact Std.LawfulEqCmp.eq_of_compare h

/-- Canonical paths in order are in strict order where they differ. -/
theorem IsCanonical.compare_eq_lt {p q : FilePath} (hp : p.IsCanonical) (hq : q.IsCanonical)
    (hle : p.le q = true) (hne : p ≠ q) : p.compare q = .lt := by
  cases h : p.compare q with
  | lt => rfl
  | eq => exact absurd (hp.eq_of_components hq (components_eq_of_compare h)) hne
  | gt => simp [le, h] at hle

theorem not_compare_eq_lt {p q : FilePath} (h : p.compare q = .lt) : q.compare p ≠ .lt := by
  have hswap : List.compareLex Component.compare q.components p.components =
      (List.compareLex Component.compare p.components q.components).swap :=
    Std.OrientedCmp.eq_swap
  rw [compare_eq] at h
  rw [compare_eq, hswap, h]
  decide

end FilePath

end MarkerIndex
