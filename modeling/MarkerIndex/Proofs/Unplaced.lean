import MarkerIndex.Source.Item
/-!
Token trees and items without the places that they stand at. Texts that differ in their layout alone
have the same trees up to places.
-/

namespace MarkerIndex

namespace TokenTree

mutual

/-- The tree with all its places forgotten. -/
def unplaced : TokenTree → TokenTree
  | .leaf _ token => .leaf .first token
  | .group delimiter _ _ content => .group delimiter .first .first (unplacedAll content)

def unplacedAll : List TokenTree → List TokenTree
  | [] => []
  | tree :: trees => tree.unplaced :: unplacedAll trees

end

theorem unplacedAll_eq_map (trees : List TokenTree) : unplacedAll trees = trees.map unplaced := by
  induction trees with
  | nil => rfl
  | cons tree trees ih => rw [unplacedAll, ih, List.map_cons]

theorem unplacedAll_eq_nil {found : List TokenTree} : unplacedAll found = [] ↔ found = [] := by
  simp [unplacedAll_eq_map]

theorem unplacedAll_eq_leaf {found ts : List TokenTree} {l : Leaf} :
    unplacedAll found = .leaf .first l :: ts ↔
      ∃ p more, found = .leaf p l :: more ∧ unplacedAll more = ts := by
  constructor
  · intro h
    cases found with
    | nil => cases h
    | cons t more =>
        obtain ⟨ht, hmore⟩ := List.cons.inj h
        cases t with
        | leaf p token =>
            obtain rfl : token = l := by injection ht
            exact ⟨p, more, rfl, hmore⟩
        | group d p q content => cases ht
  · rintro ⟨p, more, rfl, rfl⟩
    rfl

theorem unplacedAll_eq_group {found ts content : List TokenTree} {d : Delimiter} :
    unplacedAll found = .group d .first .first content :: ts ↔
      ∃ p q inside more, found = .group d p q inside :: more ∧ unplacedAll inside = content ∧
        unplacedAll more = ts := by
  constructor
  · intro h
    cases found with
    | nil => cases h
    | cons t more =>
        obtain ⟨ht, hmore⟩ := List.cons.inj h
        cases t with
        | leaf p token => cases ht
        | group d' p q inside =>
            obtain ⟨rfl, hinside⟩ : d' = d ∧ unplacedAll inside = content := by
              simpa [unplaced] using ht
            exact ⟨p, q, inside, more, rfl, hinside, hmore⟩
  · rintro ⟨p, q, inside, more, rfl, rfl, rfl⟩
    rfl

theorem unplacedAll_eq_append {found ts more : List TokenTree} :
    unplacedAll found = ts ++ more ↔
      ∃ front back, found = front ++ back ∧ unplacedAll front = ts ∧ unplacedAll back = more := by
  simp only [unplacedAll_eq_map]
  rw [List.map_eq_append_iff]

end TokenTree

end MarkerIndex
