import MarkerIndex.Proofs.Blanks
import MarkerIndex.Proofs.PathSigns
/-!
From the token trees of a text back to its characters. Where no tree is a group, the characters are
cut into leaves one after another, with nothing but blanks and comments between them, and words and
colons stand there as they are.
-/

namespace MarkerIndex

open Scan

namespace TokenTree

def isLeaf : TokenTree → Bool
  | leaf _ _ => true
  | group _ _ _ _ => false

theorem isLeaf_of_isOfPlainPath {t : TokenTree} (h : t.isOfPlainPath = true) : t.isLeaf = true := by
  cases t with
  | leaf => rfl
  | group => cases h

/-- A bracket that is open, and a group that was closed, is found among the trees in the end. -/
theorem exists_group_of_assemble {failure : Option Position} {current ts : List TokenTree}
    {stack : List Open} {lexemes : List Lexeme}
    (h : assemble failure current stack lexemes = .ok ts)
    (hgroup : stack ≠ [] ∨ ∃ t ∈ current, t.isLeaf = false) : ∃ t ∈ ts, t.isLeaf = false := by
  fun_induction assemble failure current stack lexemes with
  | case1 => cases h
  | case2 => cases h
  | case3 current =>
      obtain rfl := Except.ok.inj h
      simpa using hgroup
  | case4 current stack pos delimiter lexemes ih => exact ih h (.inl (by simp))
  | case5 current pos lexemes bracket stack whole ih =>
      exact ih h (.inr ⟨whole, List.mem_cons_self, rfl⟩)
  | case6 => cases h
  | case7 => cases h
  | case8 current stack pos token lexemes ih =>
      exact ih h (hgroup.imp_right fun ⟨t, member, ht⟩ => ⟨t, List.mem_cons_of_mem _ member, ht⟩)
  | case9 current stack pos last inner text lexemes ih =>
      exact ih h (hgroup.imp_right fun ⟨t, member, ht⟩ => ⟨t, List.mem_append_right _ member, ht⟩)

theorem failure_of_assemble {failure : Option Position} {current ts : List TokenTree}
    {stack : List Open} {lexemes : List Lexeme}
    (h : assemble failure current stack lexemes = .ok ts) :
    failure = none := by
  fun_induction assemble failure current stack lexemes with
  | case1 | case2 | case6 | case7 => cases h
  | case3 => assumption
  | case4 | case5 | case8 | case9 => rename_i ih; exact ih h

/-- The characters are leaves one after another, with what is skipped in front of each and behind.
-/
inductive Leaves : List Char → List TokenTree → Prop
  | last {cs : List Char} : skipSpace cs = [] → Leaves cs []
  | leaf {cs rest : List Char} {token : Leaf} {ts : List TokenTree} (pos : Position) :
      Lexeme.leaf? (skipSpace cs) = some (token, rest) → Leaves rest ts →
      Leaves cs (leaf pos token :: ts)

theorem leaf?_of_next? {pos p : Position} {cs rest : List Char} {token : Leaf}
    (h : Lexeme.next? pos cs = some (.leaf p token, rest)) :
    Lexeme.leaf? cs = some (token, rest) := by
  unfold Lexeme.next? at h
  split at h
  · cases h
  · split at h
    · cases h
    · split at h
      · cases h
      · cases h
      · obtain ⟨⟨token', rest'⟩, hleaf, heq⟩ := Option.map_eq_some_iff.mp h
        cases heq
        exact hleaf

/-- A text that is nested has nothing left, or goes on with a lexeme. -/
theorem nest_cases {pos : Position} {cs : List Char} {current ts : List TokenTree}
    {stack : List Open} (h : nest pos cs current stack = .ok ts) :
    skipSpace cs = [] ∧ assemble none current stack [] = .ok ts ∨
    ∃ here lexeme rest later, Lexeme.next? here (skipSpace cs) = some (lexeme, rest) ∧
      rest.length < cs.length ∧ assemble (Lexeme.ofChars later rest).2 current stack
        (lexeme :: (Lexeme.ofChars later rest).1) = .ok ts := by
  rw [nest, Lexeme.ofChars] at h
  by_cases hend : skipSpace cs = []
  · simp only [hend, List.isEmpty_nil, ↓reduceIte] at h
    exact .inl ⟨hend, h⟩
  · right
    simp only [List.isEmpty_eq_false_iff.mpr hend, Bool.false_eq_true, ↓reduceIte] at h
    split at h
    · cases failure_of_assemble h
    · next lexeme rest hnext =>
        split at h
        · next hlt => exact ⟨_, lexeme, rest, _, hnext, hlt, h⟩
        · cases failure_of_assemble h

/-- A text whose trees are all leaves consists of these, cut one after another. -/
theorem exists_leaves {pos : Position} {cs : List Char} {current ts : List TokenTree}
    (h : nest pos cs current [] = .ok ts) (hleaves : ∀ t ∈ ts, t.isLeaf = true) :
    ∃ found, ts = current.reverse ++ found ∧ Leaves cs found := by
  induction hn : cs.length using Nat.strongRecOn generalizing pos cs current with
  | _ n ih =>
      subst hn
      rcases nest_cases h with ⟨hend, hnil⟩ | ⟨here, lexeme, rest, later, hnext, hlt, hmore⟩
      · obtain rfl := Except.ok.inj hnil
        exact ⟨[], (List.append_nil _).symm, .last hend⟩
      · -- a group that is begun or finished stays to the end, so there is none
        have hnone {current : List TokenTree} {stack : List Open}
            (h : assemble (Lexeme.ofChars later rest).2 current stack
              (Lexeme.ofChars later rest).1 = .ok ts) :
            ¬ (stack ≠ [] ∨ ∃ t ∈ current, t.isLeaf = false) := by
          intro hgroup
          obtain ⟨t, member, ht⟩ := exists_group_of_assemble h hgroup
          rw [hleaves t member] at ht
          cases ht
        cases lexeme with
        | opening p delimiter => exact absurd (.inl (by simp)) (hnone hmore)
        | closing p delimiter => cases hmore
        | doc p last inner text =>
            exact absurd (.inr (by simp [ofDoc, isLeaf])) (hnone hmore)
        | leaf p token =>
            have hnest : nest later rest (leaf p token :: current) [] = .ok ts := hmore
            obtain ⟨found, rfl, hfound⟩ := ih _ hlt hnest rfl
            exact ⟨leaf p token :: found, by simp, .leaf p (leaf?_of_next? hnext) hfound⟩

end TokenTree

namespace Lexeme

variable {cs rest : List Char}

theorem eq_cons_of_punctChar {c : Char} (h : punctChar cs = some (c, rest)) : cs = c :: rest := by
  unfold punctChar at h
  split at h
  · cases h
  · split at h
    · split at h
      · cases h
        rfl
      · cases h
    · cases h

theorem exists_of_wordEnd (h : wordEnd cs = some rest) : ∃ w, cs = w ++ rest := by
  unfold wordEnd at h
  split at h
  · next c tail =>
      split at h
      · obtain rfl := Option.some.inj h
        exact ⟨c :: tail.takeWhile Text.isIdentContinue,
          congrArg (c :: ·) (List.takeWhile_append_dropWhile).symm⟩
      · cases h
  · cases h

theorem exists_of_word (h : word cs = some rest) : ∃ w, cs = w ++ rest := by
  unfold word at h
  split at h
  · cases h
  · unfold nameEnd at h
    split at h
    · obtain ⟨w, hw⟩ := exists_of_wordEnd (Option.filter_eq_some_iff.mp h).1
      exact ⟨cs.take 2 ++ w, by rw [List.append_assoc, ← hw, List.take_append_drop]⟩
    · exact exists_of_wordEnd h

/-- A word stands in a text as it is. -/
theorem eq_append_of_leaf? {w : String} (h : leaf? cs = some (.word w, rest)) :
    cs = w.toList ++ rest := by
  unfold leaf? at h
  split at h
  · cases h
  · split at h
    · split at h <;> cases h
    · cases h
    · split at h
      · next rest' hword =>
          cases h
          obtain ⟨w, rfl⟩ := exists_of_word hword
          rw [before_append, String.toList_ofList]
      · obtain ⟨rest', hrest, heq⟩ := Option.map_eq_some_iff.mp h
        cases heq

/-- A colon stands in a text as it is, and is joined to a mark that follows it at once. -/
theorem eq_cons_of_leaf? {joint : Bool} (h : leaf? cs = some (.punct ':' joint, rest)) :
    cs = ':' :: rest ∧ joint = (punctChar rest).isSome := by
  unfold leaf? at h
  split at h
  · cases h
  · split at h
    · split at h <;> cases h
    · next c rest' hnot hpunct =>
        cases h
        exact ⟨eq_cons_of_punctChar hpunct, rfl⟩
    · split at h <;> simp at h

end Lexeme

end MarkerIndex
