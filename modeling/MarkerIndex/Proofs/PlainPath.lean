import MarkerIndex.Proofs.Parsing
import MarkerIndex.Proofs.Unplaced
/-!
Paths without arguments, read from tokens at other places. What such a path consists of does not
depend on where its tokens stand, so the argument of a directive may be moved about in its file.
-/

namespace MarkerIndex.Grammar

open TokenTree

section

variable {ts ts' : List TokenTree}

theorem atKeyword_unplaced (keyword : String) (ts : List TokenTree) :
    atKeyword keyword (unplacedAll ts) = atKeyword keyword ts := by
  rcases ts with _ | ⟨⟨_, _ | _ | _⟩ | _, _⟩ <;> rfl

theorem atGroup_unplaced (delimiter : Delimiter) (ts : List TokenTree) :
    atGroup delimiter (unplacedAll ts) = atGroup delimiter ts := by
  rcases ts with _ | ⟨⟨_, _ | _ | _⟩ | _, _⟩ <;> rfl

theorem behind_unplaced (ts : List TokenTree) :
    behind (unplacedAll ts) = unplacedAll (behind ts) := by
  rcases ts with _ | ⟨⟨_, _ | ⟨c, joint⟩ | _⟩ | _, ts⟩
  case cons.leaf.punct =>
    simp only [unplacedAll, unplaced]
    rcases ts with _ | ⟨⟨_, _ | _ | _⟩ | _, ts⟩
    case cons.leaf.word =>
      by_cases hc : c = '\''
      · subst hc
        cases joint <;> rfl
      · simp [behind, unplacedAll, unplaced, hc]
    all_goals simp [behind, unplacedAll, unplaced]
  all_goals rfl

theorem opRest_unplaced (cs : List Char) (ts : List TokenTree) :
    opRest cs (unplacedAll ts) = (opRest cs ts).map unplacedAll := by
  induction cs generalizing ts with
  | nil => simp [opRest]
  | cons c cs ih =>
      rcases ts with _ | ⟨⟨_, _ | ⟨d, joint⟩ | _⟩ | _, ts⟩
      case cons.leaf.punct =>
        cases cs with
        | nil =>
          simp only [unplacedAll, unplaced, opRest]
          split <;> rfl
        | cons c' cs =>
          simp only [unplacedAll, unplaced, opRest, ih]
          split <;> rfl
      all_goals cases cs <;> rfl

theorem atOp_unplaced (op : String) (ts : List TokenTree) :
    atOp op (unplacedAll ts) = atOp op ts := by
  rw [atOp, atOp, opRest_unplaced, Option.isSome_map]

theorem atOp_congr (h : unplacedAll ts = unplacedAll ts') (op : String) :
    atOp op ts = atOp op ts' := by
  rw [← atOp_unplaced, h, atOp_unplaced]

theorem anyKeyword_congr (h : unplacedAll ts = unplacedAll ts') (words : List String) :
    words.any (atKeyword · ts) = words.any (atKeyword · ts') := by
  simp only [← atKeyword_unplaced _ ts, h, atKeyword_unplaced]

theorem behind_congr (h : unplacedAll ts = unplacedAll ts') :
    unplacedAll (behind ts) = unplacedAll (behind ts') := by
  rw [← behind_unplaced, h, behind_unplaced]

theorem length_congr (h : unplacedAll ts = unplacedAll ts') : ts.length = ts'.length := by
  simpa [unplacedAll_eq_map] using congrArg List.length h

end

theorem op_of_some {text : String} {s : State} {more : List TokenTree}
    (h : opRest text.toList s.rest = some more) (scope : Scope) :
    ∃ read, op text scope s = .ok ((), ⟨more, read, s.leftover⟩) := by
  obtain ⟨ts, read, leftover⟩ := s
  rw [op, ahead_apply, h]
  cases ts <;> exact ⟨_, rfl⟩

theorem op_of_none {text : String} {s : State} (h : opRest text.toList s.rest = none)
    (scope : Scope) : ∃ failure, op text scope s = .error failure := by
  obtain ⟨ts, read, leftover⟩ := s
  rw [op, ahead_apply, h]
  cases ts <;> exact ⟨_, rfl⟩

/-- Two readings of the same tokens at different places. No brackets have left anything unread. -/
structure Alike (s s' : State) : Prop where
  rest : unplacedAll s.rest = unplacedAll s'.rest
  leftover : s.leftover = none
  leftover' : s'.leftover = none

/-- Where the first reader gives a value in `P`, the second gives one with the same key from the
same tokens at other places. -/
def Carries {α γ : Type} (P : α → Prop) (key : α → γ) (x y : Reader α) : Prop :=
  ∀ scope scope' s s' a later, Alike s s' → x scope s = .ok (a, later) → P a →
    ∃ b later', y scope' s' = .ok (b, later') ∧ key a = key b ∧ Alike later later'

namespace Carries

variable {α β γ δ : Type} {P : α → Prop} {Q : β → Prop} {key : α → γ} {other : β → δ}
  {x y : Reader α} {f g : α → Reader β}

theorem pure {a b : α} (h : key a = key b) : Carries P key (Pure.pure a) (Pure.pure b) := by
  intro scope scope' s s' v later halike hread _
  cases hread
  exact ⟨b, s', rfl, h, halike⟩

/-- A value outside of `P` is only given where the whole gives none in `Q`. -/
theorem bind (hx : Carries P key x y) (hback : ∀ a, ¬ P a → Returns (fun b => ¬ Q b) (f a))
    (hf : ∀ a b, P a → key a = key b → Carries Q other (f a) (g b)) :
    Carries Q other (x >>= f) (y >>= g) := by
  intro scope scope' s s' c last halike hread hc
  obtain ⟨a, later, hfirst, hmore⟩ := exists_of_bind hread
  have ha : P a := by
    by_contra hnot
    exact hback a hnot scope later c last hmore hc
  obtain ⟨b, later', hsecond, hkey, halike⟩ := hx scope scope' s s' a later halike hfirst ha
  rw [bind_apply hsecond]
  exact hf a b ha hkey scope scope' later later' c last halike hmore hc

/-- Any value of the first reader may be gone on with. -/
theorem bind_any (hx : Carries (fun _ => True) key x y)
    (hf : ∀ a b, key a = key b → Carries Q other (f a) (g b)) :
    Carries Q other (x >>= f) (y >>= g) :=
  bind hx (fun _ hnot => absurd trivial hnot) fun a b _ => hf a b

theorem ahead {f g : List TokenTree → Reader β}
    (h : ∀ ts ts', unplacedAll ts = unplacedAll ts' → Carries Q other (f ts) (g ts')) :
    Carries Q other (rest >>= f) (rest >>= g) :=
  fun scope scope' s s' a later halike hread ha =>
    h s.rest s'.rest halike.rest scope scope' s s' a later halike hread ha

theorem ite {c c' : Bool} {z w : Reader α} (hc : c = c') (hx : Carries P key x y)
    (hz : Carries P key z w) :
    Carries P key (if c = true then x else z) (if c' = true then y else w) := by
  subst hc
  split
  · exact hx
  · exact hz

theorem never (h : Returns (fun a => ¬ P a) x) : Carries P key x y :=
  fun scope _ s _ a later _ hread ha => absurd ha (h scope s a later hread)

theorem op (text : String) : Carries (fun _ => True) id (Grammar.op text) (Grammar.op text) := by
  intro scope scope' s s' a later halike hread _
  have hrest : (opRest text.toList s.rest).map unplacedAll =
      (opRest text.toList s'.rest).map unplacedAll := by
    rw [← opRest_unplaced, ← opRest_unplaced, halike.rest]
  cases hfirst : opRest text.toList s.rest with
  | none =>
      obtain ⟨failure, hfail⟩ := op_of_none hfirst scope
      rw [hfail] at hread
      cases hread
  | some more =>
      rw [hfirst] at hrest
      obtain ⟨more', hsecond, hmore⟩ := Option.map_eq_some_iff.mp hrest.symm
      obtain ⟨read, hop⟩ := op_of_some hfirst scope
      obtain ⟨read', hop'⟩ := op_of_some hsecond scope'
      rw [hop] at hread
      cases hread
      exact ⟨(), _, hop', rfl, ⟨hmore.symm, halike.leftover, halike.leftover'⟩⟩

theorem op? (text : String) : Carries (fun _ => True) id (Grammar.op? text) (Grammar.op? text) := by
  refine ahead fun ts ts' hts => ?_
  exact ite (atOp_congr hts text) (bind_any (op text) fun _ _ _ => pure rfl) (pure rfl)

theorem anyWord : Carries (fun _ => True) (·.1) Grammar.anyWord Grammar.anyWord := by
  refine ahead fun ts ts' hts => ?_
  rcases ts with _ | ⟨⟨p, w | _ | _⟩ | _, ts⟩
  case cons.leaf.word =>
    obtain ⟨q, more, rfl, hmore⟩ := unplacedAll_eq_leaf.mp hts.symm
    intro scope scope' s s' a later halike hread _
    cases hread
    exact ⟨(w, q), _, rfl, rfl, ⟨hmore.symm, halike.leftover, halike.leftover'⟩⟩
  all_goals exact never (.failExpected _)

theorem name : Carries (fun _ => True) (·.1) Grammar.name Grammar.name := by
  refine ahead fun ts ts' hts => ?_
  rcases ts with _ | ⟨⟨p, w | _ | _⟩ | _, ts⟩
  case cons.leaf.word =>
    obtain ⟨q, more, rfl, hmore⟩ := unplacedAll_eq_leaf.mp hts.symm
    refine ite rfl ?_ (never (.fail _))
    intro scope scope' s s' a later halike hread _
    cases hread
    exact ⟨(w, q), _, rfl, rfl, ⟨hmore.symm, halike.leftover, halike.leftover'⟩⟩
  all_goals exact never (.failExpected _)

theorem nameOr (allowed : List String) :
    Carries (fun _ => True) (·.1) (Grammar.nameOr allowed) (Grammar.nameOr allowed) := by
  exact ahead fun ts ts' hts => ite (anyKeyword_congr hts allowed) anyWord name

section

variable {test : List TokenTree → Bool} (htest : ∀ ts, test (unplacedAll ts) = test ts)
  (hx : Carries P key x y) {acc acc' : List α} (hacc : acc.map key = acc'.map key)

include htest hx hacc

theorem whileStep : Carries (fun next => ∀ a ∈ next.2, P a) (fun next => (next.1, next.2.map key))
    (Grammar.whileStep test x acc) (Grammar.whileStep test y acc') := by
  refine ahead fun ts ts' hts => ite ?_ (bind hx ?_ ?_) (pure (by rw [hacc]))
  · rw [← htest, hts, htest]
  · exact fun a ha => .pure fun hall => ha (hall a (by simp))
  · exact fun a b _ hkey => pure (by simp [hkey, hacc])

/-- What was read stays among what is read in the end, so all rounds give values in `P` if the whole
does. -/
theorem whileLoop (fuel : Nat) : Carries (fun found => ∀ a ∈ found, P a) (List.map key)
    (loopFrom fuel (Grammar.whileStep test x) acc)
    (loopFrom fuel (Grammar.whileStep test y) acc') := by
  have hkept : ∀ fuel acc, (¬ ∀ a ∈ acc, P a) →
      Returns (fun found => ¬ ∀ a ∈ found, P a) (loopFrom fuel (Grammar.whileStep test x) acc) := by
    intro fuel acc hacc
    refine Returns.loopFrom fuel hacc fun acc hacc => .bind fun _ => .ite (.bind fun a => .pure ?_)
      (.pure hacc)
    exact fun hall => hacc (List.forall_mem_cons.mp hall).2
  induction fuel generalizing acc acc' with
  | zero => exact pure hacc
  | succ fuel ih =>
      refine bind (whileStep htest hx hacc) ?_ ?_
      · exact fun next hnext => .ite (hkept fuel next.2 hnext) (.pure hnext)
      · intro next next' _ hkey
        obtain ⟨hmore, hfound⟩ := Prod.mk.inj hkey
        exact ite hmore (ih hfound) (pure hfound)

end

/-- Pieces are read one after another as long as a test holds that does not go by places. -/
theorem whileAt {test : List TokenTree → Bool} (htest : ∀ ts, test (unplacedAll ts) = test ts)
    (hx : Carries P key x y) :
    Carries (fun found => ∀ a ∈ found, P a) (List.map key) (Grammar.whileAt test x)
      (Grammar.whileAt test y) := by
  have hloop : Carries (fun found => ∀ a ∈ found, P a) (List.map key)
      (loop [] (Grammar.whileStep test x)) (loop [] (Grammar.whileStep test y)) := by
    refine ahead fun ts ts' hts => ?_
    rw [length_congr hts]
    exact whileLoop htest hx rfl _
  rw [whileAt_eq, whileAt_eq]
  refine bind hloop ?_ ?_
  · exact fun found hfound => .pure (by simpa using hfound)
  · exact fun found found' _ hkey => pure (by simp [List.map_reverse, hkey])

end Carries

variable {g g' : Readers}

/-- A segment without arguments. -/
theorem carries_segment :
    Carries (fun found => found.2.2 = false) (fun found => (found.1, found.2.2))
    (segment g false) (segment g' false) := by
  refine .ahead fun ts ts' hts => .ite (anyKeyword_congr hts _) (.bind_any .anyWord ?_)
    (.bind_any (.nameOr _) ?_)
  · exact fun word word' hword => .pure (by simpa using hword)
  · intro word word' hword
    refine .ahead fun ts ts' hts => .ite ?_ (.never ?_) (.pure (by simpa using hword))
    · simp only [atOp_congr hts, atOp_congr (behind_congr (behind_congr hts))]
    · exact .bind fun _ => .pure (by simp)

theorem carries_moreSegments : Carries (fun found => ∀ s ∈ found, s.2.2 = false)
    (List.map fun s => (s.1, s.2.2)) (moreSegments g false) (moreSegments g' false) := by
  refine .whileAt ?_ (.bind_any (.op _) fun _ _ _ => carries_segment)
  intro ts
  rw [atOp_unplaced, behind_unplaced, behind_unplaced, atParen, atGroup_unplaced]

/-- What a path is known by: whether it begins at the root of all names, and its words. -/
def PathShape.words (shape : PathShape) : Bool × List String :=
  (shape.path.leadingColon, shape.path.segments)

theorem carries_path : Carries (fun shape => shape.plain = true)
    (fun shape => (shape.words, shape.plain)) (path g false) (path g' false) := by
  refine .bind_any (.op? _) fun leading leading' hleading => ?_
  refine .bind carries_segment ?_ ?_
  · intro first hfirst
    exact .bind fun more => .pure (by simp [shapeOf, hfirst])
  · intro first first' _ hfirst
    refine .bind carries_moreSegments ?_ ?_
    · intro more hmore
      refine .pure fun hplain => hmore ?_
      simp only [shapeOf, List.all_cons, Bool.and_eq_true] at hplain
      simpa using hplain.2
    · intro more more' _ hmore
      obtain ⟨hword, hplain⟩ := Prod.mk.inj hfirst
      have hwords : more.map (·.1) = more'.map (·.1) := by
        simpa [List.map_map, Function.comp_def] using congrArg (List.map (·.1)) hmore
      have hplains : more.map (·.2.2) = more'.map (·.2.2) := by
        simpa [List.map_map, Function.comp_def] using congrArg (List.map (·.2)) hmore
      have hall : more.all (!·.2.2) = more'.all (!·.2.2) := by
        simpa [List.all_map, Function.comp_def] using congrArg (List.all · (!·)) hplains
      refine .pure ?_
      simp only [PathShape.words, shapeOf, List.map_cons, List.all_cons, hword,
        hwords, hplain, hall]
      rw [show leading = leading' from hleading]

/-- A path without arguments has the same words wherever its tokens stand. -/
theorem parsePathTokens_alike {ts ts' : List TokenTree} (hts : unplacedAll ts = unplacedAll ts')
    {shape : PathShape} (h : parsePathTokens ts = .ok shape) (hplain : shape.plain = true) :
    ∃ shape', parsePathTokens ts' = .ok shape' ∧ shape'.plain = true ∧
    shape'.words = shape.words := by
  obtain ⟨state, hvalue, -, hrest⟩ := readAll_eq_ok_iff.mp h
  have hstart : Alike ⟨ts, [], none⟩ ⟨ts', [], none⟩ := ⟨hts, rfl, rfl⟩
  obtain ⟨shape', state', hread, hkey, halike⟩ :=
    @carries_path _ (ofDepth (8 * countAll ts' + 16)) _ ⟨.first, none⟩ _ _ shape state
      hstart hvalue hplain
  obtain ⟨hwords, hplain'⟩ := Prod.mk.inj hkey
  have hend : state'.rest = [] := by
    have hsame := halike.rest
    rw [hrest] at hsame
    exact unplacedAll_eq_nil.mp hsame.symm
  have hread' : parsePathTokens ts' = .ok shape' :=
    readAll_eq_ok_iff.mpr ⟨state', hread, halike.leftover', hend⟩
  exact ⟨shape', hread', by rw [← hplain', hplain], hwords.symm⟩

end MarkerIndex.Grammar
