import MarkerIndex.Config.Validation
import MarkerIndex.Proofs.GeneratedTokens
import MarkerIndex.Proofs.MarkerWords
import MarkerIndex.Proofs.Parsing
import MarkerIndex.Proofs.Pass
/-!
When the generated text is source. The grammar takes the text of a pass exactly where no requested
marker ends in a keyword; then it is one module with one type and one constant for each marker. Such
a marker is what a directive means whose path ends in a keyword, `self` at the root of a crate the
shortest of them, and nothing on the way to the text refuses it.
-/

namespace MarkerIndex

namespace Grammar

open TokenTree Emission

/-- A round of the reading of elements with commas between. -/
def commaStep (n : Nat) (acc : List ExprShape) : Reader (Bool × List ExprShape) := do
  if List.isEmpty (← Grammar.rest) then return (false, acc)
  else
    let value ← ofDepth (n + 2) (.expr true)
    if List.isEmpty (← Grammar.rest) then return (false, value :: acc)
    else
      op ","
      return (true, value :: acc)

/-- All the names of a list are read, each with the comma behind it. -/
theorem loops_commaStep (n : Nat) {names : List String} {content : List TokenTree}
    (h : unplacedAll content = nameTrees names) (acc : List ExprShape) :
    ∃ shapes, Loops (commaStep n) acc content shapes [] := by
  induction names generalizing content acc with
  | nil =>
      obtain rfl := unplacedAll_eq_nil.mp h
      exact ⟨acc, .refl _ _⟩
  | cons name names ih =>
      simp only [nameTrees, List.flatMap_cons, List.cons_append, List.nil_append, TokenTree.literal,
        TokenTree.mark, unplacedAll_eq_leaf] at h
      obtain ⟨p, _, rfl, q, more, rfl, h⟩ := h
      obtain ⟨shapes, hmore⟩ := ih h (.other :: acc)
      have hlt : more.length < (TokenTree.leaf p (.literal (Text.Quoted.encode name)) ::
          .leaf q (.punct ',' false) :: more).length :=
        Nat.lt_of_lt_of_le (Nat.lt_succ_self _) (Nat.le_succ _)
      exact ⟨shapes, .more (fun _ _ _ => ⟨_, rfl⟩) hlt hmore⟩

theorem reads_commaList (n : Nat) {names : List String} {content : List TokenTree}
    (h : unplacedAll content = nameTrees names) :
    ∃ shapes, Reads (commaList (ofDepth (n + 2) (.expr true))) content shapes [] := by
  obtain ⟨shapes, hloops⟩ := loops_commaStep n h []
  have hround : Reads (commaStep n shapes) [] (false, shapes) [] := fun _ _ _ => ⟨_, rfl⟩
  exact ⟨shapes.reverse, .bind (.loop hloops hround) (.refl _ _)⟩

theorem reads_arrayContent (n : Nat) {names : List String} {content : List TokenTree}
    (h : unplacedAll content = nameTrees names) :
    Reads (arrayContent (ofDepth (n + 2))) content () [] := by
  cases names with
  | nil =>
      obtain rfl := unplacedAll_eq_nil.mp h
      exact fun _ _ _ => ⟨_, rfl⟩
  | cons name names =>
      simp only [nameTrees, List.flatMap_cons, List.cons_append, List.nil_append, TokenTree.literal,
        TokenTree.mark, unplacedAll_eq_leaf] at h
      obtain ⟨p, _, rfl, q, more, rfl, h⟩ := h
      obtain ⟨shapes, hmore⟩ := reads_commaList n h
      -- behind the first name and its comma the others are a list of their own
      have hfront : Becomes (arrayContent (ofDepth (n + 2)))
          (.leaf p (.literal (Text.Quoted.encode name)) :: .leaf q (.punct ',' false) :: more)
          (commaList (ofDepth (n + 2) (.expr true)) >>= fun _ => pure ()) more :=
        fun _ _ _ => ⟨_, rfl⟩
      exact .trans hfront (.bind hmore (.refl _ _))

/-- The value of a constant. -/
theorem reads_value (n : Nat) {names : List String} {content : List TokenTree}
    (h : unplacedAll content = nameTrees names) (p q q' r : Position) (j j' : Bool)
    (after : List TokenTree) :
    Reads (ofDepth (n + 5) (.expr true))
      (.leaf p (.punct '&' j) :: .group .bracket q q' content :: .leaf r (.punct ';' j') :: after)
        .other
      (.leaf r (.punct ';' j') :: after) := by
  let list : TokenTree := .group .bracket q q' content
  let last : TokenTree := .leaf r (.punct ';' j')
  have hatom :
      Reads (atom (ofDepth (n + 2)) true) (list :: last :: after) .other (last :: after) := by
    have hend : Becomes (atom (ofDepth (n + 2)) true) (list :: last :: after)
        (brackets (arrayContent (ofDepth (n + 2))) >>= fun _ => pure .other)
        (list :: last :: after) :=
      fun _ _ _ => ⟨_, rfl⟩
    exact .trans hend (.bind (.group (reads_arrayContent n h)) (.refl _ _))
  have hlist :
      Reads (ofDepth (n + 3) (.unary true)) (list :: last :: after) .other (last :: after) := by
    change Reads (unaryRule (ofDepth (n + 2)) true) _ _ _
    unfold unaryRule
    refine .bind (a := q) (fun _ _ _ => ⟨_, rfl⟩)
      (.bind (a := []) (fun _ _ _ => ⟨_, rfl⟩) (.ahead ?_))
    refine .ite_false rfl (.ite_false rfl (.bind hatom ?_))
    exact fun _ _ _ => ⟨_, rfl⟩
  have hreference :
      Reads (ofDepth (n + 4) (.unary true)) (.leaf p (.punct '&' j) :: list :: last :: after)
      .other (last :: after) := by
    have hand : Becomes (ofDepth (n + 4) (.unary true))
        (.leaf p (.punct '&' j) :: list :: last :: after)
        (ofDepth (n + 3) (.unary true) >>= fun _ => pure .other) (list :: last :: after) :=
      fun _ _ _ => ⟨_, rfl⟩
    exact .trans hand (.bind hlist (.refl _ _))
  exact .bind hreference fun _ _ _ => ⟨_, rfl⟩

/-- The type of every constant. -/
theorem reads_type (n : Nat) {found : List TokenTree} (h : unplacedAll found = typeTrees)
    (r : Position) (j : Bool) (after : List TokenTree) :
    Reads (ofDepth (n + 6) (.type true)) (found ++ .leaf r (.punct '=' j) :: after) .other
      (.leaf r (.punct '=' j) :: after) := by
  simp only [typeTrees, TokenTree.word, TokenTree.joined, TokenTree.bracketed, unplacedAll_eq_nil,
    unplacedAll_eq_leaf, unplacedAll_eq_group] at h
  obtain ⟨_, _, rfl, _, _, rfl, _, _, rfl, _, _, _, _, rfl,
    ⟨_, _, rfl, _, _, rfl, _, _, rfl, _, _, rfl, rfl⟩, rfl⟩ := h
  intro _ _ leftover
  cases leftover <;> exact ⟨_, rfl⟩

/-- Of the words of paths, only those that are keywords there are keywords anywhere. -/
theorem atKeyword_segment {w : String} (h : IsSegment w) {k : String}
    (hk : keywords.contains k = true) (hother : k ∉ segmentWords) (p : Position)
    (ts : List TokenTree) : atKeyword k (.leaf p (.word w) :: ts) = false := by
  rcases h with h | h
  · exact atKeyword_name h hk p
  · have hne : w ≠ k := fun heq => hother (heq ▸ h)
    exact decide_eq_false hne

/-- No function lies ahead of a constant. -/
theorem reads_atSignature {w : String} (h : IsSegment w) (p q : Position) (ts : List TokenTree) :
    Reads (atSignature false) (.leaf p (.word "const") :: .leaf q (.word w) :: ts) false
      (.leaf p (.word "const") :: .leaf q (.word w) :: ts) := by
  have hasync := atKeyword_segment h (k := "async") rfl (by decide) q ts
  have hunsafe := atKeyword_segment h (k := "unsafe") rfl (by decide) q ts
  have hextern := atKeyword_segment h (k := "extern") rfl (by decide) q ts
  have hfunction := atKeyword_segment h (k := "fn") rfl (by decide) q ts
  have hqualifiers : Reads (functionQualifiers false)
      (.leaf p (.word "const") :: .leaf q (.word w) :: ts) () (.leaf q (.word w) :: ts) := by
    unfold functionQualifiers
    refine .bind (fun _ _ _ => ⟨_, rfl⟩) (.bind (.keyword?_absent hasync) (.ahead ?_))
    refine .ite_false rfl (.bind (.keyword?_absent hunsafe) (.bind (a := false) ?_ (.refl _ _)))
    exact .bind (.keyword?_absent hextern) (.refl _ _)
  unfold atSignature
  refine .bind (.restAfter hqualifiers) ?_
  rw [hfunction]
  exact .refl _ _

/-- A constant with its type and list, behind its keyword. -/
theorem reads_constItem (n : Nat) {e : ListEntry} (hname : isName e.bindingName = true)
    {found : List TokenTree} (h : unplacedAll found = constantTrees e) (after : List TokenTree) :
    Reads (constItem (ofDepth (n + 6))) (found ++ after) (e.bindingName, true) after := by
  simp only [constantTrees, List.nil_append, List.cons_append, TokenTree.word, TokenTree.mark,
    TokenTree.bracketed, unplacedAll_eq_nil, unplacedAll_eq_leaf, unplacedAll_eq_group,
    unplacedAll_eq_append] at h
  obtain ⟨_, _, rfl, _, _, rfl, _, _, rfl, htype, _, _, rfl, _, _, rfl, _, _, _, _, rfl, hcontent,
    _, _, rfl, rfl⟩ := h
  simp only [List.cons_append, List.append_assoc, List.nil_append]
  have hatName (p : Position) (ts : List TokenTree) :
      atName (.leaf p (.word e.bindingName) :: ts) = true :=
    hname
  unfold constItem
  refine .ahead ?_
  simp only [hatName, Bool.true_or, Bool.not_true, Bool.false_eq_true, ↓reduceIte]
  -- its name, no parameters and the colon
  refine .bind (fun _ _ _ => ⟨_, rfl⟩)
    (.bind (fun _ _ _ => ⟨_, rfl⟩) (.bind (fun _ _ _ => ⟨_, rfl⟩) ?_))
  refine .bind (reads_type n htype _ _ _) (.bind (fun _ _ _ => ⟨_, rfl⟩) ?_)
  refine .bind (reads_value (n + 1) hcontent _ _ _ _ _ _ _) ?_
  exact .bind (fun _ _ _ => ⟨_, rfl⟩) (.bind (fun _ _ _ => ⟨_, rfl⟩) (.refl _ _))

/-- A keyword cannot be the name of a constant. -/
theorem fails_constItem (g : Readers) {e : ListEntry} (hname : e.bindingName ∈ segmentWords)
    {found : List TokenTree} (h : unplacedAll found = constantTrees e) (after : List TokenTree) :
    Fails (constItem g) (found ++ after) := by
  simp only [constantTrees, List.cons_append, TokenTree.word, unplacedAll_eq_leaf] at h
  obtain ⟨p, more, rfl, -⟩ := h
  have hkeyword :
      ∀ w ∈ segmentWords, Fails (constItem g) (.leaf p (.word w) :: (more ++ after)) := by
    simp only [segmentWords, List.forall_mem_cons, List.not_mem_nil, false_imp_iff, implies_true,
      and_true]
    exact ⟨fun _ _ _ => ⟨_, rfl⟩, fun _ _ _ => ⟨_, rfl⟩, fun _ _ _ => ⟨_, rfl⟩,
      fun _ _ _ => ⟨_, rfl⟩, fun _ _ _ => ⟨_, rfl⟩⟩
  exact hkeyword _ hname

/-- The documentation of a constant and the words in front of its name are passed by. -/
theorem becomes_member (n : Nat) {e : ListEntry} (hname : IsSegment e.bindingName)
    {found : List TokenTree} (h : unplacedAll found = entryTrees e) (after : List TokenTree) :
    ∃ constant, unplacedAll constant = constantTrees e ∧
      Becomes (implementationMember (ofDepth (n + 6))) (found ++ after)
        (constItem (ofDepth (n + 6)) >>= fun _ => pure none) (constant ++ after) := by
  simp only [entryTrees, ofDoc, Bool.false_eq_true, ↓reduceIte, List.nil_append, List.cons_append,
    TokenTree.word, unplacedAll_eq_nil, unplacedAll_eq_leaf, unplacedAll_eq_group] at h
  obtain ⟨_, _, rfl, _, _, _, _, rfl, ⟨_, _, rfl, _, _, rfl, _, _, rfl, rfl⟩, _, _, rfl, _, _, rfl,
    hconstant⟩ := h
  refine ⟨_, hconstant, ?_⟩
  simp only [constantTrees, List.cons_append, TokenTree.word, unplacedAll_eq_leaf] at hconstant
  obtain ⟨_, _, rfl, -⟩ := hconstant
  simp only [List.cons_append]
  unfold implementationMember
  refine .bind (fun _ _ leftover => by cases leftover <;> exact ⟨_, rfl⟩) ?_
  refine .bind (fun _ _ _ => ⟨_, rfl⟩) (.ahead (.bind (fun _ _ _ => ⟨_, rfl⟩) (.ahead ?_)))
  refine .bind (reads_atSignature hname _ _ _) (.ite_false rfl (.ite_true rfl ?_))
  exact .bind (fun _ _ _ => ⟨_, rfl⟩) (.refl _ _)

theorem reads_member (n : Nat) {e : ListEntry} (hname : isName e.bindingName = true)
    {found : List TokenTree} (h : unplacedAll found = entryTrees e) (after : List TokenTree) :
    Reads (implementationMember (ofDepth (n + 6))) (found ++ after) none after := by
  obtain ⟨constant, hconstant, hmember⟩ := becomes_member n (Or.inl hname) h after
  exact .trans hmember (.bind (reads_constItem n hname hconstant after) (.refl _ _))

theorem fails_member (n : Nat) {e : ListEntry} (hname : e.bindingName ∈ segmentWords)
    {found : List TokenTree} (h : unplacedAll found = entryTrees e) (after : List TokenTree) :
    Fails (implementationMember (ofDepth (n + 6))) (found ++ after) := by
  obtain ⟨constant, hconstant, hmember⟩ := becomes_member n (Or.inr hname) h after
  exact .of_becomes hmember ((fails_constItem _ hname hconstant after).bind _)

theorem length_lt_of_entryTrees {e : ListEntry} {front : List TokenTree}
    (h : unplacedAll front = entryTrees e) (back : List TokenTree) :
    back.length < (front ++ back).length := by
  cases front with
  | nil => cases h
  | cons t front =>
      rw [List.length_append]
      exact Nat.lt_add_of_pos_left (Nat.succ_pos _)

theorem reads_members (n : Nat) {entries : List ListEntry}
    (hnames : ∀ e ∈ entries, isName e.bindingName = true) {found : List TokenTree}
    (h : unplacedAll found = entries.flatMap entryTrees) :
    Repeats (implementationMember (ofDepth (n + 6))) found (entries.map fun _ => none) [] := by
  induction entries generalizing found with
  | nil =>
      obtain rfl := unplacedAll_eq_nil.mp h
      exact .refl _
  | cons e entries ih =>
      obtain ⟨hname, hnames⟩ := List.forall_mem_cons.mp hnames
      rw [List.flatMap_cons] at h
      obtain ⟨front, back, rfl, hfront, hback⟩ := unplacedAll_eq_append.mp h
      exact .more (reads_member n hname hfront back) (length_lt_of_entryTrees hfront back)
        (ih hnames hback)

/-- The constants are read up to the first that is called by a keyword. -/
theorem fails_members (n : Nat) {entries : List ListEntry}
    (hnames : ∀ e ∈ entries, IsSegment e.bindingName)
    (hkeyword : ∃ e ∈ entries, e.bindingName ∈ segmentWords) {found : List TokenTree}
    (h : unplacedAll found = entries.flatMap entryTrees) :
    ∃ before ahead, Repeats (implementationMember (ofDepth (n + 6))) found before ahead ∧
      ahead.isEmpty = false ∧ Fails (implementationMember (ofDepth (n + 6))) ahead := by
  induction entries generalizing found with
  | nil => simp at hkeyword
  | cons e entries ih =>
      obtain ⟨hname, hnames⟩ := List.forall_mem_cons.mp hnames
      rw [List.flatMap_cons] at h
      obtain ⟨front, back, rfl, hfront, hback⟩ := unplacedAll_eq_append.mp h
      by_cases hword : e.bindingName ∈ segmentWords
      · refine ⟨[], _, .refl _, ?_, fails_member n hword hfront back⟩
        cases front with
        | nil => cases hfront
        | cons t front => rfl
      · have hname : isName e.bindingName = true := hname.resolve_right hword
        have hlater : ∃ e ∈ entries, e.bindingName ∈ segmentWords := by
          obtain ⟨other, member, hother⟩ := hkeyword
          rcases List.mem_cons.mp member with rfl | member
          · exact absurd hother hword
          · exact ⟨other, member, hother⟩
        obtain ⟨before, ahead, hbefore, hahead⟩ := ih hnames hlater hback
        exact ⟨_, ahead, .more (reads_member n hname hfront back)
          (length_lt_of_entryTrees hfront back) hbefore, hahead⟩

/-- The documentation of a constant stands outside of it. -/
theorem reads_innerAttributes (g : Readers) {entries : List ListEntry} {found : List TokenTree}
    (h : unplacedAll found = entries.flatMap entryTrees) :
    Reads (innerAttributes g) found [] found := by
  cases entries with
  | nil =>
      obtain rfl := unplacedAll_eq_nil.mp h
      exact fun _ _ _ => ⟨_, rfl⟩
  | cons e entries =>
      simp only [List.flatMap_cons, entryTrees, ofDoc, Bool.false_eq_true, ↓reduceIte,
        List.nil_append, List.cons_append, unplacedAll_eq_leaf, unplacedAll_eq_group] at h
      obtain ⟨_, _, rfl, _, _, _, _, rfl, -, -⟩ := h
      exact fun _ _ _ => ⟨_, rfl⟩

/-- The name of a type stands for itself, and is all that is taken. -/
theorem type_apply (n : Nat) {w : String} (h : isName w = true) (p q q' : Position)
    (content ts read : List TokenTree) (scope : Scope)
    (leftover : Option (Position × Option Delimiter)) :
    (ofDepth (n + 1)).type scope ⟨.leaf p (.word w) :: .group .brace q q' content :: ts,
      read, leftover⟩ =
      .ok (.path ⟨⟨false, [w], p.line⟩, true, true, false⟩,
        ⟨.group .brace q q' content :: ts, .leaf p (.word w) :: read, leftover⟩) := by
  let behind := .group .brace q q' content :: ts
  let whole := .leaf p (.word w) :: behind
  let state : State := ⟨whole, read, leftover⟩
  let later : State := ⟨behind, .leaf p (.word w) :: read, leftover⟩
  have hword {k : String} (hk : keywords.contains k = true) : atKeyword k whole = false :=
    atKeyword_name h hk p
  have hsegment : segment (ofDepth n) false scope state = .ok ((w, p, false), later) := by
    have hnone : ["super", "self", "crate", "try"].any (atKeyword · whole) = false := by
      simp only [List.any_cons, hword (k := "super") rfl, hword (k := "self") rfl,
        hword (k := "crate") rfl, hword (k := "try") rfl]
      rfl
    rw [segment, ahead_apply, if_neg (Bool.eq_false_iff.mp hnone)]
    exact bind_apply (nameOr_apply h _ p _ _ _ _) _
  have hpath : qualifiedPath (ofDepth n) false scope state =
      .ok (⟨⟨false, [w], p.line⟩, true, true, false⟩, later) :=
    bind_apply hsegment fun first => do
      return shapeOf false false (first :: (← moreSegments (ofDepth n) false))
  have hfunction : (atKeyword "fn" whole || atKeyword "unsafe" whole ||
      atKeyword "extern" whole) = false := by
    rw [hword (k := "fn") rfl, hword (k := "unsafe") rfl, hword (k := "extern") rfl]
    rfl
  have hparen : ¬ atParen whole = true := Bool.false_ne_true
  have hname : (atPathWord whole || atOp "::" whole || atOp "<" whole) = true := by
    simp [atPathWord, show atName whole = true from h]
  change typeRule (ofDepth n) true scope state = _
  rw [typeRule, ahead_apply, if_neg (Bool.eq_false_iff.mp (hword rfl)), typeBody, ahead_apply,
    if_neg hparen, if_neg (Bool.eq_false_iff.mp hfunction), if_pos hname]
  exact bind_apply hpath _

/-- What the constants belong to is read down to them. -/
theorem becomes_implementation (n : Nat) {w : String} (h : isName w = true) (p q r s : Position)
    (found after : List TokenTree) :
    Becomes (implementation (ofDepth (n + 6)))
      (.leaf p (.word "impl") :: .leaf q (.word w) :: .group .brace r s found :: after)
      (braces (do
        let _ ← innerAttributes (ofDepth (n + 6))
        untilEnd (implementationMember (ofDepth (n + 6)))) >>= fun functions =>
          pure (.implementation w (functions.filterMap id)))
      (.group .brace r s found :: after) := by
  let braced := .group .brace r s found :: after
  let whole := .leaf q (.word w) :: braced
  have htype : Reads (recorded (ofDepth (n + 6)).type) whole
      (.path ⟨⟨false, [w], q.line⟩, true, true, false⟩, [.leaf q (.word w)]) braced :=
    .recorded fun scope leftover => type_apply (n + 5) h q r s found after [] scope leftover
  have hconstant : (atKeyword "const" whole ||
      (atOp "?" whole && atKeyword "const" (behind whole))) = false := by
    rw [atKeyword_name h rfl q]
    rfl
  unfold implementation
  refine .bind (a := false) (fun _ _ _ => ⟨_, rfl⟩) (.bind (a := false) (fun _ _ _ => ⟨_, rfl⟩)
    (.bind (a := false) (fun _ _ _ => ⟨_, rfl⟩) (.bind (a := ()) (fun _ _ _ => ⟨_, rfl⟩) ?_)))
  refine .ahead (.ite_false rfl (.ahead (.ite_false hconstant (.ahead (.ite_false rfl ?_)))))
  refine .bind htype (.ahead ?_)
  refine .bind (a := false) (fun _ _ _ => ⟨_, rfl⟩)
    (.bind (a := ((), [])) (fun _ _ _ => ⟨_, rfl⟩) ?_)
  refine .bind (a := false) (fun _ _ _ => ⟨_, rfl⟩) ?_
  refine .bind_congr (fun functions => ?_) _
  exact if_neg (Bool.eq_false_iff.mp hconstant)

theorem reads_structure (n : Nat) {w : String} (h : isName w = true) (attributes : List Attribute)
    (p q r s : Position) (j : Bool) (after : List TokenTree) :
    Reads (ofDepth (n + 1) (.item attributes)) (.leaf p (.word "pub") :: .leaf q (.word "struct") ::
      .leaf r (.word w) :: .leaf s (.punct ';' j) :: after) (.declaration w) after := by
  let whole : List TokenTree := .leaf p (.word "pub") :: .leaf q (.word "struct") ::
    .leaf r (.word w) :: .leaf s (.punct ';' j) :: after
  have hitem : Becomes (ofDepth (n + 1) (.item attributes)) whole
      (namedItem (ofDepth n) "struct" (structureBody (ofDepth n))) whole :=
    fun _ _ _ => ⟨_, rfl⟩
  refine .trans hitem ?_
  unfold namedItem
  refine .bind (fun _ _ _ => ⟨_, rfl⟩) (.bind (fun _ _ _ => ⟨_, rfl⟩) (.bind (.name h r) ?_))
  exact .bind (a := false) (fun _ _ _ => ⟨_, rfl⟩)
    (.bind (a := ()) (fun _ _ _ => ⟨_, rfl⟩) (.refl _ _))

/-- The type and what belongs to it are two items. The second is read down to the constants. -/
theorem becomes_content (n : Nat) {container : String} (h : isName container = true)
    {entries : List ListEntry} {found : List TokenTree}
    (hfound : unplacedAll found = contentTrees container entries) :
    ∃ ahead p q body, unplacedAll body = entries.flatMap entryTrees ∧ ahead.isEmpty = false ∧
      Repeats (do ofDepth (n + 7) (.item (← outerAttributes (ofDepth (n + 7))))) found
        [.declaration container] ahead ∧
      Becomes (do ofDepth (n + 7) (.item (← outerAttributes (ofDepth (n + 7))))) ahead
        (braces (do
          let _ ← innerAttributes (ofDepth (n + 6))
          untilEnd (implementationMember (ofDepth (n + 6)))) >>= fun functions =>
            pure (.implementation container (functions.filterMap id)))
        [.group .brace p q body] := by
  simp only [contentTrees, TokenTree.word, TokenTree.mark, TokenTree.bracketed, unplacedAll_eq_nil,
    unplacedAll_eq_leaf, unplacedAll_eq_group] at hfound
  obtain ⟨_, _, rfl, _, _, rfl, _, _, rfl, _, _, rfl, _, _, rfl, _, _, _, _, rfl,
    ⟨_, _, rfl, _, _, _, _, rfl, ⟨_, _, rfl, rfl⟩, rfl⟩, _, _, rfl, _, _, rfl, p, q, body, _, rfl,
    hbody, rfl⟩ := hfound
  refine ⟨_, p, q, body, hbody, ?_, .more (.bind (a := []) (fun _ _ _ => ⟨_, rfl⟩)
    (reads_structure (n + 6) h [] _ _ _ _ _ _)) ?_ (.refl _), ?_⟩
  · rfl
  · simp
  · have hitem (attributes : List Attribute) (ts : List TokenTree) (p : Position) :
        Becomes (ofDepth (n + 7) (.item attributes)) (.leaf p (.word "impl") :: ts)
          (implementation (ofDepth (n + 6))) (.leaf p (.word "impl") :: ts) :=
      fun _ _ _ => ⟨_, rfl⟩
    exact .bind (fun _ _ leftover => by cases leftover <;> exact ⟨_, rfl⟩)
      (.trans (hitem _ _ _) (becomes_implementation n h _ _ p q body []))

/-- The whole text is one module, which is read down to its inside. -/
theorem becomes_file (n : Nat) {s : Emission} (h : isName s.module = true)
    {entries : List ListEntry} {found : List TokenTree}
    (hfound : unplacedAll found = s.trees entries) :
    ∃ p q content, unplacedAll content = contentTrees s.container entries ∧ found.isEmpty = false ∧
      Becomes (do ofDepth (n + 8) (.item (← outerAttributes (ofDepth (n + 8))))) found
        (braces (do
          let inner ← innerAttributes (ofDepth (n + 7))
          return (inner, ← items (ofDepth (n + 7)))) >>= fun (inner, content) =>
            pure (.submodule s.module inner (some content)))
        [.group .brace p q content] := by
  simp only [trees, TokenTree.word, TokenTree.bracketed, unplacedAll_eq_nil, unplacedAll_eq_leaf,
    unplacedAll_eq_group] at hfound
  obtain ⟨_, _, rfl, _, _, rfl, r, _, rfl, start, close, content, _, rfl, hcontent, rfl⟩ := hfound
  refine ⟨start, close, content, hcontent, rfl, ?_⟩
  have hitem (p q : Position) (ts : List TokenTree) :
      Becomes (ofDepth (n + 8) (.item [])) (.leaf p (.word "pub") :: .leaf q (.word "mod") :: ts)
        (submodule (ofDepth (n + 7)) []) (.leaf q (.word "mod") :: ts) :=
    fun _ _ _ => ⟨_, rfl⟩
  refine .bind (a := []) (fun _ _ _ => ⟨_, rfl⟩) (.trans (hitem _ _ _) ?_)
  unfold submodule
  refine .bind (a := false) (fun _ _ _ => ⟨_, rfl⟩) (.bind (a := ()) (fun _ _ _ => ⟨_, rfl⟩)
    (.bind (.nameOr h _ r) (.ahead (.ite_false rfl (.ite_true rfl ?_)))))
  exact .refl _ _

/-- No attribute of the module stands inside of it. -/
theorem reads_innerAttributes_content (g : Readers) {container : String} {entries : List ListEntry}
    {content : List TokenTree} (h : unplacedAll content = contentTrees container entries) :
    Reads (innerAttributes g) content [] content := by
  simp only [contentTrees, TokenTree.word, unplacedAll_eq_leaf] at h
  obtain ⟨_, _, rfl, _⟩ := h
  exact fun _ _ _ => ⟨_, rfl⟩

theorem reads_innerAttributes_file (g : Readers) {s : Emission} {entries : List ListEntry}
    {found : List TokenTree} (h : unplacedAll found = s.trees entries) :
    Reads (innerAttributes g) found [] found := by
  simp only [trees, TokenTree.word, unplacedAll_eq_leaf] at h
  obtain ⟨_, _, rfl, _⟩ := h
  exact fun _ _ _ => ⟨_, rfl⟩

section

variable {s : Emission} (hmodule : isName s.module = true) (hcontainer : isName s.container = true)
  {entries : List ListEntry} {found : List TokenTree} (hfound : unplacedAll found = s.trees entries)

include hmodule hcontainer hfound

/-- Where all constants have names, the text is one module with one type that they belong to. -/
theorem reads_file (n : Nat) (hnames : ∀ e ∈ entries, isName e.bindingName = true) :
    Reads (file (ofDepth (n + 8))) found
      [.submodule s.module [] (some [.declaration s.container, .implementation s.container []])]
      [] := by
  obtain ⟨p, q, content, hcontent, hne, hitem⟩ := becomes_file n hmodule hfound
  obtain ⟨ahead, r, t, body, hbody, hahead, hfirst, hsecond⟩ :=
    becomes_content n hcontainer hcontent
  have hnone : (entries.map fun _ => (none : Option Function)).filterMap id = [] := by simp
  have himplementation :
      Reads (do ofDepth (n + 7) (.item (← outerAttributes (ofDepth (n + 7))))) ahead
      (.implementation s.container []) [] := by
    refine .trans hsecond (.bind (.group (.bind (reads_innerAttributes _ hbody)
      (Reads.untilEnd (reads_members n hnames hbody)))) ?_)
    rw [hnone]
    exact .refl _ _
  have hitems : Reads (items (ofDepth (n + 7))) content
      [.declaration s.container, .implementation s.container []] [] :=
    Reads.untilEnd (hfirst.append (.last himplementation hahead))
  have hmodule : Reads (do ofDepth (n + 8) (.item (← outerAttributes (ofDepth (n + 8))))) found
      (.submodule s.module [] (some [.declaration s.container, .implementation s.container []]))
      [] :=
    .trans hitem (.bind (.group (.bind (reads_innerAttributes_content _ hcontent)
      (.bind hitems (.refl _ _)))) (.refl _ _))
  exact .bind (reads_innerAttributes_file _ hfound) (Reads.untilEnd (.last hmodule hne))

/-- A constant that is called by a keyword makes the text no source. -/
theorem fails_file (n : Nat) (hnames : ∀ e ∈ entries, IsSegment e.bindingName)
    (hkeyword : ∃ e ∈ entries, e.bindingName ∈ segmentWords) :
    Fails (file (ofDepth (n + 8))) found := by
  obtain ⟨p, q, content, hcontent, hne, hitem⟩ := becomes_file n hmodule hfound
  obtain ⟨ahead, r, t, body, hbody, hahead, hfirst, hsecond⟩ :=
    becomes_content n hcontainer hcontent
  obtain ⟨before, constant, hbefore, hconstant, hfails⟩ := fails_members n hnames hkeyword hbody
  have hmembers : Fails (untilEnd (implementationMember (ofDepth (n + 6)))) body :=
    .untilEnd hbefore hconstant hfails
  have himplementation :
      Fails (do ofDepth (n + 7) (.item (← outerAttributes (ofDepth (n + 7))))) ahead :=
    .of_becomes hsecond (Fails.bind (.group
      (.of_becomes (.bind (reads_innerAttributes _ hbody) (.refl _ _)) hmembers)) _)
  have hitems : Fails (items (ofDepth (n + 7))) content := .untilEnd hfirst hahead himplementation
  have hmodule : Fails (do ofDepth (n + 8) (.item (← outerAttributes (ofDepth (n + 8))))) found :=
    .of_becomes hitem (Fails.bind (.group (.of_becomes
      (.bind (reads_innerAttributes_content _ hcontent) (.refl _ _)) (hitems.bind _))) _)
  exact .of_becomes (.bind (reads_innerAttributes_file _ hfound) (.refl _ _))
    (.untilEnd (.refl _) hne hmodule)

end

end Grammar

namespace Emission

open Grammar TokenTree

/-- The names of the constants for the grammar: all but the keywords among them. -/
structure Sound (s : Emission) (entries : List ListEntry) : Prop where
  module : isName s.module = true
  container : isName s.container = true
  nonempty : entries ≠ []
  markers : ∀ e ∈ entries, e.marker.Spells IsSegment

theorem isName_iff_of_isSegment {w : String} (h : IsSegment w) :
    w ∉ segmentWords ↔ isName w = true := by
  refine ⟨h.resolve_right, fun hname hword => ?_⟩
  have hnone : ∀ w ∈ segmentWords, isName w = false := by decide
  rw [hnone w hword] at hname
  cases hname

variable {s : Emission} {entries : List ListEntry}

theorem Sound.ofText (sound : s.Sound entries) : ∃ found,
    TokenTree.ofText (join (s.lines entries)).toList = .ok found ∧
      unplacedAll found = s.trees entries :=
  ofText_join (isWord_of_isSegment (Or.inl sound.module))
    (isWord_of_isSegment (Or.inl sound.container))
    sound.nonempty (fun e he word hword =>
      isWord_of_isSegment ((sound.markers e he).words word hword))
    fun e he => isWord_of_isSegment (sound.markers e he).simpleName

/-- Nothing stands in front of the text that a file may have there. -/
theorem parseFile_join (s : Emission) (entries : List ListEntry) :
    parseFile (join (s.lines entries)) = readText file (join (s.lines entries)).toList := by
  obtain ⟨rest, hrest⟩ : ∃ rest, (join (s.lines entries)).toList = '/' :: rest :=
    ⟨_, by simp [lines, join, header]; rfl⟩
  rw [parseFile, hrest]
  rfl

/-- The grammar takes the text exactly where no constant is called by a keyword. -/
theorem Sound.parses (sound : s.Sound entries) :
    (∀ e ∈ entries, isName e.bindingName = true) ∧ parseFile (join (s.lines entries)) = .ok
      [.submodule s.module [] (some [.declaration s.container, .implementation s.container []])] ∨
    (∃ e ∈ entries, e.bindingName ∈ segmentWords) ∧
      ∃ failure, parseFile (join (s.lines entries)) = .error failure := by
  obtain ⟨found, hfound, htrees⟩ := sound.ofText
  have hsegments : ∀ e ∈ entries, IsSegment e.bindingName :=
    fun e he => (sound.markers e he).simpleName
  have hread : parseFile (join (s.lines entries)) = readAll file .first found := by
    rw [parseFile_join, readText, hfound]
  rw [hread]
  by_cases hkeyword : ∃ e ∈ entries, e.bindingName ∈ segmentWords
  · exact Or.inr ⟨hkeyword, readAll_of_fails fun n =>
      fails_file sound.module sound.container htrees (n + 8) hsegments hkeyword⟩
  · have hnames : ∀ e ∈ entries, isName e.bindingName = true := fun e he =>
      (hsegments e he).resolve_right fun hword => hkeyword ⟨e, he, hword⟩
    exact Or.inl ⟨hnames, readAll_of_reads fun n =>
      reads_file sound.module sound.container htrees (n + 8) hnames⟩

theorem Sound.parses_iff (sound : s.Sound entries) :
    (∃ items, parseFile (join (s.lines entries)) = .ok items) ↔
      ∀ e ∈ entries, isName e.bindingName = true := by
  rcases sound.parses with ⟨hnames, hparse⟩ | ⟨⟨e, he, hword⟩, failure, hparse⟩
  · exact ⟨fun _ => hnames, fun _ => ⟨_, hparse⟩⟩
  · constructor
    · rintro ⟨items, hitems⟩
      rw [hparse] at hitems
      cases hitems
    · exact fun hnames => absurd hword ((isName_iff_of_isSegment (Or.inr hword)).mpr (hnames e he))

end Emission

namespace Text

/-- A name is written as it is or raw. -/
theorem eq_unraw_or_raw (s : String) : s = unraw s ∨ s = "r#" ++ unraw s := by
  unfold unraw
  split
  · next rest hs =>
      right
      rw [← String.toList_inj, hs]
      simp
  · exact Or.inl rfl

theorem unraw_raw (s : String) : unraw ("r#" ++ s) = s := by
  simp [unraw]

/-- Two spellings of one name are the same, or one is the other written raw. -/
theorem eq_or_raw_of_unraw_eq {s t : String} (h : unraw s = unraw t) :
    s = t ∨ t = "r#" ++ s ∨ s = "r#" ++ t := by
  rcases eq_unraw_or_raw s with hs | hs <;> rcases eq_unraw_or_raw t with ht | ht
  · exact Or.inl (by rw [hs, ht, h])
  · exact Or.inr (Or.inl (by rw [ht, ← h, ← hs]))
  · exact Or.inr (Or.inr (by rw [hs, h, ← ht]))
  · exact Or.inl (by rw [hs, ht, h])

/-- What is written raw is no raw name itself. -/
theorem unraw_of_isWord_raw {s : String} (h : IsWord ("r#" ++ s)) : unraw s = s := by
  rcases eq_unraw_or_raw s with hs | hs
  · exact hs.symm
  · rw [hs] at h
    simp [IsWord, Scan.nameEnd, Scan.startsWith, Scan.afterText, Scan.wordEnd,
      show isIdentStart 'r' = true by decide, show isIdentContinue '#' = false by decide] at h

end Text

namespace Pass

open Grammar

/-- The text is source that declares what it should: one module with one type, and on it a constant
for each entry. The constants have names, different ones even where a raw name is read as the plain
one. -/
structure IsSource (s : Emission) (entries : List ListEntry) (text : String) : Prop where
  names : ∀ e ∈ entries, isName e.bindingName = true
  distinct : (entries.map fun e => Text.unraw e.bindingName).Nodup
  items : parseFile text = .ok
    [.submodule s.module [] (some [.declaration s.container, .implementation s.container []])]
  tokens : ∃ found, TokenTree.ofText text.toList = .ok found ∧
    TokenTree.unplacedAll found = s.trees entries

/-- The text is source as it should be where its constants are called by names that differ. -/
theorem isSource_iff {s : Emission} {entries : List ListEntry} (sound : s.Sound entries) :
    IsSource s entries (Emission.join (s.lines entries)) ↔
      (∀ e ∈ entries, isName e.bindingName = true) ∧
        (entries.map fun e => Text.unraw e.bindingName).Nodup := by
  constructor
  · exact fun source => ⟨source.names, source.distinct⟩
  · rintro ⟨hnames, hdistinct⟩
    rcases sound.parses with ⟨-, hparse⟩ | ⟨⟨e, he, hword⟩, -⟩
    · exact ⟨hnames, hdistinct, hparse, sound.ofText⟩
    · exact absurd hword ((Emission.isName_iff_of_isSegment (Or.inr hword)).mpr (hnames e he))

/-- What generating a text has come past. -/
theorem of_generate {c : Corpus} {settings : Settings} {a : Artifact}
    (h : generate c settings = .ok (some a)) : ∃ report,
      analyze c settings = .ok report ∧
      Directive.markers c (firstTable c settings) settings = .ok report.markers ∧
      report.classification.entries.map (·.marker) = report.markers ∧
      Emission.emit ⟨settings.module, settings.container⟩ report.classification =
        .ok (some a.contents) := by
  obtain ⟨markers, hmarkers⟩ := exists_markers_of_generate h
  let report := reportOf c settings ((firstTable c settings).withExternal markers) markers
  refine ⟨report, analyze_eq_ok_iff.mpr ⟨hmarkers, rfl⟩, hmarkers, ?_, ?_⟩
  · simp only [report, reportOf, Classification.ofDeclarations, List.map_map]
    exact List.map_id markers
  · rw [generate_eq_of_markers hmarkers] at h
    split at h
    · cases h
    · obtain ⟨text, hemit, htext⟩ := Traversal.map_eq_ok_iff.mp h
      cases text with
      | none => cases htext
      | some text =>
          obtain rfl : ⟨settings.fileName, text⟩ = a := Option.some.inj htext
          exact hemit

theorem isName_of_declarableName {key value name : String}
    (h : Config.declarableName key value = .ok name) : isName name = true := by
  unfold Config.declarableName at h
  split at h
  · next hparse =>
      obtain rfl := Except.ok.inj h
      exact isName_of_parseName hparse
  · cases h

/-- Validated settings call the module and the type by names. -/
theorem isName_of_validate {config : Config} {settings : Settings}
    (h : config.validate = .ok settings) :
    isName settings.module = true ∧ isName settings.container = true := by
  simp only [Config.validate, Traversal.bind_eq_ok_iff] at h
  obtain ⟨_, -, _, -, module, hmodule, container, hcontainer, _, -, _, -, hsettings⟩ := h
  obtain rfl := Except.ok.inj hsettings
  exact ⟨isName_of_declarableName hmodule, isName_of_declarableName hcontainer⟩

/-- Constants of different markers have different names, if raw and plain spellings of one name do
not meet. -/
theorem nodup_unraw_iff {entries : List ListEntry} (hdistinct : (entries.map (·.marker)).Nodup)
    (hagree : Emission.NamesAgree entries) (hwords : ∀ e ∈ entries, Text.IsWord e.bindingName) :
    (entries.map fun e => Text.unraw e.bindingName).Nodup ↔
      ∀ e ∈ entries, ∀ f ∈ entries, f.bindingName ≠ "r#" ++ e.bindingName := by
  have hnames : (entries.map (·.bindingName)).Nodup := by
    refine List.pairwise_map.mpr ?_
    exact ((List.pairwise_map.mp hdistinct).and hagree).imp fun h hsame => h.1 (h.2 hsame)
  constructor
  · intro h e he f hf hraw
    have hplain : Text.unraw e.bindingName = e.bindingName :=
      Text.unraw_of_isWord_raw (hraw ▸ hwords f hf)
    have hsame : Text.unraw e.bindingName = Text.unraw f.bindingName := by
      rw [hplain, hraw, Text.unraw_raw]
    obtain rfl : e = f := List.inj_on_of_nodup_map h he hf hsame
    have hlength := congrArg String.length hraw
    simp at hlength
  · intro h
    refine (List.nodup_map_iff_inj_on (List.Nodup.of_map _ hdistinct)).mpr ?_
    intro e he f hf hsame
    rcases Text.eq_or_raw_of_unraw_eq hsame with heq | hraw | hraw
    · exact List.inj_on_of_nodup_map hnames he hf heq
    · exact absurd hraw (h e he f hf)
    · exact absurd hraw (h f hf e he)

/-- When everything generated is source. Nothing that a crate can ask lists for keeps a text from
being emitted where its name is a keyword, or where it is the raw spelling of another; the text of a
crate is source as it should be exactly if it asks for neither, and the grammar takes it exactly if
it asks for no marker that ends in a keyword. -/
theorem generated_isSource_iff {c : Corpus} (parsed : c.Parsed) {config : Config}
    {settings : Settings}
    (hsettings : config.validate = .ok settings) {a : Artifact}
    (h : generate c settings = .ok (some a)) : ∃ report, analyze c settings = .ok report ∧
      report.classification.entries.map (·.marker) = report.markers ∧ report.markers.Nodup ∧
      ((∃ items, parseFile a.contents = .ok items) ↔
        ∀ p ∈ report.markers, p.simpleName ∉ segmentWords) ∧
      (IsSource ⟨settings.module, settings.container⟩ report.classification.entries a.contents ↔
        (∀ p ∈ report.markers, p.simpleName ∉ segmentWords) ∧
          ∀ p ∈ report.markers, ∀ q ∈ report.markers, q.simpleName ≠ "r#" ++ p.simpleName) := by
  obtain ⟨report, hanalyze, hmarkers, hentries, hemit⟩ := of_generate h
  obtain ⟨hne, hagree, htext⟩ := (Emission.emit_eq_some_iff _ _ _).mp hemit
  obtain ⟨hmodule, hcontainer⟩ := isName_of_validate hsettings
  have hdistinct := Directive.nodup_markers hmarkers
  have hspelled := Directive.spells_of_markers parsed hmarkers
  let s : Emission := ⟨settings.module, settings.container⟩
  have sound : s.Sound report.classification.entries :=
    ⟨hmodule, hcontainer, hne, fun e he => hspelled _ (hentries ▸ List.mem_map_of_mem he)⟩
  have hforall {P : String → Prop} : (∀ p ∈ report.markers, P p.simpleName) ↔
      ∀ e ∈ report.classification.entries, P e.bindingName := by
    rw [← hentries]
    simp only [List.forall_mem_map]
    rfl
  have hkeyword : (∀ p ∈ report.markers, p.simpleName ∉ segmentWords) ↔
      ∀ e ∈ report.classification.entries, isName e.bindingName = true := by
    rw [hforall (P := (· ∉ segmentWords))]
    exact forall₂_congr fun e he => Emission.isName_iff_of_isSegment (sound.markers e he).simpleName
  have hraw : (report.classification.entries.map fun e => Text.unraw e.bindingName).Nodup ↔
      ∀ p ∈ report.markers, ∀ q ∈ report.markers, q.simpleName ≠ "r#" ++ p.simpleName := by
    rw [nodup_unraw_iff (hentries ▸ hdistinct) hagree fun e he =>
      Grammar.isWord_of_isSegment (sound.markers e he).simpleName, ← hentries]
    simp only [List.forall_mem_map]
    rfl
  refine ⟨report, hanalyze, hentries, hdistinct, ?_, ?_⟩
  · rw [hkeyword, htext]
    exact sound.parses_iff
  · rw [hkeyword, ← hraw, htext]
    exact isSource_iff sound

/-- A root file with these items. -/
def rootWith (items : List Item) : SourceFile :=
  ⟨⟨"lib.rs"⟩, .crateRoot, items, true⟩

theorem parsed_rootWith {text : String} {items : List Item} (h : parseFile text = .ok items) :
    Corpus.Parsed ⟨[rootWith items]⟩ where
  items f hf := by
    obtain rfl := List.mem_singleton.mp hf
    exact ⟨text, h⟩
  root f hf _ := by
    obtain rfl := List.mem_singleton.mp hf
    rfl

/-- What is generated for markers that no function has. -/
def standardArtifact (markers : List ItemPath) : Artifact :=
  ⟨"functions_attributes.rs", Emission.join
    (Emission.lines ⟨"functions_attributes", "GenerateFunctionsWith"⟩ (markers.map (⟨·, []⟩)))⟩

def standardReport (markers : List ItemPath) : Report :=
  ⟨markers, [], ⟨markers.map (⟨·, []⟩)⟩⟩

/-- The markers that the items ask for, none of which is on a function, and the text of their lists.
-/
def Asks (items : List Item) (markers : List ItemPath) : Prop :=
  (analyze ⟨[rootWith items]⟩ Settings.standard).toOption = some (standardReport markers) ∧
    (generate ⟨[rootWith items]⟩ Settings.standard).toOption =
      some (some (standardArtifact markers))

instance (items : List Item) (markers : List ItemPath) : Decidable (Asks items markers) :=
  inferInstanceAs (Decidable (_ ∧ _))

theorem generated_isSource_of_asks : ∃ items,
    parseFile "generate_functions_with!(dep::X); generate_functions_with!(dep::r#type);" =
      .ok items ∧
    Corpus.Parsed ⟨[rootWith items]⟩ ∧ Config.standard.validate = .ok Settings.standard ∧
    generate ⟨[rootWith items]⟩ Settings.standard =
      .ok (some (standardArtifact [⟨["dep", "X"]⟩, ⟨["dep", "r#type"]⟩])) ∧
    IsSource ⟨"functions_attributes", "GenerateFunctionsWith"⟩
      [⟨⟨["dep", "X"]⟩, []⟩, ⟨⟨["dep", "r#type"]⟩, []⟩]
      (standardArtifact [⟨["dep", "X"]⟩, ⟨["dep", "r#type"]⟩]).contents := by
  have hcheck : (parseFile
      "generate_functions_with!(dep::X); generate_functions_with!(dep::r#type);").toOption.any
        (fun items => decide (Asks items [⟨["dep", "X"]⟩, ⟨["dep", "r#type"]⟩])) = true := by
    decide +kernel
  obtain ⟨items, hparse, hasks⟩ := exists_ok_of_any hcheck
  obtain ⟨hanalyze, hgenerate⟩ := of_decide_eq_true hasks
  have hsettings : Config.standard.validate = .ok Settings.standard :=
    ok_of_toOption (by decide +kernel)
  obtain ⟨report, hreport, -, -, -, hsource⟩ :=
    generated_isSource_iff (parsed_rootWith hparse) hsettings (ok_of_toOption hgenerate)
  obtain rfl : standardReport _ = report := by
    rw [ok_of_toOption hanalyze] at hreport
    exact Except.ok.inj hreport
  refine ⟨items, hparse, parsed_rootWith hparse, hsettings, ok_of_toOption hgenerate,
    hsource.mpr ?_⟩
  exact ⟨by decide, by decide⟩

/-- The path `self` at the root of a crate is a marker whose name is a keyword, and a name and its
raw spelling are two markers: for neither does a pass refuse to write a text that is no source. -/
theorem generated_not_source : ∃ items,
    parseFile ("generate_functions_with!(self); generate_functions_with!(dep::x); " ++
      "generate_functions_with!(dep::r#x);") = .ok items ∧
    Config.standard.validate = .ok Settings.standard ∧
    generate ⟨[rootWith items]⟩ Settings.standard =
      .ok (some (standardArtifact [⟨["crate"]⟩, ⟨["dep", "x"]⟩, ⟨["dep", "r#x"]⟩])) ∧
    (∃ failure, parseFile
      (standardArtifact [⟨["crate"]⟩, ⟨["dep", "x"]⟩, ⟨["dep", "r#x"]⟩]).contents =
        .error failure) ∧
    isName (ListEntry.bindingName ⟨⟨["crate"]⟩, []⟩) = false ∧
    Text.unraw (ListEntry.bindingName ⟨⟨["dep", "r#x"]⟩, []⟩) =
      Text.unraw (ListEntry.bindingName ⟨⟨["dep", "x"]⟩, []⟩) := by
  have hcheck : (parseFile ("generate_functions_with!(self); generate_functions_with!(dep::x); " ++
      "generate_functions_with!(dep::r#x);")).toOption.any (fun items =>
        decide (Asks items [⟨["crate"]⟩, ⟨["dep", "x"]⟩, ⟨["dep", "r#x"]⟩])) = true := by
    decide +kernel
  obtain ⟨items, hparse, hasks⟩ := exists_ok_of_any hcheck
  obtain ⟨hanalyze, hgenerate⟩ := of_decide_eq_true hasks
  have sound : Emission.Sound ⟨"functions_attributes", "GenerateFunctionsWith"⟩
      ([⟨["crate"]⟩, ⟨["dep", "x"]⟩, ⟨["dep", "r#x"]⟩].map (⟨·, []⟩)) := by
    refine ⟨by decide, by decide, by simp, ?_⟩
    simp only [List.map_cons, List.map_nil, List.forall_mem_cons, List.not_mem_nil, false_imp_iff,
      implies_true, and_true]
    exact ⟨⟨by simp, by decide⟩, ⟨by simp, by decide⟩, ⟨by simp, by decide⟩⟩
  refine ⟨items, hparse, ok_of_toOption (by decide +kernel), ok_of_toOption hgenerate, ?_,
    by decide, by decide⟩
  rcases sound.parses with ⟨hnames, -⟩ | ⟨-, hfails⟩
  · exact absurd (hnames ⟨⟨["crate"]⟩, []⟩ (by simp)) (by decide)
  · exact hfails

end Pass

end MarkerIndex
