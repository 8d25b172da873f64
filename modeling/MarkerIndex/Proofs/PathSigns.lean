import MarkerIndex.Proofs.Parsing
/-!
What the tokens of a path are. Where no segment has arguments they are words with two colons between
them, and maybe two in front, just as the path that is read says; where one has, there is some angle
bracket among them.
-/

namespace MarkerIndex

namespace TokenTree

/-- A word or a colon. -/
def isOfPlainPath : TokenTree → Bool
  | .leaf _ (.word _) => true
  | .leaf _ (.punct c _) => c = ':'
  | _ => false

def isAngle : TokenTree → Bool
  | .leaf _ (.punct c _) => c = '<'
  | _ => false

end TokenTree

/-- What a path without arguments is written with. -/
inductive PathSign
  | colons
  | segment (word : String)
  deriving DecidableEq

namespace PathSign

/-- Each segment behind two colons. -/
def later (words : List String) : List PathSign :=
  words.flatMap fun word => [colons, segment word]

/-- The signs of a path. The first two colons may be missing. -/
def ofPath (leadingColon : Bool) (words : List String) : List PathSign :=
  if leadingColon then later words else (later words).tail

/-- Signs one after another, or none where arguments are among them. -/
def join : Option (List PathSign) → Option (List PathSign) → Option (List PathSign)
  | some signs, some more => some (signs ++ more)
  | _, _ => none

def joinAll : List (Option (List PathSign)) → Option (List PathSign)
  | [] => some []
  | first :: rest => join first (joinAll rest)

@[simp] theorem join_some (signs more : List PathSign) :
    join (some signs) (some more) = some (signs ++ more) := rfl

@[simp] theorem none_join (b : Option (List PathSign)) : join none b = none := by
  cases b <;> rfl

@[simp] theorem join_none (b : Option (List PathSign)) : join b none = none := by
  cases b <;> rfl

theorem join_nil (b : Option (List PathSign)) : join b (some []) = b := by
  cases b <;> simp

theorem nil_join (b : Option (List PathSign)) : join (some []) b = b := by
  cases b <;> simp

theorem join_assoc (a b c : Option (List PathSign)) : join (join a b) c = join a (join b c) := by
  cases a <;> cases b <;> cases c <;> simp

theorem joinAll_append (as bs : List (Option (List PathSign))) :
    joinAll (as ++ bs) = join (joinAll as) (joinAll bs) := by
  induction as with
  | nil => exact (nil_join _).symm
  | cons a as ih => rw [List.cons_append, joinAll, joinAll, ih, join_assoc]

end PathSign

namespace Grammar

open PathSign TokenTree

/-- What lies between two places in a path: some signs, or, where there are arguments, some angle
bracket. -/
inductive Spans : Option (List PathSign) → List TokenTree → List TokenTree → Prop
  | refl (ts : List TokenTree) : Spans (some []) ts ts
  | colons {signs : List PathSign} {ts rest : List TokenTree} (p q : Position) (joint : Bool) :
      Spans (some signs) ts rest →
        Spans (some (.colons :: signs))
        (.leaf p (.punct ':' true) :: .leaf q (.punct ':' joint) :: ts) rest
  | segment {signs : List PathSign} {ts rest : List TokenTree} (p : Position) (word : String) :
      Spans (some signs) ts rest →
        Spans (some (.segment word :: signs)) (.leaf p (.word word) :: ts) rest
  | arguments {token : TokenTree} {ts rest : List TokenTree} : token ∈ ts → token.isAngle = true →
      Spans none ts rest

namespace Spans

variable {ts mid rest : List TokenTree} {b b' : Option (List PathSign)} {signs : List PathSign}

theorem exists_angle (h : Spans none ts rest) : ∃ token ∈ ts, token.isAngle = true := by
  cases h with
  | arguments member hangle => exact ⟨_, member, hangle⟩

theorem cons_colons (h : Spans b ts rest) (p q : Position) (joint : Bool) :
    Spans (join (some [.colons]) b) (.leaf p (.punct ':' true) :: .leaf q (.punct ':' joint) :: ts)
      rest := by
  cases b with
  | none =>
      obtain ⟨token, member, hangle⟩ := h.exists_angle
      exact .arguments (List.mem_cons_of_mem _ (List.mem_cons_of_mem _ member)) hangle
  | some signs => exact h.colons p q joint

theorem cons_segment (h : Spans b ts rest) (p : Position) (word : String) :
    Spans (join (some [.segment word]) b) (.leaf p (.word word) :: ts) rest := by
  cases b with
  | none =>
      obtain ⟨token, member, hangle⟩ := h.exists_angle
      exact .arguments (List.mem_cons_of_mem _ member) hangle
  | some signs => exact h.segment p word

theorem trans (h : Spans b ts mid) (h' : Spans b' mid rest) : Spans (join b b') ts rest := by
  induction h with
  | refl ts => rwa [nil_join]
  | @colons signs ts mid p q joint _ ih =>
      rw [show some (PathSign.colons :: signs) = join (some [.colons]) (some signs) from rfl,
        join_assoc]
      exact (ih h').cons_colons p q joint
  | @segment signs ts mid p word _ ih =>
      rw [show some (PathSign.segment word :: signs) =
        join (some [.segment word]) (some signs) from rfl, join_assoc]
      exact (ih h').cons_segment p word
  | arguments member hangle =>
      rw [none_join]
      exact .arguments member hangle

theorem isOfPlainPath (h : Spans (some signs) ts rest) : ∀ token ∈ ts, token ∈ rest ∨
    token.isOfPlainPath = true := by
  generalize hb : some signs = b at h
  induction h generalizing signs with
  | refl ts => exact fun token member => .inl member
  | colons p q joint _ ih =>
      intro token member
      rcases List.mem_cons.mp member with rfl | member
      · exact .inr rfl
      · rcases List.mem_cons.mp member with rfl | member
        · exact .inr rfl
        · exact ih rfl token member
  | segment p word _ ih =>
      intro token member
      rcases List.mem_cons.mp member with rfl | member
      · exact .inr rfl
      · exact ih rfl token member
  | arguments => cases hb

end Spans

theorem spans_of_colons {ts more : List TokenTree} (h : opRest "::".toList ts = some more) :
    Spans (some [.colons]) ts more := by
  rw [show "::".toList = [':', ':'] from rfl] at h
  rcases ts with _ | ⟨⟨p, _ | ⟨c, joint⟩ | _⟩ | _, _ | ⟨⟨q, _ | ⟨d, last⟩ | _⟩ | _, ts⟩⟩
  case cons.leaf.punct.cons.leaf.punct =>
    obtain ⟨⟨⟨rfl, -⟩, rfl⟩, ⟨rfl, -⟩, rfl⟩ :
        ((':' = c ∧ c ≠ '\'') ∧ joint = true) ∧ (':' = d ∧ d ≠ '\'') ∧ ts = more := by
      simpa [opRest] using h
    exact (Spans.refl ts).colons p q last
  all_goals simp [opRest] at h

/-- Where the reader gives a value, what it has gone by is as `R` says of the value. -/
def GoesBy {α : Type} (R : α → Option (List PathSign) → Prop) (x : Reader α) : Prop :=
  ∀ scope s a s', x scope s = .ok (a, s') → ∃ b, R a b ∧ Spans b s.rest s'.rest

namespace GoesBy

variable {α β : Type} {R : α → Option (List PathSign) → Prop}
  {Q : β → Option (List PathSign) → Prop}
  {x y : Reader α} {f : α → Reader β}

theorem pure {a : α} (h : R a (some [])) : GoesBy R (Pure.pure a) := by
  intro scope s v s' hread
  cases hread
  exact ⟨_, h, .refl _⟩

theorem bind (hx : GoesBy R x) (hf : ∀ a b, R a b → GoesBy (fun c b' => Q c (join b b')) (f a)) :
    GoesBy Q (x >>= f) := by
  intro scope s c s' hread
  obtain ⟨a, later, hfirst, hmore⟩ := exists_of_bind hread
  obtain ⟨b, hb, hspans⟩ := hx scope s a later hfirst
  obtain ⟨b', hb', hspans'⟩ := hf a b hb scope later c s' hmore
  exact ⟨join b b', hb', hspans.trans hspans'⟩

theorem ahead {f : List TokenTree → Reader α} (h : ∀ ts, GoesBy R (f ts)) :
    GoesBy R (rest >>= f) :=
  fun scope s a s' hread => h s.rest scope s a s' hread

theorem imp {R' : α → Option (List PathSign) → Prop} (hx : GoesBy R x)
    (himp : ∀ a b, R a b → R' a b) :
    GoesBy R' x := by
  intro scope s a s' hread
  obtain ⟨b, hb, hspans⟩ := hx scope s a s' hread
  exact ⟨b, himp a b hb, hspans⟩

theorem ite {c : Bool} (hx : GoesBy R x) (hy : GoesBy R y) :
    GoesBy R (if c = true then x else y) := by
  split
  · exact hx
  · exact hy

/-- What begins with an angle bracket ahead may go by anything. -/
theorem arguments_or {test : List TokenTree → Bool} {y : List TokenTree → Reader α}
    (htest : ∀ ts, test ts = true → ∃ token ∈ ts, token.isAngle = true)
    (hx : Returns (fun a => R a none) x) (hy : ∀ ts, GoesBy R (y ts)) :
    GoesBy R (rest >>= fun ts => if test ts = true then x else y ts) := by
  intro scope s a s' hread
  change (if test s.rest = true then x else y s.rest) scope s = _ at hread
  split at hread
  · next hangle =>
      obtain ⟨token, member, htoken⟩ := htest _ hangle
      exact ⟨none, hx scope s a s' hread, .arguments member htoken⟩
  · exact hy _ scope s a s' hread

theorem anyWord : GoesBy (fun found b => b = some [.segment found.1]) Grammar.anyWord := by
  rintro scope ⟨ahead, read, leftover⟩ a s' hread
  rcases ahead with _ | ⟨⟨p, w | _ | _⟩ | _, ts⟩
  case cons.leaf.word =>
    cases hread
    exact ⟨_, rfl, (Spans.refl ts).segment p w⟩
  all_goals cases hread

theorem name : GoesBy (fun found b => b = some [.segment found.1]) Grammar.name := by
  rintro scope ⟨ahead, read, leftover⟩ a s' hread
  rcases ahead with _ | ⟨⟨p, w | _ | _⟩ | _, ts⟩
  case cons.leaf.word =>
    rw [name_apply] at hread
    split at hread
    · cases hread
      exact ⟨_, rfl, (Spans.refl ts).segment p w⟩
    · cases hread
  all_goals cases hread

theorem nameOr (allowed : List String) :
    GoesBy (fun found b => b = some [.segment found.1]) (Grammar.nameOr allowed) :=
  ahead fun _ => ite anyWord name

theorem colons : GoesBy (fun _ b => b = some [.colons]) (op "::") := by
  rintro scope ⟨ahead, read, leftover⟩ a s' hread
  rw [op, ahead_apply] at hread
  cases hmore : opRest "::".toList ahead with
  | none =>
      rw [hmore] at hread
      cases ahead <;> cases hread
  | some more =>
      rw [hmore] at hread
      have hspans := spans_of_colons hmore
      cases ahead <;> cases hread <;> exact ⟨_, rfl, hspans⟩

/-- Pieces go by what each of them goes by, behind those that were read before. -/
theorem whileLoop {signs : α → Option (List PathSign)} (test : List TokenTree → Bool)
    (hx : GoesBy (fun a b => b = signs a) x) (fuel : Nat) (acc : List α) :
    GoesBy (fun found b =>
        joinAll (found.reverse.map signs) = join (joinAll (acc.reverse.map signs)) b)
      (loopFrom fuel (whileStep test x) acc) := by
  induction fuel generalizing acc with
  | zero => exact pure (join_nil _).symm
  | succ fuel ih =>
      have hround : GoesBy (fun next b =>
          joinAll (next.2.reverse.map signs) = join (joinAll (acc.reverse.map signs)) b)
          (whileStep test x acc) := by
        refine ahead fun ts => ite (bind hx fun a b hb => pure ?_) (pure (join_nil _).symm)
        simp [joinAll_append, joinAll, hb, join_nil]
      refine bind hround fun next b hb => ite ?_ (pure ?_)
      · exact (ih next.2).imp fun found b' hb' => by rw [hb', hb, join_assoc]
      · simpa only [join_nil] using hb

/-- Pieces that are read one after another go by what each of them goes by. -/
theorem whileAt {signs : α → Option (List PathSign)} (test : List TokenTree → Bool)
    (hx : GoesBy (fun a b => b = signs a) x) :
    GoesBy (fun found b => b = joinAll (found.map signs)) (Grammar.whileAt test x) := by
  rw [whileAt_eq]
  refine bind (ahead fun ts => whileLoop test hx _ []) fun found b hb => pure ?_
  rw [join_nil, hb, List.reverse_nil]
  exact (nil_join b).symm

end GoesBy

theorem exists_angle_of_atOp {ts : List TokenTree} (h : atOp "<" ts = true) :
    ∃ token ∈ ts, token.isAngle = true := by
  rcases ts with _ | ⟨⟨p, _ | ⟨c, joint⟩ | _⟩ | _, ts⟩
  case cons.leaf.punct =>
    rw [atOp, show "<".toList = ['<'] from rfl, opRest] at h
    split at h
    · next hc =>
        obtain ⟨rfl, -⟩ : '<' = c ∧ _ := by simpa using hc
        exact ⟨_, List.mem_cons_self, rfl⟩
    · cases h
  all_goals cases h

theorem behind_subset (ts : List TokenTree) : behind ts ⊆ ts := by
  unfold behind
  split
  · exact fun token member => List.mem_cons_of_mem _ (List.mem_cons_of_mem _ member)
  · exact List.subset_cons_self _ _
  · exact List.Subset.refl _

/-- A segment by itself, unless it has arguments. -/
def segmentSigns (found : String × Position × Bool) : Option (List PathSign) :=
  if found.2.2 then none else some [.segment found.1]

variable {g : Readers}

theorem goesBy_segment : GoesBy (fun found b => b = segmentSigns found) (segment g false) := by
  refine .ahead fun ts => .ite (.bind .anyWord fun word b hb => .pure ?_)
    (.bind (.nameOr _) fun word b hb =>
      .arguments_or ?_ (.bind fun _ => .pure ?_) fun _ => .pure ?_)
  · rw [hb]
    rfl
  · intro ts htest
    simp only [Bool.not_false, Bool.true_and, Bool.or_eq_true, Bool.and_eq_true] at htest
    rcases htest with ⟨⟨hbare, -⟩, -⟩ | ⟨-, hbehind⟩
    · exact exists_angle_of_atOp hbare
    · obtain ⟨token, member, htoken⟩ := exists_angle_of_atOp hbehind
      exact ⟨token, behind_subset _ (behind_subset _ member), htoken⟩
  · exact join_none b
  · rw [hb]
    rfl

/-- The signs of segments behind colons. -/
theorem joinAll_segments (found : List (String × Position × Bool)) :
    joinAll (found.map fun s => join (some [.colons]) (segmentSigns s)) =
      if found.all (!·.2.2) then some (later (found.map (·.1))) else none := by
  induction found with
  | nil => rfl
  | cons first found ih =>
      rw [List.map_cons, joinAll, ih, List.all_cons]
      cases hfirst : first.2.2 with
      | true => simp [segmentSigns, hfirst]
      | false => cases found.all (!·.2.2) <;> simp [segmentSigns, hfirst, later]

/-- The signs of a path, unless it has arguments. -/
def PathShape.signs (shape : PathShape) : Option (List PathSign) :=
  if shape.plain then some (ofPath shape.path.leadingColon shape.path.segments) else none

theorem goesBy_path : GoesBy (fun shape b => b = shape.signs) (path g false) := by
  have hleading : GoesBy (fun leading b => b = some (if leading = true then [.colons] else []))
      (op? "::") :=
    .ahead fun ts => .ite (.bind .colons fun _ b hb => .pure (by rw [hb]; rfl)) (.pure rfl)
  have hpiece : GoesBy (fun found b => b = join (some [.colons]) (segmentSigns found))
      (do op "::"; segment g false) :=
    .bind .colons fun _ b hb => goesBy_segment.imp fun found b' hb' => by rw [hb, hb']
  refine .bind hleading fun leading b hb => .bind goesBy_segment fun first b' hb' => ?_
  refine .bind (.whileAt _ hpiece) fun more b'' hb'' => .pure ?_
  rw [hb, hb', hb'', joinAll_segments]
  cases hfirst : first.2.2 with
  | true => simp [PathShape.signs, shapeOf, segmentSigns, hfirst]
  | false =>
      cases hall : more.all (!·.2.2) <;> cases leading <;>
        simp [PathShape.signs, shapeOf, segmentSigns, hfirst, hall, ofPath, later]

/-- A path is read from just its signs, or has arguments. -/
theorem spans_of_parsePathTokens {ts : List TokenTree} {shape : PathShape}
    (h : parsePathTokens ts = .ok shape) : Spans shape.signs ts [] := by
  obtain ⟨state, hvalue, -, hrest⟩ := readAll_eq_ok_iff.mp h
  obtain ⟨b, rfl, hspans⟩ := goesBy_path _ _ _ _ hvalue
  rwa [hrest] at hspans

variable {ts : List TokenTree} {shape : PathShape}

theorem isOfPlainPath_of_parse (h : parsePathTokens ts = .ok shape) (hplain : shape.plain = true) :
    ∀ token ∈ ts, token.isOfPlainPath = true := by
  have hspans := spans_of_parsePathTokens h
  rw [PathShape.signs, if_pos hplain] at hspans
  simpa using hspans.isOfPlainPath

theorem exists_angle_of_parse (h : parsePathTokens ts = .ok shape) (hplain : shape.plain = false) :
    ∃ token ∈ ts, token.isAngle = true := by
  have hspans := spans_of_parsePathTokens h
  rw [PathShape.signs, if_neg (Bool.eq_false_iff.mp hplain)] at hspans
  exact hspans.exists_angle

end Grammar

end MarkerIndex
