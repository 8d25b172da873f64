import MarkerIndex.Grammar.File
import MarkerIndex.Proofs.Traversal
import Mathlib.Data.List.Basic
/-!
What is true of all that a reader gives, whatever lies ahead of it. There is one lemma for each way
in which readers are put together, so that a property of what a rule of the grammar gives follows
the lines of the rule.
-/

namespace MarkerIndex.Grammar

/-- What is done with a group ahead. -/
theorem group_apply {α : Type} (delimiter : Delimiter) (x : Reader α) (scope : Scope)
    (d : Delimiter)
    (start close : Position) (content ts read : List TokenTree)
    (leftover : Option (Position × Option Delimiter)) :
    group delimiter x scope ⟨.group d start close content :: ts, read, leftover⟩ =
      if d = delimiter then
        (x ⟨close, some d⟩ ⟨content, [], leftover⟩).map fun (a, inner) =>
          (a, ⟨ts, .group d start close inner.read.reverse :: read,
            inner.leftover.orElse fun _ => inner.rest.head?.map fun t => (t.pos, some d)⟩)
      else .error ⟨start, false, .expected [groupName delimiter]⟩ := by
  have hrun : (x.run ⟨close, some d⟩).run ⟨content, [], leftover⟩ =
      x ⟨close, some d⟩ ⟨content, [], leftover⟩ := rfl
  change (if d = delimiter then _ else failExpected [groupName delimiter] : Reader α) scope _ = _
  rw [hrun]
  split
  · cases x ⟨close, some d⟩ ⟨content, [], leftover⟩ <;> rfl
  · rfl

/-- What is done with a word ahead where a name is read. -/
theorem name_apply (scope : Scope) (pos : Position) (word : String) (ts read : List TokenTree)
    (leftover : Option (Position × Option Delimiter)) :
    name scope ⟨.leaf pos (.word word) :: ts, read, leftover⟩ =
      if isName word then .ok ((word, pos), ⟨ts, .leaf pos (.word word) :: read, leftover⟩)
      else .error ⟨pos, false, .keywordAsName word⟩ := by
  change (if isName word then (do
      take [.leaf pos (.word word)] ts
      return (word, pos) : Reader (String × Position)) else fail (.keywordAsName word)) scope _ = _
  split <;> rfl

/-- What is read by two readers in a row is read by the first, and from where it ends by the second.
-/
theorem exists_of_bind {α β : Type} {x : Reader α} {f : α → Reader β} {scope : Scope}
    {s last : State} {b : β}
    (h : (x >>= f) scope s = .ok (b, last)) :
    ∃ a later, x scope s = .ok (a, later) ∧ f a scope later = .ok (b, last) := by
  obtain ⟨⟨a, later⟩, hfirst, hmore⟩ := Traversal.bind_eq_ok_iff.mp h
  exact ⟨a, later, hfirst, hmore⟩

/-- A round of reading pieces while a test holds. What was read last comes first. -/
def whileStep {α : Type} (test : List TokenTree → Bool) (x : Reader α) (acc : List α) :
    Reader (Bool × List α) := do
  if test (← rest) then
    let value ← x
    return (true, value :: acc)
  else return (false, acc)

theorem whileAt_eq {α : Type} (test : List TokenTree → Bool) (x : Reader α) :
    whileAt test x = (loop [] (whileStep test x) >>= fun found => return found.reverse) := rfl

/-- Whatever the reader gives satisfies `P`. -/
def Returns {α : Type} (P : α → Prop) (x : Reader α) : Prop :=
  ∀ scope s a s', x scope s = .ok (a, s') → P a

namespace Returns

variable {α β : Type} {P : α → Prop} {Q : β → Prop} {x y : Reader α} {f : α → Reader β}

theorem pure {a : α} (h : P a) : Returns P (Pure.pure a) := by
  intro scope s v s' hread
  cases hread
  exact h

theorem bind_of (hx : Returns P x) (hf : ∀ a, P a → Returns Q (f a)) : Returns Q (x >>= f) := by
  intro scope s b s' h
  obtain ⟨a, later, hfirst, hmore⟩ := exists_of_bind h
  exact hf a (hx scope s a later hfirst) scope later b s' hmore

theorem bind (hf : ∀ a, Returns Q (f a)) : Returns Q (x >>= f) :=
  bind_of (P := fun _ => True) (fun _ _ _ _ _ => trivial) fun a _ => hf a

theorem ite {c : Prop} [Decidable c] (hx : Returns P x) (hy : Returns P y) :
    Returns P (if c then x else y) := by
  split
  · exact hx
  · exact hy

theorem fail (problem : Problem) : Returns P (Grammar.fail problem) :=
  bind fun _ => bind fun _ _ _ _ _ h => nomatch h

theorem failExpected (choices : List String) : Returns P (Grammar.failExpected choices) :=
  fail (.expected choices)

theorem imp {Q : α → Prop} (h : Returns P x) (himp : ∀ a, P a → Q a) : Returns Q x :=
  fun scope s a s' hread => himp a (h scope s a s' hread)

theorem group (delimiter : Delimiter) (h : Returns P x) :
    Returns P (Grammar.group delimiter x) := by
  intro scope s a s' hread
  obtain ⟨ahead, read, leftover⟩ := s
  match ahead with
  | .group d start close content :: ts =>
      rw [group_apply] at hread
      split at hread
      · obtain ⟨⟨b, inner⟩, hinside, hvalue⟩ := Traversal.map_eq_ok_iff.mp hread
        obtain rfl : b = a := congrArg Prod.fst hvalue
        exact h _ _ _ _ hinside
      · cases hread
  | .leaf _ _ :: ts => cases hread
  | [] => cases hread

theorem loopFrom (fuel : Nat) {step : α → Reader (Bool × α)} {acc : α} (h : P acc)
    (hstep : ∀ acc, P acc → Returns (fun next => P next.2) (step acc)) :
    Returns P (Grammar.loopFrom fuel step acc) := by
  induction fuel generalizing acc with
  | zero => exact pure h
  | succ fuel ih =>
      refine bind_of (hstep acc h) fun next hnext => ite (ih hnext) (pure hnext)

theorem loop {step : α → Reader (Bool × α)} {acc : α} (h : P acc)
    (hstep : ∀ acc, P acc → Returns (fun next => P next.2) (step acc)) :
    Returns P (Grammar.loop acc step) :=
  bind fun _ => loopFrom _ h hstep

theorem whileAt (test : List TokenTree → Bool) (h : Returns P x) :
    Returns (fun found => ∀ a ∈ found, P a) (Grammar.whileAt test x) := by
  refine bind_of (P := fun found => ∀ a ∈ found, P a) (loop (by simp) ?_) ?_
  · intro acc hacc
    refine bind fun _ => ite (bind_of h fun a ha => pure ?_) (pure hacc)
    simpa using ⟨ha, hacc⟩
  · intro found hfound
    exact pure (by simpa using hfound)

theorem separated (separator : String) (done : List TokenTree → Bool) (h : Returns P x) :
    Returns (fun found => ∀ a ∈ found, P a) (Grammar.separated separator done x) := by
  refine bind_of (P := fun found => ∀ a ∈ found, P a) (loop (by simp) ?_) ?_
  · intro acc hacc
    refine bind fun _ => ite (pure hacc) (bind_of h fun a ha => bind fun _ => ?_)
    have hboth : ∀ b ∈ a :: acc, P b := List.forall_mem_cons.mpr ⟨ha, hacc⟩
    exact ite (pure hboth) (bind fun _ => pure hboth)
  · intro found hfound
    exact pure (by simpa using hfound)

/-- A test of the first word holds of the word that is then read. -/
theorem anyWord_behind {test : List TokenTree → Bool} {P : String → Prop}
    {f : String × Position → Reader β} {z : List TokenTree → Reader β}
    (htest : ∀ pos word ts, test (.leaf pos (.word word) :: ts) = true → P word)
    (hf : ∀ word pos, P word → Returns Q (f (word, pos))) (hz : ∀ ts, Returns Q (z ts)) :
    Returns Q (rest >>= fun ts => if test ts = true then anyWord >>= f else z ts) := by
  intro scope s b s' hread
  change (if test s.rest = true then anyWord >>= f else z s.rest) scope s = _ at hread
  split at hread
  · next hholds =>
      obtain ⟨ahead, read, leftover⟩ := s
      match ahead with
      | .leaf pos (.word word) :: ts =>
          exact hf word pos (htest pos word ts hholds) _ _ _ _ hread
      | .leaf pos (.punct _ _) :: ts => cases hread
      | .leaf pos (.literal _) :: ts => cases hread
      | .group _ _ _ _ :: ts => cases hread
      | [] => cases hread
  · exact hz _ _ _ _ _ hread

end Returns

section

variable {α : Type} {P : α → Prop} {reader : Readers → Reader α}

/-- All of the trees are read when the reader takes them all and leaves none unread inside a group.
-/
theorem readAll_eq_ok_iff {stop : Position} {ts : List TokenTree} {a : α} :
    readAll reader stop ts = .ok a ↔
      ∃ state, reader (ofDepth (8 * TokenTree.countAll ts + 16)) ⟨stop, none⟩ ⟨ts, [], none⟩ =
          .ok (a, state) ∧
        state.leftover = none ∧ state.rest = [] := by
  constructor
  · intro h
    simp only [readAll] at h
    split at h
    · cases h
    · next value state hvalue =>
        split at h
        · cases h
        · cases h
        · next hleftover hrest =>
            obtain rfl : value = a := Except.ok.inj h
            exact ⟨state, hvalue, hleftover, hrest⟩
  · rintro ⟨state, hread, hleftover, hrest⟩
    simp only [readAll, ReaderT.run, StateT.run, hread, hleftover, hrest]

/-- What is read from all of some trees. -/
theorem of_readAll (h : ∀ depth, Returns P (reader (ofDepth depth)))
    {stop : Position} {ts : List TokenTree} {a : α}
    (hread : readAll reader stop ts = .ok a) : P a := by
  obtain ⟨state, hvalue, -, -⟩ := readAll_eq_ok_iff.mp hread
  exact h _ _ _ _ _ hvalue

theorem of_readText (h : ∀ depth, Returns P (reader (ofDepth depth)))
    {cs : List Char} {a : α} (hread : readText reader cs = .ok a) : P a := by
  simp only [readText] at hread
  split at hread
  · cases hread
  · exact of_readAll h hread

end

end MarkerIndex.Grammar
