import MarkerIndex.Grammar.File
import MarkerIndex.Proofs.Reader
/-!
What readers do with given tokens. `Reads` says that a reader goes on behind some tokens with a
value, `Fails` that it does not get by them, whatever was read before and wherever brackets end.
There is one lemma for each way in which readers are put together, so that the reading of a text
follows the rules of the grammar.
-/

namespace MarkerIndex.Grammar

variable {α β : Type} {x : Reader α} {f : α → Reader β} {a : α} {b : β}
  {ts mid rest : List TokenTree} {delimiter : Delimiter} {start close : Position}

/-- What follows a look ahead. -/
theorem ahead_apply (f : List TokenTree → Reader β) (scope : Scope) (s : State) :
    (Grammar.rest >>= f) scope s = f s.rest scope s :=
  rfl

theorem bind_apply {scope : Scope} {s later : State} (h : x scope s = .ok (a, later))
    (f : α → Reader β) :
    (x >>= f) scope s = f a scope later := by
  change (x scope s >>= fun result => f result.1 scope result.2) = _
  rw [h]
  rfl

theorem probe_apply {scope : Scope} {s : State} {result : α × State} (h : x scope s = .ok result) :
    probe x scope s = .ok (some result, s) := by
  have hrun : (x.run scope).run s = .ok result := h
  have hread : (read : Reader Scope) scope s = .ok (scope, s) := rfl
  have hget : (get : Reader State) scope s = .ok (s, s) := rfl
  rw [probe, bind_apply hread, bind_apply hget, hrun]
  rfl

theorem nameOr_apply {w : String} (h : isName w = true) (allowed : List String) (p : Position)
    (ts read : List TokenTree) (scope : Scope) (leftover : Option (Position × Option Delimiter)) :
    nameOr allowed scope ⟨.leaf p (.word w) :: ts, read, leftover⟩ =
      .ok ((w, p), ⟨ts, .leaf p (.word w) :: read, leftover⟩) := by
  rw [nameOr, ahead_apply]
  split
  · rfl
  · exact (name_apply scope p w ts read leftover).trans (if_pos h)

/-- The first reader goes on as the second does from `mid`, and leaves no unread tokens in brackets.
-/
def Becomes (x : Reader α) (ts : List TokenTree) (y : Reader α) (mid : List TokenTree) : Prop :=
  ∀ scope read leftover, ∃ read', x scope ⟨ts, read, leftover⟩ = y scope ⟨mid, read', leftover⟩

/-- From `ts` the reader goes on to `rest` with the value `a`. -/
def Reads (x : Reader α) (ts : List TokenTree) (a : α) (rest : List TokenTree) : Prop :=
  Becomes x ts (pure a) rest

/-- The reader refuses `ts`. -/
def Fails (x : Reader α) (ts : List TokenTree) : Prop :=
  ∀ scope read leftover, ∃ failure, x scope ⟨ts, read, leftover⟩ = .error failure

/-- Some rounds of a loop, each of which takes some tokens and asks for another. -/
inductive Loops (step : α → Reader (Bool × α)) : α → List TokenTree → α → List TokenTree → Prop
  | refl (acc : α) (ts : List TokenTree) : Loops step acc ts acc ts
  | more {acc next acc' : α} {ts mid rest : List TokenTree}
      (h : Reads (step acc) ts (true, next) mid) (hlt : mid.length < ts.length)
      (hmore : Loops step next mid acc' rest) : Loops step acc ts acc' rest

/-- Some pieces that the reader takes one after another. -/
inductive Repeats (x : Reader α) : List TokenTree → List α → List TokenTree → Prop
  | refl (ts : List TokenTree) : Repeats x ts [] ts
  | more {a : α} {as : List α} {ts mid rest : List TokenTree} (h : Reads x ts a mid)
      (hlt : mid.length < ts.length) (hmore : Repeats x mid as rest) : Repeats x ts (a :: as) rest

/-- A round of the loop up to the end of the brackets. -/
def untilEndStep (x : Reader α) (acc : List α) : Reader (Bool × List α) := do
  if !List.isEmpty (← Grammar.rest) then
    let value ← x
    return (true, value :: acc)
  else return (false, acc)

namespace Becomes

variable {y z : Reader α} {w : Reader β} {later : List TokenTree}

theorem refl (x : Reader α) (ts : List TokenTree) : Becomes x ts x ts :=
  fun _ read _ => ⟨read, rfl⟩

theorem trans (hxy : Becomes x ts y mid) (hyz : Becomes y mid z rest) : Becomes x ts z rest := by
  intro scope read leftover
  obtain ⟨later, hx⟩ := hxy scope read leftover
  obtain ⟨last, hy⟩ := hyz scope later leftover
  exact ⟨last, hx.trans hy⟩

theorem bind (hx : Reads x ts a mid) (hf : Becomes (f a) mid w later) :
    Becomes (x >>= f) ts w later := by
  intro scope read leftover
  obtain ⟨later, hread⟩ := hx scope read leftover
  obtain ⟨last, hlast⟩ := hf scope later leftover
  exact ⟨last, (bind_apply hread f).trans hlast⟩

/-- What a reader goes on with may be replaced by what does the same. -/
theorem bind_congr {g : α → Reader β} (h : ∀ a, f a = g a) (ts : List TokenTree) :
    Becomes (x >>= f) ts (x >>= g) ts := by
  rw [funext h]
  exact refl _ _

theorem ite_true {c : Bool} (h : c = true) (hx : Becomes x ts z later) :
    Becomes (if c = true then x else y) ts z later := by
  rw [if_pos h]
  exact hx

theorem ite_false {c : Bool} (h : c = false) (hy : Becomes y ts z later) :
    Becomes (if c = true then x else y) ts z later := by
  rw [if_neg (Bool.eq_false_iff.mp h)]
  exact hy

/-- A reader that goes by what lies ahead. -/
theorem ahead {f : List TokenTree → Reader β} (h : Becomes (f ts) ts w later) :
    Becomes (Grammar.rest >>= f) ts w later :=
  bind (refl _ _) h

/-- As long as a loop takes tokens it is allowed another round. -/
theorem loopFrom {step : α → Reader (Bool × α)} {acc acc' : α} (h : Loops step acc ts acc' mid)
    {fuel : Nat} (hfuel : ts.length < fuel) : ∃ n,
      Becomes (Grammar.loopFrom fuel step acc) ts (Grammar.loopFrom (n + 1) step acc') mid := by
  induction h generalizing fuel with
  | refl acc ts =>
      obtain ⟨n, rfl⟩ := Nat.exists_eq_add_of_lt hfuel
      exact ⟨ts.length + n, refl _ _⟩
  | more hstep hlt _ ih =>
      obtain ⟨n, rfl⟩ := Nat.exists_eq_add_of_lt hfuel
      obtain ⟨m, hm⟩ := ih (Nat.lt_of_lt_of_le hlt (Nat.le_add_right _ n))
      exact ⟨m, bind hstep hm⟩

end Becomes

theorem Repeats.append {as bs : List α} (h : Repeats x ts as mid) (hmore : Repeats x mid bs rest) :
    Repeats x ts (as ++ bs) rest := by
  induction h with
  | refl ts => exact hmore
  | more hx hlt _ ih => exact .more hx hlt (ih hmore)

/-- The last piece. -/
theorem Repeats.last (h : Reads x ts a []) (hne : ts.isEmpty = false) : Repeats x ts [a] [] := by
  refine .more h ?_ (.refl _)
  cases ts with
  | nil => cases hne
  | cons t ts => exact Nat.succ_pos _

theorem Repeats.loops {as : List α} (h : Repeats x ts as rest) (acc : List α) :
    Loops (untilEndStep x) acc ts (as.reverse ++ acc) rest := by
  induction h generalizing acc with
  | refl ts => exact .refl _ _
  | @more a as ts mid rest h hlt _ ih =>
      have hne : (!ts.isEmpty) = true := by
        cases ts with
        | nil => cases hlt
        | cons t ts => rfl
      rw [List.reverse_cons, List.append_assoc]
      exact .more (.ahead (.ite_true hne (.bind h (.refl _ _)))) hlt (ih (a :: acc))

namespace Fails

theorem of_becomes {y : Reader α} (hxy : Becomes x ts y mid) (hy : Fails y mid) : Fails x ts := by
  intro scope read leftover
  obtain ⟨later, heq⟩ := hxy scope read leftover
  rw [heq]
  exact hy scope later leftover

theorem bind (h : Fails x ts) (f : α → Reader β) : Fails (x >>= f) ts := by
  intro scope read leftover
  obtain ⟨failure, hread⟩ := h scope read leftover
  refine ⟨failure, ?_⟩
  change (x scope ⟨ts, read, leftover⟩ >>= fun result => f result.1 scope result.2) = _
  rw [hread]
  rfl

theorem group (h : Fails x ts) :
    Fails (Grammar.group delimiter x) (.group delimiter start close ts :: rest) := by
  intro scope read leftover
  obtain ⟨failure, hread⟩ := h ⟨close, some delimiter⟩ [] leftover
  rw [group_apply, if_pos rfl, hread]
  exact ⟨failure, rfl⟩

theorem loop {step : α → Reader (Bool × α)} {acc acc' : α} (h : Loops step acc ts acc' mid)
    (hlast : Fails (step acc') mid) : Fails (Grammar.loop acc step) ts := by
  obtain ⟨n, hrounds⟩ := Becomes.loopFrom h (Nat.lt_succ_self _)
  exact of_becomes (.ahead hrounds) (hlast.bind _)

theorem untilEnd {as : List α} (h : Repeats x ts as mid) (hne : mid.isEmpty = false)
    (hlast : Fails x mid) : Fails (Grammar.untilEnd x) ts := by
  have hround : Becomes (untilEndStep x (as.reverse ++ [])) mid
      (x >>= fun value => pure (true, value :: (as.reverse ++ []))) mid :=
    .ahead (.ite_true (by rw [hne]; rfl) (.refl _ _))
  exact bind (loop (h.loops []) (of_becomes hround (hlast.bind _))) _

end Fails

namespace Reads

theorem pure (a : α) (ts : List TokenTree) : Reads (Pure.pure a) ts a ts :=
  .refl _ _

theorem nameOr {w : String} (h : isName w = true) (allowed : List String) (p : Position) :
    Reads (Grammar.nameOr allowed) (.leaf p (.word w) :: ts) (w, p) ts := by
  intro scope read leftover
  exact ⟨_, nameOr_apply h allowed p ts read scope leftover⟩

theorem name {w : String} (h : isName w = true) (p : Position) :
    Reads Grammar.name (.leaf p (.word w) :: ts) (w, p) ts := by
  intro scope read leftover
  exact ⟨_, (name_apply scope p w ts read leftover).trans (if_pos h)⟩

/-- A keyword that does not stand there is passed by. -/
theorem keyword?_absent {word : String} (h : atKeyword word ts = false) :
    Reads (Grammar.keyword? word) ts false ts :=
  .ahead (.ite_false h (pure _ _))

/-- What a reader takes, where it takes the same wherever it is used. -/
theorem recorded {taken : List TokenTree}
    (h : ∀ scope leftover, x scope ⟨ts, [], leftover⟩ = .ok (a, ⟨rest, taken, leftover⟩)) :
    Reads (Grammar.recorded x) ts (a, taken.reverse) rest := by
  intro scope read leftover
  have hread : Grammar.recorded x scope ⟨ts, read, leftover⟩ =
      x scope ⟨ts, [], leftover⟩ >>= fun result => .ok ((result.1, result.2.read.reverse),
        ⟨result.2.rest, result.2.read ++ read, result.2.leftover⟩) :=
    rfl
  exact ⟨taken ++ read, by rw [hread, h]; rfl⟩

/-- What brackets hold is read to its end. -/
theorem group (h : Reads x ts a []) :
    Reads (Grammar.group delimiter x) (.group delimiter start close ts :: rest) a rest := by
  intro scope read leftover
  obtain ⟨inner, hinner⟩ : ∃ inner, x ⟨close, some delimiter⟩ ⟨ts, [], leftover⟩ =
      .ok (a, ⟨[], inner, leftover⟩) :=
    h ⟨close, some delimiter⟩ [] leftover
  rw [group_apply, if_pos rfl, hinner]
  cases leftover <;> exact ⟨_, rfl⟩

theorem loop {step : α → Reader (Bool × α)} {acc acc' last : α} (h : Loops step acc ts acc' mid)
    (hlast : Reads (step acc') mid (false, last) rest) :
    Reads (Grammar.loop acc step) ts last rest := by
  obtain ⟨n, hrounds⟩ := Becomes.loopFrom h (Nat.lt_succ_self _)
  exact .trans (.ahead hrounds) (.bind hlast (.refl _ _))

theorem untilEnd {as : List α} (h : Repeats x ts as []) : Reads (Grammar.untilEnd x) ts as [] := by
  have hfound : Reads (Grammar.loop [] (untilEndStep x)) ts as.reverse [] := by
    have hround : Reads (untilEndStep x (as.reverse ++ [])) [] (false, as.reverse) [] := by
      rw [List.append_nil]
      exact .ahead (.ite_false rfl (.refl _ _))
    exact loop (h.loops []) hround
  have hvalue : Reads (Grammar.untilEnd x) ts as.reverse.reverse [] := .bind hfound (.refl _ _)
  rwa [List.reverse_reverse] at hvalue

theorem restAfter (h : Reads x ts a rest) : Reads (Grammar.restAfter x) ts rest ts := by
  intro scope read leftover
  obtain ⟨later, hread⟩ :
      ∃ later, x scope ⟨ts, read, leftover⟩ = .ok (a, ⟨rest, later, leftover⟩) :=
    h scope read leftover
  exact ⟨read, bind_apply (probe_apply hread) _⟩

end Reads

theorem atKeyword_name {w : String} (h : isName w = true) {k : String}
    (hk : keywords.contains k = true)
    (p : Position) : atKeyword k (.leaf p (.word w) :: ts) = false := by
  have hne : w ≠ k := by
    rintro rfl
    rw [isName, hk] at h
    cases h
  exact decide_eq_false hne

variable {reader : Readers → Reader α} {stop : Position}

theorem readAll_of_reads (h : ∀ n, Reads (reader (ofDepth (n + 16))) ts a []) :
    readAll reader stop ts = .ok a := by
  obtain ⟨last, hread⟩ : ∃ last, reader (ofDepth (8 * TokenTree.countAll ts + 16)) ⟨stop, none⟩
      ⟨ts, [], none⟩ = .ok (a, ⟨[], last, none⟩) :=
    h (8 * TokenTree.countAll ts) ⟨stop, none⟩ [] none
  exact readAll_eq_ok_iff.mpr ⟨_, hread, rfl, rfl⟩

theorem readAll_of_fails (h : ∀ n, Fails (reader (ofDepth (n + 16))) ts) :
    ∃ failure, readAll reader stop ts = .error failure := by
  obtain ⟨failure, hread⟩ := h (8 * TokenTree.countAll ts) ⟨stop, none⟩ [] none
  exact ⟨failure, by simp only [readAll, ReaderT.run, StateT.run, hread]⟩

end MarkerIndex.Grammar
