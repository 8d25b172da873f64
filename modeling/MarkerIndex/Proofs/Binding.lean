import MarkerIndex.Emission
import Mathlib.Data.List.Pairwise
/-!
When emission refuses a classification. `Emission.collision?` walks the entries with the marker last
seen under each name; it finds nothing exactly when entries that share a name share their marker.
What it finds otherwise is the first entry that clashes with an earlier one: up to there all entries
of a name have one marker, so that the one last seen stands for all of them.
-/

namespace MarkerIndex

namespace Emission

variable {seen : List (String × ItemPath)} {entries before : List ListEntry} {e : ListEntry}
  {first : ItemPath} {error : Error}

/-- The walk goes on past an entry whose name was not seen with another marker. -/
theorem collision?_cons (h : ∀ first, seen.lookup e.bindingName = some first → first = e.marker) :
    collision? seen (e :: entries) = collision? ((e.bindingName, e.marker) :: seen) entries := by
  cases found : seen.lookup e.bindingName with
  | none => simp only [collision?, found]
  | some first => simp only [collision?, found, h first found, ↓reduceIte]

theorem collision?_cons_of_ne (found : seen.lookup e.bindingName = some first)
    (h : first ≠ e.marker) :
    collision? seen (e :: entries) = some (.bindingCollision e.bindingName first e.marker) := by
  simp only [collision?, found, h, ↓reduceIte]

/-- Entries whose constants would have one name are entries of one marker. -/
def NamesAgree (entries : List ListEntry) : Prop :=
  entries.Pairwise fun a b => a.bindingName = b.bindingName → a.marker = b.marker

/-- The entries agree with what was seen before them: under the name of an entry stands its marker
or nothing. -/
def AgreesWith (seen : List (String × ItemPath)) (entries : List ListEntry) : Prop :=
  ∀ e ∈ entries, ∀ first, seen.lookup e.bindingName = some first → first = e.marker

theorem agreesWith_cons_iff (seen : List (String × ItemPath)) (e : ListEntry)
    (entries : List ListEntry)
    (he : ∀ first, seen.lookup e.bindingName = some first → first = e.marker) :
    AgreesWith ((e.bindingName, e.marker) :: seen) entries ↔
      AgreesWith seen entries ∧
        ∀ later ∈ entries, e.bindingName = later.bindingName → e.marker = later.marker := by
  constructor
  · intro h
    have hlater : ∀ later ∈ entries, e.bindingName = later.bindingName →
        e.marker = later.marker := by
      intro later member same
      exact h later member e.marker (by simp [same])
    refine ⟨?_, hlater⟩
    intro later member first found
    by_cases same : e.bindingName = later.bindingName
    · rw [← same] at found
      exact (he first found).trans (hlater later member same)
    · apply h later member first
      simpa [List.lookup_cons, beq_false_of_ne (Ne.symm same)] using found
  · rintro ⟨hseen, hlater⟩ later member first found
    by_cases same : e.bindingName = later.bindingName
    · have hfirst : e.marker = first := by simpa [List.lookup_cons, same] using found
      exact hfirst ▸ hlater later member same
    · apply hseen later member first
      simpa [List.lookup_cons, beq_false_of_ne (Ne.symm same)] using found

/-- The walk looks only at the marker last seen under a name, and that is enough: as long as it goes
on, all markers seen under one name are the same. -/
theorem collision?_eq_none_iff (seen : List (String × ItemPath)) (entries : List ListEntry) :
    collision? seen entries = none ↔ AgreesWith seen entries ∧ NamesAgree entries := by
  induction entries generalizing seen with
  | nil => simp [collision?, AgreesWith, NamesAgree]
  | cons e entries ih =>
      have hsplit : AgreesWith seen (e :: entries) ↔
          (∀ first, seen.lookup e.bindingName = some first → first = e.marker) ∧
            AgreesWith seen entries := by
        simp [AgreesWith]
      by_cases hgoes : ∀ first, seen.lookup e.bindingName = some first → first = e.marker
      · rw [collision?_cons hgoes, ih, agreesWith_cons_iff seen e entries hgoes, hsplit, NamesAgree,
          NamesAgree, List.pairwise_cons]
        constructor
        · rintro ⟨⟨hseen, hlater⟩, hpair⟩
          exact ⟨⟨hgoes, hseen⟩, hlater, hpair⟩
        · rintro ⟨⟨_, hseen⟩, hlater, hpair⟩
          exact ⟨⟨hseen, hlater⟩, hpair⟩
      · rw [hsplit]
        simp only [not_forall, exists_prop] at hgoes
        obtain ⟨first, found, hne⟩ := hgoes
        simp only [collision?_cons_of_ne found hne, reduceCtorEq, false_iff]
        rintro ⟨⟨hagree, _⟩, _⟩
        exact hne (hagree first found)

/-- Two entries of different markers whose constants would have one name. -/
def Clash (a b : ListEntry) : Prop :=
  a.bindingName = b.bindingName ∧ a.marker ≠ b.marker

/-- The later entry clashes with an earlier one, and no two entries before it clash. -/
def ClashesFirst (entries : List ListEntry) (earlier later : ListEntry) : Prop :=
  ∃ before after, entries = before ++ later :: after ∧ NamesAgree before ∧
    earlier ∈ before ∧ Clash earlier later

/-- Names agree where no two entries clash, in whichever order they stand. -/
theorem exists_clash_iff : (∃ a ∈ entries, ∃ b ∈ entries, Clash a b) ↔ ¬ NamesAgree entries := by
  rw [iff_not_comm]
  have hsymm :
      Std.Symm fun a b : ListEntry => a.bindingName = b.bindingName → a.marker = b.marker :=
    ⟨fun a b h hname => (h hname.symm).symm⟩
  constructor
  · rintro hagree ⟨a, ha, b, hb, hname, hmarker⟩
    exact hmarker (hagree.forall_of_forall (fun _ _ _ => rfl) ha hb hname)
  · intro hnone
    refine List.pairwise_of_forall_mem_list fun a ha b hb hname => ?_
    by_contra hmarker
    exact hnone ⟨a, ha, b, hb, hname, hmarker⟩

/-- What the walk has seen when it has gone through some entries. -/
def seenAfter (seen : List (String × ItemPath)) (entries : List ListEntry) :
    List (String × ItemPath) :=
  (entries.map fun e => (e.bindingName, e.marker)).reverse ++ seen

theorem seenAfter_cons (seen : List (String × ItemPath)) (e : ListEntry)
    (entries : List ListEntry) :
    seenAfter seen (e :: entries) = seenAfter ((e.bindingName, e.marker) :: seen) entries := by
  simp [seenAfter]

/-- The walk fails at the first entry that has another marker than the one last seen under its name.
-/
theorem collision?_eq_some_iff : collision? seen entries = some error ↔
    ∃ before later after first, entries = before ++ later :: after ∧ collision? seen before = none ∧
      (seenAfter seen before).lookup later.bindingName = some first ∧ first ≠ later.marker ∧
      error = .bindingCollision later.bindingName first later.marker := by
  induction entries generalizing seen with
  | nil => simp [collision?]
  | cons e entries ih =>
      by_cases hgoes : ∀ first, seen.lookup e.bindingName = some first → first = e.marker
      · rw [collision?_cons hgoes, ih]
        constructor
        · rintro ⟨before, later, after, first, rfl, hfree, found, hne, rfl⟩
          exact ⟨e :: before, later, after, first, rfl, (collision?_cons hgoes).trans hfree,
            by rwa [seenAfter_cons], hne, rfl⟩
        · rintro ⟨before, later, after, first, hsplit, hfree, found, hne, rfl⟩
          cases before with
          | nil =>
              obtain ⟨rfl, rfl⟩ := List.cons.inj hsplit
              exact absurd (hgoes first found) hne
          | cons _ before =>
              obtain ⟨rfl, rfl⟩ := List.cons.inj hsplit
              rw [collision?_cons hgoes] at hfree
              rw [seenAfter_cons] at found
              exact ⟨before, later, after, first, rfl, hfree, found, hne, rfl⟩
      · -- the walk ends at `e`, so nothing stands before the entry where it ends
        simp only [not_forall, exists_prop] at hgoes
        obtain ⟨first, found, hne⟩ := hgoes
        rw [collision?_cons_of_ne found hne, Option.some_inj]
        constructor
        · rintro rfl
          exact ⟨[], e, entries, first, rfl, rfl, found, hne, rfl⟩
        · rintro ⟨before, later, after, other, hsplit, hfree, hother, -, rfl⟩
          cases before with
          | nil =>
              obtain ⟨rfl, rfl⟩ := List.cons.inj hsplit
              obtain rfl := Option.some.inj (found.symm.trans hother)
              rfl
          | cons _ before =>
              obtain ⟨rfl, -⟩ := List.cons.inj hsplit
              rw [collision?_cons_of_ne found hne] at hfree
              cases hfree

/-- The only error the walk knows. -/
theorem exists_of_collision?_eq_some (h : collision? seen entries = some error) :
    ∃ name first second, error = .bindingCollision name first second := by
  obtain ⟨_, later, _, first, -, -, -, -, rfl⟩ := collision?_eq_some_iff.mp h
  exact ⟨later.bindingName, first, later.marker, rfl⟩

/-- As long as names agree, the marker last seen under a name is that of every entry of the name. -/
theorem lookup_seenAfter_iff {name : String} (h : NamesAgree before) :
    (seenAfter [] before).lookup name = some first ↔
      ∃ earlier ∈ before, earlier.bindingName = name ∧ earlier.marker = first := by
  have hsound : ∀ marker, (seenAfter [] before).lookup name = some marker →
      ∃ e ∈ before, e.bindingName = name ∧ e.marker = marker := by
    intro marker found
    obtain ⟨front, rest, hsplit, -⟩ := List.lookup_eq_some_iff.mp found
    have member : (name, marker) ∈ seenAfter [] before := by simp [hsplit]
    simpa [seenAfter] using member
  refine ⟨hsound first, ?_⟩
  rintro ⟨earlier, hearlier, rfl, rfl⟩
  have hsome : ((seenAfter [] before).lookup earlier.bindingName).isSome = true := by
    rw [List.lookup_isSome_iff]
    have member : (earlier.bindingName, earlier.marker) ∈ seenAfter [] before := by
      simpa [seenAfter] using ⟨earlier, hearlier, rfl, rfl⟩
    exact ⟨_, member, by simp⟩
  obtain ⟨marker, found⟩ := Option.isSome_iff_exists.mp hsome
  obtain ⟨e, he, hname, rfl⟩ := hsound marker found
  by_contra hne
  rw [found, Option.some_inj] at hne
  exact exists_clash_iff.mp ⟨e, he, earlier, hearlier, hname, hne⟩ h

theorem collision?_nil_eq_none_iff : collision? [] entries = none ↔ NamesAgree entries := by
  rw [collision?_eq_none_iff, AgreesWith]
  simp

theorem collision?_nil_eq_some_iff : collision? [] entries = some error ↔
    ∃ earlier later, ClashesFirst entries earlier later ∧
      error = .bindingCollision later.bindingName earlier.marker later.marker := by
  rw [collision?_eq_some_iff]
  constructor
  · rintro ⟨before, later, after, first, hsplit, hbefore, found, hne, rfl⟩
    rw [collision?_nil_eq_none_iff] at hbefore
    obtain ⟨earlier, hearlier, hname, rfl⟩ := (lookup_seenAfter_iff hbefore).mp found
    exact ⟨earlier, later, ⟨before, after, hsplit, hbefore, hearlier, hname, hne⟩, rfl⟩
  · rintro ⟨earlier, later, ⟨before, after, hsplit, hbefore, hearlier, hname, hne⟩, rfl⟩
    exact ⟨before, later, after, earlier.marker, hsplit, collision?_nil_eq_none_iff.mpr hbefore,
      (lookup_seenAfter_iff hbefore).mpr ⟨earlier, hearlier, hname, rfl⟩, hne, rfl⟩

theorem emit_of_ne_nil (s : Emission) {c : Classification} (h : c.entries ≠ []) :
    s.emit c = match collision? [] c.entries with
      | some error => .error error
      | none => .ok (some (join (s.lines c.entries))) := by
  have hempty : c.isEmpty = false := by simpa [Classification.isEmpty] using h
  rw [emit, hempty]
  rfl

theorem emit_eq_none_iff (s : Emission) (c : Classification) :
    s.emit c = .ok none ↔ c.entries = [] := by
  constructor
  · intro h
    by_contra hne
    rw [emit_of_ne_nil s hne] at h
    split at h <;> cases h
  · intro hnil
    simp [emit, Classification.isEmpty, hnil]

theorem emit_eq_error_iff (s : Emission) (c : Classification) (error : Error) :
    s.emit c = .error error ↔ collision? [] c.entries = some error := by
  by_cases hnil : c.entries = []
  · simp [emit, Classification.isEmpty, hnil, collision?]
  · rw [emit_of_ne_nil s hnil]
    cases collision? [] c.entries <;> simp

theorem emit_eq_some_iff (s : Emission) (c : Classification) (text : String) :
    s.emit c = .ok (some text) ↔
      c.entries ≠ [] ∧ NamesAgree c.entries ∧ text = join (s.lines c.entries) := by
  by_cases hnil : c.entries = []
  · simp [(emit_eq_none_iff s c).mpr hnil, hnil]
  · rw [emit_of_ne_nil s hnil, ← collision?_nil_eq_none_iff]
    cases collision? [] c.entries <;> simp [hnil, eq_comm]

/-- Emission gives nothing just where there are no entries. It fails just where two entries clash,
and tells of the first entry that clashes with an earlier one: the name, the marker of the earlier
one, and its own. In every other case it gives the text of the entries. -/
theorem emit_by_clash (s : Emission) (c : Classification) :
    (s.emit c = .ok none ↔ c.entries = []) ∧
    ((∃ name first second, s.emit c = .error (.bindingCollision name first second)) ↔
      ∃ a ∈ c.entries, ∃ b ∈ c.entries, Clash a b) ∧
    (∀ error, s.emit c = .error error ↔ ∃ earlier later, ClashesFirst c.entries earlier later ∧
      error = .bindingCollision later.bindingName earlier.marker later.marker) ∧
    ∀ text, s.emit c = .ok (some text) ↔ c.entries ≠ [] ∧
      (¬ ∃ a ∈ c.entries, ∃ b ∈ c.entries, Clash a b) ∧ text = join (s.lines c.entries) := by
  have hfirst : ∀ error, s.emit c = .error error ↔
      ∃ earlier later, ClashesFirst c.entries earlier later ∧
      error = .bindingCollision later.bindingName earlier.marker later.marker := by
    intro error
    rw [emit_eq_error_iff, collision?_nil_eq_some_iff]
  refine ⟨emit_eq_none_iff s c, ?_, hfirst, fun text => ?_⟩
  · rw [exists_clash_iff, ← collision?_nil_eq_none_iff]
    cases found : collision? [] c.entries with
    | none => simp [emit_eq_error_iff, found]
    | some error =>
        obtain ⟨name, first, second, rfl⟩ := exists_of_collision?_eq_some found
        simp [emit_eq_error_iff, found]
  · rw [emit_eq_some_iff, exists_clash_iff, not_not]

end Emission

end MarkerIndex
