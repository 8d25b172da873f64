import MarkerIndex.Proofs.Delivery
import MarkerIndex.Proofs.NormalPlace
/-!
Which files deliveries take away. A delivery of nothing takes away the file that its path leads to,
if the file holds a text, and no other delivery takes away anything. What the text is, and whether
an earlier delivery wrote it, is not asked. The main statement is about runs of deliveries to any
paths.
-/

namespace MarkerIndex.Disk

/-- A path, and what is delivered to it. -/
abbrev DeliveryCall : Type := FilePath × Option String

/-- The disk after deliveries to any paths, one after the other. -/
def deliverEach (d : Disk) (calls : List DeliveryCall) : Disk :=
  calls.foldl (fun d call => (d.deliver call.1 call.2).disk) d

/-- The call takes away the file at a place. -/
def Removes (d : Disk) (call : DeliveryCall) (place : Place) : Prop :=
  (d.tree.contents? place).isSome = true ∧
    (d.deliver call.1 call.2).disk.tree.contents? place = none

/-- The call fails in writing the file at a place, and has altered the file. -/
def BreaksOffAt (d : Disk) (call : DeliveryCall) (place : Place) : Prop :=
  (∃ problem, (d.deliver call.1 call.2).result = .error (.fileSystem .write problem)) ∧
    (d.deliver call.1 call.2).disk.tree.contents? place ≠ d.tree.contents? place

/-- The call writes the file at a place, or some of it. -/
def Writes (d : Disk) (call : DeliveryCall) (place : Place) : Prop :=
  ((d.deliver call.1 call.2).result = .ok .written ∨ d.BreaksOffAt call place) ∧
    d.spelledPlace call.1 = place

/-- No call of a run writes the file at a place. -/
def LeavesUnwritten (d : Disk) (calls : List DeliveryCall) (place : Place) : Prop :=
  ∀ earlier call later, calls = earlier ++ call :: later →
    ¬ (d.deliverEach earlier).Writes call place

variable {d : Disk} {p : FilePath} {g : Option String} {calls : List DeliveryCall}
  {call : DeliveryCall} {place : Place} {contents : ByteArray}

/-- A file is taken away by a delivery of nothing to a path that leads to it, if it holds a text. -/
theorem contents?_deliver_eq_none_iff (h : d.tree.contents? place = some contents) :
    (d.deliver p g).disk.tree.contents? place = none ↔
      g = none ∧ d.locate p = .ok place ∧ ∃ text : String, contents = text.toUTF8 := by
  have hall := delivering d p g
  constructor
  · intro hgone
    have hchanged : (d.deliver p g).disk.tree.contents? place ≠ d.tree.contents? place := by
      simp [hgone, h]
    rcases hall.changed hchanged with
        ⟨text, hnothing, hlocate, htext, -⟩ | ⟨_, _, -, -, htext, -⟩
    · exact ⟨hnothing, hlocate, text, Option.some.inj (h.symm.trans htext)⟩
    · rw [hgone] at htext
      cases htext
  · rintro ⟨rfl, hlocate, text, rfl⟩
    have hfound : d.contentsAt? p = some text.toUTF8 := (contentsAt?_of_locate hlocate).trans h
    generalize d.deliver p none = change at hall ⊢
    cases hall with
    | unreadable _ hread =>
        have htext := readText_of_contentsAt? hfound
        rw [fromUTF8?_eq_some_iff.mpr rfl, hread] at htext
        cases htext
    | skipped hnone =>
        rw [hfound] at hnone
        cases hnone
    | removed _ hleads =>
        obtain rfl := Except.ok.inj (hlocate.symm.trans hleads.locate)
        exact hleads.contents?_withoutFile_self

theorem removes_iff : d.Removes call place ↔ ∃ text : String,
    d.tree.contents? place = some text.toUTF8 ∧ call.2 = none ∧ d.locate call.1 = .ok place := by
  constructor
  · rintro ⟨hsome, hgone⟩
    obtain ⟨contents, hcontents⟩ := Option.isSome_iff_exists.mp hsome
    obtain ⟨hnothing, hlocate, text, rfl⟩ := (contents?_deliver_eq_none_iff hcontents).mp hgone
    exact ⟨text, hcontents, hnothing, hlocate⟩
  · rintro ⟨text, hcontents, hnothing, hlocate⟩
    exact ⟨by rw [hcontents]; rfl,
      (contents?_deliver_eq_none_iff hcontents).mpr ⟨hnothing, hlocate, text, rfl⟩⟩

/-- A call that does not write a file leaves it as it is, or takes it away. -/
theorem contents?_deliver_of_not_writes (h : ¬ d.Writes call place) :
    (d.deliver call.1 call.2).disk.tree.contents? place = d.tree.contents? place ∨
      (d.deliver call.1 call.2).disk.tree.contents? place = none := by
  by_cases hsame : (d.deliver call.1 call.2).disk.tree.contents? place = d.tree.contents? place
  · exact Or.inl hsame
  · rcases (delivering d call.1 call.2).changed hsame with
      ⟨-, -, -, -, hgone⟩ | ⟨ready, -, hgains, hleads, -, hresult⟩
    · exact Or.inr hgone
    · have hplace := (hgains.spelledPlace call.1).symm.trans
        (eq_spelledPlace_of_locate hleads.locate).symm
      exact absurd ⟨hresult.imp_right fun hproblem => ⟨hproblem, hsame⟩, hplace⟩ h

theorem deliverEach_append (d : Disk) (earlier later : List DeliveryCall) :
    d.deliverEach (earlier ++ later) = (d.deliverEach earlier).deliverEach later := by
  simp only [deliverEach, List.foldl_append]

theorem deliverEach_concat (d : Disk) (calls : List DeliveryCall) (call : DeliveryCall) :
    d.deliverEach (calls ++ [call]) = ((d.deliverEach calls).deliver call.1 call.2).disk := by
  rw [deliverEach_append]
  rfl

theorem LeavesUnwritten.of_append {more : List DeliveryCall}
    (h : d.LeavesUnwritten (calls ++ more) place) :
    d.LeavesUnwritten calls place := by
  rintro earlier call later rfl
  exact h earlier call (later ++ more) (by simp)

/-- A file that no call of a run writes stays as it is, or is taken away by one of the calls. By
induction on the run, the last call last. -/
theorem kept_or_removed (h : d.LeavesUnwritten calls place) :
    (d.deliverEach calls).tree.contents? place = d.tree.contents? place ∨
    (d.deliverEach calls).tree.contents? place = none ∧ ∃ earlier call later,
      calls = earlier ++ call :: later ∧ (d.deliverEach earlier).Removes call place := by
  induction calls using List.reverseRecOn with
  | nil => exact Or.inl rfl
  | append_singleton calls call ih =>
      have hlast : ¬ (d.deliverEach calls).Writes call place := h calls call [] rfl
      rw [deliverEach_concat]
      rcases ih h.of_append with hkept | ⟨hgone, earlier, first, later, rfl, hremoves⟩
      · rcases contents?_deliver_of_not_writes hlast with hsame | hgone
        · exact Or.inl (hsame.trans hkept)
        · cases hcontents : d.tree.contents? place with
          | none => exact Or.inl hgone
          | some contents =>
              rw [hcontents] at hkept
              exact Or.inr ⟨hgone, calls, call, [], rfl, by rw [hkept]; rfl, hgone⟩
      · refine Or.inr ⟨?_, earlier, first, later ++ [call], by simp, hremoves⟩
        rcases contents?_deliver_of_not_writes hlast with hsame | hgone'
        · exact hsame.trans hgone
        · exact hgone'

/-- What still lies at a place that no call writes is what lay there at first. -/
theorem LeavesUnwritten.kept (h : d.LeavesUnwritten calls place)
    (hstill : (d.deliverEach calls).tree.contents? place = some contents) :
    d.tree.contents? place = some contents := by
  rcases kept_or_removed h with hkept | ⟨hgone, -⟩
  · exact hkept.symm.trans hstill
  · rw [hgone] at hstill
    cases hstill

/-- A file that was taken away is not there until a call writes it. -/
theorem LeavesUnwritten.gone {later : List DeliveryCall}
    (h : d.LeavesUnwritten (calls ++ later) place)
    (hgone : (d.deliverEach calls).tree.contents? place = none) :
    (d.deliverEach (calls ++ later)).tree.contents? place = none := by
  have hlater : (d.deliverEach calls).LeavesUnwritten later place := by
    rintro before call after rfl
    rw [← deliverEach_append]
    exact h (calls ++ before) call after (by simp)
  rw [deliverEach_append]
  rcases kept_or_removed hlater with hkept | ⟨hgone', -⟩
  · exact hkept.trans hgone
  · exact hgone'

/-- A file that no call of a run writes is gone after it just when a delivery of nothing went to a
path that led to the file, and it held a text. -/
theorem LeavesUnwritten.gone_iff (h : d.LeavesUnwritten calls place)
    (hcontents : d.tree.contents? place = some contents) :
    (d.deliverEach calls).tree.contents? place = none ↔ (∃ text : String, contents = text.toUTF8) ∧
      ∃ earlier p later, calls = earlier ++ (p, none) :: later ∧
        (d.deliverEach earlier).locate p = .ok place := by
  constructor
  · intro hgone
    rcases kept_or_removed h with hkept | ⟨-, earlier, ⟨p, g⟩, later, rfl, hremoves⟩
    · rw [hkept, hcontents] at hgone
      cases hgone
    · obtain ⟨text, htext, rfl, hlocate⟩ := removes_iff.mp hremoves
      have hsame := hcontents.symm.trans (h.of_append.kept htext)
      exact ⟨⟨text, Option.some.inj hsame⟩, earlier, p, later, rfl, hlocate⟩
  · rintro ⟨⟨text, rfl⟩, earlier, p, later, rfl, hlocate⟩
    rw [List.append_cons] at h ⊢
    refine h.gone ?_
    rw [deliverEach_concat]
    -- the call takes the file away if it is still there, and does not write it if it is not
    rcases kept_or_removed h.of_append.of_append with hkept | ⟨hgone, -⟩
    · exact (removes_iff.mpr ⟨text, hkept.trans hcontents, rfl, hlocate⟩).2
    · rcases contents?_deliver_of_not_writes (h earlier (p, none) later (by simp)) with
          hsame | hgone'
      · exact hsame.trans hgone
      · exact hgone'

/-- What a file holds begins as everything does that is generated. -/
def BeginsGenerated (contents : ByteArray) : Prop :=
  Emission.header.toUTF8.data.toList <+: contents.data.toList

instance (contents : ByteArray) : Decidable (BeginsGenerated contents) :=
  inferInstanceAs (Decidable (_ <+: _))

/-- No call of a run takes away a file that was there before the run, that no earlier call has
written, and that does not begin as generated files do. -/
def SparesForeign (d : Disk) (calls : List DeliveryCall) : Prop :=
  ∀ place contents, d.tree.contents? place = some contents → ¬ BeginsGenerated contents →
    ∀ earlier call later, calls = earlier ++ call :: later → d.LeavesUnwritten earlier place →
      ¬ (d.deliverEach earlier).Removes call place

theorem sparesForeign_iff (d : Disk) (calls : List DeliveryCall) : d.SparesForeign calls ↔
    ∀ earlier p later, calls = earlier ++ (p, none) :: later →
      ∀ place (text : String), d.tree.contents? place = some text.toUTF8 →
      d.LeavesUnwritten earlier place →
        (d.deliverEach earlier).locate p = .ok place → BeginsGenerated text.toUTF8 := by
  constructor
  · rintro hspares earlier p later rfl place text htext hunwritten hlocate
    by_contra hforeign
    -- the first call that takes the file away is this one or an earlier one
    rcases kept_or_removed hunwritten with hkept | ⟨-, before, call, after, rfl, hremoves⟩
    · refine hspares place _ htext hforeign earlier (p, none) later rfl hunwritten ?_
      exact removes_iff.mpr ⟨text, hkept.trans htext, rfl, hlocate⟩
    · exact hspares place _ htext hforeign before call (after ++ (p, none) :: later) (by simp)
        hunwritten.of_append hremoves
  · rintro hgenerated place contents hcontents hforeign earlier ⟨p, g⟩ later rfl hunwritten hremoves
    obtain ⟨text, htext, rfl, hlocate⟩ := removes_iff.mp hremoves
    obtain rfl := Option.some.inj ((hunwritten.kept htext).symm.trans hcontents)
    exact hforeign (hgenerated earlier p later rfl place text hcontents hunwritten hlocate)

/-- Runs of deliveries to any paths take away a file that does not begin as generated files do, just
where a delivery of nothing goes to a path that leads to it, before any delivery has written it, and
it holds a text. Whether a file is taken away that no call of the run writes depends on nothing
else. -/
theorem removed_in_run (d : Disk) (calls : List DeliveryCall) :
    (d.SparesForeign calls ↔ ∀ earlier p later, calls = earlier ++ (p, none) :: later →
      ∀ place (text : String), d.tree.contents? place = some text.toUTF8 →
      d.LeavesUnwritten earlier place →
        (d.deliverEach earlier).locate p = .ok place → BeginsGenerated text.toUTF8) ∧
    ∀ place contents, d.tree.contents? place = some contents → d.LeavesUnwritten calls place →
      ((d.deliverEach calls).tree.contents? place = some contents ∨
        (d.deliverEach calls).tree.contents? place = none) ∧
      ((d.deliverEach calls).tree.contents? place = none ↔
        (∃ text : String, contents = text.toUTF8) ∧
        ∃ earlier p later, calls = earlier ++ (p, none) :: later ∧
          (d.deliverEach earlier).locate p = .ok place) := by
  refine ⟨sparesForeign_iff d calls, fun place contents hcontents hunwritten => ⟨?_, ?_⟩⟩
  · rcases kept_or_removed hunwritten with hkept | ⟨hgone, -⟩
    · exact Or.inl (hkept.trans hcontents)
    · exact Or.inr hgone
  · exact hunwritten.gone_iff hcontents

/-- A directory with a file that nobody generated. -/
def handmade : Disk where
  tree := .ofTexts [(["x", "made.rs"], "mod part;\n")]
  here := ["x"]

theorem handmade_removed : ¬ handmade.SparesForeign [(⟨"made.rs"⟩, none)] := by
  intro hspares
  refine hspares ["x", "made.rs"] "mod part;\n".toUTF8 (by decide +kernel) (by decide +kernel) []
    (⟨"made.rs"⟩, none) [] rfl ?_ ?_
  · rintro earlier call later hsplit
    simp at hsplit
  · exact ⟨by decide +kernel, by decide +kernel⟩

end MarkerIndex.Disk
