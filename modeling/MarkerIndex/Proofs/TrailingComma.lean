import MarkerIndex.Proofs.KnownItems
import MarkerIndex.Proofs.LoadedFiles
import MarkerIndex.Proofs.Pass
import MarkerIndex.Proofs.PathSigns
import MarkerIndex.Proofs.Registry
/-!
A comma behind the argument of a directive. A path without arguments consists of words and colons,
and one with arguments has an angle bracket in it, so that no path without arguments ends in a
comma. A call that asks for a list is refused with the comma, and a crate that is read without it is
not read with it.
-/

namespace MarkerIndex

namespace TokenTree

/-- A comma, wherever it stands. -/
def comma (pos : Position) (joint : Bool) : TokenTree :=
  .leaf pos (.punct ',' joint)

end TokenTree

namespace Grammar

open TokenTree (isOfPlainPath isAngle comma)

variable {ts : List TokenTree} {shape : PathShape}

/-- A path without arguments is none with a comma behind. -/
theorem exists_failure_of_comma (h : parsePathTokens ts = .ok shape) (hplain : shape.plain = true)
    (pos : Position) (joint : Bool) :
    ∃ failure, parsePathTokens (ts ++ [comma pos joint]) = .error failure := by
  cases hread : parsePathTokens (ts ++ [comma pos joint]) with
  | error failure => exact ⟨failure, rfl⟩
  | ok other =>
      exfalso
      cases hother : other.plain with
      | true =>
          have hcomma := isOfPlainPath_of_parse hread hother (comma pos joint) (by simp)
          simp [comma, isOfPlainPath] at hcomma
      | false =>
          obtain ⟨token, member, hangle⟩ := exists_angle_of_parse hread hother
          rcases List.mem_append.mp member with hbefore | hlast
          · have htoken := isOfPlainPath_of_parse h hplain token hbefore
            rcases token with
                ⟨p, _ | ⟨c, _⟩ | _⟩ | _ <;> simp [isOfPlainPath, isAngle] at htoken hangle
            simp [htoken] at hangle
          · obtain rfl := List.mem_singleton.mp hlast
            simp [comma, isAngle] at hangle

end Grammar

namespace Directive

open TokenTree (comma)

/-- A call among the items at the top of the root file of a crate. -/
structure CallSite where
  earlierFiles : List SourceFile
  root : SourceFile
  laterFiles : List SourceFile
  before : List Item
  call : WrittenPath
  after : List Item
  root_isRoot : root.isRoot = true
  earlier_not_root : ∀ f ∈ earlierFiles, f.isRoot = false

namespace CallSite

variable (s : CallSite) (body : List TokenTree)

/-- The root file, in which the call has a body. -/
def file : SourceFile :=
  { s.root with items := s.before ++ .invocation s.call body :: s.after }

/-- The crate, in which the call has a body. -/
def crate : Corpus :=
  ⟨s.earlierFiles ++ s.file body :: s.laterFiles⟩

theorem root?_crate : (s.crate body).root? = some (s.file body) := by
  have hearlier : s.earlierFiles.find? (·.isRoot) = none := by simpa using s.earlier_not_root
  have hroot : (s.file body).isRoot = true := s.root_isRoot
  simp [Corpus.root?, crate, List.find?_append, hearlier, hroot]

/-- What a call has for its body says nothing about the modules of a crate. -/
theorem table_crate (body' : List TokenTree) (external : List ItemPath) :
    (s.crate body).table external = (s.crate body').table external := by
  have hfile : ∀ body, Fact.ofFile (s.file body) =
      (s.root.module, .module) :: (Fact.ofItems s.root.module s.before ++
        Fact.ofItems s.root.module s.after) := by
    intro body
    simp only [Fact.ofFile, file, Fact.ofItems_eq_flatMap, List.flatMap_append, List.flatMap_cons,
      Fact.ofItem, List.nil_append]
  simp only [Corpus.table, SymbolTable.ofCorpus, crate, List.flatMap_append,
    List.flatMap_cons, hfile]

end CallSite

/-- Every call at the top of a root file is at some site. -/
theorem exists_callSite {c : Corpus} {root : SourceFile} (hroot : c.root? = some root)
    {before after : List Item} {call : WrittenPath} {body : List TokenTree}
    (hitems : root.items = before ++ .invocation call body :: after) :
    ∃ s : CallSite, s.crate body = c ∧ s.file body = root ∧ s.before = before ∧ s.call = call ∧
      s.after = after := by
  obtain ⟨hisRoot, earlier, later, hfiles, hearlier⟩ := List.find?_eq_some_iff_append.mp hroot
  let s : CallSite := ⟨earlier, root, later, before, call, after, hisRoot, by simpa using hearlier⟩
  have hfile : s.file body = root := by
    simp only [CallSite.file, s, ← hitems]
  refine ⟨s, ?_, hfile, rfl, rfl, rfl⟩
  simp only [CallSite.crate, hfile, s, ← hfiles]

section

variable {s : CallSite} {t : SymbolTable} {settings : Settings} {body body' : List TokenTree}

/-- What the other calls of the root file ask for, and this one where it asks for a list. -/
theorem CallSite.calls_file (s : CallSite) (body : List TokenTree) :
    calls t settings (s.file body) =
    s.before.filterMap (callOf? t settings s.root) ++
      ((callOf? t settings s.root (.invocation s.call body)).toList ++
        s.after.filterMap (callOf? t settings s.root)) := by
  rw [calls_eq_filterMap]
  change (s.before ++ .invocation s.call body :: s.after).filterMap (callOf? t settings s.root) = _
  rw [List.filterMap_append, List.filterMap_cons]
  cases callOf? t settings s.root (.invocation s.call body) <;> rfl

theorem markers_crate (s : CallSite) (body : List TokenTree) : markers (s.crate body) t settings =
    ((calls t settings (s.file body)).mapM fun call =>
      marker t s.root call.1 call.2).map firstSeen :=
  markers_of_root (s.root?_crate body)

/-- The body of a call that asks for nothing does not matter. -/
theorem markers_crate_congr (hother : ¬ Asks t settings s.root s.call) :
    markers (s.crate body) t settings = markers (s.crate body') t settings := by
  have hcall : ∀ body, callOf? t settings s.root (.invocation s.call body) = none :=
    fun body => if_neg (mt isDirective_iff.mp hother)
  rw [markers_crate, markers_crate, CallSite.calls_file, CallSite.calls_file, hcall, hcall]

end

theorem not_names_comma {t : SymbolTable} {root : SourceFile} {body : List TokenTree}
    {pos : Position}
    {joint : Bool} {p : ItemPath} : ¬ Names t root (body ++ [comma pos joint]) p := by
  rintro ⟨hshape, hplain, -⟩
  have hcomma := Grammar.isOfPlainPath_of_parse hshape hplain (comma pos joint) (by simp)
  simp [comma, TokenTree.isOfPlainPath] at hcomma

/-- What a crate asks lists for. -/
def CallSite.asked (s : CallSite) (external : List ItemPath) (settings : Settings)
    (body : List TokenTree) : Except Error (List ItemPath) :=
  markers (s.crate body) ((s.crate body).table external) settings

section

variable {s : CallSite} {external : List ItemPath} {settings : Settings} {body : List TokenTree}
  {pos : Position} {joint : Bool}

theorem asked_eq (s : CallSite) (external : List ItemPath) (settings : Settings)
    (body body' : List TokenTree) : s.asked external settings body' =
      markers (s.crate body') ((s.crate body).table external) settings := by
  rw [CallSite.asked, s.table_crate body' body]

theorem not_asked_comma (hasks : Asks ((s.crate body).table external) settings s.root s.call)
    (found : List ItemPath) :
    s.asked external settings (body ++ [comma pos joint]) ≠ .ok found := by
  intro h
  rw [asked_eq s external settings body] at h
  have hcall : .invocation s.call (body ++
      [comma pos joint]) ∈ (s.file (body ++ [comma pos joint])).items := by
    simp [CallSite.file]
  obtain ⟨p, -, hmarker⟩ := exists_marker h (s.root?_crate _) hcall (isDirective_iff.mpr hasks)
  exact not_names_comma (marker_eq_ok_iff.mp hmarker)

/-- A crate whose directives are read is refused, at the very call, once a comma stands behind its
argument. -/
theorem asked_comma_of_ok (pos : Position) (joint : Bool)
    (hasks : Asks ((s.crate body).table external) settings s.root s.call)
    {found : List ItemPath} (h : s.asked external settings body = .ok found) :
    ∃ failure, s.asked external settings (body ++ [comma pos joint]) =
      .error (.malformedDirective s.root.path s.call.line (.notAPath failure)) := by
  let t := (s.crate body).table external
  have hcall :
      ∀ body, callOf? t settings s.root (.invocation s.call body) = some (s.call.line, body) :=
    fun body => if_pos (isDirective_iff.mpr hasks)
  obtain ⟨paths, hall, -⟩ := exists_of_markers h (s.root?_crate body)
  rw [s.calls_file, hcall] at hall
  have hread := Traversal.forall_of_mapM_ok hall
  obtain ⟨p, -, hp⟩ := hread (s.call.line, body) (by simp)
  obtain ⟨hshape, hplain, -⟩ := marker_eq_ok_iff.mp hp
  obtain ⟨failure, hfailure⟩ := Grammar.exists_failure_of_comma hshape hplain pos joint
  refine ⟨failure, ?_⟩
  -- the calls in front of this one are read as before
  have hfails : (calls t settings (s.file (body ++ [comma pos joint]))).mapM
      (fun call => marker t s.root call.1 call.2) =
        .error (.malformedDirective s.root.path s.call.line (.notAPath failure)) := by
    rw [s.calls_file, hcall]
    refine Traversal.mapM_eq_error_iff.mpr ⟨_, _, _, rfl, fun earlier member => ?_, ?_⟩
    · obtain ⟨q, -, hq⟩ := hread earlier (List.mem_append_left _ member)
      exact ⟨q, hq⟩
    · exact marker_eq_error_iff.mpr (.notAPath hfailure)
  rw [asked_eq s external settings body, markers_crate, hfails]
  rfl

/-- A comma behind the argument of a call makes no difference to the tables of a crate. It makes
none to what the crate asks for either just where the call asks for no list, or the crate is refused
without the comma. Everywhere else the crate is refused with it. -/
theorem asked_comma_iff (s : CallSite) (external : List ItemPath) (settings : Settings)
    (body : List TokenTree) (pos : Position) (joint : Bool) :
    (s.crate (body ++ [comma pos joint])).table external = (s.crate body).table external ∧
    ((s.asked external settings (body ++ [comma pos joint])).toOption =
        (s.asked external settings body).toOption ↔
      ¬ Asks ((s.crate body).table external) settings s.root s.call ∨
        ∃ error, s.asked external settings body = .error error) ∧
    (Asks ((s.crate body).table external) settings s.root s.call →
      ∀ found, s.asked external settings body = .ok found →
        ∃ failure, s.asked external settings (body ++ [comma pos joint]) =
          .error (.malformedDirective s.root.path s.call.line (.notAPath failure))) := by
  refine ⟨s.table_crate _ _ _, ⟨fun halike => ?_, ?_⟩, fun hasks found =>
    asked_comma_of_ok pos joint hasks⟩
  · rw [or_iff_not_imp_left, not_not]
    intro hasks
    cases hfound : s.asked external settings body with
    | error error => exact ⟨error, rfl⟩
    | ok found =>
        obtain ⟨failure, hfails⟩ := asked_comma_of_ok pos joint hasks hfound
        rw [hfound, hfails] at halike
        cases halike
  · rintro (hother | ⟨error, herror⟩)
    · rw [asked_eq s external settings body, CallSite.asked, markers_crate_congr hother]
    · cases hcomma : s.asked external settings (body ++ [comma pos joint]) with
      | error other => rw [herror]; rfl
      | ok found =>
          by_cases hasks : Asks ((s.crate body).table external) settings s.root s.call
          · exact absurd hcomma (not_asked_comma hasks found)
          · rw [asked_eq s external settings body, markers_crate_congr hasks] at hcomma
            rw [CallSite.asked, hcomma] at herror
            cases herror

end

/-- A call behind the item that it may name. -/
def behindItem : CallSite :=
  ⟨[], ⟨⟨"lib.rs"⟩, .crateRoot, [], true⟩, [], [.declaration "Marker"],
    ⟨false, ["generate_functions_with"], 2⟩, [], rfl, by simp⟩

/-- The name of the item, as it stands in the call. -/
def itemName : List TokenTree :=
  [.leaf ⟨2, 26⟩ (.word "Marker")]

theorem asked_comma_behindItem :
    Asks ((behindItem.crate itemName).table []) Settings.standard behindItem.root behindItem.call ∧
    behindItem.asked [] Settings.standard itemName = .ok [⟨["crate", "Marker"]⟩] ∧
    ∃ failure, behindItem.asked [] Settings.standard (itemName ++ [comma ⟨2, 32⟩ false]) =
      .error (.malformedDirective ⟨"lib.rs"⟩ 2 (.notAPath failure)) := by
  have hasks : Asks ((behindItem.crate itemName).table []) Settings.standard behindItem.root
      behindItem.call :=
    isDirective_iff.mp (by decide +kernel)
  have hasked : behindItem.asked [] Settings.standard itemName = .ok [⟨["crate", "Marker"]⟩] :=
    Pass.ok_of_toOption (by decide +kernel)
  exact ⟨hasks, hasked,
    (asked_comma_iff behindItem [] Settings.standard itemName ⟨2, 32⟩ false).2.2 hasks _ hasked⟩

/-- The two texts of the crate, with and without a comma. -/
theorem asked_refused_behindItem :
    Corpus.ofSources [(⟨"lib.rs"⟩, "pub struct Marker;\ngenerate_functions_with!(Marker);")] =
      .ok (behindItem.crate itemName) ∧
    Corpus.ofSources [(⟨"lib.rs"⟩, "pub struct Marker;\ngenerate_functions_with!(Marker,);")] =
      .ok (behindItem.crate (itemName ++ [comma ⟨2, 32⟩ false])) ∧
    (behindItem.asked [] Settings.standard itemName).toOption = some [⟨["crate", "Marker"]⟩] ∧
    (behindItem.asked [] Settings.standard (itemName ++ [comma ⟨2, 32⟩ false])).toOption =
      none := by
  have hplain : Grammar.parseFile "pub struct Marker;\ngenerate_functions_with!(Marker);" =
      .ok (behindItem.file itemName).items := Item.parse_of_sameAll (by decide +kernel)
  have hcomma : Grammar.parseFile "pub struct Marker;\ngenerate_functions_with!(Marker,);" =
      .ok (behindItem.file (itemName ++ [comma ⟨2, 32⟩ false])).items :=
    Item.parse_of_sameAll (by decide +kernel)
  exact ⟨Corpus.ofSources_library hplain (by decide +kernel),
    Corpus.ofSources_library hcomma (by decide +kernel), by decide +kernel, by decide +kernel⟩

end Directive

end MarkerIndex
