import MarkerIndex.Command.Run
import MarkerIndex.Proofs.Delivery
import MarkerIndex.Proofs.Watching
/-!
Runs that fail, and runs that check. All that is read for a pass is read before a file is touched,
and the one step that touches a file is a delivery. So a run that fails has made directories at
most, whatever it failed in, unless the write of its output broke off: then the output holds the
first bytes of what was generated. A run that checks changes nothing and answers what the delivery
would have found to do.
-/

namespace MarkerIndex

/-- What was done to a file is told apart by what is said of it. -/
theorem Delivery.remark_injective (output : FilePath) :
    Function.Injective (Delivery.remark output) := by
  intro done other h
  have hlength := congrArg (fun text : String => text.toList.length) h
  have hfirst := congrArg (fun text : String => text.toList.head?) h
  have hlast := congrArg (fun text : String => text.toList.getLast?) h
  -- all but the last remark tell by their lengths, and that one begins and ends as no other does
  cases done <;> cases other <;> first
    | rfl
    | simp [remark, String.toList_append] at hlength; done
    | simp [remark, String.toList_append] at hfirst; done
    | simp [remark, String.toList_append] at hlast

namespace Disk

variable {d : Disk} {p : FilePath} {generated : Option String} {request : GenerateRequest}
  {events : List Event}

theorem runDelivery_of_error {error : Error} (h : (d.deliver p generated).result = .error error) :
    d.runDelivery p generated events =
      .fail (d.deliver p generated).disk (.pass error) events := by
  simp only [runDelivery, h]

theorem runDelivery_of_ok {done : Delivery} (h : (d.deliver p generated).result = .ok done) :
    d.runDelivery p generated events =
      ⟨.ok (), "", done.remark p ++ "\n", (d.deliver p generated).disk, events⟩ := by
  simp only [runDelivery, h]

theorem disk_runCheck (d : Disk) (p : FilePath) (generated : Option String)
    (events : List Event) : (d.runCheck p generated events).disk = d := by
  unfold runCheck
  split <;> rfl

/-- A run that delivers and says that there was nothing to do. -/
def FindsNothingToDo (output : FilePath) (outcome : CommandOutcome) : Prop :=
  outcome.result = .ok () ∧ (outcome.notes = Delivery.unchanged.remark output ++ "\n" ∨
    outcome.notes = Delivery.skipped.remark output ++ "\n")

theorem result_runCheck_iff (d : Disk) (p : FilePath) (generated : Option String)
    (events others : List Event) : (d.runCheck p generated events).result = .ok () ↔
      FindsNothingToDo p (d.runDelivery p generated others) := by
  have hcheck :
      (d.runCheck p generated events).result = .ok () ↔ d.verify p generated = .ok () := by
    unfold runCheck
    split <;> simp [Outcome.fail, *]
  rw [hcheck, (delivering d p generated).upToDate, FindsNothingToDo]
  cases hresult : (d.deliver p generated).result with
  | error error => simp [runDelivery_of_error hresult, Outcome.fail]
  | ok done =>
      have hsame (other : Delivery) :
          done.remark p ++ "\n" = other.remark p ++ "\n" ↔ done = other := by
        rw [String.append_left_inj, (Delivery.remark_injective p).eq_iff]
      simp [runDelivery_of_ok hresult, hsame]

/-- What is to be delivered for a request. -/
def requested (d : Disk) (request : GenerateRequest) : Except CommandFailure (Option String) :=
  match d.commandSettings request.project request.config with
  | .error failure => .error failure
  | .ok settings =>
    match d.generate request.project settings with
    | .error error => .error (.pass error)
    | .ok artifact => .ok (artifact.map (·.contents))

theorem requested_eq (request : GenerateRequest) {settings : Settings} {artifact : Option Artifact}
    (hsettings : d.commandSettings request.project request.config = .ok settings)
    (hartifact : d.generate request.project settings = .ok artifact) :
    d.requested request = .ok (artifact.map (·.contents)) := by
  simp only [requested, hsettings, hartifact]

theorem runGenerate_eq (d : Disk) (request : GenerateRequest) : ∃ events, d.runGenerate request =
    match d.requested request with
    | .error failure => .fail d failure events
    | .ok generated =>
      match request.output with
      | none => ⟨.ok (), generated.getD "", "", d, events⟩
      | some output =>
        if request.check then d.runCheck output generated events
        else d.runDelivery output generated events := by
  unfold runGenerate requested
  cases d.commandSettings request.project request.config with
  | error failure => exact ⟨[], rfl⟩
  | ok settings =>
      refine ⟨(d.generateTraced request.project settings).events, ?_⟩
      dsimp only
      rw [← generate]
      cases d.generate request.project settings with
      | error error => rfl
      | ok artifact => rfl

theorem runGenerate_of_error {failure : CommandFailure}
    (hrequested : d.requested request = .error failure) :
    ∃ events, d.runGenerate request = .fail d failure events := by
  obtain ⟨events, hrun⟩ := d.runGenerate_eq request
  rw [hrequested] at hrun
  exact ⟨events, hrun⟩

theorem runGenerate_of_requested {output : FilePath}
    (hrequested : d.requested request = .ok generated)
    (houtput : request.output = some output) : ∃ events, d.runGenerate request =
      if request.check then d.runCheck output generated events
      else d.runDelivery output generated events := by
  obtain ⟨events, hrun⟩ := d.runGenerate_eq request
  rw [hrequested] at hrun
  simp only [houtput] at hrun
  exact ⟨events, hrun⟩

/-- A run that fails has made directories at most, or it has begun to write its output. -/
theorem runGenerate_error {failure : CommandFailure}
    (h : (d.runGenerate request).result = .error failure) :
    d.GainsDirectories (d.runGenerate request).disk ∨
      ∃ output text error fault, request.check = false ∧ request.output = some output ∧
        d.requested request = .ok (some text) ∧ failure = .pass error ∧
        BreaksOff d output text error (d.runGenerate request).disk fault := by
  cases hrequested : d.requested request with
  | error failure =>
      obtain ⟨events, hrun⟩ := runGenerate_of_error hrequested
      rw [hrun]
      exact Or.inl (.refl d)
  | ok generated =>
      cases houtput : request.output with
      | none =>
          obtain ⟨events, hrun⟩ := d.runGenerate_eq request
          rw [hrequested] at hrun
          simp only [houtput] at hrun
          rw [hrun]
          exact Or.inl (.refl d)
      | some output =>
          obtain ⟨events, hrun⟩ := runGenerate_of_requested hrequested houtput
          rw [hrun] at h ⊢
          cases hcheck : request.check with
          | true =>
              rw [if_pos rfl, disk_runCheck]
              exact Or.inl (.refl d)
          | false =>
              rw [hcheck, if_neg (by simp)] at h
              rw [if_neg (by simp)]
              cases hresult : (d.deliver output generated).result with
              | ok done =>
                  rw [runDelivery_of_ok hresult] at h
                  cases h
              | error error =>
                  rw [runDelivery_of_error hresult] at h ⊢
                  refine ((delivering d output generated).failed hresult).imp_right ?_
                  rintro ⟨text, fault, rfl, hbroken⟩
                  exact ⟨output, text, error, fault, rfl, rfl, rfl, (Except.error.inj h).symm,
                    hbroken⟩

theorem build_error {package out : FilePath} {error : Error}
    (h : (d.build package out).result = .error error) :
    d.GainsDirectories (d.build package out).disk ∨
      ∃ settings artifact fault, Config.settings d package none = .ok settings ∧
        d.generate package settings = .ok (some artifact) ∧
        BreaksOff d (out / settings.fileName) artifact.contents error (d.build package out).disk
          fault := by
  rcases build_cases d package out with ⟨-, -, hdisk⟩ | ⟨settings, artifact, hsettings, hgenerate⟩
  · rw [hdisk]
    exact Or.inl (.refl d)
  · rw [build_eq hsettings hgenerate] at h ⊢
    cases hresult : (d.deliver (out / settings.fileName) (artifact.map (·.contents))).result with
    | ok done =>
        simp only [hresult] at h
        cases h
    | error problem =>
        simp only [hresult] at h
        obtain rfl : problem = error := Except.error.inj h
        refine ((delivering d _ _).failed hresult).imp_right ?_
        rintro ⟨text, fault, htext, hbroken⟩
        obtain ⟨artifact, rfl, rfl⟩ := Option.map_eq_some_iff.mp htext
        exact ⟨settings, artifact, fault, hsettings, hgenerate, hbroken⟩

theorem runGenerate_check {output : FilePath} (houtput : request.output = some output)
    (hcheck : request.check = true) : (d.runGenerate request).disk = d ∧
    ((d.runGenerate request).result = .ok () ↔
      FindsNothingToDo output (d.runGenerate { request with check := false })) := by
  have hsame : d.requested { request with check := false } = d.requested request := rfl
  cases hrequested : d.requested request with
  | error failure =>
      obtain ⟨events, hrun⟩ := runGenerate_of_error hrequested
      obtain ⟨others, hunchecked⟩ := runGenerate_of_error (hsame.trans hrequested)
      rw [hrun, hunchecked]
      exact ⟨rfl, by simp [FindsNothingToDo, Outcome.fail]⟩
  | ok generated =>
      obtain ⟨events, hrun⟩ := runGenerate_of_requested hrequested houtput
      obtain ⟨others, hunchecked⟩ := runGenerate_of_requested (hsame.trans hrequested) houtput
      rw [if_neg (by simp)] at hunchecked
      rw [hrun, if_pos hcheck, hunchecked]
      exact ⟨disk_runCheck d output generated events,
        result_runCheck_iff d output generated events others⟩

/-- A package with something to generate and an output of old, on a disk that is full once a file
was emptied. -/
def crowded : Disk where
  tree :=
    { FileTree.ofTexts [(["x", "src", "lib.rs"], "generate_functions_with!(dep::Mark);\n"),
        (["x", "made.rs"], "// made\n")] with
      faults := [some ⟨0, .noSpace⟩] }
  here := ["x"]

def crowdedItems : List Item :=
  [.invocation ⟨false, ["generate_functions_with"], 1⟩
    [.leaf ⟨1, 26⟩ (.word "dep"), .leaf ⟨1, 29⟩ (.punct ':' true), .leaf ⟨1, 30⟩ (.punct ':' false),
      .leaf ⟨1, 31⟩ (.word "Mark")]]

theorem discover_crowded : (crowded.discover ⟨"."⟩ .standard).result =
    .ok ⟨[⟨⟨"src/lib.rs"⟩, .crateRoot, crowdedItems, true⟩]⟩ := by
  have hlocated : crowded.crateRoot ⟨"."⟩ Settings.standard.crateRoot = .ok ⟨"./src/lib.rs"⟩ := by
    decide +kernel
  have hplace : crowded.locate ⟨"src"⟩ = .ok ["x", "src"] := by decide +kernel
  have hsources :
      crowded.sourceSet ⟨"."⟩ .standard = .ok ⟨⟨"src/lib.rs"⟩, ⟨"src"⟩, [⟨"lib.rs"⟩]⟩ :=
    sourceSet_eq hlocated (by decide +kernel) (by decide +kernel)
      (sourceFiles_eq hplace (by decide +kernel) (by decide +kernel) (by decide +kernel))
  have hitems : Grammar.parseFile "generate_functions_with!(dep::Mark);\n" = .ok crowdedItems :=
    Item.parse_of_sameAll (by decide +kernel)
  exact discover_root hsources (Pass.ok_of_toOption (by decide +kernel)) hitems rfl

/-- A delivery fails, and the file at a place is not what it was. -/
def DeliveryStrikes (d : Disk) (p : FilePath) (place : Place) (generated : Option String) : Prop :=
  (d.deliver p generated).result.toOption = none ∧
    (d.deliver p generated).disk.tree.contents? place ≠ d.tree.contents? place

instance (d : Disk) (p : FilePath) (place : Place) (generated : Option String) :
    Decidable (d.DeliveryStrikes p place generated) :=
  inferInstanceAs (Decidable (_ ∧ _))

theorem DeliveryStrikes.exists_error {place : Place} (h : d.DeliveryStrikes p place generated) :
    ∃ error, (d.deliver p generated).result = .error error := by
  cases hresult : (d.deliver p generated).result with
  | error error => exact ⟨error, rfl⟩
  | ok done => simp [DeliveryStrikes, hresult, Except.toOption] at h

theorem settings_crowded : Config.settings crowded ⟨"."⟩ none = .ok .standard :=
  Config.settings_eq (by decide +kernel) Config.declarableName_standard rfl

theorem exists_artifact_crowded : ∃ artifact, crowded.generate ⟨"."⟩ .standard = .ok artifact ∧
    crowded.DeliveryStrikes ⟨"made.rs"⟩ ["x", "made.rs"] (artifact.map (·.contents)) ∧
    crowded.DeliveryStrikes (FilePath.mk "out" / Settings.standard.fileName)
      ["x", "out", Settings.standard.fileName] (artifact.map (·.contents)) := by
  have hcheck : (Pass.generate ⟨[⟨⟨"src/lib.rs"⟩, .crateRoot, crowdedItems, true⟩]⟩
      .standard).toOption.any (fun artifact => decide (
        crowded.DeliveryStrikes ⟨"made.rs"⟩ ["x", "made.rs"] (artifact.map (·.contents)) ∧
        crowded.DeliveryStrikes (FilePath.mk "out" / Settings.standard.fileName)
          ["x", "out", Settings.standard.fileName] (artifact.map (·.contents)))) = true := by
    decide +kernel
  obtain ⟨artifact, hpass, hstrikes⟩ := Pass.exists_ok_of_any hcheck
  refine ⟨artifact, ?_, of_decide_eq_true hstrikes⟩
  rw [generate_eq, discover_crowded]
  exact hpass

/-- The old output is empty after a command. -/
theorem runGenerate_crowded : let run := crowded.runGenerate ⟨⟨"."⟩, some ⟨"made.rs"⟩, false, none⟩
    (∃ failure, run.result = .error failure) ∧
      run.disk.tree.contents? ["x", "made.rs"] ≠ crowded.tree.contents? ["x", "made.rs"] := by
  obtain ⟨artifact, hgenerate, hstrikes, -⟩ := exists_artifact_crowded
  obtain ⟨error, herror⟩ := hstrikes.exists_error
  have hsettings : crowded.commandSettings ⟨"."⟩ none = .ok .standard := by
    rw [commandSettings, settings_crowded]
    rfl
  obtain ⟨events, hrun⟩ := runGenerate_of_requested
    (requested_eq ⟨⟨"."⟩, some ⟨"made.rs"⟩, false, none⟩ hsettings hgenerate) rfl
  rw [if_neg (by simp), runDelivery_of_error herror] at hrun
  rw [hrun]
  exact ⟨⟨_, rfl⟩, hstrikes.2⟩

/-- There is a new and empty file after a build. -/
theorem build_crowded : let run := crowded.build ⟨"."⟩ ⟨"out"⟩
    let place := ["x", "out", Settings.standard.fileName]
    (∃ error, run.result = .error error) ∧
      run.disk.tree.contents? place ≠ crowded.tree.contents? place := by
  obtain ⟨artifact, hgenerate, -, hstrikes⟩ := exists_artifact_crowded
  obtain ⟨error, herror⟩ := hstrikes.exists_error
  rw [build_eq settings_crowded hgenerate]
  simp only [herror]
  exact ⟨⟨_, rfl⟩, hstrikes.2⟩

theorem requested_packaged (output : Option FilePath) (check : Bool) :
    packaged.requested ⟨⟨"."⟩, output, check, none⟩ = .ok none := by
  have hsettings : packaged.commandSettings ⟨"."⟩ none = .ok packagedSettings := by
    rw [commandSettings, settings_packaged]
    rfl
  have hnothing : packaged.generate ⟨"."⟩ packagedSettings = .ok none := by
    rw [generate_eq, discover_packaged]
    exact Pass.ok_of_toOption (by decide +kernel)
  exact requested_eq ⟨⟨"."⟩, output, check, none⟩ hsettings hnothing

theorem runGenerate_packaged (output : FilePath) : ∃ events,
    packaged.runGenerate ⟨⟨"."⟩, some output, false, none⟩ =
      packaged.runDelivery output none events := by
  obtain ⟨events, hrun⟩ := runGenerate_of_requested (requested_packaged (some output) false) rfl
  exact ⟨events, hrun.trans (if_neg (by simp))⟩

/-- Whatever a run fails in, it has made directories at most: every file is as it was, and no file
is new. Only where a write of the generated text broke off, the output holds the first bytes of it,
and all else is as it was. A run that checks changes nothing, and succeeds just where the same run
without checking says that there was nothing to do. -/
theorem run_leaves_intact (d : Disk) :
    (∀ request failure, (d.runGenerate request).result = .error failure →
      d.GainsDirectories (d.runGenerate request).disk ∨
        ∃ output text error fault, request.check = false ∧ request.output = some output ∧
          d.requested request = .ok (some text) ∧ failure = .pass error ∧
          BreaksOff d output text error (d.runGenerate request).disk fault) ∧
    (∀ package out error, (d.build package out).result = .error error →
      d.GainsDirectories (d.build package out).disk ∨
        ∃ settings artifact fault, Config.settings d package none = .ok settings ∧
          d.generate package settings = .ok (some artifact) ∧
          BreaksOff d (out / settings.fileName) artifact.contents error
            (d.build package out).disk fault) ∧
    ∀ request output, request.output = some output → request.check = true →
      (d.runGenerate request).disk = d ∧
      ((d.runGenerate request).result = .ok () ↔
        FindsNothingToDo output (d.runGenerate { request with check := false })) :=
  ⟨fun _ _ => runGenerate_error, fun _ _ _ => build_error, fun _ _ => runGenerate_check⟩

/-- Where nothing is generated, a check of a file that is not there succeeds, and a check of one
that is there fails: without checking it would be removed. On the disk that is full a command and a
build break off. -/
theorem run_leaves_packaged_intact :
    (packaged.runGenerate ⟨⟨"."⟩, some ⟨"none.rs"⟩, true, none⟩).result = .ok () ∧
    (packaged.runGenerate ⟨⟨"."⟩, some ⟨"src/part.rs"⟩, true, none⟩).result ≠ .ok () ∧
    (packaged.runGenerate ⟨⟨"."⟩, some ⟨"src/part.rs"⟩, true, none⟩).disk = packaged ∧
    (∃ text error fault, BreaksOff crowded ⟨"made.rs"⟩ text error
      (crowded.runGenerate ⟨⟨"."⟩, some ⟨"made.rs"⟩, false, none⟩).disk fault) ∧
    ∃ text error fault, BreaksOff crowded (FilePath.mk "out" / Settings.standard.fileName) text
      error (crowded.build ⟨"."⟩ ⟨"out"⟩).disk fault := by
  have hskipped : (packaged.deliver ⟨"none.rs"⟩ none).result = .ok .skipped :=
    Pass.ok_of_toOption (by decide +kernel)
  have hremoved : (packaged.deliver ⟨"src/part.rs"⟩ none).result = .ok .removed :=
    Pass.ok_of_toOption (by decide +kernel)
  obtain ⟨-, -, hchecks⟩ := run_leaves_intact packaged
  have hall (output : FilePath) := hchecks ⟨⟨"."⟩, some output, true, none⟩ output rfl rfl
  obtain ⟨hcommands, hbuilds, -⟩ := run_leaves_intact crowded
  refine ⟨(hall _).2.mpr ?_, fun hsuccess => ?_, (hall _).1, ?_, ?_⟩
  · obtain ⟨events, hrun⟩ := runGenerate_packaged ⟨"none.rs"⟩
    rw [hrun, runDelivery_of_ok hskipped]
    exact ⟨rfl, Or.inr rfl⟩
  · have hidle := (hall _).2.mp hsuccess
    obtain ⟨events, hrun⟩ := runGenerate_packaged ⟨"src/part.rs"⟩
    rw [hrun, runDelivery_of_ok hremoved] at hidle
    have hnotes : Delivery.removed.remark ⟨"src/part.rs"⟩ ++ "\n" =
          Delivery.unchanged.remark ⟨"src/part.rs"⟩ ++ "\n" ∨
        Delivery.removed.remark ⟨"src/part.rs"⟩ ++ "\n" =
          Delivery.skipped.remark ⟨"src/part.rs"⟩ ++ "\n" := hidle.2
    exact absurd hnotes (by decide +kernel)
  · obtain ⟨⟨failure, hfailure⟩, hchanged⟩ := runGenerate_crowded
    rcases hcommands _ failure hfailure with
      hgains | ⟨output, text, error, fault, -, houtput, -, -, hbroken⟩
    · exact absurd (hgains.tree.contents? _) hchanged
    · obtain rfl := Option.some.inj houtput
      exact ⟨text, error, fault, hbroken⟩
  · obtain ⟨⟨error, herror⟩, hchanged⟩ := build_crowded
    rcases hbuilds _ _ error herror with hgains | ⟨settings, artifact, fault, hfound, -, hbroken⟩
    · exact absurd (hgains.tree.contents? _) hchanged
    · obtain rfl := Except.ok.inj (settings_crowded.symm.trans hfound)
      exact ⟨_, error, fault, hbroken⟩

/-- Neither a command that fails nor a build that fails leaves the files there as they were. -/
theorem run_empties_output :
    ¬ (∀ request failure, (crowded.runGenerate request).result = .error failure →
      ∀ place, (crowded.runGenerate request).disk.tree.contents? place =
        crowded.tree.contents? place) ∧
    ¬ ∀ package out error, (crowded.build package out).result = .error error →
      ∀ place, (crowded.build package out).disk.tree.contents? place =
        crowded.tree.contents? place := by
  obtain ⟨⟨failure, hfailure⟩, hstruck⟩ := runGenerate_crowded
  obtain ⟨⟨error, herror⟩, hmade⟩ := build_crowded
  exact ⟨fun h => hstruck (h _ failure hfailure _), fun h => hmade (h _ _ error herror _)⟩

end Disk

end MarkerIndex
