import RayTracer.Command.Host.Standard
import RayTracer.Proofs.Command.Arguments
import RayTracer.Proofs.Command.Delivery
import RayTracer.Proofs.Command.Merging
import RayTracer.Proofs.Hierarchy.Balance
import RayTracer.Proofs.Render.Frames

/-!
# Runs

A run fails for the first cause that it meets and leaves the host as it was, or it delivers the
whole picture.
-/

namespace RayTracer

theorem Demo.exists_build (policy : SplitPolicy) :
    ∃ built, Demo.scene.build policy = .ok built := by
  have nonempty : Demo.scene.shapes ≠ #[] := by
    refine Array.ne_empty_of_size_pos ?_
    decide
  obtain ⟨h, built, -⟩ := Hierarchy.ofShapes_eq_ok nonempty policy
  exact ⟨{ Demo.scene with hierarchy := some h }, by rw [Scene.build, built]; rfl⟩

namespace Command

variable {o : Options} {host : Host} {s : Settings} {cause : RunError}

/-! ## One picture -/

theorem picture_of_fits (policy : SplitPolicy) (fits : FitsBuffer s) :
    ∃ image, Shows policy s image ∧ ∀ machine, picture policy s machine = .ok image.pixmap := by
  obtain ⟨scene, built⟩ := Demo.exists_build policy
  have rendered (machine : ℕ) : (Demo.camera s.aspectRatio).render? scene s machine =
      some ((Demo.camera s.aspectRatio).plain scene s) := Camera.render?_of_fits machine fits
  refine ⟨_, ⟨scene, built, rendered⟩, fun machine => ?_⟩
  rw [picture, built]
  simp only [rendered]

theorem picture_of_not_fits (policy : SplitPolicy) (machine : ℕ) (large : ¬FitsBuffer s) :
    picture policy s machine = .error (.oversizedImage s.width s.height) := by
  obtain ⟨scene, built⟩ := Demo.exists_build policy
  rw [picture, built]
  simp only [Camera.render?_of_not_fits machine large]

theorem picture_threads (policy : SplitPolicy) (s : Settings) (threads : Option UInt64)
    (machine machine' : ℕ) :
    picture policy { s with threads } machine' = picture policy s machine := by
  obtain ⟨scene, built⟩ := Demo.exists_build policy
  have same := (Demo.camera s.aspectRatio).render?_threads scene s threads machine machine'
  rw [picture, picture, built]
  simp only [Settings.aspectRatio] at same ⊢
  rw [same]

/-! ## Checks in order -/

theorem compose_of_configuration {read : String → Option String} {base : Settings}
    (configured : configuration o.config read = .ok base) (machine : ℕ) :
    compose o read machine =
      if (o.overlay base).width = 0 ∨ (o.overlay base).height = 0 then
        .error (.emptyImage (o.overlay base).width (o.overlay base).height)
      else picture o.policy (o.overlay base) machine := by
  rw [compose, configured]
  rfl

theorem compose_of_configuration_error {read : String → Option String}
    (failed : configuration o.config read = .error cause) (machine : ℕ) :
    compose o read machine = .error cause := by
  rw [compose, failed]
  rfl

theorem compose_of_effective (effective : Effective o host s) (nonempty : HasPixels s)
    (machine : ℕ) :
    compose o host.read? machine = picture o.policy s machine := by
  obtain ⟨base, configured, rfl⟩ := effective_iff.mp effective
  rw [compose_of_configuration configured]
  exact if_neg (not_or.mpr nonempty)

theorem run_of_compose_error {machine : ℕ}
    (composed : compose o host.read? machine = .error cause) :
    run o host.read? host.canCreate machine = .error cause := by
  rw [run, composed]
  rfl

/-- A run stops at the first cause. -/
theorem Fails.run_eq (fails : Fails o host cause) (machine : ℕ) :
    run o host.read? host.canCreate machine = .error cause := by
  cases fails with
  | unreadable named unreadable =>
    refine run_of_compose_error (compose_of_configuration_error ?_ machine)
    simp only [configuration, named, unreadable]
  | malformed named readable malformed =>
    refine run_of_compose_error (compose_of_configuration_error ?_ machine)
    simp only [configuration, named, readable, malformed]
  | empty effective empty =>
    refine run_of_compose_error ?_
    obtain ⟨base, configured, rfl⟩ := effective_iff.mp effective
    rw [compose_of_configuration configured]
    exact if_pos empty
  | oversized effective nonempty oversized =>
    refine run_of_compose_error ?_
    rw [compose_of_effective effective nonempty]
    exact picture_of_not_fits _ _ oversized
  | uncreatable effective nonempty fits named uncreatable =>
    -- the place for the picture is looked for only when the picture is there
    obtain ⟨image, -, painted⟩ := picture_of_fits o.policy fits
    rw [run, compose_of_effective effective nonempty, painted, named]
    simp only [bind, Except.bind, uncreatable]
    rfl

/-- A run that meets no cause has the picture, and a place for it. -/
theorem run_of_not_fails (sound : ∀ cause, ¬Fails o host cause) :
    ∃ s image, Effective o host s ∧ Shows o.policy s image ∧
      (∀ path, o.output = some path → host.canCreate path = true) ∧
      ∀ machine, run o host.read? host.canCreate machine = .ok ⟨o.output, image.pixmap⟩ := by
  cases configured : configuration o.config host.read? with
  | error cause => exact absurd (fails_of_configuration configured) (sound cause)
  | ok base =>
    have effective : Effective o host (o.overlay base) := effective_iff.mpr ⟨base, configured, rfl⟩
    -- each check that a run makes is one of the causes that are excluded
    have nonempty : HasPixels (o.overlay base) :=
      not_or.mp fun empty => sound _ (.empty effective empty)
    have fits : FitsBuffer (o.overlay base) :=
      not_not.mp fun large => sound _ (.oversized effective nonempty large)
    have creatable (path : String) (named : o.output = some path) : host.canCreate path = true := by
      by_contra uncreatable
      exact sound _ (.uncreatable effective nonempty fits named
        (Bool.eq_false_of_not_eq_true uncreatable))
    obtain ⟨image, shows, painted⟩ := picture_of_fits o.policy fits
    refine ⟨_, image, effective, shows, creatable, fun machine => ?_⟩
    rw [run, compose_of_effective effective nonempty, painted]
    cases named : o.output with
    | none => rfl
    | some path =>
      simp only [bind, Except.bind, creatable path named]
      rfl

theorem run_threads (threads : Option UInt64) (read : String → Option String)
    (canCreate : String → Bool) (machine machine' : ℕ) :
    run { o with threads } read canCreate machine' = run o read canCreate machine := by
  -- the file may set a number of threads of its own, so the settings that count differ in theirs at
  -- most
  have composed : compose { o with threads } read machine' = compose o read machine := by
    cases configured : configuration o.config read with
    | error cause =>
      have configured' : configuration { o with threads }.config read = .error cause := configured
      rw [compose_of_configuration_error configured, compose_of_configuration_error configured']
    | ok base =>
      have configured' : configuration { o with threads }.config read = .ok base := configured
      rw [compose_of_configuration configured, compose_of_configuration configured']
      have same :=
        picture_threads o.policy (o.overlay base) (threads <|> base.threads) machine machine'
      rw [← same]
      rfl
  rw [run, run, composed]

/-! ## Calls -/

theorem RunError.exitCode_eq_one_iff (cause : RunError) :
    cause.exitCode = 1 ↔ ∀ width height, cause ≠ .oversizedImage width height := by
  cases cause with
  | oversizedImage width height => exact iff_of_false (by simp [exitCode]) fun ne => ne _ _ rfl
  | _ => exact iff_of_true rfl nofun

/-- The one failure that ends a run at once. -/
theorem RunError.exitCode_eq_oversized_iff (cause : RunError) :
    cause.exitCode = 101 ↔ ∃ width height, cause = .oversizedImage width height := by
  cases cause with
  | oversizedImage width height => exact iff_of_true rfl ⟨width, height, rfl⟩
  | _ => exact iff_of_false (by simp [exitCode]) nofun

section Call

variable {arguments : List String} (accepted : Options.ofArguments arguments = .ok o)

include accepted

theorem call_of_fails (fails : Fails o host cause) (machine : ℕ) :
    call arguments host machine = (.failed cause, host) := by
  simp only [call, accepted, fails.run_eq]

/-- Without a cause it is up to the delivery how a call ends. -/
theorem call_of_not_fails (sound : ∀ cause, ¬Fails o host cause) (machine : ℕ) :
    ∃ s image, Effective o host s ∧ Shows o.policy s image ∧
      (∀ path, o.output = some path → host.canCreate path = true) ∧
      (∀ after, host.deliver ⟨o.output, image.pixmap⟩ = .ok after →
        call arguments host machine = (.written ⟨o.output, image.pixmap⟩, after)) ∧
      ∀ write, host.deliver ⟨o.output, image.pixmap⟩ = .error write →
        call arguments host machine = (.failed (.unwritable write), host) := by
  obtain ⟨s, image, effective, shows, creatable, ran⟩ := run_of_not_fails sound
  refine ⟨s, image, effective, shows, creatable, fun after delivered => ?_,
    fun write undelivered => ?_⟩
  · simp only [call, accepted, ran, delivered]
  · simp only [call, accepted, ran, undelivered]

theorem call_failed {machine : ℕ} (failed : (call arguments host machine).1 = .failed cause) :
    (Fails o host cause ∨ ∃ write, cause = .unwritable write) ∧
      (call arguments host machine).2 = host := by
  by_cases sound : ∀ cause, ¬Fails o host cause
  · obtain ⟨_, image, -, -, -, delivers, refuses⟩ := call_of_not_fails accepted sound machine
    cases delivered : host.deliver ⟨o.output, image.pixmap⟩ with
    | ok after =>
      rw [delivers after delivered] at failed
      cases failed
    | error write =>
      rw [refuses write delivered] at failed ⊢
      exact ⟨.inr ⟨write, (Outcome.failed.inj failed).symm⟩, rfl⟩
  · obtain ⟨first, fails⟩ := not_forall_not.mp sound
    rw [call_of_fails accepted fails] at failed ⊢
    exact ⟨.inl (Outcome.failed.inj failed ▸ fails), rfl⟩

theorem call_threads {arguments' : List String} {o' : Options}
    (accepted' : Options.ofArguments arguments' = .ok o')
    (same : { o' with threads := o.threads } = o) (host : Host) (machine machine' : ℕ) :
    call arguments' host machine' = call arguments host machine := by
  have threads : o' = { o with threads := o'.threads } := by rw [← same]
  simp only [call, accepted, accepted']
  rw [threads, run_threads]

end Call

/-- With arguments that are accepted, a call fails for the first cause that there is, or it delivers
the picture of the demo scene with the settings that count. A place that takes no text is another
matter. A call that fails leaves the host as it was, and its exit code is 1 except for a picture
that does not fit into a buffer, with 101. Neither the number of threads nor the order of the
options makes a difference. -/
theorem call_all_or_nothing {arguments : List String} {o : Options}
    (accepted : Options.ofArguments arguments = .ok o) (host : Host) (machine : ℕ) :
    (∀ cause, (∀ write, cause ≠ .unwritable write) →
        ((call arguments host machine).1 = .failed cause ↔ Fails o host cause)) ∧
      (∀ cause, (call arguments host machine).1 = .failed cause →
        (call arguments host machine).2 = host ∧
          ((call arguments host machine).1.exitCode = 1 ↔
            ∀ width height, cause ≠ .oversizedImage width height) ∧
          ((call arguments host machine).1.exitCode = 101 ↔
            ∃ width height, cause = .oversizedImage width height)) ∧
      ((∀ cause, ¬Fails o host cause) →
        ∃ s image, Effective o host s ∧ Shows o.policy s image ∧
          ∀ after, host.deliver ⟨o.output, image.pixmap⟩ = .ok after →
            call arguments host machine = (.written ⟨o.output, image.pixmap⟩, after) ∧
              Received host image.pixmap after o.output) ∧
      (∀ arguments' o' machine', Options.ofArguments arguments' = .ok o' →
        { o' with threads := o.threads } = o →
        call arguments' host machine' = call arguments host machine) ∧
      (∃ groups, Lists groups arguments) ∧
      ∀ groups groups' arguments', Lists groups arguments → groups'.Perm groups →
        Lists groups' arguments' → call arguments' host machine = call arguments host machine := by
  refine ⟨fun cause undelivered => ⟨fun failed => ?_, fun fails => ?_⟩,
    fun cause failed => ⟨(call_failed accepted failed).2, ?_⟩, fun sound => ?_, ?_, ?_, ?_⟩
  · obtain fails | ⟨write, same⟩ := (call_failed accepted failed).1
    · exact fails
    · exact absurd same (undelivered write)
  · rw [call_of_fails accepted fails]
  · rw [failed]
    exact ⟨RunError.exitCode_eq_one_iff cause, RunError.exitCode_eq_oversized_iff cause⟩
  · obtain ⟨s, image, effective, shows, creatable, delivers, -⟩ :=
      call_of_not_fails accepted sound machine
    exact ⟨s, image, effective, shows, fun after delivered =>
      ⟨delivers after delivered, Host.received_of_deliver creatable delivered⟩⟩
  · exact fun arguments' o' machine' accepted' same =>
      call_threads accepted accepted' same host machine machine'
  · exact Options.exists_groups accepted
  · intro groups groups' arguments' lists order lists'
    have accepted' := Options.ofArguments_perm lists lists' order accepted
    simp only [call, accepted, accepted']

/-- The file says that there are no columns, an option that there are three; the file's two rows
count. -/
theorem call_all_or_nothing_rescued :
    let arguments := ["-c", "config.json", "--width", "3", "-o", "out.ppm"]
    let arguments' := ["--width", "3", "-o", "out.ppm", "-c", "config.json"]
    let host := Host.standard [("config.json", "[0, 2]")]
    Options.ofArguments arguments =
        .ok { config := some "config.json", width := some 3, output := some "out.ppm" } ∧
      ∃ image after, Shows .longest { width := 3, height := 2 } image ∧
        call arguments host 1 = (.written ⟨some "out.ppm", image.pixmap⟩, after) ∧
        after.read? "out.ppm" = some image.pixmap ∧ after.printed = "" ∧
        call arguments' host 1 = call arguments host 1 := by
  intro arguments arguments' host
  have accepted : Options.ofArguments arguments =
      .ok { config := some "config.json", width := some 3, output := some "out.ppm" } := rfl
  obtain ⟨-, -, delivers, -, -, order⟩ := call_all_or_nothing accepted host 1
  have readable : host.read? "config.json" = some "[0, 2]" := by decide +kernel
  have formed : Settings.ofText? "[0, 2]" = some { width := 0, height := 2 } := by decide +kernel
  have configured :
      configuration (some "config.json") host.read? = .ok { width := 0, height := 2 } := by
    simp only [configuration, readable, formed]
  have creatable : host.canCreate "out.ppm" = true := by decide +kernel
  have counts (s : Settings)
      (effective : Effective
        { config := some "config.json", width := some 3, output := some "out.ppm" } host s) :
      s = { width := 3, height := 2 } := by
    obtain ⟨base, read, rfl⟩ := effective_iff.mp effective
    obtain rfl := Except.ok.inj (read.symm.trans configured)
    rfl
  -- the file alone would make an empty picture, so each cause has to be excluded
  obtain ⟨s, image, effective, shows, delivers⟩ := delivers fun cause fails => by
    cases fails with
    | unreadable named unreadable =>
      cases named
      cases readable.symm.trans unreadable
    | malformed named read malformed =>
      cases named
      cases readable.symm.trans read
      cases formed.symm.trans malformed
    | empty effective empty =>
      rw [counts _ effective] at empty
      exact absurd empty (by decide)
    | oversized effective _ oversized =>
      rw [counts _ effective] at oversized
      exact absurd oversized (by decide)
    | uncreatable _ _ _ named uncreatable =>
      cases named
      cases creatable.symm.trans uncreatable
  obtain rfl := counts s effective
  have leads : host.locate? "out.ppm" = some ["tmp", "work", "out.ppm"] := by decide +kernel
  have missing : host.node? ["tmp", "work", "out.ppm"] = none := by decide +kernel
  obtain ⟨written, received⟩ := delivers (host.store ["tmp", "work", "out.ppm"] image.pixmap) (by
    simp only [Host.deliver, Host.write, leads, missing]
    rfl)
  refine ⟨accepted, image, _, shows, written, ?_, rfl, ?_⟩
  · cases received with
    | device leads' there =>
      cases leads.symm.trans leads'
      cases missing.symm.trans there
    | file _ _ reads => exact reads
  · refine order [["-c", "config.json"], ["--width", "3"], ["-o", "out.ppm"]]
      [["--width", "3"], ["-o", "out.ppm"], ["-c", "config.json"]] arguments' ?_ ?_ ?_
    all_goals decide +kernel

/-- No configuration is named, there are columns and rows, and the place for the picture is there.
But as many columns and rows as their numbers allow do not fit into a buffer. -/
theorem call_largest_oversized :
    let arguments := ["--width", "4294967295", "--height", "4294967295", "-o", "/dev/null"]
    let host := Host.standard []
    Options.ofArguments arguments =
        .ok { width := some 4294967295, height := some 4294967295, output := some "/dev/null" } ∧
      host.canCreate "/dev/null" = true ∧
      call arguments host 1 = (.failed (.oversizedImage 4294967295 4294967295), host) ∧
      (call arguments host 1).1.exitCode = 101 := by
  intro arguments host
  have accepted : Options.ofArguments arguments =
      .ok { width := some 4294967295, height := some 4294967295, output := some "/dev/null" } := rfl
  have effective :
      Effective
        { width := some 4294967295, height := some 4294967295, output := some "/dev/null" } host
        { width := 4294967295, height := 4294967295 } :=
    effective_iff.mpr ⟨default, rfl, rfl⟩
  have fails := Fails.oversized effective (by decide) (by decide)
  have ends := call_of_fails accepted fails 1
  exact ⟨accepted, by decide +kernel, ends, by rw [ends]; rfl⟩

end Command

end RayTracer
