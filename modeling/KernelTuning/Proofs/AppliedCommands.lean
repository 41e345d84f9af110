import KernelTuning.CommandLine.Run
import KernelTuning.Proofs.ConfigChecks
import KernelTuning.Proofs.SavedFiles
import KernelTuning.Proofs.TableRecords

/-!
# Applied configurations on the command line

The command that applies a configuration makes up a problem, configures it and prints it.  Up to
the printing it changes no file and prints nothing, so that its answer follows from what the
first two parts come to: which problem the options describe, and how it is configured.

Main statements: `CommandLine.code_run_apply_iff` and `CommandLine.output_run_apply`.
-/

namespace KernelTuning

namespace CommandLine

variable {ε α β : Type}

/-! ## Parts of a command -/

/-- A part of a command that changes no file and prints nothing. -/
def Quiet (program : Program α) : Prop :=
  ∀ world, (outcome program world).2 = world

/-- A part of a command comes to a value. -/
def Gives (program : Program α) (world : World) (value : α) : Prop :=
  (outcome program world).1 = .ok value

theorem quiet_pure (value : α) : Quiet (pure value) :=
  fun _ => rfl

theorem quiet_get : Quiet (get : Program World) :=
  fun _ => rfl

theorem quiet_throw (stop : Stop) : Quiet (throw stop : Program α) :=
  fun _ => rfl

theorem Quiet.bind {program : Program α} {next : α → Program β} (quiet : Quiet program)
    (rest : ∀ value, Quiet (next value)) : Quiet (program >>= next) := by
  intro world
  have first := quiet world
  rw [outcome_bind]
  cases found : outcome program world with
  | mk result middle =>
      rw [found] at first
      cases result with
      | error stop => exact first
      | ok value => exact (rest value middle).trans first

theorem quiet_ofExcept (report : ε → Report) (result : Except ε α) :
    Quiet (Program.ofExcept report result) := by
  cases result with
  | error fault => exact quiet_throw _
  | ok value => exact quiet_pure _

theorem quiet_ofChecked (report : ε → Report) (result : ExceptT ε Checked α) :
    Quiet (Program.ofChecked report result) := by
  rw [Program.ofChecked]
  cases result.run with
  | error overflow => exact quiet_throw _
  | ok result => exact quiet_ofExcept report result

theorem gives_pure {given value : α} {world : World} :
    Gives (pure given) world value ↔ given = value :=
  ⟨Except.ok.inj, congrArg Except.ok⟩

private theorem gives_get {world found : World} :
    Gives (get : Program World) world found ↔ world = found :=
  ⟨Except.ok.inj, congrArg Except.ok⟩

theorem not_gives_throw {stop : Stop} {world : World} {value : α} :
    ¬Gives (throw stop : Program α) world value :=
  nofun

theorem gives_ofExcept {report : ε → Report} {result : Except ε α} {world : World} {value : α} :
    Gives (Program.ofExcept report result) world value ↔ result = .ok value := by
  cases result with
  | error fault => exact ⟨fun gives => absurd gives not_gives_throw, nofun⟩
  | ok found => exact gives_pure.trans ⟨congrArg Except.ok, Except.ok.inj⟩

theorem gives_ofChecked {report : ε → Report} {result : ExceptT ε Checked α} {world : World}
    {value : α} :
    Gives (Program.ofChecked report result) world value ↔ Checked.Passes result value := by
  unfold Program.ofChecked Checked.Passes
  cases result.run with
  | error overflow => exact ⟨fun gives => absurd gives not_gives_throw, nofun⟩
  | ok result => exact gives_ofExcept.trans ⟨congrArg Except.ok, Except.ok.inj⟩

theorem Quiet.gives_bind_iff {program : Program α} {next : α → Program β} {world : World}
    {value : β} (quiet : Quiet program) :
    Gives (program >>= next) world value ↔
      ∃ middle, Gives program world middle ∧ Gives (next middle) world value := by
  have same := quiet world
  unfold Gives
  rw [outcome_bind]
  cases found : outcome program world with
  | mk result after =>
      rw [found] at same
      cases same
      cases result with
      | error stop => simp
      | ok middle => simp

private theorem Quiet.outcome_eq {program : Program α} {world : World} {value : α}
    (quiet : Quiet program) (gives : Gives program world value) :
    outcome program world = (.ok value, world) :=
  Prod.ext gives (quiet world)

theorem gives_ofExcept_bind_iff {report : ε → Report} {result : Except ε α}
    {next : α → Program β} {world : World} {value : β} :
    Gives (Program.ofExcept report result >>= next) world value ↔
      ∃ middle, result = .ok middle ∧ Gives (next middle) world value := by
  rw [(quiet_ofExcept report result).gives_bind_iff]
  simp only [gives_ofExcept]

/-! ## The problem of a command -/

/-- The product whose parts options name. -/
def ProblemOptions.product (options : ProblemOptions) (target : Target)
    (type outType : ElementType) : Problem :=
  { operation := .gemm
    shape := options.shape
    aType := type
    bType := type
    outType := outType
    transposeA := options.transposeA
    transposeB := options.transposeB
    target := options.computeUnits.elim target target.withComputeUnits
    epilogue := options.epilogue }

/-- The options describe a problem: the one in a file, or a product whose parts they name. -/
inductive Describes (store : FileStore) (options : ProblemOptions) : Problem → Prop
  | file {path text : String} {problem : Problem} (named : options.problemFile = some path)
      (stored : store.read path = .ok text) (read : Problem.parse? text = some problem) :
      Describes store options problem
  | product {target : Target} {type outType : ElementType} (unnamed : options.problemFile = none)
      (chip : Target.ofName options.arch = .ok target)
      (typed : ElementType.ofName options.type = .ok type)
      (outTyped : options.outType.elim (.ok type) ElementType.ofName = .ok outType) :
      Describes store options (options.product target type outType)

private theorem problem_of_file {options : ProblemOptions} {path : String}
    (named : options.problemFile = some path) :
    options.problem = get >>= fun world =>
      Program.ofExcept (fun error => ["reading problem file " ++ path, error.message])
          (world.store.read path) >>= fun text =>
        Program.ofExcept (fun _ : Unit => ["parsing problem file " ++ path, "not a problem"])
          ((Problem.parse? text).elim (.error ()) .ok) := by
  unfold ProblemOptions.problem
  rw [named]
  refine bind_congr fun world => bind_congr fun text => ?_
  cases Problem.parse? text <;> rfl

private theorem problem_of_product {options : ProblemOptions}
    (unnamed : options.problemFile = none) :
    options.problem =
      Program.ofExcept (fun fault => [fault.message]) (Target.ofName options.arch)
        >>= fun target =>
      Program.ofExcept (fun fault => [fault.message]) (ElementType.ofName options.type)
        >>= fun type =>
      Program.ofExcept (fun fault => [fault.message])
          (options.outType.elim (.ok type) ElementType.ofName) >>= fun outType =>
        pure (options.product target type outType) := by
  unfold ProblemOptions.problem ProblemOptions.product
  rw [unnamed]
  refine bind_congr fun target => bind_congr fun type => ?_
  cases options.outType <;> cases options.computeUnits <;> rfl

theorem quiet_problem (options : ProblemOptions) : Quiet options.problem := by
  cases file : options.problemFile with
  | some path =>
      rw [problem_of_file file]
      exact quiet_get.bind fun _ => (quiet_ofExcept _ _).bind fun _ => quiet_ofExcept _ _
  | none =>
      rw [problem_of_product file]
      exact (quiet_ofExcept _ _).bind fun _ => (quiet_ofExcept _ _).bind fun _ =>
        (quiet_ofExcept _ _).bind fun _ => quiet_pure _

theorem gives_problem_iff {options : ProblemOptions} {world : World} {problem : Problem} :
    Gives options.problem world problem ↔ Describes world.store options problem := by
  cases file : options.problemFile with
  | some path =>
      rw [problem_of_file file]
      simp only [quiet_get.gives_bind_iff, gives_get, gives_ofExcept_bind_iff, gives_ofExcept]
      constructor
      · rintro ⟨_, rfl, text, stored, read⟩
        refine .file file stored ?_
        cases parsed : Problem.parse? text with
        | none => simp [parsed] at read
        | some found => simpa [parsed] using read
      · intro described
        cases described with
        | file named stored read =>
            cases file.symm.trans named
            exact ⟨world, rfl, _, stored, by rw [read]; rfl⟩
        | product unnamed => cases file.symm.trans unnamed
  | none =>
      rw [problem_of_product file]
      simp only [gives_ofExcept_bind_iff, gives_pure]
      constructor
      · rintro ⟨target, chip, type, typed, outType, outTyped, rfl⟩
        exact .product file chip typed outTyped
      · intro described
        cases described with
        | file named => cases file.symm.trans named
        | product _ chip typed outTyped => exact ⟨_, chip, _, typed, _, outTyped, rfl⟩

/-! ## The configured problem -/

/-- A problem is configured with the text that is given, or else with the configuration that
the table in a file records for it. -/
inductive Configures (store : FileStore) (table config : Option String)
    (problem configured : Problem) : Prop
  | given {text : String} (named : config = some text)
      (applied : Checked.Passes (problem.applyText text) configured)
  | recorded {path : String} {found : Table} (unnamed : config = none)
      (located : table = some path) (loaded : Table.load store path = .ok found)
      (applied : found.applyBest problem = .ok (true, configured))

/-- The program of the command, between making up the problem and printing. -/
def configure (table : Option String) (problem : Problem) : Option String → Program Problem
  | some text => Program.ofChecked Problem.TextRejection.chain (problem.applyText text)
  | none => applyRecorded table problem

private theorem outcome_session (table : Option String) (world : World) :
    outcome (Program.ofFileAction (Session.start (readingOptions table))) world =
      outcome (Program.ofExcept Table.FileFault.chain
        ((table.elim (.ok .empty) (Table.load world.store)).map
          (Session.mk (readingOptions table)))) world := by
  have started := @Session.outcome_start (readingOptions table) rfl world.store
  unfold outcome at started
  rw [Program.ofFileAction, outcome_bind, outcome_get]
  simp only [started, outcome_bind, outcome_set]
  rfl

private theorem quiet_session (table : Option String) :
    Quiet (Program.ofFileAction (Session.start (readingOptions table))) := by
  intro world
  rw [outcome_session]
  exact quiet_ofExcept _ _ world

private theorem gives_session_iff {table : Option String} {world : World} {session : Session} :
    Gives (Program.ofFileAction (Session.start (readingOptions table))) world session ↔
      (table.elim (.ok .empty) (Table.load world.store)).map (Session.mk (readingOptions table))
        = .ok session := by
  unfold Gives
  rw [outcome_session]
  exact gives_ofExcept

theorem quiet_configure (table : Option String) (problem : Problem) (config : Option String) :
    Quiet (configure table problem config) := by
  cases config with
  | some text => exact quiet_ofChecked _ _
  | none =>
      apply (quiet_session table).bind
      intro session
      apply (quiet_ofExcept _ _).bind
      intro signature
      split
      · exact quiet_throw _
      · exact quiet_pure _
      · exact quiet_throw _

theorem gives_applyRecorded_iff {table : Option String} {problem configured : Problem}
    {world : World} :
    Gives (applyRecorded table problem) world configured ↔
      ∃ path found, table = some path ∧ Table.load world.store path = .ok found ∧
        found.applyBest problem = .ok (true, configured) := by
  unfold applyRecorded signatureOf
  simp only [(quiet_session table).gives_bind_iff, gives_session_iff, gives_ofExcept_bind_iff]
  constructor
  · rintro ⟨session, started, key, signed, rest⟩
    have applied : session.table.applyBest problem = .ok (true, configured) := by
      split at rest
      · exact absurd rest not_gives_throw
      · rename_i found applied
        rw [applied, gives_pure.mp rest]
      · exact absurd rest not_gives_throw
    cases table with
    | none =>
        -- Nothing is recorded in the table of a session without a file.
        cases started
        obtain ⟨text, recorded, -⟩ := Table.applyBest_eq_true_iff.mp applied
        obtain ⟨_, _, -, found, -⟩ := Table.lookup?_eq_some_iff.mp recorded
        cases found
    | some path =>
        cases loaded : Table.load world.store path with
        | error fault =>
            rw [Option.elim_some, loaded] at started
            cases started
        | ok found =>
            rw [Option.elim_some, loaded] at started
            cases started
            exact ⟨path, found, rfl, loaded, applied⟩
  · rintro ⟨path, found, rfl, loaded, applied⟩
    obtain ⟨text, recorded, -⟩ := Table.applyBest_eq_true_iff.mp applied
    obtain ⟨key, _, signed, -, -⟩ := Table.lookup?_eq_some_iff.mp recorded
    refine ⟨⟨readingOptions (some path), found⟩, ?_, key, signed, ?_⟩
    · rw [Option.elim_some, loaded]
      rfl
    · simp only [applied]
      exact gives_pure.mpr rfl

theorem gives_configure_iff {table config : Option String} {problem configured : Problem}
    {world : World} :
    Gives (configure table problem config) world configured ↔
      Configures world.store table config problem configured := by
  cases config with
  | some text =>
      refine gives_ofChecked.trans ⟨fun applied => .given rfl applied, fun configures => ?_⟩
      cases configures with
      | given named applied =>
          cases named
          exact applied
      | recorded unnamed => cases unnamed
  | none =>
      refine gives_applyRecorded_iff.trans ⟨?_, fun configures => ?_⟩
      · rintro ⟨path, found, located, loaded, applied⟩
        exact .recorded rfl located loaded applied
      · cases configures with
        | given named => cases named
        | recorded _ located loaded applied => exact ⟨_, _, located, loaded, applied⟩

/-! ## Applying a configuration -/

theorem steps_apply (options : ProblemOptions) (table config : Option String) :
    (Command.apply options table config).steps =
      options.problem >>= fun problem =>
        configure table problem config >>= fun configured =>
          Program.print configured.toJson.pretty := by
  rw [Command.steps]
  apply bind_congr
  intro problem
  cases config <;> rfl

theorem output_run {store : FileStore} {words : List String} {command : Command}
    (read : Command.ofWords? words = some command) :
    (run store words).output = outputOf (outcome command.steps { store := store }).2.lines := by
  unfold run outcome
  simp only [read]
  generalize command.steps.run.run { store := store } = ran
  obtain ⟨result, world⟩ := ran
  rcases result with (_ | _) | _ <;> rfl

/-- A failure has the code 1 and an overflow the code 101. -/
theorem code_run_eq_zero_iff {store : FileStore} {words : List String} {command : Command}
    (read : Command.ofWords? words = some command) :
    (run store words).code = 0 ↔ Gives command.steps { store := store } () := by
  unfold run Gives outcome
  simp only [read]
  generalize command.steps.run.run { store := store } = ran
  obtain ⟨result, world⟩ := ran
  rcases result with (_ | _) | _ <;> simp

section Apply

variable {store : FileStore} {words : List String} {options : ProblemOptions}
  {table config : Option String} {problem configured : Problem}
  (read : Command.ofWords? words = some (.apply options table config))

include read

theorem code_run_apply_iff :
    (run store words).code = 0 ↔ ∃ problem configured, Describes store options problem ∧
      Configures store table config problem configured := by
  have printed : ∀ (configured : Problem) world,
      Gives (Program.print configured.toJson.pretty) world () := fun _ _ => rfl
  rw [code_run_eq_zero_iff read, steps_apply]
  simp only [(quiet_problem options).gives_bind_iff, gives_problem_iff,
    (quiet_configure table _ config).gives_bind_iff, gives_configure_iff, printed, and_true,
    exists_and_left]

/-- The command that applies a configuration prints the configured problem and nothing else. -/
theorem output_run_apply (described : Describes store options problem)
    (configures : Configures store table config problem configured) :
    (run store words).output = outputOf [configured.toJson.pretty] := by
  have made : outcome options.problem { store := store } = (.ok problem, { store := store }) :=
    (quiet_problem options).outcome_eq (gives_problem_iff.mpr described)
  have carried : outcome (configure table problem config) { store := store } =
      (.ok configured, { store := store }) :=
    (quiet_configure table problem config).outcome_eq (gives_configure_iff.mpr configures)
  rw [output_run read, steps_apply, outcome_bind, made]
  simp only [outcome_bind, carried]
  rfl

end Apply

end CommandLine

end KernelTuning
