import KernelTuning.Word

/-!
# Taking checked computations apart

A check has three ends: it passes, it finds something wrong, or an arithmetic fault
stops it.  The lemmas below reduce what a composed check does to what its parts do,
so that no later proof has to open the underlying monads.
-/

namespace KernelTuning

variable {ε δ α β : Type}

theorem bind_of_eq_ok {first : Except ε α} {value : α} (passed : first = .ok value)
    (next : α → Except ε β) : first >>= next = next value := by
  rw [passed]
  rfl

theorem bind_eq_ok_iff
    {first : Except ε α} {next : α → Except ε β} {result : β} :
    first >>= next = .ok result ↔
      ∃ value, first = .ok value ∧ next value = .ok result := by
  cases first with
  | error error =>
      constructor
      · intro equality
        cases equality
      · rintro ⟨value, equality, _⟩
        cases equality
  | ok value =>
      constructor
      · intro equality
        exact ⟨value, rfl, equality⟩
      · rintro ⟨other, equality, rest⟩
        cases equality
        exact rest

theorem bind_eq_error_iff
    {first : Except ε α} {next : α → Except ε β} {problem : ε} :
    first >>= next = .error problem ↔
      first = .error problem ∨ ∃ value, first = .ok value ∧ next value = .error problem := by
  cases first with
  | error error =>
      constructor
      · intro equality
        cases equality
        exact .inl rfl
      · rintro (equality | ⟨value, equality, _⟩)
        · cases equality
          rfl
        · cases equality
  | ok value =>
      constructor
      · intro equality
        exact .inr ⟨value, rfl, equality⟩
      · rintro (equality | ⟨other, equality, rest⟩)
        · cases equality
        · cases equality
          exact rest

namespace Checked

/-- The computation passes with a value. -/
def Passes (attempt : ExceptT ε Checked α) (value : α) : Prop :=
  attempt.run = .ok (.ok value)

/-- The computation comes to an end without an arithmetic fault. -/
def Ends (attempt : ExceptT ε Checked α) : Prop :=
  ∃ answer, attempt.run = .ok answer

theorem Passes.ends {attempt : ExceptT ε Checked α} {value : α}
    (passes : Passes attempt value) : Ends attempt :=
  ⟨.ok value, passes⟩

@[simp] theorem passes_pure {value result : α} :
    Passes (pure value : ExceptT ε Checked α) result ↔ value = result := by
  constructor
  · intro passes
    cases passes
    rfl
  · rintro rfl
    rfl

@[simp] theorem not_passes_throw {error : ε} {result : α} :
    ¬Passes (throw error : ExceptT ε Checked α) result := by
  intro passes
  cases passes

theorem passes_bind
    {first : ExceptT ε Checked α} {next : α → ExceptT ε Checked β} {result : β} :
    Passes (first >>= next) result ↔
      ∃ value, Passes first value ∧ Passes (next value) result := by
  unfold Passes
  rw [ExceptT.run_bind, bind_eq_ok_iff]
  constructor
  · rintro ⟨answer, firstRun, nextRun⟩
    cases answer with
    | error error => cases nextRun
    | ok value => exact ⟨value, firstRun, nextRun⟩
  · rintro ⟨value, firstRun, nextRun⟩
    exact ⟨.ok value, firstRun, nextRun⟩

/-- A guard in front of the rest of a check. -/
theorem passes_guard
    {wrong : Prop} [Decidable wrong] {error : ε}
    {next : Unit → ExceptT ε Checked α} {result : α} :
    Passes (if wrong then throw error >>= next else next ()) result ↔
      ¬wrong ∧ Passes (next ()) result := by
  by_cases isWrong : wrong
  · simp [isWrong]
  · simp [isWrong]

/-- A guard at the end of a check. -/
theorem passes_lastGuard
    {wrong : Prop} [Decidable wrong] {error : ε} {value result : α} :
    Passes (if wrong then throw error else pure value : ExceptT ε Checked α) result ↔
      ¬wrong ∧ value = result := by
  by_cases isWrong : wrong <;> simp [isWrong]

theorem passes_lift {step : Checked α} {result : α} :
    Passes (liftM step : ExceptT ε Checked α) result ↔ step = .ok result := by
  cases step with
  | error fault =>
      constructor <;> intro equality <;> cases equality
  | ok value =>
      constructor
      · intro passes
        cases passes
        rfl
      · intro equality
        cases equality
        rfl

@[simp] theorem passes_adapt
    {attempt : ExceptT ε Checked α} {translate : ε → δ} {result : α} :
    Passes (attempt.adapt translate) result ↔ Passes attempt result := by
  unfold Passes
  change (Except.mapError translate <$> attempt.run) = _ ↔ _
  cases attempt.run with
  | error fault =>
      constructor <;> intro equality <;> cases equality
  | ok answer =>
      cases answer with
      | error error =>
          constructor <;> intro equality <;> cases equality
      | ok value =>
          constructor <;> intro equality <;> cases equality <;> rfl

/-- The computation finds something wrong. -/
def Fails (attempt : ExceptT ε Checked α) (error : ε) : Prop :=
  attempt.run = .ok (.error error)

@[simp] theorem fails_throw {error found : ε} :
    Fails (throw error : ExceptT ε Checked α) found ↔ error = found := by
  constructor
  · intro fails
    cases fails
    rfl
  · rintro rfl
    rfl

@[simp] theorem not_fails_pure {value : α} {error : ε} :
    ¬Fails (pure value : ExceptT ε Checked α) error := by
  intro fails
  cases fails

/-- Either part of a composed check finds what is wrong. -/
theorem fails_bind
    {first : ExceptT ε Checked α} {next : α → ExceptT ε Checked β} {error : ε} :
    Fails (first >>= next) error ↔
      Fails first error ∨ ∃ value, Passes first value ∧ Fails (next value) error := by
  unfold Fails Passes
  rw [ExceptT.run_bind, bind_eq_ok_iff]
  constructor
  · rintro ⟨answer, firstRun, nextRun⟩
    cases answer with
    | error found =>
        cases nextRun
        exact .inl firstRun
    | ok value => exact .inr ⟨value, firstRun, nextRun⟩
  · rintro (firstRun | ⟨value, firstRun, nextRun⟩)
    · exact ⟨.error error, firstRun, rfl⟩
    · exact ⟨.ok value, firstRun, nextRun⟩

theorem fails_guard
    {wrong : Prop} [Decidable wrong] {error found : ε}
    {next : Unit → ExceptT ε Checked α} :
    Fails (if wrong then throw error >>= next else next ()) found ↔
      wrong ∧ error = found ∨ ¬wrong ∧ Fails (next ()) found := by
  by_cases isWrong : wrong
  · simp [isWrong]
  · simp [isWrong]

theorem not_fails_lift {step : Checked α} {error : ε} :
    ¬Fails (liftM step : ExceptT ε Checked α) error := by
  intro fails
  cases step with
  | error fault => cases fails
  | ok value => cases fails

theorem fails_adapt
    {attempt : ExceptT ε Checked α} {translate : ε → δ} {error : δ} :
    Fails (attempt.adapt translate) error ↔
      ∃ found, Fails attempt found ∧ translate found = error := by
  unfold Fails
  change (Except.mapError translate <$> attempt.run) = _ ↔ _
  constructor
  · intro fails
    cases run : attempt.run with
    | error fault =>
        rw [run] at fails
        cases fails
    | ok answer =>
        rw [run] at fails
        cases answer with
        | error found =>
            cases fails
            exact ⟨found, rfl, rfl⟩
        | ok value => cases fails
  · rintro ⟨found, fails, rfl⟩
    rw [fails]
    rfl

@[simp] theorem ends_pure (value : α) :
    Ends (pure value : ExceptT ε Checked α) :=
  ⟨.ok value, rfl⟩

@[simp] theorem ends_throw (error : ε) :
    Ends (throw error : ExceptT ε Checked α) :=
  ⟨.error error, rfl⟩

theorem Ends.bind
    {first : ExceptT ε Checked α} {next : α → ExceptT ε Checked β}
    (firstEnds : Ends first)
    (nextEnds : ∀ value, Passes first value → Ends (next value)) :
    Ends (first >>= next) := by
  obtain ⟨answer, firstRun⟩ := firstEnds
  unfold Ends
  rw [ExceptT.run_bind, firstRun]
  cases answer with
  | error error => exact ⟨.error error, rfl⟩
  | ok value => exact nextEnds value firstRun

theorem Ends.guard
    {wrong : Prop} [Decidable wrong] {error : ε}
    {next : Unit → ExceptT ε Checked α}
    (nextEnds : ¬wrong → Ends (next ())) :
    Ends (if wrong then throw error >>= next else next ()) := by
  by_cases isWrong : wrong
  · simp only [isWrong, if_true]
    exact (ends_throw error).bind fun _ passes => absurd passes not_passes_throw
  · simpa [isWrong] using nextEnds isWrong

theorem ends_lastGuard
    {wrong : Prop} [Decidable wrong] (error : ε) (value : α) :
    Ends (if wrong then throw error else pure value : ExceptT ε Checked α) := by
  by_cases isWrong : wrong <;> simp [isWrong]

/-- Both parts of a composed check have to come to an end. -/
theorem ends_bind_iff
    {first : ExceptT ε Checked α} {next : α → ExceptT ε Checked β} :
    Ends (first >>= next) ↔
      Ends first ∧ ∀ value, Passes first value → Ends (next value) := by
  constructor
  · rintro ⟨answer, answered⟩
    rw [ExceptT.run_bind] at answered
    obtain ⟨firstAnswer, firstRun, rest⟩ := bind_eq_ok_iff.mp answered
    refine ⟨⟨firstAnswer, firstRun⟩, ?_⟩
    intro value passes
    cases firstRun.symm.trans passes
    exact ⟨answer, rest⟩
  · rintro ⟨firstEnds, nextEnds⟩
    exact firstEnds.bind nextEnds

theorem ends_guard_iff
    {wrong : Prop} [Decidable wrong] {error : ε}
    {next : Unit → ExceptT ε Checked α} :
    Ends (if wrong then throw error >>= next else next ()) ↔
      (¬wrong → Ends (next ())) := by
  constructor
  · intro ends isRight
    rwa [if_neg isRight] at ends
  · exact Ends.guard

theorem ends_lift_iff {step : Checked α} :
    Ends (liftM step : ExceptT ε Checked α) ↔ ∃ value, step = .ok value := by
  cases step with
  | error fault =>
      constructor
      · rintro ⟨answer, answered⟩
        cases answered
      · rintro ⟨value, equality⟩
        cases equality
  | ok value => exact ⟨fun _ => ⟨value, rfl⟩, fun _ => ⟨.ok value, rfl⟩⟩

theorem ends_lift {step : Checked α} {value : α} (equality : step = .ok value) :
    Ends (liftM step : ExceptT ε Checked α) :=
  (passes_lift.mpr equality).ends

theorem Ends.adapt {attempt : ExceptT ε Checked α} (ends : Ends attempt)
    (translate : ε → δ) : Ends (attempt.adapt translate) := by
  obtain ⟨answer, attemptRun⟩ := ends
  refine ⟨answer.mapError translate, ?_⟩
  change (Except.mapError translate <$> attempt.run) = _
  rw [attemptRun]
  rfl

theorem ends_adapt_iff {attempt : ExceptT ε Checked α} {translate : ε → δ} :
    Ends (attempt.adapt translate) ↔ Ends attempt := by
  constructor
  · rintro ⟨answer, answered⟩
    change (Except.mapError translate <$> attempt.run) = _ at answered
    cases run : attempt.run with
    | error fault =>
        rw [run] at answered
        cases answered
    | ok answer => exact ⟨answer, run⟩
  · exact fun ends => ends.adapt translate

/-- A fold comes to an end if no step stops with a fault as long as the invariant
holds. -/
theorem exists_foldlM
    {step : β → α → Checked β} {items : List α} (invariant : β → Prop)
    (advance : ∀ state item, item ∈ items → invariant state →
      ∃ next, step state item = .ok next ∧ invariant next)
    {start : β} (holds : invariant start) :
    ∃ final, items.foldlM step start = .ok final ∧ invariant final := by
  induction items generalizing start with
  | nil => exact ⟨start, rfl, holds⟩
  | cons item items induction =>
      obtain ⟨next, stepped, nextHolds⟩ := advance start item List.mem_cons_self holds
      have advanceLater : ∀ state later, later ∈ items → invariant state →
          ∃ next, step state later = .ok next ∧ invariant next := by
        intro state later member
        exact advance state later (List.mem_cons_of_mem _ member)
      obtain ⟨final, folded, finalHolds⟩ := induction advanceLater nextHolds
      refine ⟨final, ?_, finalHolds⟩
      rw [List.foldlM_cons, stepped]
      exact folded

end Checked

/-! ## Actions on a state -/

variable {σ : Type}

/-- What an action gives in a state, and the state afterwards. -/
def outcome (action : ExceptT ε (StateM σ) α) (state : σ) : Except ε α × σ :=
  action.run.run state

theorem outcome_bind (action : ExceptT ε (StateM σ) α) (next : α → ExceptT ε (StateM σ) β)
    (state : σ) :
    outcome (action >>= next) state =
      match outcome action state with
      | (.ok value, middle) => outcome (next value) middle
      | (.error error, middle) => (.error error, middle) := by
  change (ExceptT.bindCont next (action.run.run state).1).run (action.run.run state).2 = _
  rw [outcome]
  cases action.run.run state with
  | mk result middle => cases result <;> rfl

theorem outcome_get (state : σ) :
    outcome (get : ExceptT ε (StateM σ) σ) state = (.ok state, state) :=
  rfl

theorem outcome_set (state after : σ) :
    outcome (set after : ExceptT ε (StateM σ) PUnit) state = (.ok ⟨⟩, after) :=
  rfl

theorem outcome_throw (error : ε) (state : σ) :
    outcome (throw error : ExceptT ε (StateM σ) α) state = (.error error, state) :=
  rfl

end KernelTuning
