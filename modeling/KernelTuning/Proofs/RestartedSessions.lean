import KernelTuning.Proofs.ConfiguredProblems
import KernelTuning.Proofs.TableFiles

/-!
# Restarted sessions

Sessions follow one another on a table file.  A call makes progress under the signature of its
problem, hence so do all calls of a session, and what the session saves is what the next one
loads.  Progress therefore continues over any number of sessions.
-/

namespace KernelTuning

open Json (ReadsRounded)
open Table (Retains Progress)

namespace Session

/-! ## Calls -/

/-- A call to a session that may change its table.  The trials of a tuning run that takes its
candidates in another order, or whose benchmark does not always take the same time, are
recorded one by one. -/
inductive Call where
  | tune (benchmark : Benchmark) (problem : Problem)
  | tuneWithCostModel (problem : Problem)
  | applyOrTune (problem : Problem)
  | trials (problem : Problem) (timings : List Timing)

namespace Call

def problem : Call → Problem
  | .tune _ problem => problem
  | .tuneWithCostModel problem => problem
  | .applyOrTune problem => problem
  | .trials problem _ => problem

/-- The session that a call of the tuner leaves; one that fails leaves the old one. -/
def afterTuning (session : Session)
    (attempt : ExceptT Tuner.Fault Checked (Outcome × Session)) : Session :=
  match attempt.run with
  | .ok (.ok (_, next)) => next
  | _ => session

def afterConfiguring (session : Session) (attempt : Checked Configured) : Session :=
  match attempt with
  | .ok configured => configured.session
  | .error _ => session

/-- The table with trials recorded under the signature of a problem, if it has one. -/
def recordTrials (table : Table) (problem : Problem) (timings : List Timing) : Table :=
  match problem.signature with
  | .error _ => table
  | .ok key => timings.foldl (fun table timing => (table.update key timing).1) table

/-- The session after a call, whether the call succeeds or not. -/
def after (session : Session) : Call → Session
  | .tune benchmark problem => afterTuning session (session.tune benchmark problem)
  | .tuneWithCostModel problem => afterTuning session (session.tuneWithCostModel problem)
  | .applyOrTune problem => afterConfiguring session (session.applyOrTune problem)
  | .trials problem timings =>
      { session with table := recordTrials session.table problem timings }

/-- A call keeps the options of its session, and the table makes progress. -/
structure Advances (problem : Problem) (before after : Session) : Prop where
  options : after.options = before.options
  progress : Progress (fun key => problem.signature = .ok key) before.table after.table

theorem Advances.refl (problem : Problem) (session : Session) :
    Advances problem session session where
  options := rfl
  progress := .refl _ _

theorem advances_tuning (session : Session) (benchmark : Benchmark) (problem : Problem) :
    Advances problem session (afterTuning session (session.tune benchmark problem)) := by
  rcases exists_tune session.options benchmark problem with
    ⟨fault, untuned⟩ | ⟨key, configs, signed, _, tuned⟩
  · have failed : (session.tune benchmark problem).run = .ok (.error fault) :=
      untuned session.table
    rw [afterTuning, failed]
    exact .refl problem session
  · have passes : (session.tune benchmark problem).run = .ok (.ok _) := tuned session.table
    rw [afterTuning, passes]
    exact
      { options := rfl
        progress := Tuner.progress_swept _ _ _ signed _ _ }

theorem advances_configuring (session : Session) (problem : Problem) :
    Advances problem session (afterConfiguring session (session.applyOrTune problem)) := by
  cases done : session.applyOrTune problem with
  | ok configured =>
      have settles := settles_of_applyOrTune done
      exact ⟨settles.options, settles.progress⟩
  | error fault => exact .refl problem session

private theorem progress_recordTrials (table : Table) (problem : Problem) (timings : List Timing) :
    Progress (fun key => problem.signature = .ok key) table
      (recordTrials table problem timings) := by
  unfold recordTrials
  split
  · exact .refl _ _
  · rename_i key signed
    induction timings generalizing table with
    | nil => exact .refl _ _
    | cons timing timings induction => exact (Progress.update table signed timing).trans (induction _)

theorem advances_after (session : Session) (call : Call) :
    Advances call.problem session (call.after session) := by
  cases call with
  | tune benchmark problem => exact advances_tuning session benchmark problem
  | tuneWithCostModel problem =>
      exact advances_tuning session session.costModel.benchmark problem
  | applyOrTune problem => exact advances_configuring session problem
  | trials problem timings => exact ⟨rfl, progress_recordTrials _ problem timings⟩

end Call

/-! ## One session -/

/-- A session as it was opened, and the calls until it was closed. -/
structure Stay where
  opened : Session
  calls : List Call

namespace Stay

def closed (stay : Stay) : Session :=
  stay.calls.foldl Call.after stay.opened

/-- A problem with the signature was passed to one of the calls. -/
def Passed (stay : Stay) (key : String) : Prop :=
  ∃ call ∈ stay.calls, call.problem.signature = .ok key

theorem options_closed (stay : Stay) : stay.closed.options = stay.opened.options := by
  obtain ⟨opened, calls⟩ := stay
  unfold closed
  induction calls generalizing opened with
  | nil => rfl
  | cons call calls induction =>
      exact (induction (call.after opened)).trans (Call.advances_after opened call).options

theorem closed_onPath {stay : Stay} {path : String}
    (onPath : stay.opened.options.tablePath = some path) :
    stay.closed.options.tablePath = some path := by
  rw [stay.options_closed, onPath]

theorem progress (stay : Stay) : Progress stay.Passed stay.opened.table stay.closed.table := by
  obtain ⟨opened, calls⟩ := stay
  unfold closed
  induction calls generalizing opened with
  | nil => exact .refl _ _
  | cons call calls induction =>
      have first := (Call.advances_after opened call).progress
      have rest := induction (call.after opened)
      apply Progress.trans (first.weaken ?_) (rest.weaken ?_)
      · intro key signed
        exact ⟨call, List.mem_cons_self, signed⟩
      · rintro key ⟨other, member, signed⟩
        exact ⟨other, List.mem_cons_of_mem _ member, signed⟩

end Stay

/-! ## Files -/

variable {options : SessionOptions} {session : Session} {path : String}
  {store after : FileStore} {table : Table}

theorem outcome_start_of_path (onPath : options.tablePath = some path)
    (keeps : options.clearTable = false) (store : FileStore) :
    outcome (start options) store = ((Table.load store path).map (Session.mk options), store) := by
  rw [outcome_start keeps, onPath, Option.elim_some]

theorem persist_eq_save (onPath : session.options.tablePath = some path) :
    session.persist = session.table.save path := by
  rw [persist, onPath]

theorem exists_persist_iff (onPath : session.options.tablePath = some path) :
    (∃ after, outcome session.persist store = (.ok (), after)) ↔ Table.Accepts store path := by
  rw [persist_eq_save onPath]
  exact Table.exists_save_iff

theorem accepts_of_persist (onPath : session.options.tablePath = some path)
    (saved : outcome session.persist store = (.ok (), after)) : Table.Accepts after path := by
  rw [persist_eq_save onPath] at saved
  exact Table.accepts_of_save saved

theorem load_of_persist (onPath : session.options.tablePath = some path)
    (finite : session.table.AllFinite)
    (rounded : ∀ row ∈ session.table.rows, ReadsRounded row.2.time)
    (saved : outcome session.persist store = (.ok (), after)) :
    Table.load after path = .ok session.table := by
  rw [persist_eq_save onPath] at saved
  exact Table.load_of_save saved (Table.parse?_text finite rounded)

/-! ## One session after the other -/

/-- Sessions on one table file, each opened when the one before it has been closed.  None of
them clears the file. -/
inductive Stays (path : String) : FileStore → List Stay → FileStore → Prop
  | none (store : FileStore) : Stays path store [] store
  | next {before during middle after : FileStore} {stay : Stay} {stays : List Stay}
      (onPath : stay.opened.options.tablePath = some path)
      (keeps : stay.opened.options.clearTable = false)
      (starts : outcome (start stay.opened.options) before = (.ok stay.opened, during))
      (saves : outcome stay.closed.persist during = (.ok (), middle))
      (later : Stays path middle stays after) : Stays path before (stay :: stays) after

/-- The tables that a file holds, the first one and those of the sessions. -/
def tablesOf (table : Table) (stays : List Stay) : List Table :=
  table :: stays.map fun stay => stay.closed.table

/-- What sessions on a file lead to.  Each session is opened with the table that the one
before it was closed with, and so is every further one; it can be closed again, once that was
possible.  No table has lost or worsened a record of an earlier one, and the records that a
session has changed belong to the problems that were passed to it. -/
structure Lossless (path : String) (table : Table) (stays : List Stay) (after : FileStore)
    (last : Table) : Prop where
  handedOn : tablesOf table stays = (stays.map fun stay => stay.opened.table) ++ [last]
  retained : (tablesOf table stays).Pairwise Retains
  passed : ∀ stay ∈ stays, ∀ key,
    stay.closed.table.find? key ≠ stay.opened.table.find? key → stay.Passed key
  recalled : ∀ stay ∈ stays.getLast?, ∀ problem,
    last.lookup? problem = stay.closed.table.lookup? problem ∧
      last.applyBest problem = stay.closed.table.applyBest problem
  reopens : ∀ options : SessionOptions, options.tablePath = some path →
    options.clearTable = false → outcome (start options) after = (.ok ⟨options, last⟩, after)
  closes : stays ≠ [] → ∀ session : Session, session.options.tablePath = some path →
    ∃ later, outcome session.persist after = (.ok (), later)

private theorem lossless_nil (loaded : Table.load store path = .ok table) :
    Lossless path table [] store table where
  handedOn := rfl
  retained := List.pairwise_singleton _ _
  passed := by
    intro stay member
    cases member
  recalled := by
    intro stay member
    cases member
  reopens := by
    intro options onPath keeps
    rw [outcome_start_of_path onPath keeps, loaded]
    rfl
  closes nonempty := absurd rfl nonempty

private theorem Stay.passed_of_changed {stay : Stay} {key : String}
    (changed : stay.closed.table.find? key ≠ stay.opened.table.find? key) : stay.Passed key := by
  by_contra notPassed
  exact changed (stay.progress.others key notPassed)

private theorem Lossless.cons {stay : Stay} {stays : List Stay} {last : Table}
    (closes : ∀ session : Session, session.options.tablePath = some path →
      ∃ later, outcome session.persist after = (.ok (), later))
    (lossless : Lossless path stay.closed.table stays after last) :
    Lossless path stay.opened.table (stay :: stays) after last where
  handedOn := congrArg (stay.opened.table :: ·) lossless.handedOn
  retained := by
    have first := stay.progress.retained
    refine List.pairwise_cons.mpr ⟨?_, lossless.retained⟩
    intro later member
    rcases List.mem_cons.mp member with rfl | further
    · exact first
    · -- All later tables have made progress since this session was closed.
      exact first.trans ((List.pairwise_cons.mp lossless.retained).1 later further)
  passed := by
    intro other member key changed
    rcases List.mem_cons.mp member with rfl | further
    · exact Stay.passed_of_changed changed
    · exact lossless.passed other further key changed
  recalled := by
    intro other isLast problem
    cases stays with
    | nil =>
        cases isLast
        cases lossless.handedOn
        exact ⟨rfl, rfl⟩
    | cons next stays => exact lossless.recalled other isLast problem
  reopens := lossless.reopens
  closes _ := closes

/-- A file that has been saved once can be saved again. -/
theorem Stays.accepts {before : FileStore} {stays : List Stay}
    (chain : Stays path before stays after) (nonempty : stays ≠ []) :
    Table.Accepts after path := by
  induction chain with
  | none store => exact absurd rfl nonempty
  | @next before during middle after stay stays onPath keeps starts saves later induction =>
      cases later with
      | none =>
          exact accepts_of_persist (Stay.closed_onPath onPath) saves
      | next => exact induction (List.cons_ne_nil _ _)

/-- Restarting sessions on a table file never loses or worsens a record.  The times that are
saved are read correctly rounded. -/
theorem Stays.lossless {before : FileStore} {stays : List Stay}
    (loaded : Table.load before path = .ok table) (chain : Stays path before stays after)
    (rounded : ∀ stay ∈ stays, ∀ row ∈ stay.closed.table.rows, ReadsRounded row.2.time) :
    ∃ last, Lossless path table stays after last := by
  induction chain generalizing table with
  | none store => exact ⟨table, lossless_nil loaded⟩
  | @next before during middle after stay stays onPath keeps starts saves later induction =>
      have finite : table.AllFinite := by
        obtain ⟨calls, rfl⟩ := Table.exists_ofRows_of_load loaded
        exact Table.allFinite_ofRows calls
      have opened : stay.opened.table = table := by
        rw [outcome_start_of_path onPath keeps, loaded] at starts
        exact (congrArg Session.table (Except.ok.inj (congrArg Prod.fst starts))).symm
      -- The rest of the chain starts from what this session saves.
      have handedOn : Table.load middle path = .ok stay.closed.table := by
        apply load_of_persist (Stay.closed_onPath onPath) _ (rounded stay List.mem_cons_self) saves
        apply stay.progress.allFinite
        rwa [opened]
      obtain ⟨last, lossless⟩ :=
        induction handedOn fun other member => rounded other (List.mem_cons_of_mem _ member)
      have accepts : Table.Accepts after path :=
        (Stays.next onPath keeps starts saves later).accepts (List.cons_ne_nil _ _)
      rw [← opened]
      exact ⟨last, lossless.cons fun _ onSamePath => (exists_persist_iff onSamePath).mpr accepts⟩

def onFile : SessionOptions :=
  { singleRun with tablePath := some "tables/best.json" }

/-- A session that finds no file, and whose first call fails. -/
def firstStay : Stay where
  opened := ⟨onFile, .empty⟩
  calls :=
    [.tuneWithCostModel (.gemm ⟨1, 0, 64, 64⟩ .f32 Space.smallProduct.target),
      .applyOrTune Space.smallProduct]

/-- A session on the file of the first one, in which a trial is faster. -/
def secondStay : Stay where
  opened := ⟨onFile, firstStay.closed.table⟩
  calls := [.trials Space.smallProduct [⟨"v2:64,64,8,32,32,4,1,1,1", ⟨0x3f50000000000000⟩⟩]]

private theorem closed_firstStay : firstStay.closed.table =
    Table.ofRows [(Space.smallProduct.signatureText,
      ⟨"v2:64,64,8,32,32,4,1,1,1", ⟨0x3f763c2ccf6c71d0⟩⟩)] := by
  decide +kernel

private theorem closed_secondStay : secondStay.closed.table =
    Table.ofRows [(Space.smallProduct.signatureText,
      ⟨"v2:64,64,8,32,32,4,1,1,1", ⟨0x3f50000000000000⟩⟩)] := by
  unfold secondStay
  rw [closed_firstStay]
  decide +kernel

theorem lossless_firstStay_secondStay :
    ∃ after, Lossless "tables/best.json" .empty [firstStay, secondStay] after
      (.ofRows [(Space.smallProduct.signatureText,
        ⟨"v2:64,64,8,32,32,4,1,1,1", ⟨0x3f50000000000000⟩⟩)]) := by
  have rounded : ∀ stay ∈ [firstStay, secondStay], ∀ row ∈ stay.closed.table.rows,
      ReadsRounded row.2.time := by
    simp only [List.forall_mem_cons, closed_firstStay, closed_secondStay]
    refine ⟨?_, ?_, by simp⟩
    · exact @of_decide_eq_true _ (List.decidableBAll _ _) (by decide +kernel)
    · exact @of_decide_eq_true _ (List.decidableBAll _ _) (by decide +kernel)
  have accepts : Table.Accepts {} "tables/best.json" :=
    ⟨{ directories := [["tables"]] }, ["tables", "best.json.tmp"], ["tables", "best.json"], rfl,
      rfl, rfl⟩
  have firstOnPath : firstStay.closed.options.tablePath = some "tables/best.json" :=
    Stay.closed_onPath rfl
  have secondOnPath : secondStay.closed.options.tablePath = some "tables/best.json" :=
    Stay.closed_onPath rfl
  obtain ⟨middle, firstSaves⟩ := (exists_persist_iff firstOnPath).mpr accepts
  have loads : Table.load middle "tables/best.json" = .ok firstStay.closed.table := by
    apply load_of_persist firstOnPath _ (rounded firstStay List.mem_cons_self) firstSaves
    rw [closed_firstStay]
    exact Table.allFinite_ofRows _
  have secondStarts : outcome (start onFile) middle = (.ok secondStay.opened, middle) := by
    rw [outcome_start_of_path rfl rfl, loads]
    rfl
  obtain ⟨after, secondSaves⟩ :=
    (exists_persist_iff secondOnPath).mpr (accepts_of_persist firstOnPath firstSaves)
  have chain : Stays "tables/best.json" {} [firstStay, secondStay] after :=
    .next rfl rfl rfl firstSaves (.next rfl rfl secondStarts secondSaves (.none after))
  obtain ⟨last, lossless⟩ := Stays.lossless rfl chain rounded
  have same : secondStay.closed.table = last := by
    simpa [tablesOf] using congrArg List.getLast? lossless.handedOn
  rw [← same, closed_secondStay] at lossless
  exact ⟨after, lossless⟩

end Session

end KernelTuning
