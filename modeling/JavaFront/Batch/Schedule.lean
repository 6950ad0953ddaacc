import JavaFront.Batch

/-!
# Batch runs under a schedule

A batch run works at several units at a time, at no more of them than its
settings allow. Units are started one after another in the order in which they
were selected; from then on each goes its own way. The diagnostics of a unit are
entered in the ledger at one stroke, and its report goes to a slot of its own.
When nothing is left to do, the filled slots are the units of the run.

A schedule says in which order all this happens. `Disk.runBy` is the run under a
schedule; `Disk.run` does one unit after another.
-/

namespace JavaFront

namespace Batch

/-- How far a run has come with a unit. -/
inductive Stage where
  | waiting
  | started
  | entered (report : UnitReport)
  | done (report : UnitReport)

namespace Stage

/-- The unit is being worked at. -/
def isActive : Stage → Bool
  | .started | .entered _ => true
  | .waiting | .done _ => false

/-- The report of a unit whose diagnostics are in the ledger. -/
def report? : Stage → Option UnitReport
  | .entered report | .done report => some report
  | .waiting | .started => none

/-- What is in the slot of the unit. -/
def slot? : Stage → Option UnitReport
  | .done report => some report
  | .waiting | .started | .entered _ => none

end Stage

/-- A unit of a run. -/
structure Task where
  path : Bytes
  stage : Stage := .waiting

/-- How far a run has come. -/
structure Progress where
  tasks : List Task
  ledger : Ledger := {}

/-- What can happen next in a run: the next unit is started, a unit is parsed
and its diagnostics are entered, or its report is put in its slot. A unit that
is given only so much time may run out of patience. -/
inductive Move where
  | start
  | enter (index : Nat) (patience : Option Int := none)
  | finish (index : Nat)
deriving DecidableEq, Repr

/-- Starts the first unit that waits. -/
def startNext : List Task → Option (List Task)
  | [] => none
  | task :: tasks =>
    match task.stage with
    | .waiting => some ({ task with stage := .started } :: tasks)
    | _ => (startNext tasks).map (task :: ·)

namespace Progress

/-- The start of a run. -/
def fresh (paths : List Bytes) : Progress where
  tasks := paths.map ({ path := · })

/-- The number of units that are worked at. -/
def active (progress : Progress) : Nat :=
  progress.tasks.countP (·.stage.isActive)

/-- Every slot is filled. -/
def settled (progress : Progress) : Bool :=
  progress.tasks.all (·.stage.slot?.isSome)

/-- The outcome of a run: what is in the slots, and the ledger. -/
def toBatch (progress : Progress) : Batch where
  units := progress.tasks.filterMap (·.stage.slot?)
  ledger := progress.ledger

/-- What is behind a move, if it can happen. A unit is started only while fewer
are worked at than the settings allow, and runs out of patience only under a
time limit. -/
def advance (disk : Disk) (settings : Settings) (progress : Progress) : Move → Option Progress
  | .start =>
    if progress.active < settings.jobs then
      (startNext progress.tasks).map fun tasks => { progress with tasks }
    else none
  | .enter index patience =>
    match progress.tasks[index]? with
    | some ⟨path, .started⟩ =>
      if patience.isSome && settings.unitTimeout ≤ 0 then none
      else
        let report := disk.parseUnit settings path patience
        some {
          tasks := progress.tasks.set index ⟨path, .entered report⟩
          ledger := report.enter progress.ledger }
    | _ => none
  | .finish index =>
    match progress.tasks[index]? with
    | some ⟨path, .entered report⟩ =>
      some { progress with tasks := progress.tasks.set index ⟨path, .done report⟩ }
    | _ => none

/-- What is behind several moves, if they can happen one after another. -/
def follow (disk : Disk) (settings : Settings) (progress : Progress) (schedule : List Move) :
    Option Progress :=
  schedule.foldlM (advance disk settings) progress

end Progress

end Batch

/-- Parses all files the settings select under a schedule. There is no outcome
if the schedule cannot be kept or leaves something to do. -/
def Disk.runBy (disk : Disk) (settings : Settings) (schedule : List Batch.Move)
    (globs : Glob.Language := Glob.language) : Option Batch :=
  match settings.fault? globs with
  | some fault => some { error := some (.settings fault) }
  | none =>
    match disk.select settings globs with
    | .error error => some { error := some error }
    | .ok paths =>
      ((Batch.Progress.fresh paths).follow disk settings schedule).bind fun progress =>
        if progress.settled then some progress.toBatch else none

end JavaFront
