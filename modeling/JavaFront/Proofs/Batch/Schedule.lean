import JavaFront.Batch.Schedule
import JavaFront.Proofs.Batch.Selection
import JavaFront.Proofs.Diagnostic.Register
import JavaFront.Proofs.Parser.Records

/-!
# A batch run does not depend on its schedule

The units of a run share one ledger and one count of reports. In whatever order
they are started, entered and finished, the run ends with the same units and
shows the same diagnostics; and however far a run has come, it can be brought to
its end. `Disk.run` is the run under one of the schedules.
-/

namespace JavaFront

open Diagnostic

namespace Batch

variable {disk : Disk} {settings : Settings} {paths : List Bytes} {progress after : Progress}

/-! ## What a move does -/

/-- What can become of a run by one move. -/
inductive Progress.Step (disk : Disk) (settings : Settings) : Progress → Progress → Prop where
  | start {ahead behind : List Task} {path : Bytes} {ledger : Ledger} :
    Step disk settings ⟨ahead ++ ⟨path, .waiting⟩ :: behind, ledger⟩
      ⟨ahead ++ ⟨path, .started⟩ :: behind, ledger⟩
  | enter {ahead behind : List Task} {path : Bytes} {ledger : Ledger} {patience : Option Int}
    (limited : patience = none ∨ 0 < settings.unitTimeout) :
    Step disk settings ⟨ahead ++ ⟨path, .started⟩ :: behind, ledger⟩
      ⟨ahead ++ ⟨path, .entered (disk.parseUnit settings path patience)⟩ :: behind,
        (disk.parseUnit settings path patience).enter ledger⟩
  | finish {ahead behind : List Task} {path : Bytes} {ledger : Ledger} {report : UnitReport} :
    Step disk settings ⟨ahead ++ ⟨path, .entered report⟩ :: behind, ledger⟩
      ⟨ahead ++ ⟨path, .done report⟩ :: behind, ledger⟩

theorem startNext_cases {tasks next : List Task} (started : startNext tasks = some next) :
    ∃ ahead path behind, tasks = ahead ++ ⟨path, .waiting⟩ :: behind ∧
      next = ahead ++ ⟨path, .started⟩ :: behind := by
  induction tasks generalizing next with
  | nil => simp [startNext] at started
  | cons task tasks ih =>
      obtain ⟨path, stage⟩ := task
      cases stage with
      | waiting => exact ⟨[], path, tasks, rfl, by simpa [startNext] using started.symm⟩
      | started | entered report | done report =>
          obtain ⟨rest, startedRest, rfl⟩ := Option.map_eq_some_iff.mp started
          obtain ⟨ahead, path, behind, rfl, rfl⟩ := ih startedRest
          exact ⟨_ :: ahead, path, behind, rfl, rfl⟩

/-- A list is cut at one of its places, and so is the list with another entry
there. -/
theorem exists_cut {tasks : List Task} {index : Nat} {task : Task}
    (found : tasks[index]? = some task) :
    ∃ ahead behind, tasks = ahead ++ task :: behind ∧
      ∀ new, tasks.set index new = ahead ++ new :: behind := by
  obtain ⟨within, rfl⟩ := List.getElem?_eq_some_iff.mp found
  refine ⟨tasks.take index, tasks.drop (index + 1), ?_, fun new => ?_⟩
  · rw [List.getElem_cons_drop, List.take_append_drop]
  · exact List.set_eq_take_append_cons_drop.trans (if_pos within)

theorem Progress.step_of_advance {move : Move}
    (moved : progress.advance disk settings move = some after) :
    progress.Step disk settings after := by
  obtain ⟨tasks, ledger⟩ := progress
  cases move with
  | start =>
      simp only [advance] at moved
      split at moved
      · obtain ⟨next, started, rfl⟩ := Option.map_eq_some_iff.mp moved
        obtain ⟨ahead, path, behind, rfl, rfl⟩ := startNext_cases started
        exact .start
      · cases moved
  | enter index patience =>
      simp only [advance] at moved
      split at moved
      · rename_i path found
        obtain ⟨ahead, behind, rfl, set⟩ := exists_cut found
        split at moved
        · cases moved
        · rename_i limited
          cases moved
          rw [set]
          refine .enter ?_
          cases patience <;> simp_all
      · cases moved
  | finish index =>
      simp only [advance] at moved
      split at moved
      · rename_i path report found
        obtain ⟨ahead, behind, rfl, set⟩ := exists_cut found
        cases moved
        rw [set]
        exact .finish
      · cases moved

/-! ## What every run keeps -/

/-- The diagnostics of a unit that had all the time it needs. -/
abbrev unitDiagnostics (disk : Disk) (settings : Settings) (path : Bytes) : List Diagnostic :=
  (disk.parseUnit settings path).diagnostics

theorem path_parseUnit (disk : Disk) (settings : Settings) (path : Bytes)
    (patience : Option Int) : (disk.parseUnit settings path patience).path = path := by
  simp only [Disk.parseUnit]
  split <;> rfl

/-- A unit that cannot be read has no diagnostics; one that can be read has a
source of its path, and diagnostics at offsets that are not negative. -/
theorem parseUnit_cases (disk : Disk) (settings : Settings) (path : Bytes) :
    ((disk.parseUnit settings path).source = none ∧ unitDiagnostics disk settings path = []) ∨
      ∃ source, (disk.parseUnit settings path).source = some source ∧ source.file = path ∧
        ∀ diagnostic ∈ unitDiagnostics disk settings path, 0 ≤ diagnostic.offset := by
  simp only [unitDiagnostics, Disk.parseUnit]
  split
  · exact .inl ⟨rfl, rfl⟩
  · exact .inr ⟨_, rfl, rfl, Source.parse_starts _ _ _⟩

/-- Units that cannot be read show nothing. -/
theorem flatMap_readable (disk : Disk) (settings : Settings) (paths : List Bytes) :
    (paths.filter fun path => (disk.parseUnit settings path).source.isSome).flatMap
        (fun path => arranged (unitDiagnostics disk settings path)) =
      paths.flatMap fun path => arranged (unitDiagnostics disk settings path) := by
  induction paths with
  | nil => rfl
  | cons path paths ih =>
      rcases parseUnit_cases disk settings path with ⟨unread, none⟩ | ⟨source, read, -⟩
      · rw [List.filter_cons_of_neg (by simp [unread]), ih, List.flatMap_cons,
          arranged_eq_nil_iff.mpr none, List.nil_append]
      · rw [List.filter_cons_of_pos (by simp [read]), List.flatMap_cons, List.flatMap_cons, ih]

/-- The ledger tells the diagnostics of these units and nothing else. -/
def Shows (disk : Disk) (settings : Settings) (ledger : Ledger) (entered : List Bytes) : Prop :=
  ∃ register, ledger.Represents register ∧ ∀ file, register.diagnostics file =
    if file ∈ entered then unitDiagnostics disk settings file else []

theorem Shows.enter {ledger : Ledger} {entered : List Bytes}
    (shows : Shows disk settings ledger entered) (path : Bytes) {now : List Bytes}
    (more : ∀ file, file ∈ now ↔ file = path ∨ file ∈ entered) :
    Shows disk settings ((disk.parseUnit settings path).enter ledger) now := by
  obtain ⟨register, represents, shown⟩ := shows
  rcases parseUnit_cases disk settings path with ⟨unread, none⟩ | ⟨source, read, rfl, placed⟩
  · refine ⟨register, by simpa only [UnitReport.enter, unread] using represents, fun file => ?_⟩
    by_cases same : file = path
    · simp [shown, more, same, none]
    · simp [shown, more, same]
  · refine ⟨register.report source (unitDiagnostics disk settings source.file), ?_, fun file => ?_⟩
    · simpa only [UnitReport.enter, read] using represents.report source placed
    · by_cases same : file = source.file
      · simp [Register.report, more, same]
      · simp [Register.report, shown, more, same]

namespace Progress

/-- The units whose diagnostics are in the ledger. -/
def entered (progress : Progress) : List Bytes :=
  (progress.tasks.filter (·.stage.report?.isSome)).map Task.path

/-- How far a run of some units can come: each is reported as if it was parsed
alone, and the ledger tells the diagnostics of those that were entered. -/
structure Sound (disk : Disk) (settings : Settings) (paths : List Bytes) (progress : Progress) :
    Prop where
  paths_eq : progress.tasks.map Task.path = paths
  reported : ∀ task ∈ progress.tasks, ∀ report ∈ task.stage.report?,
    report = disk.parseUnit settings task.path
  shows : Shows disk settings progress.ledger progress.entered

theorem Sound.fresh (disk : Disk) (settings : Settings) (paths : List Bytes) :
    (fresh paths).Sound disk settings paths where
  paths_eq := by simp [Progress.fresh, Function.comp_def]
  reported := by simp [Progress.fresh, Stage.report?]
  shows := ⟨{}, .empty, by simp [entered, Progress.fresh, Stage.report?]⟩

theorem Sound.step (untimed : settings.unitTimeout ≤ 0)
    (sound : progress.Sound disk settings paths) (step : progress.Step disk settings after) :
    after.Sound disk settings paths := by
  obtain ⟨paths_eq, reported, shows⟩ := sound
  cases step with
  | start =>
      refine ⟨by simpa using paths_eq, ?_, by simpa [entered, Stage.report?] using shows⟩
      simpa [or_imp, forall_and, Stage.report?] using reported
  | @enter ahead behind path ledger patience limited =>
      obtain rfl : patience = none := limited.resolve_right (by omega)
      refine ⟨by simpa using paths_eq, ?_, shows.enter path fun file => ?_⟩
      · simp only [List.forall_mem_append, List.forall_mem_cons] at reported ⊢
        exact ⟨reported.1, by simp [Stage.report?], reported.2.2⟩
      · simp only [entered, List.filter_append, List.filter_cons, Stage.report?, Option.isSome,
          List.map_append, List.mem_append]
        simp [or_left_comm]
  | finish =>
      refine ⟨by simpa using paths_eq, ?_, by simpa [entered, Stage.report?] using shows⟩
      simpa [or_imp, forall_and, Stage.report?] using reported

theorem Sound.follow (untimed : settings.unitTimeout ≤ 0)
    (sound : progress.Sound disk settings paths) {schedule : List Move}
    (followed : progress.follow disk settings schedule = some after) :
    after.Sound disk settings paths := by
  induction schedule generalizing progress with
  | nil => exact Option.some.inj followed ▸ sound
  | cons move schedule ih =>
      obtain ⟨next, moved, rest⟩ := Option.bind_eq_some_iff.mp followed
      exact ih (sound.step untimed (step_of_advance moved)) rest

/-- A run that is through has the units as they are alone. -/
theorem Sound.units_eq (sound : progress.Sound disk settings paths)
    (settled : progress.settled = true) :
    progress.toBatch.units = paths.map fun path => disk.parseUnit settings path := by
  have filled : ∀ task ∈ progress.tasks,
      task.stage.slot? = some (disk.parseUnit settings task.path) := by
    intro task member
    obtain ⟨report, slot⟩ := Option.isSome_iff_exists.mp (List.all_eq_true.mp settled task member)
    have entered : report ∈ task.stage.report? := by
      cases stage : task.stage <;> simp_all [Stage.slot?, Stage.report?]
    rw [slot, sound.reported task member report entered]
  rw [← sound.paths_eq, List.map_map]
  exact (List.filterMap_congr filled).trans (congrFun List.filterMap_eq_map' _)

/-- A run that is through shows the diagnostics of the units that can be read,
one unit after another. -/
theorem Sound.all_eq (sound : progress.Sound disk settings paths)
    (sorted : paths.Pairwise (· < ·)) (settled : progress.settled = true) :
    progress.ledger.all = (progress.toBatch.units.filter (·.source.isSome)).flatMap fun report =>
      arranged report.diagnostics := by
  obtain ⟨register, represents, shown⟩ := sound.shows
  have entered : progress.entered = paths := by
    rw [← sound.paths_eq, Progress.entered, List.filter_eq_self.mpr]
    intro task member
    have filled := List.all_eq_true.mp settled task member
    cases stage : task.stage <;> simp_all [Stage.slot?, Stage.report?]
  rw [entered] at shown
  have covers : ∀ file, register.diagnostics file ≠ [] → file ∈ paths := fun file some =>
    not_imp_comm.mp (fun outside => (shown file).trans (if_neg outside)) some
  rw [represents.all_eq sorted covers, sound.units_eq settled, List.filter_map, List.flatMap_map]
  have readable : ∀ path ∈ paths, arranged (register.diagnostics path) =
      arranged (unitDiagnostics disk settings path) := fun path member =>
    congrArg arranged ((shown path).trans (if_pos member))
  rw [List.flatMap_congr readable, ← flatMap_readable]
  rfl

end Progress

/-! ## Every run comes to its end -/

/-- The number of moves that a unit has ahead. -/
def Stage.left : Stage → Nat
  | .waiting => 3
  | .started => 2
  | .entered _ => 1
  | .done _ => 0

theorem exists_startNext {tasks : List Task} {task : Task} (member : task ∈ tasks)
    (waiting : task.stage = .waiting) : ∃ next, startNext tasks = some next := by
  induction tasks with
  | nil => cases member
  | cons first tasks ih =>
      simp only [startNext]
      split
      · exact ⟨_, rfl⟩
      · rename_i busy
        rcases List.mem_cons.mp member with rfl | later
        · exact absurd waiting busy
        · obtain ⟨next, started⟩ := ih later
          exact ⟨_, congrArg _ started⟩

/-- The number of moves that units have ahead. -/
def movesLeft : List Task → Nat
  | [] => 0
  | task :: tasks => task.stage.left + movesLeft tasks

theorem movesLeft_append (ahead behind : List Task) :
    movesLeft (ahead ++ behind) = movesLeft ahead + movesLeft behind := by
  induction ahead with
  | nil => simp [movesLeft]
  | cons task ahead ih => rw [List.cons_append, movesLeft, movesLeft, ih, Nat.add_assoc]

namespace Progress

/-- The number of moves that a run has ahead. -/
def left (progress : Progress) : Nat :=
  movesLeft progress.tasks

theorem Step.left_eq (step : progress.Step disk settings after) :
    progress.left = after.left + 1 := by
  cases step <;> simp only [Progress.left, movesLeft_append, movesLeft, Stage.left] <;> omega

theorem left_of_follow {schedule : List Move}
    (followed : progress.follow disk settings schedule = some after) :
    progress.left = after.left + schedule.length := by
  induction schedule generalizing progress with
  | nil => exact congrArg left (Option.some.inj followed)
  | cons move schedule ih =>
      obtain ⟨next, moved, rest⟩ := Option.bind_eq_some_iff.mp followed
      rw [(step_of_advance moved).left_eq, ih rest, List.length_cons, Nat.add_assoc]

/-- A run that is not through can go on: a unit that is worked at can be entered
or finished, and if there is none, the next one can be started. -/
theorem exists_advance (disk : Disk) (jobs : 1 ≤ settings.jobs)
    (unsettled : progress.settled = false) :
    ∃ move after, progress.advance disk settings move = some after := by
  by_cases busy : ∃ task ∈ progress.tasks, task.stage.isActive = true
  · obtain ⟨⟨path, stage⟩, member, active⟩ := busy
    obtain ⟨index, found⟩ := List.getElem?_of_mem member
    cases stage with
    | waiting | done report => cases active
    | started => exact ⟨.enter index, _, by simp only [advance, found]; rfl⟩
    | entered report => exact ⟨.finish index, _, by simp only [advance, found]; rfl⟩
  · have idle : progress.active = 0 := by
      simpa [active, List.countP_eq_zero] using busy
    obtain ⟨task, member, empty⟩ := List.all_eq_false.mp unsettled
    have waiting : task.stage = .waiting := by
      have idleTask : ¬ task.stage.isActive = true := fun active => busy ⟨task, member, active⟩
      cases stage : task.stage <;> simp_all [Stage.isActive, Stage.slot?]
    obtain ⟨next, started⟩ := exists_startNext member waiting
    exact ⟨.start, _, by rw [advance, if_pos (by omega), started]; rfl⟩

/-- However far a run has come, it can be brought to its end. -/
theorem exists_settled (disk : Disk) (jobs : 1 ≤ settings.jobs) (progress : Progress) :
    ∃ schedule after, progress.follow disk settings schedule = some after ∧
      after.settled = true := by
  induction measure : progress.left using Nat.strongRecOn generalizing progress with
  | ind left ih =>
    cases settled : progress.settled with
    | true => exact ⟨[], progress, rfl, settled⟩
    | false =>
        obtain ⟨move, next, moved⟩ := exists_advance disk jobs settled
        have nearer := (step_of_advance moved).left_eq
        obtain ⟨schedule, after, followed, settled⟩ := ih next.left (by omega) next rfl
        exact ⟨move :: schedule, after,
          Option.bind_eq_some_iff.mpr ⟨next, moved, followed⟩, settled⟩

theorem follow_cons {move : Move} (moved : progress.advance disk settings move = some after)
    (schedule : List Move) :
    progress.follow disk settings (move :: schedule) = after.follow disk settings schedule := by
  rw [follow, List.foldlM_cons, moved]
  rfl

theorem follow_append (progress : Progress) (first second : List Move) :
    progress.follow disk settings (first ++ second) =
      (progress.follow disk settings first).bind fun next => next.follow disk settings second :=
  List.foldlM_append

end Progress

/-! ## One unit after another -/

/-- The schedule that does some units one after another, from an index on. -/
def inTurn (index : Nat) : Nat → List Move
  | 0 => []
  | count + 1 => .start :: .enter index :: .finish index :: inTurn (index + 1) count

/-- A unit that is through. -/
def Task.through (disk : Disk) (settings : Settings) (path : Bytes) : Task :=
  ⟨path, .done (disk.parseUnit settings path)⟩

theorem startNext_through (past : List Bytes) (path : Bytes) (tasks : List Task) :
    startNext (past.map (Task.through disk settings) ++ ⟨path, .waiting⟩ :: tasks) =
      some (past.map (Task.through disk settings) ++ ⟨path, .started⟩ :: tasks) := by
  induction past with
  | nil => rfl
  | cons first past ih =>
      simp only [List.map_cons, List.cons_append, startNext, Task.through] at ih ⊢
      rw [ih]
      rfl

/-- One unit after another is a schedule that can be kept. -/
theorem follow_inTurn (jobs : 1 ≤ settings.jobs) (past paths : List Bytes) (ledger : Ledger) :
    Progress.follow disk settings
        ⟨past.map (Task.through disk settings) ++ (Progress.fresh paths).tasks, ledger⟩
        (inTurn past.length paths.length) =
      some ⟨(past ++ paths).map (Task.through disk settings),
        (paths.map fun path => disk.parseUnit settings path).foldl UnitReport.enter ledger⟩ := by
  induction paths generalizing past ledger with
  | nil => simp [Progress.follow, inTurn, Progress.fresh]
  | cons path paths ih =>
      let run (stage : Stage) (ledger : Ledger) : Progress :=
        ⟨past.map (Task.through disk settings) ++ ⟨path, stage⟩ :: (Progress.fresh paths).tasks,
          ledger⟩
      let report := disk.parseUnit settings path
      have started : (run .waiting ledger).advance disk settings .start =
          some (run .started ledger) := by
        have idle : (run .waiting ledger).active = 0 := by
          simp [run, Progress.active, Progress.fresh, List.countP_eq_zero, Task.through,
            Stage.isActive]
        simp only [Progress.advance, idle, run, startNext_through]
        exact if_pos (by omega)
      have entered : (run .started ledger).advance disk settings (.enter past.length) =
          some (run (.entered report) (report.enter ledger)) := by
        simp [run, report, Progress.advance]
      have finished : (run (.entered report) (report.enter ledger)).advance disk settings
          (.finish past.length) = some (run (.done report) (report.enter ledger)) := by
        simp [run, Progress.advance]
      have rest := ih (past ++ [path]) (report.enter ledger)
      simp only [List.map_append, List.map_cons, List.map_nil, List.append_assoc,
        List.singleton_append, List.length_append, List.length_singleton] at rest
      calc (run .waiting ledger).follow disk settings (inTurn past.length (paths.length + 1))
          = (run .started ledger).follow disk settings _ := Progress.follow_cons started _
        _ = (run (.entered report) (report.enter ledger)).follow disk settings _ :=
            Progress.follow_cons entered _
        _ = (run (.done report) (report.enter ledger)).follow disk settings _ :=
            Progress.follow_cons finished _
        _ = _ := rest
        _ = _ := by simp [report]

theorem left_fresh (paths : List Bytes) : (Progress.fresh paths).left = 3 * paths.length := by
  induction paths with
  | nil => rfl
  | cons path paths ih =>
      simp only [Progress.left, Progress.fresh, List.map_cons, movesLeft, Stage.left,
        List.length_cons] at ih ⊢
      omega

end Batch

namespace Disk

open Batch

variable {globs : Glob.Language} {disk : Disk} {settings : Settings} {paths : List Bytes}

theorem jobs_of_fault?_eq_none (valid : settings.fault? globs = none) : 1 ≤ settings.jobs := by
  by_contra few
  simp only [Settings.fault?] at valid
  split at valid
  · cases valid
  · rw [if_pos (by omega)] at valid
    cases valid

theorem runBy_eq (valid : settings.fault? globs = none)
    (selected : disk.select settings globs = .ok paths) (schedule : List Move) :
    disk.runBy settings schedule globs =
      ((Progress.fresh paths).follow disk settings schedule).bind fun progress =>
        if progress.settled then some progress.toBatch else none := by
  simp only [runBy, valid, selected]

/-- Valid settings under which files can be selected and that set no time limit
to a unit: under every schedule a run ends without an error and with the
selected files in order, each parsed as it is alone, and shows the diagnostics
of those that can be read, by file and by offset. No schedule gets stuck or goes
on for ever, and one unit after another is one of them. -/
theorem runBy_settles (globs : Glob.Language) (disk : Disk) (settings : Settings)
    (paths : List Bytes) (valid : settings.fault? globs = none)
    (selected : disk.select settings globs = .ok paths) (untimed : settings.unitTimeout ≤ 0) :
    paths.Pairwise (· < ·) ∧
      (∀ schedule batch, disk.runBy settings schedule globs = some batch →
        batch.error = none ∧ batch.units.map UnitReport.path = paths ∧
          batch.units = paths.map (fun path => disk.parseUnit settings path) ∧
          batch.ledger.all = (batch.units.filter (·.source.isSome)).flatMap fun report =>
            arranged report.diagnostics) ∧
      (∀ schedule progress,
        (Progress.fresh paths).follow disk settings schedule = some progress →
          schedule.length ≤ 3 * paths.length ∧
            ∃ rest batch, disk.runBy settings (schedule ++ rest) globs = some batch) ∧
      disk.runBy settings (inTurn 0 paths.length) globs =
        some (disk.run settings false globs) := by
  have jobs := jobs_of_fault?_eq_none valid
  have sorted := select_sorted selected
  have fresh := Progress.Sound.fresh disk settings paths
  refine ⟨sorted, fun schedule batch ran => ?_, fun schedule progress followed => ?_, ?_⟩
  · rw [runBy_eq valid selected] at ran
    obtain ⟨progress, followed, outcome⟩ := Option.bind_eq_some_iff.mp ran
    obtain ⟨settled, rfl⟩ : progress.settled = true ∧ progress.toBatch = batch := by
      simpa using outcome
    have sound := fresh.follow untimed followed
    have units := sound.units_eq settled
    refine ⟨rfl, ?_, units, sound.all_eq sorted settled⟩
    rw [units, List.map_map]
    exact (List.map_congr_left fun path _ => path_parseUnit disk settings path none).trans
      (List.map_id _)
  · have measure := Progress.left_of_follow followed
    rw [left_fresh] at measure
    obtain ⟨rest, after, ended, settled⟩ := Progress.exists_settled disk jobs progress
    refine ⟨by omega, rest, after.toBatch, ?_⟩
    rw [runBy_eq valid selected, Progress.follow_append, followed, Option.bind_some, ended,
      Option.bind_some, if_pos settled]
  · have inTurn : (Progress.fresh paths).follow disk settings (inTurn 0 paths.length) = _ :=
      follow_inTurn jobs [] paths {}
    rw [runBy_eq valid selected, inTurn, Option.bind_some, if_pos (by simp [Progress.settled,
      Task.through, Stage.slot?])]
    simp [run, valid, selected, Progress.toBatch, Batch.collect, Task.through, Stage.slot?,
      Function.comp_def]

/-- A file without and one with an error, a link that leads nowhere, a file that may
not be read and a directory that may not be listed. -/
def mixed : Disk where
  entries := [("a", .file "class A {}"), ("b", .file "class B"), ("c", .link "d"),
    ("e", .file "class E {}" false), ("f", .directory [("g", .file "")] { list := false })]

/-- All files, two at a time. -/
def paired : Settings where
  included := ["**"]
  jobs := 2

/-- The second file is entered in the ledger before the first one. -/
def crossed : List Move :=
  [.start, .start, .enter 1, .enter 0, .finish 0, .start, .finish 1, .enter 2, .start, .enter 3,
    .finish 3, .finish 2]

theorem select_mixed : mixed.select paired = .ok ["a", "b", "c", "e"] := by
  have itself : mixed.resolve false "." = .ok mixed.tree := rfl
  have sorted : Directory.sorted mixed.entries = mixed.entries :=
    List.mergeSort_of_pairwise (by decide)
  refine select_of_root rfl ?_ (by decide)
  rw [selectRoot_of_directory itself rfl, Folder.sorted, sorted]
  decide +kernel

theorem runBy_settles_crossed :
    paired.fault? = none ∧ mixed.select paired = .ok ["a", "b", "c", "e"] ∧
      paired.unitTimeout ≤ 0 ∧
      ∃ batch, mixed.runBy paired crossed = some batch ∧ batch.error = none ∧
        batch.units.map UnitReport.path = ["a", "b", "c", "e"] ∧
        batch.units.map UnitReport.failed = [false, true, true, true] ∧
        batch.units.map UnitReport.trouble = [none, none,
          some (.unreadable "c" ⟨.openFile, "c", .missing⟩),
          some (.unreadable "e" ⟨.openFile, "e", .denied⟩)] ∧
        batch.ledger.all = (batch.units.filter (·.source.isSome)).flatMap fun report =>
          arranged report.diagnostics := by
  have valid : paired.fault? = none := by decide +kernel
  have untimed : paired.unitTimeout ≤ 0 := by decide
  have ended : (mixed.runBy paired crossed).map (fun batch =>
      (batch.units.map UnitReport.failed, batch.units.map UnitReport.trouble)) =
      some ([false, true, true, true], [none, none,
        some (.unreadable "c" ⟨.openFile, "c", .missing⟩),
        some (.unreadable "e" ⟨.openFile, "e", .denied⟩)]) := by
    rw [runBy_eq valid select_mixed]
    decide +kernel
  obtain ⟨batch, ran, shows⟩ := Option.map_eq_some_iff.mp ended
  obtain ⟨failed, troubles⟩ := Prod.mk.inj shows
  obtain ⟨-, every, -⟩ := runBy_settles Glob.language mixed paired _ valid select_mixed untimed
  obtain ⟨unharmed, named, -, all⟩ := every crossed batch ran
  exact ⟨valid, select_mixed, untimed, batch, ran, unharmed, named, failed, troubles, all⟩

end Disk

end JavaFront
