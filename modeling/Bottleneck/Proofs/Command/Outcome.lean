import Bottleneck.Command.Run
import Bottleneck.Proofs.Config.File
import Bottleneck.Proofs.Log

/-!
A run is all or nothing: it ends with the whole report and nothing else, or with one message and no
report (`Command.allOrNothing_run`). What is written while a run goes on could be left over from a
failure, so the steps of a run are followed with what has been written before them: reading the
rules and the snapshot writes nothing (`run_rules`), and after the first thing that is written
nothing can fail (`run_reportWith`).
-/

namespace Bottleneck.Command

open Yaml (Node)

/-! ## The steps of an attempt -/

namespace Attempt

variable {m : Type → Type} [Monad m] {α β : Type}

/-- A failure ends the attempt, and what has been written by then stays. -/
theorem run_bind (attempt : Attempt m α) (next : α → Attempt m β) (written : String) :
    (attempt >>= next).run.run written = (do
      match ← attempt.run.run written with
      | (.ok value, written) => (next value).run.run written
      | (.error failure, written) => return (.error failure, written)) := by
  simp only [ExceptT.run_bind, StateT.run_bind]
  refine congrArg _ (funext fun ended => ?_)
  obtain ⟨result, written⟩ := ended
  cases result with
  | ok value => rfl
  | error failure => rfl

theorem run_pure (value : α) (written : String) :
    (pure value : Attempt m α).run.run written = pure (.ok value, written) := rfl

theorem run_ofExcept (result : Except Failure α) (written : String) :
    (ofExcept result : Attempt m α).run.run written = pure (result, written) := by
  cases result with
  | ok value => rfl
  | error failure => rfl

variable [LawfulMonad m]

theorem run_liftM (action : m α) (written : String) :
    (liftM action : Attempt m α).run.run written = (do return (.ok (← action), written)) := by
  -- The action is lifted twice: it carries the text along, and then it cannot fail.
  show (do
    let ended ← (do let value ← action; return (value, written) : m (α × String))
    return (Except.ok ended.1, ended.2)) = _
  simp only [bind_assoc, pure_bind]

theorem run_write (text written : String) :
    (write text : Attempt m Unit).run.run written = pure (.ok (), written ++ text) := by
  show (do
    let ended ← (pure ((), written ++ text) : m (Unit × String))
    return (Except.ok ended.1, ended.2)) = _
  rw [pure_bind]

end Attempt

/-! ## The steps of a run -/

/-- The outcome of a run that a failure ends before anything is written. -/
def Outcome.failed (failure : Failure) : Outcome :=
  { exitCode := 1, stderr := failureText failure }

namespace Invocation

section Steps

variable {m : Type → Type} [Monad m] [LawfulMonad m] (reader : Config.Reader)
  (read : String → m Contents) (i : Invocation)

/-- The rules are read without writing anything. -/
theorem run_rules (written : String) :
    (i.rules reader read).run.run written =
      match i.config with
      | none => pure (.ok .builtIn, written)
      | some path => do return (((← read path).config reader path).map Config.rules, written) := by
  unfold rules
  cases i.config with
  | none => exact Attempt.run_pure Rules.builtIn written
  | some path =>
    simp only [Attempt.run_bind, Attempt.run_liftM, Attempt.run_ofExcept, Attempt.run_pure,
      bind_assoc, pure_bind]
    refine congrArg _ (funext fun contents => ?_)
    cases contents.config reader path with
    | ok config => rfl
    | error failure => rfl

/-- The outcome of a run that has its rules, from what reading the snapshot gave. -/
def conclude (rules : Rules) (contents : Contents) : Outcome :=
  match contents.snapshotText i.snapshot with
  | .error failure => .failed failure
  | .ok text => { stdout := banner i.format ++ Report.render (analyze rules text) i.format }

/-- The snapshot is read before anything is written, and what is written cannot fail. -/
theorem run_reportWith (rules : Rules) :
    Outcome.ofAttempt <$> (i.reportWith read rules).run.run "" =
      i.conclude rules <$> read i.snapshot := by
  unfold reportWith
  simp only [Attempt.run_bind, Attempt.run_liftM, Attempt.run_ofExcept, Attempt.run_write,
    bind_assoc, pure_bind, map_eq_pure_bind]
  refine congrArg _ (funext fun contents => ?_)
  unfold conclude
  cases contents.snapshotText i.snapshot with
  | error failure => rw [pure_bind]; rfl
  | ok text => rw [pure_bind, String.empty_append]; rfl

/-- A run reads its configuration first, and reads no snapshot without rules. -/
theorem run_eq :
    i.run reader read =
      match i.config with
      | none => i.conclude .builtIn <$> read i.snapshot
      | some path => (do
        match (← read path).config reader path with
        | .error failure => return .failed failure
        | .ok config => i.conclude config.rules <$> read i.snapshot) := by
  unfold run report
  rw [← map_eq_pure_bind, Attempt.run_bind, run_rules]
  cases i.config with
  | none =>
    rw [pure_bind]
    exact run_reportWith read i .builtIn
  | some path =>
    simp only [bind_assoc, pure_bind, map_bind]
    refine congrArg _ (funext fun contents => ?_)
    cases contents.config reader path with
    | error failure => rw [Except.map, map_pure]; rfl
    | ok config => exact run_reportWith read i config.rules

end Steps

end Invocation

/-! ## All or nothing -/

/-- The run failed with that failure and wrote its message only. -/
structure Outcome.FailedWith (outcome : Outcome) (failure : Failure) : Prop where
  exitCode : outcome.exitCode = 1
  stdout : outcome.stdout = ""
  stderr : outcome.stderr =
    "❌ " ++ (if failure.kind = "UNREADABLE" then "" else "Error: ") ++ failure.message ++ "\n"

/-- The run succeeded and wrote the report of the text only. -/
structure Outcome.Reported (outcome : Outcome) (format : Report.Format) (rules : Rules)
    (text : String) : Prop where
  exitCode : outcome.exitCode = 0
  stdout : outcome.stdout = (if format = .text then "🔍 Analyzing metrics...\n\n" else "") ++
    Report.render (analyze rules text) format
  stderr : outcome.stderr = ""

theorem Outcome.FailedWith.eq {outcome : Outcome} {failure : Failure}
    (h : outcome.FailedWith failure) : outcome =
      { exitCode := 1
        stderr := "❌ " ++ (if failure.kind = "UNREADABLE" then "" else "Error: ") ++
          failure.message ++ "\n" } := by
  obtain ⟨exitCode, stdout, stderr⟩ := outcome
  obtain ⟨rfl, rfl, rfl⟩ := h
  rfl

theorem Outcome.Reported.eq {outcome : Outcome} {format : Report.Format} {rules : Rules}
    {text : String} (h : outcome.Reported format rules text) : outcome =
      { stdout := (if format = .text then "🔍 Analyzing metrics...\n\n" else "") ++
          Report.render (analyze rules text) format } := by
  obtain ⟨exitCode, stdout, stderr⟩ := outcome
  obtain ⟨rfl, rfl, rfl⟩ := h
  rfl

theorem Outcome.failedWith_failed (failure : Failure) :
    (Outcome.failed failure).FailedWith failure where
  exitCode := rfl
  stdout := rfl
  stderr := by
    show failureText failure = _
    cases failure with
    | unreadable reason => simp [failureText, Failure.kind]
    | _ => simp [failureText, Failure.kind]

theorem banner_eq (format : Report.Format) :
    banner format = if format = .text then "🔍 Analyzing metrics...\n\n" else "" := by
  cases format with
  | text => rfl
  | json => rfl

/-- The run has a configuration, and something is wrong with the file at its path. -/
def Invocation.ConfigFails (reader : Config.Reader) (read : String → Contents) (i : Invocation)
    (failure : Failure) : Prop :=
  ∃ path, i.config = some path ∧ Config.Fails reader path (read path) failure

/-- The rules of a run: the built-in tables, with the entries of its configuration behind them. -/
inductive Invocation.HasRules (reader : Config.Reader) (read : String → Contents) (i : Invocation) :
    Rules → Prop
  | builtIn (hnone : i.config = none) : i.HasRules reader read .builtIn
  | extended {path : String} {config : Config} (hpath : i.config = some path)
      (hloads : Config.Loads reader (read path) config) :
    i.HasRules reader read {
      threadPool := Rules.builtIn.threadPool ++ config.extension.threadPool
      connectionPool := Rules.builtIn.connectionPool ++ config.extension.connectionPool
      latencyHistograms := Rules.builtIn.latencyHistograms ++ config.extension.latencyHistograms }

/-- What the outcome of a run is, whatever the files hold. A configuration with something wrong in
it decides first, then a snapshot that cannot be read. -/
structure AllOrNothing (reader : Config.Reader) (read : String → Contents) (i : Invocation)
    (outcome : Outcome) : Prop where
  configFailed : ∀ failure, i.ConfigFails reader read failure → outcome.FailedWith failure
  missing : ∀ rules e, i.HasRules reader read rules → read i.snapshot = .error e →
    e.missing = true → outcome.FailedWith (.notFound i.snapshot)
  unreadable : ∀ rules e, i.HasRules reader read rules → read i.snapshot = .error e →
    e.missing = false → outcome.FailedWith (.unreadable e.reason)
  reported : ∀ rules text, i.HasRules reader read rules → read i.snapshot = .ok text →
    outcome.Reported i.format rules text
  /-- A run without rules is one whose configuration has something wrong in it. -/
  hasRules : (∃ failure, i.ConfigFails reader read failure) ∨ ∃ rules, i.HasRules reader read rules
  /-- Every run that exits with an error is one of the failed ones. -/
  exitOne : outcome.exitCode = 1 → ∃ failure, outcome.FailedWith failure

namespace Invocation

variable {reader : Config.Reader} {read : String → Contents} {i : Invocation}

theorem configFails_or_hasRules (reader : Config.Reader) (read : String → Contents)
    (i : Invocation) :
    (∃ failure, i.ConfigFails reader read failure) ∨ ∃ rules, i.HasRules reader read rules := by
  cases hpath : i.config with
  | none => exact .inr ⟨.builtIn, .builtIn hpath⟩
  | some path =>
    cases hload : (read path).config reader path with
    | error failure => exact .inl ⟨failure, path, hpath, Config.config_eq_error_iff.mp hload⟩
    | ok config => exact .inr ⟨_, .extended hpath (Config.config_eq_ok_iff.mp hload)⟩

/-- `run_eq` for files that stay as they are while a run goes on. -/
theorem run_eq_of_config {path : String} (h : i.config = some path) :
    i.run (m := Id) reader read =
      match (read path).config reader path with
      | .error failure => .failed failure
      | .ok config => i.conclude config.rules (read i.snapshot) := by
  have heq := run_eq (m := Id) reader read i
  rw [h] at heq
  exact heq

theorem run_of_configFails {failure : Failure} (h : i.ConfigFails reader read failure) :
    i.run (m := Id) reader read = .failed failure := by
  obtain ⟨path, hpath, hfails⟩ := h
  rw [run_eq_of_config hpath, Config.config_eq_error_iff.mpr hfails]

theorem run_of_hasRules {rules : Rules} (h : i.HasRules reader read rules) :
    i.run (m := Id) reader read = i.conclude rules (read i.snapshot) := by
  cases h with
  | builtIn hnone =>
    have heq := run_eq (m := Id) reader read i
    rw [hnone] at heq
    exact heq
  | extended hpath hloads =>
    rw [run_eq_of_config hpath, Config.config_eq_ok_iff.mpr hloads]
    rfl

theorem conclude_error (i : Invocation) (rules : Rules) (e : ReadError) :
    i.conclude rules (.error e) =
      .failed (if e.missing then .notFound i.snapshot else .unreadable e.reason) := rfl

theorem reported_conclude (i : Invocation) (rules : Rules) (text : String) :
    (i.conclude rules (.ok text)).Reported i.format rules text where
  exitCode := rfl
  stdout := by
    rw [← banner_eq]
    rfl
  stderr := rfl

end Invocation

/-- **A run is all or nothing**, whatever it is told to do and whatever the files hold. -/
theorem allOrNothing_run (reader : Config.Reader) (read : String → Contents) (i : Invocation) :
    AllOrNothing reader read i (i.run (m := Id) reader read) where
  configFailed := by
    intro failure hfails
    rw [Invocation.run_of_configFails hfails]
    exact Outcome.failedWith_failed failure
  missing := by
    intro rules e hrules hsnapshot hmissing
    rw [Invocation.run_of_hasRules hrules, hsnapshot, Invocation.conclude_error, if_pos hmissing]
    exact Outcome.failedWith_failed _
  unreadable := by
    intro rules e hrules hsnapshot hpresent
    rw [Invocation.run_of_hasRules hrules, hsnapshot, Invocation.conclude_error,
      if_neg (Bool.eq_false_iff.mp hpresent)]
    exact Outcome.failedWith_failed _
  reported := by
    intro rules text hrules hsnapshot
    rw [Invocation.run_of_hasRules hrules, hsnapshot]
    exact Invocation.reported_conclude i rules text
  hasRules := Invocation.configFails_or_hasRules reader read i
  exitOne := by
    intro hexit
    rcases Invocation.configFails_or_hasRules reader read i with ⟨failure, hfails⟩ | ⟨rules, hrules⟩
    · rw [Invocation.run_of_configFails hfails]
      exact ⟨failure, Outcome.failedWith_failed failure⟩
    · rw [Invocation.run_of_hasRules hrules] at hexit ⊢
      cases hsnapshot : read i.snapshot with
      | error e =>
        rw [Invocation.conclude_error]
        exact ⟨_, Outcome.failedWith_failed _⟩
      | ok text =>
        rw [hsnapshot, (Invocation.reported_conclude i rules text).exitCode] at hexit
        cases hexit

/-! ### Runs on some files -/

/-- A configuration that adds a pair of patterns. -/
def jobsText : String :=
  "version: 1\nrules:\n  thread_pool:\n  - busy: jobs_busy\n    max: jobs_max\n"

def jobsNode : Node :=
  .mapping
    [(.scalar true "version", .scalar true "1"),
      (.scalar true "rules", .mapping [(.scalar true "thread_pool", .sequence [.mapping
        [(.scalar true "busy", .scalar true "jobs_busy"),
          (.scalar true "max", .scalar true "jobs_max")]])])]

def jobsConfig : Config := ⟨1, ⟨[⟨"jobs_busy", "jobs_max"⟩], [], []⟩⟩

/-- A snapshot in which the pair is nearly used up. -/
def jobsSnapshot : String := "jobs_busy 95\njobs_max 100\n"

def sampleReader : Config.Reader :=
  .ofDocuments [(jobsText, jobsNode), (Config.laterText, Config.laterNode)]

def sampleFiles : String → Contents
  | "jobs.yaml" => .ok jobsText
  | "later.yaml" => .ok Config.laterText
  | "jobs.txt" => .ok jobsSnapshot
  | "folder" => .error ⟨false, "Is a directory (os error 21)"⟩
  | _ => .error ⟨true, "No such file or directory (os error 2)"⟩

theorem loads_jobs : Config.Loads sampleReader (sampleFiles "jobs.yaml") jobsConfig := by
  have hconfig : Schema.config jobsNode = .ok jobsConfig := by rfl
  have husable : ∀ pattern ∈ jobsConfig.extension.patterns, Config.isUsable pattern = true := by
    decide +kernel
  exact ⟨jobsText, jobsNode, rfl, rfl, Schema.config_eq_ok_iff.mp hconfig, rfl,
    fun pattern hpattern => Config.isUsable_iff_usable.mp (husable pattern hpattern)⟩

theorem fails_later :
    Config.Fails sampleReader "later.yaml" (sampleFiles "later.yaml") .unsupportedVersion := by
  have htree : sampleReader.tree Config.laterText = .ok Config.laterNode := by rfl
  have hconfig : Schema.config Config.laterNode = .ok ⟨2, ⟨[], [], [""]⟩⟩ := by rfl
  exact .otherVersion htree (Schema.config_eq_ok_iff.mp hconfig) (by decide)

theorem checkLatencyTail_jobs (rules : Rules) :
    checkLatencyTail rules (.parse jobsSnapshot) = none := by
  have hnames : (Snapshot.parse jobsSnapshot).histogramNames = [] := by
    rw [Snapshot.histogramNames_parse]
    decide +kernel
  have hnone : (Snapshot.parse jobsSnapshot).latencyHistogram? rules.latencyHistograms = none := by
    rw [Snapshot.latencyHistogram?, hnames]
    exact List.findSome?_eq_none_iff.mpr fun _ _ => rfl
  rw [checkLatencyTail, hnone]
  rfl

def jobsIssue : Issue where
  kind := .threadPoolSaturation
  severity := .high
  metric := "jobs_busy/jobs_max"
  figures := .usage 95 95 100
  explanation := explainThreadPool ⟨⟨"jobs_busy", "jobs_max"⟩, 95, 100⟩

theorem analyze_jobs :
    analyze jobsConfig.rules jobsSnapshot = [jobsIssue] ∧ analyze .builtIn jobsSnapshot = [] := by
  have hpools : checkThreadPool jobsConfig.rules (.parse jobsSnapshot) = some jobsIssue ∧
      checkConnectionPool jobsConfig.rules (.parse jobsSnapshot) = none ∧
      checkThreadPool .builtIn (.parse jobsSnapshot) = none ∧
      checkConnectionPool .builtIn (.parse jobsSnapshot) = none := by
    unfold checkThreadPool checkConnectionPool checkPool PoolUsage.first? PoolUsage.ofPattern?
    simp only [Snapshot.valueMatching?_parse_eq_collect]
    decide +kernel
  obtain ⟨hthread, hconnection, hthread', hconnection'⟩ := hpools
  rw [analyze, analyze, diagnose, diagnose, hthread, hconnection, hthread', hconnection',
    checkLatencyTail_jobs, checkLatencyTail_jobs]
  exact ⟨rfl, rfl⟩

def sampleRun (i : Invocation) : Outcome := i.run (m := Id) sampleReader sampleFiles

/-- A configuration of another version, a snapshot that is not there, one that is no file, and two
reports on one snapshot: with the pair of the configuration, and with the built-in tables only. -/
theorem allOrNothing_run_sampleFiles :
    sampleRun ⟨"jobs.txt", .json, some "later.yaml"⟩ =
        { exitCode := 1, stderr := "❌ Error: unsupported config version\n" } ∧
      sampleRun ⟨"gone.txt", .text, none⟩ =
        { exitCode := 1, stderr := "❌ Error: File 'gone.txt' not found.\n" } ∧
      sampleRun ⟨"folder", .text, some "jobs.yaml"⟩ =
        { exitCode := 1, stderr := "❌ Error reading file: Is a directory (os error 21)\n" } ∧
      sampleRun ⟨"jobs.txt", .json, some "jobs.yaml"⟩ =
        { stdout := Report.json [jobsIssue] } ∧
      sampleRun ⟨"jobs.txt", .text, none⟩ =
        { stdout := "🔍 Analyzing metrics...\n\n" ++
            "✅ No issues detected! Your metrics look healthy.\n\n" ++
            "Note: This tool checks for common patterns. Make sure your metrics file\n" ++
            "contains the expected metric names " ++
            "(thread pools, connection pools, latency histograms).\n" } := by
  have hall := allOrNothing_run sampleReader sampleFiles
  have hrules (snapshot : String) (format : Report.Format) :
      Invocation.HasRules sampleReader sampleFiles ⟨snapshot, format, some "jobs.yaml"⟩
        jobsConfig.rules := .extended rfl loads_jobs
  refine ⟨?_, ?_, ?_, ?_, ?_⟩
  · refine ((hall _).configFailed _ ⟨"later.yaml", rfl, fails_later⟩).eq.trans ?_
    decide +kernel
  · refine ((hall _).missing _ _ (.builtIn rfl) rfl rfl).eq.trans ?_
    decide +kernel
  · refine ((hall _).unreadable _ _ (hrules "folder" .text) rfl rfl).eq.trans ?_
    decide +kernel
  · refine ((hall _).reported _ jobsSnapshot (hrules "jobs.txt" .json) rfl).eq.trans ?_
    rw [analyze_jobs.1, if_neg (by decide), String.empty_append]
    rfl
  · refine ((hall _).reported _ jobsSnapshot (.builtIn rfl) rfl).eq.trans ?_
    rw [analyze_jobs.2]
    decide +kernel

end Bottleneck.Command
