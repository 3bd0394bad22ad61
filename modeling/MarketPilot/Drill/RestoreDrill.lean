/-
# MarketPilot.Drill.RestoreDrill — the backup and restore drill

The drill starts a temporary database in a container, fills it, dumps it into a second one and compares the
two. It talks to the container runtime through commands, and to the host for a temporary directory and the
report. Whatever these answer, in whatever order, is the respondent's; the drill is what it asks.

The text of the fixture is a parameter, which the drill passes on, and so are `str.lower` and SHA-256.  The
pause between two attempts to reach a database is left out.
-/
import MarketPilot.Foundation.Dialogue
import MarketPilot.Python.IntText
import MarketPilot.Python.Lines

namespace MarketPilot.Drill

open MarketPilot.Python MarketPilot.Foundation

/-! ## Texts -/

/-- `DRILL_LABEL`. -/
def drillLabel : String := "marketpilot.restore-drill"

/-- `DATABASE`. -/
def database : String := "marketpilot_restore"

/-- `DATABASE_USER`. -/
def databaseUser : String := "marketpilot_restore"

/-- `EXPECTED_TABLES`. -/
def expectedTables : Int := 16

/-- `EXPECTED_TRIGGERS`. -/
def expectedTriggers : Int := 30

/-- `EXPECTED_FOREIGN_KEYS`. -/
def expectedForeignKeys : Int := 8

/-- `_SNAPSHOT_QUERIES`, a query by its name. -/
def snapshotQueries : List (String × String) :=
  [("decision_hash", "
        SELECT run_id || '|' || payload_json::text
        FROM marketpilot.decision_runs ORDER BY run_id
    "),
    ("manifest_hash", "
        SELECT manifest_hash || '|' || payload_json::text
        FROM marketpilot.replay_manifests ORDER BY manifest_hash
    "),
    ("checkpoint_hash", "
        SELECT checkpoint_id || '|' || payload_json::text
        FROM marketpilot.recovery_checkpoints ORDER BY checkpoint_id
    "),
    ("governance_hash", "
        SELECT value FROM (
            SELECT 'model|' || model_id || '|' || version || '|' || payload_json::text AS value
            FROM marketpilot.governance_model_versions
            UNION ALL
            SELECT 'approval|' || approval_id || '|' || payload_json::text
            FROM marketpilot.governance_approvals
            UNION ALL
            SELECT 'event|' || approval_id || '|' || payload_json::text
            FROM marketpilot.governance_events
            UNION ALL
            SELECT 'freeze|' || model_id || '|' || session_id || '|' || payload_json::text
            FROM marketpilot.governance_session_freezes
        ) AS governance_rows ORDER BY value
    ")]

/-- What the drill is given and passes on, with the functions of the standard library that it calls. -/
structure DrillTexts where
  /-- `_FIXTURE_SQL`. -/
  fixtureSql : String
  lower : String → String
  sha256 : String → String

/-! ## Resources -/

/-- The names that a drill gives its containers and volumes. -/
structure DrillResources where
  runId : String
  sourceContainer : String
  restoreContainer : String
  sourceVolume : String
  restoreVolume : String
  deriving DecidableEq

/-- `DrillResources.create()`, for the token that was drawn. -/
def DrillResources.create (runId : String) : DrillResources :=
  let stem := "marketpilot-restore-drill-" ++ runId
  ⟨runId, stem ++ "-source", stem ++ "-restored", stem ++ "-source-data", stem ++ "-restored-data"⟩

/-- A kind of resources, as the runtime's commands name it. -/
inductive ResourceKind where
  | container
  | volume
  deriving DecidableEq

/-- The word for the kind on the command line. -/
def ResourceKind.name : ResourceKind → String
  | container => "container"
  | volume => "volume"

/-! ## The plan and the report -/

/-- `build_plan(resources, image, migration)`, as far as it depends on its arguments. -/
structure DrillPlan where
  resources : DrillResources
  image : String
  migration : String
  deriving DecidableEq

/-- The checks of `_verify_restored_database`, in order. -/
structure Checks where
  schemaVersion : Bool
  tableCount : Bool
  appendOnlyTriggerCount : Bool
  foreignKeyCount : Bool
  foreignKeysValidated : Bool
  foreignKeyEnforced : Bool
  updateRejected : Bool
  deleteRejected : Bool
  checkpointManifestSchemaLink : Bool
  deriving DecidableEq

/-- `all(checks.values())`. -/
def Checks.all (checks : Checks) : Bool :=
  checks.schemaVersion && checks.tableCount && checks.appendOnlyTriggerCount && checks.foreignKeyCount &&
    checks.foreignKeysValidated && checks.foreignKeyEnforced &&
    checks.updateRejected && checks.deleteRejected &&
    checks.checkpointManifestSchemaLink

/-- What was observed besides. -/
structure Observed where
  schemaVersion : String
  tableCount : Int
  appendOnlyTriggerCount : Int
  foreignKeyCount : Int
  unvalidatedForeignKeys : Int
  checkpointLinkCount : Int
  deriving DecidableEq

/-- What was checked of the restored database, and what was read from it. -/
structure Verification where
  checks : Checks
  observed : Observed
  deriving DecidableEq

/-- What the comparison of the two databases adds to the report. -/
structure Evidence where
  sourceHashes : List (String × String)
  restoredHashes : List (String × String)
  verification : Verification
  deriving DecidableEq

namespace Evidence

variable (evidence : Evidence)

/-- `source_snapshot == restored_snapshot`. -/
def hashesMatch : Bool := evidence.sourceHashes = evidence.restoredHashes

/-- `all_checks`. -/
def allChecks : Bool := evidence.verification.checks.all && evidence.hashesMatch

end Evidence

/-- How a drill ended. -/
inductive DrillStatus where
  | pass
  | fail
  deriving DecidableEq

/-- The report of a drill. -/
structure DrillReport where
  plan : DrillPlan
  status : DrillStatus
  evidence : Option Evidence
  temporaryResourcesCleaned : Bool
  deriving DecidableEq

/-- The report when it is written. -/
def reportOf (plan : DrillPlan) (evidence : Option Evidence) (cleaned : Bool) : DrillReport where
  plan := plan
  -- it fails until the evidence says otherwise, and again if something was left behind
  status := if evidence.any Evidence.allChecks && cleaned then .pass else .fail
  evidence := evidence
  temporaryResourcesCleaned := cleaned

/-! ## Questions and answers -/

/-- `subprocess.CompletedProcess`. -/
structure CompletedProcess where
  returncode : Int
  stdout : String
  stderr : String

/-- What the operating system raises. -/
inductive HostError where
  | osError (strerror : String)
  | other (exception : String)

/-- What the drill asks of the host. -/
inductive Request where
  | run (args : List String) (input : Option String)
  | isFile (path : String)
  | temporaryDirectory
  | removeDirectory (path : String)
  | writeReport (path : String) (report : DrillReport)

/-- What the host answers. -/
def Answer : Request → Type
  | .run _ _ => Except HostError CompletedProcess
  | .isFile _ => Except HostError Bool
  | .temporaryDirectory => Except HostError String
  | .removeDirectory _ => Except HostError Unit
  | .writeReport _ _ => Except HostError Unit

/-- What the drill raises: `DrillError`, what the host raised, or what reading an answer raised. -/
inductive DrillException where
  | drillError (message : String)
  | host (error : HostError)
  | raised (exception : Exc)

/-- A part of the drill: it asks the host, and returns or raises. -/
abbrev Action (α : Type) : Type := Dialogue Answer DrillException α

/-- `raise DrillError(message)`. -/
def drillError {α : Type} (message : String) : Action α := Eff.raise (.drillError message)

/-- What reading an answer returns, or raises. -/
def reading {α : Type} (r : Except Exc α) : Action α := Eff.lift (r.mapError DrillException.raised)

/-- What the host does, or raises. -/
def hosted {α : Type} (r : Except HostError α) : Action α := Eff.lift (r.mapError DrillException.host)

variable (texts : DrillTexts) (respond : Respondent Answer) (resources : DrillResources)

/-! ## Commands -/

/-- The last line of the diagnostics, if there is one. -/
def summaryOf (stderr : String) : String :=
  match (splitLines (strip stderr).toList).getLast? with
  | some line => String.ofList line
  | none => "command returned a non-zero exit status"

/-- `_run(args, input_text=..., check=...)`; `args[0]` is always `docker`. -/
def run (args : List String) (input : Option String) (check : Bool) : Action CompletedProcess := do
  match ← ask respond (.run ("docker" :: args) input) with
  | .error (.osError strerror) => drillError ("unable to start docker operation: " ++ strerror)
  | .error (.other exception) => Eff.raise (.host (.other exception))
  | .ok completed =>
    if check && completed.returncode ≠ 0 then
      drillError ("docker operation failed: " ++ summaryOf completed.stderr)
    else pure completed

/-- `_docker(*args, check=check)`. -/
def docker (args : List String) (check : Bool) : Action String := do
  let completed ← run respond args none check
  pure (strip completed.stdout)

/-- The label that every resource of the drill carries. -/
def label : String := drillLabel ++ "=" ++ resources.runId

/-- The arguments of `_start_postgres`. -/
def startArgs (name volume image : String) (migration : Option String) : List String :=
  ["run", "--detach", "--name", name, "--label", label resources, "--mount",
      "type=volume,source=" ++ volume ++ ",target=/var/lib/postgresql/data", "--env",
      "POSTGRES_DB=" ++ database, "--env", "POSTGRES_USER=" ++ databaseUser, "--env",
      "POSTGRES_HOST_AUTH_METHOD=trust"] ++
    (match migration with
      | some migration => ["--mount", "type=bind,source=" ++ migration ++
          ",target=/docker-entrypoint-initdb.d/0001_audit.sql,readonly"]
      | none => []) ++ [image]

/-- `_start_postgres(name=..., volume=..., run_id=..., image=..., migration=...)`. -/
def startPostgres (name volume image : String) (migration : Option String) : Action Unit := do
  let _ ← docker respond (startArgs resources name volume image migration) true
  pure ()

/-- The command that asks whether a database answers. -/
def readyArgs (container : String) : List String :=
  ["exec", container, "pg_isready", "-U", databaseUser, "-d", database]

/-- `_wait_ready(container, attempts=attempts)`. -/
def waitReady (container : String) : Nat → Action Unit
  | 0 => drillError ("temporary PostgreSQL container did not become ready: " ++ container)
  | attempts + 1 => do
    let completed ← run respond (readyArgs container) none false
    if completed.returncode = 0 then pure () else waitReady container attempts

/-- The command that runs SQL from its input. -/
def psqlArgs (container : String) : List String :=
  ["exec", "-i", container, "psql", "-X", "-A", "-t", "-v", "ON_ERROR_STOP=1",
    "-U", databaseUser, "-d", database]

/-- `_psql(container, sql, check=check)`. -/
def psql (container sql : String) (check : Bool) : Action CompletedProcess :=
  run respond (psqlArgs container) (some sql) check

/-- `_sql_value(container, sql)`. -/
def sqlValue (container sql : String) : Action String := do
  let completed ← psql respond container sql true
  pure (strip completed.stdout)

/-- `_snapshot(container)`. -/
def snapshot (container : String) : Action (List (String × String)) :=
  Eff.collect (fun query => do
    let value ← sqlValue respond container query.2
    pure [(query.1, "sha256:" ++ texts.sha256 value)]) snapshotQueries

/-! ## The restored database -/

/-- `_expect_database_rejection(container, sql, marker)`. -/
def expectDatabaseRejection (container sql marker : String) : Action Bool := do
  let result ← psql respond container sql false
  let output := texts.lower (result.stdout ++ "\n" ++ result.stderr)
  pure (result.returncode ≠ 0 && decide ((texts.lower marker).toList <:+: output.toList))

/-- `int(_sql_value(container, sql))`. -/
def sqlCount (container sql : String) : Action Int := do
  let value ← sqlValue respond container sql
  reading (intOfText value)

/-- `first, second = (int(value) for value in parts)`: the values are read one after another, `int` ignoring the
white space around them. -/
def readPair : List String → Except Exc (Int × Int)
  | [] => throw (.valueError "not enough values to unpack (expected 2, got 0)")
  | [first] => do
    let _ ← intOfText (strip first)
    throw (.valueError "not enough values to unpack (expected 2, got 1)")
  | first :: second :: rest => do
    let first ← intOfText (strip first)
    let second ← intOfText (strip second)
    match rest with
    | [] => pure (first, second)
    | third :: _ => do
      let _ ← intOfText (strip third)
      throw (.valueError "too many values to unpack (expected 2)")

/-- The version of the schema. -/
def schemaVersionSql : String := "SELECT value FROM marketpilot.audit_schema WHERE key = 'schema_version';"

/-- The number of tables. -/
def tableCountSql : String := "SELECT count(*) FROM information_schema.tables " ++
  "WHERE table_schema = 'marketpilot' AND table_type = 'BASE TABLE';"

/-- The number of triggers that keep the tables append-only. -/
def triggerCountSql : String := "
            SELECT count(*)
            FROM pg_trigger t
            JOIN pg_class r ON r.oid = t.tgrelid
            JOIN pg_namespace n ON n.oid = r.relnamespace
            JOIN pg_proc p ON p.oid = t.tgfoid
            WHERE n.nspname = 'marketpilot'
              AND p.proname = 'deny_audit_mutation'
              AND NOT t.tgisinternal
              AND t.tgenabled <> 'D';
            "

/-- The number of foreign keys, and of those that were not validated. -/
def foreignKeySql : String := "
        SELECT count(*) || '|' || count(*) FILTER (WHERE NOT c.convalidated)
        FROM pg_constraint c
        JOIN pg_namespace n ON n.oid = c.connamespace
        WHERE n.nspname = 'marketpilot' AND c.contype = 'f';
        "

/-- An update that the triggers must refuse. -/
def updateSql : String := "UPDATE marketpilot.alerts SET payload_json = '\x7b\x7d'::jsonb " ++
  "WHERE alert_id = 'restore-drill-alert';"

/-- A deletion that the triggers must refuse. -/
def deleteSql : String := "DELETE FROM marketpilot.alerts WHERE alert_id = 'restore-drill-alert';"

/-- An insert that a foreign key must refuse. -/
def insertSql : String := "
        INSERT INTO marketpilot.alert_feedback(
            feedback_id, alert_id, recorded_at, payload_json
        ) VALUES (
            'restore-drill-invalid-feedback', 'missing-alert', now(), '\x7b\x7d'::jsonb
        );
        "

/-- The number of checkpoints whose manifest is there. -/
def checkpointLinkSql : String := "
            SELECT count(*)
            FROM marketpilot.recovery_checkpoints c
            JOIN marketpilot.replay_manifests m
              ON m.manifest_hash = c.payload_json->>'manifest_hash'
            JOIN marketpilot.audit_schema s
              ON s.key = 'schema_version'
             AND s.value = c.payload_json->>'schema_version'
            WHERE c.checkpoint_id = 'restore-drill-checkpoint';
            "

/-- `_verify_restored_database(container)`. -/
def verifyRestoredDatabase (container : String) : Action Verification := do
  let schemaVersion ← sqlValue respond container schemaVersionSql
  let tableCount ← sqlCount respond container tableCountSql
  let triggerCount ← sqlCount respond container triggerCountSql
  let foreignKeys ← sqlValue respond container foreignKeySql
  let (foreignKeyCount, unvalidatedForeignKeys) ←
    reading (readPair ((foreignKeys.toList.splitOn '|').map String.ofList))
  let updateRejected ← expectDatabaseRejection texts respond container updateSql "append-only audit table"
  let deleteRejected ← expectDatabaseRejection texts respond container deleteSql "append-only audit table"
  let foreignKeyEnforced ← expectDatabaseRejection texts respond container insertSql "foreign key constraint"
  let checkpointLinkCount ← sqlCount respond container checkpointLinkSql
  pure
    { checks :=
        { schemaVersion := schemaVersion = "1"
          tableCount := tableCount = expectedTables
          appendOnlyTriggerCount := triggerCount = expectedTriggers
          foreignKeyCount := foreignKeyCount = expectedForeignKeys
          foreignKeysValidated := unvalidatedForeignKeys = 0
          foreignKeyEnforced := foreignKeyEnforced
          updateRejected := updateRejected
          deleteRejected := deleteRejected
          checkpointManifestSchemaLink := checkpointLinkCount = 1 }
      observed :=
        { schemaVersion := schemaVersion
          tableCount := tableCount
          appendOnlyTriggerCount := triggerCount
          foreignKeyCount := foreignKeyCount
          unvalidatedForeignKeys := unvalidatedForeignKeys
          checkpointLinkCount := checkpointLinkCount } }

/-! ## Cleaning up -/

/-- The arguments that ask for the drill's label on a resource. -/
def inspectLabelArgs (kind : ResourceKind) (name : String) : List String :=
  [kind.name, "inspect", "--format",
    "\x7b\x7b index " ++ (if kind = .container then ".Config.Labels" else ".Labels") ++ " \"" ++ drillLabel ++
      "\" \x7d\x7d", name]

/-- `_resource_has_label(kind, name, run_id)`. -/
def resourceHasLabel (kind : ResourceKind) (name : String) : Action Bool := do
  let result ← run respond (inspectLabelArgs kind name) none false
  pure (result.returncode = 0 && strip result.stdout = resources.runId)

/-- The command that shows a resource. -/
def inspectArgs (kind : ResourceKind) (name : String) : List String := [kind.name, "inspect", name]

/-- `_resource_exists(kind, name)`. -/
def resourceExists (kind : ResourceKind) (name : String) : Action Bool := do
  let result ← run respond (inspectArgs kind name) none false
  pure (result.returncode = 0)

/-- The command that removes a resource. -/
def removeArgs (kind : ResourceKind) (name : String) : List String :=
  match kind with
  | .container => ["container", "rm", "--force", name]
  | .volume => ["volume", "rm", name]

/-- One turn of a loop of `_cleanup`. -/
def cleanupResource (kind : ResourceKind) (cleaned : Bool) (name : String) : Action Bool := do
  let labelled ← resourceHasLabel respond resources kind name
  if labelled then
    let _ ← docker respond (removeArgs kind name) false
    let left ← resourceExists respond kind name
    pure (cleaned && !left)
  else
    let left ← resourceExists respond kind name
    pure (cleaned && !left)

/-- `_cleanup(resources)`. -/
def cleanup : Action Bool := do
  let cleaned ← [resources.sourceContainer, resources.restoreContainer].foldlM
    (cleanupResource respond resources .container) true
  [resources.sourceVolume, resources.restoreVolume].foldlM (cleanupResource respond resources .volume) cleaned

/-! ## The drill -/

/-- The command that creates a volume. -/
def volumeArgs (volume : String) : List String := ["volume", "create", "--label", label resources, volume]

/-- One turn of the loop over the volumes. -/
def createVolume (volume : String) : Action Unit := do
  let _ ← docker respond (volumeArgs resources volume) true
  let labelled ← resourceHasLabel respond resources .volume volume
  if labelled = false then drillError "temporary volume label verification failed" else pure ()

/-- The command that dumps the source. -/
def dumpArgs : List String :=
  ["exec", resources.sourceContainer, "pg_dump", "--format=custom", "--no-owner", "--no-acl",
    "--file=/tmp/marketpilot.dump", "-U", databaseUser, "-d", database]

/-- The command that copies the dump to the host. -/
def copyOutArgs (dumpPath : String) : List String :=
  ["cp", resources.sourceContainer ++ ":/tmp/marketpilot.dump", dumpPath]

/-- The command that copies the dump from the host. -/
def copyInArgs (dumpPath : String) : List String :=
  ["cp", dumpPath, resources.restoreContainer ++ ":/tmp/marketpilot.dump"]

/-- The command that restores the dump. -/
def restoreArgs : List String :=
  ["exec", resources.restoreContainer, "pg_restore", "--exit-on-error", "--no-owner", "--no-acl", "--dbname",
    database, "--username", databaseUser, "/tmp/marketpilot.dump"]

/-- The body of `with TemporaryDirectory(...)`. -/
def transfer (image directory : String) : Action Unit := do
  let dumpPath := directory ++ "/marketpilot.dump"
  let _ ← docker respond (dumpArgs resources) true
  let _ ← docker respond (copyOutArgs resources dumpPath) true
  startPostgres respond resources resources.restoreContainer resources.restoreVolume image none
  waitReady respond resources.restoreContainer 60
  let _ ← docker respond (copyInArgs resources dumpPath) true
  let _ ← docker respond (restoreArgs resources) true
  pure ()

/-- `with TemporaryDirectory(...)`: the directory is removed whichever way the body ends. -/
def transferInDirectory (image : String) : Action Unit := do
  let directory ← hosted (← ask respond .temporaryDirectory)
  let outcome ← Eff.attempt (transfer respond resources image directory)
  hosted (← ask respond (.removeDirectory directory))
  Eff.lift outcome

/-- The body of the `try` of `run_restore_drill`, up to the evidence. -/
def compare (image migration : String) : Action Evidence := do
  let _ ← run respond ["version", "--format", "\x7b\x7b.Server.Version\x7d\x7d"] none true
  createVolume respond resources resources.sourceVolume
  createVolume respond resources resources.restoreVolume
  startPostgres respond resources resources.sourceContainer resources.sourceVolume image (some migration)
  waitReady respond resources.sourceContainer 60
  let _ ← psql respond resources.sourceContainer texts.fixtureSql true
  let sourceSnapshot ← snapshot texts respond resources.sourceContainer
  transferInDirectory respond resources image
  let restoredSnapshot ← snapshot texts respond resources.restoreContainer
  let verification ← verifyRestoredDatabase texts respond resources.restoreContainer
  pure ⟨sourceSnapshot, restoredSnapshot, verification⟩

/-- The end of `finally`, and then what the body of the `try` raised or returned. -/
def conclude (reportPath : String) (report : DrillReport) (outcome : Except DrillException Evidence)
    (cleaned : Bool) : Action DrillReport := do
  hosted (← ask respond (.writeReport reportPath report))
  if cleaned = false then drillError "one or more labeled temporary resources were not cleaned"
  else
    let evidence ← Eff.lift outcome
    if evidence.allChecks = false then drillError "restored database did not satisfy every verification check"
    else pure report

/-- `run_restore_drill(image=..., migration=..., report_path=...)`, for the token it draws. -/
def runRestoreDrill (runId image migration reportPath : String) : Action DrillReport := do
  let found ← hosted (← ask respond (.isFile migration))
  if found = false then drillError ("migration file does not exist: " ++ migration)
  else
    let resources := DrillResources.create runId
    let outcome ← Eff.attempt (compare texts respond resources image migration)
    let cleaned ← cleanup respond resources
    conclude respond reportPath (reportOf ⟨resources, image, migration⟩ outcome.toOption cleaned)
      outcome cleaned

/-! ## The command line -/

/-- The parsed arguments, their paths resolved. -/
structure DrillArguments where
  image : String
  migration : String
  report : String
  plan : Bool

/-- How `main` ends: the plan, a report or a failure, with the exit code. -/
inductive DrillExit where
  | planned (plan : DrillPlan)
  | reported (report : DrillReport)
  | failed (message : String)

/-- The exit code of the process. -/
def DrillExit.code : DrillExit → Nat
  | planned _ => 0
  | reported _ => 0
  | failed _ => 1

/-- What `main` makes of the drill: it reports a `DrillError` and lets every other exception through. -/
def exitOf : Except DrillException DrillReport → Action DrillExit
  | .ok report => pure (.reported report)
  | .error (.drillError message) => pure (.failed message)
  | .error e => Eff.raise e

/-- `main(argv)`, for the tokens that are drawn for the plan and for the drill. -/
def main (planId runId : String) (arguments : DrillArguments) : Action DrillExit := do
  if arguments.plan then
    pure (.planned ⟨DrillResources.create planId, arguments.image, arguments.migration⟩)
  else
    let outcome ← Eff.attempt (runRestoreDrill texts respond runId arguments.image arguments.migration
      arguments.report)
    exitOf outcome

end MarketPilot.Drill
