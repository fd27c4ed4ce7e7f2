import Xir.Framework.Prog

/-!
# The migrations of the evidence store

`EvidenceStore.initialize` of `src/xir_lab/evidence/store.py`, with its two
migration scripts. A statement of a script is known by the object that it
creates, and the table that it is on. The driver opens a transaction before an
`INSERT`, and none before a statement of a script: `executescript` first commits
what is open, and every statement that follows is durable at once. The column
`applied_at` is left out, and so are the directories, the `PRAGMA` statements of
a connection and other connections.
-/

namespace Xir.Impl.XirLab.Migrations

inductive Kind
  | table
  | index
  | view
  | trigger
  deriving DecidableEq

/-- A row of `sqlite_master`. -/
structure Object where
  kind : Kind
  name : String
  deriving DecidableEq

/-- A statement of a migration script. -/
inductive Statement
  | pragma
  | create (object : Object) (on : Option String)
  deriving DecidableEq

abbrev Script := List Statement

/-- `SCHEMA_VERSION`. -/
def schemaVersion : Nat := 2

/-- `001_initial.sql`. -/
def initialSql : Script :=
  [.pragma, .create ⟨.table, "schema_migrations"⟩ none, .create ⟨.table, "runs"⟩ none,
    .create ⟨.table, "conditions"⟩ none, .create ⟨.table, "pairs"⟩ none, .create ⟨.table, "attempts"⟩ none,
    .create ⟨.table, "stages"⟩ none, .create ⟨.table, "intents"⟩ none, .create ⟨.table, "transactions"⟩ none,
    .create ⟨.table, "work_leases"⟩ none, .create ⟨.index, "one_live_work_lease"⟩ (some "work_leases"),
    .create ⟨.table, "nonce_leases"⟩ none, .create ⟨.table, "budgets"⟩ none, .create ⟨.table, "budget_limits"⟩ none,
    .create ⟨.table, "budget_totals"⟩ none, .create ⟨.table, "batch_budget_totals"⟩ none,
    .create ⟨.table, "transaction_subreservations"⟩ none, .create ⟨.table, "budget_events"⟩ none,
    .create ⟨.table, "run_controls"⟩ none, .create ⟨.table, "control_events"⟩ none,
    .create ⟨.table, "stop_policy_events"⟩ none, .create ⟨.table, "execution_outcomes"⟩ none,
    .create ⟨.trigger, "budget_events_no_update"⟩ (some "budget_events"),
    .create ⟨.trigger, "budget_events_no_delete"⟩ (some "budget_events"),
    .create ⟨.trigger, "control_events_no_update"⟩ (some "control_events"),
    .create ⟨.trigger, "control_events_no_delete"⟩ (some "control_events"),
    .create ⟨.trigger, "stop_policy_events_no_update"⟩ (some "stop_policy_events"),
    .create ⟨.trigger, "stop_policy_events_no_delete"⟩ (some "stop_policy_events"),
    .create ⟨.trigger, "execution_outcomes_no_update"⟩ (some "execution_outcomes"),
    .create ⟨.trigger, "execution_outcomes_no_delete"⟩ (some "execution_outcomes"),
    .create ⟨.table, "raw_blobs"⟩ none, .create ⟨.table, "events"⟩ none, .create ⟨.table, "block_headers"⟩ none,
    .create ⟨.table, "transaction_receipts"⟩ none, .create ⟨.table, "transaction_resources"⟩ none,
    .create ⟨.table, "carrier_quote_observations"⟩ none, .create ⟨.table, "carrier_messages"⟩ none,
    .create ⟨.table, "xir_attempt_records"⟩ none, .create ⟨.table, "destination_effects"⟩ none,
    .create ⟨.table, "observations"⟩ none, .create ⟨.table, "checkpoints"⟩ none,
    .create ⟨.table, "collector_checkpoints"⟩ none, .create ⟨.table, "collector_calls"⟩ none,
    .create ⟨.table, "collector_chain_events"⟩ none, .create ⟨.table, "auxiliary_carrier_observations"⟩ none,
    .create ⟨.table, "finality_policies"⟩ none, .create ⟨.table, "transaction_finality_observations"⟩ none,
    .create ⟨.trigger, "transaction_finality_observations_no_update"⟩ (some "transaction_finality_observations"),
    .create ⟨.trigger, "transaction_finality_observations_no_delete"⟩ (some "transaction_finality_observations"),
    .create ⟨.table, "attempt_observation_windows"⟩ none, .create ⟨.table, "attempt_outcome_observations"⟩ none,
    .create ⟨.table, "attempt_backfill_status"⟩ none, .create ⟨.table, "observer_clock_observations"⟩ none,
    .create ⟨.table, "chain_clock_observations"⟩ none, .create ⟨.table, "clock_measurements"⟩ none,
    .create ⟨.trigger, "attempt_outcome_observations_no_update"⟩ (some "attempt_outcome_observations"),
    .create ⟨.trigger, "attempt_outcome_observations_no_delete"⟩ (some "attempt_outcome_observations"),
    .create ⟨.table, "account_snapshots"⟩ none, .create ⟨.table, "invariant_violations"⟩ none,
    .create ⟨.table, "transition_journal"⟩ none, .create ⟨.table, "freezes"⟩ none,
    .create ⟨.table, "declared_freeze_scopes"⟩ none, .create ⟨.table, "pair_eligibility_decisions"⟩ none,
    .create ⟨.table, "approval_consumptions"⟩ none, .create ⟨.table, "approval_revocations"⟩ none,
    .create ⟨.view, "current_observations"⟩ none,
    .create ⟨.trigger, "transition_journal_no_update"⟩ (some "transition_journal"),
    .create ⟨.trigger, "transition_journal_no_delete"⟩ (some "transition_journal"),
    .create ⟨.trigger, "observations_no_update"⟩ (some "observations"),
    .create ⟨.trigger, "observations_no_delete"⟩ (some "observations")]

/-- `002_native_stack.sql`. -/
def nativeStackSql : Script :=
  [.pragma, .create ⟨.table, "native_attempt_coordinates"⟩ none, .create ⟨.table, "native_component_artifacts"⟩ none,
    .create ⟨.table, "native_deployments"⟩ none, .create ⟨.table, "native_configuration_observations"⟩ none,
    .create ⟨.table, "native_action_intents"⟩ none, .create ⟨.table, "native_action_observations"⟩ none,
    .create ⟨.table, "native_protocol_messages"⟩ none, .create ⟨.table, "hyperlane_checkpoint_observations"⟩ none,
    .create ⟨.table, "layerzero_packet_observations"⟩ none, .create ⟨.table, "layerzero_dvn_instructions"⟩ none,
    .create ⟨.table, "native_xir_transitions"⟩ none, .create ⟨.table, "native_application_effects"⟩ none,
    .create ⟨.table, "native_lineage_edges"⟩ none, .create ⟨.table, "native_process_samples"⟩ none,
    .create ⟨.table, "native_host_health_samples"⟩ none, .create ⟨.table, "native_process_restarts"⟩ none,
    .create ⟨.table, "native_reconciliation_findings"⟩ none,
    .create ⟨.trigger, "native_action_observations_no_update"⟩ (some "native_action_observations"),
    .create ⟨.trigger, "native_action_observations_no_delete"⟩ (some "native_action_observations"),
    .create ⟨.trigger, "native_process_samples_no_update"⟩ (some "native_process_samples"),
    .create ⟨.trigger, "native_process_samples_no_delete"⟩ (some "native_process_samples"),
    .create ⟨.trigger, "native_host_health_samples_no_update"⟩ (some "native_host_health_samples"),
    .create ⟨.trigger, "native_host_health_samples_no_delete"⟩ (some "native_host_health_samples"),
    .create ⟨.trigger, "native_reconciliation_findings_no_update"⟩ (some "native_reconciliation_findings"),
    .create ⟨.trigger, "native_reconciliation_findings_no_delete"⟩ (some "native_reconciliation_findings")]

/-- A file of the directory `migrations`. -/
def readMigration (name : String) : Option Script :=
  if name = "001_initial.sql" then some initialSql
  else if name = "002_native_stack.sql" then some nativeStackSql
  else none

/-- `f"{n:03d}"`. -/
def threeDigits (n : Nat) : String := "".pushn '0' (3 - (toString n).length) ++ toString n

inductive Error
  | storeError (text : String)
  | fileNotFoundError
  | typeError
  | tableExists (object : Object)
  | noSuchTable (name : String)
  | integrityError
  deriving DecidableEq

/-- The schema of a database, and the rows of `schema_migrations`. -/
structure Database where
  objects : List Object
  versions : List Nat
  deriving DecidableEq

namespace Database

def empty : Database := ⟨[], []⟩

def hasTable (d : Database) (name : String) : Bool := d.objects.contains ⟨.table, name⟩

/-- Triggers have names of their own, the other objects share theirs. -/
def clash (d : Database) (o : Object) : Option Object :=
  d.objects.find? fun o' => o'.name = o.name ∧ (o'.kind = .trigger ↔ o.kind = .trigger)

def execute (d : Database) : Statement → Except Error Database
  | .pragma => .ok d
  | .create o on =>
    match on.filter fun t => !d.hasTable t, d.clash o with
    | some t, _ => .error (.noSuchTable t)
    | none, some o' => .error (.tableExists o')
    | none, none => .ok { d with objects := d.objects ++ [o] }

/-- `INSERT INTO schema_migrations`. -/
def insertVersion (d : Database) (n : Nat) : Except Error Database :=
  if !d.hasTable "schema_migrations" then .error (.noSuchTable "schema_migrations")
  else if n ∈ d.versions then .error .integrityError
  else .ok { d with versions := d.versions ++ [n] }

/-- `SELECT max(version) AS version FROM schema_migrations`. -/
def maxVersion (d : Database) : Except Error (Option Nat) :=
  if d.hasTable "schema_migrations" then .ok d.versions.max? else .error (.noSuchTable "schema_migrations")

end Database

/-- What is durable, and what an open transaction has made of it. -/
structure Connection where
  durable : Database
  transaction : Option Database
  deriving DecidableEq

namespace Connection

/-- What the connection reads. -/
def view (c : Connection) : Database := c.transaction.getD c.durable

/-- Writes in the open transaction, if there is one, and else durably. -/
def set (c : Connection) (d : Database) : Connection :=
  match c.transaction with
  | some _ => { c with transaction := some d }
  | none => { c with durable := d }

end Connection

/-- What `initialize` asks the database. -/
inductive Op
  | hasTable (name : String)
  | execute (statement : Statement)
  | insertVersion (version : Nat)
  | maxVersion
  | commit
  | rollback

/-- What an operation answers. -/
abbrev Op.Value : Op → Type
  | .hasTable _ => Bool
  | .maxVersion => Option Nat
  | .execute _ | .insertVersion _ | .commit | .rollback => Unit

abbrev Program := Prog Op (fun op => Except Error op.Value) Error

/-- A change of what the connection reads: a statement that raises changes nothing. -/
def Connection.change (c : Connection) (x : Except Error Database) (write : Database → Connection) :
    Except Error Unit × Connection :=
  match x with
  | .ok d => (.ok (), write d)
  | .error e => (.error e, c)

/-- The answer of SQLite, through Python's driver. -/
def answer : (op : Op) → Connection → Except Error op.Value × Connection
  | .hasTable name, c => (.ok (c.view.hasTable name), c)
  | .execute s, c => c.change (c.view.execute s) c.set
  -- The driver begins a transaction before an `INSERT`.
  | .insertVersion n, c => c.change (c.view.insertVersion n) fun d => { c with transaction := some d }
  | .maxVersion, c => (c.view.maxVersion, c)
  | .commit, c => (.ok (), ⟨c.view, none⟩)
  | .rollback, c => (.ok (), ⟨c.durable, none⟩)

abbrev call (op : Op) : Program op.Value := Prog.call op

/-- `connection.executescript`. -/
def executescript (script : Script) : Program Unit := do
  call .commit
  script.forM fun statement => call (.execute statement)

/-- `int(...)` of the greatest version. -/
def readVersion : Program Nat := do
  match ← call .maxVersion with
  | some version => pure version
  | none => .fail .typeError

def unsupported (version : Nat) : Error := .storeError s!"unsupported database schema version: {version}"

/-- One round of the loop over the versions that are missing. -/
def migrate (nextVersion : Nat) : Program Unit := do
  let path := threeDigits nextVersion ++ "_native_stack.sql"
  match readMigration path with
  | none => .fail (.storeError s!"missing database migration: {path}")
  | some script =>
    executescript script
    call (.insertVersion nextVersion)

/-- The first script, where nothing is present. -/
def createInitial : Program Unit := do
  let present ← call (.hasTable "schema_migrations")
  if !present then
    match readMigration "001_initial.sql" with
    | none => .fail .fileNotFoundError
    | some script =>
      executescript script
      call (.insertVersion 1)

/-- The scripts after the version that is recorded. -/
def upgrade : Program Unit := do
  let version ← readVersion
  if version < 1 ∨ version > schemaVersion then .fail (unsupported version)
  (List.range' (version + 1) (schemaVersion - version)).forM migrate
  let version ← readVersion
  if version ≠ schemaVersion then .fail (unsupported version)

/-- `EvidenceStore.initialize`: the connection commits what its block leaves open, or takes it back. -/
def initializeStore : Program Unit := do
  (do createInitial; upgrade).handle fun e => do
    call .rollback
    .fail e
  call .commit

end Xir.Impl.XirLab.Migrations
