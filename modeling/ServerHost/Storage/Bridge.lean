import ServerHost.Library.Machine
import ServerHost.Storage.Server

/-!
# The jobs of a `StorageBridge`

`StorageBridge::start`, `cancel` and the slots of the process and the timer of a job.
The slots share the `BridgeJob` with the table, and keep it after the table let it go;
so the objects stand in a table of their own, next to the keys of `jobs`.

`log` is what happened, newest first.  An event of a process is there when the slot of
its job ran.
-/

namespace ServerHost

namespace Storage

/-! ## The data -/

inductive StorageOperation where
  | providers | list | stat | copyFile | copyDirectory | makeDirectory | removeFile | check
  deriving DecidableEq

structure StorageRequest where
  operation : StorageOperation := .list
  source : String := ""
  destination : String := ""
  overwrite : Bool := false
  timeoutMs : ℤ := 300000

structure StorageResult where
  ok : Bool := false
  cancelled : Bool := false
  exitCode : ℤ := -1
  error : String := ""
  data : Json := .null

structure BridgeJob where
  output : Bytes := []
  failure : String := ""
  cancelled : Bool := false
  completed : Bool := false
  json : Bool := false

/-- `QProcess::ExitStatus`. -/
inductive ExitStatus where
  | normalExit | crashExit
  deriving DecidableEq

/-- What happens to the jobs. -/
inductive JobEvent where
  | started (id : String) (request : StorageRequest) (program : String) (arguments : List String)
  | cancelled (id : String)
  | killed (id : String)
  | read (id : String) (bytes : Bytes)
  | timedOut (id : String)
  | failedToStart (id : String)
  | exited (id : String) (code : ℤ) (status : ExitStatus)
  | finished (id : String) (result : StorageResult)

structure StorageBridge where
  objects : Table String BridgeJob := ∅
  /-- The keys of `jobs`. -/
  jobs : List String := []
  /-- The results that wait for a turn of the event loop. -/
  refusals : List (String × StorageResult) := []
  uuids : ℕ := 0
  log : List JobEvent := []

/-! ## The arguments -/

/-- The size that the buffered output may have. -/
def outputLimit : ℕ := 16 * 1024 * 1024

/-- The operations whose output is a document. -/
def structured : StorageOperation → Bool
  | .providers | .list | .stat => true
  | _ => false

/-- The arguments of the operation. -/
def operationArguments (request : StorageRequest) : List String :=
  let copied := (if request.overwrite then [] else ["--ignore-existing"]) ++
    ["--checksum", "--local-no-set-modtime"]
  match request.operation with
  | .providers => ["config", "providers"]
  | .list => ["lsjson", request.source]
  | .stat => ["lsjson", request.source, "--stat"]
  | .copyFile => ["copyto", request.source, request.destination] ++ copied
  | .copyDirectory => ["copy", request.source, request.destination] ++ copied
  | .makeDirectory => ["mkdir", request.source]
  | .removeFile => ["deletefile", request.source]
  | .check => ["check", request.source, request.destination, "--download"]

/-- `commonArguments`. -/
def commonArguments (o : StorageBridgeOptions) : List String :=
  ["--config", if o.configFile = "" then "/dev/null" else o.configFile,
    "--cache-dir", o.runtimeDirectory, "--use-json-log", "--log-level", "ERROR", "--stats", "0",
    "--ask-password=false", "--retries", "1", "--low-level-retries", "1"]

/-- The checks of `start`, with the number of jobs in the table. -/
def startError (disk : Disk) (o : StorageBridgeOptions) (request : StorageRequest) (jobs : ℕ) :
    String :=
  let unbacked := validateBackend disk o
  let source := validateLocation request.source o
  let destination := validateLocation request.destination o
  if unbacked ≠ "" then unbacked
  else if request.operation ≠ .providers ∧ source ≠ "" then source
  else if (request.operation = .copyFile ∨ request.operation = .copyDirectory ∨
      request.operation = .check) ∧ destination ≠ "" then destination
  else if request.timeoutMs ≤ 0 then "invalid_timeout"
  else if jobs ≥ 4 then "too_many_transfers"
  else ""

namespace StorageBridge

/-! ## The jobs -/

def emit (event : JobEvent) (bridge : StorageBridge) : StorageBridge :=
  { bridge with log := event :: bridge.log }

/-- A change of the job itself. -/
def update (id : String) (f : BridgeJob → BridgeJob) (bridge : StorageBridge) : StorageBridge :=
  { bridge with objects := Table.modify id f bridge.objects }

/-- `QProcess::kill`. -/
def kill (id : String) (bridge : StorageBridge) : StorageBridge := bridge.emit (.killed id)

variable (fromJson : Bytes → Option Json)

/-- The result that `finish` reports. -/
def resultOf (job : BridgeJob) (code : ℤ) (status : ExitStatus) : StorageResult :=
  let document := fromJson job.output
  let error :=
    if job.cancelled then "cancelled"
    else if job.failure ≠ "" then job.failure
    else if status ≠ .normalExit ∨ code ≠ 0 then "backend_failed"
    else if job.json ∧ document.isNone then "invalid_backend_response"
    else ""
  { ok := error = ""
    cancelled := job.cancelled
    exitCode := code
    error := error
    data := if error = "" ∧ job.json then document.getD .null else .null }

/-- The lambda `finish`. -/
def finish (id : String) (code : ℤ) (status : ExitStatus) (bridge : StorageBridge) :
    StorageBridge :=
  match bridge.objects.lookup id with
  | none => bridge
  | some job =>
      if job.completed then bridge
      else
        let bridge := bridge.update id fun job => { job with completed := true }
        { bridge with jobs := bridge.jobs.erase id }.emit
          (.finished id (resultOf fromJson job code status))

/-- The slot of `errorOccurred`, for a process that does not start. -/
def failedToStart (id : String) (bridge : StorageBridge) : StorageBridge :=
  match bridge.objects.lookup id with
  | none => bridge
  | some _ =>
      ((bridge.emit (.failedToStart id)).update id fun job =>
        { job with failure := "backend_start_failed" }).finish fromJson id (-1) .crashExit

/-- The slot of `QProcess::finished`. -/
def exited (id : String) (code : ℤ) (status : ExitStatus) (bridge : StorageBridge) :
    StorageBridge :=
  match bridge.objects.lookup id with
  | none => bridge
  | some _ => bridge.finish fromJson id code status

/-- The slot of `readyReadStandardOutput`. -/
def readStandardOutput (id : String) (bytes : Bytes) (bridge : StorageBridge) : StorageBridge :=
  match bridge.objects.lookup id with
  | none => bridge
  | some job =>
      if ¬ job.json then bridge
      else if job.output.length + bytes.length > outputLimit then
        (bridge.update id fun job =>
          { job with failure := "result_size_limit_exceeded" }).kill id
      else bridge.update id fun job => { job with output := job.output ++ bytes }

/-- The slot of the timer. -/
def timeout (id : String) (bridge : StorageBridge) : StorageBridge :=
  match bridge.objects.lookup id with
  | none => bridge
  | some _ => (bridge.update id fun job => { job with failure := "timeout" }).kill id

/-- `StorageBridge::cancel`. -/
def cancel (id : String) (bridge : StorageBridge) : StorageBridge :=
  if id ∈ bridge.jobs then
    (bridge.update id fun job => { job with cancelled := true }).kill id
  else bridge

variable (platform : Platform) (o : StorageBridgeOptions)

/-- `StorageBridge::start`.  A process may fail to start before the call returns. -/
def start (disk : Disk) (request : StorageRequest) (spawned : Bool) (bridge : StorageBridge) :
    StorageBridge :=
  let id := platform.uuid bridge.uuids
  let error := startError disk o request bridge.jobs.length
  let bridge := { bridge with uuids := bridge.uuids + 1 }
  if error ≠ "" then { bridge with refusals := bridge.refusals ++ [(id, { error := error })] }
  else
    let bridge := { bridge with
        objects := bridge.objects.insert id { json := structured request.operation }
        jobs := id :: bridge.jobs }.emit
      (.started id request (executable disk o) (operationArguments request ++ commonArguments o))
    if spawned then bridge else bridge.failedToStart fromJson id

/-- The single shot of a refused `start`. -/
def refused (bridge : StorageBridge) : StorageBridge :=
  match bridge.refusals with
  | [] => bridge
  | refusal :: rest => { bridge with refusals := rest }.emit (.finished refusal.1 refusal.2)

/-! ## The event loop -/

inductive Input where
  | start (disk : Disk) (request : StorageRequest) (spawned : Bool)
  | cancel (id : String)
  | refused
  | standardOutput (id : String) (bytes : Bytes)
  | standardError (id : String)
  | exited (id : String) (code : ℤ) (status : ExitStatus)
  | failedToStart (id : String)
  | timeout (id : String)

/-- What an input does to a job, before any slot runs. -/
def heard (bridge : StorageBridge) : Input → Option JobEvent
  | .cancel id => if id ∈ bridge.jobs then some (.cancelled id) else none
  | .standardOutput id bytes => (bridge.objects.lookup id).map fun _ => .read id bytes
  | .exited id code status => (bridge.objects.lookup id).map fun _ => .exited id code status
  | .timeout id => (bridge.objects.lookup id).map fun _ => .timedOut id
  | _ => none

/-- The log is told of it. -/
def hear (input : Input) (bridge : StorageBridge) : StorageBridge :=
  { bridge with log := (bridge.heard input).toList ++ bridge.log }

/-- One turn of the event loop.  The standard error is read and thrown away. -/
def next (bridge : StorageBridge) (input : Input) : StorageBridge :=
  let bridge := bridge.hear input
  match input with
  | .start disk request spawned => bridge.start fromJson platform o disk request spawned
  | .cancel id => bridge.cancel id
  | .refused => bridge.refused
  | .standardOutput id bytes => bridge.readStandardOutput id bytes
  | .standardError _ => bridge
  | .exited id code status => bridge.exited fromJson id code status
  | .failedToStart id => bridge.failedToStart fromJson id
  | .timeout id => bridge.timeout id

/-- A bridge with these options. -/
def machine : Machine StorageBridge Input where
  init bridge := bridge = {}
  next := next fromJson platform o

end StorageBridge

end Storage

end ServerHost
