import ServerHost.Library.Table
import ServerHost.Storage.Bridge

/-!
# The child of a `FileProtocolServer`

`FileProtocolServer::start`, `stop` and the slots of its process, with the arguments and
the environment that the child is given.  `failed` runs slots of the application before
`stopped` is emitted, and such a slot may start the next child; so the calls in progress
that still have `stopped` to emit are part of the state.

A `QProcess` is starting, running or over: it reports that it started, and then that it
exited, or that it failed to start.
-/

namespace ServerHost

namespace Storage

/-! ## What the child is given -/

/-- A `QProcessEnvironment`. -/
abbrev Environment := Table String String

/-- The variables that `environment` takes from the ambient environment. -/
def inherited : List String := ["PATH", "SystemRoot", "WINDIR", "LANG", "LC_ALL"]

/-- One of them, if it is there. -/
def inherit (system : Environment) (env : Environment) (key : String) : Environment :=
  match system.lookup key with
  | some value => env.insert key value
  | none => env

section
variable (fromUtf8 : Bytes → String) (system : Environment)

/-- `environment`. -/
def environment (o : StorageBridgeOptions) : Environment :=
  let env := inherited.foldl (inherit system) ∅
  let env := ["TMPDIR", "TMP", "TEMP", "USERPROFILE", "HOME"].foldl
    (fun env key => env.insert key o.runtimeDirectory) env
  let env := env.insert "PYTHONNOUSERSITE" "1"
  if o.configPassword ≠ [] then env.insert "RCLONE_CONFIG_PASS" (fromUtf8 o.configPassword) else env

/-- `replace('"', "\"\"")`. -/
def doubled (text : List Char) : List Char :=
  text.flatMap fun c => if c = '"' then ['"', '"'] else [c]

/-- The key pair of an S3 server, as one quoted field. -/
def authKey (username password : String) : String :=
  String.ofList (['"'] ++ doubled (username ++ "," ++ password).toList ++ ['"'])

/-- The server is the script of `ftpServerScript`. -/
def pythonFtp (o : FileServerOptions) : Bool :=
  (serverSpec o.protocol).command = "ftps" || (serverSpec o.protocol).command = "ftpes"

/-- The environment of a server. -/
def serverEnvironment (o : FileServerOptions) (backend : StorageBridgeOptions) : Environment :=
  let spec := serverSpec o.protocol
  let env := environment fromUtf8 system backend
  let env :=
    if spec.command = "s3" then
      env.insert "RCLONE_AUTH_KEY" (authKey o.username (fromUtf8 o.password))
    else if spec.auth ∧ ¬ pythonFtp o then
      let env := env.insert "RCLONE_USER" o.username
      if o.password ≠ [] then env.insert "RCLONE_PASS" (fromUtf8 o.password) else env
    else env
  if pythonFtp o then
    (env.insert "IIWEBSERVER_FTP_USER" o.username).insert "IIWEBSERVER_FTP_PASSWORD"
      (fromUtf8 o.password)
  else env

end

/-- The arguments of rclone. -/
def rcloneArguments (o : FileServerOptions) (backend : StorageBridgeOptions) : List String :=
  let spec := serverSpec o.protocol
  let address := if o.address.ipv4 then o.address.text else "[" ++ o.address.text ++ "]"
  ["serve", spec.command, o.root, "--addr", address ++ ":" ++ toString o.port] ++
    (if o.readOnly then ["--read-only"] else []) ++
    (if spec.tls then
      ["--cert", o.certificate, "--key", o.privateKey] ++
        (if spec.command ≠ "ftp" then ["--min-tls-version", "tls1.2"] else [])
    else []) ++
    (if spec.command = "sftp" then
      ["--key", o.privateKey, "--authorized-keys",
        if o.authorizedKeys = "" then "/dev/null" else o.authorizedKeys]
    else []) ++
    (if spec.command = "nfs" ∧ ¬ o.readOnly then
      ["--vfs-cache-mode", "full", "--vfs-write-back", "0s"]
    else []) ++
    (if spec.command = "ftp" then
      ["--passive-port", o.passivePorts] ++
        (if o.publicAddress ≠ "" then ["--public-ip", o.publicAddress] else [])
    else []) ++ commonArguments backend

/-- The arguments of Python. -/
def pythonArguments (o : FileServerOptions) (backend : StorageBridgeOptions) : List String :=
  ["-B", backend.ftpServerScript, "--root", o.root, "--address", o.address.text,
    "--port", toString o.port, "--certificate", o.certificate, "--key", o.privateKey,
    "--passive-ports", o.passivePorts] ++
    (if (serverSpec o.protocol).command = "ftps" then ["--implicit"] else []) ++
    (if o.readOnly then ["--read-only"] else []) ++
    (if o.publicAddress ≠ "" then ["--public-address", o.publicAddress] else [])

/-- What `QProcess::start` is called with. -/
structure Launch where
  program : String
  arguments : List String
  environment : Environment
  directory : String

def launch (fromUtf8 : Bytes → String) (system : Environment) (disk : Disk)
    (o : FileServerOptions) (backend : StorageBridgeOptions) : Launch where
  program := if pythonFtp o then backend.ftpPythonExecutable else executable disk backend
  arguments := if pythonFtp o then pythonArguments o backend else rcloneArguments o backend
  environment := serverEnvironment fromUtf8 system o backend
  directory := backend.runtimeDirectory

/-! ## The server -/

/-- The state of a `QProcess` after its `start`. -/
inductive Phase where
  | starting | running | ended
  deriving DecidableEq

/-- The calls and the signals; a child has the number of its launch. -/
inductive ServerEvent where
  | launched (child : ℕ) (launch : Launch)
  | refused (error : String)
  | started (child : ℕ)
  | failed (child : ℕ) (error : String)
  | stopped (child : ℕ)
  | terminated (child : ℕ)
  | killed (child : ℕ)

structure FileProtocolServer where
  /-- Whether the object still lives. -/
  alive : Bool := true
  children : List Phase := []
  process : Option ℕ := none
  error : String := ""
  stopping : Bool := false
  /-- The slots in progress that still have `stopped` to emit, innermost first. -/
  ending : List ℕ := []
  /-- The single shots of `stop`. -/
  shots : List ℕ := []
  log : List ServerEvent := []

namespace FileProtocolServer

def emit (event : ServerEvent) (server : FileProtocolServer) : FileProtocolServer :=
  { server with log := event :: server.log }

def onChild (child : ℕ) (phase : Phase) (server : FileProtocolServer) : FileProtocolServer :=
  { server with children := server.children.set child phase }

/-- The slot of `started`. -/
def started (child : ℕ) (server : FileProtocolServer) : FileProtocolServer :=
  if server.children[child]? = some .starting then
    (server.onChild child .running).emit (.started child)
  else server

/-- The slot of `errorOccurred`, for a process that does not start, up to `stopped`. -/
def failedToStart (child : ℕ) (server : FileProtocolServer) : FileProtocolServer :=
  if server.children[child]? = some .starting then
    let server := { server.onChild child .ended with
      error := "backend_start_failed", process := none }
    { server.emit (.failed child server.error) with ending := child :: server.ending }
  else server

/-- The slot of `finished`, up to `stopped`. -/
def exited (child : ℕ) (server : FileProtocolServer) : FileProtocolServer :=
  if server.children[child]? = some .running then
    let server := { server.onChild child .ended with process := none }
    if ¬ server.stopping then
      let server := { server with error := "server_exited" }
      { server.emit (.failed child server.error) with ending := child :: server.ending }
    else server.emit (.stopped child)
  else server

/-- The slots of `failed` return. -/
def resume (server : FileProtocolServer) : FileProtocolServer :=
  match server.ending with
  | [] => server
  | child :: rest => { server with ending := rest }.emit (.stopped child)

variable (fromUtf8 : Bytes → String) (platform : Platform) (backend : StorageBridgeOptions)

/-- `FileProtocolServer::start`.  A process may fail to start before the call returns. -/
def start (system : Environment) (disk : Disk) (o : FileServerOptions) (spawned : Bool)
    (server : FileProtocolServer) : FileProtocolServer :=
  if server.process.isSome then { server with error := "already_running" }.emit
    (.refused "already_running")
  else
    let server := { server with error := validateServer platform disk o backend }
    if server.error ≠ "" then server.emit (.refused server.error)
    else
      let child := server.children.length
      let server := { server with
          stopping := false
          children := server.children ++ [Phase.starting]
          process := some child }.emit
        (.launched child (launch fromUtf8 system disk o backend))
      if spawned then server else server.failedToStart child

/-- `FileProtocolServer::stop`. -/
def stop (server : FileProtocolServer) : FileProtocolServer :=
  match server.process with
  | none => server
  | some child =>
      { server with stopping := true, shots := server.shots ++ [child] }.emit (.terminated child)

/-- A single shot of `stop`. -/
def shot (child : ℕ) (server : FileProtocolServer) : FileProtocolServer :=
  if child ∈ server.shots then
    let server := { server with shots := server.shots.erase child }
    if server.children[child]? = some .ended then server else server.emit (.killed child)
  else server

/-- The destructor. -/
def delete (server : FileProtocolServer) : FileProtocolServer :=
  match server.process with
  | none => { server with alive := false }
  | some child =>
      { server.onChild child .ended with alive := false, process := none }.emit (.killed child)

/-- `isRunning`. -/
def isRunning (server : FileProtocolServer) : Bool :=
  server.process.any fun child => server.children[child]? = some .running

inductive Input where
  | start (system : Environment) (disk : Disk) (o : FileServerOptions) (spawned : Bool)
  | stop
  | started (child : ℕ)
  | failedToStart (child : ℕ)
  | exited (child : ℕ)
  | resume
  | shot (child : ℕ)
  | delete

/-- One turn of the event loop, or a call of the application. -/
def next (server : FileProtocolServer) (input : Input) : FileProtocolServer :=
  if server.alive then
    match input with
    | .start system disk o spawned =>
        server.start fromUtf8 platform backend system disk o spawned
    | .stop => server.stop
    | .started child => server.started child
    | .failedToStart child => server.failedToStart child
    | .exited child => server.exited child
    | .resume => server.resume
    | .shot child => server.shot child
    | .delete => server.delete
  else server

/-- A server of this backend. -/
def machine : Machine FileProtocolServer Input where
  init server := server = {}
  next := next fromUtf8 platform backend

end FileProtocolServer

end Storage

end ServerHost
