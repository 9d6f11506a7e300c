import ServerHost.Storage.Serving

/-!
# What the child of a server is given

The arguments and the environment of a child.  Everybody on the machine may read the
arguments, so no password is among them; and of the ambient environment the child sees five
variables, so it has no credentials but those of its own options.
-/

namespace ServerHost

namespace Storage

/-! ## What carries the password -/

/-- The variables with the credentials of a server. -/
def credentialKeys : List String :=
  ["RCLONE_AUTH_KEY", "RCLONE_USER", "RCLONE_PASS", "IIWEBSERVER_FTP_USER",
    "IIWEBSERVER_FTP_PASSWORD"]

/-- The variables that `environment` and `start` set. -/
def ownKeys : List String :=
  ["TMPDIR", "TMP", "TEMP", "USERPROFILE", "HOME", "PYTHONNOUSERSITE", "RCLONE_CONFIG_PASS"] ++
    credentialKeys

/-- A quoted field without its doubled quotes. -/
def undoubled : List Char → List Char
  | '"' :: '"' :: rest => '"' :: undoubled rest
  | c :: rest => c :: undoubled rest
  | [] => []

/-- How rclone reads a key pair: one quoted field, split at its first comma. -/
def keyPair (key : String) : Option (String × String) :=
  let field := undoubled key.toList.tail.dropLast
  match field.dropWhile (· ≠ ',') with
  | [] => none
  | _ :: rest => some (String.ofList (field.takeWhile (· ≠ ',')), String.ofList rest)

/-- The user and the password that the child finds. -/
def received (o : FileServerOptions) (env : Environment) : Option (String × String) :=
  if (serverSpec o.protocol).command = "s3" then (env.lookup "RCLONE_AUTH_KEY").bind keyPair
  else if pythonFtp o then
    (env.lookup "IIWEBSERVER_FTP_USER").bind fun user =>
      (env.lookup "IIWEBSERVER_FTP_PASSWORD").map fun password => (user, password)
  else (env.lookup "RCLONE_USER").map fun user => (user, (env.lookup "RCLONE_PASS").getD "")

/-- The same options, without the passwords. -/
def FileServerOptions.bare (o : FileServerOptions) : FileServerOptions := { o with password := [] }

def StorageBridgeOptions.bare (backend : StorageBridgeOptions) : StorageBridgeOptions :=
  { backend with configPassword := [] }

variable {fromUtf8 : Bytes → String} {system : Environment} {platform : Platform} {disk : Disk}
variable {o : FileServerOptions} {backend : StorageBridgeOptions}

/-! ## The key pair -/

/-- What the child of an accepted server is given. -/
structure Given (fromUtf8 : Bytes → String) (system : Environment) (disk : Disk)
    (o : FileServerOptions) (backend : StorageBridgeOptions) (l : Launch) : Prop where
  /-- The passwords make no difference to what everybody sees. -/
  arguments : l.program = (launch fromUtf8 system disk o.bare backend.bare).program ∧
    l.arguments = (launch fromUtf8 system disk o.bare backend.bare).arguments
  /-- Of the ambient environment, five variables are left. -/
  foreign : ∀ key, key ∉ ownKeys →
    l.environment.lookup key = if key ∈ inherited then system.lookup key else none
  /-- The child finds the credentials of the options, and no others. -/
  credentials : received o l.environment =
    if (serverSpec o.protocol).auth then
      some (o.username, if o.password = [] then "" else fromUtf8 o.password)
    else none

end Storage

end ServerHost
