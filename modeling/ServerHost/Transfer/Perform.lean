import ServerHost.Transfer.Request

/-!
# One transfer

The callbacks that libcurl calls, and `perform` around them.  The world answers what
the program does not decide: what is read and written, which callbacks are called in
what order, when another thread cancels the job, and what libcurl reports in the end.

The byte counters are signed integers of 64 bits, and wrap.  `accepted` is not in the
program: it is what `writeData` took so far.
-/

namespace ServerHost

namespace Transfer

/-! ## The data -/

structure TransferResult where
  ok : Bool := false
  cancelled : Bool := false
  error : String := ""
  protocol : String
  bytes : ℤ := 0
  sha256 : String := ""
  responseCode : ℤ := 0
  httpVersion : String := ""

/-- The results of libcurl that the program tells apart. -/
inductive CurlCode where
  | ok | failedInit | filesizeExceeded | operationTimedOut | abortedByCallback | other
  deriving DecidableEq

/-- `iiFileProvider::SaveFile`, as it is documented: what was written goes to a temporary file,
and `commit` puts it in the place of the destination, or fails and leaves that as it was. -/
structure SaveFile where
  temporary : Bytes := []
  destination : Option Bytes

/-- `SaveFile::write`, of which `answer` bytes succeed. -/
def SaveFile.write (data : Bytes) (answer : ℤ) (file : SaveFile) : SaveFile :=
  { file with temporary := file.temporary ++ data.take answer.toNat }

/-- `SaveFile::commit`. -/
def SaveFile.commit (succeeds : Bool) (file : SaveFile) : SaveFile :=
  if succeeds then { file with destination := some file.temporary } else file

/-- `IO`, with the flag of the job. -/
structure Io where
  output : SaveFile
  /-- The bytes the hash was given. -/
  hash : Bytes := []
  cancelled : Bool := false
  bytes : ℤ := 0
  maximum : ℤ
  error : String := ""
  uploading : Bool
  /-- The calls of `progress`. -/
  progress : List (ℤ × ℤ) := []
  accepted : Bytes := []

/-! ## The callbacks -/

/-- The largest `qint64`. -/
def qint64Max : ℤ := 2 ^ 63 - 1

/-- A conversion to `qint64`. -/
def qint64 (value : ℤ) : ℤ := value.bmod (2 ^ 64)

/-- A product of two numbers of type `size_t`. -/
def sizeProduct (size count : ℕ) : ℕ := size * count % 2 ^ 64

/-- The guard of the callbacks against a product beyond `qint64`. -/
def oversized (size count : ℕ) : Bool := size ≠ 0 && count > (2 ^ 63 - 1) / size

/-- What libcurl hands over: as many bytes as the product of two numbers says. -/
structure Chunk where
  size : ℕ
  count : ℕ
  data : Bytes
  length : data.length = size * count

/-- `writeData`, with the value it returns.  `answer` is what `write` returns. -/
def writeData (chunk : Chunk) (answer : ℤ) (io : Io) : ℕ × Io :=
  if oversized chunk.size chunk.count then (0, io)
  else
    let n := qint64 (sizeProduct chunk.size chunk.count)
    if io.uploading then (sizeProduct chunk.size chunk.count, io)
    else if io.cancelled then (0, io)
    else if n > qint64 (qint64Max - io.bytes) ∨
        (io.maximum ≠ 0 ∧ n > qint64 (io.maximum - io.bytes)) then
      (0, { io with error := "size_limit_exceeded" })
    else if answer ≠ n then
      (0, { io with output := io.output.write chunk.data answer, error := "local_write_failed" })
    else
      (sizeProduct chunk.size chunk.count, { io with
        output := io.output.write chunk.data answer
        hash := io.hash ++ chunk.data
        bytes := qint64 (io.bytes + n)
        accepted := io.accepted ++ chunk.data })

/-- `CURL_READFUNC_ABORT`. -/
def readAbort : ℕ := 0x10000000

/-- `readData`.  The read fails, or returns some bytes. -/
def readData (size count : ℕ) (answer : Option Bytes) (io : Io) : ℕ × Io :=
  if io.cancelled ∨ oversized size count then (readAbort, io)
  else match answer with
    | none => (readAbort, { io with error := "local_read_failed" })
    | some data =>
        (data.length, { io with hash := io.hash ++ data, bytes := qint64 (io.bytes + data.length) })

/-- `seekData`.  It returns `CURL_SEEKFUNC_CANTSEEK` or `CURL_SEEKFUNC_OK`. -/
def seekData (offset : ℤ) (fromStart sought : Bool) (io : Io) : ℕ × Io :=
  if offset ≠ 0 ∨ ¬ fromStart ∨ ¬ sought then (2, io)
  else (0, { io with hash := [], bytes := 0 })

/-- `progressData`, with the time since `progress` was last called. -/
def progressData (dlTotal dlNow ulTotal ulNow elapsed : ℤ) (io : Io) : ℕ × Io :=
  if io.cancelled then (1, io)
  else
    let total := if io.uploading then ulTotal else dlTotal
    if io.maximum ≠ 0 ∧ total > io.maximum then (1, { io with error := "size_limit_exceeded" })
    else if elapsed ≥ 100 then
      (0, { io with progress := (if io.uploading then ulNow else dlNow, total) :: io.progress })
    else (0, io)

/-- What happens while libcurl works: a callback, or a call of `cancel`. -/
inductive Callback where
  | write (chunk : Chunk) (answer : ℤ)
  | read (size count : ℕ) (answer : Option Bytes)
  | seek (offset : ℤ) (fromStart sought : Bool)
  | progress (dlTotal dlNow ulTotal ulNow elapsed : ℤ)
  | cancel

/-! ## The loop -/

/-- One callback.  An upload reads and seeks; libcurl has no other callback for that.  What
libcurl does with the value that is returned is left to it: it may go on or stop after each. -/
def callback (io : Io) : Callback → Io
  | .write chunk answer => (writeData chunk answer io).2
  | .read size count answer => if io.uploading then (readData size count answer io).2 else io
  | .seek offset fromStart sought =>
      if io.uploading then (seekData offset fromStart sought io).2 else io
  | .progress dlTotal dlNow ulTotal ulNow elapsed =>
      (progressData dlTotal dlNow ulTotal ulNow elapsed io).2
  | .cancel => { io with cancelled := true }

/-- One round of the loop over `curl_multi_perform` and `curl_multi_poll`. -/
structure Round where
  performing : List Callback
  performed : Bool
  running : Bool
  polling : List Callback
  polled : Bool

/-- The loop.  It has no result when the rounds end before it does. -/
def loop : List Round → Io → Option Io
  | rounds, io =>
      if io.cancelled then some io
      else match rounds with
        | [] => none
        | round :: rest =>
            let io := round.performing.foldl callback io
            if ¬ round.performed ∨ ¬ round.running then some io
            else
              let io := round.polling.foldl callback io
              if ¬ round.polled then some io else loop rest io

/-- One round of the loop that hashes an upload: what is read, whether it failed, and whether
the job is cancelled before the next round. -/
structure Hashing where
  bytes : Bytes
  failed : Bool
  cancel : Bool

/-- The loop over the input.  The rounds are those until its end; a failure has no result. -/
def hashInput : List Hashing → Bytes → Io → Option (Bytes × Io)
  | rounds, hash, io =>
      match rounds with
      | [] => some (hash, io)
      | round :: rest =>
          if io.cancelled then some (hash, io)
          else if round.bytes = [] ∧ round.failed then none
          else hashInput rest (hash ++ round.bytes)
            { io with cancelled := io.cancelled || round.cancel }

/-- What the world answers to one call of `perform`. -/
structure World where
  cancelled : Bool
  /-- The input is a file and opens, or the output opens. -/
  opened : Bool
  inputSize : ℤ
  hashing : List Hashing
  rewound : Bool
  initialized : Bool
  setup : CurlCode
  added : Bool
  rounds : List Round
  messages : List CurlCode
  /-- The job is cancelled after the loop, before its flag is read for the code and again for
  the result. -/
  cancelledLate : Bool × Bool
  response : ℤ
  httpVersion : String
  committed : Bool

/-! ## The transfer -/

/-- `QByteArray::toLower`. -/
def toLower (text : String) : String := String.ofList (text.toList.map Char.toLower)

variable (platform : Platform)

/-- The hash in hexadecimal. -/
def hexHash (bytes : Bytes) : String := platform.sha256 (bytes.map UInt8.toNat)

/-- What `perform` starts from. -/
def begin (r : TransferRequest) (destination : Option Bytes) (world : World) : Io :=
  { output := { destination := destination }
    cancelled := world.cancelled
    maximum := r.maximumBytes
    uploading := r.operation = .upload }

/-- The file that is sent, before libcurl is asked: an error, or the state to go on with. -/
def prepareUpload (r : TransferRequest) (world : World) (io : Io) :
    Except TransferResult Io :=
  let failed (error : String) (cancelled : Bool) : Except TransferResult Io :=
    .error { protocol := r.url.scheme, error := error, cancelled := cancelled }
  if ¬ world.opened then failed "local_read_failed" false
  else if r.maximumBytes ≠ 0 ∧ world.inputSize > r.maximumBytes then
    failed "size_limit_exceeded" false
  else if r.expectedSha256 = "" then .ok io
  else match hashInput world.hashing [] io with
    | none => failed "local_read_failed" false
    | some (hash, io) =>
        if io.cancelled then failed "cancelled" true
        else if hexHash platform hash ≠ toLower r.expectedSha256 then
          failed "checksum_mismatch" false
        else if ¬ world.rewound then failed "local_read_failed" false
        else .ok io

/-- What `perform` does before libcurl is asked. -/
def prepare (r : TransferRequest) (world : World) (io : Io) :
    Except TransferResult Io :=
  if io.uploading then prepareUpload platform r world io
  else if ¬ world.opened then
    .error { protocol := r.url.scheme, error := "local_write_failed" }
  else .ok io

/-- Everything between the set up of libcurl and its result. -/
def transfer (world : World) (io : Io) : Option (CurlCode × Io) :=
  if world.setup = .ok ∧ world.added then
    (loop world.rounds io).map fun io =>
      let io := { io with cancelled := io.cancelled || world.cancelledLate.1 }
      let code := world.messages.getLastD .failedInit
      (if io.cancelled then .abortedByCallback else code,
        { io with cancelled := io.cancelled || world.cancelledLate.2 })
  else
    some (if world.setup = .ok then .failedInit else world.setup,
      { io with cancelled := io.cancelled || world.cancelledLate.1 || world.cancelledLate.2 })

/-- The URL is one of HTTP. -/
def isHttp (r : TransferRequest) : Bool :=
  wireScheme r.url.scheme = "http" || wireScheme r.url.scheme = "https"

/-- The error of the last lines of `perform`, before the commit. -/
def resultError (r : TransferRequest) (code : CurlCode) (response : ℤ) (io : Io) : String :=
  if io.cancelled then "cancelled"
  else if io.error ≠ "" then io.error
  else if code = .filesizeExceeded then "size_limit_exceeded"
  else if code = .operationTimedOut then "timeout"
  else if code ≠ .ok then "transfer_failed"
  else if isHttp r ∧ 300 ≤ response ∧ response < 400 then "redirect_requires_new_request"
  else if r.expectedSha256 ≠ "" ∧ hexHash platform io.hash ≠ toLower r.expectedSha256 then
    "checksum_mismatch"
  else ""

/-- The last lines of `perform`. -/
def conclude (r : TransferRequest) (world : World) (code : CurlCode) (io : Io) :
    TransferResult × Io :=
  let result : TransferResult :=
    { protocol := r.url.scheme
      bytes := io.bytes
      sha256 := hexHash platform io.hash
      cancelled := io.cancelled
      responseCode := world.response.bmod (2 ^ 32)
      httpVersion := world.httpVersion }
  let error := resultError platform r code world.response io
  if error ≠ "" then ({ result with error := error }, io)
  else if ¬ io.uploading then
    let io := { io with output := io.output.commit world.committed }
    if ¬ world.committed then ({ result with error := "local_commit_failed" }, io)
    else ({ result with ok := true }, io)
  else ({ result with ok := true }, io)

/-- `perform`.  It has no result while libcurl goes on. -/
def perform (r : TransferRequest) (destination : Option Bytes) (world : World) :
    Option (TransferResult × Io) :=
  match prepare platform r world (begin r destination world) with
  | .error result => some (result, begin r destination world)
  | .ok io =>
      if ¬ world.initialized then
        some ({ protocol := r.url.scheme, error := "backend_initialization_failed" }, io)
      else
        (transfer world io).map fun outcome => conclude platform r world outcome.1 outcome.2

end Transfer

end ServerHost
