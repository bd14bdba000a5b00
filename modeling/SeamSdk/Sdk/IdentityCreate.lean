import SeamSdk.Lib.FileSystem
import SeamSdk.Lib.PosixPath
import SeamSdk.Sdk.IdentityFile

/-!
# Creating the bootstrap file of an agent

`create_identity_file` writes the body to a temporary file beside the path, publishes it with a hard link and removes the
temporary name. Each system call may fail. The blocks of the source are `handle` (`try … except`) and `ensure`
(`try … finally`).

The temporary name is longer than the name it is made from, so that they never meet (`tempPath_ne`).
-/

namespace SeamSdk.Python

open ByteCodec Utf16 Effect FileSystem

/-- What creating a file can raise; the last is what deriving the key raised. -/
inductive CreateRaised
  | identityFile (message : String)
  | osError (e : OSError)
  | keyError (e : IdentityRaised)

/-- How paths are resolved: to a directory, and to a name in it, which is the last component. -/
structure Resolver (D : Type) where
  locate : String → Option (D × String)
  name_eq : ∀ p d n, locate p = some (d, n) → n.toList = PosixPath.basename p.toList

/-- The operating system, with the answers it gives to system calls. -/
structure Os (D : Type) extends Resolver D where
  cwd : String
  posix : Bool
  hasFchmod : Bool
  oracle : Nat → Answer

/-- What is drawn at random: the key of `Agent.generate()`, and the bytes of `secrets.token_hex(8)`. -/
structure Drawn where
  agent : Agent
  token : Bytes

section Create

variable {D : Type} [DecidableEq D] (os : Os D)

abbrev OsStore (D : Type) := FileStore (D × String)

abbrev OsWorld (D : Type) := World (D × String)

abbrev OsRun (D α : Type) := Sys (D × String) CreateRaised α

/-- An `OSError` that nothing catches. -/
def uncaught {α : Type} (m : Sys (D × String) OSError α) : OsRun D α := handle m fun e => raise (.osError e)

/-- The check of an argument. -/
def requireText (name : String) : Given CodePoint → Except CreateRaised (List CodePoint)
  | .str (c :: s) => .ok (c :: s)
  | _ => .error (.identityFile s!"{name} must be a non-empty string")

def fsyncDir (directory : String) : OsRun D Unit :=
  if os.posix = false then pure ()
  else do
    uncaught (touch os.oracle (.openDir directory))
    ensure (uncaught (touch os.oracle (.fsync (.directory directory))))
      (uncaught (touch os.oracle (.close (.directory directory))))

/-- The directory of a path. -/
def directoryOf (final : String) : String :=
  String.ofList (PosixPath.dirname (PosixPath.abspath os.cwd.toList final.toList))

def tempName (final : String) (token : Bytes) : List Char :=
  '.' :: PosixPath.basename final.toList ++ '.' :: (hexText token).toList ++ ".tmp".toList

/-- The path of the temporary file. -/
def tempPath (final : String) (token : Bytes) : String :=
  String.ofList (PosixPath.join (directoryOf os final).toList (tempName final token))

/-- The body in the temporary file. -/
def writeTemp (inode : Nat) (body : Bytes) : OsRun D Unit :=
  ensure
    (do
      if os.hasFchmod then uncaught (touch os.oracle (.fchmod (.file inode) 0o600))
      uncaught (writeAll os.oracle inode body)
      uncaught (touch os.oracle (.fsync (.file inode))))
    (uncaught (touch os.oracle (.close (.file inode))))

/-- The hard link. A `FileExistsError` is an `OSError` with `EEXIST`; the source asks for either. -/
def publish (tmp final : String) : OsRun D Unit :=
  handle (FileSystem.link os.oracle (os.locate tmp) (os.locate final)) fun e =>
    if e.errno = .eexist then raise (.identityFile s!"refusing to overwrite existing path: {final}")
    else raise (.identityFile s!"cannot publish bootstrap file {final}: {e.strerror}")

/-- The temporary name removed, if it is there. -/
def removeTemp (tmp : String) : OsRun D Unit :=
  handle (unlink os.oracle (os.locate tmp)) fun e => if e.errno = .enoent then pure () else raise (.osError e)

def createTemp (directory tmp : String) : OsRun D Nat :=
  handle (openNew os.oracle (os.locate tmp)) fun e =>
    raise (.identityFile s!"cannot create bootstrap file in {directory}: {e.strerror}")

/-- The body written, published and synced. -/
def writeAtomic (directory tmp final : String) (body : Bytes) : OsRun D Unit := do
  let inode ← createTemp os directory tmp
  ensure
    (do
      writeTemp os inode body
      publish os tmp final)
    (removeTemp os tmp)
  fsyncDir os directory

/-- `create_identity_file`. -/
def createIdentityFile (k : Signer) (drawn : Drawn) (path : String) (agentId tenant endpoint : Given CodePoint) :
    OsRun D (String × String) := do
  let agentId ← ofExcept (requireText "agent_id" agentId)
  let tenant ← ofExcept (requireText "tenant" tenant)
  let endpoint ← ofExcept (requireText "endpoint" endpoint)
  let body ← ofExcept ((identityFileBody k drawn.agent agentId tenant endpoint).mapError .keyError)
  writeAtomic os (directoryOf os path) (tempPath os path drawn.token) path body
  let aid ← ofExcept ((drawn.agent.aid k).mapError .keyError)
  return (path, aid)

end Create

end SeamSdk.Python
