import CertKeeper.CommandLine.Call
import Std.Time.DateTime.Timestamp

/-!
# The program

Answers what commands ask from the machine: its disk, its clock and its source of random octets. The
outer layer of the library; everything that is decided is decided elsewhere.
-/

namespace CertKeeper.Machine

/-! ## The disk -/

/-- The number by which the system names an error. -/
def errorNumber (e : IO.Error) : Option UInt32 :=
  match e with
  | .alreadyExists _ n _ | .noFileOrDirectory _ n _ | .invalidArgument _ n _
  | .permissionDenied _ n _ | .resourceExhausted _ n _ | .inappropriateType _ n _
  | .noSuchThing _ n _ => some n
  | .otherError n _ | .resourceBusy n _ | .unsatisfiedConstraints n _ => some n
  | _ => none

/-- The kinds of errors that the library knows. -/
def errorKinds : List Disk.ErrorKind :=
  [.noEntry, .exists, .notDirectory, .isDirectory, .nameTooLong, .notEmpty]

/-- An error of the system as a failure of a request; some of the system's numbers are negative. -/
def failureOf (q : Disk.Request) (e : IO.Error) : Failure :=
  let number := (errorNumber e).map fun n => if n < 0x80000000 then n.toNat else (0 - n).toNat
  match errorKinds.find? fun kind => some kind.wording.1 = number with
  | some kind => .disk ⟨kind, q.paths.1, q.paths.2⟩
  | none => .external .system (toString e)

/-- The names from a directory to everything below it, contents before directories. -/
partial def contents (directory : Disk.Path) : IO (List (List String × Disk.Kind)) := do
  let here := (← IO.currentDir) / directory.text
  let items ← (← here.readDir).toList.mapM fun entry => do
    let kind := (← entry.path.symlinkMetadata).type
    if kind == .dir then
      let inner ← contents (directory.append [entry.fileName])
      return inner.map (fun i => (entry.fileName :: i.1, i.2)) ++ [([entry.fileName], .directory)]
    else return [([entry.fileName], .file)]
  return items.flatten

/-- The answer to a request. -/
def answerDisk : (q : Disk.Request) → IO q.Result
  | .probe p => do
    let info ← ((← IO.currentDir) / p.text).metadata
    return if info.type == .dir then .directory else .file
  | .list p => do
    let entries ← ((← IO.currentDir) / p.text).readDir
    return entries.toList.map fun e => e.fileName
  | .read p => do return (← IO.FS.readBinFile p.text).data.toList
  | .write _ p content => IO.FS.writeBinFile p.text ⟨content.toArray⟩
  | .makeDirectory p => IO.FS.createDir p.text
  | .removeFile p => IO.FS.removeFile p.text
  | .removeDirectory p => IO.FS.removeDir p.text
  | .rename source target => IO.FS.rename source.text target.text
  | .contents p => contents p

/-- The answer to a request, or why there is none. -/
def tryDisk (q : Disk.Request) : IO (Except Failure q.Result) := do
  if q.paths.1.text.toList.contains '\x00' then
    return .error (.disk ⟨.embeddedNull, q.paths.1, q.paths.2⟩)
  try return .ok (← answerDisk q)
  catch e => return .error (failureOf q e)

/-! ## Keys and times -/

/-- A number of random octets as a number. -/
def randomNumber (octets : Nat) : IO Nat := do
  return Bytes.toNat (← IO.getRandomBytes (USize.ofNat octets)).data.toList

/-- Odd numbers that few composite numbers have no factor with. -/
def smallFactors : List Nat := (List.range 2000).filter fun n => 3 ≤ n && Crypto.isPrime n

/-- A random prime with a number of bits, of which the two highest are set, to whose predecessor an
exponent is prime. -/
partial def randomPrime (bits exponent : Nat) : IO Nat := do
  let low := (← randomNumber ((bits + 7) / 8)) % Nat.pow 2 (bits - 2)
  let candidate := 3 * Nat.pow 2 (bits - 2) + low / 2 * 2 + 1
  if smallFactors.all (candidate % · != 0) && (candidate - 1) % exponent != 0 &&
      Crypto.isPrime candidate then
    return candidate
  else randomPrime bits exponent

/-- A new key; none where the number of bits does not fit a signed machine word of 32 bits. -/
partial def randomKey (exponent : Nat) (bits : Int) : IO Crypto.Rsa.PrivateKey := do
  if 2147483648 ≤ bits then return Signing.noKey
  let p ← randomPrime ((bits.toNat + 1) / 2) exponent
  let q ← randomPrime (bits.toNat / 2) exponent
  if p = q then randomKey exponent bits else return .ofPrimes p q exponent

/-- Days from the start of year 1 to the start of 1970. -/
def daysBeforeEpoch : Nat := 719162

/-- The current time. -/
def now : IO Moment := do
  let nanoseconds := (← Std.Time.Timestamp.now).toNanosecondsSinceUnixEpoch.val
  let wall := daysBeforeEpoch * 86400000000 + nanoseconds / 1000
  return (Moment.ofWall? wall (some 0)).toOption.getD .first

/-- The answer to a request of an authority. There are no signers outside the library here. -/
def answerSigning : (q : Signing.Request) → IO q.Result
  | .clock => now
  | .drawKey exponent bits => randomKey exponent bits
  | .drawSerial => do
    let serial : Int := (← randomNumber 20) / 2
    return serial
  | .consultIssue _ _ => return .error (.external .runtime "there is no other signer")
  | .consultValidate _ _ _ => return .error (.external .runtime "there is no other signer")

/-! ## Calls -/

/-- The answer to a request of a command. -/
def answer : (q : Shell.Request) → IO q.Result
  | .print text => do
    IO.print text
    (← IO.getStdout).flush
  | .disk q => tryDisk q
  | .store s q => (s.answer q).perform tryDisk
  | .signing q => answerSigning q

/-- The octets of a file; none if there is no such file. -/
def fileOctets (path : String) : IO Bytes := do
  try return (← IO.FS.readBinFile path).data.toList
  catch _ => return []

/-- The variables of the environment. -/
def environment : IO (Entries String String) := do
  let octets ← IO.FS.readBinFile "/proc/self/environ"
  let entries := (octets.data.toList.splitOn 0).filterMap Text.Utf8.decode?
  return Entries.ofList (entries.filterMap fun entry =>
    match entry.toList.dropWhile (· ≠ '=') with
    | _ :: value =>
      some (String.ofList (entry.toList.takeWhile (· ≠ '=')), String.ofList value)
    | [] => none)

/-- The name of the machine. -/
def host : IO String := do
  let name := (Text.Utf8.decode? (← fileOctets "/proc/sys/kernel/hostname")).getD ""
  let trimmed := String.ofList (Text.trim Text.isBlank name.toList)
  return if trimmed.isEmpty then "localhost" else trimmed

/-- The cells of a line where the environment does not tell. -/
def defaultColumns : Nat := 80

/-- How the program is called on this machine. -/
def context : IO CommandLine.Context := do
  let environment ← environment
  let columns := ((environment.get? "COLUMNS").bind Text.readInteger?).map Int.toNat
  return ⟨"tls-reconciler", columns.getD defaultColumns, environment, ← fileOctets ".env", ← host⟩

end CertKeeper.Machine

open CertKeeper in
/-- Carries out the command that the words of the call name. -/
def main (words : List String) : IO UInt32 := do
  let call := ((← Machine.context).call words).run
  match ← call.perform Machine.answer with
  | .error e =>
    IO.eprintln e.message
    return 1
  | .ok ending =>
    match ending with
    | .help => IO.print CommandLine.helpText
    | .bare => IO.eprint CommandLine.helpText
    | .refused e => IO.eprintln ("Error: " ++ e.message)
    | .finished _ => pure ()
    return UInt32.ofNat ending.status
