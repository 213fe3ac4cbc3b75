import LogRendering.Number.Notation

/-!
# Failures of devices

The ways in which reading from a source or writing to a destination fails.  A failure
has a kind, and it describes itself by a text of its own, by what the operating system says
of it, or else by its kind.
-/

namespace LogRendering

/-- The kinds of failure of a device. -/
inductive DeviceFailureKind where
  | notFound
  | permissionDenied
  | connectionRefused
  | connectionReset
  | hostUnreachable
  | networkUnreachable
  | connectionAborted
  | notConnected
  | addressInUse
  | addressNotAvailable
  | networkDown
  | brokenPipe
  | alreadyExists
  | wouldBlock
  | notADirectory
  | isADirectory
  | directoryNotEmpty
  | readOnlyFilesystem
  | filesystemLoop
  | staleNetworkFileHandle
  | invalidInput
  | invalidData
  | timedOut
  | writeZero
  | storageFull
  | notSeekable
  | quotaExceeded
  | fileTooLarge
  | resourceBusy
  | executableFileBusy
  | deadlock
  | crossesDevices
  | tooManyLinks
  | invalidFilename
  | argumentListTooLong
  | interrupted
  | unsupported
  | unexpectedEnd
  | outOfMemory
  | inProgress
  | other
  | uncategorized
deriving DecidableEq

namespace DeviceFailureKind

/-- The list of every `DeviceFailureKind`. -/
def all : List DeviceFailureKind :=
  [notFound, permissionDenied, connectionRefused, connectionReset, hostUnreachable,
    networkUnreachable, connectionAborted, notConnected, addressInUse, addressNotAvailable,
    networkDown, brokenPipe, alreadyExists, wouldBlock, notADirectory, isADirectory,
    directoryNotEmpty, readOnlyFilesystem, filesystemLoop, staleNetworkFileHandle,
    invalidInput, invalidData, timedOut, writeZero, storageFull, notSeekable, quotaExceeded,
    fileTooLarge, resourceBusy, executableFileBusy, deadlock, crossesDevices, tooManyLinks,
    invalidFilename, argumentListTooLong, interrupted, unsupported, unexpectedEnd,
    outOfMemory, inProgress, other, uncategorized]

/-- The name of a kind, under which `ofName?` finds it. -/
def name : DeviceFailureKind → String
  | notFound => "NotFound"
  | permissionDenied => "PermissionDenied"
  | connectionRefused => "ConnectionRefused"
  | connectionReset => "ConnectionReset"
  | hostUnreachable => "HostUnreachable"
  | networkUnreachable => "NetworkUnreachable"
  | connectionAborted => "ConnectionAborted"
  | notConnected => "NotConnected"
  | addressInUse => "AddrInUse"
  | addressNotAvailable => "AddrNotAvailable"
  | networkDown => "NetworkDown"
  | brokenPipe => "BrokenPipe"
  | alreadyExists => "AlreadyExists"
  | wouldBlock => "WouldBlock"
  | notADirectory => "NotADirectory"
  | isADirectory => "IsADirectory"
  | directoryNotEmpty => "DirectoryNotEmpty"
  | readOnlyFilesystem => "ReadOnlyFilesystem"
  | filesystemLoop => "FilesystemLoop"
  | staleNetworkFileHandle => "StaleNetworkFileHandle"
  | invalidInput => "InvalidInput"
  | invalidData => "InvalidData"
  | timedOut => "TimedOut"
  | writeZero => "WriteZero"
  | storageFull => "StorageFull"
  | notSeekable => "NotSeekable"
  | quotaExceeded => "QuotaExceeded"
  | fileTooLarge => "FileTooLarge"
  | resourceBusy => "ResourceBusy"
  | executableFileBusy => "ExecutableFileBusy"
  | deadlock => "Deadlock"
  | crossesDevices => "CrossesDevices"
  | tooManyLinks => "TooManyLinks"
  | invalidFilename => "InvalidFilename"
  | argumentListTooLong => "ArgumentListTooLong"
  | interrupted => "Interrupted"
  | unsupported => "Unsupported"
  | unexpectedEnd => "UnexpectedEof"
  | outOfMemory => "OutOfMemory"
  | inProgress => "InProgress"
  | other => "Other"
  | uncategorized => "Uncategorized"

/-- The description of a kind, as `message` gives it for a failure without a text of its own. -/
def description : DeviceFailureKind → String
  | notFound => "entity not found"
  | permissionDenied => "permission denied"
  | connectionRefused => "connection refused"
  | connectionReset => "connection reset"
  | hostUnreachable => "host unreachable"
  | networkUnreachable => "network unreachable"
  | connectionAborted => "connection aborted"
  | notConnected => "not connected"
  | addressInUse => "address in use"
  | addressNotAvailable => "address not available"
  | networkDown => "network down"
  | brokenPipe => "broken pipe"
  | alreadyExists => "entity already exists"
  | wouldBlock => "operation would block"
  | notADirectory => "not a directory"
  | isADirectory => "is a directory"
  | directoryNotEmpty => "directory not empty"
  | readOnlyFilesystem => "read-only filesystem or storage medium"
  | filesystemLoop => "filesystem loop or indirection limit (e.g. symlink loop)"
  | staleNetworkFileHandle => "stale network file handle"
  | invalidInput => "invalid input parameter"
  | invalidData => "invalid data"
  | timedOut => "timed out"
  | writeZero => "write zero"
  | storageFull => "no storage space"
  | notSeekable => "seek on unseekable file"
  | quotaExceeded => "quota exceeded"
  | fileTooLarge => "file too large"
  | resourceBusy => "resource busy"
  | executableFileBusy => "executable file busy"
  | deadlock => "deadlock"
  | crossesDevices => "cross-device link or rename"
  | tooManyLinks => "too many links"
  | invalidFilename => "invalid filename"
  | argumentListTooLong => "argument list too long"
  | interrupted => "operation interrupted"
  | unsupported => "unsupported"
  | unexpectedEnd => "unexpected end of file"
  | outOfMemory => "out of memory"
  | inProgress => "in progress"
  | other => "other error"
  | uncategorized => "uncategorized error"

/-- The kind whose `name` is `s`. -/
def ofName? (s : String) : Option DeviceFailureKind :=
  all.find? (·.name = s)

/-- Every kind is found under its `name`. -/
theorem ofName?_name (kind : DeviceFailureKind) :
  ofName? kind.name = some kind
  := by
  cases kind <;> decide

end DeviceFailureKind

/-- What a `DeviceFailure` says beyond its kind. -/
inductive DeviceFailureDetail where
  /-- Nothing. -/
  | none
  /-- A text of its own. -/
  | text (s : String)
  /-- The description of an error by the operating system, and the number of that error. -/
  | system (description : String) (code : Int)
deriving DecidableEq

/-- A failure of a device: its `kind`, and its `detail`. -/
structure DeviceFailure where
  kind : DeviceFailureKind
  detail : DeviceFailureDetail
deriving DecidableEq

namespace DeviceFailure

/-- The text of a failure, by its `detail`; the `description` of its kind if it has none. -/
def message (e : DeviceFailure) : String :=
  match e.detail with
  | .none => e.kind.description
  | .text s => s
  | .system description code => description ++ " (os error " ++ integerText code ++ ")"

/-- The failure describes a blocking operation that was cut short: it is `interrupted` or
`timedOut`. -/
def isInterruption (e : DeviceFailure) : Bool :=
  e.kind = .interrupted || e.kind = .timedOut

end DeviceFailure

end LogRendering
