import Resumption.Text.Quoted

/-!
# Errors of input and output

* `ErrorKind` : the kinds of error, with a name and a description each;
* `OsCode` : an error number of the operating system, its kind and its text;
* `IoError` : what a failed read or write reports; `IoError.kind`, `IoError.message` and
  `IoError.shown` read it.
-/

namespace Resumption

inductive ErrorKind where
  | notFound
  | permissionDenied
  | connectionRefused
  | connectionReset
  | hostUnreachable
  | networkUnreachable
  | connectionAborted
  | notConnected
  | addrInUse
  | addrNotAvailable
  | networkDown
  | brokenPipe
  | alreadyExists
  | wouldBlock
  | notADirectory
  | isADirectory
  | directoryNotEmpty
  | readOnlyFilesystem
  | filesystemLoop
  | staleNetworkFileHandle
  | invalidInput
  | invalidData
  | timedOut
  | writeZero
  | storageFull
  | notSeekable
  | quotaExceeded
  | fileTooLarge
  | resourceBusy
  | executableFileBusy
  | deadlock
  | crossesDevices
  | tooManyLinks
  | invalidFilename
  | argumentListTooLong
  | interrupted
  | unsupported
  | unexpectedEof
  | outOfMemory
  | inProgress
  | tooManyOpenFiles
  | inputOutputError
  | other
  | uncategorized
  deriving DecidableEq

namespace ErrorKind

/-- Every kind that can be asked for by name, with its name and its description. -/
def table : List (ErrorKind × String × String) :=
  [ (notFound, "NotFound", "entity not found"),
    (permissionDenied, "PermissionDenied", "permission denied"),
    (connectionRefused, "ConnectionRefused", "connection refused"),
    (connectionReset, "ConnectionReset", "connection reset"),
    (hostUnreachable, "HostUnreachable", "host unreachable"),
    (networkUnreachable, "NetworkUnreachable", "network unreachable"),
    (connectionAborted, "ConnectionAborted", "connection aborted"),
    (notConnected, "NotConnected", "not connected"),
    (addrInUse, "AddrInUse", "address in use"),
    (addrNotAvailable, "AddrNotAvailable", "address not available"),
    (networkDown, "NetworkDown", "network down"),
    (brokenPipe, "BrokenPipe", "broken pipe"),
    (alreadyExists, "AlreadyExists", "entity already exists"),
    (wouldBlock, "WouldBlock", "operation would block"),
    (notADirectory, "NotADirectory", "not a directory"),
    (isADirectory, "IsADirectory", "is a directory"),
    (directoryNotEmpty, "DirectoryNotEmpty", "directory not empty"),
    (readOnlyFilesystem, "ReadOnlyFilesystem", "read-only filesystem or storage medium"),
    (filesystemLoop, "FilesystemLoop", "filesystem loop or indirection limit (e.g. symlink loop)"),
    (staleNetworkFileHandle, "StaleNetworkFileHandle", "stale network file handle"),
    (invalidInput, "InvalidInput", "invalid input parameter"),
    (invalidData, "InvalidData", "invalid data"),
    (timedOut, "TimedOut", "timed out"),
    (writeZero, "WriteZero", "write zero"),
    (storageFull, "StorageFull", "no storage space"),
    (notSeekable, "NotSeekable", "seek on unseekable file"),
    (quotaExceeded, "QuotaExceeded", "quota exceeded"),
    (fileTooLarge, "FileTooLarge", "file too large"),
    (resourceBusy, "ResourceBusy", "resource busy"),
    (executableFileBusy, "ExecutableFileBusy", "executable file busy"),
    (deadlock, "Deadlock", "deadlock"),
    (crossesDevices, "CrossesDevices", "cross-device link or rename"),
    (tooManyLinks, "TooManyLinks", "too many links"),
    (invalidFilename, "InvalidFilename", "invalid filename"),
    (argumentListTooLong, "ArgumentListTooLong", "argument list too long"),
    (interrupted, "Interrupted", "operation interrupted"),
    (unsupported, "Unsupported", "unsupported"),
    (unexpectedEof, "UnexpectedEof", "unexpected end of file"),
    (outOfMemory, "OutOfMemory", "out of memory"),
    (inProgress, "InProgress", "in progress"),
    (tooManyOpenFiles, "TooManyOpenFiles", "too many open files"),
    (inputOutputError, "InputOutputError", "input/output error"),
    (other, "Other", "other error"),
    (uncategorized, "Uncategorized", "uncategorized error") ]

def row (kind : ErrorKind) : String × String :=
  ((table.find? fun entry => entry.1 = kind).map (·.2)).getD ("", "")

def name (kind : ErrorKind) : String :=
  kind.row.1

def description (kind : ErrorKind) : String :=
  kind.row.2

def ofName? (name : String) : Option ErrorKind :=
  (table.find? fun entry => entry.2.1 = name).map (·.1)

@[simp] theorem ofName?_name (kind : ErrorKind) : ofName? kind.name = some kind := by
  cases kind <;> rfl

end ErrorKind

structure OsCode where
  number : Int32
  deriving DecidableEq

namespace OsCode

/-- The known numbers, with the kind and the text of each. -/
def table : List (Int32 × ErrorKind × String) :=
  [ (0, .uncategorized, "Success"),
    (1, .permissionDenied, "Operation not permitted"),
    (2, .notFound, "No such file or directory"),
    (3, .uncategorized, "No such process"),
    (4, .interrupted, "Interrupted system call"),
    (5, .inputOutputError, "Input/output error"),
    (6, .uncategorized, "No such device or address"),
    (7, .argumentListTooLong, "Argument list too long"),
    (8, .uncategorized, "Exec format error"),
    (9, .uncategorized, "Bad file descriptor"),
    (10, .uncategorized, "No child processes"),
    (11, .wouldBlock, "Resource temporarily unavailable"),
    (12, .outOfMemory, "Cannot allocate memory"),
    (13, .permissionDenied, "Permission denied"),
    (14, .uncategorized, "Bad address"),
    (15, .uncategorized, "Block device required"),
    (16, .resourceBusy, "Device or resource busy"),
    (17, .alreadyExists, "File exists"),
    (18, .crossesDevices, "Invalid cross-device link"),
    (19, .uncategorized, "No such device"),
    (20, .notADirectory, "Not a directory"),
    (21, .isADirectory, "Is a directory"),
    (22, .invalidInput, "Invalid argument"),
    (23, .tooManyOpenFiles, "Too many open files in system"),
    (24, .tooManyOpenFiles, "Too many open files"),
    (25, .uncategorized, "Inappropriate ioctl for device"),
    (26, .executableFileBusy, "Text file busy"),
    (27, .fileTooLarge, "File too large"),
    (28, .storageFull, "No space left on device"),
    (29, .notSeekable, "Illegal seek"),
    (30, .readOnlyFilesystem, "Read-only file system"),
    (31, .tooManyLinks, "Too many links"),
    (32, .brokenPipe, "Broken pipe"),
    (33, .uncategorized, "Numerical argument out of domain"),
    (34, .uncategorized, "Numerical result out of range"),
    (35, .deadlock, "Resource deadlock avoided"),
    (36, .invalidFilename, "File name too long"),
    (37, .uncategorized, "No locks available"),
    (38, .unsupported, "Function not implemented"),
    (39, .directoryNotEmpty, "Directory not empty"),
    (40, .filesystemLoop, "Too many levels of symbolic links"),
    (42, .uncategorized, "No message of desired type"),
    (43, .uncategorized, "Identifier removed"),
    (44, .uncategorized, "Channel number out of range"),
    (45, .uncategorized, "Level 2 not synchronized"),
    (46, .uncategorized, "Level 3 halted"),
    (47, .uncategorized, "Level 3 reset"),
    (48, .uncategorized, "Link number out of range"),
    (49, .uncategorized, "Protocol driver not attached"),
    (50, .uncategorized, "No CSI structure available"),
    (51, .uncategorized, "Level 2 halted"),
    (52, .uncategorized, "Invalid exchange"),
    (53, .uncategorized, "Invalid request descriptor"),
    (54, .uncategorized, "Exchange full"),
    (55, .uncategorized, "No anode"),
    (56, .uncategorized, "Invalid request code"),
    (57, .uncategorized, "Invalid slot"),
    (59, .uncategorized, "Bad font file format"),
    (60, .uncategorized, "Device not a stream"),
    (61, .uncategorized, "No data available"),
    (62, .uncategorized, "Timer expired"),
    (63, .uncategorized, "Out of streams resources"),
    (64, .uncategorized, "Machine is not on the network"),
    (65, .uncategorized, "Package not installed"),
    (66, .uncategorized, "Object is remote"),
    (67, .uncategorized, "Link has been severed"),
    (68, .uncategorized, "Advertise error"),
    (69, .uncategorized, "Srmount error"),
    (70, .uncategorized, "Communication error on send"),
    (71, .uncategorized, "Protocol error"),
    (72, .uncategorized, "Multihop attempted"),
    (73, .uncategorized, "RFS specific error"),
    (74, .uncategorized, "Bad message"),
    (75, .uncategorized, "Value too large for defined data type"),
    (76, .uncategorized, "Name not unique on network"),
    (77, .uncategorized, "File descriptor in bad state"),
    (78, .uncategorized, "Remote address changed"),
    (79, .uncategorized, "Can not access a needed shared library"),
    (80, .uncategorized, "Accessing a corrupted shared library"),
    (81, .uncategorized, ".lib section in a.out corrupted"),
    (82, .uncategorized, "Attempting to link in too many shared libraries"),
    (83, .uncategorized, "Cannot exec a shared library directly"),
    (84, .uncategorized, "Invalid or incomplete multibyte or wide character"),
    (85, .uncategorized, "Interrupted system call should be restarted"),
    (86, .uncategorized, "Streams pipe error"),
    (87, .uncategorized, "Too many users"),
    (88, .uncategorized, "Socket operation on non-socket"),
    (89, .uncategorized, "Destination address required"),
    (90, .uncategorized, "Message too long"),
    (91, .uncategorized, "Protocol wrong type for socket"),
    (92, .uncategorized, "Protocol not available"),
    (93, .uncategorized, "Protocol not supported"),
    (94, .uncategorized, "Socket type not supported"),
    (95, .unsupported, "Operation not supported"),
    (96, .uncategorized, "Protocol family not supported"),
    (97, .uncategorized, "Address family not supported by protocol"),
    (98, .addrInUse, "Address already in use"),
    (99, .addrNotAvailable, "Cannot assign requested address"),
    (100, .networkDown, "Network is down"),
    (101, .networkUnreachable, "Network is unreachable"),
    (102, .uncategorized, "Network dropped connection on reset"),
    (103, .connectionAborted, "Software caused connection abort"),
    (104, .connectionReset, "Connection reset by peer"),
    (105, .uncategorized, "No buffer space available"),
    (106, .uncategorized, "Transport endpoint is already connected"),
    (107, .notConnected, "Transport endpoint is not connected"),
    (108, .uncategorized, "Cannot send after transport endpoint shutdown"),
    (109, .uncategorized, "Too many references: cannot splice"),
    (110, .timedOut, "Connection timed out"),
    (111, .connectionRefused, "Connection refused"),
    (112, .uncategorized, "Host is down"),
    (113, .hostUnreachable, "No route to host"),
    (114, .uncategorized, "Operation already in progress"),
    (115, .inProgress, "Operation now in progress"),
    (116, .staleNetworkFileHandle, "Stale file handle"),
    (117, .uncategorized, "Structure needs cleaning"),
    (118, .uncategorized, "Not a XENIX named type file"),
    (119, .uncategorized, "No XENIX semaphores available"),
    (120, .uncategorized, "Is a named type file"),
    (121, .uncategorized, "Remote I/O error"),
    (122, .quotaExceeded, "Disk quota exceeded"),
    (123, .uncategorized, "No medium found"),
    (124, .uncategorized, "Wrong medium type"),
    (125, .uncategorized, "Operation canceled"),
    (126, .uncategorized, "Required key not available"),
    (127, .uncategorized, "Key has expired"),
    (128, .uncategorized, "Key has been revoked"),
    (129, .uncategorized, "Key was rejected by service"),
    (130, .uncategorized, "Owner died"),
    (131, .uncategorized, "State not recoverable"),
    (132, .uncategorized, "Operation not possible due to RF-kill"),
    (133, .uncategorized, "Memory page has hardware error") ]

def row (code : OsCode) : ErrorKind × String :=
  ((table.find? fun entry => entry.1 = code.number).map (·.2)).getD
    (.uncategorized, "Unknown error " ++ toString code.number.toInt)

def kind (code : OsCode) : ErrorKind :=
  code.row.1

def text (code : OsCode) : String :=
  code.row.2

def noEntry : OsCode := ⟨2⟩

def notADirectory : OsCode := ⟨20⟩

def isADirectory : OsCode := ⟨21⟩

def nameTooLong : OsCode := ⟨36⟩

end OsCode

inductive IoError where
  /-- Nothing but a kind. -/
  | plain (kind : ErrorKind)
  /-- A kind, with a message given along. -/
  | custom (kind : ErrorKind) (message : String)
  /-- An error number of the operating system. -/
  | os (code : OsCode)
  /-- A kind, with the message that always goes with this failure. -/
  | fixed (kind : ErrorKind) (message : String)
  deriving DecidableEq

namespace IoError

def kind : IoError → ErrorKind
  | plain kind => kind
  | custom kind _ => kind
  | os code => code.kind
  | fixed kind _ => kind

def message : IoError → String
  | plain kind => kind.description
  | custom _ message => message
  | os code => code.text ++ " (os error " ++ toString code.number.toInt ++ ")"
  | fixed _ message => message

def shown : IoError → String
  | plain kind => "Kind(" ++ kind.name ++ ")"
  | custom kind message =>
    "Custom \x7b kind: " ++ kind.name ++ ", error: " ++ Text.quoted message ++ " \x7d"
  | os code =>
    "Os \x7b code: " ++ toString code.number.toInt ++ ", kind: " ++ code.kind.name ++
      ", message: " ++ Text.quoted code.text ++ " \x7d"
  | fixed kind message =>
    "Error \x7b kind: " ++ kind.name ++ ", message: " ++ Text.quoted message ++ " \x7d"

/-- Whether the operation was interrupted, so that it may simply be tried again. -/
def isInterrupted (e : IoError) : Bool :=
  e.kind = .interrupted

def invalidText : IoError :=
  .fixed .invalidData "stream did not contain valid UTF-8"

/-- The error of a write that accepted nothing. -/
def nothingWritten : IoError :=
  .fixed .writeZero "failed to write whole buffer"

def nulInPath : IoError :=
  .fixed .invalidInput "file name contained an unexpected NUL byte"

end IoError

end Resumption
