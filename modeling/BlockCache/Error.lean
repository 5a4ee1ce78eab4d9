import BlockCache.Text.Quoted
import BlockCache.Text.Record

namespace BlockCache

inductive IoKind
  | notFound
  | permissionDenied
  | wouldBlock
  | invalidInput
  | invalidData
  | timedOut
  | writeZero
  | interrupted
  | unexpectedEof
  | brokenPipe
  | other
deriving DecidableEq

namespace IoKind

def name : IoKind → String
  | notFound => "NotFound"
  | permissionDenied => "PermissionDenied"
  | wouldBlock => "WouldBlock"
  | invalidInput => "InvalidInput"
  | invalidData => "InvalidData"
  | timedOut => "TimedOut"
  | writeZero => "WriteZero"
  | interrupted => "Interrupted"
  | unexpectedEof => "UnexpectedEof"
  | brokenPipe => "BrokenPipe"
  | other => "Other"

def phrase : IoKind → String
  | notFound => "entity not found"
  | permissionDenied => "permission denied"
  | wouldBlock => "operation would block"
  | invalidInput => "invalid input parameter"
  | invalidData => "invalid data"
  | timedOut => "timed out"
  | writeZero => "write zero"
  | interrupted => "operation interrupted"
  | unexpectedEof => "unexpected end of file"
  | brokenPipe => "broken pipe"
  | other => "other error"

def all : List IoKind :=
  [notFound, permissionDenied, wouldBlock, invalidInput, invalidData, timedOut, writeZero, interrupted,
    unexpectedEof, brokenPipe, other]

def ofName? (name : String) : Option IoKind :=
  all.find? fun kind => kind.name = name

end IoKind

inductive IoError
  | bare (kind : IoKind)
  | custom (kind : IoKind) (text : String)
deriving DecidableEq

namespace IoError

def kind : IoError → IoKind
  | bare kind => kind
  | custom kind _ => kind

def message : IoError → String
  | bare kind => kind.phrase
  | custom _ text => text

def describe : IoError → String
  | bare kind => Text.applied "Kind" kind.name
  | custom kind text => Text.record "Custom" [("kind", kind.name), ("error", Text.quoted text)]

end IoError

inductive Error
  | interrupted
  | lockContended
  | invalidConfig (text : String)
  | io (cause : IoError)
deriving DecidableEq

namespace Error

def name : Error → String
  | interrupted => "Interrupted"
  | lockContended => "LockContended"
  | invalidConfig _ => "InvalidConfig"
  | io _ => "Io"

def message : Error → String
  | interrupted => "interrupted while waiting for a block"
  | lockContended => "a lock could not be acquired"
  | invalidConfig text => "invalid cache configuration: " ++ text
  | io cause => "unexpected io error occurred: " ++ cause.describe

def cause? : Error → Option IoError
  | io cause => some cause
  | _ => none

def describeKind : Error → String
  | interrupted => "Interrupted"
  | lockContended => "LockContended"
  | invalidConfig text => Text.applied "InvalidConfig" (Text.quoted text)
  | io cause => Text.applied "Io" cause.describe

def describe (e : Error) : String :=
  Text.record "Error" [("kind", e.describeKind)]

end Error
end BlockCache
