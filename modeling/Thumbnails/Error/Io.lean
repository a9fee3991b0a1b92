import Thumbnails.Text.Quoted

/-!
# Failures of the file system

A failed file operation has a kind, which decides what is done about it, and a text, which is only
shown.
-/

namespace Thumbnails

inductive IoKind where
  | notFound
  | permissionDenied
  | alreadyExists
  | isADirectory
  | notADirectory
  | directoryNotEmpty
  | resourceBusy
  | invalidFilename
  | invalidInput
  | invalidData
  | unexpectedEof
  | outOfMemory
  | other
  deriving DecidableEq, Repr

/-- The failures that the system reports by number. -/
inductive SystemFault where
  | missing
  | busy
  | occupied
  | notDirectory
  | directory
  | invalid
  | nameTooLong
  | notEmpty
  deriving DecidableEq, Repr

inductive IoError where
  | system (fault : SystemFault)
  /-- A failure that the system reported while a file was created at a path. -/
  | creating (fault : SystemFault) (path : List UInt8)
  /-- A failure that was found before the system was asked, or after it had answered. -/
  | custom (kind : IoKind) (text : String)
  deriving DecidableEq, Repr

namespace SystemFault

def kind : SystemFault → IoKind
  | missing => .notFound
  | busy => .resourceBusy
  | occupied => .alreadyExists
  | notDirectory => .notADirectory
  | directory => .isADirectory
  | invalid => .invalidInput
  | nameTooLong => .invalidFilename
  | notEmpty => .directoryNotEmpty

def number : SystemFault → Nat
  | missing => 2
  | busy => 16
  | occupied => 17
  | notDirectory => 20
  | directory => 21
  | invalid => 22
  | nameTooLong => 36
  | notEmpty => 39

def text : SystemFault → String
  | missing => "No such file or directory"
  | busy => "Device or resource busy"
  | occupied => "File exists"
  | notDirectory => "Not a directory"
  | directory => "Is a directory"
  | invalid => "Invalid argument"
  | nameTooLong => "File name too long"
  | notEmpty => "Directory not empty"

def message (fault : SystemFault) : String :=
  fault.text ++ " (os error " ++ toString fault.number ++ ")"

end SystemFault

namespace IoError

def kind : IoError → IoKind
  | system fault => fault.kind
  | creating fault _ => fault.kind
  | custom kind _ => kind

def message : IoError → String
  | system fault => fault.message
  | creating fault path => fault.message ++ " at path " ++ Quoted.ofBytes path
  | custom _ text => text

/-- A path that holds a zero byte names no file. -/
def zeroByte : IoError :=
  .custom .invalidInput "file name contained an unexpected NUL byte"

def notText : IoError :=
  .custom .invalidData "stream did not contain valid UTF-8"

end IoError

end Thumbnails
