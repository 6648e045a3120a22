import FixtureSuite.Text.Utf8

/-!
# Why an operation on files, processes or streams failed

`Errno` holds the causes that the operating system reports, with their numbers and texts; `IoError`
adds the ones that are found before or after the system is asked. The wording of each is in
`IoError.message`, and nowhere else.
-/

namespace FixtureSuite

/-- A cause of failure that the operating system names. -/
inductive Errno where
  | notPermitted
  | notFound
  | interrupted
  | inputOutput
  | badDescriptor
  | permissionDenied
  | notDirectory
  | isDirectory
  | tooManyOpenFiles
  | noSpace
  | brokenPipe
  | nameTooLong
  | tooManyLinks
  deriving DecidableEq, Repr

namespace Errno

def all : List Errno :=
  [notPermitted, notFound, interrupted, inputOutput, badDescriptor, permissionDenied, notDirectory,
    isDirectory, tooManyOpenFiles, noSpace, brokenPipe, nameTooLong, tooManyLinks]

def code : Errno → Nat
  | notPermitted => 1
  | notFound => 2
  | interrupted => 4
  | inputOutput => 5
  | badDescriptor => 9
  | permissionDenied => 13
  | notDirectory => 20
  | isDirectory => 21
  | tooManyOpenFiles => 24
  | noSpace => 28
  | brokenPipe => 32
  | nameTooLong => 36
  | tooManyLinks => 40

def text : Errno → String
  | notPermitted => "Operation not permitted"
  | notFound => "No such file or directory"
  | interrupted => "Interrupted system call"
  | inputOutput => "Input/output error"
  | badDescriptor => "Bad file descriptor"
  | permissionDenied => "Permission denied"
  | notDirectory => "Not a directory"
  | isDirectory => "Is a directory"
  | tooManyOpenFiles => "Too many open files"
  | noSpace => "No space left on device"
  | brokenPipe => "Broken pipe"
  | nameTooLong => "File name too long"
  | tooManyLinks => "Too many levels of symbolic links"

def ofCode? (n : Nat) : Option Errno :=
  all.find? fun e => e.code == n

/-- The number tells a cause apart from all others. -/
theorem ofCode?_code (e : Errno) : ofCode? e.code = some e := by
  cases e <;> rfl

end Errno

inductive IoError where
  | os (cause : Errno)
  /-- A file name holds a NUL byte, which no file name can. -/
  | nulInFileName
  /-- A program name or an argument holds a NUL byte, which no process can be given. -/
  | nulInArgument
  | notUtf8
  | sinkFull
  /-- A sink failed to pass on what it had taken. -/
  | flushFailed
  | other (text : String)
  deriving DecidableEq, Repr

def IoError.message : IoError → String
  | .os cause => cause.text ++ " (os error " ++ toString cause.code ++ ")"
  | .nulInFileName => "file name contained an unexpected NUL byte"
  | .nulInArgument => "nul byte found in provided data"
  | .notUtf8 => "stream did not contain valid UTF-8"
  | .sinkFull => "sink is full"
  | .flushFailed => "flush failed"
  | .other text => text

end FixtureSuite
