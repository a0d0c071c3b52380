/-
# Theory.Io — `std::io::Error`, and a directory of files whose writes may fail

A directory is the map from file names to contents.  `write` takes the fault the
operating system injects, if any, as an argument: a failed write leaves in the
file whatever the fault says (the old content when the file could not be opened,
a part of the new content when the write stopped half-way, or nothing at all).
-/
import DnsLigase.Theory.Utf8

namespace DnsLigase.Theory.Io

open DnsLigase.Theory.Utf8

set_option autoImplicit false

/-- The kinds of `io::ErrorKind` that the modelled code builds or receives. -/
inductive ErrorKind where
  | unexpectedEof
  | invalidData
  | timedOut
  | other
  deriving DecidableEq, Repr

structure IoError where
  kind : ErrorKind
  message : String
  deriving DecidableEq, Repr

/-- File names to file contents. -/
abbrev Directory := String → Option (List UInt8)

/-- A write that failed, and the content the file has afterwards. -/
structure WriteFault where
  left : Option (List UInt8)
  error : IoError

namespace Directory

def set (dir : Directory) (name : String) (content : Option (List UInt8)) : Directory :=
  fun other => if other = name then content else dir other

@[simp] theorem set_same (dir : Directory) (name : String) (content : Option (List UInt8)) :
    dir.set name content name = content := by
  simp [set]

/-- `fs::read_to_string(..).ok()`: missing files and invalid UTF-8 both give `none`. -/
def readToString (dir : Directory) (name : String) : Option String :=
  (dir name).bind fromUtf8

/-- `fs::write`. -/
def write (dir : Directory) (name : String) (data : String) (fault : Option WriteFault) :
    Except IoError Unit × Directory :=
  match fault with
  | none => (.ok (), dir.set name (some (utf8 data)))
  | some f => (.error f.error, dir.set name f.left)

/-- `fs::remove_file`, whose result the callers here discard. -/
def remove (dir : Directory) (name : String) : Directory := dir.set name none

@[simp] theorem readToString_write (dir : Directory) (name data : String) :
    (dir.write name data none).2.readToString name = some data := by
  simp [write, readToString]

end Directory

end DnsLigase.Theory.Io
