import JobMatrix.Text.Bytes

set_option autoImplicit false

/-!
What stands in the way of a file: a text that no file can be named by, or something on the way to
the file; and texts as they pass through the system.
-/

namespace JobMatrix

inductive FileFault where
  /-- A text with a NUL in it. -/
  | nul
  /-- A text with surrogates in it that stand for no bytes. -/
  | unencodable (e : Text.EncodeError)
  /-- A name, or a whole path, that is longer than names can be. -/
  | tooLong (path : Text)
  /-- Nothing is there, not even a directory where something could be. -/
  | absent (path : Text)
  /-- A path through something that is no directory. -/
  | notDirectory (path : Text)
  deriving DecidableEq, Repr

namespace FileFault

def message : FileFault → String
  | .nul => "embedded null byte"
  | .unencodable e => e.message
  | .tooLong path => "[Errno 36] File name too long: " ++ Text.quoted path
  | .absent path => "[Errno 2] No such file or directory: " ++ Text.quoted path
  | .notDirectory path => "[Errno 20] Not a directory: " ++ Text.quoted path

def kind : FileFault → String
  | .nul => "ValueError"
  | .unencodable _ => "UnicodeEncodeError"
  | .tooLong _ => "OSError"
  | .absent _ => "FileNotFoundError"
  | .notDirectory _ => "NotADirectoryError"

end FileFault

namespace Text

/-- The bytes of a text that is handed to the system. -/
def systemBytes (t : Text) : Except FileFault (List UInt8) :=
  match t.toBytes with
  | .error e => .error (.unencodable e)
  | .ok bs => if bs.contains 0 then .error .nul else .ok bs

/-- A text as the system gives it back. -/
def settled (t : Text) : Except FileFault Text := return ofBytes (← t.systemBytes)

end Text

end JobMatrix
