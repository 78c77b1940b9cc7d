import Repertory.Text.Split

/-!
# Files of a directory

A path names a file from the working directory on, or from the root on if a slash stands in front,
with slashes between its parts. Empty parts and single points in it lead nowhere else. Neither a
path nor a part of it may be too long. Outside of the working directory there is nothing but the
directories above it.
-/

namespace Repertory
namespace Cli

inductive FileFault where
  | absent
  | isDirectory
  /-- The path goes on behind a file. -/
  | notDirectory
  | tooLong
  | unreadable (message : String)

namespace FileFault

def message : FileFault → String
  | absent => "No such file or directory (os error 2)"
  | isDirectory => "Is a directory (os error 21)"
  | notDirectory => "Not a directory (os error 20)"
  | tooLong => "File name too long (os error 36)"
  | unreadable message => message

def isMissing : FileFault → Bool
  | unreadable _ => false
  | _ => true

end FileFault

structure Directory where
  location : List String
  files : List (String × String)

namespace Directory

def stays (part : List Char) : Bool := part.isEmpty || part = ['.']

def rises (part : List Char) : Bool := part = ['.', '.']

def maxPartSize : Nat := 255

def maxPathSize : Nat := 4095

/-- Follows the parts of a path, from the directory so many levels below the root on the way to the
working directory. -/
def walk (d : Directory) : Nat → List (List Char) → Except FileFault String
  | _, [] => .error .isDirectory
  | depth, part :: rest =>
    let name := String.ofList part
    if stays part then walk d depth rest
    else if rises part then walk d (depth - 1) rest
    else if maxPartSize < name.utf8ByteSize then .error .tooLong
    else
      match d.location[depth]?, d.files.lookup name with
      | some next, _ => if name = next then walk d (depth + 1) rest else .error .absent
      | none, none => .error .absent
      | none, some text => if rest.isEmpty then .ok text else .error .notDirectory

def read (d : Directory) (path : String) : Except FileFault String :=
  if maxPathSize < path.utf8ByteSize then .error .tooLong
  else
    match path.toList with
    | [] => .error .absent
    | '/' :: rest => d.walk 0 (Text.splitAt '/' rest)
    | s => d.walk d.location.length (Text.splitAt '/' s)

end Directory
end Cli
end Repertory
