import TraceSearch.Host.File
import TraceSearch.Text.Segments

/-!
# Folders

A folder holds files by name. A path is followed from it segment by segment: the folder itself, what
it holds and the null device are known, and of all that lies elsewhere only that it is there.

Source: `load_traces_from_file` and `write_traces`; the standard library's reading and writing of
files below one folder.
-/

namespace TraceSearch.Host

/-- A folder: where it lies, and the contents of its files by their names. -/
structure Folder where
  location : String
  files : List (String × ByteArray)

/-- What a path leads to. -/
inductive Place where
  | here
  | elsewhere
  | file (name : String)
  | absent (name : String)
  | nullDevice
  | nowhere (reason : FileError)
deriving DecidableEq

namespace Folder

/-- The length in bytes that the name of a file may have. -/
def nameLimit : Nat := 255

/-- Whether a segment stays where it is: it is empty or a single point. -/
def stays (segment : List Char) : Bool := segment == [] || segment == ['.']

def named (d : Folder) (name : String) : Place :=
  if nameLimit < name.utf8ByteSize then .nowhere .nameTooLong
  else if (d.files.lookup name).isSome then .file name
  else .absent name

/-- The place that a segment leads to. Only folders lead anywhere. -/
def step (d : Folder) : Place → List Char → Place
  | .here, segment =>
    if stays segment then .here
    else if segment = ['.', '.'] then .elsewhere
    else d.named (String.ofList segment)
  | .elsewhere, segment =>
    if stays segment || segment == ['.', '.'] then .elsewhere else .nowhere .notFound
  | .absent _, _ => .nowhere .notFound
  | .file _, _ => .nowhere .notAFolder
  | .nullDevice, _ => .nowhere .notAFolder
  | .nowhere reason, _ => .nowhere reason

def follow (d : Folder) (path : String) : Place :=
  let chars := path.toList
  let base := d.location.toList
  if chars.contains '\x00' then .nowhere .badName
  else if path = "" then .nowhere .notFound
  else if path = "/dev/null" then .nullDevice
  else if path = d.location then .here
  else if (base ++ ['/']).isPrefixOf chars then
    (Text.segments (chars.drop (base.length + 1))).foldl d.step .here
  else (Text.segments chars).foldl d.step (if chars.head? = some '/' then .elsewhere else .here)

def contentOf (d : Folder) (path : String) : Except FileError ByteArray :=
  match d.follow path with
  | .here => .error .isAFolder
  | .elsewhere => .error .isAFolder
  | .absent _ => .error .notFound
  | .nullDevice => .ok ByteArray.empty
  | .nowhere reason => .error reason
  | .file name =>
    match d.files.lookup name with
    | some bytes => .ok bytes
    | none => .error .notFound

def put (d : Folder) (name : String) (bytes : ByteArray) : Folder :=
  { d with files := (name, bytes) :: d.files.filter fun f => f.1 != name }

/-- The folder after a file was stored at a path. A path that ends in a slash names a folder. -/
def store (d : Folder) (path : String) (bytes : ByteArray) : Except FileError Folder :=
  let chars := path.toList
  let bare := String.ofList (chars.reverse.dropWhile (· == '/')).reverse
  if chars.getLast? = some '/' then
    match d.follow bare with
    | .nowhere reason => .error reason
    | _ => .error .isAFolder
  else
    match d.follow path with
    | .here => .error .isAFolder
    | .elsewhere => .error .isAFolder
    | .nullDevice => .ok d
    | .nowhere reason => .error reason
    | .file name => .ok (d.put name bytes)
    | .absent name => .ok (d.put name bytes)

end Folder

end TraceSearch.Host
