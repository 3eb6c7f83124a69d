import AnimatedCanvas.Config.Load

/-!
A directory of files, held in memory, with the reasons that a file system gives where a path leads
to no file.
-/

namespace AnimatedCanvas

structure Directory where
  files : List (String × ByteArray)

namespace Directory

inductive Entry where
  | file (bytes : ByteArray)
  | folder
  | nothing

def isFolder : Entry → Bool
  | .folder => true
  | _ => false

/-- Whether a name leads nowhere else: it is empty, or a single point. -/
def stays (name : String) : Bool := name == "" || name == "."

def names (path : String) : List String := path.splitOn "/"

/-- The names of a file's place below the directory. -/
def placeOf (path : String) : List String := (names path).filter (!stays ·)

/-- What stands at the place with these names. The directory itself is a folder, and so is every
place on the way to a file. -/
def entry (d : Directory) (place : List String) : Entry :=
  match d.files.find? fun (path, _) => placeOf path == place with
  | some (_, bytes) => .file bytes
  | none =>
    if place.isEmpty || d.files.any fun (path, _) => place.isPrefixOf (placeOf path) then .folder
    else .nothing

def reason : Entry → String
  | .file _ => "Not a directory (os error 20)"
  | .folder => "Is a directory (os error 21)"
  | .nothing => "No such file or directory (os error 2)"

def longestName : Nat := 255

/-- Follows names from a place on; two points lead back. Outside of the directory nothing but folders
is known. -/
def follow (d : Directory) : List String → List String → Except String Entry
  | place, [] => .ok (d.entry place)
  | place, name :: rest =>
    if !isFolder (d.entry place) then .error (reason (d.entry place))
    else if stays name then follow d place rest
    else if longestName < name.utf8ByteSize then .error "File name too long (os error 36)"
    else if name != ".." then follow d (place ++ [name]) rest
    else if !place.isEmpty then follow d place.dropLast rest
    else if rest.all fun name => stays name || name == ".." then .ok .folder
    else .ok .nothing

def read (d : Directory) (path : String) : Except String ByteArray := do
  if path.toList.contains '\x00' then throw "file name contained an unexpected NUL byte"
  match ← d.follow [] (names path) with
  | .file bytes => return bytes
  | entry => throw (reason entry)

def store (d : Directory) : FileStore := d.read

end Directory
end AnimatedCanvas
