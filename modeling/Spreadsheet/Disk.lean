import Spreadsheet.Files
import Spreadsheet.Text.Bytes

/-!
# Disks

A disk keeps files and directories at places, which are counted from its root. A path that does not begin
with a slash starts in the home directory. It is followed component by component, and each step needs a
directory to start from; `.` and an empty component stay there, and `..` goes to the directory above, which
for the root is the root itself.

Two devices stand among the files: the null device is empty when it is read and drops what is written to it,
and the full device has no room for anything.

What a file was last written with is what reading it gives, and writing one file leaves the others alone:
`occupant?_put` and `occupant?_put_ne`.
-/

namespace Spreadsheet

/-- A place on a disk, the names on the way to it from the root. -/
abbrev Place := List (List Char)

/-- The place that a component leads to from a directory. -/
def Place.after (place : Place) (component : List Char) : Place :=
  if component = [] ∨ component = ['.'] then place
  else if component = "..".toList then place.dropLast
  else place ++ [component]

/-- What a disk keeps at a place. -/
inductive Entry where
  | directory
  | file (bytes : ByteArray)
  | nullDevice
  | fullDevice

/-- Files and directories by their places, and the directory in which relative paths start. -/
structure Disk where
  entries : List (Place × Entry)
  home : Place

namespace Disk

/-- What stands at a place. -/
def occupant? (d : Disk) (place : Place) : Option Entry :=
  (d.entries.find? fun entry => entry.1 = place).map Prod.snd

/-- Puts something at a place, instead of what is there. -/
def put (d : Disk) (place : Place) (entry : Entry) : Disk :=
  { d with entries := (place, entry) :: d.entries.filter fun entry => entry.1 ≠ place }

/-- Whether a place is a directory. The root always is. -/
def isDirectory (d : Disk) (place : Place) : Bool :=
  place.isEmpty || d.occupant? place matches some .directory

@[simp] theorem occupant?_put (d : Disk) (place : Place) (entry : Entry) :
    (d.put place entry).occupant? place = some entry := by
  simp [put, occupant?]

theorem occupant?_put_ne (d : Disk) {place other : Place} (entry : Entry) (h : other ≠ place) :
    (d.put place entry).occupant? other = d.occupant? other := by
  rw [put, occupant?, occupant?, List.find?_cons_of_neg (by simpa using h.symm), List.find?_filter]
  congr 2
  funext entry
  by_cases same : entry.1 = other
  · simp [same, h]
  · simp [same]

/-! ### Following a path -/

/-- The most bytes that a component may have. -/
def nameLimit : Nat := 255

/-- The bound on the bytes of a whole path. -/
def pathBound : Nat := 4096

/-- Where a path starts, unless it is too long. An empty path does not leave the home directory. -/
def start (d : Disk) (p : Path) : Except FileFault Place :=
  if '\x00' ∈ p then .error .nulInName
  else if pathBound ≤ Text.byteLength p then .error .nameTooLong
  else .ok (if p.head? = some '/' then [] else d.home)

/-- Takes a step along a path. It must start from a directory. -/
def step (d : Disk) (place : Place) (component : List Char) : Except FileFault Place :=
  if d.isDirectory place then
    if nameLimit < Text.byteLength component then .error .nameTooLong
    else .ok (place.after component)
  else if (d.occupant? place).isSome then .error .notADirectory
  else .error .notFound

/-- The place that a path names, which need not hold anything. -/
def locate (d : Disk) (p : Path) : Except FileFault Place :=
  match d.start p with
  | .error fault => .error fault
  | .ok start => p.components.foldlM d.step start

/-! ### Reading -/

/-- What reading finds at a place. A device holds nothing to read. -/
def node? (d : Disk) (place : Place) : Option Node :=
  if d.isDirectory place then some .directory
  else
    (d.occupant? place).map fun entry =>
      match entry with
      | .directory => .directory
      | .file bytes => .file bytes
      | .nullDevice | .fullDevice => .file ByteArray.empty

/-- What is found on the disk under each path. -/
def files (d : Disk) : Files where
  find p :=
    match d.locate p with
    | .error fault => .error fault
    | .ok place =>
      match d.node? place with
      | some node => .ok node
      | none => .error .notFound

/-! ### Writing -/

/-- The place of the file that a path names for writing. The last component must be a name without a slash
behind it; the file may be new, its directory may not. -/
def target (d : Disk) (p : Path) : Except FileFault Place :=
  match d.start p, p.splitLast? with
  | .error fault, _ => .error fault
  | .ok _, none => .error .isADirectory
  | .ok start, some (before, last, slash) =>
    match before.foldlM d.step start with
    | .error fault => .error fault
    | .ok parent =>
      if d.isDirectory parent ∧ (slash ∨ last = ['.'] ∨ last = "..".toList) then .error .isADirectory
      else d.step parent last

/-- The disk after a text has been written to a file. -/
def write (d : Disk) (p : Path) (text : List Char) : Except FileFault Disk :=
  match d.target p with
  | .error fault => .error fault
  | .ok place =>
    if d.isDirectory place then .error .isADirectory
    else
      match d.occupant? place with
      | some .nullDevice => .ok d
      | some .fullDevice => .error .noSpace
      | _ => .ok (d.put place (.file (String.ofList text).toUTF8))

/-! ### Setting up -/

/-- The names of the directories that are found in the root. -/
def rootDirectories : List (List Char) :=
  ["bin".toList, "boot".toList, "dev".toList, "etc".toList, "home".toList, "lib".toList,
    "media".toList, "mnt".toList, "opt".toList, "proc".toList, "root".toList, "run".toList,
    "sbin".toList, "srv".toList, "sys".toList, "tmp".toList, "usr".toList, "var".toList]

/-- A disk with the usual directories and devices and an empty home directory. Nothing is typed in, so that
the standard input is empty as well. -/
def standard : Disk :=
  let dev := "dev".toList
  let home := ["home".toList, "user".toList]
  { home
    entries :=
      rootDirectories.map (fun name => ([name], .directory)) ++
        [(home, .directory), ([dev, "null".toList], .nullDevice),
          ([dev, "stdin".toList], .nullDevice), ([dev, "full".toList], .fullDevice)] }

/-- Puts a file under a path that starts in the home directory, and makes the directories on the way. -/
def install (d : Disk) (p : Path) (bytes : ByteArray) : Disk :=
  let (d, place) := p.components.foldl
    (fun (d, place) component => (d.put place .directory, place.after component)) (d, d.home)
  d.put place (.file bytes)

/-- A file cannot be written under its name with a slash behind it, even if nothing is there. -/
example : standard.target "a/".toList = .error .isADirectory := by
  cbv

/-- It cannot be read under such a name either, but for another reason. -/
example : (standard.install "b/./a".toList ByteArray.empty).locate "b//a/".toList =
    .error .notADirectory := by
  cbv

/-- The root is above itself. -/
example : (standard.locate "../../../tmp".toList).toOption = some ["tmp".toList] := by
  decide +kernel

end Disk

end Spreadsheet
