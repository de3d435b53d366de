import ContractBuild.FileTree.Walk

/-! Changes to a file tree: making directories and links, writing, moving and removing. A change
that fails leaves the tree as it was, except that making a chain of directories keeps the ones
made, and that a directory that cannot be removed may have been emptied by then. -/
namespace ContractBuild.FileTree

/-- Makes one directory in a directory that is there. -/
def makeDirectory (tree : FileTree) (here : Location) (path : Path) : Except FileError FileTree :=
  match tree.find false here path with
  | .ok (.taken ..) => .error .exists
  | .ok (.free location _) => .ok (tree.set location .directory)
  | .error error => .error error

/-- Makes a directory and the ones missing above it. A directory that is there already is
success. -/
def makeDirectories (tree : FileTree) (here : Location) (path : Path) :
    Except FileError Unit × FileTree :=
  let settled (tree : FileTree) (error : FileError) : Except FileError Unit × FileTree :=
    (if tree.isDirectory here path then .ok () else .error error, tree)
  if path.text = "" then (.ok (), tree)
  else
    match tree.makeDirectory here path with
    | .ok made => (.ok (), made)
    | .error .notFound =>
      match _above : path.parent? with
      | none => (.error .notFound, tree)
      | some parent =>
        match makeDirectories tree here parent with
        | (.error error, partly) => (.error error, partly)
        | (.ok (), partly) =>
          match partly.makeDirectory here path with
          | .ok made => (.ok (), made)
          | .error error => settled partly error
    | .error error => settled tree error
termination_by path.text.toList.length
decreasing_by exact Path.parent?_shorter _above

/-- Makes a symbolic link. -/
def makeLink (tree : FileTree) (here : Location) (path target : Path) : Except FileError FileTree :=
  match tree.find false here path with
  | .ok (.taken ..) => .error .exists
  | .ok (.free location false) => .ok (tree.set location (.link target))
  | .ok (.free _ true) => .error .notFound
  | .error error => .error error

/-- Writes a file, which keeps its permission to run if it was there before. -/
def write (tree : FileTree) (here : Location) (path : Path) (content : Bytes) :
    Except FileError FileTree :=
  match tree.find true here path with
  | .ok (.taken location (.file _ executable)) => .ok (tree.set location (.file content executable))
  | .ok (.taken ..) => .error .isDirectory
  | .ok (.free location false) => .ok (tree.set location (.file content false))
  | .ok (.free _ true) => .error .isDirectory
  | .error error => .error error

/-- Gives a file the permission to run. -/
def makeExecutable (tree : FileTree) (here : Location) (path : Path) : Except FileError FileTree :=
  match tree.lookup here path with
  | .ok (location, .file content _) => .ok (tree.set location (.file content true))
  | .ok _ => .error .isDirectory
  | .error error => .error error

/-- The piece that a path ends in, slashes after it apart. The root has none. -/
def ending? (path : Path) : Option String := (path.pieces.reverse.dropWhile (· = "")).head?

/-- Whether a path ends in a step to a directory itself or its parent, or is the root. -/
def endsInStep (path : Path) : Bool :=
  match ending? path with
  | some piece => piece = "." || piece = ".."
  | none => true

/-- Whether a slash is written at the end of a path. -/
def endsInSlash (path : Path) : Bool := path.text.toList.getLast? = some '/'

/-- Moves a file to another name, in the place of a file that has the name. -/
def moveFile (tree : FileTree) (here : Location) (old new : Path) : Except FileError FileTree :=
  match tree.lookup here old with
  | .error error => .error error
  | .ok (_, .directory) => .error .isDirectory
  | .ok (source, node) =>
    match tree.find false here new with
    | .error error => .error error
    | .ok spot =>
      if endsInStep new then .error .busy
      else if endsInSlash new then .error .notDirectory
      else
        match spot with
        | .taken _ .directory => .error .isDirectory
        | .taken place _ =>
          .ok (if place = source then tree else (tree.erase source).set place node)
        | .free place _ => .ok ((tree.erase source).set place node)

/-- Removes a file or a link. -/
def removeFile (tree : FileTree) (here : Location) (path : Path) : Except FileError FileTree :=
  match tree.find false here path with
  | .ok (.taken _ .directory) => .error .isDirectory
  | .ok (.taken location _) => .ok (tree.erase location)
  | .ok (.free ..) => .error .notFound
  | .error error => .error error

/-- Why the system does not remove an empty directory that a path leads to: the path does not end in the
name that the directory has in the one above it, but in a step, or in a link to it. -/
def removalError? (tree : FileTree) (here : Location) (path : Path) : Option FileError :=
  match ending? path with
  | none => some .busy
  | some "." => some .invalid
  | some ".." => some .notEmpty
  | some _ =>
    match tree.find false here path with
    | .ok (.taken _ (.link _)) => some .notDirectory
    | _ => none

/-- Removes a directory with everything in it, or a link to one. What is in the directory goes first.
If the directory itself cannot be removed, this is a failure unless the path led through what is
gone. -/
def removeTree (tree : FileTree) (here : Location) (path : Path) : Except FileError Unit × FileTree :=
  match tree.find (endsInSlash path) here path with
  | .error error => (.error error, tree)
  | .ok (.free ..) => (.error .notFound, tree)
  | .ok (.taken _ (.file ..)) => (.error .notDirectory, tree)
  | .ok (.taken location (.link _)) => (.ok (), tree.erase location)
  | .ok (.taken location .directory) =>
    match tree.removalError? here path with
    | none => (.ok (), tree.prune location)
    | some error =>
      let emptied := tree.hollow location
      match emptied.find false here path with
      | .error .notFound => (.ok (), emptied)
      | _ => (.error error, emptied)

/-- The names in the directory that a path leads to. -/
def listDirectory (tree : FileTree) (here : Location) (path : Path) :
    Except FileError (List String) :=
  match tree.lookup here path with
  | .ok (location, .directory) => .ok (tree.children location)
  | .ok _ => .error .notDirectory
  | .error error => .error error

/-- Everything inside a location, each by the names that lead to it and marked with a slash if it is
a directory, in ascending order of these texts. -/
def listing (tree : FileTree) (location : Location) : List String :=
  let shown := tree.entries.filterMap fun (inner, node) =>
    match location.below? inner with
    | some (name :: names) =>
      let text := (Path.ofPieces (name :: names)).text
      some (if node = .directory then text ++ "/" else text)
    | _ => none
  shown.mergeSort fun a b => !(b < a)

end ContractBuild.FileTree
