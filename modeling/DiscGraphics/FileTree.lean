import DiscGraphics.Files
import DiscGraphics.Path

/-!
Files and directories in memory, and the devices whose storage they share. An open file leads to its
node whatever became of its name, and every step of a path but the last must be a directory.
-/
namespace DiscGraphics

/-- Overwrite what stands from a position on; a gap before it is filled with zeros. -/
def writeAt (old : ByteArray) (position : Nat) (data : ByteArray) : ByteArray :=
  if old.size = position then old ++ data
  else
    let gap : ByteArray := ⟨Array.replicate (position - old.size) 0⟩
    old.extract 0 position ++ gap ++ data ++ old.extract (position + data.size) old.size

structure FileNode where
  content : ByteArray
  mode : Nat := 0o644
  /-- Why the file takes no bytes, if it is a device that takes none. -/
  refusal : Option HostError := none

/-- What was opened: a file's node, or nothing in the case of a directory. Reading or writing goes
on at the position. -/
structure OpenFile where
  node : Option Nat
  position : Nat := 0

/-- What a name stands for: a file, by the number of its node, or a directory of further names. -/
inductive FileTree.Entry where
  | file (node : Nat)
  | directory (entries : List (String × FileTree.Entry))

namespace FileTree.Entry

/-- Give a name in a directory another meaning, or none. -/
def rename (name : String) (e : Option Entry) (entries : List (String × Entry)) :
    List (String × Entry) :=
  match e with
  | none => entries.filter fun old => old.1 != name
  | some e =>
    if (entries.lookup name).isSome then
      entries.map fun old => if old.1 == name then (name, e) else old
    else (name, e) :: entries

/-- Give the last of the names that lead down from a directory another meaning, or none. -/
def put (e : Option Entry) : List String → List (String × Entry) → List (String × Entry)
  | [], entries => entries
  | [name], entries => rename name e entries
  | name :: rest, entries =>
    match entries.lookup name with
    | some (.directory sub) => rename name (some (.directory (put e rest sub))) entries
    | _ => entries

/-- The paths of everything in a directory; a slash ends a directory's. -/
def paths (above : String) : List (String × Entry) → List String
  | [] => []
  | (name, .file _) :: rest => (above ++ name) :: paths above rest
  | (name, .directory entries) :: rest =>
    let path := above ++ name ++ "/"
    path :: paths path entries ++ paths above rest

end FileTree.Entry

/-- The names from the root to a place, the last one first, each with what it stands for. A place
may be vacant, but the names before it stand for directories. -/
abbrev FileTree.Trail := List (String × Option FileTree.Entry)

/-- Files and directories by the names that lead to them from the root. -/
structure FileTree where
  /-- Where relative paths begin. -/
  working : List String
  root : List (String × FileTree.Entry)
  nodes : Array FileNode
  handles : Array OpenFile

namespace FileTree

/-- A tree with an empty working directory. -/
def empty : FileTree := ⟨["work"], [("work", .directory [])], #[], #[]⟩

instance : Inhabited FileTree := ⟨empty⟩

def at? (t : FileTree) : Trail → Option Entry
  | [] => some (.directory t.root)
  | (_, e) :: _ => e

def put (t : FileTree) (trail : Trail) (e : Option Entry) : FileTree :=
  { t with root := Entry.put e (trail.map (·.1)).reverse t.root }

/-- The place that steps lead to from another one. -/
def walk (t : FileTree) : Trail → List String → Except HostError Trail
  | trail, [] => .ok trail
  | trail, s :: rest =>
    match t.at? trail with
    | some (.directory entries) =>
      if s = "" ∨ s = "." then t.walk trail rest
      else if s = ".." then t.walk trail.tail rest
      else if 255 < s.utf8ByteSize then .error .nameTooLong
      else t.walk ((s, entries.lookup s) :: trail) rest
    | some (.file _) => .error .notADirectory
    | none => .error .notFound

/-- The place that a path leads to. -/
def locate (t : FileTree) (path : String) : Except HostError Trail :=
  if path = "" then .error .notFound
  else if Path.hasZero path then .error .zeroInName
  else if 4095 < path.utf8ByteSize then .error .nameTooLong
  else if Path.isAbsolute path then t.walk [] (Path.split path)
  else t.walk [] (t.working ++ Path.split path)

def find (t : FileTree) (path : String) : Except HostError (Option Entry) :=
  (t.locate path).map t.at?

def node? (t : FileTree) (path : String) : Option Nat :=
  match t.find path with
  | .ok (some (.file n)) => some n
  | _ => none

def isDirectory (t : FileTree) (path : String) : Bool :=
  match t.find path with
  | .ok (some (.directory _)) => true
  | _ => false

/-- Open a file for reading. A directory can be opened, too, but not read. -/
def load (t : FileTree) (path : String) : Except HostError (Except HostError ByteArray) :=
  match t.find path with
  | .error e => .error e
  | .ok none => .error .notFound
  | .ok (some (.directory _)) => .ok (.error .isADirectory)
  | .ok (some (.file n)) =>
    match t.nodes[n]? with
    | some node => .ok (.ok node.content)
    | none => .error .notFound

/-- The node of a file that is about to be written, which is made if there is none. -/
def openForWriting (t : FileTree) (path : String) : Except HostError (Nat × FileTree) :=
  match t.locate path with
  | .error e => .error e
  | .ok trail =>
    match t.at? trail with
    | some (.directory _) => .error .isADirectory
    | some (.file n) => .ok (n, t)
    | none =>
      let n := t.nodes.size
      .ok (n, { t.put trail (some (.file n)) with nodes := t.nodes.push { content := .empty } })

/-- Empty a file that can be emptied. -/
def truncate (t : FileTree) (n : Nat) : FileTree :=
  { t with nodes := t.nodes.modify n fun node =>
      if node.refusal.isNone then { node with content := .empty } else node }

/-- Empty a file and keep it open. -/
def create (t : FileTree) (path : String) : Except HostError (FileHandle × FileTree) :=
  match t.openForWriting path with
  | .error e => .error e
  | .ok (n, t) =>
    .ok (⟨t.handles.size⟩, { t.truncate n with handles := t.handles.push ⟨some n, 0⟩ })

/-- Write to an open file where the last write ended. -/
def write (t : FileTree) (h : FileHandle) (data : ByteArray) :
    Except (HostError × Nat) Unit × FileTree :=
  match t.handles[h.number]? with
  | some ⟨some n, position⟩ =>
    match (t.nodes[n]?).bind (·.refusal) with
    | some e => (.error (e, 0), t)
    | none =>
      (.ok (), { t with
        nodes := t.nodes.modify n fun node =>
          { node with content := writeAt node.content position data }
        handles := t.handles.modify h.number fun _ => ⟨some n, position + data.size⟩ })
  | _ => (.error (.badHandle, 0), t)

/-- Replace what a file holds. -/
def store (t : FileTree) (path : String) (data : ByteArray) : Except HostError Unit × FileTree :=
  match t.create path with
  | .error e => (.error e, t)
  | .ok (h, t) =>
    match t.write h data with
    | (.error (e, _), t) => (.error e, t)
    | (.ok (), t) => (.ok (), t)

/-- Open a file for reading. A directory can be opened, too, but not read. -/
def openToRead (t : FileTree) (path : String) : Except HostError (FileHandle × FileTree) :=
  let opened (node : Option Nat) : FileHandle × FileTree :=
    (⟨t.handles.size⟩, { t with handles := t.handles.push ⟨node, 0⟩ })
  match t.find path with
  | .error e => .error e
  | .ok none => .error .notFound
  | .ok (some (.directory _)) => .ok (opened none)
  | .ok (some (.file n)) => .ok (opened (some n))

/-- Read on where the last portion ended, from the file as it is by now. -/
def readPortion (t : FileTree) (h : FileHandle) (size : Nat) :
    Except HostError (ByteArray × FileTree) :=
  match t.handles[h.number]? with
  | some ⟨some n, position⟩ =>
    let data := (t.nodes[n]?).elim .empty fun node =>
      node.content.extract position (position + size)
    .ok (data, { t with
      handles := t.handles.modify h.number fun _ => ⟨some n, position + data.size⟩ })
  | _ => .error .isADirectory

def makeDirectory (t : FileTree) (path : String) : Except HostError FileTree :=
  let trimmed := String.ofList (path.toList.reverse.dropWhile (· == '/')).reverse
  match t.locate (if trimmed = "" then path else trimmed) with
  | .error e => .error e
  | .ok trail =>
    if (t.at? trail).isSome then .error .alreadyExists
    else .ok (t.put trail (some (.directory [])))

/-- Make a directory and, as far as they are missing, those that its path leads through. -/
def makeDirectories (t : FileTree) (path : String) : Except HostError Unit × FileTree :=
  go (path.length + 1) t path
where
  /-- Each round treats a shorter path than the one before. -/
  go : Nat → FileTree → String → Except HostError Unit × FileTree
    | 0, t, _ => (.error .notFound, t)
    | fuel + 1, t, path =>
      if path = "" then (.ok (), t)
      else
        match t.makeDirectory path with
        | .ok t => (.ok (), t)
        | .error e =>
          if e = .notFound then
            match Path.parent? path with
            | none => (.error e, t)
            | some up =>
              match go fuel t up with
              | (.error e, t) => (.error e, t)
              | (.ok (), t) => lastStep t path
          else if t.isDirectory path then (.ok (), t)
          else (.error e, t)
  /-- Make the directory itself, which may have come into being with those above it. -/
  lastStep (t : FileTree) (path : String) : Except HostError Unit × FileTree :=
    match t.makeDirectory path with
    | .ok t => (.ok (), t)
    | .error e => if t.isDirectory path then (.ok (), t) else (.error e, t)

/-- Remove an empty directory, which its path must call by name. -/
def removeDirectory (t : FileTree) (path : String) : Except HostError FileTree :=
  match t.locate path with
  | .error e => .error e
  | .ok trail =>
    match ((Path.split path).filter (· != "")).getLast? with
    | some "." => .error .invalidArgument
    | some ".." => .error .notEmpty
    | _ => .ok (t.put trail none)

/-- Remove a file, or a directory with everything in it. A directory is
emptied first. If its path went through what was in it and so leads nowhere now, nothing is left to
be done, and the empty directory stays. -/
def remove (t : FileTree) (path : String) : Except HostError Unit × FileTree :=
  match t.locate path with
  | .error e => (.error e, t)
  | .ok trail =>
    match t.at? trail with
    | none => (.error .notFound, t)
    | some (.file _) => (.ok (), t.put trail none)
    | some (.directory _) =>
      let t := t.put trail (some (.directory []))
      match t.removeDirectory path with
      | .ok t => (.ok (), t)
      | .error e => (if e = .notFound then .ok () else .error e, t)

def mode? (t : FileTree) (path : String) : Option Nat :=
  ((t.node? path).bind (t.nodes[·]?)).map (·.mode)

def setMode (t : FileTree) (path : String) (mode : Nat) : Except HostError FileTree :=
  match t.find path with
  | .error e => .error e
  | .ok none => .error .notFound
  | .ok (some (.directory _)) => .ok t
  | .ok (some (.file n)) =>
    .ok { t with nodes := t.nodes.modify n fun node => { node with mode := mode } }

/-- The size of a directory is that of one block. -/
def size (t : FileTree) (path : String) : Except HostError Nat :=
  match t.load path with
  | .ok (.ok data) => .ok data.size
  | .ok (.error _) => .ok 4096
  | .error e => .error e

/-- The paths of everything below the working directory in order; a slash ends a directory's. -/
def listing (t : FileTree) : List String :=
  match t.walk [] t.working with
  | .ok ((_, some (.directory entries)) :: _) =>
    (Entry.paths "" entries).mergeSort fun a b => decide (a ≤ b)
  | _ => []

variable {m : Type → Type} [Monad m]

/-- An action that may be refused, and then leaves the tree alone. -/
def attempt {β : Type} (f : FileTree → Except HostError (β × FileTree)) :
    StateT FileTree m (Except HostError β) := fun t =>
  match f t with
  | .ok (b, t) => pure (.ok b, t)
  | .error e => pure (.error e, t)

instance : Files (StateT FileTree m) where
  load path := fun t => pure (t.load path, t)
  store path data := fun t => pure (t.store path data)
  makeDirectories path := fun t => pure (t.makeDirectories path)
  create path := attempt fun t => t.create path
  append h text := fun t => pure ((), (t.write h text.toUTF8).2)
  write h data := fun t => pure (t.write h data)
  size path := fun t => pure (t.size path, t)
  openToRead path := attempt fun t => t.openToRead path
  readPortion h size := attempt fun t => t.readPortion h size
  setMode path mode := attempt fun t => (t.setMode path mode).map ((), ·)

end FileTree
end DiscGraphics
