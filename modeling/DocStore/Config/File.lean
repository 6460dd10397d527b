/-
Configurations in files.

An operation on files may fail when it has already changed some of them, and there is nobody who
takes that back.  So its outcome has the files as it leaves them, also when it fails.

* `Folder` — the files of a folder, by name;
* `FolderM` — the operations on them;
* `Folder.create`, `Folder.append`, `Folder.replace` — a file is written by opening it, which
  empties it, and then writing to it;
* `Config.read` — the configuration that a file holds;
* `Config.write` — writes a configuration to a file, once its text is there;
* `Config.writeDefault` — writes the default configuration, unless the file is there.
-/

import DocStore.Config.Text
import DocStore.SortedMap
import DocStore.Text.Utf8

set_option autoImplicit false

namespace DocStore

/-! ### Folders -/

/-- The files of a folder that holds no other folders. -/
structure Folder where
  /-- The bytes of the files, by name. -/
  files : SortedMap String Bytes

namespace Folder

/-- The folder without files. -/
def empty : Folder :=
  ⟨SortedMap.empty⟩

/-- Whether a name is that of a folder: the folder itself, or the one that it is in. -/
def isFolder (name : String) : Bool :=
  ["", ".", ".."].contains name

/-- Whether a name can be that of a file.  One with a slash lies in a folder inside, and there is
none. -/
def admits (name : String) : Bool :=
  !isFolder name && !name.toList.contains '/' && !name.toList.contains '\x00'

/-- The bytes of a file. -/
def bytes? (folder : Folder) (name : String) : Option Bytes :=
  folder.files.find? name

/-- The text of a file, if it is there and holds one. -/
def text? (folder : Folder) (name : String) : Option String :=
  (folder.bytes? name).bind Utf8.decode?

/-- Whether there is a file or a folder of this name. -/
def holds (folder : Folder) (name : String) : Bool :=
  isFolder name || (folder.bytes? name).isSome

/-- The folder with these bytes in a file. -/
def put (folder : Folder) (name : String) (bytes : Bytes) : Folder :=
  ⟨folder.files.insert name bytes⟩

end Folder

/-! ### Operations -/

/-- Operations on the files of a folder.  One that fails leaves the files as they are by then. -/
abbrev FolderM := EStateM Error Folder

namespace Folder

/-- Opens a file to write to it: one that is there is emptied, and one that is not is made. -/
def create (name : String) : FolderM Unit :=
  if admits name then modify (·.put name []) else throw .io

/-- Writes bytes at the end of a file. -/
def append (name : String) (bytes : Bytes) : FolderM Unit :=
  modify fun folder => folder.put name ((folder.bytes? name).getD [] ++ bytes)

/-- Writes bytes to a file, in place of what it held. -/
def replace (name : String) (bytes : Bytes) : FolderM Unit := do
  create name
  append name bytes

end Folder

/-! ### Configuration files -/

namespace Config

/-- The configuration that a file holds. -/
def read (folder : Folder) (name : String) : Except Error Config :=
  match folder.text? name with
  | some text => parse text
  | none => .error .config

/-- Writes a configuration to a file.  No file is opened before there is a text. -/
def write (config : Config) (name : String) : FolderM Unit := do
  let text ← MonadExcept.ofExcept config.text
  Folder.replace name (Utf8.encode text)

/-- Writes the default configuration to a file, unless there is something of this name. -/
def writeDefault (name : String) : FolderM Unit := do
  if !(← get).holds name then
    Folder.replace name (Utf8.encode defaultText)

end Config

end DocStore
