import TapeSalvage.Bytes
import TapeSalvage.Command.Failure

/-!
The files that commands read and write. A path is taken apart at its slashes and followed from
folder to folder; two dots lead to the folder above, and above the root is the root. Files can be
read and written in the current folder, in those above it, and in the other folders that are
known.
-/
namespace TapeSalvage.Command

/-- A folder: the names that lead to it from the root or from the current folder, the last one
first. Each step up from the current folder has the name of two dots. -/
structure Folder where
  isAbsolute : Bool
  names : List String
  deriving DecidableEq

namespace Folder

def start (path : String) : Folder := ⟨path.toList.head? = some '/', []⟩

def inner (folder : Folder) (name : String) : Folder :=
  { folder with names := name :: folder.names }

def above (folder : Folder) : Folder :=
  match folder.names with
  | [] => if folder.isAbsolute then folder else folder.inner ".."
  | ".." :: _ => folder.inner ".."
  | _ :: outer => { folder with names := outer }

/-- Where one part of a path leads, if every name is taken for a folder. -/
def step (folder : Folder) (part : String) : Folder :=
  if part = "." then folder else if part = ".." then folder.above else folder.inner part

/-- The path in its plain form; the current folder has the empty one. -/
def plain (folder : Folder) : String :=
  (if folder.isAbsolute then "/" else "") ++ "/".intercalate folder.names.reverse

end Folder

def pathParts (path : String) : List String :=
  ((path.toList.splitOnP (· == '/')).filter (· != [])).map String.ofList

inductive Place where
  | file (name : String)
  /-- A name with a slash behind it that no folder has. -/
  | slashed (name : String)
  | folder
  | nowhere
  /-- The path goes on behind a file. -/
  | beyondFile
  deriving DecidableEq

/-- Files by their plain paths, each once, and the known folders besides the current one, those
above it, and the root. -/
structure Store where
  files : List (String × Bytes)
  folders : List String
  deriving DecidableEq

namespace Store

def get? (store : Store) (name : String) : Option Bytes := store.files.lookup name

def isFolder (store : Store) (folder : Folder) : Bool :=
  folder.names.all (· == "..") || store.folders.contains folder.plain

def enter (store : Store) (folder : Folder) (part : String) : Except Place Folder :=
  let next := folder.step part
  if store.isFolder next then .ok next
  else if (store.get? next.plain).isSome then .error .beyondFile
  else .error .nowhere

def placeIn (store : Store) (path : String) (folder : Folder) (last : String) : Place :=
  let next := folder.step last
  if store.isFolder next then .folder
  else if path.toList.getLast? = some '/' then .slashed next.plain
  else .file next.plain

def place (store : Store) (path : String) : Place :=
  let parts := pathParts path
  match parts.getLast?, parts.dropLast.foldlM store.enter (Folder.start path) with
  | none, _ => if path = "" then .nowhere else .folder
  | some _, .error place => place
  | some last, .ok folder => store.placeIn path folder last

/-- Puts a file in the place of an older one of that name, or behind the others. -/
def put (store : Store) (name : String) (data : Bytes) : Store :=
  if (store.get? name).isSome then
    { store with
      files := store.files.map fun file => if file.1 == name then (name, data) else file }
  else { store with files := store.files ++ [(name, data)] }

theorem lookup_replace (files : List (String × Bytes)) (name : String) (data : Bytes)
    (hfound : (files.lookup name).isSome) :
    (files.map fun file => if file.1 == name then (name, data) else file).lookup name =
      some data := by
  induction files with
  | nil => simp at hfound
  | cons file rest ih =>
    obtain ⟨other, old⟩ := file
    by_cases hsame : other = name
    · simp [hsame]
    · have hdiffer : (name == other) = false := by simpa using Ne.symm hsame
      rw [List.lookup_cons, hdiffer] at hfound
      simp only [List.map_cons, beq_iff_eq, hsame, if_false, List.lookup_cons, hdiffer]
      simpa using ih hfound

theorem get?_put_self (store : Store) (name : String) (data : Bytes) :
    (store.put name data).get? name = some data := by
  rw [Store.put]
  split
  · rename_i hfound
    exact lookup_replace store.files name data hfound
  · rename_i habsent
    have hmissing : store.files.lookup name = none := Option.not_isSome_iff_eq_none.mp habsent
    simp [Store.get?, List.lookup_append, hmissing]

theorem get?_put_of_ne (store : Store) {name other : String} (data : Bytes)
    (hne : other ≠ name) : (store.put name data).get? other = store.get? other := by
  have hapart : (other == name) = false := by simpa using hne
  rw [Store.put]
  split
  · simp only [Store.get?]
    induction store.files with
    | nil => rfl
    | cons file rest ih =>
      obtain ⟨first, old⟩ := file
      by_cases hsame : first = name
      · subst hsame
        simpa [List.lookup_cons, hapart] using ih
      · simp only [beq_iff_eq] at ih
        simp [List.lookup_cons, hsame, ih]
  · simp [Store.get?, List.lookup_append, List.lookup_cons, hapart]

def read (store : Store) (path : String) : Except Failure Bytes :=
  match store.place path with
  | .nowhere => .error .fileMissing
  | .beyondFile => .error .noFolder
  | .folder => .error .isFolder
  | .slashed name => .error (if (store.get? name).isSome then .noFolder else .fileMissing)
  | .file name =>
    match store.get? name with
    | some data => .ok data
    | none => .error .fileMissing

/-- Writes the file at a path. A slash behind its name asks for a folder. -/
def write (store : Store) (path : String) (data : Bytes) : Except Failure Store :=
  match store.place path with
  | .nowhere => .error .fileMissing
  | .beyondFile => .error .noFolder
  | .folder | .slashed _ => .error .isFolder
  | .file name => .ok (store.put name data)

end Store

end TapeSalvage.Command
