import Akkon.Cpp.String
import Akkon.ToMathlib.FileTree

/-!
# `serveStaticFile`

The static file server of `main.cpp`. The path of the request is appended to `webview` and opened
relative to the working directory, where the operating system resolves `.` and `..`. Opening a
directory for reading succeeds, and reading it gives nothing.

* `serveStaticFile_confined_iff`: the reply for a path is independent of everything outside
  `webview` exactly when the resolution of the path stays near `webview`.
-/

namespace Main

open Cpp FileTree

/-- The files of the machine and the working directory of the server. -/
structure FileSystem where
  tree : FileTree Bytes Bytes
  /-- `std::filesystem::current_path()`. -/
  cwd : List Bytes
  cwd_dir : tree.entry cwd = some .dir

/-- The components of a path given to `open`. An empty component asks for a directory, as `.`
does. -/
def components (path : Bytes) : List (Component Bytes) :=
  ((cStr path).splitOn 47).map fun name =>
    if name = [] ∨ name = lit "." then .here else if name = lit ".." then .up else .down name

/-- `std::ifstream file(path)` for a relative path, and what `file.rdbuf()` holds when it is
open. -/
def FileSystem.readFile (fs : FileSystem) (path : Bytes) : Option Bytes :=
  match fs.tree.lookup fs.cwd (components path) with
  | none => none
  | some .dir => some []
  | some (.file content) => some content

/-- `filepath` in `serveStaticFile`. -/
def staticFilePath (path : Bytes) : Bytes :=
  lit "webview" ++ if path = lit "/" then lit "/index.html" else path

/-- What `serveStaticFile` returns for a file that is not open, and for an open one. -/
def staticFileBody : Option Bytes → Bytes
  | none => lit "404 Not Found"
  | some content => content

/-- `serveStaticFile`. -/
def serveStaticFile (fs : FileSystem) (path : Bytes) : Bytes :=
  staticFileBody (fs.readFile (staticFilePath path))

/-! ## Confinement -/

/-- The directory `webview`. -/
def webviewDir (cwd : List Bytes) : List Bytes := cwd ++ [lit "webview"]

/-- Two file systems with the working directory `cwd` and the same `webview`. -/
structure SameWebview (cwd : List Bytes) (fs fs' : FileSystem) : Prop where
  cwd_left : fs.cwd = cwd
  cwd_right : fs'.cwd = cwd
  agree : AgreeUnder (webviewDir cwd) fs.tree fs'.tree

/-- The resolution of a request path only passes `webview`, what is under it and what it is
under. -/
def StaysNearWebview (cwd : List Bytes) (path : Bytes) : Prop :=
  ∀ p ∈ places cwd (components (staticFilePath path)), Near (webviewDir cwd) p

instance (cwd : List Bytes) (path : Bytes) : Decidable (StaysNearWebview cwd path) :=
  inferInstanceAs (Decidable (∀ _ ∈ _, _))

/-- The reply for a path is the same for any two file systems with the same `webview` exactly when
the path stays near `webview`. -/
theorem serveStaticFile_confined_iff (cwd : List Bytes) (path : Bytes) :
    (∀ fs fs', SameWebview cwd fs fs' → serveStaticFile fs path = serveStaticFile fs' path) ↔
      StaysNearWebview cwd path := by
  constructor
  · intro h
    by_contra hleaves
    -- one tree in which the path is a directory, one in which a place it passes is missing
    obtain ⟨t, t', hcwd, hcwd', hagree, hlookup, hlookup'⟩ :=
      @exists_lookup_ne Bytes Bytes _ _ _ hleaves
    -- a directory is read as the empty text, a missing file as the error text
    have heq := h ⟨t, cwd, hcwd⟩ ⟨t', cwd, hcwd'⟩ ⟨rfl, rfl, hagree⟩
    simp only [serveStaticFile, FileSystem.readFile, hlookup, hlookup'] at heq
    exact absurd heq (by decide)
  · rintro h ⟨t, _, hcwd⟩ ⟨t', _, hcwd'⟩ ⟨rfl, rfl, hagree⟩
    simp only [serveStaticFile, FileSystem.readFile]
    rw [lookup_eq_of_near hagree hcwd hcwd' h]

example : StaysNearWebview [lit "srv"] (lit "/css/../../webview/index.html") := by decide

example : ¬ StaysNearWebview [lit "srv"] (lit "-old/index.html") := by decide

/-! ## A path that leaves -/

/-- A server directory with an empty `webview` and the database `db/master.db`. -/
def dbTree (master : Bytes) : FileTree Bytes Bytes where
  entry p :=
    if p = [] ∨ p = [lit "webview"] ∨ p = [lit "db"] then some .dir
    else if p = [lit "db", lit "master.db"] then some (.file master)
    else none
  root_dir := rfl
  parent_dir p n hp := by
    have hcases : p = [] ∨ p = [lit "db"] := by
      by_contra hnot
      refine hp ?_
      rcases p with _ | ⟨a, _ | ⟨b, p⟩⟩ <;> simp_all
    rcases hcases with rfl | rfl
    · rfl
    · rfl
  finite := by
    refine [[], [lit "webview"], [lit "db"], [lit "db", lit "master.db"]].finite_toSet.subset ?_
    intro p hp
    by_contra hnot
    exact hp (by simp_all)

/-- The server directory as a file system whose root is the working directory. -/
def dbFileSystem (master : Bytes) : FileSystem := ⟨dbTree master, [], rfl⟩

/-- `GET /../db/master.db` returns the database. -/
theorem serveStaticFile_master_db :
    ¬ ∀ (path : Bytes) (cwd : List Bytes) (fs fs' : FileSystem), SameWebview cwd fs fs' →
      serveStaticFile fs path = serveStaticFile fs' path := by
  intro h
  have hagree : SameWebview [] (dbFileSystem (lit "A")) (dbFileSystem (lit "B")) := by
    refine ⟨rfl, rfl, fun p hp => ?_⟩
    have hdb : p ≠ [lit "db", lit "master.db"] := by
      rintro rfl
      revert hp
      decide
    simp [dbFileSystem, dbTree, hdb]
  exact absurd (h (lit "/../db/master.db") [] _ _ hagree) (by decide)

end Main
