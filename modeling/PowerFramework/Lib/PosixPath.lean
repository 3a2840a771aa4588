import Mathlib.Data.List.DropRight
import PowerFramework.Lib.Failure
/-!
# POSIX paths

What `posixpath` and `pathlib` make of the text of a path without looking at any file.  A relative
path is completed with a working directory, given by its components.
-/

namespace PowerFramework.Lib.PosixPath

open Failure

/-- `path.split("/")` -/
def components (path : String) : List String := (path.toList.splitOn '/').map String.ofList

/-- One component after the others: a blank one and `.` stay where they are, `..` goes back. -/
def descend (done : List String) (component : String) : List String :=
  if component = "" ∨ component = "." then done
  else if component = ".." then done.dropLast
  else done ++ [component]

/-- `posixpath.abspath(path)` by its components. -/
def absolute (cwd : List String) (path : String) : List String :=
  (components path).foldl descend (if path.toList.head? = some '/' then [] else cwd)

/-- The way from one directory to another: back to where they part, and down again. -/
def between : List String → List String → List String
  | s :: start, p :: path =>
      if s = p then between start path
      else List.replicate (start.length + 1) ".." ++ p :: path
  | start, path => List.replicate start.length ".." ++ path

/-- `posixpath.relpath(path, start)` -/
def relpath (cwd : List String) (path start : String) : Except Exn String :=
  if path = "" then .error (valueError "no path specified")
  else
    let way := between (absolute cwd start) (absolute cwd path)
    .ok (if way = [] then "." else "/".intercalate way)

/-- The root of a `PurePosixPath`: two slashes are one of its own. -/
def root (path : String) : String :=
  match path.toList with
  | '/' :: '/' :: '/' :: _ => "/"
  | '/' :: '/' :: _ => "//"
  | '/' :: _ => "/"
  | _ => ""

/-- The parts of a `PurePosixPath` below its root. -/
def parts (path : String) : List String := (components path).filter fun c => c ≠ "" ∧ c ≠ "."

/-- `PurePosixPath(path).name` -/
def name (path : String) : String := (parts path).getLast?.getD ""

/-- `PurePosixPath(path).parent.as_posix()` -/
def parent (path : String) : String :=
  let text := root path ++ "/".intercalate (parts path).dropLast
  if text = "" then "." else text

/-- One component of `posixpath.normpath`: `..` goes back unless there is nothing to go back from. -/
def climb (absolute : Bool) (done : List String) (component : String) : List String :=
  if component ≠ ".." ∨ (!absolute ∧ done = []) ∨ done.getLast? = some ".." then done ++ [component]
  else done.dropLast

/-- `posixpath.normpath(path)` -/
def normpath (path : String) : String :=
  let start := root path
  let text := start ++ "/".intercalate ((parts path).foldl (climb (start ≠ "")) [])
  if text = "" then "." else text

/-- `PurePosixPath(path).stem` -/
def stem (path : String) : String :=
  let chars := (name path).toList
  let front := (chars.rdropWhile (· ≠ '.')).dropLast
  if '.' ∈ chars ∧ front ≠ [] ∧ chars.rtakeWhile (· ≠ '.') ≠ [] then String.ofList front
  else name path

/-- `PurePosixPath(path).suffix` -/
def suffix (path : String) : String :=
  let chars := (name path).toList
  let front := (chars.rdropWhile (· ≠ '.')).dropLast
  let back := chars.rtakeWhile (· ≠ '.')
  if '.' ∈ chars ∧ front ≠ [] ∧ back ≠ [] then String.ofList ('.' :: back) else ""

theorem relpath_eq_error {cwd : List String} {path start : String} {e : Exn} :
    relpath cwd path start = .error e ↔ path = "" ∧ e = valueError "no path specified" := by
  unfold relpath
  split_ifs with hpath
  · simp [hpath, eq_comm]
  · simp [hpath]

/-- The name of an entry of a directory. -/
def isName (name : String) : Bool :=
  name ≠ "" && name ≠ "." && name ≠ ".." && !name.toList.contains '/'

section
variable {names : List String} (hnames : ∀ name ∈ names, isName name = true)
include hnames

theorem components_intercalate (hne : names ≠ []) :
    components ("/".intercalate names) = names := by
  have hsplit : ("/".intercalate names).toList.splitOn '/' = names.map String.toList := by
    rw [String.toList_intercalate]
    apply List.splitOn_intercalate
    · intro chars hchars
      obtain ⟨name, hname, rfl⟩ := List.mem_map.mp hchars
      have := hnames name hname
      simp only [isName, Bool.and_eq_true] at this
      simpa using this.2
    · simpa using hne
  unfold components
  rw [hsplit, List.map_map]
  simp

theorem foldl_descend (done : List String) : names.foldl descend done = done ++ names := by
  induction names generalizing done with
  | nil => simp
  | cons name names ih =>
    rw [List.forall_mem_cons] at hnames
    have hname := hnames.1
    simp only [isName, Bool.and_eq_true, decide_eq_true_eq] at hname
    have hstep : descend done name = done ++ [name] := by
      unfold descend
      rw [if_neg (by simp [hname.1.1.1, hname.1.1.2]), if_neg hname.1.2]
    rw [List.foldl_cons, hstep, ih hnames.2, List.append_assoc, List.singleton_append]

/-- A path of names leads down from the working directory. -/
theorem absolute_intercalate (hne : names ≠ []) (cwd : List String) :
    absolute cwd ("/".intercalate names) = cwd ++ names := by
  have hstart : ("/".intercalate names).toList.head? ≠ some '/' := by
    cases names with
    | nil => exact absurd rfl hne
    | cons name rest =>
      have hname := hnames name List.mem_cons_self
      simp only [isName, Bool.and_eq_true, decide_eq_true_eq] at hname
      have hchars : name.toList ≠ [] := by simpa using hname.1.1.1
      rw [String.toList_intercalate]
      intro hhead
      have hfirst : name.toList.head? = some '/' := by
        cases rest with
        | nil => simpa using hhead
        | cons next rest =>
          rwa [List.map_cons, List.map_cons, List.intercalate_cons_cons, List.append_assoc,
            List.head?_append_of_ne_nil _ hchars] at hhead
      simp only [Bool.not_eq_true', List.contains_eq_mem, decide_eq_false_iff_not] at hname
      exact hname.2 (List.mem_of_mem_head? hfirst)
  unfold absolute
  rw [components_intercalate hnames hne, if_neg hstart, foldl_descend hnames]

end

end PowerFramework.Lib.PosixPath
