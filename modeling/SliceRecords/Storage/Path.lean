import SliceRecords.Text.Trim

/-!
# Paths

Operations on the text of a path, without a look at any file. Slashes separate the parts of a path,
and a path that starts with one is absolute.
-/

namespace SliceRecords.Storage

namespace Path

/-- A path that does not depend on the working directory. -/
def isAbsolute (path : String) : Bool :=
  path.toList.head? == some '/'

/-- A path followed from a directory on. An absolute path does not need the directory. -/
def join (directory path : String) : String :=
  if isAbsolute path then path
  else if directory.isEmpty || directory.toList.getLast? == some '/' then directory ++ path
  else directory ++ "/" ++ path

/-- The part of a path up to its last slash, without the slashes at its end unless
there is nothing else. -/
def head (path : List Char) : List Char :=
  let upToSlash := Text.dropTrailing (· ≠ '/') path
  let stripped := Text.dropTrailing (· == '/') upToSlash
  if stripped.isEmpty then upToSlash else stripped

/-- The directory part of a path. -/
def directory (path : String) : String :=
  String.ofList (head path.toList)

/-- The last part of a path, not counting slashes at its end; empty if there is no other part. -/
def lastPart (path : List Char) : List Char :=
  ((path.reverse.dropWhile (· == '/')).takeWhile (· ≠ '/')).reverse

/-- The path of the directory that holds the last part of a path. -/
def parent (path : List Char) : List Char :=
  head (Text.dropTrailing (· == '/') path)

/-- One part after the other of a path from the root on, without looking: a double dot takes
back the part before it. -/
def follow (done : List String) (part : String) : List String :=
  if part = "" ∨ part = "." then done
  else if part = ".." then done.dropLast
  else done ++ [part]

/-- The absolute form of a path under a working directory. Exactly two slashes
at the start are kept. -/
def absolute (workingDirectory path : String) : String :=
  let full := join workingDirectory path
  let root := if (full.toList.takeWhile (· == '/')).length = 2 then "//" else "/"
  root ++ "/".intercalate ((Text.splitAt '/' full).foldl follow [])

/-- Dropping what stands at the end makes a list no longer. -/
theorem length_dropTrailing_le {α : Type} (p : α → Bool) (items : List α) :
    (Text.dropTrailing p items).length ≤ items.length := by
  simpa [Text.dropTrailing] using Text.length_dropWhile_le p items.reverse

/-- A path that has a last part is longer than the path of the directory that holds it. -/
theorem length_parent_lt {path : List Char} (h : (lastPart path).isEmpty = false) :
    (parent path).length < path.length := by
  unfold parent head
  unfold lastPart at h
  generalize hr : path.reverse.dropWhile (· == '/') = stem at h
  have hstem : stem.length ≤ path.length := by
    have := Text.length_dropWhile_le (· == '/') path.reverse
    rw [hr] at this
    simpa using this
  have hdrop : Text.dropTrailing (· == '/') path = stem.reverse := by
    simp [Text.dropTrailing, hr]
  cases stem with
  | nil => simp at h
  | cons c rest =>
    have hc : c ≠ '/' := by
      rintro rfl
      simp at h
    have hcut : Text.dropTrailing (fun d => decide (d ≠ '/')) (c :: rest).reverse =
        (rest.dropWhile fun d => decide (d ≠ '/')).reverse := by
      simp [Text.dropTrailing, hc]
    have h₁ := Text.length_dropWhile_le (fun d => decide (d ≠ '/')) rest
    have h₂ := length_dropTrailing_le (· == '/')
      (rest.dropWhile fun d => decide (d ≠ '/')).reverse
    rw [hdrop, hcut]
    simp only [List.length_cons, List.length_reverse] at hstem h₂
    dsimp only
    split
    · rw [List.length_reverse]
      omega
    · omega

end Path

end SliceRecords.Storage
