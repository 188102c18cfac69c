import Mathlib.Data.List.Sort
import L0vi0x.Python.FileSystem

/-! A file system given by a finite list of text files, without symbolic links. -/
namespace L0vi0x.Python

/-- A text that is read as it was written. -/
structure PlainText where
  text : String
  noReturn : '\r' ∉ text.toList

def PlainText.dumps (j : Json) : PlainText :=
  ⟨j.dumps, by simpa [Json.dumps] using Json.no_return_emit j⟩

abbrev MemoryFiles := List (Path × PlainText)

namespace MemoryFiles

def content? (files : MemoryFiles) (p : Path) : Option PlainText :=
  (files.find? fun f => f.1 = p).map (·.2)

/-- The paths of a file and of its directories that lie strictly below `p`. -/
def chain (p file : Path) : List Path :=
  (List.range (file.parts.length - p.parts.length)).map fun n =>
    ⟨file.root, file.parts.take (p.parts.length + 1 + n)⟩

/-- Everything below a path, in the order of its parts. -/
def entries (keys : List Path) (p : Path) : List Path :=
  ((keys.filter (·.isRelativeTo p)).flatMap (chain p)).dedup.insertionSort
    fun a b => a.parts ≤ b.parts

def fileSystem (files : MemoryFiles) : FileSystem where
  real p := p
  resolve p := pure p
  resolve_real := Path.pure_real
  isFileAt p := .ok (files.content? p).isSome
  existsAt p := .ok ((files.map (·.1)).any (·.isRelativeTo p))
  readAt p := match files.content? p with
    | some s => .ok (encodeUtf8 s.text)
    | none => .error ("[Errno 2] No such file or directory: '" ++ p.text ++ "'")
  walk := entries (files.map (·.1))

variable {files : MemoryFiles} {p : Path} {s : PlainText}

theorem content?_of_mem (hKeys : (files.map Prod.fst).Nodup) (h : (p, s) ∈ files) :
    files.content? p = some s := by
  induction files with
  | nil => cases h
  | cons f rest ih =>
      rw [List.map_cons, List.nodup_cons] at hKeys
      rcases List.mem_cons.mp h with rfl | h
      · simp [content?]
      · have hNe : f.1 ≠ p := by
          rintro rfl
          exact hKeys.1 (List.mem_map.mpr ⟨(f.1, s), h, rfl⟩)
        have hRest := ih hKeys.2 h
        simpa [content?, hNe] using hRest

/-- What has a content is a file. -/
theorem isFile_of_content (h : files.content? p = some s) :
    files.fileSystem.isFile p = .ok true := by
  simp only [FileSystem.isFile, fileSystem, h, FileSystem.systemCall]
  rfl

/-- A file is read as the bytes of its text. -/
theorem readBytes_of_content (h : files.content? p = some s) :
    files.fileSystem.readBytes p = .ok (encodeUtf8 s.text) := by
  simp only [FileSystem.readBytes, fileSystem, h, FileSystem.systemCall]
  rfl

/-- A file is read as its text. -/
theorem readText_of_content (h : files.content? p = some s) :
    files.fileSystem.readText p = .ok s.text := by
  simp only [FileSystem.readText, readBytes_of_content h]
  simp [bind, Except.bind, pure, Except.pure, universalNewlines_of_no_return s.noReturn]

/-- Whether a path exists is a question about the paths of the files. -/
theorem pathExists_eq (h : (files.map (·.1)).any (·.isRelativeTo p) = true) :
    files.fileSystem.pathExists p = .ok true := by
  simp only [FileSystem.pathExists, fileSystem, h, FileSystem.systemCall]
  rfl

end MemoryFiles
end L0vi0x.Python
