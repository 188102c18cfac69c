import L0vi0x.Python.JsonRoundTrip

/-! Paths and the files behind them. A path keeps the parts that `pathlib`
keeps; following symbolic links and the directory tree itself belong to the
operating system and are fields of `FileSystem`. -/
namespace L0vi0x.Python

/-- A POSIX path: its root, empty for a relative path, and its parts. -/
structure Path where
  root : String
  parts : List String
  deriving DecidableEq, Repr

/-- The pieces of a text between the slashes; `part` is the current one, reversed. -/
def splitSlash : List Char → List Char → List String
  | [], part => [String.ofList part.reverse]
  | '/' :: rest, part => String.ofList part.reverse :: splitSlash rest []
  | c :: rest, part => splitSlash rest (c :: part)

namespace Path

/-- `Path(text)`: empty parts and `.` are dropped. -/
def ofText (s : String) : Path :=
  let root := match s.toList with
    | '/' :: '/' :: '/' :: _ => "/"
    | '/' :: '/' :: _ => "//"
    | '/' :: _ => "/"
    | _ => ""
  ⟨root, (splitSlash s.toList []).filter fun part => part ≠ "" ∧ part ≠ "."⟩

def text (p : Path) : String :=
  if p.root = "" ∧ p.parts = [] then "." else p.root ++ joinText "/" p.parts

/-- `p / text`; an absolute text replaces the path. -/
def join (p : Path) (s : String) : Path :=
  let q := ofText s
  if q.root = "" then ⟨p.root, p.parts ++ q.parts⟩ else q

def under (p : Path) (parts : List String) : Path := ⟨p.root, p.parts ++ parts⟩

/-- A relative text is joined part by part. -/
theorem join_eq_under {p : Path} {s : String} {parts : List String} (h : ofText s = ⟨"", parts⟩) :
    p.join s = p.under parts := by
  simp [join, h, under]

def isRelativeTo (p base : Path) : Bool :=
  p.root = base.root && base.parts.isPrefixOf p.parts

def name (p : Path) : String := p.parts.getLast?.getD ""

def stem (p : Path) : String :=
  let cs := p.name.toList
  let suffix := cs.reverse.takeWhile (· ≠ '.')
  let base := cs.take (cs.length - (suffix.length + 1))
  if suffix.length < cs.length ∧ suffix ≠ [] ∧ base ≠ [] then String.ofList base else p.name

/-- The last suffix of the name with its dot, or the empty text. -/
def suffix (p : Path) : String := dropText p.name p.stem.toList.length

/-- What lies under a path is relative to it. -/
theorem isRelativeTo_under (p : Path) (parts : List String) :
    (p.under parts).isRelativeTo p = true := by
  simp [isRelativeTo, under]

@[simp] theorem under_under (p : Path) (xs ys : List String) :
    (p.under xs).under ys = p.under (xs ++ ys) := by
  simp [under]

end Path

inductive GlobToken
  | many
  | one
  | literal (c : Char)
  | oneOf (negated : Bool) (ranges : List (Char × Char))
  deriving DecidableEq

/-- The ranges between the brackets of a pattern. -/
def globRanges : List Char → List (Char × Char)
  | low :: '-' :: high :: rest => (low, high) :: globRanges rest
  | c :: rest => (c, c) :: globRanges rest
  | [] => []

/-- The content of a bracket up to its closing `]`, which may not come first. -/
def splitBracket (cs : List Char) : Option (List Char × List Char) :=
  match cs with
  | [] => none
  | first :: rest =>
      let inside := rest.takeWhile (· ≠ ']')
      match rest.dropWhile (· ≠ ']') with
      | [] => none
      | _ :: tail => some (first :: inside, tail)

/-- A pattern read from left to right; its length is enough fuel. -/
def globTokens : Nat → List Char → List GlobToken
  | 0, _ => []
  | _, [] => []
  | fuel + 1, '*' :: rest => .many :: globTokens fuel rest
  | fuel + 1, '?' :: rest => .one :: globTokens fuel rest
  | fuel + 1, '[' :: '!' :: rest => match splitBracket rest with
      | some (inside, tail) => .oneOf true (globRanges inside) :: globTokens fuel tail
      | none => .literal '[' :: globTokens fuel ('!' :: rest)
  | fuel + 1, '[' :: rest => match splitBracket rest with
      | some (inside, tail) => .oneOf false (globRanges inside) :: globTokens fuel tail
      | none => .literal '[' :: globTokens fuel rest
  | fuel + 1, c :: rest => .literal c :: globTokens fuel rest

def GlobToken.accepts : GlobToken → Char → Bool
  | .many, _ | .one, _ => true
  | .literal d, c => c = d
  | .oneOf negated ranges, c => (ranges.any fun r => r.1 ≤ c ∧ c ≤ r.2) != negated

def globMatches : List GlobToken → List Char → Bool
  | [], cs => cs.isEmpty
  | .many :: tokens, cs => cs.tails.any (globMatches tokens)
  | _ :: _, [] => false
  | token :: tokens, c :: cs => token.accepts c && globMatches tokens cs

def fnmatch (pattern name : String) : Bool :=
  globMatches (globTokens (pattern.toList.length + 1) pattern.toList) name.toList

/-- Where nothing is a link, a path resolves to itself. -/
theorem Path.pure_real {p q : Path} (h : (pure p : Py Path) = .ok q) : p = q :=
  Except.ok.inj h

/-- The files as the operating system shows them. `real` follows symbolic links;
`resolve` is `Path.resolve`, which may fail and otherwise agrees with `real`. What
is stored is stored under real paths, and a failing access has a message. -/
structure FileSystem where
  real : Path → Path
  resolve : Path → Py Path
  resolve_real : ∀ {p q : Path}, resolve p = .ok q → real p = q
  isFileAt : Path → Except String Bool
  existsAt : Path → Except String Bool
  readAt : Path → Except String Bytes
  walk : Path → List Path

namespace FileSystem

/-- Turn a failed system call into `OSError`. -/
def systemCall {α : Type} (result : Except String α) : Py α :=
  match result with
  | .ok a => pure a
  | .error message => raise .osError message

variable (fs : FileSystem)

def isFile (p : Path) : Py Bool := systemCall (fs.isFileAt (fs.real p))

def pathExists (p : Path) : Py Bool := systemCall (fs.existsAt (fs.real p))

def readBytes (p : Path) : Py Bytes := systemCall (fs.readAt (fs.real p))

def readText (p : Path) : Py String := do
  let raw ← fs.readBytes p
  match decodeUtf8? raw with
  | some s => pure (String.ofList (universalNewlines s.toList))
  | none => raise .unicodeDecodeError "'utf-8' codec can't decode the file"

/-- `sorted(path.rglob(pattern))`. -/
def rglob (p : Path) (pattern : String) : List Path :=
  (fs.walk p).filter fun q => fnmatch pattern q.name

/-- `sorted(path.glob(pattern))`: the entries of the directory itself. -/
def glob (p : Path) (pattern : String) : List Path :=
  (fs.rglob p pattern).filter fun q => q.parts.length = p.parts.length + 1

def edit (p : Path) (content : Bytes) : FileSystem :=
  { fs with readAt := Function.update fs.readAt (fs.real p) (.ok content) }

variable {fs}

/-- A rewritten file is seen under every path that leads to it, and no other
path sees a difference. -/
theorem readBytes_edit (p q : Path) (content : Bytes) :
    (fs.edit p content).readBytes q =
      if fs.real q = fs.real p then .ok content else fs.readBytes q := by
  by_cases h : fs.real q = fs.real p
  · simp [edit, readBytes, h, systemCall, pure, Except.pure]
  · simp [edit, readBytes, h, Function.update_of_ne]

theorem readText_edit_of_ne {p q : Path} (content : Bytes) (h : fs.real q ≠ fs.real p) :
    (fs.edit p content).readText q = fs.readText q := by
  simp [readText, readBytes_edit, h]

/-- A file that holds the canonical text of a value is read as that text. -/
theorem readText_dumps {p : Path} {j : Json}
    (h : fs.readAt (fs.real p) = .ok (encodeUtf8 j.dumps)) : fs.readText p = .ok j.dumps := by
  have hText : universalNewlines j.dumps.toList = j.dumps.toList :=
    universalNewlines_of_no_return (by simpa [Json.dumps] using Json.no_return_emit j)
  simp only [readText, readBytes, h, systemCall]
  simp [bind, Except.bind, pure, Except.pure, hText]

end FileSystem
end L0vi0x.Python
