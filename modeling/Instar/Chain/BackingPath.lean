import Mathlib.Data.List.Infix

/-!
# Resolution of backing references

`resolveBackingPath` turns a reference read from an image into a physical path.  The reference is
untrusted, so the answer may depend on the host only inside the allowlist.  A walk looks at one name
at a time, and only at names the allowlist admits.
-/

namespace Instar.Chain

/-- The name of a file or directory. -/
abbrev Name := List Char

/-- A component of a path.  Both readers of components drop `.`, so it is not one here. -/
inductive Component where
  | parentDir
  | normal (name : Name)
  deriving DecidableEq

/-- The components of a path, from the root when it is absolute. -/
structure Spelling where
  absolute : Bool
  components : List Component
  deriving DecidableEq

/-- A path free of links: the names on the way from the root. -/
abbrev Physical := List Name

/-- A path as it was typed. -/
structure Path where
  text : List Char
  deriving DecidableEq

/-- Split at every `/`. -/
def splitSlash : List Char → List (List Char)
  | [] => [[]]
  | c :: cs =>
    if c = '/' then [] :: splitSlash cs
    else
      match splitSlash cs with
      | [] => [[c]]
      | piece :: pieces => (c :: piece) :: pieces

/-- The component a piece between two separators stands for. -/
def Component.ofPiece (piece : List Char) : Option Component :=
  if piece = [] ∨ piece = ['.'] then none
  else if piece = ['.', '.'] then some .parentDir
  else some (.normal piece)

/-- A path between its separators: `none` is a `.`, or the place behind a last `/`. -/
def Path.pieces (path : Path) : List (Option Component) :=
  (splitSlash path.text).map Component.ofPiece

/-- `Path::components`. -/
def Path.spelling (path : Path) : Spelling :=
  ⟨path.text.head? == some '/', (splitSlash path.text).filterMap Component.ofPiece⟩

namespace Spelling

/-- The spelling of a physical path. -/
def ofPhysical (names : Physical) : Spelling := ⟨true, names.map .normal⟩

/-- `Path::join`: an absolute path replaces the base. -/
def join (base path : Spelling) : Spelling :=
  if path.absolute then path else ⟨base.absolute, base.components ++ path.components⟩

/-- `Path::file_name`. -/
def fileName (path : Spelling) : Option Name :=
  match path.components.getLast? with
  | some (.normal name) => some name
  | _ => none

/-- `Path::starts_with`, which compares components. -/
def startsWith (path entry : Spelling) : Bool :=
  path.absolute == entry.absolute && entry.components.isPrefixOf path.components

/-- The text of a component. -/
def componentText : Component → List Char
  | .parentDir => ['.', '.']
  | .normal name => name

/-- `Path::display` of a path built from components. -/
def display (path : Spelling) : List Char :=
  (if path.absolute then ['/'] else []) ++
    List.intercalate ['/'] (path.components.map componentText)

/-- One component of `normalizeLexically`: a `..` drops the name before it and is clamped at the
root; a relative path keeps what it cannot resolve. -/
def normalizeStep (absolute : Bool) (out : List Component) : Component → List Component
  | .normal name => out ++ [.normal name]
  | .parentDir =>
    match out.getLast? with
    | some (.normal _) => out.dropLast
    | some .parentDir => out ++ [.parentDir]
    | none => if absolute then out else out ++ [.parentDir]

/-- Normalise a path without touching the filesystem. -/
def normalizeLexically (path : Spelling) : Spelling :=
  ⟨path.absolute, path.components.foldl (normalizeStep path.absolute) []⟩

/-- Whether a path contains `..`. -/
def hasParentDir (path : Spelling) : Bool := path.components.contains .parentDir

end Spelling

/-- `Path::parent`: the root and the empty path have none, and the parent of `.` is the empty
path. -/
def Path.parent (path : Path) : Option Spelling :=
  if path.text = [] ∨ path.spelling.absolute ∧ path.spelling.components = [] then none
  else some ⟨path.spelling.absolute, path.spelling.components.dropLast⟩

/-- `std::path::absolute`, in a process whose working directory is `cwd`. -/
def absolute (cwd : Option Physical) (path : Path) : Option Spelling :=
  if path.text = [] then none
  else if path.spelling.absolute then some path.spelling
  else cwd.map fun dir => (Spelling.ofPhysical dir).join path.spelling

/-- Every name on the way to `names` exists and is not a link. -/
def Plain (symlinkMetadata : Physical → Option Bool) (names : Physical) : Prop :=
  ∀ dir, dir <+: names → dir ≠ [] → symlinkMetadata dir = some false

/-- What a process can ask of a host.  `symlinkMetadata` says whether a file is a link, and fails on
every error alike. -/
structure HostFs (cwd : Option Physical) where
  symlinkMetadata : Physical → Option Bool
  readLink : Physical → Option Spelling
  canonicalize : Path → Option Physical

/-! ## The allowlist -/

/-- The allowlist with every entry in both of its spellings. -/
structure AllowlistForms where
  lexical : List Spelling
  canonical : List Spelling

namespace AllowlistForms

variable {cwd : Option Physical}

/-- `AllowlistForms::new`: a spelling with `..` may name another place than its entry, so only its
canonical form is kept. -/
def new (fs : HostFs cwd) (allowlist : List Path) : AllowlistForms where
  lexical := ((allowlist.filterMap (absolute cwd)).filter fun entry => !entry.hasParentDir).map
    Spelling.normalizeLexically
  canonical := (allowlist.filterMap fs.canonicalize).map Spelling.ofPhysical

variable (forms : AllowlistForms)

/-- The entries in either spelling. -/
def entries : List Spelling := forms.lexical ++ forms.canonical

/-- Whether a path is under an entry, judged from its spelling alone. -/
def lexicallyAllows (path : Spelling) : Bool :=
  path.absolute && forms.entries.any fun entry => path.normalizeLexically.startsWith entry

/-- Whether a resolution may look at a path. -/
def mayProbe (path : Spelling) : Bool :=
  forms.entries.any fun entry => path.startsWith entry || entry.startsWith path

/-- Whether a path without links is under the canonical form of an entry. -/
def physicallyAllows (path : Spelling) : Bool :=
  forms.canonical.any fun entry => path.startsWith entry

end AllowlistForms

/-! ## The walk -/

/-- How a walk ends. -/
inductive Walk where
  | found (path : Physical)
  | missing
  | escapes
  | loop
  deriving DecidableEq

/-- The most links one resolution follows. -/
def maxSymlinkHops : Nat := 40

section

variable {cwd : Option Physical} (fs : HostFs cwd) (forms : AllowlistForms)

/-- Walk the components `pending` from `physical`. A link goes to `follow` with its directory and
the components after it. -/
def walkSteps (follow : Physical → Physical → List Component → Walk) :
    List Component → Physical → Walk
  | [], physical =>
    if forms.physicallyAllows (.ofPhysical physical) then .found physical else .escapes
  | .parentDir :: pending, physical => walkSteps follow pending physical.dropLast
  | .normal name :: pending, physical =>
    let next := physical ++ [name]
    if forms.mayProbe (.ofPhysical next) then
      match fs.symlinkMetadata next with
      | none => .missing
      | some false => walkSteps follow pending next
      | some true => follow next physical pending
    else .escapes

/-- The walk with `hops` links left to follow.  A relative target continues from the directory of
the link. -/
def walkHops : Nat → List Component → Physical → Walk
  | 0 => walkSteps fs forms fun _ _ _ => .loop
  | hops + 1 => walkSteps fs forms fun next physical pending =>
    match fs.readLink next with
    | none => .missing
    | some target =>
      walkHops hops (target.components ++ pending) (if target.absolute then [] else physical)

/-- Resolve an absolute path one component at a time, looking only where the allowlist admits it. -/
def walkWithinAllowlist (path : Spelling) : Walk :=
  walkHops fs forms maxSymlinkHops path.components []

end

/-! ## Resolution -/

/-- Whether an absolute reference that cannot be used as written may be replaced by its file name
beside the image. -/
inductive FileNameFallback where
  | allowed
  | refused
  deriving DecidableEq

/-- The errors a resolution can end in. -/
inductive ChainError where
  | backingFileNotAllowed (path : Spelling) (allowed : List Path)
  | backingFileNotFound (path : Spelling)
  | pathResolutionError (message : List Char)
  deriving DecidableEq

/-- What an error prints; `debug` is how the standard library prints a list of paths. -/
def ChainError.display (debug : List Path → List Char) : ChainError → List Char
  | .backingFileNotAllowed path allowed =>
    "Backing file '".toList ++ path.display ++ "' is outside allowed paths: ".toList ++
      debug allowed
  | .backingFileNotFound path => "Backing file not found: ".toList ++ path.display
  | .pathResolutionError message => "Path resolution error: ".toList ++ message

/-- The path a reference names, built without touching the filesystem. -/
def lexicalBackingCandidate (parentDir reference : Spelling) : Spelling :=
  (parentDir.join reference).normalizeLexically

section

variable {cwd : Option Physical}

/-- The last resort of a resolution: the file name of the reference beside the image. -/
def besideImage (fs : HostFs cwd) (forms : AllowlistForms) (parentDir reference : Spelling) :
    Option Physical :=
  match reference.fileName with
  | none => none
  | some name =>
    let fallback := parentDir.join ⟨false, [.normal name]⟩
    if forms.lexicallyAllows fallback then
      match walkWithinAllowlist fs forms fallback with
      | .found resolved => some resolved
      | _ => none
    else none

/-- Resolve a reference read from `parentImage` and check it against the allowlist. -/
def resolveBackingPath (fs : HostFs cwd) (parentImage backingPath : Path)
    (allowlist extraSpellings : List Path) (fallback : FileNameFallback) :
    Except ChainError Physical :=
  let forms := AllowlistForms.new fs (allowlist ++ extraSpellings)
  match parentImage.parent with
  | none => .error (.pathResolutionError "no parent directory".toList)
  | some parentDir =>
    let reference := backingPath.spelling
    let candidate := lexicalBackingCandidate parentDir reference
    let inside := forms.lexicallyAllows candidate
    let refusal : ChainError :=
      if inside then .backingFileNotFound candidate else .backingFileNotAllowed candidate allowlist
    match if inside then walkWithinAllowlist fs forms (parentDir.join reference) else .missing with
    | .found resolved => .ok resolved
    | .escapes => .error (.backingFileNotAllowed candidate allowlist)
    | .loop => .error (.pathResolutionError
        (candidate.display ++ ": too many levels of symbolic links".toList))
    | .missing =>
      if ¬ reference.absolute ∨ fallback = .refused then .error refusal
      else
        match besideImage fs forms parentDir reference with
        | some resolved => .ok resolved
        | none => .error refusal

end

/-! ## Spellings -/

section

variable {cwd : Option Physical} {fs : HostFs cwd} {names : Physical} {name : Name}
  {allowlist : List Path}

theorem Spelling.startsWith_iff {path entry : Spelling} : path.startsWith entry = true ↔
    path.absolute = entry.absolute ∧ entry.components <+: path.components := by
  simp [Spelling.startsWith]

theorem startsWith_ofPhysical {names entry : Physical} :
    (Spelling.ofPhysical names).startsWith (.ofPhysical entry) = true ↔ entry <+: names := by
  rw [Spelling.startsWith_iff]
  refine ⟨fun ⟨_, h⟩ => ?_, fun h => ⟨rfl, h.map _⟩⟩
  obtain ⟨rest, hrest⟩ := h
  obtain ⟨front, back, rfl, hfront, -⟩ := List.map_eq_append_iff.mp hrest.symm
  have : front = entry := List.map_injective_iff.mpr (fun a b h => by cases h; rfl) hfront
  exact this ▸ List.prefix_append _ _

/-- A component list without `..` is a list of names. -/
theorem exists_names {components : List Component} (h : Component.parentDir ∉ components) :
    ∃ names : Physical, components = names.map .normal := by
  induction components with
  | nil => exact ⟨[], rfl⟩
  | cons component components ih =>
    obtain ⟨names, hnames⟩ := ih fun hmem => h (List.mem_cons_of_mem _ hmem)
    cases component with
    | parentDir => exact absurd List.mem_cons_self h
    | normal name => exact ⟨name :: names, by rw [hnames]; rfl⟩

theorem normalizeLexically_ofPhysical (names : Physical) :
    (Spelling.ofPhysical names).normalizeLexically = .ofPhysical names := by
  have hfold : ∀ out : List Component, (names.map Component.normal).foldl
      (Spelling.normalizeStep true) out = out ++ names.map .normal := by
    induction names with
    | nil => simp
    | cons name names ih =>
      intro out
      rw [List.map_cons, List.foldl_cons, ih]
      simp [Spelling.normalizeStep]
  show Spelling.mk true ((names.map Component.normal).foldl (Spelling.normalizeStep true) []) = _
  rw [hfold]
  rfl

theorem absolute_absolute {entry : Path} {spelling : Spelling}
    (h : absolute cwd entry = some spelling) : spelling.absolute = true := by
  unfold absolute at h
  split at h
  · cases h
  · split at h
    · cases h
      assumption
    · obtain ⟨dir, -, rfl⟩ := Option.map_eq_some_iff.mp h
      rename_i hrel
      rw [Spelling.join, if_neg hrel]
      rfl

/-- A lexical entry is an entry that is spelled without `..`. -/
theorem mem_lexical {entry : Spelling} (h : entry ∈ (AllowlistForms.new fs allowlist).lexical) :
    ∃ original ∈ allowlist, ∃ names, absolute cwd original = some (.ofPhysical names) ∧
      entry = .ofPhysical names := by
  obtain ⟨spelling, hmem, rfl⟩ := List.mem_map.mp h
  obtain ⟨hmem, hparent⟩ := List.mem_filter.mp hmem
  obtain ⟨original, horiginal, habs⟩ := List.mem_filterMap.mp hmem
  have hnone : Component.parentDir ∉ spelling.components := by
    simpa [Spelling.hasParentDir] using hparent
  obtain ⟨names, hnames⟩ := exists_names hnone
  have hspelling : spelling = .ofPhysical names := by
    have := absolute_absolute habs
    cases spelling
    simp_all [Spelling.ofPhysical]
  subst hspelling
  exact ⟨original, horiginal, names, habs, normalizeLexically_ofPhysical names⟩

/-! ## Plain paths -/

variable {symlinkMetadata : Physical → Option Bool}

theorem Plain.nil : Plain symlinkMetadata [] :=
  fun _ hinit hne => absurd (List.prefix_nil.mp hinit) hne

theorem Plain.of_prefix {dir : Physical} (h : Plain symlinkMetadata names) (hdir : dir <+: names) :
    Plain symlinkMetadata dir :=
  fun _ hinit hne => h _ (hinit.trans hdir) hne

theorem Plain.snoc (h : Plain symlinkMetadata names)
    (hname : symlinkMetadata (names ++ [name]) = some false) :
    Plain symlinkMetadata (names ++ [name]) := by
  intro dir hinit hne
  rcases List.prefix_concat_iff.mp hinit with rfl | hinit
  · exact hname
  · exact h dir hinit hne

/-! ## Hosts given by their files -/

/-- A host given by its files, links and directories, on which only a path without links has a
canonical form, and none that goes on from a file. -/
def HostFs.ofFiles (symlinkMetadata : Physical → Option Bool)
    (readLink : Physical → Option Spelling) (isDir : Physical → Bool) : HostFs cwd where
  symlinkMetadata
  readLink
  canonicalize path :=
    match absolute cwd path with
    | none => none
    | some spelling =>
      let names := spelling.components.filterMap fun
        | .normal name => some name
        | .parentDir => none
      if spelling = .ofPhysical names ∧
          (∀ dir ∈ names.inits, dir ≠ [] → symlinkMetadata dir = some false) ∧
          (path.pieces.getLast? = some none → isDir names = true) then some names
      else none

theorem HostFs.ofFiles_canonicalize {readLink : Physical → Option Spelling}
    {isDir : Physical → Bool} {path : Path} (habs : absolute cwd path = some (.ofPhysical names))
    (hplain : Plain symlinkMetadata names)
    (hlast : path.pieces.getLast? = some none → isDir names = true) :
    (HostFs.ofFiles symlinkMetadata readLink isDir : HostFs cwd).canonicalize path =
    some names := by
  have hnames : (names.map Component.normal).filterMap (fun
      | .normal name => some name
      | .parentDir => none) = names := by
    rw [List.filterMap_map]
    exact List.filterMap_some
  simp only [HostFs.ofFiles, habs, Spelling.ofPhysical, hnames]
  exact if_pos ⟨trivial, fun dir hdir hne => hplain dir ((List.mem_inits _ _).mp hdir) hne, hlast⟩

/-- `/d` holds the image `i`, the directory `s` with the file `b`, and a link `l` to `s`.  There may
be one `more` file, outside `/d`. -/
def linkedFiles (more : Bool) : Physical → Option Bool
  | [['d']] | [['d'], ['i']] | [['d'], ['s']] | [['d'], ['s'], ['b']] => some false
  | [['d'], ['l']] => some true
  | [['e']] => if more then some false else none
  | _ => none

/-- The directories among them. -/
def linkedDirs (path : Physical) : Bool := decide (path ∈ [[], [['d']], [['d'], ['s']]])

/-- The host with these files. -/
def linkedHost (more : Bool) : HostFs none :=
  .ofFiles (linkedFiles more)
    (fun path => if path = [['d'], ['l']] then some ⟨false, [.normal ['s']]⟩ else none) linkedDirs

/-- The path of the image. -/
def linkedImage : Path := ⟨['/', 'd', '/', 'i']⟩

end

end Instar.Chain
