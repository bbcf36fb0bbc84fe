import Instar.Chain.Kernel

/-!
# A resolution as a whole

The answer of `resolveBackingPath` depends on the host only inside the allowlist: two hosts that
agree there give the same answer (`resolveBackingPath_noninterference_iff`).  What it answers has no
links and is inside.  It is where the kernel gets with the reference as written unless the reference
goes on from a file.
-/

namespace Instar.Chain

/-- The paths the answer may depend on: those under the canonical form of an entry, and the
directories leading to an entry. -/
def Observable (forms : AllowlistForms) (path : Physical) : Prop :=
  (∃ entry ∈ forms.canonical, (Spelling.ofPhysical path).startsWith entry) ∨
    ∃ entry ∈ forms.entries, entry.startsWith (.ofPhysical path)

/-- A path without links and without `..` is its own canonical form, unless it goes on from a file
with a last `/` or `.`. -/
def Kernel.Canonical {cwd : Option Physical} {fs : HostFs cwd} (k : Kernel fs) : Prop :=
  ∀ path names, absolute cwd path = some (.ofPhysical names) → Plain fs.symlinkMetadata names →
    (path.pieces.getLast? = some none → k.isDir names = true) → fs.canonicalize path = some names

section

variable {cwd : Option Physical} {fs fs1 fs2 : HostFs cwd} {forms : AllowlistForms}
  {names physical path : Physical} {name : Name} {pending : List Component} {allowlist : List Path}

/-! ## Two hosts -/

/-- Two hosts that agree on the observable paths. -/
structure Agree (fs1 fs2 : HostFs cwd) (forms : AllowlistForms) : Prop where
  symlinkMetadata : ∀ path, Observable forms path →
    fs1.symlinkMetadata path = fs2.symlinkMetadata path
  readLink : ∀ path, Observable forms path → fs1.readLink path = fs2.readLink path

/-- Two hosts whose kernels know canonical forms, with the same ones for the allowlist, and that
agree on what is observable. -/
structure Alike (k1 : Kernel fs1) (k2 : Kernel fs2) (allowlist : List Path) : Prop where
  first : k1.Canonical
  second : k2.Canonical
  canonical : ∀ entry ∈ allowlist, fs1.canonicalize entry = fs2.canonicalize entry
  agree : Agree fs1 fs2 (.new fs1 allowlist)

theorem mem_canonical {original : Path} (hmem : original ∈ allowlist)
    (hcanonical : fs.canonicalize original = some names) :
    .ofPhysical names ∈ (AllowlistForms.new fs allowlist).canonical :=
  List.mem_map.mpr ⟨names, List.mem_filterMap.mpr ⟨original, hmem, hcanonical⟩, rfl⟩

variable {k1 : Kernel fs1} {k2 : Kernel fs2} (halike : Alike k1 k2 allowlist)

include halike

/-- Nothing is below a path that is not its own canonical form although it has no links and no `..`:
it is spelled as a directory and is none. -/
theorem nothing_below {original : Path} (name : Name) (horiginal : original ∈ allowlist)
    (habs : absolute cwd original = some (.ofPhysical names))
    (hlexical : .ofPhysical names ∈ (AllowlistForms.new fs1 allowlist).lexical)
    (hplain : Plain fs1.symlinkMetadata names) (hnot : fs1.canonicalize original ≠ some names) :
    fs1.symlinkMetadata (names ++ [name]) = none ∧
    fs2.symlinkMetadata (names ++ [name]) = none := by
  have hplain2 : Plain fs2.symlinkMetadata names := by
    intro dir hdir hne
    rw [← hplain dir hdir hne]
    refine (halike.agree.symlinkMetadata dir (.inr ⟨_, ?_, startsWith_ofPhysical.mpr hdir⟩)).symm
    exact List.mem_append_left _ hlexical
  have hfile1 : ¬ k1.isDir names = true := fun hdir =>
    hnot (halike.first original names habs hplain fun _ => hdir)
  have hfile2 : ¬ k2.isDir names = true := fun hdir =>
    hnot ((halike.canonical original horiginal).trans
      (halike.second original names habs hplain2 fun _ => hdir))
  exact ⟨by_contra fun h => hfile1 (k1.inside names name h),
    by_contra fun h => hfile2 (k2.inside names name h)⟩

/-- What the walk looks at is observable, or nothing on either host.  A path strictly under a
lexical entry is one name below a directory without links, so the entry is its own canonical
form. -/
theorem observable_of_mayProbe (hplain : Plain fs1.symlinkMetadata physical)
    (h : (AllowlistForms.new fs1 allowlist).mayProbe (.ofPhysical (physical ++ [name])) = true) :
    Observable (AllowlistForms.new fs1 allowlist) (physical ++ [name]) ∨
      fs1.symlinkMetadata (physical ++ [name]) = none ∧
      fs2.symlinkMetadata (physical ++ [name]) = none := by
  obtain ⟨entry, hentry, hprobe⟩ := List.any_eq_true.mp h
  rcases Bool.or_eq_true_iff.mp hprobe with hunder | habove
  · rcases List.mem_append.mp hentry with hlexical | hcanonical
    · obtain ⟨original, horiginal, names, habs, rfl⟩ := mem_lexical hlexical
      rcases List.prefix_concat_iff.mp (startsWith_ofPhysical.mp hunder) with rfl | hinit
      · exact .inl (.inr ⟨_, hentry, startsWith_ofPhysical.mpr List.prefix_rfl⟩)
      by_cases hcanonical : fs1.canonicalize original = some names
      · exact .inl (.inl ⟨.ofPhysical names, mem_canonical horiginal hcanonical, hunder⟩)
      -- the walk has not gone on below `names`, where nothing is
      obtain ⟨rest, rfl⟩ := hinit
      have hbelow := fun name => nothing_below halike name horiginal habs hlexical
        (hplain.of_prefix (List.prefix_append _ _)) hcanonical
      cases rest with
      | nil => exact .inr (by simpa using hbelow name)
      | cons next rest =>
        have hnext := hplain (names ++ [next]) (by simp) (by simp)
        rw [(hbelow next).1] at hnext
        cases hnext
    · exact .inl (.inl ⟨entry, hcanonical, hunder⟩)
  · exact .inl (.inr ⟨entry, hentry, habove⟩)

/-- One stretch of the walk, up to the next link. -/
theorem walkSteps_congr {follow1 follow2 : Physical → Physical → List Component → Walk}
    (hfollow : ∀ next physical pending, Plain fs1.symlinkMetadata physical →
      Observable (.new fs1 allowlist) next →
      follow1 next physical pending = follow2 next physical pending)
    (hplain : Plain fs1.symlinkMetadata physical) :
    walkSteps fs1 (.new fs1 allowlist) follow1 pending physical
      = walkSteps fs2 (.new fs1 allowlist) follow2 pending physical := by
  induction pending generalizing physical with
  | nil => rfl
  | cons component pending ih =>
    cases component with
    | parentDir => exact ih (hplain.of_prefix (List.dropLast_prefix _))
    | normal name =>
      simp only [walkSteps]
      split
      next hprobe =>
        rcases observable_of_mayProbe halike hplain hprobe with hobs | ⟨hnone1, hnone2⟩
        · rw [← halike.agree.symlinkMetadata _ hobs]
          cases hmeta : fs1.symlinkMetadata (physical ++ [name]) with
          | none => rfl
          | some link =>
            cases link with
            | false => exact ih (hplain.snoc hmeta)
            | true => exact hfollow _ _ _ hplain hobs
        · rw [hnone1, hnone2]
      · rfl

theorem walkHops_congr (hops : Nat) (hplain : Plain fs1.symlinkMetadata physical) :
    walkHops fs1 (.new fs1 allowlist) hops pending physical
      = walkHops fs2 (.new fs1 allowlist) hops pending physical := by
  induction hops generalizing physical pending with
  | zero => exact walkSteps_congr halike (fun _ _ _ _ _ => rfl) hplain
  | succ hops ih =>
    refine walkSteps_congr halike (fun next physical pending hplain hobs => ?_) hplain
    rw [← halike.agree.readLink _ hobs]
    cases fs1.readLink next with
    | none => rfl
    | some target =>
      refine ih ?_
      split
      · exact .nil
      · exact hplain

theorem walkWithinAllowlist_congr (path : Spelling) :
    walkWithinAllowlist fs1 (.new fs1 allowlist) path
      = walkWithinAllowlist fs2 (.new fs1 allowlist) path :=
  walkHops_congr halike _ .nil

omit halike

/-! ## Where a walk ends -/

/-- A path that is followed from a place without links ends in one. -/
theorem Follows.plain {k : Kernel fs} {n : Nat} {pending : List (Option Component)}
    {looked passed : List Physical} (h : Follows k n physical pending looked passed path)
    (hplain : Plain fs.symlinkMetadata physical) : Plain fs.symlinkMetadata path := by
  induction h with
  | done dir => exact hplain
  | stay _ ih => exact ih hplain
  | up _ ih => exact ih (hplain.of_prefix (List.dropLast_prefix _))
  | into hmeta _ ih => exact ih (hplain.snoc hmeta)
  | link _ _ _ ih =>
    refine ih ?_
    split
    · exact .nil
    · exact hplain

/-- What the walk of some pieces finds is where they lead inside the allowlist. -/
theorem walk_found_iff (k : Kernel fs) {pieces : List (Option Component)} {spelling : Spelling}
    (hpieces : spelling.components = pieces.reduceOption) :
    walkWithinAllowlist fs forms spelling = .found path ↔
      ∃ n ≤ maxSymlinkHops, ∃ looked passed, Follows k n [] pieces looked passed path ∧
        forms.Admits looked path := by
  rw [walkWithinAllowlist, hpieces]
  refine ⟨follows_of_found k, ?_⟩
  rintro ⟨n, hn, looked, passed, hpath, hadmits⟩
  exact found_of_follows hpath hn hadmits

theorem walk_found (k : Kernel fs) {spelling : Spelling}
    (h : walkWithinAllowlist fs forms spelling = .found path) :
    Plain fs.symlinkMetadata path ∧ forms.physicallyAllows (.ofPhysical path) = true := by
  have hpieces : spelling.components = (spelling.components.map some).reduceOption := by
    rw [List.reduceOption, List.filterMap_map]
    exact List.filterMap_some.symm
  obtain ⟨n, -, looked, passed, hpath, -, hallows⟩ := (walk_found_iff k hpieces).mp h
  exact ⟨hpath.plain .nil, hallows⟩

/-- The reference as written, between its separators: behind the image's directory if it is
relative. -/
def asWritten (parentDir : Spelling) (reference : Path) : List (Option Component) :=
  if reference.spelling.absolute then reference.pieces
  else parentDir.components.map some ++ reference.pieces

theorem asWritten_components (parentDir : Spelling) (reference : Path) :
    (parentDir.join reference.spelling).components =
    (asWritten parentDir reference).reduceOption := by
  unfold Spelling.join asWritten
  split
  · exact reference.spelling_components
  · rw [List.reduceOption_append, ← reference.spelling_components, List.reduceOption,
      List.filterMap_map]
    exact congrArg (· ++ _) List.filterMap_some.symm

/-! ## Resolution as a whole -/

variable {parentImage backingPath : Path} {extraSpellings : List Path} {fallback : FileNameFallback}

/-- The two ways a resolution succeeds: the reference as written, or its file name beside the
image. -/
theorem resolveBackingPath_ok
    (h : resolveBackingPath fs parentImage backingPath allowlist extraSpellings fallback
      = .ok path) :
    ∃ parentDir, parentImage.parent = some parentDir ∧
      ((AllowlistForms.new fs (allowlist ++ extraSpellings)).lexicallyAllows
          (lexicalBackingCandidate parentDir backingPath.spelling) = true ∧
        walkWithinAllowlist fs (.new fs (allowlist ++ extraSpellings))
          (parentDir.join backingPath.spelling) = .found path ∨
        fallback = .allowed ∧ besideImage fs (.new fs (allowlist ++ extraSpellings)) parentDir
          backingPath.spelling = some path) := by
  unfold resolveBackingPath at h
  cases hparent : parentImage.parent with
  | none =>
    rw [hparent] at h
    cases h
  | some parentDir =>
    rw [hparent] at h
    refine ⟨parentDir, rfl, ?_⟩
    dsimp only at h
    split at h
    next hwalk =>
      cases h
      split at hwalk
      next hinside => exact .inl ⟨hinside, hwalk⟩
      · cases hwalk
    · cases h
    · cases h
    · split at h
      · split at h <;> cases h
      next hrefused =>
        split at h
        · cases h
          refine .inr ⟨?_, by assumption⟩
          cases fallback with
          | allowed => rfl
          | refused => exact absurd (.inr rfl) hrefused
        · split at h <;> cases h

/-- A reference whose walk is worth starting and finds its path is resolved to it. -/
theorem resolveBackingPath_of_found {parentDir : Spelling}
    (hparent : parentImage.parent = some parentDir)
    (hinside : (AllowlistForms.new fs (allowlist ++ extraSpellings)).lexicallyAllows
      (lexicalBackingCandidate parentDir backingPath.spelling) = true)
    (hfound : walkWithinAllowlist fs (.new fs (allowlist ++ extraSpellings))
      (parentDir.join backingPath.spelling) = .found path) :
    resolveBackingPath fs parentImage backingPath allowlist extraSpellings fallback = .ok path := by
  unfold resolveBackingPath
  simp only [hparent, hinside, if_true, hfound]

theorem besideImage_found (k : Kernel fs) {parentDir reference : Spelling}
    (h : besideImage fs forms parentDir reference = some path) :
    Plain fs.symlinkMetadata path ∧ forms.physicallyAllows (.ofPhysical path) = true := by
  unfold besideImage at h
  split at h
  · cases h
  · dsimp only at h
    split at h
    · split at h
      next hwalk =>
        cases h
        exact walk_found k hwalk
      · cases h
    · cases h

/-- Where the file name beside the image is no substitute, a path that is returned is where the
kernel gets with the reference as written. -/
def LeadsAsWritten (k : Kernel fs) (parentImage backingPath : Path)
    (allowlist extraSpellings : List Path) : Prop :=
  ∀ path, resolveBackingPath fs parentImage backingPath allowlist extraSpellings .refused
      = .ok path →
    ∃ parentDir, parentImage.parent = some parentDir ∧ ∃ n ≤ maxSymlinkHops, ∃ looked passed,
      Follows k n [] (asWritten parentDir backingPath) looked passed path ∧
      ∀ dir ∈ passed, k.isDir dir = true

/-- Where the reference as written leads somewhere inside the allowlist, it goes on from directories
only. -/
def PassesDirectories (k : Kernel fs) (parentImage backingPath : Path) (forms : AllowlistForms) :
    Prop :=
  ∀ parentDir, parentImage.parent = some parentDir →
    forms.lexicallyAllows (lexicalBackingCandidate parentDir backingPath.spelling) = true →
    ∀ n ≤ maxSymlinkHops, ∀ looked passed path,
      Follows k n [] (asWritten parentDir backingPath) looked passed path →
      forms.Admits looked path → ∀ dir ∈ passed, k.isDir dir = true

theorem leadsAsWritten_iff (k : Kernel fs) (parentImage backingPath : Path)
    (allowlist extraSpellings : List Path) :
    LeadsAsWritten k parentImage backingPath allowlist extraSpellings ↔
      PassesDirectories k parentImage backingPath (.new fs (allowlist ++ extraSpellings)) := by
  constructor
  · intro hleads parentDir hparent hinside n hn looked passed path hpath hadmits
    have hfound := (walk_found_iff k (asWritten_components parentDir backingPath)).mpr
      ⟨n, hn, looked, passed, hpath, hadmits⟩
    obtain ⟨parentDir', hparent', n', -, looked', passed', hpath', hdirs⟩ :=
      hleads path (resolveBackingPath_of_found hparent hinside hfound)
    cases hparent.symm.trans hparent'
    rw [hpath.passed_unique hpath']
    exact hdirs
  · intro hdirs path hok
    obtain ⟨parentDir, hparent, ⟨hinside, hfound⟩ | ⟨hallowed, -⟩⟩ := resolveBackingPath_ok hok
    · obtain ⟨n, hn, looked, passed, hpath, hadmits⟩ :=
        (walk_found_iff k (asWritten_components parentDir backingPath)).mp hfound
      exact ⟨parentDir, hparent, n, hn, looked, passed, hpath,
        hdirs parentDir hparent hinside n hn looked passed path hpath hadmits⟩
    · cases hallowed

/-- Two hosts that give the entries of the allowlist the same canonical forms, and that agree under
those and on the directories leading to an entry, resolve every reference alike.  A path that is
returned has no links and is under the canonical form of an entry.  Where the file name beside the
image is no substitute, it is where the kernel gets with the reference as written, exactly if the
reference goes on from directories only where it leads inside the allowlist. -/
theorem resolveBackingPath_noninterference_iff (parentImage backingPath : Path)
    (allowlist extraSpellings : List Path) (fallback : FileNameFallback)
    (halike : Alike k1 k2 (allowlist ++ extraSpellings)) :
    let r1 := resolveBackingPath fs1 parentImage backingPath allowlist extraSpellings fallback
    let r2 := resolveBackingPath fs2 parentImage backingPath allowlist extraSpellings fallback
    let forms := AllowlistForms.new fs1 (allowlist ++ extraSpellings)
    r1 = r2 ∧
    (∀ debug, r1.mapError (ChainError.display debug) = r2.mapError (ChainError.display debug)) ∧
    (∀ path, r1 = .ok path → Plain fs1.symlinkMetadata path ∧
      ∃ entry ∈ forms.canonical, (Spelling.ofPhysical path).startsWith entry) ∧
    (LeadsAsWritten k1 parentImage backingPath allowlist extraSpellings ↔
      PassesDirectories k1 parentImage backingPath forms) := by
  intro r1 r2 forms
  have hsame : r1 = r2 := by
    have hforms : AllowlistForms.new fs1 (allowlist ++ extraSpellings) =
        .new fs2 (allowlist ++ extraSpellings) := by
      simp only [AllowlistForms.new, List.filterMap_congr halike.canonical]
    have hwalk := walkWithinAllowlist_congr halike
    unfold r1 r2 resolveBackingPath besideImage
    simp only [← hforms, hwalk]
  refine ⟨hsame, fun debug => by rw [hsame], fun path hok => ?_, leadsAsWritten_iff _ _ _ _ _⟩
  obtain ⟨parentDir, -, ⟨-, hwalk⟩ | ⟨-, hbeside⟩⟩ := resolveBackingPath_ok hok
  · obtain ⟨hplain, hallows⟩ := walk_found k1 hwalk
    exact ⟨hplain, List.any_eq_true.mp hallows⟩
  · obtain ⟨hplain, hallows⟩ := besideImage_found k1 hbeside
    exact ⟨hplain, List.any_eq_true.mp hallows⟩

end

theorem linkedKernel_canonical (more : Bool) : (linkedKernel more).Canonical :=
  fun _ _ habs hplain hlast => HostFs.ofFiles_canonicalize habs hplain hlast

/-- The hosts with and without the file outside the allowlist are alike. -/
theorem linked_alike : Alike (linkedKernel false) (linkedKernel true) ([⟨['/', 'd']⟩] ++ []) := by
  have hobs : ∀ path, Observable (.new (linkedHost false) [⟨['/', 'd']⟩]) path →
      path ≠ [['e']] := by
    rintro path h rfl
    revert h
    simp only [Observable]
    decide +kernel
  refine ⟨linkedKernel_canonical _, linkedKernel_canonical _, by decide +kernel, ⟨fun path h => ?_,
    fun _ _ => rfl⟩⟩
  have hne := hobs path h
  show linkedFiles false path = linkedFiles true path
  unfold linkedFiles
  split <;> first | rfl | exact absurd rfl hne

/-- The link in `l/b` is followed on both hosts. -/
theorem resolveBackingPath_noninterference_linked :
    resolveBackingPath (linkedHost false) linkedImage ⟨['l', '/', 'b']⟩ [⟨['/', 'd']⟩] [] .refused
        = .ok [['d'], ['s'], ['b']] ∧
      resolveBackingPath (linkedHost true) linkedImage ⟨['l', '/', 'b']⟩ [⟨['/', 'd']⟩] [] .refused
        = .ok [['d'], ['s'], ['b']] := by
  have hok : resolveBackingPath (linkedHost false) linkedImage ⟨['l', '/', 'b']⟩ [⟨['/', 'd']⟩] []
      .refused = .ok [['d'], ['s'], ['b']] := by decide +kernel
  refine ⟨hok, ?_⟩
  have hsame := (resolveBackingPath_noninterference_iff linkedImage ⟨['l', '/', 'b']⟩
    [⟨['/', 'd']⟩] [] .refused linked_alike).1
  exact hsame.symm.trans hok

/-- The reference `i/..` of the image `i` is resolved to the image's directory, where the kernel
finds that `i` is none. -/
theorem reference_leaves_image :
    resolveBackingPath (linkedHost false) linkedImage ⟨['i', '/', '.', '.']⟩ [⟨['/', 'd']⟩] []
        .refused = .ok [['d']] ∧
      ¬ LeadsAsWritten (linkedKernel false) linkedImage ⟨['i', '/', '.',
          '.']⟩ [⟨['/', 'd']⟩] [] := by
  have hok : resolveBackingPath (linkedHost false) linkedImage ⟨['i', '/', '.', '.']⟩
      [⟨['/', 'd']⟩] [] .refused = .ok [['d']] := by decide +kernel
  refine ⟨hok, fun hleads => ?_⟩
  obtain ⟨parentDir, hparent, n, -, looked, passed, hpath, hdirs⟩ := hleads _ hok
  cases hparent
  have hway : Follows (linkedKernel false) 0 [] (asWritten ⟨true, [.normal ['d']]⟩
      ⟨['i', '/', '.', '.']⟩) _ [[], [['d']], [['d'], ['i']]] [['d']] :=
    .into rfl (.into rfl (.up (.done _)))
  rw [← hway.passed_unique hpath] at hdirs
  exact absurd (hdirs [['d'], ['i']] (by simp)) (by decide)

end Instar.Chain
