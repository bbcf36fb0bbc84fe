import Mathlib.Data.List.ReduceOption
import Instar.Chain.BackingPath

/-!
# The walk and the kernel

The kernel goes on only from a directory: a `..`, a `.` or a `/` behind the name of a file is an
error there.  The walk asks about names alone, so it drops a `.`, and a `..` takes it back out of a
file. Where no path goes on from a file the two agree (`walkWithinAllowlist_agrees_iff`).
-/

namespace Instar.Chain

variable {cwd : Option Physical} {fs : HostFs cwd}

/-- What the kernel knows of a host besides the links. -/
structure Kernel (fs : HostFs cwd) where
  isDir : Physical → Bool
  linkText : Physical → Path
  root : isDir [] = true
  /-- A name is found in a directory only. -/
  inside : ∀ dir name, fs.symlinkMetadata (dir ++ [name]) ≠ none → isDir dir = true
  /-- `read_link` gives the components of the text, which is not empty. -/
  spelled : ∀ path target, fs.readLink path = some target →
    (linkText path).spelling = target ∧ (linkText path).text ≠ []

/-- Where a path leads piece by piece, with the number of links followed, the paths looked at and
the places it goes on from. -/
inductive Follows (k : Kernel fs) :
    Nat → Physical → List (Option Component) → List Physical → List Physical → Physical → Prop
  | done (dir) : Follows k 0 dir [] [] [] dir
  | stay {n dir pending looked passed path} : Follows k n dir pending looked passed path →
      Follows k n dir (none :: pending) looked (dir :: passed) path
  | up {n dir pending looked passed path} : Follows k n dir.dropLast pending looked passed path →
      Follows k n dir (some .parentDir :: pending) looked (dir :: passed) path
  | into {n dir name pending looked passed path} : fs.symlinkMetadata (dir ++ [name]) = some false →
      Follows k n (dir ++ [name]) pending looked passed path →
      Follows k n dir (some (.normal name) :: pending) ((dir ++ [name]) :: looked)
      (dir :: passed) path
  | link {n dir name pending looked passed path target} :
      fs.symlinkMetadata (dir ++ [name]) = some true → fs.readLink (dir ++ [name]) = some target →
      Follows k n (if target.absolute then []
        else dir) ((k.linkText (dir ++ [name])).pieces ++ pending) looked passed path →
      Follows k (n + 1) dir (some (.normal name) :: pending) ((dir ++ [name]) :: looked)
        (dir :: passed) path

/-- The kernel resolves the absolute path `path` to `result`, having looked at `looked`: it goes on
from directories only. -/
def Kernel.ResolvesTo (k : Kernel fs) (path : Path) (looked : List Physical) (result : Physical) :
    Prop :=
  ∃ n ≤ maxSymlinkHops, ∃ passed, Follows k n [] path.pieces looked passed result ∧
    ∀ dir ∈ passed, k.isDir dir = true

/-- A resolution inside the allowlist. -/
def AllowlistForms.Admits (forms : AllowlistForms) (looked : List Physical) (result : Physical) :
    Prop :=
  (∀ seen ∈ looked, forms.mayProbe (.ofPhysical seen) = true) ∧
    forms.physicallyAllows (.ofPhysical result) = true

/-- What the walk finds is where the kernel gets, and where the kernel gets inside the allowlist the
walk gets. -/
structure WalkAgrees (k : Kernel fs) (forms : AllowlistForms) (path : Path) : Prop where
  sound : ∀ result, walkWithinAllowlist fs forms path.spelling = .found result →
    ∃ looked, k.ResolvesTo path looked result
  complete : ∀ looked result, k.ResolvesTo path looked result → forms.Admits looked result →
    walkWithinAllowlist fs forms path.spelling = .found result

variable {k : Kernel fs} {forms : AllowlistForms} {n hops : Nat} {dir path : Physical} {name : Name}
  {looked passed : List Physical} {steps : List Component} {pending : List (Option Component)}
  {target : Spelling}

theorem Follows.passed_unique {n' : Nat} {looked' passed' : List Physical} {path' : Physical}
    (h : Follows k n dir pending looked passed path)
    (h' : Follows k n' dir pending looked' passed' path') : passed = passed' := by
  induction h generalizing n' looked' passed' with
  | done dir =>
    cases h'
    rfl
  | stay _ ih =>
    cases h' with
    | stay h' => rw [ih h']
  | up _ ih =>
    cases h' with
    | up h' => rw [ih h']
  | into hmeta _ ih =>
    cases h' with
    | into _ h' => rw [ih h']
    | link hmeta' _ _ => simp [hmeta] at hmeta'
  | link hmeta hread _ ih =>
    cases h' with
    | into hmeta' _ => simp [hmeta] at hmeta'
    | link _ hread' h' =>
      obtain rfl := Option.some.inj (hread.symm.trans hread')
      rw [ih h']

/-! ## One step of the walk -/

theorem walkHops_up : walkHops fs forms hops (.parentDir :: steps) dir =
    walkHops fs forms hops steps dir.dropLast := by
  cases hops <;> rfl

theorem walkHops_into (hprobe : forms.mayProbe (.ofPhysical (dir ++ [name])) = true)
    (hmeta : fs.symlinkMetadata (dir ++ [name]) = some false) :
    walkHops fs forms hops (.normal name :: steps) dir =
    walkHops fs forms hops steps (dir ++ [name]) := by
  cases hops <;> simp only [walkHops, walkSteps, hprobe, hmeta, if_true]

theorem walkHops_link (hprobe : forms.mayProbe (.ofPhysical (dir ++ [name])) = true)
    (hmeta : fs.symlinkMetadata (dir ++ [name]) = some true)
    (hread : fs.readLink (dir ++ [name]) = some target) :
    walkHops fs forms (hops + 1) (.normal name :: steps) dir =
      walkHops fs forms hops (target.components ++ steps) (if target.absolute then []
        else dir) := by
  simp only [walkHops, walkSteps, hprobe, hmeta, hread, if_true]

/-- A walk that finds its path goes into the next name, or follows it. -/
theorem walkHops_name (h : walkHops fs forms hops (.normal name :: steps) dir = .found path) :
    forms.mayProbe (.ofPhysical (dir ++ [name])) = true ∧
    (fs.symlinkMetadata (dir ++ [name]) = some false ∧
        walkHops fs forms hops steps (dir ++ [name]) = .found path ∨
      ∃ left target, hops = left + 1 ∧ fs.symlinkMetadata (dir ++ [name]) = some true ∧
        fs.readLink (dir ++ [name]) = some target ∧
        walkHops fs forms left (target.components ++ steps) (if target.absolute then [] else dir) =
          .found path) := by
  have hprobe : forms.mayProbe (.ofPhysical (dir ++ [name])) = true := by
    by_contra hno
    cases hops <;> simp [walkHops, walkSteps, hno] at h
  refine ⟨hprobe, ?_⟩
  cases hmeta : fs.symlinkMetadata (dir ++ [name]) with
  | none => cases hops <;> simp [walkHops, walkSteps, hprobe, hmeta] at h
  | some link =>
    cases link with
    | false => exact .inl ⟨rfl, walkHops_into hprobe hmeta ▸ h⟩
    | true =>
      cases hops with
      | zero => simp [walkHops, walkSteps, hprobe, hmeta] at h
      | succ left =>
        cases hread : fs.readLink (dir ++ [name]) with
        | none => simp [walkHops, walkSteps, hprobe, hmeta, hread] at h
        | some target => exact .inr ⟨left, target, rfl, rfl, rfl,
          walkHops_link hprobe hmeta hread ▸ h⟩

theorem Path.spelling_components (path : Path) :
    path.spelling.components = path.pieces.reduceOption := by
  show _ = ((splitSlash path.text).map Component.ofPiece).filterMap id
  rw [List.filterMap_map]
  rfl

theorem Kernel.target_components (hread : fs.readLink (dir ++ [name]) = some target) :
    target.components ++ pending.reduceOption =
      ((k.linkText (dir ++ [name])).pieces ++ pending).reduceOption := by
  rw [← (k.spelled _ _ hread).1, Path.spelling_components, List.reduceOption_append]

/-! ## Whole walks -/

/-- A walk that finds its path follows it inside the allowlist. -/
theorem follows_of_found (k : Kernel fs)
    (h : walkHops fs forms hops pending.reduceOption dir = .found path) :
    ∃ n ≤ hops, ∃ looked passed, Follows k n dir pending looked passed path ∧
    forms.Admits looked path := by
  -- by the links left, and between two links by the pieces
  induction hops using Nat.strong_induction_on generalizing dir pending with
  | _ hops ihHops =>
    induction pending generalizing dir with
    | nil =>
      have hend : forms.physicallyAllows (.ofPhysical dir) = true ∧ dir = path := by
        cases hops <;> simp only [walkHops, walkSteps, List.reduceOption_nil] at h <;>
          split at h <;> simp_all
      exact ⟨0, Nat.zero_le _, [], [], hend.2 ▸ .done dir, List.forall_mem_nil _, hend.2 ▸ hend.1⟩
    | cons piece pending ih =>
      cases piece with
      | none =>
        obtain ⟨n, hn, looked, passed, hpath, hadmits⟩ := ih h
        exact ⟨n, hn, looked, _, .stay hpath, hadmits⟩
      | some component =>
        rw [List.reduceOption_cons_of_some] at h
        cases component with
        | parentDir =>
          rw [walkHops_up] at h
          obtain ⟨n, hn, looked, passed, hpath, hadmits⟩ := ih h
          exact ⟨n, hn, looked, _, .up hpath, hadmits⟩
        | normal name =>
          obtain ⟨hprobe, ⟨hmeta, h⟩ | ⟨left, target, rfl, hmeta, hread, h⟩⟩ := walkHops_name h
          · obtain ⟨n, hn, looked, passed, hpath, hlooked, hallows⟩ := ih h
            exact ⟨n, hn, _, _, .into hmeta hpath, List.forall_mem_cons.mpr ⟨hprobe, hlooked⟩,
              hallows⟩
          · rw [k.target_components hread] at h
            obtain ⟨n, hn, looked, passed, hpath, hlooked, hallows⟩ :=
              ihHops left (Nat.lt_succ_self left) h
            exact ⟨n + 1, Nat.succ_le_succ hn, _, _, .link hmeta hread hpath,
              List.forall_mem_cons.mpr ⟨hprobe, hlooked⟩, hallows⟩

/-- A path that is followed inside the allowlist is found. -/
theorem found_of_follows (hpath : Follows k n dir pending looked passed path) (hn : n ≤ hops)
    (hadmits : forms.Admits looked path) :
    walkHops fs forms hops pending.reduceOption dir = .found path := by
  obtain ⟨hprobe, hallows⟩ := hadmits
  induction hpath generalizing hops with
  | done dir => cases hops <;> exact if_pos hallows
  | stay _ ih => exact ih hn hprobe hallows
  | up _ ih => exact walkHops_up.trans (ih hn hprobe hallows)
  | into hmeta _ ih =>
    obtain ⟨hhere, hprobe⟩ := List.forall_mem_cons.mp hprobe
    exact (walkHops_into hhere hmeta).trans (ih hn hprobe hallows)
  | link hmeta hread _ ih =>
    obtain ⟨hhere, hprobe⟩ := List.forall_mem_cons.mp hprobe
    obtain ⟨left, rfl⟩ := Nat.exists_eq_add_of_le' hn
    rw [List.reduceOption_cons_of_some, ← Nat.add_assoc, walkHops_link hhere hmeta hread,
      k.target_components hread]
    exact ih (Nat.le_add_left _ _) hprobe hallows

/-- The walk and the kernel agree on a path exactly if the path, where it leads somewhere inside the
allowlist, goes on from directories only. -/
theorem walkWithinAllowlist_agrees_iff (k : Kernel fs) (allowlist : List Path) (path : Path) :
    WalkAgrees k (.new fs allowlist) path ↔
      ∀ n ≤ maxSymlinkHops, ∀ looked passed result,
      Follows k n [] path.pieces looked passed result →
        (AllowlistForms.new fs allowlist).Admits looked result →
        ∀ dir ∈ passed, k.isDir dir = true := by
  have hwalk : ∀ result, walkWithinAllowlist fs (.new fs allowlist) path.spelling = .found result ↔
      walkHops fs (.new fs allowlist) maxSymlinkHops path.pieces.reduceOption [] =
      .found result := by
    intro result
    rw [walkWithinAllowlist, Path.spelling_components]
  constructor
  · intro hagrees n hn looked passed result hpath hadmits
    have hfound := (hwalk result).mpr (found_of_follows hpath hn hadmits)
    obtain ⟨looked', n', -, passed', hpath', hdirs⟩ := hagrees.sound result hfound
    rw [hpath.passed_unique hpath']
    exact hdirs
  · intro hdirs
    constructor
    · intro result hfound
      obtain ⟨n, hn, looked, passed, hpath, hadmits⟩ :=
        follows_of_found k ((hwalk result).mp hfound)
      exact ⟨looked, n, hn, passed, hpath, hdirs n hn looked passed result hpath hadmits⟩
    · rintro looked result ⟨n, hn, passed, hpath, -⟩ hadmits
      exact (hwalk result).mpr (found_of_follows hpath hn hadmits)

/-- What the kernel knows of the host with a link. -/
def linkedKernel (more : Bool) : Kernel (linkedHost more) where
  isDir := linkedDirs
  linkText path := if path = [['d'], ['l']] then ⟨['s']⟩ else ⟨[]⟩
  root := by decide
  inside dir name h := by
    have hdir : (dir ++ [name]).dropLast = dir := List.dropLast_concat
    change linkedFiles more (dir ++ [name]) ≠ none at h
    unfold linkedFiles at h
    split at h
    all_goals first
      | exact absurd rfl h
      | (rename_i heq; rw [heq] at hdir; subst hdir; decide)
  spelled path target h := by
    change (if path = [['d'], ['l']] then some _ else none) = _ at h
    split at h
    next hpath =>
      cases h
      rw [if_pos hpath]
      decide
    · cases h

/-- The way of `/d/i/..`, which goes on from the image. -/
theorem follows_out_of_file :
    Follows (linkedKernel false) 0 [] (Path.pieces ⟨['/', 'd', '/', 'i', '/', '.', '.']⟩)
      [[['d']], [['d'], ['i']]] [[], [], [['d']], [['d'], ['i']]] [['d']] :=
  .stay (.into rfl (.into rfl (.up (.done _))))

/-- The walk goes back out of the image `/d/i` as if it were a directory. -/
theorem walk_leaves_file :
    walkWithinAllowlist (linkedHost false) (.new (linkedHost false) [⟨['/', 'd']⟩])
        (Path.spelling ⟨['/', 'd', '/', 'i', '/', '.', '.']⟩) = .found [['d']] ∧
      ∀ looked result, ¬ (linkedKernel false).ResolvesTo
        ⟨['/', 'd', '/', 'i', '/', '.', '.']⟩ looked result := by
  refine ⟨by decide +kernel, ?_⟩
  rintro looked result ⟨n, -, passed, hpath, hdirs⟩
  rw [← follows_out_of_file.passed_unique hpath] at hdirs
  exact absurd (hdirs [['d'], ['i']] (by simp)) (by decide)

end Instar.Chain
