import Instar.Write.Effect

/-!
# Windows do not matter: the general argument

An emission loop that plans several steps before any of them is executed behaves like the eager
machine, provided each stage would read the same from the staged buffers as from the executed
ones.  `Windowed` collects what a family of actions has to satisfy for that; `window_eager` is the
simulation of one window and `served_eager` the simulation of the whole plan / execute / resume
loop.
-/

namespace Instar.Write

open Instar.Qcow2 Planner Option List Sys

variable {P : Type}

/-! ## Planner moves -/

/-- The planner after a move whose push succeeded. -/
def Planner.moved (pl : Planner) (step : Option Step) (update : WriteState → WriteState)
    (refblocks : Buffer) : Planner :=
  ⟨update (pl.state.countStep step), { pl.staged with refblocks },
    { pl.steps with steps := pl.steps.steps ++ step.toList }⟩

/-- There is room for the step. -/
def Planner.Fits (pl : Planner) (step : Option Step) : Prop :=
  step = none ∨ pl.steps.steps.length ≠ pl.steps.capacity

variable {pl pl' : Planner} {region : RegionId} {steps acc : List Step} {sys sys' outer : Sys}
  {rb : Buffer} {close : Bool} {n : Nat} {r : Except WriteError Unit} {k : Planner → Flow P}
  {held : P}

theorem Planner.not_fits {step : Option Step} (h : ¬ pl.Fits step) :
    ∃ s, step = some s ∧ pl.steps.steps.length = pl.steps.capacity := by
  unfold Planner.Fits at h
  push Not at h
  obtain ⟨s, hs⟩ := ne_none_iff_exists'.mp h.1
  exact ⟨s, hs, h.2⟩

theorem emitOpt_fits {step : Option Step} (h : pl.Fits step) :
    emitOpt pl held step k = k (pl.moved step id pl.staged.refblocks) := by
  cases step with
  | none =>
    have hsteps : pl.moved none id pl.staged.refblocks = pl := by
      simp [moved, WriteState.countStep]
    rw [hsteps]
    rfl
  | some step =>
    have hroom : pl.steps.steps.length ≠ pl.steps.capacity := h.resolve_left nofun
    simp only [emitOpt, emit, pushStep, StepBuf.push, hroom, if_false]
    rfl

theorem emitOpt_full {step : Step}
    (h : pl.steps.steps.length = pl.steps.capacity) :
    emitOpt pl held (some step) k = .fail .bufFull pl held := by
  simp only [emitOpt, emit, pushStep, StepBuf.push, h, if_true]

/-! ## Executing lists of steps -/

/-- Execute steps in order; `none` once one fails. -/
def execAll : List Step → Regions → Devices → Option (Regions × Devices)
  | [], r, devs => some (r, devs)
  | step :: steps, r, devs =>
    match execOne r devs step with
    | none => none
    | some (r, devs) => execAll steps r devs

theorem execAll_append (steps steps' : List Step) (r : Regions) (devs : Devices) :
    execAll (steps ++ steps') r devs = (execAll steps r devs).bind fun p =>
    execAll steps' p.1 p.2 := by
  induction steps generalizing r devs with
  | nil => rfl
  | cons step steps ih =>
    simp only [cons_append, execAll]
    cases execOne r devs step with
    | none => rfl
    | some p => exact ih p.1 p.2

theorem executeFrom_eq (index : Nat) (steps : List Step) (r : Regions) (devs : Devices) :
    (match executeFrom index steps r devs with
      | (.ok (), r, devs) => some (r, devs)
      | (.error _, _, _) => none) = execAll steps r devs := by
  induction steps generalizing index r devs with
  | nil => rfl
  | cons step steps ih =>
    unfold executeFrom execAll execOne
    rcases execStep r devs step with ⟨res, r1, devs1⟩
    cases res with
    | error e => rfl
    | ok u => exact ih _ _ _

/-- Performing a window executes its steps over the planner's buffers. -/
theorem perform_eq (sys : Sys) (pl : Planner) :
    sys.perform pl = (execAll pl.steps.steps { sys.regions with staged := pl.staged }
      sys.devices).map fun p => ⟨pl.state, p.1, p.2⟩ := by
  rw [← executeFrom_eq 0]
  unfold perform execute
  rcases executeFrom 0 pl.steps.steps { sys.regions with staged := pl.staged } sys.devices with
    ⟨res, r, devs⟩
  cases res with
  | error e => rfl
  | ok u => rfl

/-! ## Steps that leave the refblocks alone -/

theorem resolve_setRefblocks (r : Regions) (rb : Buffer) (off len : Nat) (h : region ≠ .refblocks) :
    (r.setRefblocks rb).resolve region off len = r.resolve region off len := by
  cases region with
  | refblocks => exact absurd rfl h
  | _ => rfl

theorem buffer_setRefblocks (r : Regions) (rb : Buffer) (h : region ≠ .refblocks) :
    (r.setRefblocks rb).buffer region = r.buffer region := by
  cases region with
  | refblocks => exact absurd rfl h
  | _ => rfl

theorem setBytes_setRefblocks (r : Regions) (rb : Buffer) (bytes : ByteMap)
    (h : region ≠ .refblocks) :
    (r.setRefblocks rb).setBytes region bytes = (r.setBytes region bytes).setRefblocks rb := by
  cases region with
  | refblocks => exact absurd rfl h
  | _ => rfl

theorem execStep_setRefblocks (r : Regions) (devs : Devices) (rb : Buffer) {step : Step}
    (h : step.region ≠ .refblocks) : execStep (r.setRefblocks rb) devs step
      = ((execStep r devs step).1, (execStep r devs step).2.1.setRefblocks rb,
          (execStep r devs step).2.2) := by
  have hread : execRead (r.setRefblocks rb) devs step = ((execRead r devs step).1,
      (execRead r devs step).2.1.setRefblocks rb, (execRead r devs step).2.2) := by
    unfold execRead
    rw [resolve_setRefblocks r rb _ _ h, buffer_setRefblocks r rb h]
    cases r.resolve step.region step.regionOffset step.len with
    | error e => rfl
    | ok base =>
      dsimp only
      cases hres : readBytes (devs.get step.device) step.diskOffset step.len r.rmwLen
          ((r.buffer step.region).bytes.drop base) with
      | error e => simp only [Regions.setRefblocks, hres]
      | ok bytes =>
        have hres' : readBytes (devs.get step.device) step.diskOffset step.len
            (r.setRefblocks rb).rmwLen ((r.buffer step.region).bytes.drop base)
            = .ok bytes := hres
        simp only [hres', setBytes_setRefblocks r rb _ h]
  have hwrite : execWrite (r.setRefblocks rb) devs step = ((execWrite r devs step).1,
      (execWrite r devs step).2.1.setRefblocks rb, (execWrite r devs step).2.2) := by
    unfold execWrite
    rw [resolve_setRefblocks r rb _ _ h, buffer_setRefblocks r rb h]
    cases r.resolve step.region step.regionOffset step.len with
    | error e => rfl
    | ok base => rfl
  have hstore : ∀ n bytes, execStore (r.setRefblocks rb) devs step n bytes
      = ((execStore r devs step n bytes).1, (execStore r devs step n bytes).2.1.setRefblocks rb,
          (execStore r devs step n bytes).2.2) := by
    intro n bytes
    unfold execStore
    rw [resolve_setRefblocks r rb _ _ h, buffer_setRefblocks r rb h]
    cases r.resolve step.region step.regionOffset n with
    | error e => rfl
    | ok base => simp only [setBytes_setRefblocks r rb _ h]
  have hwhole : ∀ k : Except ExecCause Unit × Regions × Devices,
      wholeCluster (r.setRefblocks rb) devs step (k.1, k.2.1.setRefblocks rb, k.2.2)
      = ((wholeCluster r devs step k).1, (wholeCluster r devs step k).2.1.setRefblocks rb,
          (wholeCluster r devs step k).2.2) := by
    intro k
    have hcs : (r.setRefblocks rb).clusterSize = r.clusterSize := rfl
    unfold wholeCluster
    rw [hcs]
    split
    · rfl
    split
    · rfl
    · rfl
  unfold execStep
  cases step.kind with
  | readCluster => exact hread
  | writeRange => exact hwrite
  | zeroRange => rfl
  | fillRange => rfl
  | patchEntryU64 => exact hstore _ _
  | loadCluster =>
    rw [hread]
    exact hwhole _
  | writebackCluster =>
    rw [hwrite]
    exact hwhole _
  | zeroRegion => exact hstore _ _
  | barrier cls =>
    cases cls with
    | ordering => rfl
    | durability =>
      dsimp only [execBarrier]
      rcases (devs.get step.device).fsync with ⟨res, d⟩
      cases res with
      | none => rfl
      | some ok => cases ok <;> rfl

theorem execOne_setRefblocks (r : Regions) (devs : Devices) (rb : Buffer) {step : Step}
    (h : step.region ≠ .refblocks) : execOne (r.setRefblocks rb) devs step
      = (execOne r devs step).map fun p => (p.1.setRefblocks rb, p.2) := by
  unfold execOne
  rw [execStep_setRefblocks r devs rb h]
  rcases execStep r devs step with ⟨res, r1, devs1⟩
  cases res <;> rfl

theorem execAll_setRefblocks (r : Regions) (devs : Devices) (rb : Buffer)
    (h : ∀ step ∈ steps, step.region ≠ .refblocks) : execAll steps (r.setRefblocks rb) devs
      = (execAll steps r devs).map fun p => (p.1.setRefblocks rb, p.2) := by
  induction steps generalizing r devs with
  | nil => rfl
  | cons step steps ih =>
    simp only [execAll, execOne_setRefblocks r devs rb (h step (by simp))]
    cases execOne r devs step with
    | none => rfl
    | some p => exact ih p.1 p.2 fun s hs => h s (by simp [hs])

/-! ## The simulation -/

/-- The emission loop's stage function, as an action. -/
def actStage (actOf : WriteState → StagedRegions → P → Act P) (pl : Planner) (prog : P) : Flow P :=
  applyAct pl prog (actOf pl.state pl.staged prog)

/-- Halfway through a window planned from `base`: `sys` is what executing the planned steps gives,
except that the zeroings queued in the planner have happened. -/
structure Mid (base : Sys) (pl : Planner) (sys : Sys) : Prop where
  state : sys.state = pl.state.pendingZeroClearAll
  blocks : sys.regions.staged.refblocks = pl.staged.refblocks
  staged : pl.staged = { base.regions.staged with refblocks := pl.staged.refblocks }
  exec : execAll pl.steps.steps (base.regions.setRefblocks pl.staged.refblocks) base.devices
    = some (sys.regions, sys.devices)

/-- The step an action pushes. -/
def Act.pushed : Act P → Option Step
  | .refuse _ _ _ => none
  | .move step _ _ _ _ _ => step
  | .finish step => step

/-- The refblocks an action leaves behind, where it sets them. -/
def Act.blocks : Act P → Option Buffer
  | .refuse _ _ rb => some rb
  | .move _ _ _ rb _ _ => some rb
  | .finish _ => none

/-- The steps of these actions never touch the refblocks. -/
def StepsAvoid (actOf : WriteState → StagedRegions → P → Act P) : Prop :=
  ∀ st sg prog step, (actOf st sg prog).pushed = some step → step.region ≠ .refblocks

/-- A step that does not change the refblocks. -/
def Step.KeepsBlocks (step : Step) : Prop := step.region ≠ .refblocks ∨ step.kind = .writeRange

section

variable (actOf : WriteState → StagedRegions → P → Act P)

/-- These actions never change the refblocks, and neither do their steps. -/
def BlocksKept : Prop :=
  (∀ st sg prog rb, (actOf st sg prog).blocks = some rb → rb = sg.refblocks) ∧
  ∀ st sg prog step, (actOf st sg prog).pushed = some step → step.KeepsBlocks

/-- What makes a family of actions independent of its window. `Rel` relates the planner in
mid-window to the executed system, `Start` holds between windows, `Keep` is the planner's own
invariant and `rank` bounds the actions to come. -/
structure Windowed (Rel : Planner → P → Sys → Prop) (Start : Sys → P → Prop)
    (Keep : WriteState → P → Prop) (rank : WriteState → P → Nat) : Prop where
  keep : ∀ {st sg prog step held update rb next close}, Keep st prog →
    actOf st sg prog = .move step held update rb next close →
    Keep (update (st.countStep step)) next ∧ rank (update (st.countStep step)) next < rank st prog
  keep_clear : ∀ {st prog}, Keep st prog → Keep st.pendingZeroClearAll prog
  rank_clear : ∀ st prog, rank st.pendingZeroClearAll prog = rank st prog
  rank_held : ∀ {st sg prog step held update rb next close},
    actOf st sg prog = .move step held update rb next close → rank st held ≤ rank st prog
  clear_move : ∀ {st sg prog step held update rb next close},
    actOf st sg prog = .move step held update rb next close →
    ∀ st', (update st').pendingZeroClearAll = (update st'.pendingZeroClearAll).pendingZeroClearAll
  clear_refuse : ∀ {st sg prog e update rb}, actOf st sg prog = .refuse e update rb →
    ∀ st', (update st').pendingZeroClearAll = (update st'.pendingZeroClearAll).pendingZeroClearAll
  refuse_ne : ∀ {st sg prog e update rb}, actOf st sg prog = .refuse e update rb → e ≠ .bufFull
  free : StepsAvoid actOf ∨ BlocksKept actOf
  rel_keep : ∀ {pl prog sys}, Rel pl prog sys → Keep pl.state prog
  act : ∀ {pl prog sys}, Rel pl prog sys →
    actOf sys.state sys.regions.staged prog = actOf pl.state pl.staged prog
  next : ∀ {pl prog sys sys' step held update rb next}, Rel pl prog sys →
    actOf pl.state pl.staged prog = .move step held update rb next false →
    sys.move step update rb = some sys' → Rel (pl.moved step update rb) next sys'
  closed : ∀ {pl prog sys sys' step held update rb next}, Rel pl prog sys →
    actOf pl.state pl.staged prog = .move step held update rb next true →
    sys.move step update rb = some sys' → Start sys' next
  full : ∀ {pl prog sys step held update rb next close}, Rel pl prog sys →
    actOf pl.state pl.staged prog = .move (some step) held update rb next close →
    Start sys held ∧ ∀ n acc, eager actOf n sys held acc = eager actOf n sys prog acc
  stay : ∀ {pl prog sys}, Rel pl prog sys → Start sys prog
  start : ∀ {sys prog} (capacity : Nat), Start sys prog →
    sys.state.pendingZeroClearAll = sys.state → Rel (sys.planner capacity) prog sys

end

/-! ### Facts about the eager machine -/

variable {actOf : WriteState → StagedRegions → P → Act P}
  {Rel : Planner → P → Sys → Prop} {Start : Sys → P → Prop} {Keep : WriteState → P → Prop}
  {rank : WriteState → P → Nat} {update : WriteState → WriteState} {prog next : P}

section

variable {step : Option Step}
  (hact : actOf sys.state sys.regions.staged prog = .move step held update rb next close)

include hact

theorem eager_move (hmove : sys.move step update rb = some sys') (n : Nat) (acc : List Step) :
    eager actOf (n + 1) sys prog acc = eager actOf n sys' next (acc ++ step.toList) := by
  rw [eager, hact]
  dsimp only
  rw [hmove]

theorem eager_move_failed (hmove : sys.move step update rb = none) (n : Nat) (acc : List Step) :
    eager actOf (n + 1) sys prog acc = .execFailed := by
  rw [eager, hact]
  dsimp only
  rw [hmove]

end

theorem eager_refuse {e : WriteError}
    (hact : actOf sys.state sys.regions.staged prog = .refuse e update rb) (n : Nat)
    (acc : List Step) :
    eager actOf (n + 1) sys prog acc = .done (.error e) (sys.refuse update rb) acc := by
  rw [eager, hact]

/-- What every action preserves holds when a run ends. -/
theorem eager_done {I : Sys → P → List Step → Prop} {J : Except WriteError Unit → Sys →
    List Step → Prop}
    (hmove : ∀ {sys sys' prog held next step update rb close acc}, I sys prog acc →
      actOf sys.state sys.regions.staged prog = .move step held update rb next close →
      sys.move step update rb = some sys' → I sys' next (acc ++ step.toList))
    (hrefuse : ∀ {sys prog e update rb acc}, I sys prog acc →
      actOf sys.state sys.regions.staged prog = .refuse e update rb →
      J (.error e) (sys.refuse update rb) acc)
      (hfinish : ∀ {sys sys' prog step acc}, I sys prog acc →
      actOf sys.state sys.regions.staged prog = .finish step →
      sys.move step id sys.regions.staged.refblocks = some sys' →
      J (.ok ()) sys' (acc ++ step.toList))
    (h : I sys prog acc) (hdone : eager actOf n sys prog acc = .done r sys' steps) :
        J r sys' steps := by
  induction n generalizing sys prog acc with
  | zero => cases hdone
  | succ n ih =>
    unfold eager at hdone
    cases hact : actOf sys.state sys.regions.staged prog with
    | refuse e update rb =>
      rw [hact] at hdone
      cases hdone
      exact hrefuse h hact
    | move step held update rb next close =>
      simp only [hact] at hdone
      cases hsys : sys.move step update rb with
      | none =>
        rw [hsys] at hdone
        cases hdone
      | some sys1 =>
        rw [hsys] at hdone
        exact ih (hmove h hact hsys) hdone
    | finish step =>
      simp only [hact] at hdone
      cases hsys : sys.move step id sys.regions.staged.refblocks with
      | none =>
        rw [hsys] at hdone
        cases hdone
      | some sys1 =>
        rw [hsys] at hdone
        cases hdone
        exact hfinish h hact hsys

/-- A run that has ended does not change with more fuel. -/
theorem eager_stable (h : eager actOf n sys prog acc ≠ .running) (m : Nat) :
    eager actOf (n + m) sys prog acc = eager actOf n sys prog acc := by
  induction n generalizing sys prog acc with
  | zero => exact absurd rfl h
  | succ n ih =>
    rw [show n + 1 + m = n + m + 1 by omega]
    unfold eager at h ⊢
    cases hact : actOf sys.state sys.regions.staged prog with
    | refuse e update rb => rfl
    | finish step => rfl
    | move step held update rb next close =>
      simp only [hact] at h ⊢
      cases hmove : sys.move step update rb with
      | none => rfl
      | some sys' =>
        simp only [hmove] at h ⊢
        exact ih h

/-- The state of a move does not depend on whether its step could be executed. -/
theorem Sys.move_state {step : Option Step} (h : sys.move step update rb = some sys') :
    sys'.state = (update (sys.state.countStep step)).pendingZeroClearAll := by
  unfold move at h
  cases step with
  | none =>
    cases h
    rfl
  | some step =>
    cases hexec : execOne (sys.regions.setRefblocks rb) sys.devices step with
    | none => simp [hexec] at h
    | some p =>
      simp only [hexec, some.injEq] at h
      rw [← h]

/-! ### Moves in mid-window -/

theorem execOne_blocks {r r' : Regions} {devs devs' : Devices} {step : Step}
    (hkeeps : step.KeepsBlocks)
    (h : execOne r devs step = some (r', devs')) : r'.staged.refblocks = r.staged.refblocks := by
  rcases execOne_regions h with rfl | ⟨hstores, bytes, rfl⟩
  · rfl
  · rcases hkeeps with hne | hkind
    · cases hregion : step.region <;> first | rfl | exact absurd hregion hne
    · simp [Step.stores, hkind] at hstores

/-- Either no step planned so far touches the refblocks, or no action changes them. -/
def FreePlanner (actOf : WriteState → StagedRegions → P → Act P) (pl : Planner) : Prop :=
  (StepsAvoid actOf ∧ ∀ step ∈ pl.steps.steps, step.region ≠ .refblocks) ∨ BlocksKept actOf

section Moves

variable {base sys sys' : Sys} {pl : Planner} {step : Option Step}
  {update : WriteState → WriteState} {rb : Buffer}

section

variable (hmid : Mid base pl sys) (hfree : FreePlanner actOf pl)
  (hrb : BlocksKept actOf → rb = pl.staged.refblocks)

include hmid hfree hrb

/-- The steps planned so far, executed with the refblocks a later action leaves. -/
theorem Mid.exec_blocks : execAll pl.steps.steps (base.regions.setRefblocks rb) base.devices
      = some (sys.regions.setRefblocks rb, sys.devices) := by
  rcases hfree with ⟨-, havoid⟩ | hkept
  · have h := execAll_setRefblocks (base.regions.setRefblocks pl.staged.refblocks)
      base.devices rb havoid
    rw [hmid.exec] at h
    exact h
  · rw [hrb hkept, hmid.exec, ← hmid.blocks]
    rfl

/-- A planner that has moved runs its old steps and then the new one. -/
theorem Mid.exec_moved :
    execAll (pl.moved step update rb).steps.steps (base.regions.setRefblocks rb) base.devices
      = (sys.move step update rb).map fun s => (s.regions, s.devices) := by
  unfold moved move
  rw [execAll_append, hmid.exec_blocks hfree hrb, bind_some]
  cases step with
  | none => rfl
  | some step =>
    simp only [toList, execAll]
    cases execOne (sys.regions.setRefblocks rb) sys.devices step with
    | none => rfl
    | some p => rfl

end

theorem FreePlanner.moved (hfree : FreePlanner actOf pl)
    (hstep : StepsAvoid actOf → ∀ s, step = some s → s.region ≠ .refblocks) :
    FreePlanner actOf (pl.moved step update rb) := by
  rcases hfree with ⟨havoid, hsteps⟩ | hkept
  · refine .inl ⟨havoid, ?_⟩
    intro s hs
    simp only [Planner.moved, mem_append, mem_toList] at hs
    rcases hs with hs | hs
    · exact hsteps s hs
    · exact hstep havoid s hs
  · exact .inr hkept

/-- A move that could be executed keeps the planner and the executed system together. -/
theorem Mid.moved (hmid : Mid base pl sys) (hfree : FreePlanner actOf pl)
    (hrb : BlocksKept actOf → rb = pl.staged.refblocks) (hstep : ∀ s, step = some s → s.KeepsBlocks)
    (hclear : ∀ st, (update st).pendingZeroClearAll =
      (update st.pendingZeroClearAll).pendingZeroClearAll)
    (hmove : sys.move step update rb = some sys') : Mid base (pl.moved step update rb) sys' := by
  refine ⟨?_, ?_, ?_, ?_⟩
  · rw [move_state hmove, hmid.state]
    show _ = (update (pl.state.countStep step)).pendingZeroClearAll
    rw [hclear (pl.state.countStep step)]
    cases step <;> rfl
  · unfold move at hmove
    cases step with
    | none =>
      cases hmove
      rfl
    | some s =>
      cases hexec : execOne (sys.regions.setRefblocks rb) sys.devices s with
      | none => simp [hexec] at hmove
      | some p =>
        simp only [hexec, some.injEq] at hmove
        rw [← hmove]
        exact execOne_blocks (hstep s rfl) hexec
  · show { pl.staged with refblocks := rb } = _
    rw [hmid.staged]
    rfl
  · have h := @Mid.exec_moved _ _ _ _ _ step update rb hmid hfree hrb
    rw [hmove] at h
    exact h

/-- A step that could not be executed stays in the window, whatever is planned after it. -/
theorem Mid.stuck {pl' : Planner} (hmid : Mid base pl sys) (hfree : FreePlanner actOf pl)
    (hstep : StepsAvoid actOf → ∀ s, step = some s → s.region ≠ .refblocks)
    (hrb : BlocksKept actOf → rb = pl.staged.refblocks) (hmove : sys.move step update rb = none)
    (hsteps : ∃ steps, pl'.steps.steps = (pl.moved step update rb).steps.steps ++ steps)
    (hstaged : pl'.staged = { pl.staged with refblocks := pl'.staged.refblocks })
    (hkept : BlocksKept actOf → pl'.staged.refblocks = rb) : base.perform pl' = none := by
  obtain ⟨steps, hsteps⟩ := hsteps
  have hexec := @Mid.exec_moved _ _ _ _ _ step update rb hmid hfree hrb
  rw [hmove] at hexec
  have hexec' : execAll (pl.moved step update rb).steps.steps
      (base.regions.setRefblocks pl'.staged.refblocks) base.devices = none := by
    rcases hfree.moved hstep with ⟨-, hsteps'⟩ | hb
    · have hcomm := execAll_setRefblocks (base.regions.setRefblocks rb) base.devices
        pl'.staged.refblocks hsteps'
      rw [hexec] at hcomm
      exact hcomm
    · rw [hkept hb]
      exact hexec
  have hregions : { base.regions with staged := pl'.staged }
      = base.regions.setRefblocks pl'.staged.refblocks := by
    rw [hstaged, hmid.staged]
    rfl
  rw [perform_eq, hregions, hsteps, execAll_append, hexec']
  rfl

end Moves

variable (W : Windowed actOf Rel Start Keep rank) {mk : P → Pending} {fuel : Nat} {base : Sys}

include W in
theorem Windowed.eager_total (hkeep : Keep sys.state prog) (hn : rank sys.state prog < n) :
    eager actOf n sys prog acc ≠ .running := by
  induction n generalizing sys prog acc with
  | zero => omega
  | succ n ih =>
    cases hact : actOf sys.state sys.regions.staged prog with
    | refuse e update rb =>
      rw [eager_refuse hact]
      simp
    | finish step =>
      rw [eager, hact]
      dsimp only
      cases sys.move step id sys.regions.staged.refblocks <;> simp
    | move step held update rb next close =>
      cases hmove : sys.move step update rb with
      | none =>
        rw [eager_move_failed hact hmove]
        simp
      | some sys' =>
        rw [eager_move hact hmove]
        obtain ⟨hkeep', hrank⟩ := W.keep hkeep hact
        have hst := move_state hmove
        refine ih ?_ ?_
        · rw [hst]
          exact W.keep_clear hkeep'
        · rw [hst, W.rank_clear]
          omega

/-! ### Windows -/

section

variable (actOf : WriteState → StagedRegions → P → Act P) (pl : Planner) (prog : P)

/-- Everything one stage of an emission loop can come to. -/
inductive StageCase :
    Flow P → Prop where
  | refuse {e update rb} (hact : actOf pl.state pl.staged prog = .refuse e update rb) :
      StageCase (.fail e (pl.moved none update rb) prog)
  | next {step held update rb next}
      (hact : actOf pl.state pl.staged prog = .move step held update rb next false)
      (hfits : pl.Fits step) : StageCase (.next (pl.moved step update rb) next)
  | closed {step held update rb next}
      (hact : actOf pl.state pl.staged prog = .move step held update rb next true)
      (hfits : pl.Fits step) : StageCase (.fail .bufFull (pl.moved step update rb) next)
  | full {step held update rb next close}
      (hact : actOf pl.state pl.staged prog = .move (some step) held update rb next close)
      (hfull : pl.steps.steps.length = pl.steps.capacity) :
      StageCase (.fail .bufFull pl held)
  | finish {step} (hact : actOf pl.state pl.staged prog = .finish step) (hfits : pl.Fits step) :
      StageCase (.finish (pl.moved step id pl.staged.refblocks) prog)
  | finishFull {step} (hact : actOf pl.state pl.staged prog = .finish (some step))
      (hfull : pl.steps.steps.length = pl.steps.capacity) :
      StageCase (.fail .bufFull pl prog)

end

theorem stageCase (actOf : WriteState → StagedRegions → P → Act P) (pl : Planner) (prog : P) :
    StageCase actOf pl prog (actStage actOf pl prog) := by
  unfold actStage
  cases hact : actOf pl.state pl.staged prog with
  | refuse e update rb =>
    have hpl : { pl with state := update pl.state }.setRefblocks rb = pl.moved none update rb := by
      simp [moved, setRefblocks, WriteState.countStep]
    rw [applyAct, hpl]
    exact .refuse hact
  | move step held update rb next close =>
    by_cases hfits : pl.Fits step
    · rw [applyAct, emitOpt_fits hfits]
      cases close with
      | true => exact .closed hact hfits
      | false => exact .next hact hfits
    · obtain ⟨s, rfl, hfull⟩ := not_fits hfits
      rw [applyAct, emitOpt_full hfull]
      exact .full hact hfull
  | finish step =>
    by_cases hfits : pl.Fits step
    · rw [applyAct, emitOpt_fits hfits]
      exact .finish hact hfits
    · obtain ⟨s, rfl, hfull⟩ := not_fits hfits
      rw [applyAct, emitOpt_full hfull]
      exact .finishFull hact hfull

include W in
theorem Windowed.drive_total (hkeep : Keep pl.state prog) (hn : rank pl.state prog < n) :
    ∃ r pl' prog', drive (actStage actOf) n pl prog = some (r, pl', prog') := by
  induction n generalizing pl prog with
  | zero => omega
  | succ n ih =>
    unfold drive
    have hcase := stageCase actOf pl prog
    generalize actStage actOf pl prog = flow at hcase ⊢
    cases hcase with
    | refuse hact => exact ⟨_, _, _, rfl⟩
    | closed hact hfits => exact ⟨_, _, _, rfl⟩
    | full hact hfull => exact ⟨_, _, _, rfl⟩
    | finish hact hfits => exact ⟨_, _, _, rfl⟩
    | finishFull hact hfull => exact ⟨_, _, _, rfl⟩
    | next hact hfits =>
      obtain ⟨hkeep', hrank⟩ := W.keep hkeep hact
      exact ih hkeep' (by simp only [moved]; omega)

/-- An emission loop appends steps and changes the staged refblocks at most. -/
theorem drive_frame {prog' : P} (h : drive (actStage actOf) n pl prog = some (r, pl', prog')) :
    (∃ steps, pl'.steps.steps = pl.steps.steps ++ steps) ∧
      pl'.staged = { pl.staged with refblocks := pl'.staged.refblocks } ∧
      (BlocksKept actOf → pl'.staged.refblocks = pl.staged.refblocks) := by
  induction n generalizing pl prog with
  | zero => cases h
  | succ n ih =>
    have hblocks : ∀ rb, (actOf pl.state pl.staged prog).blocks = some rb →
        BlocksKept actOf → rb = pl.staged.refblocks := fun rb hrb hkept => hkept.1 _ _ _ rb hrb
    unfold drive at h
    generalize hflow : actStage actOf pl prog = flow at h
    have hcase := stageCase actOf pl prog
    rw [hflow] at hcase
    cases hcase with
    | refuse hact | closed hact hfits =>
      cases h
      exact ⟨⟨_, rfl⟩, rfl, hblocks _ (by rw [hact]; rfl)⟩
    | full hact hfull | finishFull hact hfull =>
      cases h
      exact ⟨⟨[], by simp⟩, rfl, fun _ => rfl⟩
    | finish hact hfits =>
      cases h
      exact ⟨⟨_, rfl⟩, rfl, fun _ => rfl⟩
    | next hact hfits =>
      obtain ⟨⟨steps, hsteps⟩, hstaged, hkept⟩ := ih h
      refine ⟨⟨_, by rw [hsteps, moved, append_assoc]⟩, hstaged, fun hb => ?_⟩
      rw [hkept hb]
      exact hblocks _ (by rw [hact]; rfl) hb

section

variable (actOf : WriteState → StagedRegions → P → Act P) (Start : Sys → P → Prop)
  (rank : WriteState → P → Nat) (base : Sys) (pl : Planner) (prog : P) (sys : Sys)

/-- What a window planned from `base` amounts to on the eager machine: the same failure, the same
end, or a number of its actions after which the next window starts. -/
inductive WindowCase :
    Except WriteError Unit → Planner → P → Prop where
  | failed {r pl' prog'} (hexec : base.perform pl' = none)
      (heager : ∃ k, ∀ n acc, eager actOf (n + k) sys prog acc = .execFailed) :
      WindowCase r pl' prog'
  | ended {r pl' prog'} (sys' : Sys) (steps : List Step) (hne : r ≠ .error .bufFull)
      (hsteps : pl'.steps.steps = pl.steps.steps ++ steps) (hmid : Mid base pl' sys')
      (heager : ∃ k, ∀ n acc, eager actOf (n + k) sys prog acc = .done r sys' (acc ++ steps)) :
      WindowCase r pl' prog'
  | again {pl' prog'} (sys' : Sys) (steps : List Step)
      (hsteps : pl'.steps.steps = pl.steps.steps ++ steps) (hmid : Mid base pl' sys')
      (hstart : Start sys' prog') (hle : rank sys'.state prog' ≤ rank sys.state prog)
      (hlt : pl.steps.steps.length ≠ pl.steps.capacity →
        rank sys'.state prog' < rank sys.state prog)
      (heager : ∃ k, ∀ n acc, eager actOf (n + k) sys prog acc =
        eager actOf n sys' prog' (acc ++ steps)) :
      WindowCase (.error .bufFull) pl' prog'

end

theorem Mid.perform_eq (hmid : Mid base pl sys) :
    base.perform pl = some ⟨pl.state, sys.regions, sys.devices⟩ := by
  have hstaged : { base.regions with staged := pl.staged }
      = base.regions.setRefblocks pl.staged.refblocks := by
    rw [hmid.staged]
    rfl
  rw [Instar.Write.perform_eq, hstaged, hmid.exec]
  rfl

include W in
/-- One window does what the eager run does. -/
theorem Windowed.window_eager {prog' : P} (hmid : Mid base pl sys)
    (hfree : FreePlanner actOf pl) (hrel : Rel pl prog sys)
    (h : drive (actStage actOf) n pl prog = some (r, pl', prog')) :
    WindowCase actOf Start rank base pl prog sys r pl' prog' := by
  induction n generalizing pl prog sys with
  | zero => cases h
  | succ n ih =>
    have hact_sys := W.act hrel
    have hrank_sys : rank sys.state prog = rank pl.state prog := by
      rw [hmid.state, W.rank_clear]
    -- the side conditions of `Mid.moved`, for the action taken here
    have hkeeps : ∀ s, (actOf pl.state pl.staged prog).pushed = some s → s.KeepsBlocks := by
      intro s hs
      rcases W.free with havoid | hkept
      · exact .inl (havoid _ _ _ s hs)
      · exact hkept.2 _ _ _ s hs
    have hblocks : ∀ rb, (actOf pl.state pl.staged prog).blocks = some rb →
        BlocksKept actOf → rb = pl.staged.refblocks := fun rb hrb hkept => hkept.1 _ _ _ rb hrb
    have havoid : StepsAvoid actOf → ∀ s, (actOf pl.state pl.staged prog).pushed = some s →
        s.region ≠ .refblocks := fun havoid => havoid _ _ _
    unfold drive at h
    have hcase := stageCase actOf pl prog
    generalize actStage actOf pl prog = flow at hcase h
    cases hcase with
    | @refuse e update rb hact =>
      cases h
      rw [hact] at hkeeps hblocks hact_sys
      refine .ended (sys.refuse update rb) [] ?_ (by simp [moved]) ?_ ⟨1, ?_⟩
      · intro heq
        exact W.refuse_ne hact (by simpa using heq)
      · exact hmid.moved hfree (hblocks rb rfl) (fun s hs => by cases hs) (W.clear_refuse hact) rfl
      · intro m acc
        rw [eager_refuse hact_sys, append_nil]
    | @full step held update rb next close hact hfull =>
      cases h
      obtain ⟨hstart, heager⟩ := W.full hrel hact
      have hheld : rank sys.state prog' ≤ rank sys.state prog := by
        rw [hmid.state, W.rank_clear, W.rank_clear]
        exact W.rank_held hact
      refine .again sys [] (by simp) hmid hstart hheld (fun hne => absurd hfull hne) ⟨0, ?_⟩
      intro m acc
      rw [add_zero, append_nil, heager]
    | @finishFull step hact hfull =>
      cases h
      refine .again sys [] (by simp) hmid (W.stay hrel) le_rfl (fun hne => absurd hfull hne) ⟨0, ?_⟩
      intro m acc
      rw [add_zero, append_nil]
    | @finish step hact hfits =>
      cases h
      rw [hact] at hkeeps hact_sys havoid
      cases hmove : sys.move step id sys.regions.staged.refblocks with
      | none =>
        refine .failed ?_ ⟨1, ?_⟩
        · rw [hmid.blocks] at hmove
          exact hmid.stuck hfree havoid (fun _ => rfl) hmove ⟨[], (append_nil _).symm⟩ rfl
            fun _ => rfl
        · intro m acc
          rw [eager, hact_sys]
          dsimp only
          rw [hmove]
      | some sys' =>
        refine .ended sys' step.toList (by simp) rfl ?_ ⟨1, ?_⟩
        · rw [hmid.blocks] at hmove
          exact hmid.moved hfree (fun _ => rfl) hkeeps (fun st => rfl) hmove
        · intro m acc
          rw [eager, hact_sys]
          dsimp only
          rw [hmove]
    | @closed step held update rb next hact hfits =>
      cases h
      have hclear := W.clear_move hact
      obtain ⟨-, hrank⟩ := W.keep (W.rel_keep hrel) hact
      rw [hact] at hkeeps hblocks hact_sys havoid
      cases hmove : sys.move step update rb with
      | none =>
        refine .failed ?_ ⟨1, fun m acc => eager_move_failed hact_sys hmove m acc⟩
        exact hmid.stuck hfree havoid (hblocks rb rfl) hmove ⟨[], (append_nil _).symm⟩ rfl
          fun _ => rfl
      | some sys' =>
        have hmid' : Mid base (pl.moved step update rb) sys' :=
          hmid.moved hfree (hblocks rb rfl) hkeeps hclear hmove
        have hlt : rank sys'.state prog' < rank sys.state prog := by
          rw [hmid'.state, W.rank_clear, hrank_sys]
          exact hrank
        refine .again sys' step.toList rfl hmid' (W.closed hrel hact hmove) hlt.le (fun _ =>
          hlt) ⟨1, ?_⟩
        exact fun m acc => eager_move hact_sys hmove m acc
    | @next step held update rb next hact hfits =>
      have hclear := W.clear_move hact
      obtain ⟨-, hrank⟩ := W.keep (W.rel_keep hrel) hact
      rw [hact] at hkeeps hblocks hact_sys havoid
      cases hmove : sys.move step update rb with
      | none =>
        refine .failed ?_ ⟨1, fun m acc => eager_move_failed hact_sys hmove m acc⟩
        obtain ⟨hsteps, hstaged, hkept⟩ := drive_frame h
        exact hmid.stuck hfree havoid (hblocks rb rfl) hmove hsteps hstaged hkept
      | some sys' =>
        have hmid' : Mid base (pl.moved step update rb) sys' :=
          hmid.moved hfree (hblocks rb rfl) hkeeps hclear hmove
        have hlt : rank sys'.state next < rank sys.state prog := by
          rw [hmid'.state, W.rank_clear, hrank_sys]
          exact hrank
        have hwin := ih hmid' (hfree.moved havoid) (W.next hrel hact hmove) h
        have hstep : ∀ m acc, eager actOf (m + 1) sys prog acc
            = eager actOf m sys' next (acc ++ step.toList) :=
          fun m acc => eager_move hact_sys hmove m acc
        cases hwin with
        | failed hexec heager =>
          obtain ⟨k, hk⟩ := heager
          refine .failed hexec ⟨k + 1, fun m acc => ?_⟩
          rw [← add_assoc, hstep, hk]
        | ended sys'' steps hne hsteps hmid'' heager =>
          obtain ⟨k, hk⟩ := heager
          refine .ended sys'' (step.toList ++ steps) hne ?_ hmid'' ⟨k + 1, fun m acc => ?_⟩
          · rw [hsteps, moved, append_assoc]
          · rw [← add_assoc, hstep, hk, append_assoc]
        | again sys'' steps hsteps hmid'' hstart hle hlt' heager =>
          obtain ⟨k, hk⟩ := heager
          refine .again sys'' (step.toList ++ steps) ?_ hmid'' hstart (by omega)
            (fun _ => by omega) ⟨k + 1, fun m acc => ?_⟩
          · rw [hsteps, moved, append_assoc]
          · rw [← add_assoc, hstep, hk, append_assoc]

/-! ### The plan / execute / resume loop -/

/-- Run an emission loop from a planner whose call has begun, and record where to resume. -/
def continueWith (actOf : WriteState → StagedRegions → P → Act P) (mk : P → Pending) (fuel : Nat)
    (pl : Planner) (prog : P) : Option (Except WriteError Unit × Planner) :=
  match drive (actStage actOf) fuel pl prog with
  | none => none
  | some (.error .bufFull, pl, prog) =>
    some (.error .bufFull, { pl with state := { pl.state with pending := mk prog } })
  | some (r, pl, _) => some (r, pl)

theorem continueWith_full {prog' : P}
    (h : drive (actStage actOf) fuel pl prog = some (.error .bufFull, pl', prog')) :
    continueWith actOf mk fuel pl prog
      = some (.error .bufFull, { pl' with state := { pl'.state with pending := mk prog' } }) := by
  unfold continueWith
  rw [h]

theorem continueWith_ended {prog' : P}
    (hne : r ≠ .error .bufFull) (h : drive (actStage actOf) fuel pl prog = some (r, pl', prog')) :
    continueWith actOf mk fuel pl prog = some (r, pl') := by
  unfold continueWith
  rw [h]
  cases r with
  | ok u => rfl
  | error e => cases e <;> first | rfl | exact absurd rfl hne

theorem continueWrite_eq (pl : Planner) (prog : WriteProgress) : continueWrite pl prog
      = continueWith writeActOf .write (writeFuel prog) (beginCall pl) prog := by
  have hstage : writeStage = actStage writeActOf := by
    funext pl prog
    exact writeStage_eq pl prog
  unfold continueWrite driveWrite continueWith
  rw [hstage]
  rcases drive (actStage writeActOf) (writeFuel prog) (beginCall pl) prog with _ | ⟨r, pl', prog'⟩
  · rfl
  · cases r with
    | ok u => rfl
    | error e => cases e <;> rfl

theorem continueFlush_eq (pl : Planner) (prog : FlushProgress) : continueFlush pl prog
      = continueWith flushActOf .flush (flushFuel pl.state) (beginCall pl) prog := by
  have hstage : flushStage = actStage flushActOf := by
    funext pl prog
    exact flushStage_eq pl prog
  have hfuel : flushFuel (beginCall pl).state = flushFuel pl.state := rfl
  unfold continueFlush driveFlush continueWith
  rw [hstage, hfuel]
  rcases drive (actStage flushActOf) (flushFuel pl.state) (beginCall pl) prog with _ |
    ⟨r, pl', prog'⟩
  · rfl
  · cases r with
    | ok u => rfl
    | error e => cases e <;> rfl

/-- The loop's system between two windows: the eager one, with the interrupted request recorded
and zeroings still marked as queued. -/
structure Between (mk : P → Pending) (outer sys : Sys) (prog : P) : Prop where
  regions : outer.regions = sys.regions
  devices : outer.devices = sys.devices
  state : sys.state = { outer.state with pending := .idle }.pendingZeroClearAll

theorem Between.begin_planner (h : Between mk outer sys prog)
    (capacity : Nat) : beginCall (outer.planner capacity) = sys.planner capacity := by
  unfold beginCall planner
  rw [h.state, h.regions]

theorem Between.perform (h : Between mk outer sys prog) (pl : Planner) :
    outer.perform pl = sys.perform pl := by
  unfold Sys.perform
  rw [h.regions, h.devices]

include W in
/-- All windows of a request do what the eager run does. -/
theorem Windowed.served_eager {fuelOf : Sys → P → Nat} {first : P} {capacity : Nat}
    {req : Request} (hcap : capacity ≠ 0) (hidle : ∀ {sys prog}, Start sys prog →
      sys.state.pending = .idle)
    (hfuel : ∀ {sys prog}, Start sys prog → rank sys.state prog < fuelOf sys prog)
    (hplan : ∀ {outer sys prog}, Start sys prog → Between mk outer sys prog →
      outer.state.pending = mk prog ∨ outer.state.pending = .idle ∧ prog = first →
      planRequest (outer.planner capacity) req
      = continueWith actOf mk (fuelOf sys prog) (sys.planner capacity) prog)
    (hstart : Start sys prog) (hclear : sys.state.pendingZeroClearAll = sys.state)
    (hbetween : Between mk outer sys prog)
    (hpending : outer.state.pending = mk prog ∨ outer.state.pending = .idle ∧ prog = first)
    (hrank : rank sys.state prog < fuel) (acc : List Step) :
    ∃ k, ∀ n, (serve capacity req fuel outer acc).settle = eager actOf (n + k) sys prog acc := by
  induction fuel generalizing outer sys prog acc with
  | zero => omega
  | succ fuel ih =>
    have hrel := W.start capacity hstart hclear
    obtain ⟨r, pl, prog', hdrive⟩ := W.drive_total (W.rel_keep hrel) (hfuel hstart)
    have hmid : Mid sys (sys.planner capacity) sys := ⟨hclear.symm, rfl, rfl, rfl⟩
    have hfree : FreePlanner actOf (sys.planner capacity) := by
      rcases W.free with havoid | hkept
      · exact .inl ⟨havoid, by simp [planner]⟩
      · exact .inr hkept
    have hcase := W.window_eager hmid hfree hrel hdrive
    have hplan' := hplan hstart hbetween hpending
    unfold serve
    cases hcase with
    | failed hexec heager =>
      obtain ⟨k, hk⟩ := heager
      refine ⟨k, fun n => ?_⟩
      have hfailed : ∀ st, outer.perform { pl with state := st } = none := by
        intro st
        rw [hbetween.perform, perform_eq]
        rw [perform_eq, map_eq_none_iff] at hexec
        rw [hexec]
        rfl
      -- the outcome of the call does not matter: its window fails
      by_cases hr : r = .error .bufFull
      · rw [hr] at hdrive
        rw [hk, hplan', continueWith_full hdrive]
        dsimp only
        rw [hfailed]
        rfl
      · rw [hk, hplan', continueWith_ended hr hdrive]
        dsimp only
        rw [show outer.perform pl = none from hfailed pl.state]
        rfl
    | ended sys' steps hne hsteps hmid' heager =>
      obtain ⟨k, hk⟩ := heager
      refine ⟨k, fun n => ?_⟩
      have hperform : outer.perform pl = some ⟨pl.state, sys'.regions, sys'.devices⟩ := by
        rw [hbetween.perform, hmid'.perform_eq]
      have hsys : (⟨pl.state, sys'.regions, sys'.devices⟩ : Sys).settle = sys' := by
        unfold settle
        rw [← hmid'.state]
      rw [hk, hplan', continueWith_ended hne hdrive]
      dsimp only
      rw [hperform]
      dsimp only
      split
      · exact absurd rfl hne
      · rw [Served.settle, hsys, hsteps]
        rfl
    | again sys' steps hsteps hmid' hstart' hle hlt heager =>
      obtain ⟨k, hk⟩ := heager
      have hlt' : rank sys'.state prog' < rank sys.state prog :=
        hlt (by simpa [planner] using hcap.symm)
      have hpl : pl.state.pending = .idle := by
        have h := hidle hstart'
        rw [hmid'.state] at h
        exact h
      have hbetween' : Between mk
          ⟨{ pl.state with pending := mk prog' }, sys'.regions, sys'.devices⟩ sys' prog' := by
        refine ⟨rfl, rfl, ?_⟩
        rw [hmid'.state]
        show pl.state.pendingZeroClearAll = { pl.state with pending := .idle }.pendingZeroClearAll
        rw [← hpl]
      have hclear' : sys'.state.pendingZeroClearAll = sys'.state := by
        rw [hmid'.state]
        rfl
      obtain ⟨k', hk'⟩ := ih hstart' hclear' hbetween' (.inl rfl) (by omega) (acc ++ pl.steps.steps)
      refine ⟨k' + k, fun n => ?_⟩
      have hperform : outer.perform { pl with state := { pl.state with pending := mk prog' } }
          = some ⟨{ pl.state with pending := mk prog' }, sys'.regions, sys'.devices⟩ := by
        have h := hmid'.perform_eq
        rw [hbetween.perform, perform_eq]
        rw [perform_eq, map_eq_some_iff] at h
        obtain ⟨p, hp, hpe⟩ := h
        injection hpe with _ hregions hdevices
        rw [hp, map_some, hregions, hdevices]
      rw [← add_assoc, hk, hplan', continueWith_full hdrive]
      dsimp only
      rw [hperform]
      rw [hk' n, hsteps]
      rfl

end Instar.Write
