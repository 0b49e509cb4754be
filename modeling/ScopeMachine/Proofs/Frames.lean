import ScopeMachine.CallStack
import ScopeMachine.Program
import ScopeMachine.Proofs.Sequencing
import ScopeMachine.RegisterFile

/-! # Frames above frames

All activations share one register file, so an activation stands on the frames that were there when
it was entered. What it opens lies above them.

* `framesOf` is the total view of a register file; the operations of `Registers` are described
  through it;
* `Above entry file scopes` says that a file is an earlier one with one more frame for each open
  scope. Opening, closing and rebinding keep to the frames on top: `Above.push`, `Above.pop`,
  `Above.rebind`, `Above.popAll`;
* `Stacked` does this for all activations of a machine; `Stacked.depth_eq` counts the frames. -/

namespace ScopeMachine

/-! ### The view of a register file -/

namespace RegisterFile

variable {file : RegisterFile} {reg : RegId}

/-- The frames of a register; none if the file does not have the register. -/
def framesOf (file : RegisterFile) (reg : RegId) : List Frame := file.byReg[reg.index]?.getD []

/-- The file has a register. -/
def Has (file : RegisterFile) (reg : RegId) : Prop := reg.index < file.byReg.size

/-- The number of frames, through the view. -/
theorem depth_eq (file : RegisterFile) (reg : RegId) :
    file.depth reg = (file.framesOf reg).length :=
  rfl

/-- A register that the file has is found with its frames. -/
theorem frames_eq_ok (has : file.Has reg) : file.frames reg = .ok (file.framesOf reg) := by
  unfold frames framesOf
  rw [Array.getElem?_eq_getElem has]
  rfl

/-- A register that the file does not have is missing. -/
theorem frames_eq_error (lacks : ¬ file.Has reg) :
    file.frames reg = .error (.missing (.register reg)) := by
  unfold frames
  rw [Array.getElem?_eq_none (Nat.le_of_not_lt lacks)]
  rfl

/-- Only registers of the file have frames. -/
theorem has_of_framesOf_ne_nil (some : file.framesOf reg ≠ []) : file.Has reg := by
  apply Classical.byContradiction
  intro lacks
  apply some
  unfold framesOf
  rw [Array.getElem?_eq_none (Nat.le_of_not_lt lacks)]
  rfl

/-- A register with a top frame is one of the file. -/
theorem has_of_framesOf_eq_cons {frame : Frame} {frames : List Frame}
    (top : file.framesOf reg = frame :: frames) : file.Has reg := by
  apply has_of_framesOf_ne_nil
  rw [top]
  exact List.cons_ne_nil _ _

/-- Changing frames does not change which registers there are. -/
@[simp] theorem size_modifyFrames (file : RegisterFile) (reg : RegId)
    (change : List Frame → List Frame) :
    (file.modifyFrames reg change).byReg.size = file.byReg.size := by
  unfold modifyFrames
  rw [Array.size_modify]

/-- The frames of one register change, and those of all others stay. -/
theorem framesOf_modifyFrames (has : file.Has reg) (change : List Frame → List Frame)
    (other : RegId) :
    (file.modifyFrames reg change).framesOf other =
      if other = reg then change (file.framesOf reg) else file.framesOf other := by
  unfold modifyFrames framesOf
  rw [Array.getElem?_modify]
  by_cases same : other = reg
  · subst same
    rw [if_pos rfl, if_pos rfl, Array.getElem?_eq_getElem has]
    rfl
  · have differs : reg.index ≠ other.index := fun equal => same (RegId.ext_index equal.symm)
    rw [if_neg differs, if_neg same]

/-- Closing the top frame of a register, if there is one. -/
theorem framesOf_pop (file : RegisterFile) (reg other : RegId) :
    (file.modifyFrames reg List.tail).framesOf other =
      if other = reg then (file.framesOf reg).tail else file.framesOf other := by
  by_cases has : file.Has reg
  · exact framesOf_modifyFrames has List.tail other
  · -- both sides are empty for `reg`: there is nothing to modify, and no frames have no tail
    unfold modifyFrames framesOf
    rw [Array.getElem?_modify]
    by_cases same : other = reg
    · subst same
      rw [if_pos rfl, if_pos rfl, Array.getElem?_eq_none (Nat.le_of_not_lt has)]
      rfl
    · have differs : reg.index ≠ other.index := fun equal => same (RegId.ext_index equal.symm)
      rw [if_neg differs, if_neg same]

/-- Files of as many registers with the same frames are the same. There must not be more registers
than register identifiers. -/
theorem ext_framesOf {left right : RegisterFile} (size : left.byReg.size = right.byReg.size)
    (named : left.byReg.size ≤ RegId.maxIndex + 1)
    (equal : ∀ reg, left.framesOf reg = right.framesOf reg) : left = right := by
  obtain ⟨left⟩ := left
  obtain ⟨right⟩ := right
  congr 1
  apply Array.ext size
  intro index insideLeft insideRight
  -- `named` makes the index one of a register identifier, and only of those is `equal` a statement
  have small : index ≤ RegId.maxIndex := by
    have : left.size ≤ RegId.maxIndex + 1 := named
    omega
  have same := equal ⟨index, small⟩
  unfold framesOf at same
  dsimp only at same
  rw [Array.getElem?_eq_getElem insideLeft, Array.getElem?_eq_getElem insideRight] at same
  exact same

/-- Close the top frame of each of some registers. -/
def popAll (file : RegisterFile) (regs : List RegId) : RegisterFile :=
  regs.foldl (fun file reg => file.modifyFrames reg List.tail) file

end RegisterFile

/-! ### Operations through the view -/

namespace Registers

variable {file : RegisterFile} {reg : RegId}

/-- What follows a look at the file. -/
theorem inspect_bind_apply {α β : Type} (look : RegisterFile → Except Error α)
    (next : α → Registers β) :
    (inspect look >>= next) file =
      match look file with
      | .ok value => next value file
      | .error error => .error error file := by
  unfold inspect
  rw [bind_apply, get_bind_apply]
  cases look file <;> rfl

/-- Opening a frame of a register that the file has. -/
theorem push_apply (has : file.Has reg) (frame : Frame) :
    push reg frame file = .ok () (file.modifyFrames reg (frame :: ·)) := by
  unfold push
  rw [inspect_bind_apply, RegisterFile.frames_eq_ok has]
  rfl

/-- A register that the file does not have gets no frame. -/
theorem push_apply_of_not_has (lacks : ¬ file.Has reg) (frame : Frame) :
    push reg frame file = .error (.missing (.register reg)) file := by
  unfold push
  rw [inspect_bind_apply, RegisterFile.frames_eq_error lacks]

/-- Closing the top frame of a register that has one. -/
theorem pop_apply {frame : Frame} {frames : List Frame}
    (top : file.framesOf reg = frame :: frames) :
    pop reg file = .ok frame (file.modifyFrames reg List.tail) := by
  have has := RegisterFile.has_of_framesOf_eq_cons top
  unfold pop
  rw [inspect_bind_apply, RegisterFile.frames_eq_ok has, top]
  rfl

/-- Binding the top frame of a register that has one. -/
theorem rebind_apply {old : Frame} {frames : List Frame}
    (top : file.framesOf reg = old :: frames) (frame : Frame) :
    rebind reg frame file =
      .ok old (file.modifyFrames reg fun frames => frame :: frames.tail) := by
  have has := RegisterFile.has_of_framesOf_eq_cons top
  unfold rebind
  rw [inspect_bind_apply, RegisterFile.frames_eq_ok has, top]
  rfl

end Registers

/-! ### Frames above an earlier file -/

/-- A file is an earlier one with one more frame for each open scope. The frames of the earlier file
are still there, below. -/
structure Above (entry file : RegisterFile) (scopes : Scopes) : Prop where
  /-- The files have the same registers. -/
  size : file.byReg.size = entry.byReg.size
  /-- Each register has as many frames of its own as scopes. -/
  own : ∀ reg, ∃ own, file.framesOf reg = own ++ entry.framesOf reg ∧ own.length = scopes.count reg

section
variable {entry file : RegisterFile} {scopes : Scopes} {reg : RegId}

/-- Without open scopes a file is as it was. -/
theorem Above.refl (file : RegisterFile) : Above file file [] :=
  ⟨rfl, fun _ => ⟨[], rfl, rfl⟩⟩

/-- A file without open scopes above an earlier one is the earlier one. -/
theorem Above.eq_of_nil (above : Above entry file [])
    (named : file.byReg.size ≤ RegId.maxIndex + 1) : file = entry := by
  refine RegisterFile.ext_framesOf above.size named ?_
  intro reg
  obtain ⟨own, frames, length⟩ := above.own reg
  have none : own = [] := List.length_eq_zero_iff.mp length
  rw [frames, none]
  rfl

/-- The number of frames of a register. -/
theorem Above.depth_eq (above : Above entry file scopes) (reg : RegId) :
    file.depth reg = scopes.count reg + entry.depth reg := by
  obtain ⟨own, frames, length⟩ := above.own reg
  rw [RegisterFile.depth_eq, frames, List.length_append, length]
  rfl

/-- A register without open scope has the frames that it had. -/
theorem Above.framesOf_of_not_mem (above : Above entry file scopes) (closed : reg ∉ scopes) :
    file.framesOf reg = entry.framesOf reg := by
  obtain ⟨own, frames, length⟩ := above.own reg
  rw [List.count_eq_zero.mpr closed] at length
  rw [frames, List.length_eq_zero_iff.mp length]
  rfl

/-- A register with an open scope has a frame of its own on top. -/
theorem Above.exists_cons (above : Above entry file scopes) (opened : reg ∈ scopes) :
    ∃ frame own, file.framesOf reg = frame :: own ++ entry.framesOf reg ∧
      own.length + 1 = scopes.count reg := by
  obtain ⟨own, frames, length⟩ := above.own reg
  cases own with
  | nil =>
      -- an open scope is counted, so `own` cannot be empty
      have some := List.count_pos_iff.mpr opened
      rw [← length] at some
      cases some
  | cons frame own => exact ⟨frame, own, frames, length⟩

/-- Frames are only added. -/
theorem Above.framesOf_ne_nil (above : Above entry file scopes) (some : entry.framesOf reg ≠ []) :
    file.framesOf reg ≠ [] := by
  obtain ⟨own, frames, -⟩ := above.own reg
  rw [frames]
  exact List.append_ne_nil_of_right_ne_nil own some

/-- A register with an open scope has a frame. -/
theorem Above.framesOf_ne_nil_of_mem (above : Above entry file scopes) (opened : reg ∈ scopes) :
    file.framesOf reg ≠ [] := by
  obtain ⟨frame, own, frames, -⟩ := above.exists_cons opened
  rw [frames]
  exact List.cons_ne_nil _ _

/-- Opening a scope puts a frame on top. -/
theorem Above.push (above : Above entry file scopes) (has : file.Has reg) (frame : Frame) :
    Above entry (file.modifyFrames reg (frame :: ·)) (reg :: scopes) where
  size := by rw [RegisterFile.size_modifyFrames, above.size]
  own := by
    intro other
    obtain ⟨own, frames, length⟩ := above.own other
    rw [RegisterFile.framesOf_modifyFrames has]
    by_cases same : other = reg
    · subst same
      refine ⟨frame :: own, ?_, ?_⟩
      · rw [if_pos rfl, frames]
        rfl
      · rw [List.count_cons_self, List.length_cons, length]
    · refine ⟨own, ?_, ?_⟩
      · rw [if_neg same, frames]
      · rw [List.count_cons_of_ne (Ne.symm same), length]

/-- Closing an open scope takes its frame away. -/
theorem Above.pop (above : Above entry file scopes) (opened : reg ∈ scopes) :
    Above entry (file.modifyFrames reg List.tail) (scopes.erase reg) where
  size := by rw [RegisterFile.size_modifyFrames, above.size]
  own := by
    intro other
    have has := RegisterFile.has_of_framesOf_ne_nil (above.framesOf_ne_nil_of_mem opened)
    rw [RegisterFile.framesOf_modifyFrames has]
    by_cases same : other = reg
    · subst same
      obtain ⟨frame, own, frames, length⟩ := above.exists_cons opened
      refine ⟨own, ?_, ?_⟩
      · rw [if_pos rfl, frames]
        rfl
      · rw [List.count_erase_self]
        omega
    · obtain ⟨own, frames, length⟩ := above.own other
      refine ⟨own, ?_, ?_⟩
      · rw [if_neg same, frames]
      · rw [List.count_erase_of_ne same, length]

/-- Binding the frame of an open scope keeps to the frames on top. -/
theorem Above.rebind (above : Above entry file scopes) (opened : reg ∈ scopes) (frame : Frame) :
    Above entry (file.modifyFrames reg fun frames => frame :: frames.tail) scopes where
  size := by rw [RegisterFile.size_modifyFrames, above.size]
  own := by
    intro other
    have has := RegisterFile.has_of_framesOf_ne_nil (above.framesOf_ne_nil_of_mem opened)
    rw [RegisterFile.framesOf_modifyFrames has]
    by_cases same : other = reg
    · subst same
      obtain ⟨old, own, frames, length⟩ := above.exists_cons opened
      refine ⟨frame :: own, ?_, length⟩
      rw [if_pos rfl, frames]
      rfl
    · obtain ⟨own, frames, length⟩ := above.own other
      exact ⟨own, by rw [if_neg same, frames], length⟩

/-- Closing the last scopes, one after the other. -/
theorem Above.popAll (above : Above entry file scopes) {count : Nat}
    (enough : count ≤ scopes.length) :
    Above entry (file.popAll (scopes.take count)) (scopes.drop count) := by
  -- the innermost scope is closed first, so file and scopes both change before the next
  induction count generalizing file scopes with
  | zero => exact above
  | succ count ih =>
      cases scopes with
      | nil => cases enough
      | cons reg scopes =>
          have closed := above.pop List.mem_cons_self
          rw [List.erase_cons_head] at closed
          exact ih closed (Nat.le_of_succ_le_succ enough)

end

/-! ### Activations above activations -/

/-- An activation together with the register file that it was entered with. -/
structure Level where
  /-- The activation. -/
  activation : Activation
  /-- The code of its procedure. -/
  code : ProcCode
  /-- The register file when it was entered. -/
  entry : RegisterFile

/-- Each activation, the innermost first, stands on the file that it was entered with, and the
outermost on the file at the start. -/
def Stacked (start : RegisterFile) : List Level → RegisterFile → Prop
  | [], file => file = start
  | level :: levels, file =>
      Above level.entry file level.activation.scopes ∧ Stacked start levels level.entry

section
variable {start file : RegisterFile} {levels : List Level}

/-- All files have the same registers. -/
theorem Stacked.size (stacked : Stacked start levels file) :
    file.byReg.size = start.byReg.size := by
  induction levels generalizing file with
  | nil => rw [show file = start from stacked]
  | cons level levels ih => rw [stacked.1.size, ih stacked.2]

/-- **The number of frames of a register**: those at the start, and one for each open scope of each
activation. -/
theorem Stacked.depth_eq (stacked : Stacked start levels file) (reg : RegId) :
    file.depth reg =
      start.depth reg + (levels.flatMap fun level => level.activation.scopes).count reg := by
  -- the outer activations are stacked in the file that the innermost was entered with
  induction levels generalizing file with
  | nil => rw [show file = start from stacked]; rfl
  | cons level levels ih =>
      rw [stacked.1.depth_eq, ih stacked.2, List.flatMap_cons, List.count_append]
      omega

/-- A register that no activation has a scope of has the frames that it had at the start. -/
theorem Stacked.framesOf_eq (stacked : Stacked start levels file) {reg : RegId}
    (closed : ∀ level ∈ levels, reg ∉ level.activation.scopes) :
    file.framesOf reg = start.framesOf reg := by
  induction levels generalizing file with
  | nil => rw [show file = start from stacked]
  | cons level levels ih =>
      rw [stacked.1.framesOf_of_not_mem (closed level List.mem_cons_self)]
      exact ih stacked.2 fun level member => closed level (List.mem_cons_of_mem _ member)

end

end ScopeMachine
