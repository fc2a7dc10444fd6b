/-
**Where a new thread's stack and control block lie.**

`pthread_create` cuts one block of memory into the stack of the task and the control block.

* `StackConfig` — the width of `size_t`, `sizeof (pthread_info)`, the alignment of stacks and
  `PTHREAD_STACK_MIN`, none of which is fixed here.
* `StackAttr`, `Accepted` — the attributes that the setters of the layer can produce.
* `pthreadCreateLayout` — the arithmetic of `pthread_create`, in both directions of growth.
* `Fits` — the alignment divides the size of the control block (growing down), or the size rounded
  up with the gap is within the block (growing up).
* **`stack_layout_iff`** — exactly then the stack and the control block are apart and inside the
  block. Growing down, the size is rounded *down*, so that the control block reaches behind the end
  unless it is a multiple of the alignment.
-/

import Mathlib.Data.Nat.Basic
import Aple.Pthread.Table

namespace Aple.Pthread

/-! ### Sizes -/

/-- What the platform and the compiler decide. `STACK_ROUND_UP` and `STACK_ROUND_DOWN` round to
multiples of `align`; `infoSize` is `sizeof (pthread_info)`. -/
structure StackConfig where
  width : ℕ
  align : ℕ
  infoSize : ℕ
  stackMin : BitVec width
  wide : 16 ≤ width
  align_pos : 0 < align
  align_lt : align < 2 ^ width
  infoSize_pos : 0 < infoSize
  infoSize_lt : infoSize < 2 ^ width

/-- A value of type `size_t`. -/
abbrev SizeT (cfg : StackConfig) := BitVec cfg.width

variable {cfg : StackConfig}

/-- `PTHREAD_STACK_DEFAULT`. -/
def stackDefault : SizeT cfg := BitVec.ofNat _ (1024 * 4)

def stackRoundDown (cfg : StackConfig) (size : ℕ) : ℕ := size / cfg.align * cfg.align

def stackRoundUp (cfg : StackConfig) (size : ℕ) : ℕ := stackRoundDown cfg (size + (cfg.align - 1))

theorem stackRoundDown_le (cfg : StackConfig) (size : ℕ) : stackRoundDown cfg size ≤ size := Nat.div_mul_le_self _ _

theorem stackRoundDown_eq_iff {size : ℕ} : stackRoundDown cfg size = size ↔ cfg.align ∣ size := by
  rw [stackRoundDown, Nat.dvd_iff_div_mul_eq]

theorem lt_stackRoundDown (cfg : StackConfig) (size : ℕ) : size < stackRoundDown cfg size + cfg.align := by
  have rest := Nat.mod_lt size cfg.align_pos
  have whole := Nat.div_add_mod' size cfg.align
  unfold stackRoundDown
  omega

theorem le_stackRoundUp (cfg : StackConfig) (size : ℕ) : size ≤ stackRoundUp cfg size := by
  have near := lt_stackRoundDown cfg (size + (cfg.align - 1))
  have pos := cfg.align_pos
  unfold stackRoundUp
  omega

theorem stackRoundUp_lt (cfg : StackConfig) (size : ℕ) : stackRoundUp cfg size < size + cfg.align := by
  have near := stackRoundDown_le cfg (size + (cfg.align - 1))
  have pos := cfg.align_pos
  unfold stackRoundUp
  omega

/-! ### Regions of memory -/

/-- The bytes from `start` on, up to `stop`. -/
structure Region where
  start : ℤ
  stop : ℤ

namespace Region

variable {start stop start' stop' : ℤ}

def Holds (region : Region) (byte : ℤ) : Prop := region.start ≤ byte ∧ byte < region.stop

/-- All bytes are bytes of the other region. -/
def Within (region other : Region) : Prop := ∀ byte, region.Holds byte → other.Holds byte

/-- No byte is in both. -/
def Apart (region other : Region) : Prop := ∀ byte, region.Holds byte → ¬ other.Holds byte

theorem within_of_le (first : start' ≤ start) (last : stop ≤ stop') :
    (mk start stop).Within (mk start' stop') :=
  fun _ holds => ⟨first.trans holds.1, lt_of_lt_of_le holds.2 last⟩

/-- A region with a byte reaches no further than one that it is within. -/
theorem Within.le (within : (mk start stop).Within (mk start' stop')) (some_byte : start < stop) :
    stop ≤ stop' := by
  have last : stop - 1 < stop' := (within (stop - 1) ⟨Int.le_sub_one_of_lt some_byte,
    Int.sub_one_lt_of_le (le_refl _)⟩).2
  omega

theorem apart_of_le (before : stop ≤ start') : (mk start stop).Apart (mk start' stop') := by
  intro byte holds holds'
  exact absurd (lt_of_lt_of_le holds.2 before) (Int.not_lt.mpr holds'.1)

theorem Apart.symm {region other : Region} (apart : region.Apart other) : other.Apart region :=
  fun byte holds holds' => apart byte holds' holds

end Region

/-! ### Attributes -/

/-- The fields of `pthread_attr_t` about the stack. -/
structure StackAttr (cfg : StackConfig) where
  stackaddrValid : Bool
  stackaddr : ℤ
  stacksizeValid : Bool
  stacksize : SizeT cfg

/-- `pthread_attr_init`. -/
def pthreadAttrInit : StackAttr cfg := ⟨false, 0, false, 0⟩

/-- `pthread_attr_setstackaddr`. -/
def pthreadAttrSetstackaddr (stackaddr : ℤ) (attr : StackAttr cfg) : Errno × StackAttr cfg :=
  (.ok, { attr with stackaddr := stackaddr, stackaddrValid := true })

/-- `pthread_attr_setstacksize`. -/
def pthreadAttrSetstacksize (stacksize : SizeT cfg) (attr : StackAttr cfg) :
    Errno × StackAttr cfg :=
  if stacksize < cfg.stackMin then (.einval, attr)
  else (.ok, { attr with stacksizeValid := true, stacksize := stacksize })

/-- The attributes that a program can build. -/
inductive Accepted : StackAttr cfg → Prop
  | init : Accepted pthreadAttrInit
  | stackaddr (stackaddr : ℤ) {attr : StackAttr cfg} : Accepted attr →
      Accepted (pthreadAttrSetstackaddr stackaddr attr).2
  | stacksize (stacksize : SizeT cfg) {attr : StackAttr cfg} : Accepted attr →
      Accepted (pthreadAttrSetstacksize stacksize attr).2

/-- The size that `pthread_create` uses. -/
def createStacksize (attr : StackAttr cfg) : SizeT cfg :=
  if attr.stacksizeValid then attr.stacksize else stackDefault

/-- The block of memory: its end is given, or it comes from `malloc`. -/
def createStackmem (malloc : ℤ) (attr : StackAttr cfg) : ℤ :=
  if attr.stackaddrValid then attr.stackaddr - (createStacksize attr).toNat else malloc

/-- A size that was set is not below the minimum. -/
theorem accepted_size {attr : StackAttr cfg} (accepted : Accepted attr) :
    createStacksize attr = stackDefault ∨ ¬ createStacksize attr < cfg.stackMin := by
  suffices attr.stacksizeValid = true → ¬ attr.stacksize < cfg.stackMin by
    unfold createStacksize
    split
    · exact .inr (this (by assumption))
    · exact .inl rfl
  induction accepted with
  | init =>
    intro valid
    cases valid
  | stackaddr _ _ ih => exact ih
  | stacksize stacksize _ ih =>
    unfold pthreadAttrSetstacksize
    split
    · exact ih
    · exact fun _ => by assumption

/-! ### The layout -/

/-- `_STACK_DIR`. -/
inductive StackDir
  | growsDown | growsUp
deriving DecidableEq, Repr

/-- What is given to `taskInit`, and the control block. -/
structure TaskLayout (cfg : StackConfig) where
  stackbase : ℤ
  stacksize : SizeT cfg
  nthread : ℤ

/-- What is taken from the size of the block. -/
def stackTaken (cfg : StackConfig) : StackDir → SizeT cfg
  | .growsDown => BitVec.ofNat _ (stackRoundDown cfg cfg.infoSize)
  | .growsUp => BitVec.ofNat _ (stackRoundUp cfg (16 + cfg.infoSize))

/-- The arithmetic of `pthread_create`. -/
def pthreadCreateLayout (dir : StackDir) (malloc : ℤ) (attr : StackAttr cfg) : TaskLayout cfg :=
  let stackbase := createStackmem malloc attr
  let stacksize := createStacksize attr - stackTaken cfg dir
  match dir with
  | .growsDown =>
    let stackbase := stackbase + stacksize.toNat
    ⟨stackbase, stacksize, stackbase⟩
  | .growsUp =>
    let nthread := stackbase + 16
    let stackbase := stackbase + (stackTaken cfg dir).toNat
    ⟨stackbase, stacksize, nthread⟩

/-- The stack. One that grows down lies below its base. -/
def TaskLayout.stack (dir : StackDir) (layout : TaskLayout cfg) : Region :=
  match dir with
  | .growsDown => ⟨layout.stackbase - layout.stacksize.toNat, layout.stackbase⟩
  | .growsUp => ⟨layout.stackbase, layout.stackbase + layout.stacksize.toNat⟩

/-- The control block. -/
def TaskLayout.info (layout : TaskLayout cfg) : Region :=
  ⟨layout.nthread, layout.nthread + cfg.infoSize⟩

/-- The block of memory. -/
def stackBlock (malloc : ℤ) (attr : StackAttr cfg) : Region :=
  ⟨createStackmem malloc attr, createStackmem malloc attr + (createStacksize attr).toNat⟩

/-- The subtraction does not wrap; the stack and the control block are apart and inside the block. -/
structure LayoutOk (dir : StackDir) (malloc : ℤ) (attr : StackAttr cfg) : Prop where
  noWrap : (stackTaken cfg dir).toNat ≤ (createStacksize attr).toNat
  apart : ((pthreadCreateLayout dir malloc attr).stack dir).Apart
    (pthreadCreateLayout dir malloc attr).info
  stack : ((pthreadCreateLayout dir malloc attr).stack dir).Within (stackBlock malloc attr)
  info : (pthreadCreateLayout dir malloc attr).info.Within (stackBlock malloc attr)

/-- The sizes that work out. -/
def Fits (cfg : StackConfig) (dir : StackDir) (stacksize : ℕ) : Prop :=
  match dir with
  | .growsDown => cfg.align ∣ cfg.infoSize ∧ cfg.infoSize ≤ stacksize
  | .growsUp => stackRoundUp cfg (16 + cfg.infoSize) ≤ stacksize

section

variable {malloc : ℤ} {attr : StackAttr cfg}

theorem stackTaken_down (cfg : StackConfig) :
    (stackTaken cfg .growsDown).toNat = stackRoundDown cfg cfg.infoSize := by
  rw [stackTaken, BitVec.toNat_ofNat]
  exact Nat.mod_eq_of_lt ((stackRoundDown_le cfg _).trans_lt cfg.infoSize_lt)

/-- The size of the stack of the task. -/
def taskSize (dir : StackDir) (attr : StackAttr cfg) : ℕ :=
  (createStacksize attr - stackTaken cfg dir).toNat

theorem taskSize_eq {dir : StackDir}
    (noWrap : (stackTaken cfg dir).toNat ≤ (createStacksize attr).toNat) :
    taskSize dir attr = (createStacksize attr).toNat - (stackTaken cfg dir).toNat :=
  BitVec.toNat_sub_of_le (BitVec.le_def.mpr noWrap)

theorem stack_down : (pthreadCreateLayout .growsDown malloc attr).stack .growsDown =
    ⟨createStackmem malloc attr, createStackmem malloc attr + taskSize .growsDown attr⟩ := by
  show Region.mk (createStackmem malloc attr + (taskSize .growsDown attr : ℤ) -
    (taskSize .growsDown attr : ℤ)) _ = _
  rw [Int.add_sub_cancel]
  rfl

theorem info_down : (pthreadCreateLayout .growsDown malloc attr).info =
    ⟨createStackmem malloc attr + taskSize .growsDown attr,
      createStackmem malloc attr + taskSize .growsDown attr + cfg.infoSize⟩ := rfl

theorem stack_up : (pthreadCreateLayout .growsUp malloc attr).stack .growsUp =
    ⟨createStackmem malloc attr + (stackTaken cfg .growsUp).toNat,
      createStackmem malloc attr + (stackTaken cfg .growsUp).toNat + taskSize .growsUp attr⟩ := rfl

theorem info_up : (pthreadCreateLayout .growsUp malloc attr).info =
    ⟨createStackmem malloc attr + 16, createStackmem malloc attr + 16 + cfg.infoSize⟩ := rfl

/-- **Growing down**, the control block has as much room as the size was rounded down to. -/
theorem layout_down_iff : LayoutOk .growsDown malloc attr ↔
    Fits cfg .growsDown (createStacksize attr).toNat := by
  have pos := cfg.infoSize_pos
  have taken := stackTaken_down cfg
  have below := stackRoundDown_le cfg cfg.infoSize
  constructor
  · rintro ⟨noWrap, -, -, info⟩
    have size := taskSize_eq noWrap
    rw [info_down, stackBlock] at info
    have inside := info.le (by omega)
    exact ⟨stackRoundDown_eq_iff.mp (by omega), by omega⟩
  · rintro ⟨divides, small⟩
    have exactly := stackRoundDown_eq_iff.mpr divides
    have noWrap : (stackTaken cfg .growsDown).toNat ≤ (createStacksize attr).toNat := by omega
    have size := taskSize_eq noWrap
    constructor
    case noWrap => exact noWrap
    case apart =>
      rw [stack_down, info_down]
      exact Region.apart_of_le (le_refl _)
    case stack =>
      rw [stack_down, stackBlock]
      exact Region.within_of_le (le_refl _) (by omega)
    case info =>
      rw [info_down, stackBlock]
      exact Region.within_of_le (by omega) (by omega)

/-- **Growing up**, the size is rounded up, and the control block has the room that it needs. -/
theorem layout_up_iff : LayoutOk .growsUp malloc attr ↔
    Fits cfg .growsUp (createStacksize attr).toNat := by
  have pos := cfg.infoSize_pos
  have bound : (createStacksize attr).toNat < 2 ^ cfg.width := BitVec.isLt _
  have aligned := cfg.align_lt
  have room := le_stackRoundUp cfg (16 + cfg.infoSize)
  have near := stackRoundUp_lt cfg (16 + cfg.infoSize)
  have taken : (stackTaken cfg .growsUp).toNat =
      stackRoundUp cfg (16 + cfg.infoSize) % 2 ^ cfg.width := BitVec.toNat_ofNat _ _
  constructor
  · rintro ⟨noWrap, apart, -, info⟩
    have size := taskSize_eq noWrap
    rw [info_up, stackBlock] at info
    have inside := info.le (by omega)
    show stackRoundUp cfg (16 + cfg.infoSize) ≤ (createStacksize attr).toNat
    by_cases small : stackRoundUp cfg (16 + cfg.infoSize) < 2 ^ cfg.width
    · rw [Nat.mod_eq_of_lt small] at taken
      omega
    · -- the size wraps to less than the control block needs, so that the stack covers its last byte
      have rounded : stackRoundUp cfg (16 + cfg.infoSize) - 2 ^ cfg.width < 2 ^ cfg.width := by omega
      rw [Nat.mod_eq_sub_mod (by omega), Nat.mod_eq_of_lt rounded] at taken
      rw [stack_up, info_up] at apart
      have last : ∀ {start stop : ℤ}, start ≤ createStackmem malloc attr + 16 + cfg.infoSize - 1 ∧
          createStackmem malloc attr + 16 + cfg.infoSize - 1 < stop →
          (Region.mk start stop).Holds (createStackmem malloc attr + 16 + cfg.infoSize - 1) := id
      exact (apart _ (last (by omega)) (last (by omega))).elim
  · intro small
    have small : stackRoundUp cfg (16 + cfg.infoSize) ≤ (createStacksize attr).toNat := small
    rw [Nat.mod_eq_of_lt (by omega)] at taken
    have noWrap : (stackTaken cfg .growsUp).toNat ≤ (createStacksize attr).toNat := by omega
    have size := taskSize_eq noWrap
    constructor
    case noWrap => exact noWrap
    case apart =>
      rw [stack_up, info_up]
      exact (Region.apart_of_le (by omega)).symm
    case stack =>
      rw [stack_up, stackBlock]
      exact Region.within_of_le (by omega) (by omega)
    case info =>
      rw [info_up, stackBlock]
      exact Region.within_of_le (by omega) (by omega)

theorem layout_iff (dir : StackDir) :
    LayoutOk dir malloc attr ↔ Fits cfg dir (createStacksize attr).toNat := by
  cases dir with
  | growsDown => exact layout_down_iff
  | growsUp => exact layout_up_iff

/-- More memory does not harm. -/
theorem Fits.mono {dir : StackDir} {small large : ℕ} (fits : Fits cfg dir small)
    (more : small ≤ large) : Fits cfg dir large := by
  cases dir with
  | growsDown => exact ⟨fits.1, fits.2.trans more⟩
  | growsUp => exact le_trans fits more

end

/-- **The layout of a new thread** is right if and only if the sizes work out; it is right for
everything that the attributes accept if and only if they work out for the minimum and for the
default. -/
theorem stack_layout_iff (cfg : StackConfig) (dir : StackDir) :
    (∀ malloc, ∀ attr : StackAttr cfg,
      LayoutOk dir malloc attr ↔ Fits cfg dir (createStacksize attr).toNat) ∧
    ((∀ attr : StackAttr cfg, Accepted attr → ∀ malloc, LayoutOk dir malloc attr) ↔
      Fits cfg dir cfg.stackMin.toNat ∧ Fits cfg dir (stackDefault : SizeT cfg).toNat) := by
  refine ⟨fun malloc attr => layout_iff dir, fun all => ⟨?_, ?_⟩, ?_⟩
  · have least := (layout_iff dir).mp (all _ (.stacksize cfg.stackMin .init) 0)
    have size : createStacksize (pthreadAttrSetstacksize cfg.stackMin pthreadAttrInit).2 =
        cfg.stackMin := by
      rw [pthreadAttrSetstacksize, if_neg (BitVec.lt_irrefl _)]
      rfl
    rwa [size] at least
  · exact (layout_iff dir).mp (all pthreadAttrInit .init 0)
  · rintro ⟨least, default⟩ attr accepted malloc
    refine (layout_iff dir).mpr ?_
    rcases accepted_size accepted with same | enough
    · rw [same]
      exact default
    · exact least.mono (Nat.not_lt.mp fun less => enough (BitVec.lt_def.mpr less))

/-- A control block of 1000 bytes, and stacks aligned to 16. -/
def oddBlock : StackConfig where
  width := 32
  align := 16
  infoSize := 1000
  stackMin := 2048
  wide := by decide
  align_pos := by decide
  align_lt := by decide
  infoSize_pos := by decide
  infoSize_lt := by decide

/-- **A control block that is no multiple of the alignment** reaches eight bytes behind the block. -/
theorem block_overruns : ∃ attr : StackAttr oddBlock, Accepted attr ∧
    ∀ malloc, ¬ LayoutOk .growsDown malloc attr ∧
      (pthreadCreateLayout .growsDown malloc attr).info.Holds (malloc + 4103) ∧
      ¬ (stackBlock malloc attr).Holds (malloc + 4103) := by
  refine ⟨pthreadAttrInit, .init, fun malloc => ?_⟩
  have size : taskSize .growsDown (pthreadAttrInit : StackAttr oddBlock) = 3104 := by decide
  have last : (pthreadCreateLayout .growsDown malloc
      (pthreadAttrInit : StackAttr oddBlock)).info.Holds (malloc + 4103) := by
    rw [info_down, size]
    show malloc + 3104 ≤ malloc + 4103 ∧ malloc + 4103 < malloc + 3104 + 1000
    omega
  have outside :
      ¬ (stackBlock malloc (pthreadAttrInit : StackAttr oddBlock)).Holds (malloc + 4103) := by
    intro inside
    have below : malloc + 4103 < malloc + 4096 := inside.2
    omega
  exact ⟨fun ok => outside (ok.info _ last), last, outside⟩

end Aple.Pthread
