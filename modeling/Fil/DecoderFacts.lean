-- What every decoded instruction has in common: the facts that the executors
-- and the translators rely on and do not check again.
import Fil.Decoder

namespace Fil.Cpu

/-- The kinds whose destination is not a core register. -/
def InstrKind.floating : InstrKind → Bool
  | .vstm | .vldm | .vldr | .vstr | .vmovCoreToSingle | .vmovSingle | .vmovImmediate
  | .vcvtF32S32 | .vcvtF32U32 | .vcvtS32F32 | .vcvtU32F32
  | .vadd | .vsub | .vmul | .vnmul | .vdiv | .vfma | .vfms | .vfnms
  | .vcmp | .vneg | .vabs | .vsqrt | .vmrs => true
  | _ => false

/-- A shape that the decoder can produce. -/
structure Wellformed (d : DecodedInstruction) : Prop where
  condition : d.condition = .al ∨ d.kind = .b ∨ d.kind = .it
  storeList : d.kind = .push ∨ d.kind = .stm → d.registerList.getLsbD 15 = false
  pair : d.kind = .ldrd ∨ d.kind = .strd → d.form = .immediate
  lsl : d.kind = .lsl → d.shiftType = .lsl
  lsr : d.kind = .lsr → d.shiftType = .lsr
  asr : d.kind = .asr → d.shiftType = .asr
  ror : d.kind = .ror → d.shiftType = .ror
  rrx : d.kind ≠ .rrx
  destination : d.rd = 15 → d.kind = .mov ∨ d.kind = .add ∨ d.kind = .cmp ∨ d.kind = .cmn ∨
    d.kind = .tst ∨ d.kind = .ldr ∨ d.kind.floating = true
  second : d.kind = .umull ∨ d.kind = .smull ∨ d.kind = .ldrd → d.ra ≠ 15
  base : d.writeback = true → d.rn ≠ 15
  divisor : d.kind = .udiv ∨ d.kind = .sdiv → d.rm ≠ 15
  compared : d.kind = .cbz ∨ d.kind = .cbnz → d.rn ≠ 15

variable {d : DecodedInstruction}

lemma Wellformed.setFlags (h : Wellformed d) (flags : Bool) :
    Wellformed { d with setFlags := flags } :=
  ⟨h.condition, h.storeList, h.pair, h.lsl, h.lsr, h.asr, h.ror, h.rrx, h.destination, h.second,
    h.base, h.divisor, h.compared⟩

/-- The kinds that no special rule is about. -/
def InstrKind.plain : InstrKind → Bool
  | .push | .stm | .ldrd | .strd | .lsl | .lsr | .asr | .ror | .rrx | .umull | .smull
  | .udiv | .sdiv | .cbz | .cbnz => false
  | _ => true

section

variable (hk : d.kind.plain = true)
include hk

lemma ne_of_plain {k : InstrKind}
    (hf : k.plain = false) : d.kind ≠ k := by
  intro he
  rw [he, hf] at hk
  cases hk

/-- The shape of a plain kind that always executes: only the destination and
the base register are left to check. -/
lemma Wellformed.of_kind (hc : d.condition = .al) (hb : d.writeback = true → d.rn ≠ 15)
    (hd : d.rd = 15 → d.kind = .mov ∨ d.kind = .add ∨ d.kind = .cmp ∨ d.kind = .cmn ∨
      d.kind = .tst ∨ d.kind = .ldr ∨ d.kind.floating = true) : Wellformed d := by
  refine ⟨.inl hc, ?_, ?_, ?_, ?_, ?_, ?_, ne_of_plain hk rfl, hd, ?_, hb, ?_, ?_⟩ <;>
    grind [InstrKind.plain]

lemma Wellformed.of_plain (hc : d.condition = .al) (hd : d.rd ≠ 15) (hw : d.writeback = false) :
    Wellformed d :=
  .of_kind hk hc (fun h => absurd h (by simp [hw])) (fun h => absurd h hd)

end

lemma Wellformed.of_floating (hk : d.kind.floating = true)
    (hc : d.condition = .al) (hb : d.writeback = true → d.rn ≠ 15) : Wellformed d := by
  refine .of_kind ?_ hc hb fun _ => by simp [hk]
  generalize d.kind = k at hk
  cases k <;> first | rfl | cases hk

/-- The shift rows: the kind and the shift type agree. -/
lemma Wellformed.of_shift
    (hk : (d.kind, d.shiftType) ∈ [(.lsl, .lsl), (.lsr, .lsr), (.asr, .asr), (.ror, .ror)])
    (hc : d.condition = .al) (hd : d.rd ≠ 15) (hw : d.writeback = false) : Wellformed d := by
  simp at hk
  rcases hk with ⟨h, t⟩ | ⟨h, t⟩ | ⟨h, t⟩ | ⟨h, t⟩ <;> constructor <;> simp [h, t, hc, hd, hw]

/-- What a guarded reading gives, it gives past the guard. -/
lemma some_of_guard {α : Type} {p : Prop} [Decidable p] {y : Option α} {a : α}
    (h : (if p then none else y) = some a) : ¬p ∧ y = some a := by
  split at h
  · cases h
  · exact ⟨‹_›, h⟩

/-- Whatever a reading gives has the shape. -/
def Shaped (reading : Option DecodedInstruction) : Prop := ∀ d ∈ reading, Wellformed d

namespace Shaped

variable {p : Prop} [Decidable p] {x y : Option DecodedInstruction}

lemma nothing : Shaped none := fun _ h => by cases h

lemma just (h : Wellformed d) : Shaped (some d) := fun _ he => by
  cases he
  exact h

lemma choice (hx : p → Shaped x) (hy : ¬p → Shaped y) : Shaped (if p then x else y) := by
  split
  · exact hx ‹p›
  · exact hy ‹¬p›

lemma either (hx : Shaped x) (hy : Shaped y) : Shaped (if p then x else y) :=
  choice (fun _ => hx) fun _ => hy

lemma guard (hy : ¬p → Shaped y) : Shaped (if p then none else y) := choice (fun _ => nothing) hy

end Shaped

lemma zero_ne_pc : 0 ≠ 15 := by decide

lemma bits_le (raw : BitVec 16) (shift : Nat) (mask : BitVec 16) :
    bits raw shift mask ≤ mask.toNat := by
  unfold bits
  exact Nat.and_le_right

/-- A three-bit register field cannot name the PC. -/
lemma low_ne (raw : BitVec 16) (shift : Nat) : bits raw shift 7 ≠ 15 := by
  have hle := bits_le raw shift 7
  have hmask : (7 : BitVec 16).toNat = 7 := rfl
  omega

/-! ## Halfword encodings -/

section Halfword

variable (raw : BitVec 16)

@[simp] lemma decodeShiftImmediate_shaped : Shaped (decodeShiftImmediate raw) := by
  refine .either (.just ?_) (.either (.just ?_) (.guard fun _ => .just ?_)) <;>
    exact .of_shift (by simp [base16]) rfl (low_ne _ _) rfl

@[simp] lemma decodeAddSubtract_shaped : Shaped (decodeAddSubtract raw) := by
  refine .just ?_
  split_ifs <;> exact .of_plain rfl rfl (low_ne _ _) rfl

@[simp] lemma decodeImmediate8_shaped : Shaped (decodeImmediate8 raw) := by
  refine .just ?_
  split <;> exact .of_plain rfl rfl (low_ne _ _) rfl

@[simp] lemma decodeDataProcessing_shaped : Shaped (decodeDataProcessing raw) := by
  refine .just ?_
  unfold dataProcessingOperation
  split <;> first
    | exact .of_plain rfl rfl (low_ne _ _) rfl
    | exact .of_shift (by simp [base16]) rfl (low_ne _ _) rfl

@[simp] lemma decodeSpecialData_shaped : Shaped (decodeSpecialData raw) := by
  refine .either (.guard fun _ => .just ?_) (.just ?_)
  · split_ifs <;> exact .of_plain rfl rfl zero_ne_pc rfl
  · split_ifs <;> exact .of_kind rfl rfl nofun fun _ => by simp [base16]

@[simp] lemma decodeLiteralLoad_shaped : Shaped (decodeLiteralLoad raw) :=
  .just (.of_plain rfl rfl (low_ne _ _) rfl)

@[simp] lemma decodeRegisterTransfer_shaped : Shaped (decodeRegisterTransfer raw) := by
  refine .just ?_
  unfold registerTransferOperation
  split <;> exact .of_plain rfl rfl (low_ne _ _) rfl

@[simp] lemma decodeImmediateTransfer_shaped : Shaped (decodeImmediateTransfer raw) := by
  refine .just ?_
  unfold immediateTransferOperation
  split_ifs <;> exact .of_plain rfl rfl (low_ne _ _) rfl

@[simp] lemma decodeSpTransfer_shaped : Shaped (decodeSpTransfer raw) := by
  refine .just ?_
  split_ifs <;> exact .of_plain rfl rfl (low_ne _ _) rfl

@[simp] lemma decodeAddressGeneration_shaped : Shaped (decodeAddressGeneration raw) :=
  .just (.of_plain rfl rfl (low_ne _ _) rfl)

lemma decodeReverse_shaped : Shaped (decodeReverse raw) := by
  unfold decodeReverse
  split
  case h_4 => exact .nothing
  all_goals exact .just (.of_plain rfl rfl (low_ne _ _) rfl)

lemma decodeHint_shaped : Shaped (decodeHint raw) := by
  refine .either ?_ (.either ?_ (.either ?_
    (.either (.either ?_ .nothing) (.guard fun _ => .just ?_))))
  case refine_5 => constructor <;> simp [base16]
  all_goals exact .just (.of_plain rfl rfl zero_ne_pc rfl)

lemma decodeChangeState_shaped : Shaped (decodeChangeState raw) :=
  .guard fun _ => .just (.of_plain rfl rfl zero_ne_pc rfl)

lemma decodePushPop_shaped (pop : Bool) : Shaped (decodePushPop pop raw) := by
  refine .guard fun _ => .just ?_
  cases pop <;> split_ifs <;> constructor <;> simp [base16]

@[simp] lemma decodeMiscellaneous_shaped : Shaped (decodeMiscellaneous raw) := by
  refine .either (decodeReverse_shaped raw) (.either (.just ?_) (.either (.just ?_)
    (.either (decodeHint_shaped raw) (.either (decodeChangeState_shaped raw) (.either (.just ?_)
      (.either (decodePushPop_shaped raw _) (.either (decodePushPop_shaped raw _)
        (.either (.just ?_) .nothing))))))))
  · unfold extendOperation
    split <;> exact .of_plain rfl rfl (low_ne _ _) rfl
  · exact .of_plain rfl rfl zero_ne_pc rfl
  · split_ifs
    all_goals
      constructor
      case compared => exact fun _ => low_ne raw 0
      all_goals simp [base16]
  · split_ifs <;> exact .of_plain rfl rfl (by simp) rfl

@[simp] lemma decodeMultiple_shaped : Shaped (decodeMultiple raw) := by
  refine .guard fun _ => .just ?_
  split_ifs
  · exact .of_kind rfl rfl (fun _ => low_ne _ _) (by simp [base16])
  constructor
  case base => exact fun _ => low_ne _ _
  all_goals simp [base16]

@[simp] lemma decodeConditionalBranch_shaped : Shaped (decodeConditionalBranch raw) := by
  refine .either (.just (.of_plain rfl rfl zero_ne_pc rfl)) (.guard fun _ => .just ?_)
  constructor <;> simp [base16]

@[simp] lemma decodeUnconditionalBranch_shaped : Shaped (decodeUnconditionalBranch raw) :=
  .just (.of_plain rfl rfl zero_ne_pc rfl)

lemma decode16_shaped : Shaped (decode16 raw) := by
  have hrows : ∀ pattern ∈ patterns16, Shaped (pattern.decode raw) := by
    simp [patterns16]
  refine .guard fun _ => ?_
  split
  · exact hrows _ (List.mem_of_find?_eq_some ‹_›)
  · exact .nothing

end Halfword

/-! ## Word encodings -/

section Word

variable (first second : BitVec 16)

@[simp] lemma decodeMovWide_shaped : Shaped (decodeMovWide first second) := by
  refine .guard fun hrd => .just ?_
  split_ifs <;> exact .of_plain rfl rfl hrd rfl

@[simp] lemma decodeAddSubWideImmediate_shaped : Shaped (decodeAddSubWideImmediate first second) := by
  refine .guard fun hrd => .just ?_
  split_ifs <;> exact .of_plain rfl rfl hrd rfl

variable {kind : InstrKind}

lemma wideOperation_plain {opcode : Nat}
    (h : wideOperation opcode = some kind) : kind.plain = true := by
  unfold wideOperation at h
  split at h <;> cases h <;> rfl

/-- A wide operation is plain, and takes the PC as its destination only to
compare or to test. -/
lemma normalize_kind {opcode rn rd : Nat} {flags : Bool}
    (h : normalizeDataProcessingOperation opcode flags rn rd = some kind) :
    kind.plain = true ∧ (rd = 15 → kind = .cmp ∨ kind = .cmn ∨ kind = .tst) := by
  unfold normalizeDataProcessingOperation at h
  split at h
  · cases h
  rename_i operation hop
  split at h
  · cases h
  rename_i k hk
  split_ifs at h with hrd hrn
  cases h
  constructor
  · unfold wideAlias at hk
    split_ifs at hk <;> cases hk <;> first | rfl | exact wideOperation_plain hop
  · intro h15
    by_cases h1 : kind = .cmp
    · exact .inl h1
    by_cases h2 : kind = .cmn
    · exact .inr (.inl h2)
    by_cases h3 : kind = .tst
    · exact .inr (.inr h3)
    · exact absurd ⟨h15, h3, h1, h2⟩ hrd

@[simp] lemma decodeDataProcessingImmediate_shaped :
    Shaped (decodeDataProcessingImmediate first second) := by
  unfold decodeDataProcessingImmediate
  dsimp only
  split
  · exact .nothing
  split
  · exact .nothing
  obtain ⟨hplain, hrd⟩ := normalize_kind ‹_›
  refine .just (.of_kind hplain rfl nofun fun h15 => ?_)
  rcases hrd h15 with hk | hk | hk <;> simp [base32, base16, hk]

@[simp] lemma decodeDataProcessingRegister_shaped :
    Shaped (decodeDataProcessingRegister first second) := by
  unfold decodeDataProcessingRegister
  dsimp only
  split
  · exact .nothing
  obtain ⟨hplain, hrd⟩ := normalize_kind ‹_›
  refine .guard fun _ => .just (.of_kind hplain rfl nofun fun h15 => ?_)
  rcases hrd h15 with hk | hk | hk <;> simp [base32, base16, hk]

@[simp] lemma decodeRegisterShift_shaped : Shaped (decodeRegisterShift first second) := by
  unfold decodeRegisterShift registerShift
  refine .guard fun hreg => ?_
  have hrd : bits second 8 0x0f ≠ 15 := fun he => hreg (.inr (.inl he))
  refine .just (.of_shift ?_ rfl hrd rfl)
  dsimp only [base32, base16]
  split <;> simp

@[simp] lemma decodeExtendWide_shaped : Shaped (decodeExtendWide first second) := by
  unfold decodeExtendWide
  split
  case h_5 => exact .nothing
  all_goals exact .guard fun hreg => .just (.of_plain rfl rfl (fun he => hreg (.inl he)) rfl)

@[simp] lemma decodeMultiply_shaped : Shaped (decodeMultiply first second) := by
  refine .guard fun hreg => .guard fun _ => .just ?_
  split_ifs <;> exact .of_plain rfl rfl (fun he => hreg (.inr (.inr he))) rfl

lemma decodeLongMultiply_shaped (hk : kind = .umull ∨ kind = .smull) :
    Shaped (decodeLongMultiply kind first second) := by
  refine .guard fun hreg => .just ?_
  simp only [not_or] at hreg
  obtain ⟨-, -, hrd, hra, -⟩ := hreg
  rcases hk with rfl | rfl
  all_goals
    constructor
    case destination => exact fun he => absurd he hrd
    case second => exact fun _ => hra
    all_goals simp [base32, base16]

@[simp] lemma decodeUmull_shaped : Shaped (decodeUmull first second) :=
  decodeLongMultiply_shaped first second (.inl rfl)

@[simp] lemma decodeSmull_shaped : Shaped (decodeSmull first second) :=
  decodeLongMultiply_shaped first second (.inr rfl)

lemma decodeThreeRegisters_shaped (hk : kind ∈ [.udiv, .sdiv, .uadd8, .sel]) :
    Shaped (decodeThreeRegisters kind first second) := by
  refine .guard fun hreg => .just ?_
  simp only [not_or] at hreg
  simp at hk
  rcases hk with rfl | rfl | rfl | rfl <;> constructor <;>
    first
    | exact fun h => absurd h hreg.2.1
    | exact fun _ => hreg.2.2
    | simp [base32, base16]

@[simp] lemma decodeUdiv_shaped : Shaped (decodeUdiv first second) :=
  decodeThreeRegisters_shaped first second (by simp)

@[simp] lemma decodeSdiv_shaped : Shaped (decodeSdiv first second) :=
  decodeThreeRegisters_shaped first second (by simp)

@[simp] lemma decodeParallelAddSelect_shaped : Shaped (decodeParallelAddSelect first second) :=
  decodeThreeRegisters_shaped first second (by split_ifs <;> simp)

@[simp] lemma decodeClz_shaped : Shaped (decodeClz first second) :=
  .guard fun _ => .guard fun hreg => .just (.of_plain rfl rfl (fun he => hreg (.inl he)) rfl)

@[simp] lemma decodeBitfieldClear_shaped : Shaped (decodeBitfieldClear first second) :=
  .guard fun _ => .guard fun hreg => .just (.of_plain rfl rfl (fun he => hreg (.inr he)) rfl)

@[simp] lemma decodeUbfx_shaped : Shaped (decodeUbfx first second) :=
  .guard fun _ => .guard fun hreg => .just (.of_plain rfl rfl (fun he => hreg (.inr he)) rfl)

lemma decodeMrs_shaped : Shaped (decodeMrs first second) :=
  .guard fun hreg => .just (.of_plain rfl rfl (fun he => hreg (.inl he)) rfl)

lemma decodeMsr_shaped : Shaped (decodeMsr first second) :=
  .guard fun _ => .just (.of_plain rfl rfl zero_ne_pc rfl)

lemma decodeBarrier_shaped : Shaped (decodeBarrier first second) := by
  refine .either (.just ?_) (.either (.just ?_) (.either (.just ?_) .nothing)) <;>
    exact .of_plain rfl rfl zero_ne_pc rfl

@[simp] lemma decodeBranchWide_shaped : Shaped (decodeBranchWide first second) := by
  refine .either (.guard fun hcond => .just ?_) (.just ?_)
  · rw [if_neg fun hlink => hcond (.inr hlink)]
    constructor <;> simp [base32, base16]
  · split_ifs <;> exact .of_plain rfl rfl zero_ne_pc rfl

@[simp] lemma decodeBranchOrSystem_shaped : Shaped (decodeBranchOrSystem first second) :=
  .either (decodeMrs_shaped _ _) (.either (decodeMsr_shaped _ _) (.either (decodeBarrier_shaped _ _)
    (.either (.just (.of_plain rfl rfl zero_ne_pc rfl)) (decodeBranchWide_shaped _ _))))

lemma decodeTableBranch_shaped : Shaped (decodeTableBranch first second) := by
  refine .guard fun _ => .guard fun _ => .just ?_
  split_ifs <;> exact .of_plain rfl rfl zero_ne_pc rfl

lemma decodeDoubleTransfer_shaped : Shaped (decodeDoubleTransfer first second) := by
  refine .guard fun hreg => .just ?_
  simp only [not_or] at hreg
  obtain ⟨-, hrn, hrd, hra, -⟩ := hreg
  split_ifs
  all_goals
    constructor
    case destination => exact fun he => absurd he hrd
    case second => exact fun _ => hra
    case base => exact fun _ => hrn
    all_goals simp [base32, base16]

lemma wideMultiple_wellformed {rn : Nat} {writeback decrementBefore load : Bool}
    (hrn : rn ≠ 15) (hlist : load = false → second.getLsbD 15 = false) :
    Wellformed
      { base32 first second (wideMultipleKind rn writeback decrementBefore load) .registerList with
        rn, registerList := second, writeback, add := !decrementBefore,
        index := decrementBefore } := by
  cases load
  · have hk : wideMultipleKind rn writeback decrementBefore false = .push ∨
        wideMultipleKind rn writeback decrementBefore false = .stm := by
      unfold wideMultipleKind
      split_ifs <;> simp_all
    constructor
    case base => exact fun _ => hrn
    case storeList => exact fun _ => hlist rfl
    all_goals rcases hk with hk | hk <;> simp [base32, base16, hk]
  · have hk : wideMultipleKind rn writeback decrementBefore true = .pop ∨
        wideMultipleKind rn writeback decrementBefore true = .ldm := by
      unfold wideMultipleKind
      split_ifs <;> simp_all
    rcases hk with hk | hk <;> rw [hk] <;>
      exact .of_kind rfl rfl (fun _ => hrn) (by simp [base32, base16])

@[simp] lemma decodeWideMultiple_shaped : Shaped (decodeWideMultiple first second) := by
  refine .either (decodeTableBranch_shaped _ _) (.either (decodeDoubleTransfer_shaped _ _)
    (.guard fun _ => .guard fun hrn => .guard fun hlist => .just ?_))
  simp only [not_or] at hrn
  refine wideMultiple_wellformed first second hrn.1 fun hload => ?_
  rw [hload] at hlist
  exact Bool.eq_false_iff.mpr fun hbit => hlist ⟨rfl, hbit⟩

lemma wideTransferForm_shape {literal negative indexed : Bool} {base : DecodedInstruction}
    (h : wideTransferForm second literal negative indexed base = some d)
    (hb : base.writeback = false) :
    d.kind = base.kind ∧ d.condition = base.condition ∧ d.rd = base.rd ∧
      (d.writeback = true → d.rn = 15 → isStoreKind base.kind = true) := by
  unfold wideTransferForm at h
  split at h
  · cases h
    simp [hb]
  rename_i hlit
  have hrn : base.rn = 15 → isStoreKind base.kind = true := by simp_all
  dsimp only at h
  split_ifs at h <;> cases h <;> exact ⟨rfl, rfl, rfl, fun _ => hrn⟩

lemma wideTransferOperation_plain {op : BitVec 16} {indexed : Bool}
    (h : wideTransferOperation op = some (kind, indexed)) :
    kind.plain = true := by
  unfold wideTransferOperation at h
  split at h <;> cases h <;> rfl

@[simp] lemma decodeWideTransfer_shaped : Shaped (decodeWideTransfer first second) := by
  unfold decodeWideTransfer
  dsimp only
  split
  · exact .nothing
  rename_i kind indexed hkind
  have hplain : kind.plain = true := by
    split at hkind
    · cases hkind
      rfl
    · exact wideTransferOperation_plain hkind
  refine .either (.just (.of_plain rfl rfl zero_ne_pc rfl)) ?_
  split
  · exact .nothing
  rename_i result hform
  obtain ⟨hk, hc, hd, hbase⟩ := wideTransferForm_shape second hform rfl
  refine .guard fun hbad => .just ?_
  simp only [base32, base16] at hk hc hd hbase
  simp only [not_or, not_and] at hbad
  refine .of_kind (hk ▸ hplain) hc (fun hw hn => ?_) fun h15 => ?_
  · exact (hbad.1 (hbase hw hn)).1 hn
  · by_cases hs : isStoreKind kind = true
    · exact absurd h15 (hbad.1 hs).2
    · have hldr := hbad.2 hs h15
      simp [hk, Decidable.not_not.mp hldr]

@[simp] lemma decodeVfpMultiple_shaped : Shaped (decodeVfpMultiple first second) := by
  refine .guard fun _ => ?_
  split
  · exact .nothing
  refine .either (.guard fun _ => .just ?_) (.guard fun _ => .guard fun hrn => .just ?_)
  · split_ifs <;> exact .of_floating rfl rfl nofun
  · split_ifs <;> exact .of_floating rfl rfl fun _ he => hrn (.inl he)

lemma vfpUnaryOperation_floating {upper : Bool}
    (h : vfpUnaryOperation first upper = some kind) : kind.floating = true := by
  unfold vfpUnaryOperation at h
  cases upper <;> split at h <;> cases h <;> rfl

lemma vfpBinaryOperation_floating
    (h : vfpBinaryOperation first second = some kind) : kind.floating = true := by
  unfold vfpBinaryOperation at h
  generalize (second &&& 0x0040 != 0) = opposite at h
  cases opposite <;> split at h <;> cases h <;> rfl

lemma decodeVfpBinary_shaped : Shaped (decodeVfpBinary first second) := by
  unfold decodeVfpBinary
  split
  · exact .nothing
  · exact .either (.just (.of_floating (vfpBinaryOperation_floating _ _ ‹_›) rfl nofun)) .nothing

lemma decodeVfpCompare_shaped : Shaped (decodeVfpCompare first second) :=
  .either (.just (.of_floating rfl rfl nofun)) (decodeVfpBinary_shaped _ _)

lemma decodeVfpUnary_shaped : Shaped (decodeVfpUnary first second) := by
  unfold decodeVfpUnary
  dsimp only
  split
  · rename_i kind hkind
    split_ifs at hkind
    exact .just (.of_floating (vfpUnaryOperation_floating _ hkind) rfl nofun)
  · exact decodeVfpCompare_shaped _ _

@[simp] lemma decodeVfpDataProcessing_shaped : Shaped (decodeVfpDataProcessing first second) := by
  refine .either (.guard fun hcore => .just ?_)
    (.either (.guard fun _ => .just (.of_floating rfl rfl nofun))
      (.either (.just (.of_floating rfl rfl nofun)) (decodeVfpUnary_shaped _ _)))
  split_ifs
  · exact .of_plain rfl rfl hcore rfl
  · exact .of_floating rfl rfl nofun

lemma decode32_shaped : Shaped (decode32 first second) := by
  have hrows : ∀ pattern ∈ patterns32, Shaped (pattern.decode first second) := by
    simp [patterns32]
  refine .guard fun _ => ?_
  split
  · exact hrows _ (List.mem_of_find?_eq_some ‹_›)
  · exact .nothing

end Word

/-! ## Either width -/

def Decoded (d : DecodedInstruction) (size : Nat) : Prop :=
  (size = 2 ∧ ∃ halfword, decode16 halfword = some d) ∨
    (size = 4 ∧ ∃ first second, decode32 first second = some d)

lemma Decoded.wellformed {size : Nat} (h : Decoded d size) : Wellformed d := by
  rcases h with ⟨-, halfword, h⟩ | ⟨-, first, second, h⟩
  · exact decode16_shaped _ _ h
  · exact decode32_shaped _ _ _ h

end Fil.Cpu
