-- Two laws of decoded transfers. A literal load reads where its encoding points,
-- but for the loads of bytes and halfwords below the PC, whose offset is added. A
-- multiple transfer costs one cycle and one for each word, but for the floating-point
-- ones, which are charged as if they moved nothing.
import Fil.Transfers

open Dialogue Fil.Mem

namespace Fil.Cpu

/-! ## Rows of the table -/

section Rows

variable {first second : BitVec 16} {d : DecodedInstruction}

/-- A word that two rows take shows that they do not tell each other apart. -/
lemma masks_agree {w : Nat} {x m₁ v₁ m₂ v₂ : BitVec w} (h₁ : x &&& m₁ = v₁) (h₂ : x &&& m₂ = v₂) :
    v₁ &&& m₂ = v₂ &&& m₁ := by
  rw [← h₁, ← h₂, BitVec.and_assoc, BitVec.and_assoc, BitVec.and_comm m₁]

/-- No encoding belongs to two rows. -/
def Apart (p q : DecodePattern32) : Prop := p.value &&& q.mask ≠ q.value &&& p.mask

instance : Std.Symm Apart := ⟨fun _ _ h => Ne.symm h⟩

lemma patterns32_apart : patterns32.Pairwise Apart := by
  unfold Apart
  decide

lemma join_and_high (mask : BitVec 16) :
    join first second &&& mask.setWidth 32 <<< 16 = (first &&& mask).setWidth 32 <<< 16 := by
  ext i hi
  by_cases hlow : i < 16
  · simp [join, hlow]
  · simp [join, hlow, BitVec.getLsbD_of_ge second i (by omega)]

lemma decode32_row {p : DecodePattern32} (hp : p ∈ patterns32) {mask value : BitVec 16}
    (hmask : p.mask = mask.setWidth 32 <<< 16) (hvalue : p.value = value.setWidth 32 <<< 16)
    (hrow : first &&& mask = value) (h : decode32 first second = some d) :
    p.decode first second = some d := by
  have htaken : join first second &&& p.mask = p.value := by rw [hmask, hvalue, join_and_high, hrow]
  unfold decode32 at h
  obtain ⟨-, h⟩ := some_of_guard h
  split at h
  · rename_i q hfind
    have htaken' := List.find?_some hfind
    rw [decide_eq_true_eq] at htaken'
    have hsame : q = p := by
      by_contra hne
      exact patterns32_apart.forall (List.mem_of_find?_eq_some hfind) hp hne
        (masks_agree htaken' htaken)
    rwa [← hsame]
  · cases h

lemma decode32_wideTransfer (hrow : first &&& 0xfe00 = 0xf800)
    (h : decode32 first second = some d) : decodeWideTransfer first second = some d :=
  decode32_row (p := ⟨0xfe000000, 0xf8000000, decodeWideTransfer⟩) (by simp [patterns32])
    (by decide) (by decide) hrow h

lemma decode32_vfpMultiple (hrow : first &&& 0xfe00 = 0xec00)
    (h : decode32 first second = some d) : decodeVfpMultiple first second = some d :=
  decode32_row (p := ⟨0xfe000000, 0xec000000, decodeVfpMultiple⟩) (by simp [patterns32])
    (by decide) (by decide) hrow h

end Rows

/-! ## Literal loads -/

/-- The first halfwords of LDR, LDRB, LDRH, LDRSB and LDRSH with the PC as their base.
Bit 7 says whether the offset is added. -/
def literalLoads : List (BitVec 16) :=
  [0xf85f, 0xf8df, 0xf81f, 0xf89f, 0xf83f, 0xf8bf, 0xf91f, 0xf99f, 0xf93f, 0xf9bf]

def loadKinds : List InstrKind := [.ldr, .ldrb, .ldrh, .ldrsb, .ldrsh]

def literalAddress (first second : BitVec 16) (address : BitVec 32) : BitVec 32 :=
  let base := (address + 4) &&& ~~~3
  let offset := (second &&& 0x0fff).setWidth 32
  if first &&& 0x0080 != 0 then base + offset else base - offset

section Literal

variable {first second : BitVec 16} {d : DecodedInstruction}

/-- A literal load as it is decoded. Only LDR looks at bit 7. -/
structure Literal (first second : BitVec 16) (d : DecodedInstruction) : Prop where
  kind : d.kind ∈ loadKinds
  form : d.form = .literal
  base : d.rn = 15
  index : d.index = true
  offset : d.imm = (second &&& 0x0fff).setWidth 32
  add : d.add = decide (first ≠ 0xf85f)

lemma wideTransferForm_literal {base : DecodedInstruction} (literal negative indexed : Bool)
    (hbase : base.rn = 15) (hstore : isStoreKind base.kind = false) :
    wideTransferForm second literal negative indexed base =
      some { base with form := .literal, rn := 15, add := !negative } := by
  rw [wideTransferForm, hbase, hstore]
  simp

/-- A load that the table names, with the PC as its base. -/
lemma decodeWideTransfer_literal {kind : InstrKind} {indexed : Bool}
    (hop : (if first &&& 0xff7f == 0xf85f then some (.ldr, false)
      else wideTransferOperation (first &&& 0xfff0)) = some (kind, indexed))
    (hkind : kind ∈ loadKinds) (hbase : bits first 0 0x0f = 15)
    (hadd : (first &&& 0xff7f == 0xf85f && first &&& 0x0080 == 0) = decide (first = 0xf85f))
    (h : decodeWideTransfer first second = some d) (hload : d.kind ≠ .nop) :
    Literal first second d := by
  have hstore : ∀ kind ∈ loadKinds, isStoreKind kind = false := by decide
  unfold decodeWideTransfer at h
  dsimp only at h
  rw [hop] at h
  dsimp only at h
  split at h
  · cases h
    exact absurd rfl hload
  rw [wideTransferForm_literal] at h
  · obtain ⟨-, h⟩ := some_of_guard h
    cases h
    exact ⟨hkind, rfl, rfl, rfl, rfl, by rw [hadd]; simp⟩
  · exact hbase
  · exact hstore kind hkind

lemma decode32_literal (hfirst : first ∈ literalLoads) (h : decode32 first second = some d)
    (hload : d.kind ≠ .nop) : Literal first second d := by
  simp [literalLoads] at hfirst
  rcases hfirst with rfl | rfl | rfl | rfl | rfl | rfl | rfl | rfl | rfl | rfl
  all_goals
    exact decodeWideTransfer_literal rfl (by decide) (by decide) (by decide)
      (decode32_wideTransfer (by decide) h) hload

/-- The offset of a literal load is less than a page. -/
lemma add_eq_sub_iff (base : BitVec 32) (second : BitVec 16) :
    base + (second &&& 0x0fff).setWidth 32 = base - (second &&& 0x0fff).setWidth 32 ↔
      second &&& 0x0fff = 0 := by
  constructor <;> intro h <;> bv_omega

def literalRead (first second : BitVec 16) (address : BitVec 32) : BitVec 32 :=
  let base := (address + 4) &&& ~~~3
  let offset := (second &&& 0x0fff).setWidth 32
  if first = 0xf85f then base - offset else base + offset

lemma Literal.transfers (h : Literal first second d) (s : CpuState) :
    ∃ r, transfers d s = [r] ∧ r.access.address = literalRead first second s.instructionAddress := by
  have haddress : transferAddress d s = literalRead first second s.instructionAddress := by
    unfold transferAddress offsetAddress transferBase transferOffset literalRead
    rw [h.form, h.index, h.offset, h.add, h.base]
    by_cases hfirst : first = 0xf85f <;> simp [hfirst, CpuState.architecturalPcForRead]
  rw [← haddress]
  have hkind := h.kind
  simp [loadKinds] at hkind
  rcases hkind with hk | hk | hk | hk | hk <;> simp [Cpu.transfers, hk, Request.access]

/-- Only LDR takes the offset off, so the other loads are right where nothing is to be taken. -/
lemma literalRead_eq_iff (first second : BitVec 16) (address : BitVec 32) :
    literalRead first second address = literalAddress first second address ↔
      first &&& 0xff7f = 0xf85f ∨ first &&& 0x0080 ≠ 0 ∨ second &&& 0x0fff = 0 := by
  unfold literalRead literalAddress
  by_cases hlow : first = 0xf85f
  · subst hlow
    exact iff_of_true rfl (.inl (by decide))
  rw [if_neg hlow]
  by_cases hbit : first &&& 0x0080 = 0
  · have hword : first &&& 0xff7f ≠ 0xf85f := by
      intro hword
      apply hlow
      calc first = first &&& (0xff7f ||| 0x0080) := (BitVec.and_allOnes).symm
        _ = 0xf85f := by rw [BitVec.and_or_distrib_left, hword, hbit]; rfl
    rw [if_neg (by rw [hbit]; decide), add_eq_sub_iff]
    exact ⟨fun h => .inr (.inr h), fun h => (h.resolve_left hword).resolve_left (absurd hbit)⟩
  · rw [if_pos (bne_iff_ne.mpr hbit)]
    exact iff_of_true rfl (.inr (.inl hbit))

lemma Literal.asks (h : Literal first second d) (fp : FpUnit) (aspen : Bool) (s : CpuState) :
    ∃ r, AsksFor (execute fp aspen d s) [r] ∧
      r.access.address = literalRead first second s.instructionAddress := by
  obtain ⟨r, htransfers, haddress⟩ := h.transfers s
  have hcore : ∀ kind ∈ loadKinds, isFpRegisterAccess kind = false := by decide
  have hplain : flushes d s = false := by
    rw [flushes, hcore d.kind h.kind]
    rfl
  refine ⟨r, ?_, haddress⟩
  simpa [hplain, htransfers] using execute_asks (i := d) (s := s) fp aspen

/-- **Literal loads.** A literal load that is decoded asks for one access, and it is where the
encoding points exactly if it is an LDR, its offset is added, or its offset is zero. -/
theorem literal_load_reads_where_it_points_iff (fp : FpUnit) (aspen : Bool) (s : CpuState)
    (hfirst : first ∈ literalLoads) (h : decode32 first second = some d) (hload : d.kind ≠ .nop) :
    ∃ r, AsksFor (execute fp aspen d s) [r] ∧
      (r.access.address = literalAddress first second s.instructionAddress ↔
        first &&& 0xff7f = 0xf85f ∨ first &&& 0x0080 ≠ 0 ∨ second &&& 0x0fff = 0) := by
  obtain ⟨r, hasks, haddress⟩ := (decode32_literal hfirst h hload).asks fp aspen s
  refine ⟨r, hasks, ?_⟩
  rw [haddress]
  exact literalRead_eq_iff first second s.instructionAddress

/-- LDRB r1, [pc, #4] reads where it points. -/
theorem positive_byte_literal_reads_where_it_points :
    ∃ d, decode32 0xf89f 0x1004 = some d ∧ ∀ fp aspen s,
      ∃ r, AsksFor (execute fp aspen d s) [r] ∧
        r.access.address = literalAddress 0xf89f 0x1004 s.instructionAddress := by
  have hfirst : (0xf89f : BitVec 16) ∈ literalLoads := by decide
  have hd : decode32 0xf89f 0x1004 = some _ := rfl
  refine ⟨_, hd, fun fp aspen s => ?_⟩
  obtain ⟨r, hasks, hiff⟩ :=
    literal_load_reads_where_it_points_iff fp aspen s hfirst hd (by decide)
  exact ⟨r, hasks, hiff.mpr (.inr (.inl (by decide)))⟩

/-- LDRB r1, [pc, #-4] at the start of flash reads the byte that is eight above. -/
theorem negative_byte_literal_reads_above :
    ∃ d, decode32 0xf81f 0x1004 = some d ∧ ∀ fp aspen,
      ∃ r, AsksFor (execute fp aspen d { instructionAddress := 0x08000000 }) [r] ∧
        r.access.address = 0x08000008 ∧ literalAddress 0xf81f 0x1004 0x08000000 = 0x08000000 := by
  have hfirst : (0xf81f : BitVec 16) ∈ literalLoads := by decide
  have hd : decode32 0xf81f 0x1004 = some _ := rfl
  refine ⟨_, hd, fun fp aspen => ?_⟩
  obtain ⟨r, hasks, haddress⟩ :=
    (decode32_literal hfirst hd (by decide)).asks fp aspen { instructionAddress := 0x08000000 }
  exact ⟨r, hasks, by rw [haddress]; decide, by decide⟩

end Literal

/-! ## Multiple transfers -/

section Multiple

variable {first second : BitVec 16} {d : DecodedInstruction}

/-- A multiple transfer of either register file. The floating-point ones have rows of their
own, so they are told by their encodings. -/
inductive MultipleTransfer : DecodedInstruction → Prop
  | integer {d : DecodedInstruction} (hkind : d.kind ∈ [InstrKind.push, .pop, .ldm, .stm]) :
    MultipleTransfer d
  | floating {d : DecodedInstruction} {first second : BitVec 16}
    (hrow : first &&& 0xfe00 = 0xec00) (h : decode32 first second = some d)
    (hkind : d.kind ∈ [InstrKind.vldm, .vstm]) : MultipleTransfer d

/-- Accesses to so many words. -/
def Words (requests : List Request) (count : Nat) : Prop :=
  requests.length = count ∧ ∀ r ∈ requests, r.access.width = 4

lemma readWords_words (c : AccessContext) (count : Nat) (address : BitVec 32) :
    Words (readWords c count address) count := by
  induction count generalizing address with
  | zero => exact ⟨rfl, List.forall_mem_nil _⟩
  | succ count ih =>
    obtain ⟨hlength, hwidth⟩ := ih (address + 4)
    exact ⟨congrArg (· + 1) hlength, List.forall_mem_cons.mpr ⟨rfl, hwidth⟩⟩

lemma writeWords_words (c : AccessContext) (values : List (BitVec 32)) (address : BitVec 32) :
    Words (writeWords c values address) values.length := by
  induction values generalizing address with
  | nil => exact ⟨rfl, List.forall_mem_nil _⟩
  | cons value rest ih =>
    obtain ⟨hlength, hwidth⟩ := ih (address + 4)
    exact ⟨congrArg (· + 1) hlength, List.forall_mem_cons.mpr ⟨rfl, hwidth⟩⟩

lemma transfers_integer (hkind : d.kind ∈ [InstrKind.push, .pop, .ldm, .stm]) (s : CpuState) :
    Words (transfers d s) (popcount d.registerList) := by
  have hmap : popcount d.registerList =
      ((listedRegisters d.registerList).map s.readRegister).length := (List.length_map _).symm
  simp at hkind
  rcases hkind with hk | hk | hk | hk <;> rw [transfers, hk]
  · exact hmap ▸ writeWords_words _ _ _
  · exact readWords_words _ _ _
  · exact readWords_words _ _ _
  · exact hmap ▸ writeWords_words _ _ _

/-- The floating-point registers of a list, which are counted in the immediate. -/
lemma transfers_floating (hkind : d.kind ∈ [InstrKind.vldm, .vstm]) (s : CpuState) :
    Words (transfers d s) d.imm.toNat := by
  have hmap : d.imm.toNat = (storeSingles s d.rd d.imm.toNat).length := by simp [storeSingles]
  simp at hkind
  rcases hkind with hk | hk <;> rw [transfers, hk]
  · exact readWords_words _ _ _
  · conv => arg 2; rw [hmap]
    exact writeWords_words _ _ _

lemma decodeVfpMultiple_list (h : decodeVfpMultiple first second = some d)
    (hkind : d.kind ∈ [InstrKind.vldm, .vstm]) : d.registerList = 0 ∧ d.imm.toNat ≠ 0 := by
  unfold decodeVfpMultiple at h
  obtain ⟨-, h⟩ := some_of_guard h
  generalize vfpTransferRegister _ _ second = register at h
  cases register with
  | none => cases h
  | some rd =>
    dsimp only at h
    split at h
    · obtain ⟨-, h⟩ := some_of_guard h
      cases h
      change (if first &&& 0x0010 != 0 then InstrKind.vldr else .vstr) ∈ _ at hkind
      split at hkind <;> exact absurd hkind (by decide)
    obtain ⟨-, h⟩ := some_of_guard h
    obtain ⟨hwords, h⟩ := some_of_guard h
    cases h
    refine ⟨rfl, ?_⟩
    rw [BitVec.toNat_ofNat]
    omega

/-- **Cost of multiple transfers.** A multiple transfer costs one cycle and one for each word
that it asks the bus for exactly if it moves integer registers. -/
theorem multiple_transfer_costs_its_words_iff (fp : FpUnit) (s : CpuState)
    (h : MultipleTransfer d) :
    ∃ words, AsksFor (dispatch fp d s) words ∧ (∀ r ∈ words, r.access.width = 4) ∧
      (basePipelineCycles d = 1 + words.length ↔ d.kind ∈ [InstrKind.push, .pop, .ldm, .stm]) := by
  refine ⟨transfers d s, dispatch_asks d s fp, ?_⟩
  cases h with
  | integer hkind =>
    obtain ⟨hlength, hwidth⟩ := transfers_integer hkind s
    refine ⟨hwidth, iff_of_true ?_ hkind⟩
    rw [hlength]
    simp at hkind
    rcases hkind with hk | hk | hk | hk <;> rw [basePipelineCycles, hk]
  | floating hrow h hkind =>
    obtain ⟨hlength, hwidth⟩ := transfers_floating hkind s
    obtain ⟨hlist, hwords⟩ := decodeVfpMultiple_list (decode32_vfpMultiple hrow h) hkind
    have hempty : popcount d.registerList = 0 := by
      rw [hlist]
      rfl
    refine ⟨hwidth, iff_of_false ?_ ?_⟩
    · rw [hlength]
      simp at hkind
      rcases hkind with hk | hk <;> rw [basePipelineCycles, hk] <;> dsimp only <;> omega
    · simp at hkind
      rcases hkind with hk | hk <;> rw [hk] <;> decide

/-- VPUSH of two registers writes two words and is charged one cycle. -/
theorem a_double_push_costs_one_cycle :
    ∃ d, decode32 0xed2d 0x0a02 = some d ∧ basePipelineCycles d = 1 ∧
      ∀ fp s, ∃ words, AsksFor (dispatch fp d s) words ∧ words.length = 2 := by
  refine ⟨_, rfl, rfl, fun fp s => ⟨_, dispatch_asks _ s fp, ?_⟩⟩
  exact (transfers_floating (by decide) s).1

/-- PUSH of two registers writes two words and is charged three cycles. -/
theorem a_push_costs_its_words :
    ∃ d, decode16 0xb403 = some d ∧ ∀ fp s, ∃ words, AsksFor (dispatch fp d s) words ∧
      (∀ r ∈ words, r.access.width = 4) ∧ basePipelineCycles d = 1 + words.length := by
  obtain ⟨d, hd, hk⟩ : ∃ d, decode16 0xb403 = some d ∧ d.kind = .push := ⟨_, rfl, rfl⟩
  have hkind : d.kind ∈ [InstrKind.push, .pop, .ldm, .stm] := by simp [hk]
  refine ⟨d, hd, fun fp s => ?_⟩
  obtain ⟨words, hasks, hwidth, hiff⟩ :=
    multiple_transfer_costs_its_words_iff fp s (.integer hkind)
  exact ⟨words, hasks, hwidth, hiff.mpr hkind⟩

end Multiple

end Fil.Cpu
