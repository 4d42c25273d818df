-- The block engine seen from outside. It tells the first instructions of its
-- block in order, as many as it counts, and charges no more than their price. It
-- reaches no device before an access that has no handler.
import Fil.BlockPreview
import Mathlib.Data.List.TakeWhile

open Dialogue Fil.Mem Fil.Mem.MemoryBus List

namespace Fil.Cpu

variable {δ : Type} {env : Environment δ} {m : Machine δ} {op : JitOp}

/-! ## What one instruction charges -/

namespace JitOp

/-- Where an instruction was fetched. -/
def place (op : JitOp) : BitVec 32 × Nat := (op.pc, op.size)

/-- A direct branch without a condition has gone to its target. -/
def Goes (op : JitOp) (s : CpuState) : Prop :=
  op.isTerminator = true → op.decoded.kind = .b ∨ op.decoded.kind = .bl → s.pc = op.directTarget

lemma cycles_le (op : JitOp) (s : CpuState) :
    op.cycles s ≤ if op.divideForm then 12 else op.baseCycles := by
  unfold cycles divideCycles
  split_ifs <;> omega

lemma withPenalty_le {cycles : Nat} {s : CpuState}
    (hcycles : cycles ≤ if op.divideForm then 12 else op.baseCycles) (hgoes : op.Goes s) :
    op.withPenalty cycles s ≤ op.previewCycles := by
  unfold withPenalty previewCycles
  split
  · rename_i hleft
    have hrefill : op.previewPenalty = op.branchPenalty := by
      refine if_neg fun hdirect => ?_
      simp only [previewExact, Bool.and_eq_true, Bool.or_eq_true, Bool.not_eq_true',
        decide_eq_true_eq] at hdirect
      obtain ⟨⟨hterm, -, hkind⟩, htarget⟩ := hdirect
      rw [hterm] at hkind
      exact hleft ((hgoes hterm (by simpa using hkind)).trans htarget)
    omega
  · omega

lemma withPenalty_mono (op : JitOp) {a b : Nat} (h : a ≤ b) (s : CpuState) :
    op.withPenalty a s ≤ op.withPenalty b s := by
  unfold withPenalty
  split <;> omega

lemma Made.fast_eq (hop : op.Made) : op.fast = classifyJitFast op.decoded := by
  rw [hop.shape]
  rfl

lemma Made.one_le (hop : op.Made) : 1 ≤ op.previewCycles := by
  have hbase := basePipelineCycles_pos op.decoded
  rw [hop.shape]
  unfold previewCycles jitOp
  dsimp only
  split <;> omega

lemma Made.previewCycles_le (hop : op.Made) : op.previewCycles ≤ 19 := by
  have hbase := basePipelineCycles_le op.decoded
  have hrefill : takenBranchPenalty op.decoded.kind ≤ 2 := by
    unfold takenBranchPenalty
    split <;> decide
  rw [hop.shape]
  unfold previewCycles previewPenalty jitOp
  dsimp only
  split_ifs <;> omega

lemma prices_le {ops : List JitOp} (hmade : ∀ op ∈ ops, op.Made) :
    (ops.map previewCycles).sum ≤ 19 * ops.length := by
  induction ops with
  | nil => exact le_rfl
  | cons op rest ih =>
    have hop := (hmade op (by simp)).previewCycles_le
    have hrest := ih fun op hop => hmade op (by simp [hop])
    rw [map_cons, sum_cons, length_cons]
    omega

lemma Made.goes_fast (hop : op.Made) (s : CpuState) (b : MemoryBus δ) :
    op.Goes (executeJitFast op.decoded op.fast op.pc s b).cpu := by
  intro _ hk
  rw [hop.fast_eq]
  unfold classifyJitFast
  rcases hk with hk | hk <;> rw [hk] <;> exact setPc_pc _ _

lemma Made.goes_generic (hop : op.Made) (h : op.fast = .generic) (s : CpuState) : op.Goes s := by
  intro _ hk
  rw [hop.fast_eq] at h
  unfold classifyJitFast at h
  rcases hk with hk | hk <;> rw [hk] at h <;> cases h

end JitOp

open JitOp

/-! ## What the engine reports -/

/-- What is retired is told in order, and charged at its price or less. -/
structure Progress.Tells (p : Progress) (done : List JitOp) : Prop where
  fetched : p.fetched = done.map place
  charged : p.totalCycles ≤ (done.map previewCycles).sum

def JitStepOutcome.Tells (out : JitStepOutcome) (ops : List JitOp) : Prop :=
  ∃ done, done <+: ops ∧ out.fetched = done.map place ∧ out.result.instructions = done.length ∧
    out.result.cycles ≤ (done.map previewCycles).sum

def LoopEnd.Tells (ops : List JitOp) : LoopEnd → Prop
  | .commit p => ∃ done, done <+: ops ∧ p.Tells done
  | .returned out => out.Tells ops

/-- One cached instruction is told once, or the loop ends. -/
def Retired.Tells (ops told : List JitOp) : Retired δ → Prop
  | .next p _ => p.Tells told
  | .stop e _ => e.Tells ops

section Loop

variable {p : Progress} {done rest ops : List JitOp}

lemma Progress.Tells.outcome (h : p.Tells done) (hdone : done <+: ops) (reason : StopReason)
    (suppress : Bool) : (p.outcome reason suppress).Tells ops := by
  refine ⟨done, hdone, h.fetched, ?_, (Nat.mod_le _ _).trans h.charged⟩
  unfold Progress.outcome Progress.count
  rw [h.fetched, length_map]

lemma Progress.Tells.touch (h : p.Tells done) (op : JitOp) : (p.touch op).Tells done := by
  unfold Progress.touch
  split
  · exact ⟨h.fetched, h.charged⟩
  · exact h

lemma Progress.Tells.retire (h : p.Tells done) {cycles : Nat} (hcost : cycles ≤ op.previewCycles)
    (suppress : Bool) : (p.retire op cycles suppress).Tells (done ++ [op]) := by
  constructor
  · rw [map_append, ← h.fetched]
    rfl
  · rw [map_append, sum_append]
    have := h.charged
    simp [Progress.retire]
    omega

section

variable (hop : op.Made) (h : p.Tells done) (hops : done ++ op :: rest = ops)
include hop h hops

lemma retireFast_tells : (retireFast op p m).Tells ops (done ++ [op]) := by
  have htouch := h.touch op
  have hfront : done ++ [op] <+: ops := ⟨rest, by simpa using hops⟩
  unfold retireFast
  dsimp only
  split
  · exact htouch.retire hop.one_le false
  have hcost := withPenalty_le (op.cycles_le (entered m.cpu op.size))
    (hop.goes_fast (entered m.cpu op.size) m.bus)
  split
  · split
    · exact ⟨_, hfront, htouch.retire hcost _⟩
    · exact htouch.retire hcost _
  · exact ⟨_, ⟨_, hops⟩, htouch⟩

lemma retireGeneric_tells (trapping : Bool) (hgeneric : op.fast = .generic) :
    (retireGeneric env trapping op p m).Tells ops (done ++ [op]) := by
  have htouch := h.touch op
  have hfront : done ++ [op] <+: ops := ⟨rest, by simpa using hops⟩
  have hcycles := op.cycles_le (entered m.cpu op.size)
  unfold retireGeneric
  dsimp only
  split
  · split
    · have hcost := withPenalty_le hcycles (hop.goes_generic hgeneric
        (executeOn env op.decoded (entered m.cpu op.size) m.bus).1.cpu)
      split
      · exact ⟨_, hfront, htouch.retire hcost _⟩
      · exact htouch.retire hcost _
    · split
      · exact ⟨[], nil_prefix, rfl, rfl, Nat.zero_le _⟩
      · exact ⟨_, ⟨_, hops⟩, htouch⟩
    · refine (htouch.retire ?_ _).outcome hfront _ _
      exact hcycles.trans (Nat.le_add_right _ _)
  · exact htouch.retire hop.one_le false

end

lemma blockLoop_tells (generation : Nat) (checkGeneration trapping : Bool)
    (hmade : ∀ op ∈ rest, op.Made) (h : p.Tells done) (hops : done ++ rest = ops) :
    (blockLoop env generation checkGeneration trapping rest p m).1.Tells ops := by
  induction rest generalizing p m done with
  | nil => exact ⟨_, ⟨_, hops⟩, h⟩
  | cons op rest ih =>
    have hop := hmade op (by simp)
    unfold blockLoop
    split
    · exact ⟨_, ⟨_, hops⟩, h⟩
    split
    · exact ⟨_, ⟨_, hops⟩, h⟩
    have hround : (if op.fast ≠ .generic then retireFast op p m
        else retireGeneric env trapping op p m).Tells ops (done ++ [op]) := by
      split
      · exact retireFast_tells hop h hops
      · rename_i hgeneric
        exact retireGeneric_tells hop h hops trapping (not_not.mp hgeneric)
    generalize (if op.fast ≠ .generic then retireFast op p m
      else retireGeneric env trapping op p m) = round at hround ⊢
    cases round with
    | next p m => exact ih (fun op hop => hmade op (by simp [hop])) hround (by simpa using hops)
    | stop e m => exact hround

lemma commitBlock_tells {out : JitStepOutcome} (h : p.Tells done) (hdone : done <+: ops)
    (hout : commitBlock p = some out) : out.Tells ops := by
  unfold commitBlock at hout
  split at hout
  · cases hout
  · cases hout
    exact h.outcome hdone _ _

end Loop

variable {entry : JitBlockEntry} {limit : Nat} {out : JitStepOutcome}

lemma finishBlock_tells {generation count : Nat} {p : Progress}
    (hmade : ∀ op ∈ entry.ops, op.Made) (h : p.Tells (entry.ops.take count))
    (hcount : count ≤ min limit entry.ops.length)
    (hout : (finishBlock env entry generation limit p m).1 = some out) :
    out.Tells (entry.ops.take limit) := by
  have hlength : p.count = count := by
    unfold Progress.count
    rw [h.fetched, length_map, length_take]
    omega
  have htake : entry.ops.take count = (entry.ops.take limit).take count := by
    rw [take_take]
    congr 1
    omega
  have hall : entry.ops.take count ++ (entry.ops.take limit).drop p.count = entry.ops.take limit := by
    rw [hlength, htake, take_append_drop]
  unfold finishBlock at hout
  split at hout
  · exact commitBlock_tells h ⟨_, hall⟩ hout
  have hloop : (blockLoop env generation entry.hasStore m.bus.mmioTrapping
      ((entry.ops.take limit).drop p.count) p m).1.Tells _ :=
    blockLoop_tells _ _ _ (fun op hop => hmade op (mem_of_mem_take (mem_of_mem_drop hop))) h hall
  dsimp only at hout
  revert hloop hout
  generalize (blockLoop env generation entry.hasStore m.bus.mmioTrapping
    ((entry.ops.take limit).drop p.count) p m).1 = e
  intro hout hloop
  cases e with
  | commit p =>
    obtain ⟨done, hdone, hp⟩ := hloop
    exact commitBlock_tells hp hdone hout
  | returned out' =>
    cases hout
    exact hloop

/-! ## Kernels and handlers alone -/

/-- The kernel of a block that stops behind a direct branch has gone to its target. -/
def JitBlockEntry.KernelGoes (entry : JitBlockEntry) (s : CpuState) : Prop :=
  ∀ function prefixCount limit op, entry.micro = some (function, prefixCount) →
    (entry.ops.take ((function s limit).1.setWidth 32).toNat).getLast? = some op →
    op.Goes (function s limit).2

lemma baseCyclesOf_le {ops : List JitOp} {last : JitOp} (hmade : ∀ op ∈ ops, op.Made)
    (hlast : ops.getLast? = some last) {s : CpuState} (hgoes : last.Goes s) :
    last.withPenalty (baseCyclesOf ops) s ≤ (ops.map previewCycles).sum := by
  induction ops with
  | nil => cases hlast
  | cons op rest ih =>
    have hop := hmade op (by simp)
    have hbase : op.baseCycles ≤ if op.divideForm then 12 else op.baseCycles := by
      rw [hop.shape]
      unfold jitOp
      dsimp only
      split_ifs <;> omega
    rw [map_cons, sum_cons, baseCyclesOf]
    cases rest with
    | nil =>
      obtain rfl : op = last := by simpa using hlast
      exact withPenalty_le hbase hgoes
    | cons next rest =>
      have hbehind := ih (fun op hop => hmade op (by simp [hop])) (by simpa using hlast)
      have hhere : op.baseCycles ≤ op.previewCycles := hbase.trans (Nat.le_add_right _ _)
      unfold withPenalty at hbehind ⊢
      split at hbehind <;> rename_i hleft
      · rw [if_pos hleft]
        omega
      · rw [if_neg hleft]
        omega

lemma runMicro_tells {p : Progress} {m' : Machine δ} (hmade : ∀ op ∈ entry.ops, op.Made)
    (hkernel : entry.KernelGoes m.cpu) (h : runMicro entry limit m = some (p, m')) :
    ∃ count, count ≤ min limit entry.ops.length ∧ p.Tells (entry.ops.take count) := by
  unfold runMicro at h
  split at h
  · cases h
  rename_i function prefixCount hmicro
  dsimp only at h
  split_ifs at h with _ hcount
  split at h
  · cases h
  rename_i last hlast
  have hgoes := hkernel function prefixCount _ last hmicro hlast
  simp only [Bool.and_eq_true, decide_eq_true_eq] at hcount
  cases h
  refine ⟨_, hcount.2.trans (Nat.min_le_left _ _), rfl, ?_⟩
  exact (last.withPenalty_mono (Nat.sub_le _ _) _).trans
    (baseCyclesOf_le (fun op hop => hmade op (mem_of_mem_take hop)) hlast hgoes)

lemma handlersAlone_goes {b : MemoryBus δ} {pc : BitVec 32} {ops : List JitOp} {last : JitOp}
    (hchain : Chained b pc ops) (hlast : ops.getLast? = some last) (s : CpuState)
    (b' : MemoryBus δ) : last.Goes (handlersAlone ops s b').1 := by
  induction hchain generalizing s b' with
  | nil => cases hlast
  | @cons pc raw size d rest fetched admits ends next ih =>
    have hop : (jitOp pc raw size d).Made := (Chained.cons fetched admits ends next).made _ (by simp)
    unfold handlersAlone
    cases rest with
    | nil =>
      obtain rfl : jitOp pc raw size d = last := by simpa using hlast
      dsimp only
      split
      · exact hop.goes_fast _ _
      · exact hop.goes_fast _ _
    | cons op rest =>
      have hgoes := fun s b' => ih (by simpa using hlast) s b'
      dsimp only
      split
      · rename_i hterm
        cases ends hterm
      · exact hgoes _ _

lemma baseCyclesOf_append (ops rest : List JitOp) :
    baseCyclesOf (ops ++ rest) = baseCyclesOf ops + baseCyclesOf rest := by
  induction ops with
  | nil => simp [baseCyclesOf]
  | cons op ops ih =>
    rw [cons_append, baseCyclesOf, baseCyclesOf, ih, Nat.add_assoc]

lemma runAllFast_tells {p : Progress} {b : MemoryBus δ} {m' : Machine δ}
    (hchain : Chained b entry.pc entry.ops) (h : runAllFast entry limit m = some (p, m')) :
    p.Tells (entry.ops.take limit) := by
  unfold runAllFast at h
  dsimp only at h
  split at h
  · cases h
  rename_i last hlast
  have hsplit := baseCyclesOf_append (entry.ops.take limit) (entry.ops.drop limit)
  rw [take_append_drop] at hsplit
  have hbound := baseCyclesOf_le (hchain.take limit).made hlast
    (handlersAlone_goes (hchain.take limit) hlast m.cpu m.bus)
  unfold withPenalty at hbound
  cases h
  refine ⟨rfl, ?_⟩
  dsimp only
  rw [hsplit, Nat.add_sub_cancel]
  split at hbound <;> split <;> simp_all
  omega

/-- The engine tells what it retired: the first instructions of the block, as many
as it counts and no more than it was allowed, at their price or less. -/
lemma runBlock_tells {b : MemoryBus δ} (hchain : Chained b entry.pc entry.ops)
    (hkernel : entry.KernelGoes m.cpu) (hout : (runBlock env entry limit m).1 = some out) :
    out.fetched = (entry.ops.take out.result.instructions).map place ∧
      out.result.instructions ≤ min limit entry.ops.length ∧
      out.result.cycles ≤ ((entry.ops.take out.result.instructions).map previewCycles).sum := by
  suffices h : out.Tells (entry.ops.take limit) by
    obtain ⟨done, hfront, hfetched, hcount, hcharged⟩ := h
    have hle := hfront.length_le
    rw [length_take] at hle
    have hdone : done = entry.ops.take out.result.instructions := by
      rw [List.prefix_iff_eq_take.mp hfront, take_take, hcount]
      congr 1
      omega
    rw [← hdone]
    exact ⟨hfetched, hcount ▸ hle, hcharged⟩
  unfold runBlock at hout
  split at hout
  · rename_i p m' hmicro
    obtain ⟨count, hcount, hp⟩ := runMicro_tells hchain.made hkernel hmicro
    exact finishBlock_tells hchain.made hp hcount hout
  · split_ifs at hout
    · split at hout
      · rename_i p m' hfast
        exact commitBlock_tells (runAllFast_tells hchain hfast) prefix_rfl hout
      · cases hout
    · refine finishBlock_tells hchain.made ?_ (Nat.zero_le _) hout
      exact ⟨rfl, Nat.zero_le _⟩

lemma tryStepPrepared_some {compile : MicroBlock → Option MicroFunction} {jit jit' : JitCache}
    {after : Machine δ}
    (h : tryStepPreparedJitBlock env compile limit jit m = (some out, jit', after)) :
    runBlock env (jit.blocks (jitBlockIndex m.cpu.pc)) limit m = (some out, after) := by
  unfold tryStepPreparedJitBlock tryStepJitBlockImpl at h
  split at h
  · cases h
  rw [if_pos rfl] at h
  dsimp only at h
  split at h
  · cases h
  · obtain ⟨hout, hrest⟩ := Prod.mk.inj h
    exact Prod.ext hout (Prod.mk.inj hrest).2

lemma touches_of_reaches {d : DecodedInstruction} (hd : Wellformed d) (ha : admitted d = true)
    (hreach : Sim.reachesMemory d.kind = true) : touchesMemory d = true := by
  unfold admitted at ha
  unfold touchesMemory
  cases hk : d.kind <;> rw [hk] at hreach <;> try cases hreach
  case ldr | ldm | pop => simp
  case tbb | tbh | vldr | vstr | vldm | vstm => simp [classifyJitBoundary, hk] at ha
  all_goals
    have hrd : d.rd ≠ 15 := by
      intro h
      have := hd.destination h
      simp [hk, InstrKind.floating] at this
    simp [classifyJitBoundary, hk, hrd]

lemma isFpRegisterAccess_admitted {d : DecodedInstruction} (ha : admitted d = true) :
    isFpRegisterAccess d.kind = false := by
  unfold admitted classifyJitBoundary at ha
  cases hk : d.kind <;> rw [hk] at ha <;> first | rfl | simp at ha

/-! ## What the engine does to the bus -/

/-- Where a round ends. -/
def Retired.machine : Retired δ → Machine δ
  | .next _ m => m
  | .stop _ m => m

section Effects

variable {R : MemoryBus δ → MemoryBus δ → Prop} (hrefl : ∀ b, R b b)
  (htrans : ∀ {a b c}, R a b → R b c → R a c)
  (hfast : ∀ d fast pc s b, R b (executeJitFast d fast pc s b).bus)

include hrefl hfast

lemma retireFast_rel (op : JitOp) (p : Progress) (m : Machine δ) :
    R m.bus (retireFast op p m).machine.bus := by
  unfold retireFast
  dsimp only
  split
  · exact hrefl _
  split
  · split <;> exact hfast _ _ _ _ _
  · exact hfast _ _ _ _ _

omit hfast in
lemma retireGeneric_rel (hgeneric : ∀ s b, R b (executeOn env op.decoded s b).2) (trapping : Bool)
    (p : Progress) (m : Machine δ) : R m.bus (retireGeneric env trapping op p m).machine.bus := by
  unfold retireGeneric
  dsimp only
  split
  · have hkept := hgeneric (entered m.cpu op.size) m.bus
    split
    · split <;> exact hkept
    · split <;> exact hkept
    · exact hkept
  · exact hrefl _

include htrans

lemma blockLoop_rel (generation : Nat) (checkGeneration trapping : Bool) {ops : List JitOp}
    (hgeneric : ∀ op ∈ ops, op.fast = .generic → ∀ s b, R b (executeOn env op.decoded s b).2)
    (p : Progress) (m : Machine δ) :
    R m.bus (blockLoop env generation checkGeneration trapping ops p m).2.bus := by
  induction ops generalizing p m with
  | nil => exact hrefl _
  | cons op rest ih =>
    unfold blockLoop
    split
    · exact hrefl _
    split
    · exact hrefl _
    have hround : R m.bus (if op.fast ≠ .generic then retireFast op p m
        else retireGeneric env trapping op p m).machine.bus := by
      split
      · exact retireFast_rel hrefl hfast op p m
      · rename_i hslow
        exact retireGeneric_rel hrefl (hgeneric op (by simp) (not_not.mp hslow)) trapping p m
    generalize (if op.fast ≠ .generic then retireFast op p m
      else retireGeneric env trapping op p m) = round at hround ⊢
    cases round with
    | next p m => exact htrans hround (ih (fun op hop => hgeneric op (by simp [hop])) p m)
    | stop e m => exact hround

lemma handlersAlone_rel (ops : List JitOp) (s : CpuState) (b : MemoryBus δ) :
    R b (handlersAlone ops s b).2 := by
  induction ops generalizing s b with
  | nil => exact hrefl _
  | cons op rest ih =>
    unfold handlersAlone
    split
    · exact hfast _ _ _ _ _
    · exact htrans (hfast _ _ _ _ _) (ih _ _)

/-- What handlers do to the bus, and instructions without one, a block does. -/
lemma runBlock_rel (hgeneric : ∀ op ∈ entry.ops.take limit, op.fast = .generic →
    ∀ s b, R b (executeOn env op.decoded s b).2) (m : Machine δ) :
    R m.bus (runBlock env entry limit m).2.bus := by
  have hfinish : ∀ generation p m, R m.bus (finishBlock env entry generation limit p m).2.bus := by
    intro generation p m
    unfold finishBlock
    split
    · exact hrefl _
    · exact blockLoop_rel hrefl htrans hfast generation entry.hasStore m.bus.mmioTrapping
        (fun op hop => hgeneric op (mem_of_mem_drop hop)) p m
  unfold runBlock
  split
  · rename_i p m' hmicro
    have hbus : m'.bus = m.bus := by
      unfold runMicro at hmicro
      split at hmicro
      · cases hmicro
      dsimp only at hmicro
      split_ifs at hmicro
      split at hmicro
      · cases hmicro
      · cases hmicro
        rfl
    rw [← hbus]
    exact hfinish _ p m'
  · split
    · split
      · rename_i p m' hfastRun
        unfold runAllFast at hfastRun
        dsimp only at hfastRun
        split at hfastRun
        · cases hfastRun
        · cases hfastRun
          exact handlersAlone_rel hrefl htrans hfast _ _ _
      · exact hrefl _
    · exact hfinish _ _ m

end Effects

lemma tryStepPrepared_codeKept (env : Environment δ)
    (compile : MicroBlock → Option MicroFunction) (limit : Nat) (jit : JitCache) (m : Machine δ) :
    (tryStepPreparedJitBlock env compile limit jit m).2.1 = jit ∧
      CodeKept m.bus (tryStepPreparedJitBlock env compile limit jit m).2.2.bus := by
  unfold tryStepPreparedJitBlock tryStepJitBlockImpl
  split
  · exact ⟨rfl, .refl _⟩
  rw [if_pos rfl]
  dsimp only
  split
  · exact ⟨rfl, .refl _⟩
  · exact ⟨rfl, runBlock_rel CodeKept.refl CodeKept.trans executeJitFast_codeKept
      (fun op _ _ => executeOn_codeKept env op.decoded) m⟩

/-- Up to the first access without a handler a block reaches no device. -/
lemma runBlock_devices (hmade : ∀ op ∈ entry.ops, op.Made)
    (hlimit : limit ≤ previewExtendedCount entry.ops) :
    (runBlock env entry limit m).2.bus.deviceState = m.bus.deviceState := by
  refine runBlock_rel (R := fun b b' => b'.deviceState = b.deviceState) (fun _ => rfl)
    (fun h h' => h'.trans h) (fun _ _ _ _ _ => (executeJitFast_path _ _ _ _ _).kept.devices)
    (fun op hop hgeneric s b => ?_) m
  have hop' := hmade op (mem_of_mem_take hop)
  have hmemory : op.isMemory = false := by
    have hfront : op ∈ entry.ops.takeWhile fun op => !(op.isMemory && op.fast = .generic) := by
      have hprefix := takeWhile_prefix (l := entry.ops) fun op => !(op.isMemory && op.fast = .generic)
      rw [List.prefix_iff_eq_take.mp hprefix]
      exact (take_prefix_take_left hlimit).subset hop
    simpa [hgeneric] using mem_takeWhile_imp hfront
  have hcore : Sim.reachesMemory op.decoded.kind = false := by
    by_contra hreach
    have htouch := touches_of_reaches hop'.wellformed hop'.admits (by simpa using hreach)
    rw [hop'.shape] at hmemory
    exact absurd htouch (by simpa [jitOp] using hmemory)
  have hasks := execute_asks (i := op.decoded) (s := s) env.fp (env.aspen b.deviceState)
  rw [flushes, isFpRegisterAccess_admitted hop'.admits, Sim.transfers_core hcore] at hasks
  exact congrArg MemoryBus.deviceState (hasks.run_eq Request.perform b).1

/-! ## The engine as single steps -/

/-- Single steps through cached instructions, and the cycles they charge. The core
comes to each of them, finds it in memory as it was decoded and reaches no device. -/
inductive SteppedThrough (env : Environment δ) : List JitOp → Machine δ → Nat → Machine δ → Prop
  | nil (m : Machine δ) : SteppedThrough env [] m 0 m
  | cons {op : JitOp} {rest : List JitOp} {m last : Machine δ} {cycles : Nat}
      (arrives : m.cpu.pc = op.pc)
      (fetched : fetchDecode m.cpu.pc m.bus = some (op.raw, op.size, op.decoded))
      (quiet : (stepFast env m).2.bus.deviceState = m.bus.deviceState)
      (retires : (stepFast env m).1.instructions = 1)
      (next : SteppedThrough env rest (stepFast env m).2 cycles last) :
      SteppedThrough env (op :: rest) m ((stepFast env m).1.cycles + cycles) last

/-- The engine equals single stepping in what it fetches and charges: what it says it
retired are steps through the block, at the cycles that it says. -/
def AgreesWithSteps (env : Environment δ) (ops : List JitOp) (m : Machine δ)
    (out : JitStepOutcome) : Prop :=
  ∃ cycles last, SteppedThrough env (ops.take out.result.instructions) m cycles last ∧
    out.result.cycles = cycles % 65536

section Steps

variable {raw : BitVec 32} {size : Nat} {d : DecodedInstruction}

lemma runs_of_retired (h : (stepFast env m).1.instructions = 1) :
    (m.cpu.halted || invalidThumb m.cpu) = false := by
  unfold stepFast stepFastImpl at h
  cases hhalted : m.cpu.halted with
  | true =>
    rw [hhalted] at h
    cases h
  | false =>
    cases hthumb : invalidThumb m.cpu with
    | true =>
      rw [hhalted, hthumb] at h
      cases h
    | false => rfl

lemma stepFast_names (env : Environment δ)
    (hat : StandsAt raw size d m) :
    (stepFast env m).1.instructionAddress = m.cpu.pc ∧
      (stepFast env m).1.instructionSize = size := by
  rw [stepFast_of_fetchDecode hat, retireChecked_eq]
  unfold conclude
  dsimp only
  split_ifs <;> exact ⟨rfl, rfl⟩

lemma conclude_instructions (i : StepInstruction) (done : Executed) (b : MemoryBus δ) :
    (conclude i m done b).1.instructions ≤ 1 := by
  unfold conclude
  dsimp only
  split_ifs <;> first | exact le_rfl | exact Nat.zero_le _

lemma stepFast_instructions (env : Environment δ) (m : Machine δ) :
    (stepFast env m).1.instructions ≤ 1 := by
  unfold stepFast stepFastImpl
  dsimp only
  split_ifs
  · exact Nat.zero_le _
  · exact Nat.zero_le _
  rcases fetch m.cpu.pc m.bus with ⟨fetched, b⟩
  cases fetched with
  | faulted => exact Nat.zero_le _
  | undefined => exact Nat.zero_le _
  | decoded raw size d => exact conclude_instructions _ _ _

end Steps

/-! ## What the steps of a batch have in common -/

namespace SteppedThrough

variable {ops : List JitOp} {last : Machine δ} {cycles : Nat}

lemma small (h : SteppedThrough env ops m cycles last) : cycles ≤ 19 * ops.length := by
  induction h with
  | nil => exact le_rfl
  | @cons op rest m last cycles arrives fetched quiet retires next ih =>
    have hsmall := stepFast_cycles_small env ⟨runs_of_retired retires, fetched⟩
    rw [length_cons]
    omega

/-- The core steps through instructions whose prices are exact, and they charge
them. -/
lemma of_exact (env : Environment δ) {b : MemoryBus δ} {pc : BitVec 32}
    (hchain : Chained b pc ops) (hexact : ∀ op ∈ ops, op.previewExact = true)
    (hruns : Runs m.cpu) (hpc : m.cpu.pc = pc) (hbus : m.bus = b) :
    ∃ last, SteppedThrough env ops m (ops.map previewCycles).sum last := by
  induction hchain generalizing m with
  | nil pc => exact ⟨m, .nil m⟩
  | @cons pc raw size d rest fetched admits ends next ih =>
    subst hpc hbus
    obtain ⟨hone, hprice, hkept, hgoes⟩ :=
      stepFast_exact env hruns fetched admits (hexact _ (by simp))
    have hrest : ∃ last, SteppedThrough env rest (stepFast env m).2
        (rest.map previewCycles).sum last := by
      cases hterm : (jitOp m.cpu.pc raw size d).isTerminator with
      | true =>
        rw [ends hterm]
        exact ⟨_, .nil _⟩
      | false =>
        obtain ⟨hnext, hready⟩ := hgoes hterm
        exact ih (fun op hop => hexact op (by simp [hop])) hready hnext hkept
    obtain ⟨last, hrest⟩ := hrest
    rw [map_cons, sum_cons, ← hprice]
    exact ⟨last, .cons rfl fetched (by rw [hkept]) hone hrest⟩

end SteppedThrough

end Fil.Cpu
