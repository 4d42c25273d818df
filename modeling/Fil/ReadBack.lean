-- What a write leaves is what reads find, by whatever address they come, and a write that
-- fails leaves the backed bytes and their journal as they were.
import Fil.BusEffects

open ByteLanes

namespace Fil.Mem

/-- The address and the region that an access of some bytes stands for, at most `depth`
aliases away. Each region on the way holds all the bytes and allows the access. -/
def RegionMap.resolve (m : RegionMap) (allows : Region → Bool) (width depth : Nat)
    (address : BitVec 32) : Option (BitVec 32 × Region) :=
  match m.find address with
  | none => none
  | some r =>
    if !(r.containsRange address width && allows r) then none
    else if r.info.kind = .alias then
      match depth with
      | 0 => none
      | depth + 1 => m.resolve allows width depth (r.aliasTarget + (address - r.info.base))
    else some (address, r)

/-- The bytes once the low bytes of a value are put at an address. -/
def written (bytes : BitVec 32 → BitVec 8) (a : BitVec 32) (width : Nat) (v : BitVec 64)
    (p : BitVec 32) : BitVec 8 :=
  if (p - a).toNat < width then byteAt v (p - a).toNat else bytes p

namespace MemoryBus

variable {δ : Type} {m : RegionMap} {depth : Nat} {a : BitVec 32} {r : Region}

/-- A region that lets a read pass, on the way through an alias as well. -/
def allowsRead (context : AccessContext) (r : Region) : Bool :=
  r.info.readable && !(context.type = .instructionFetch && !r.info.executable)

/-- A region that lets a write pass. An alias leaves that to its target. -/
def allowsWrite (b : MemoryBus δ) (r : Region) : Bool :=
  r.info.kind = .alias ||
    r.info.writable && !(b.reversibleRamOnly && (r.info.kind ≠ .ram || r.info.executable))

lemma written_succ (bytes : BitVec 32 → BitVec 8) (a : BitVec 32) {n : Nat} (hn : n < 2 ^ 32)
    (v : BitVec 64) : written bytes a (n + 1) v =
      Function.update (written bytes a n v) (a + BitVec.ofNat 32 n) (byteAt v n) := by
  funext p
  unfold written
  by_cases hp : p = a + BitVec.ofNat 32 n
  · have hat : (p - a).toNat = n := by
      rw [hp, BitVec.add_comm, BitVec.add_sub_cancel, BitVec.toNat_ofNat, Nat.mod_eq_of_lt hn]
    rw [hat, if_pos (Nat.lt_succ_self n), hp, Function.update_self]
  · have hne : (p - a).toNat ≠ n := fun h => hp (by
      rw [← h, BitVec.ofNat_toNat, BitVec.setWidth_eq, BitVec.add_comm, BitVec.sub_add_cancel])
    rw [Function.update_of_ne hp]
    congr 1
    exact propext (by omega)

variable (b : MemoryBus δ)

lemma bytes_storeBytes (a : BitVec 32) {n : Nat} (hn : n ≤ 2 ^ 32)
    (v : BitVec 64) (external : Bool) :
    (b.storeBytes a n v external).bytes = written b.bytes a n v := by
  induction n with
  | zero => rfl
  | succ n ih =>
    rw [storeBytes_succ, written_succ _ _ (by omega), ← ih (by omega)]
    unfold storeByte
    split
    · rename_i hsame
      rw [← hsame, Function.update_eq_self]
    · rfl

/-- Where the checks of an access arrive, in terms of the regions alone. -/
def Route.Leads (m : RegionMap) (allows : Region → Bool) (width : Nat) (a : BitVec 32) :
    Route → Prop
  | .refused _ => ∀ depth, m.resolve allows width depth a = none
  | .alias r => m.resolve allows width 0 a = none ∧ ∀ depth, m.resolve allows width (depth + 1) a =
      m.resolve allows width depth (r.aliasTarget + (a - r.info.base))
  | .mmio r => (∀ depth, m.resolve allows width depth a = some (a, r)) ∧ r.info.kind = .mmio
  | .backed r => (∀ depth, m.resolve allows width depth a = some (a, r)) ∧ r.info.kind ≠ .mmio

section

variable {allows : Region → Bool} {width : Nat}

lemma resolve_outside (hwidth : 0 < width ∧ width < 2 ^ 32)
    (hwraps : validRange a (BitVec.ofNat 32 width) = false) (depth : Nat) :
    m.resolve allows width depth a = none := by
  rw [RegionMap.resolve.eq_def]
  split
  · rfl
  rename_i r hfind
  have hend := RegionMap.end_le (RegionMap.find_some hfind).1
  have hcross : r.containsRange a width = false := by
    by_contra hinside
    have hinside := ((r.containsRange_iff a width).mp (by simpa using hinside)).2
    rw [← Bool.not_eq_true, validRange_iff, BitVec.toNat_ofNat, Nat.mod_eq_of_lt hwidth.2] at hwraps
    exact hwraps ⟨hwidth.1, hinside.trans hend⟩
  rw [hcross]
  rfl

lemma resolve_unmapped (hfind : m.find a = none) (depth : Nat) :
    m.resolve allows width depth a = none := by
  rw [RegionMap.resolve.eq_def, hfind]

lemma resolve_refused (hfind : m.find a = some r)
    (h : (r.containsRange a width && allows r) = false) (depth : Nat) :
    m.resolve allows width depth a = none := by
  rw [RegionMap.resolve.eq_def, hfind]
  dsimp only
  rw [h]
  rfl

lemma resolve_passed (hfind : m.find a = some r)
    (h : (r.containsRange a width && allows r) = true) (depth : Nat) :
    m.resolve allows width depth a = if r.info.kind = .alias then
      match depth with
      | 0 => none
      | depth + 1 => m.resolve allows width depth (r.aliasTarget + (a - r.info.base))
    else some (a, r) := by
  rw [RegionMap.resolve.eq_def, hfind]
  dsimp only
  rw [h]
  rfl

lemma leads_passed (hfind : m.find a = some r)
    (h : (r.containsRange a width && allows r) = true) : Route.Leads m allows width a
      (match r.info.kind with
      | .alias => .alias r
      | .mmio => .mmio r
      | .ram | .rom | .flash => .backed r) := by
  have hpassed := resolve_passed hfind h
  cases hkind : r.info.kind <;> simp only [hkind, reduceCtorEq, if_true, if_false] at hpassed
  · exact ⟨hpassed, by simp [hkind]⟩
  · exact ⟨hpassed, by simp [hkind]⟩
  · exact ⟨hpassed, by simp [hkind]⟩
  · exact ⟨hpassed 0, fun depth => hpassed (depth + 1)⟩
  · exact ⟨hpassed, hkind⟩

end

lemma byteCount_range (size : AccessSize) : 0 < byteCount size ∧ byteCount size < 2 ^ 32 := by
  cases size <;> decide

section

variable (a : BitVec 32) (size : AccessSize) (context : AccessContext)

lemma readRoute_leads :
    (b.readRoute a size context).Leads b.map (allowsRead context) (byteCount size) a := by
  unfold readRoute
  dsimp only
  split
  · rename_i hwraps
    exact resolve_outside (byteCount_range size) (by simpa using hwraps)
  split
  · exact resolve_unmapped ‹_›
  rename_i r hfind
  split_ifs with hcross hreadable hexecutable
  · exact resolve_refused hfind (by grind)
  · exact resolve_refused hfind (by grind [allowsRead])
  · exact resolve_refused hfind (by grind [allowsRead])
  · exact leads_passed hfind (by grind [allowsRead])

lemma writeRoute_leads :
    (b.writeRoute a size context).Leads b.map b.allowsWrite (byteCount size) a := by
  unfold writeRoute
  dsimp only
  split
  · rename_i hwraps
    exact resolve_outside (byteCount_range size) (by simpa using hwraps)
  split
  · exact resolve_unmapped ‹_›
  rename_i r hfind
  have hpassed := fun h : (r.containsRange a (byteCount size) && b.allowsWrite r) = true =>
    leads_passed hfind h
  split_ifs with hcross halias hwritable hreversible hmmio
  · exact resolve_refused hfind (by grind)
  · specialize hpassed (by grind [allowsWrite])
    rwa [halias] at hpassed
  · exact resolve_refused hfind (by grind [allowsWrite])
  · exact resolve_refused hfind (by grind [allowsWrite])
  · specialize hpassed (by grind [allowsWrite])
    rwa [hmmio] at hpassed
  · specialize hpassed (by grind [allowsWrite])
    split at hpassed
    · exact absurd ‹_› halias
    · exact absurd ‹_› hmmio
    all_goals exact hpassed

end

section

variable (depth : Nat) (b : MemoryBus δ) (a : BitVec 32) (size : AccessSize)

/-- A read fails where the checks do not let it through, and gives the bytes that its
address stands for, unless that is in a device. -/
lemma readFrom_resolves (context : AccessContext) :
    match b.map.resolve (allowsRead context) (byteCount size) depth a with
    | none => ∃ fault, (readFrom depth b a size context).1 = .error fault
    | some (t, r) => r.info.kind = .mmio ∨
        (readFrom depth b a size context).1 = .ok (littleEndian b.bytes t (byteCount size)) := by
  have hleads := b.readRoute_leads a size context
  fun_induction readFrom depth b a size context with
  | case1 a _ fault hr =>
    rw [hr] at hleads
    rw [hleads]
    exact ⟨fault, rfl⟩
  | case2 a region hr =>
    rw [hr] at hleads
    rw [hleads.1]
    exact ⟨_, rfl⟩
  | case3 a region hr depth ih =>
    rw [hr] at hleads
    rw [hleads.2 depth]
    exact ih (b.readRoute_leads _ size context)
  | case4 _ a r hr =>
    rw [hr] at hleads
    rw [hleads.1]
    exact .inl hleads.2
  | case5 _ a r hr =>
    rw [hr] at hleads
    rw [hleads.1]
    refine .inr ?_
    rw [← (alike_readNote b a (byteCount size) _).bytes]
    rfl

lemma writeFrom_resolves (v : BitVec 64) (context : AccessContext) :
    match b.map.resolve b.allowsWrite (byteCount size) depth a with
    | none => ∃ fault, writeFrom depth b a size v context = (.error fault, b)
    | some (t, r) => r.info.kind = .mmio ∨
        writeFrom depth b a size v context = b.writeBacked r t size v context := by
  have hleads := b.writeRoute_leads a size context
  fun_induction writeFrom depth b a size v context with
  | case1 a _ fault hr =>
    rw [hr] at hleads
    rw [hleads]
    exact ⟨fault, rfl⟩
  | case2 a region hr =>
    rw [hr] at hleads
    rw [hleads.1]
    exact ⟨_, rfl⟩
  | case3 a region hr depth ih =>
    rw [hr] at hleads
    rw [hleads.2 depth]
    exact ih (b.writeRoute_leads _ size context)
  | case4 _ a r hr =>
    rw [hr] at hleads
    rw [hleads.1]
    exact .inl hleads.2
  | case5 _ a r hr =>
    rw [hr] at hleads
    rw [hleads.1]
    exact .inr rfl

end

lemma bytes_writeBacked (r : Region) (a : BitVec 32) (size : AccessSize) (v : BitVec 64)
    (context : AccessContext) :
    (b.writeBacked r a size v context).2.bytes = written b.bytes a (byteCount size) v := by
  change ((storeBytes _ a _ v _).noteExecutable r).unwatched.bytes = _
  rw [unwatched_noteExecutable]
  refine (bytes_storeBytes _ a ((byteCount_le size).trans (by decide)) v _).trans ?_
  change written (b.addStoreFootprint a _ context).unwatched.bytes a _ v = _
  rw [unwatched_addStoreFootprint]
  rfl

/-- **What is written is read.** A write fails exactly where a region on its way is missing,
too short or does not allow it, and then leaves the whole bus as it was. Any other write
that does not end in a device succeeds, puts the bytes of its value where its address
leads, and changes no other byte. Reads behind it fail likewise, or give the bytes where
their own addresses lead, unless those are in a device. -/
theorem what_is_written_is_read (b : MemoryBus δ) (a : BitVec 32) (size : AccessSize)
    (v : BitVec 64) (context : AccessContext) :
    let outcome := b.write a size v context
    match b.map.resolve b.allowsWrite (byteCount size) maximumAliasDepth a with
    | none => ∃ fault, outcome = (.error fault, b)
    | some (t, r) => r.info.kind = .mmio ∨ outcome.1 = .ok 0 ∧
        outcome.2.bytes = written b.bytes t (byteCount size) v ∧
        ∀ (a' : BitVec 32) (size' : AccessSize) (context' : AccessContext),
          match b.map.resolve (allowsRead context') (byteCount size') maximumAliasDepth a' with
          | none => ∃ fault, (outcome.2.read a' size' context').1 = .error fault
          | some (t', r') => r'.info.kind = .mmio ∨ (outcome.2.read a' size' context').1 =
              .ok (littleEndian outcome.2.bytes t' (byteCount size')) := by
  intro outcome
  have hmap : outcome.2.map = b.map := (b.write_path a size v context).does.map
  have hwrite := writeFrom_resolves maximumAliasDepth b a size v context
  split
  · rename_i hnone
    rw [hnone] at hwrite
    exact hwrite
  · rename_i t r hsome
    rw [hsome] at hwrite
    refine hwrite.imp_right fun hbacked => ?_
    have houtcome : outcome = b.writeBacked r t size v context := hbacked
    refine ⟨by rw [houtcome]; rfl, by rw [houtcome, bytes_writeBacked], ?_⟩
    intro a' size' context'
    have hread := readFrom_resolves maximumAliasDepth outcome.2 a' size' context'
    rw [hmap] at hread
    exact hread

end MemoryBus
end Fil.Mem
