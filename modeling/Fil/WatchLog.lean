-- What the watch log says of an access. An access that the bus serves is logged
-- at its address with its width, so the reference executor logs exactly the data
-- accesses of its instruction. A watchpoint fires at a logged access of its kind
-- that holds a watched byte.
import Fil.BoardRun
import Fil.StepEffects
import Fil.Transfers

open Dialogue Fil.Mem Fil.Mem.MemoryBus List

namespace Fil.Sim

open Fil.Cpu
open Request (perform)

variable {δ : Type}

/-! ## What all accesses keep -/

namespace SameWatch

lemma refl (b : MemoryBus δ) : SameWatch b b := ⟨rfl, rfl⟩

variable {b : MemoryBus δ}

lemma trans {a c : MemoryBus δ} (h1 : SameWatch a b) (h2 : SameWatch b c) : SameWatch a c :=
  ⟨h2.map.trans h1.map, h2.enabled.trans h1.enabled⟩

variable {b' : MemoryBus δ}

lemma of_alike (h : Alike b' b) : SameWatch b b' :=
  ⟨h.map, h.congr MemoryBus.accessWatchLogEnabled fun _ => rfl⟩

lemma of_effect (h : Effect b b') : SameWatch b b' := by
  cases h with
  | note h => exact of_alike h
  | store _ v external =>
    unfold storeByte
    split
    · exact refl b
    · exact ⟨rfl, rfl⟩
  | readMmio => exact (readMmio_reached ..).keeps (refl b) fun _ _ => ⟨rfl, rfl⟩
  | writeMmio => exact (writeMmio_reached ..).keeps (refl b) fun _ _ => ⟨rfl, rfl⟩

lemma of_does (h : Does b b') : SameWatch b b' :=
  Does.lift refl (fun _ _ _ => trans) (fun _ _ => of_effect) h

end SameWatch

/-! ## What an access logs -/

section Logs

variable {b : MemoryBus δ} {pc a : BitVec 32}

/-- No alias region holds the address. -/
def Direct (b : MemoryBus δ) (a : BitVec 32) : Prop :=
  ∀ r, b.map.find a = some r → r.info.kind ≠ .alias

lemma addAccessFootprint_log (henabled : b.accessWatchLogEnabled = true) {width : Nat}
    (hw : 0 < width) : (b.addAccessFootprint a width).accessWatchLog =
      b.accessWatchLog ++ [⟨a, min width 8, false⟩] := by
  have hlog : (b.accessWatchLogEnabled && decide (width ≠ 0)) = true := by
    rw [henabled, Bool.true_and]
    exact decide_eq_true (by omega)
  unfold addAccessFootprint logAccess
  dsimp only
  rw [if_pos hlog]
  split_ifs <;> rfl

variable {size : AccessSize}

section

variable {c : AccessContext} {r : Region}

lemma readRoute_alias (h : b.readRoute a size c = .alias r) :
    b.map.find a = some r ∧ r.info.kind = .alias := by
  unfold readRoute at h
  dsimp only at h
  split_ifs at h
  split at h
  · cases h
  rename_i q hq
  split_ifs at h
  split at h <;> cases h
  rename_i hk
  exact ⟨hq, hk⟩

lemma writeRoute_alias (h : b.writeRoute a size c = .alias r) :
    b.map.find a = some r ∧ r.info.kind = .alias := by
  unfold writeRoute at h
  dsimp only at h
  split_ifs at h
  split at h
  · cases h
  rename_i q hq
  split_ifs at h with hc hk
  cases h
  exact ⟨hq, hk⟩

end

section

variable (henabled : b.accessWatchLogEnabled = true)
include henabled

section

variable (hpc : pc ≠ 0)
include hpc

lemma logs_access : (b.accessWatchLogEnabled && decide (pc ≠ 0)) = true := by
  rw [henabled, Bool.true_and]
  exact decide_eq_true hpc

lemma read_logs (hdirect : Direct b a)
    (h : ∀ fault, (b.read a size ⟨.dataRead, pc⟩).1 ≠ .error fault) :
    (b.read a size ⟨.dataRead, pc⟩).2.accessWatchLog =
      b.accessWatchLog ++ [⟨a, byteCount size, false⟩] := by
  have hlog := logs_access henabled hpc
  unfold MemoryBus.read at h ⊢
  unfold readFrom at h ⊢
  split at h
  · exact absurd rfl (h _)
  · rename_i r hr
    exact absurd (readRoute_alias hr).2 (hdirect r (readRoute_alias hr).1)
  · unfold readMmio at h ⊢
    dsimp only at h ⊢
    split
    · rename_i htrap
      rw [if_pos htrap] at h
      exact absurd rfl (h _)
    · rfl
  · unfold readBacked
    rw [if_pos (by exact decide_eq_true hpc), addAccessFootprint_log henabled (byteCount_pos size),
      Nat.min_eq_left (byteCount_le size)]

lemma write_logs (hdirect : Direct b a) {v : BitVec 64}
    (h : ∀ fault, (b.write a size v ⟨.dataWrite, pc⟩).1 ≠ .error fault) :
    (b.write a size v ⟨.dataWrite, pc⟩).2.accessWatchLog =
      b.accessWatchLog ++ [⟨a, byteCount size, true⟩] := by
  have hlog := logs_access henabled hpc
  unfold MemoryBus.write at h ⊢
  unfold writeFrom at h ⊢
  split at h
  · exact absurd rfl (h _)
  · rename_i r hr
    exact absurd (writeRoute_alias hr).2 (hdirect r (writeRoute_alias hr).1)
  · unfold writeMmio at h ⊢
    dsimp only at h ⊢
    split
    · rename_i htrap
      rw [if_pos htrap] at h
      exact absurd rfl (h _)
    · rfl
  · rename_i r _
    unfold writeBacked
    dsimp only
    obtain ⟨_, _, _, _, hframe⟩ := storeBytes_frame
      (b.addStoreFootprint a (byteCount size) ⟨.dataWrite, pc⟩) a (byteCount size) v
      (decide (pc = 0))
    rw [hframe, addStoreFootprint_eq b _ a (byteCount_pos size), noteExecutable]
    have hentries : b.storeEntries ⟨.dataWrite, pc⟩ a (byteCount size) =
        [⟨a, byteCount size, true⟩] := by
      unfold storeEntries
      rw [if_pos (by rw [Bool.and_comm]; exact hlog), Nat.min_eq_left (byteCount_le size)]
    rw [hentries]
    split <;> rfl

lemma perform_logs {r : Request} (hdata : r.OfData pc)
    (hdirect : Direct b r.access.address) (h : Served (r.perform b).1) :
    (r.perform b).2.accessWatchLog = b.accessWatchLog ++ [r.access] := by
  obtain ⟨value, hvalue⟩ := h
  cases r with
  | read8 a c | read16 a c | read32 a c =>
    obtain rfl := hdata
    simp only [perform, read8_eq, read16_eq, read32_eq] at hvalue ⊢
    exact read_logs (a := a) henabled hpc hdirect fun fault hread => by
      simp [hread, Except.map] at hvalue
  | write8 a v c | write16 a v c | write32 a v c =>
    obtain rfl := hdata
    simp only [perform, write8_eq, write16_eq, write32_eq] at hvalue ⊢
    exact write_logs (a := a) henabled hpc hdirect fun fault hwrite => by
      simp [hwrite, Except.map] at hvalue

/-- Accesses that are all served are all logged, in order. -/
lemma inquire_logs {requests : List Request} (hdata : ∀ r ∈ requests, r.OfData pc)
    (hdirect : ∀ r ∈ requests, Direct b r.access.address)
    (h : (Prog.inquire Served perform requests b).1 = none) :
    (Prog.inquire Served perform requests b).2.accessWatchLog =
      b.accessWatchLog ++ requests.map Request.access := by
  induction requests generalizing b with
  | nil => simp [Prog.inquire]
  | cons r rest ih =>
    unfold Prog.inquire at h ⊢
    split at h
    · rename_i hserved
      have hsame := SameWatch.of_does (perform_does r b)
      have hlog := perform_logs henabled hpc (hdata r (by simp)) (hdirect r (by simp)) hserved
      have hrest := ih (hsame.enabled.trans henabled) (fun x hx => hdata x (by simp [hx]))
        (fun x hx => ?_) h
      · rw [if_pos hserved, hrest, hlog, map_cons, append_assoc, singleton_append]
      · unfold Direct
        rw [hsame.map]
        exact hdirect x (by simp [hx])
    · cases h

end

/-- The reference executor logs the data accesses of its instruction, if it
finds no frame that is still to be pushed. -/
lemma executeOn_logs {env : Environment δ} {d : DecodedInstruction} {s : CpuState}
    (hpc : s.instructionAddress ≠ 0) (hflush : flushes d s = false)
    (hdirect : ∀ r ∈ transfers d s, Direct b r.access.address)
    (h : (executeOn env d s b).1.reason = .stepComplete) :
    (executeOn env d s b).2.accessWatchLog =
      b.accessWatchLog ++ (transfers d s).map Request.access := by
  have hasks := execute_asks (i := d) (s := s) env.fp (env.aspen b.deviceState)
  rw [hflush, if_neg Bool.false_ne_true, nil_append] at hasks
  obtain ⟨hbus, -, hfailed⟩ := hasks.run_eq perform b
  have hnone : (Prog.inquire Served perform (transfers d s) b).1 = none := by
    by_contra hne
    have hrefused : Refused (executeOn env d s b).1 := hfailed hne
    rcases hrefused with hr | hr <;> rw [h] at hr <;> cases hr
  unfold executeOn
  rw [hbus]
  exact inquire_logs henabled hpc (transfers_ofData d s) hdirect hnone

end

/-! ## Watched bytes -/

/-- Whether a kind of watchpoint looks at stores, or at loads. -/
def WatchAccess.Sees : WatchAccess → (stores : Bool) → Prop
  | .write, stores => stores = true
  | .read, stores => stores = false
  | .access, _ => True

def Watchpoint.Watches (w : Watchpoint) (access : AccessWatchEntry) : Prop :=
  w.access.Sees access.write ∧
    ∃ byte, (access.address.toNat ≤ byte ∧ byte < access.address.toNat + access.width) ∧
      w.address.toNat ≤ byte ∧ byte < w.address.toNat + w.length.toNat

def Watchpoint.Meets (w : Watchpoint) (accesses : List AccessWatchEntry) : Prop :=
  ∃ access ∈ accesses, w.Watches access

/-- Two ranges that are not empty overlap if neither ends before the other
begins. -/
lemma overlap_iff {a n b m : Nat} (hn : 0 < n) (hm : 0 < m) :
    (∃ byte, (a ≤ byte ∧ byte < a + n) ∧ b ≤ byte ∧ byte < b + m) ↔ ¬(b + m ≤ a) ∧ ¬(a + n ≤ b) := by
  constructor
  · rintro ⟨byte, ⟨h1, h2⟩, h3, h4⟩
    omega
  · rintro ⟨h1, h2⟩
    exact ⟨max a b, by omega, by omega⟩

lemma Watchpoint.fires_iff {w : Watchpoint} {access : AccessWatchEntry} (h : 0 < access.width) :
    w.fires access = true ↔ w.Watches access := by
  unfold Watchpoint.fires Watchpoint.Watches
  by_cases hlength : w.length = 0
  · simp only [hlength, decide_true, Bool.true_or, if_true, Bool.false_eq_true, false_iff, not_and,
      not_exists]
    intro _ byte hbyte
    have hzero : (0 : BitVec 32).toNat = 0 := rfl
    omega
  have hpos : 0 < w.length.toNat := by
    rcases Nat.eq_zero_or_pos w.length.toNat with hz | hp
    · exact absurd (BitVec.eq_of_toNat_eq hz) hlength
    · exact hp
  rw [overlap_iff h hpos, decide_eq_false hlength]
  cases w.access <;> cases access.write <;> simp [WatchAccess.Sees]

lemma watchpointHit_isSome {ws : List Watchpoint} {log : List AccessWatchEntry}
    (h : ∀ e ∈ log, 0 < e.width) :
    (watchpointHit ws log).isSome = true ↔ ∃ w ∈ ws, w.Meets log := by
  unfold watchpointHit Watchpoint.Meets
  rw [isSome_findSome?, any_eq_true]
  constructor
  · rintro ⟨e, he, hsome⟩
    rw [isSome_findSome?, any_eq_true] at hsome
    obtain ⟨w, hw, hfires⟩ := hsome
    refine ⟨w, hw, e, he, (Watchpoint.fires_iff (h e he)).mp ?_⟩
    by_contra hno
    simp [hno] at hfires
  · rintro ⟨w, hw, e, he, hwatches⟩
    refine ⟨e, he, ?_⟩
    rw [isSome_findSome?, any_eq_true]
    refine ⟨w, hw, ?_⟩
    simp [(Watchpoint.fires_iff (h e he)).mpr hwatches]

end Logs

end Fil.Sim
