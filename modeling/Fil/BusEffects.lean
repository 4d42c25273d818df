-- What a call can do to the bus, said once. Whatever its path, a call notes,
-- stores backed bytes of one region through the journal, or talks to devices; a law
-- of every call is a law of these effects.
import Fil.PlainAccesses
import Mathlib.Logic.Relation

open ByteLanes UndoRing
open BitVec (ofNat)

namespace Fil.Mem

namespace MemoryBus

variable {δ : Type}

/-- One thing that a call can do. -/
inductive Effect : MemoryBus δ → MemoryBus δ → Prop
  | note {b b' : MemoryBus δ} (h : Alike b' b) : Effect b b'
  | store (b : MemoryBus δ) {a : BitVec 32} (ha : b.map.Backed a) (v : BitVec 8)
      (external : Bool) : Effect b (b.storeByte a v external)
  | readMmio (b : MemoryBus δ) (region : Region) (a : BitVec 32) (size : AccessSize)
      (context : AccessContext) : Effect b (b.readMmio region a size context).2
  | writeMmio (b : MemoryBus δ) (region : Region) (a : BitVec 32) (size : AccessSize)
      (v : BitVec 64) (context : AccessContext) : Effect b (b.writeMmio region a size v context).2

/-- What a call does: some effects, one after the other. -/
def Does : MemoryBus δ → MemoryBus δ → Prop := Relation.ReflTransGen Effect

lemma Does.refl (b : MemoryBus δ) : Does b b := Relation.ReflTransGen.refl

variable {b : MemoryBus δ}

lemma Does.trans {a c : MemoryBus δ} (h1 : Does a b) (h2 : Does b c) : Does a c :=
  Relation.ReflTransGen.trans h1 h2

variable {b b' : MemoryBus δ} {a : BitVec 32} {context : AccessContext}

lemma Effect.does (h : Effect b b') : Does b b' :=
  Relation.ReflTransGen.single h

/-- What every effect keeps, every call keeps. -/
lemma Does.lift {R : MemoryBus δ → MemoryBus δ → Prop} (hrefl : ∀ b, R b b)
    (htrans : ∀ a b c, R a b → R b c → R a c) (heffect : ∀ b b', Effect b b' → R b b')
    (h : Does b b') : R b b' := by
  induction h with
  | refl => exact hrefl b
  | tail _ hlast ih => exact htrans _ _ _ ih (heffect _ _ hlast)

/-! ## The settings of the bus -/

/-- What an access to a device leaves: the bus as it was, or a new state of the
devices, a new log and one more access in the counts. -/
def Reached (b b' : MemoryBus δ) : Prop :=
  b' = b ∨ ∃ accessWatchLog deviceState, b' =
    { b with
      accessWatchLog, deviceState
      sideEffectGeneration := b.sideEffectGeneration + 1
      mmioGeneration := b.mmioGeneration + 1 }

lemma Reached.keeps {R : MemoryBus δ → MemoryBus δ → Prop} (h : Reached b b') (hself : R b b)
    (hcalled : ∀ accessWatchLog deviceState, R b
      { b with
        accessWatchLog, deviceState
        sideEffectGeneration := b.sideEffectGeneration + 1
        mmioGeneration := b.mmioGeneration + 1 }) : R b b' := by
  obtain rfl | ⟨log, state, rfl⟩ := h
  · exact hself
  · exact hcalled log state

section

variable (b : MemoryBus δ) (region : Region) (a : BitVec 32) (size : AccessSize)

lemma readMmio_reached (context : AccessContext) : Reached b (b.readMmio region a size context).2 := by
  unfold readMmio logAccess
  dsimp only
  split_ifs
  · exact .inl rfl
  · exact .inr ⟨_, _, rfl⟩
  · exact .inr ⟨_, _, rfl⟩

lemma writeMmio_reached (v : BitVec 64) (context : AccessContext) :
    Reached b (b.writeMmio region a size v context).2 := by
  unfold writeMmio logAccess
  dsimp only
  split_ifs
  · exact .inl rfl
  · exact .inr ⟨_, _, rfl⟩
  · exact .inr ⟨_, _, rfl⟩

end

lemma Effect.journaled (h : Effect b b') : Journaled b b' := by
  cases h with
  | note h =>
    exact Journaled.of_log_eq h.map (h.congr MemoryBus.writeJournalTracking fun _ => rfl)
      (h.congr MemoryBus.log fun _ => rfl)
  | store ha v external => exact storeByte_journaled ha v external
  | readMmio => exact (readMmio_reached ..).keeps (.refl b) fun _ _ => .of_log_eq rfl rfl rfl
  | writeMmio => exact (writeMmio_reached ..).keeps (.refl b) fun _ _ => .of_log_eq rfl rfl rfl

lemma Does.journaled (h : Does b b') : Journaled b b' :=
  h.lift Journaled.refl (fun _ _ _ => Journaled.trans) fun _ _ => Effect.journaled

structure KeptPart {α : Type} (f : δ → α) (devices : MmioDevices δ) : Prop where
  read : ∀ device offset size context d,
    f (devices.read device offset size context d).2 = f d
  write : ∀ device offset size value context d,
    f (devices.write device offset size value context d).2 = f d

lemma Does.kept {α : Type} {f : δ → α} (h : Does b b') (hdevices : KeptPart f b.devices) :
    b'.devices = b.devices ∧ f b'.deviceState = f b.deviceState := by
  refine Does.lift (R := fun b b' => KeptPart f b.devices →
    b'.devices = b.devices ∧ f b'.deviceState = f b.deviceState) (fun b _ => ⟨rfl, rfl⟩)
    (fun a b c h1 h2 hdevices => ?_) (fun b b' h hdevices => ?_) h hdevices
  · obtain ⟨hkept, hsame⟩ := h1 hdevices
    obtain ⟨hkept', hsame'⟩ := h2 (hkept ▸ hdevices)
    exact ⟨hkept'.trans hkept, hsame'.trans hsame⟩
  · cases h with
    | note h =>
      rw [h.deviceState]
      exact ⟨h.congr MemoryBus.devices fun _ => rfl, rfl⟩
    | store _ value external =>
      unfold storeByte
      split <;> exact ⟨rfl, rfl⟩
    | readMmio region a size context =>
      unfold readMmio
      dsimp only
      split
      · exact ⟨rfl, rfl⟩
      · split <;> exact ⟨rfl, hdevices.read _ _ _ _ _⟩
    | writeMmio region a size value context =>
      unfold writeMmio
      dsimp only
      split
      · exact ⟨rfl, rfl⟩
      · split <;> exact ⟨rfl, hdevices.write _ _ _ _ _ _⟩

lemma Does.map (h : Does b b') : b'.map = b.map := h.journaled.map

/-! ## Paths -/

/-- One thing that an access to backed memory does: a note, or the store of a byte of
its region, if it has one. -/
inductive StepIn : Option Region → MemoryBus δ → MemoryBus δ → Prop
  | note {r : Option Region} {b b' : MemoryBus δ} (h : Alike b' b)
      (generation : b'.executionGeneration = b.executionGeneration) : StepIn r b b'
  | store {r : Region} (b : MemoryBus δ) {a : BitVec 32} (ha : b.map.find a = some r)
      (v : BitVec 8) (external : Bool) : StepIn (some r) b (b.storeByte a v external)

/-- Some of them, one after the other. -/
abbrev StepsIn (r : Option Region) : MemoryBus δ → MemoryBus δ → Prop :=
  Relation.ReflTransGen (StepIn r)

inductive BackedPath : MemoryBus δ → MemoryBus δ → Prop
  | reads {b b' : MemoryBus δ} (h : StepsIn none b b') : BackedPath b b'
  | writes {r : Region} {b b' : MemoryBus δ} (hr : r.backed = true) (h : StepsIn (some r) b b') :
    BackedPath b (b'.noteExecutable r)

/-- What a call does. -/
inductive Path : MemoryBus δ → MemoryBus δ → Prop
  | backed {b b' : MemoryBus δ} (h : BackedPath b b') : Path b b'
  | readMmio (b : MemoryBus δ) (region : Region) (a : BitVec 32) (size : AccessSize)
      (context : AccessContext) : Path b (b.readMmio region a size context).2
  | writeMmio (b : MemoryBus δ) (region : Region) (a : BitVec 32) (size : AccessSize)
      (v : BitVec 64) (context : AccessContext) : Path b (b.writeMmio region a size v context).2

lemma BackedPath.refl (b : MemoryBus δ) : BackedPath b b := .reads .refl

variable {r : Region}

lemma StepsIn.does {r : Option Region} (hr : ∀ x ∈ r, x.backed = true) (h : StepsIn r b b') :
    Does b b' := by
  refine h.trans_induction_on Does.refl (fun hstep => ?_) fun _ _ => Does.trans
  cases hstep with
  | note h _ => exact (Effect.note h).does
  | @store _ _ _ ha v external => exact (Effect.store _ ⟨_, ha, hr _ rfl⟩ v external).does

lemma BackedPath.does (h : BackedPath b b') : Does b b' := by
  cases h with
  | reads h => exact StepsIn.does (by simp) h
  | writes hr h =>
    refine (StepsIn.does (fun x hx => ?_) h).trans (Effect.note (unwatched_noteExecutable ..)).does
    cases hx
    exact hr

lemma Path.does (h : Path b b') : Does b b' := by
  cases h with
  | backed h => exact h.does
  | readMmio => exact (Effect.readMmio ..).does
  | writeMmio => exact (Effect.writeMmio ..).does

lemma StepIn.map {r : Option Region} (h : StepIn r b b') : b'.map = b.map := by
  cases h with
  | note h _ => exact h.map
  | store ha v external =>
    unfold storeByte
    split <;> rfl

lemma StepsIn.map {r : Option Region} (h : StepsIn r b b') : b'.map = b.map := by
  induction h with
  | refl => rfl
  | tail _ hlast ih => exact hlast.map.trans ih

lemma foldl_stepsIn {α : Type} {r : Option Region} {f : MemoryBus δ → α → MemoryBus δ}
    {l : List α} {P : RegionMap → α → Prop} (hP : ∀ x ∈ l, P b.map x)
    (hf : ∀ c x, P c.map x → StepIn r c (f c x)) : StepsIn r b (l.foldl f b) := by
  induction l generalizing b with
  | nil => exact .refl
  | cons x xs ih =>
    have hx := hf b x (hP x (by simp))
    refine .head hx (ih fun y hy => ?_)
    rw [hx.map]
    exact hP y (by simp [hy])

lemma addAccessFootprint_step (r : Option Region) (b : MemoryBus δ) (a : BitVec 32)
    (width : Nat) : StepIn r b (b.addAccessFootprint a width) := by
  refine .note (unwatched_addAccessFootprint b a width) ?_
  unfold addAccessFootprint logAccess
  dsimp only
  split_ifs <;> rfl

lemma readNote_path (b : MemoryBus δ) (a : BitVec 32) (width : Nat) (data : Bool) :
    BackedPath b (if data then b.addAccessFootprint a width else b) := by
  split
  · exact .reads (.single (addAccessFootprint_step none b a width))
  · exact .refl b

lemma find_range {m : RegionMap} {width : Nat} (hfind : m.find a = some r)
    (hc : r.containsRange a width = true) :
    ∀ i, i < width → m.find (a + ofNat 32 i) = some r :=
  fun _ hi => RegionMap.find_offset (RegionMap.find_some hfind).1 hc hi

lemma storeBytes_stepsIn {n w : Nat}
    (ha : ∀ i, i < n → b.map.find (a + ofNat 32 i) = some r) (v : BitVec w)
    (external : Bool) : StepsIn (some r) b (b.storeBytes a n v external) :=
  foldl_stepsIn (P := fun m i => m.find (a + ofNat 32 i) = some r)
    (fun i hi => ha i (List.mem_range.mp hi)) fun c _ hc => .store c hc _ _

lemma storeBackedWord_stepsIn
    (ha : ∀ i, i < 4 → b.map.find (a + ofNat 32 i) = some r) (v : BitVec 32)
    (external : Bool) : StepsIn (some r) b (b.storeBackedWord a v external) := by
  rw [storeBackedWord_bytes]
  exact storeBytes_stepsIn ha v external

variable {size : AccessSize} {ram : Bool} {vs : List (BitVec 32)}

lemma storeWords_stepsIn (external : Bool)
    (ha : ∀ i, i < vs.length * 4 → b.map.find (a + ofNat 32 i) = some r) :
    StepsIn (some r) b (b.storeWords external a vs) := by
  induction vs generalizing a b with
  | nil => exact .refl
  | cons v vs ih =>
    rw [List.length_cons] at ha
    have hfirst := storeBackedWord_stepsIn (fun i hi => ha i (by omega)) v external
    refine hfirst.trans (ih fun i hi => ?_)
    have hnext := ha (4 + i) (by omega)
    rw [BitVec.ofNat_add, ← BitVec.add_assoc] at hnext
    rw [StepsIn.map hfirst]
    exact hnext

lemma noted_path {f : MemoryBus δ → MemoryBus δ} (hr : r.backed = true) (a : BitVec 32)
    (width : Nat) (context : AccessContext)
    (h : ∀ c : MemoryBus δ, c.map = b.map → StepsIn (some r) c (f c)) :
    BackedPath b ((f (b.addStoreFootprint a width context)).noteExecutable r) := by
  have hnote : StepIn (some r) b (b.addStoreFootprint a width context) := by
    refine .note (unwatched_addStoreFootprint ..) ?_
    unfold addStoreFootprint logAccess
    dsimp only
    split_ifs <;> rfl
  exact .writes hr (.head hnote (h _ hnote.map))

lemma writeBacked_path (hfind : b.map.find a = some r) (hr : r.backed = true)
    (hc : r.containsRange a (byteCount size) = true) (v : BitVec 64) (context : AccessContext) :
    BackedPath b (b.writeBacked r a size v context).2 :=
  noted_path (f := fun c => c.storeBytes a (byteCount size) v (context.pc = 0)) hr a _ context
    fun _ hm => storeBytes_stepsIn (hm ▸ find_range hfind hc) v _

/-! ## Each call -/

section

variable (b : MemoryBus δ) (a : BitVec 32) (size : AccessSize)

lemma read_path (context : AccessContext) :
    Path b (b.read a size context).2 := by
  unfold read
  rcases readFrom_cases maximumAliasDepth b a size context
    with ⟨f, h⟩ | ⟨a', r, -, h⟩ | ⟨a', r, -, h⟩
  · rw [h]
    exact .backed (.refl b)
  · rw [h]
    exact .readMmio b r a' size context
  · rw [h]
    exact .backed (readNote_path b a' _ _)

lemma write_path (v : BitVec 64)
    (context : AccessContext) : Path b (b.write a size v context).2 := by
  unfold write
  rcases writeFrom_cases maximumAliasDepth b a size v context
    with ⟨f, h⟩ | ⟨a', r, -, h⟩ | ⟨a', r, hr, h⟩
  · rw [h]
    exact .backed (.refl b)
  · rw [h]
    exact .writeMmio b r a' size v context
  · rw [h]
    obtain ⟨hfind, hb, hc⟩ := writeRoute_backed hr
    exact .backed (writeBacked_path hfind hb hc v context)

end

lemma tryFastRead_path {v : BitVec 64} (h : b.tryFastRead a size context = some (v, b')) :
    BackedPath b b' := by
  unfold tryFastRead at h
  dsimp only at h
  split_ifs at h <;> (split at h <;> cases h)
  · exact readNote_path b a _ true
  · exact .refl b

lemma tryFastRead32_path {v : BitVec 32} (h : b.tryFastRead32 a context = some (v, b')) :
    BackedPath b b' := by
  unfold tryFastRead32 at h
  split at h <;> cases h
  exact readNote_path b a 4 _

lemma tryFastReadWords_path {count : Nat} (h : b.tryFastReadWords a count context = some (vs, b')) :
    BackedPath b b' := by
  unfold tryFastReadWords at h
  split_ifs at h
  split at h <;> cases h
  split
  · exact .reads (foldl_stepsIn (P := fun _ _ => True) (fun _ _ => trivial)
      fun c _ _ => addAccessFootprint_step none c _ 4)
  · exact .refl b

lemma tryFastWrite_path {v : BitVec 64} (h : b.tryFastWrite a size v context ram = some b') :
    BackedPath b b' := by
  unfold tryFastWrite at h
  dsimp only at h
  split_ifs at h with h1 h4 <;> split at h <;> cases h
  · rename_i r hr
    obtain ⟨hfind, hb, -, hc⟩ := fastWriteRegion_some hr
    rw [h4] at hc
    exact noted_path (f := fun c => c.storeBackedWord a (v.setWidth 32) (context.pc = 0)) hb a _
      context fun _ hm => storeBackedWord_stepsIn (hm ▸ find_range hfind hc) _ _
  · rename_i r hr
    obtain ⟨hfind, hb, -, hc⟩ := fastWriteRegion_some hr
    exact writeBacked_path hfind hb hc v context

lemma tryFastWrite32_path {v : BitVec 32} (h : b.tryFastWrite32 a v context ram = some b') :
    BackedPath b b' := by
  unfold tryFastWrite32 at h
  split at h <;> cases h
  rename_i r hr
  obtain ⟨hfind, hb, -, hc⟩ := fastWriteRegion_some hr
  exact noted_path (f := fun c => c.storeBackedWord a v (context.pc = 0)) hb a _ context
    fun _ hm => storeBackedWord_stepsIn (hm ▸ find_range hfind hc) _ _

lemma tryFastWriteWords_path (h : b.tryFastWriteWords a vs context ram = some b') :
    BackedPath b b' := by
  rw [tryFastWriteWords_eq] at h
  split_ifs at h
  obtain ⟨r, hr, rfl⟩ := Option.map_eq_some_iff.mp h
  obtain ⟨hfind, hb, -, hc⟩ := fastWriteRegion_some hr
  exact noted_path (f := fun c => c.storeWords (context.pc = 0) a vs) hb a _ context
    fun _ hm => storeWords_stepsIn _ (hm ▸ find_range hfind hc)

lemma loadBytes_path (b : MemoryBus δ) (a : BitVec 32) (bs : List (BitVec 8)) :
    BackedPath b (b.loadBytes a bs).2 := by
  unfold loadBytes
  split_ifs
  · exact .refl b
  · exact .refl b
  split
  · exact .refl b
  rename_i r hr
  split_ifs with hc hb
  · exact .refl b
  · exact .refl b
  refine .writes (by simpa using hb) (foldl_stepsIn
    (P := fun (m : RegionMap) (x : BitVec 8 × Nat) =>
      m.find (a + ofNat 32 x.2) = some r)
    (fun x hx => ?_) fun c x hx => .store c hx _ _)
  exact find_range hr (by simpa using hc) _ (List.mem_zipIdx' hx).1

end MemoryBus

end Fil.Mem
