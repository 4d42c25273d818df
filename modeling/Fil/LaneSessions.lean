-- Sessions of lane domains. The stores of a session share no ids and no sequence
-- numbers, and the merge at the end makes one good store of them again.
import Fil.LaneDomains

open List Function

namespace Fil.Sim

variable {σ κ : Type} (behave : κ → σ → Program σ κ)

namespace Session

variable {n : Nat}

/-! ## The books of a session -/

/-- The ids that some store of the session, or a lane that is not part of it, can
still give. -/
def Future (S : Session κ n) (id : Nat) : Prop :=
  (∃ d, (S.domain d).Future id) ∨
    ∃ k, n ≤ k ∧ Impl.LaneFuture k ((S.domain none).nextLaneIds k) id

/-- The events of all stores. -/
def office (S : Session κ n) : Tickets.Office Nat (Slot κ) :=
  ⟨{a | ∃ d, a ∈ (S.domain d).pending}, {id | ¬ S.Future id}⟩

/-- The stores of a session have their books in order and share no events. -/
structure Good (S : Session κ n) : Prop where
  good : ∀ d, (S.domain d).Good
  root : (S.domain none).laneDomain = false
  lane : ∀ k : Fin n, (S.domain (some k)).laneDomain = true ∧
    (S.domain (some k)).laneOwner = k ∧ (S.domain (some k)).laneNextId ≤ laneIdCounterMask + 1
  absent : ∀ k, n ≤ k → (S.domain none).nextLaneIds k ≤ laneIdCounterMask + 1
  given : ∀ d, ∀ a ∈ (S.domain d).pending, ¬ S.Future a.id
  apart : ∀ d e, ∀ a ∈ (S.domain d).pending, ∀ b ∈ (S.domain e).pending, a.id = b.id → d = e

variable {S : Session κ n} {s : Impl κ} {d : Option (Fin n)} {hs : List (Happening κ)}

lemma Good.sound (h : Good S) : Tickets.Sound Slot.id S.office := by
  refine ⟨?_, ?_⟩
  · rintro a ⟨d, ha⟩
    exact h.given d a ha
  · rintro a ⟨d, ha⟩ b ⟨e, hb⟩ he
    obtain rfl := h.apart d e a ha b hb he
    exact (h.good d).sound.one a ha b hb he

lemma laneFuture_disjoint {i j a b id : Nat} (h : i ≠ j) (hi : Impl.LaneFuture i a id) :
    ¬ Impl.LaneFuture j b id := by
  rintro ⟨c, -, hc, rfl⟩
  obtain ⟨c', -, hc', he⟩ := hi
  unfold laneIdCounterMask at hc hc'
  omega

lemma laneFuture_not_root {i a id : Nat} (hroot : s.laneDomain = false)
    (hi : Impl.LaneFuture i a id) : ¬ s.Future id := by
  unfold Impl.Future
  rw [if_neg (by simp [hroot])]
  obtain ⟨c, -, -, rfl⟩ := hi
  omega

lemma Good.future_lane (h : Good S) (k : Fin n) (id : Nat) :
    (S.domain (some k)).Future id ↔ Impl.LaneFuture k (S.domain (some k)).laneNextId id := by
  unfold Impl.Future
  rw [if_pos (h.lane k).1, (h.lane k).2.1]

lemma Good.future_apart (h : Good S) {d e : Option (Fin n)} (hne : d ≠ e)
    {id : Nat} (hd : (S.domain d).Future id) : ¬ (S.domain e).Future id := by
  cases d with
  | none =>
    cases e with
    | none => exact absurd rfl hne
    | some k =>
      intro hk
      exact laneFuture_not_root h.root ((h.future_lane k id).mp hk) hd
  | some j =>
    have hj := (h.future_lane j id).mp hd
    cases e with
    | none => exact laneFuture_not_root h.root hj
    | some k =>
      rw [h.future_lane]
      refine laneFuture_disjoint ?_ hj
      intro he
      exact hne (congrArg some (Fin.ext he))

lemma Good.future_absent (h : Good S) {id k next : Nat}
    (hd : (S.domain d).Future id) (hk : n ≤ k) : ¬ Impl.LaneFuture k next id := by
  cases d with
  | none => exact fun hl => laneFuture_not_root h.root hl hd
  | some j =>
    refine laneFuture_disjoint ?_ ((h.future_lane j id).mp hd)
    omega

section

variable (S : Session κ n)

lemma put_domain_self (d : Option (Fin n)) (s : Impl κ) :
    (S.put d s).domain d = s :=
  update_self ..

lemma put_domain_ne {d e : Option (Fin n)} (h : e ≠ d) (s : Impl κ) :
    (S.put d s).domain e = S.domain e :=
  update_of_ne h ..

lemma put_nextLaneIds (hk : Impl.Grows (S.domain d) hs s) :
    ((S.put d s).domain none).nextLaneIds = (S.domain none).nextLaneIds := by
  by_cases hd : none = d
  · subst hd
    rw [put_domain_self, hk.lanes]
  · rw [put_domain_ne S hd]

end

/-- The events of the other stores. -/
def others (S : Session κ n) (d : Option (Fin n)) : Set (Slot κ) :=
  {a | ∃ e, e ≠ d ∧ a ∈ (S.domain e).pending}

/-- The ids that only this store can still give, or that are given away. -/
def elsewhere (S : Session κ n) (d : Option (Fin n)) : Set Nat :=
  {id | (∀ e, e ≠ d → ¬ (S.domain e).Future id) ∧
    ∀ k, n ≤ k → ¬ Impl.LaneFuture k ((S.domain none).nextLaneIds k) id}

section

variable (S : Session κ n) (d : Option (Fin n))

lemma office_split :
    S.office =
      ⟨(S.domain d).office.out ∪ S.others d, (S.domain d).office.given ∩ S.elsewhere d⟩ := by
  have hout : {a | ∃ e, a ∈ (S.domain e).pending} = (S.domain d).pending ∪ S.others d := by
    ext a
    constructor
    · rintro ⟨e, ha⟩
      by_cases he : e = d
      · exact .inl (he ▸ ha)
      · exact .inr ⟨e, he, ha⟩
    · rintro (ha | ⟨e, -, ha⟩)
      · exact ⟨d, ha⟩
      · exact ⟨e, ha⟩
  have hgiven : {id | ¬ S.Future id} = {id | ¬ (S.domain d).Future id} ∩ S.elsewhere d := by
    ext id
    constructor
    · intro hnot
      exact ⟨fun hf => hnot (.inl ⟨d, hf⟩), fun e _ hf => hnot (.inl ⟨e, hf⟩),
        fun k hk hf => hnot (.inr ⟨k, hk, hf⟩)⟩
    · rintro ⟨hd, hothers, habsent⟩ (⟨e, hf⟩ | ⟨k, hk, hf⟩)
      · by_cases he : e = d
        · exact hd (he ▸ hf)
        · exact hothers e he hf
      · exact habsent k hk hf
  exact congrArg₂ Tickets.Office.mk hout hgiven

lemma others_put (s : Impl κ) :
    (S.put d s).others d = S.others d := by
  ext a
  constructor
  · rintro ⟨e, he, ha⟩
    rw [put_domain_ne S he] at ha
    exact ⟨e, he, ha⟩
  · rintro ⟨e, he, ha⟩
    refine ⟨e, he, ?_⟩
    rw [put_domain_ne S he]
    exact ha

end

lemma elsewhere_put (S : Session κ n) (hk : Impl.Grows (S.domain d) hs s) :
    (S.put d s).elsewhere d = S.elsewhere d := by
  unfold elsewhere
  rw [put_nextLaneIds S hk]
  have hsame : ∀ id, (∀ e, e ≠ d → ¬ ((S.put d s).domain e).Future id) ↔
      ∀ e, e ≠ d → ¬ (S.domain e).Future id := by
    intro id
    constructor <;> intro h e he <;> have := h e he <;> rw [put_domain_ne S he] at * <;> exact this
  simp only [hsame]

/-- What happens in one store happens in the session, and nothing else does. -/
lemma Good.put (h : Good S) (hk : Impl.Kept (S.domain d) hs s) :
    Good (S.put d s) ∧ Tickets.Run Slot.id S.office hs (S.put d s).office := by
  have hgiven : ∀ b ∈ S.others d, b.id ∈ (S.domain d).office.given := by
    rintro b ⟨e, -, hb⟩ hf
    exact h.given e b hb (.inl ⟨d, hf⟩)
  have happart : ∀ a ∈ (S.domain d).office.out, ∀ b ∈ S.others d, a.id ≠ b.id := by
    rintro a ha b ⟨e, hne, hb⟩ he
    exact hne (h.apart d e a ha b hb he).symm
  have hfree : ∀ k ∉ (S.domain d).office.given, k ∈ S.elsewhere d := by
    intro k hf
    rw [show k ∉ (S.domain d).office.given ↔ (S.domain d).Future k from not_not] at hf
    exact ⟨fun e he => h.future_apart (Ne.symm he) hf, fun i hi => h.future_absent hf hi⟩
  obtain ⟨hrun, hend⟩ := hk.run.frame hgiven happart hfree
  rw [← office_split] at hrun
  have hafter := office_split (S.put d s) d
  rw [put_domain_self, others_put, elsewhere_put S hk.grows] at hafter
  rw [← hafter] at hrun
  refine ⟨?_, hrun⟩
  have hsound := hrun.sound h.sound
  have hlanes := put_nextLaneIds S hk.grows
  exact
    { good := by
        intro e
        by_cases he : e = d
        · subst he
          rw [put_domain_self]
          exact hk.good
        · rw [put_domain_ne S he]
          exact h.good e
      root := by
        by_cases hd : none = d
        · subst hd
          rw [put_domain_self, hk.grows.domain]
          exact h.root
        · rw [put_domain_ne S hd]
          exact h.root
      lane := by
        intro k
        by_cases hd : some k = d
        · subst hd
          rw [put_domain_self, hk.grows.domain, hk.grows.owner]
          obtain ⟨hl, ho, hroom⟩ := h.lane k
          exact ⟨hl, ho, (hk.grows.laneIds hl).2 hroom⟩
        · rw [put_domain_ne S hd]
          exact h.lane k
      absent := by
        rw [hlanes]
        exact h.absent
      given := fun e a ha => hsound.given a ⟨e, ha⟩
      apart := by
        intro e f a ha b hb he
        by_cases hed : e = d <;> by_cases hfd : f = d
        · rw [hed, hfd]
        · subst hed
          rw [put_domain_self] at ha
          rw [put_domain_ne S hfd] at hb
          exact absurd he (hend a ha b ⟨f, hfd, hb⟩)
        · subst hfd
          rw [put_domain_self] at hb
          rw [put_domain_ne S hed] at ha
          exact absurd he.symm (hend b hb a ⟨e, hed, ha⟩)
        · rw [put_domain_ne S hed] at ha
          rw [put_domain_ne S hfd] at hb
          exact h.apart e f a ha b hb he }

/-! ## Operations keep the books -/

def partOf (d : Option (Fin n)) (log : Log κ n) : List (Happening κ) :=
  (log.filter fun e => e.1 = d).map Prod.snd

lemma partOf_self (d : Option (Fin n)) (hs : List (Happening κ)) :
    partOf d (hs.map fun h => (d, h)) = hs := by
  simp [partOf, filter_map, comp_def]

lemma partOf_ne {d e : Option (Fin n)} (h : e ≠ d) (hs : List (Happening κ)) :
    partOf e (hs.map fun h => (d, h)) = [] := by
  simp [partOf, filter_map, comp_def, Ne.symm h]

/-- What a stretch of a session does: the books stay in order, and the log tells
what happened to the events of the session and of each store. -/
structure Kept (S : Session κ n) (log : Log κ n) (S' : Session κ n) : Prop where
  good : Good S'
  run : Tickets.Run Slot.id S.office (log.map Prod.snd) S'.office
  part : ∀ d, Impl.Kept (S.domain d) (partOf d log) (S'.domain d)

lemma Kept.refl (h : Good S) : Kept S [] S :=
  ⟨h, .nil, fun d => .refl (h.good d)⟩

lemma Kept.put (h : Good S) (hk : Impl.Kept (S.domain d) hs s) :
    Kept S (hs.map fun h => (d, h)) (S.put d s) := by
  obtain ⟨hgood, hrun⟩ := h.put hk
  refine ⟨hgood, ?_, ?_⟩
  · rw [map_map]
    simpa [comp_def] using hrun
  · intro e
    by_cases he : e = d
    · subst he
      rw [partOf_self, put_domain_self]
      exact hk
    · rw [partOf_ne he, put_domain_ne S he]
      exact .refl (h.good e)

lemma synced_kept (h : Good S) (d : Option (Fin n)) : Impl.Kept (S.domain d) [] (S.synced d) := by
  cases d with
  | none => exact .refl (h.good none)
  | some k =>
    exact ⟨(h.good (some k)).clocks _ _ _ _, .nil, rfl, rfl, fun _ => ⟨rfl, id⟩, rfl, rfl, rfl, rfl⟩

/-- Clocks are not in the books of a session. -/
lemma Kept.clocks {S S' : Session κ n} (h : Good S)
    (hk : ∀ d, Impl.Kept (S.domain d) [] (S'.domain d)) : Kept S [] S' := by
  have hpending : ∀ d, (S'.domain d).pending = (S.domain d).pending := fun d =>
    congrArg Tickets.Office.out (hk d).run.eq_of_nil
  have hfuture : ∀ id, S'.Future id ↔ S.Future id := by
    intro id
    have hdomain : ∀ d, (S'.domain d).Future id ↔ (S.domain d).Future id := by
      intro d
      have := congrArg Tickets.Office.given (hk d).run.eq_of_nil
      exact not_iff_not.mp (Set.ext_iff.mp this id)
    unfold Future
    rw [(hk none).grows.lanes]
    simp only [hdomain]
  have hoffice : S'.office = S.office := by
    unfold office
    simp only [hpending, hfuture]
  refine ⟨?_, hoffice ▸ .nil, hk⟩
  exact
    { good := fun d => (hk d).good
      root := (hk none).grows.domain.trans h.root
      lane := by
        intro k
        have hg := (hk (some k)).grows
        obtain ⟨hl, ho, hroom⟩ := h.lane k
        exact ⟨hg.domain.trans hl, hg.owner.trans ho, (hg.laneIds hl).2 hroom⟩
      absent := by
        rw [(hk none).grows.lanes]
        exact h.absent
      given := by
        intro d a ha
        rw [hpending] at ha
        rw [hfuture]
        exact h.given d a ha
      apart := by
        intro d e a ha b hb
        rw [hpending] at ha hb
        exact h.apart d e a ha b hb }

lemma setTime_kept (h : s.Good) (owner time : Nat) : Impl.Kept s [] (s.setTime owner time) := by
  obtain ⟨sharedNow, ownerNow, heq⟩ := Impl.setTime_eq s owner time
  rw [heq]
  exact ⟨h.clocks _ _ _ _, .nil, rfl, rfl, fun _ => ⟨rfl, id⟩, rfl, rfl, rfl, rfl⟩

lemma settleClock_kept (h : Good S) (owner time : Nat) :
    Kept S [] (S.settleClock owner time) := by
  unfold settleClock
  have hroot := setTime_kept (h.good none) owner time
  by_cases ho : owner = sharedEventOwner
  · simp only [ho, if_true] at hroot ⊢
    refine .clocks h ?_
    intro d
    cases d with
    | none => exact hroot
    | some k =>
      exact ⟨(h.good (some k)).clocks _ _ _ _, .nil, rfl, rfl, fun _ => ⟨rfl, id⟩, rfl, rfl, rfl,
        rfl⟩
  · simp only [ho, if_false]
    exact .put h hroot

lemma put_domain (d : Option (Fin n)) : S.put d (S.domain d) = S := by
  unfold Session.put
  rw [update_eq_self]

lemma cancelIn_kept (h : Good S) (id : Nat) (ds : List (Option (Fin n))) :
    Kept S (S.cancelIn id ds).2 (S.cancelIn id ds).1 := by
  induction ds with
  | nil => exact .refl h
  | cons d ds ih =>
    rw [cancelIn]
    rcases Impl.cancelAs_spec (h.good d) id with ⟨slot, -, -, hfound, -⟩ | ⟨-, heq⟩
    · simp only [hfound, if_true]
      exact .put h (Impl.cancelAs_effect (h.good d) id).kept
    · simp [heq, put_domain]
      exact ih

/-! ## Opening a session -/

/-- A store outside of a session, as a session without lanes. -/
def alone (s : Impl κ) : Session κ 0 := ⟨0, fun _ => s⟩

end Session

/-- A root store outside of a session: its books are in order, and no lane can give
the id of a waiting event again. -/
def Impl.Rested (s : Impl κ) : Prop := Session.Good (Session.alone s)

lemma Impl.rested_empty (limit : Nat) :
    Impl.Rested ({ maximumSameTimeEvents := limit } : Impl κ) := by
  have hnone : ∀ a, a ∉ ({ maximumSameTimeEvents := limit } : Impl κ).pending := by
    simp [pending_empty]
  exact
    { good := fun _ => good_empty limit
      root := rfl
      lane := fun k => k.elim0
      absent := fun k _ => show 1 ≤ laneIdCounterMask + 1 by omega
      given := fun _ a ha => absurd ha (hnone a)
      apart := fun _ _ a ha => absurd ha (hnone a) }

namespace Session

variable {n : Nat} {S : Session κ n}

lemma beginLaneDomains_some {s : Impl κ} (hb : s.beginLaneDomains n = some S) :
    s.laneDomain = false ∧ 0 < n ∧ n ≤ 64 ∧ s.nextSequence < sequencePartition ∧
      S.domain none = s.fill (s.liveSlots.filter fun a => n ≤ a.owner) ∧
      ∀ k, S.domain (some k) = s.laneOf k := by
  unfold Impl.beginLaneDomains at hb
  split_ifs at hb with h1 h2 h3
  simp at hb
  subst hb
  simp at h2 h3
  exact ⟨by simpa using h1, by omega, h2.2, h3.2, rfl, fun _ => rfl⟩

section

variable {s : Impl κ} (h : s.Rested)
include h

lemma fits_root (n : Nat) :
    s.Fits (s.liveSlots.filter fun a => n ≤ a.owner) :=
  .filter (h.good none) _ le_rfl fun _ ⟨_, hw⟩ => (h.good none).given hw

lemma fits_lane {lane : Impl κ} {owner : Nat}
    (hlane : lane.laneDomain = true) (howner : lane.laneOwner = owner)
    (hnext : lane.laneNextId = s.nextLaneIds owner) (hseq : s.nextSequence ≤ lane.nextSequence) :
    lane.Fits (s.liveSlots.filter fun a => a.owner = owner) := by
  refine .filter (h.good none) _ hseq ?_
  intro a ha hf
  unfold Impl.Future at hf
  rw [if_pos hlane, howner, hnext] at hf
  exact h.given none a ha (.inr ⟨owner, Nat.zero_le _, hf⟩)

lemma begin_pending (hb : s.beginLaneDomains n = some S) {d : Option (Fin n)} {a : Slot κ} :
    a ∈ (S.domain d).pending ↔ a ∈ s.pending ∧ home n a.owner = d := by
  obtain ⟨-, -, -, -, hroot, hlane⟩ := beginLaneDomains_some hb
  have hlive : a ∈ s.liveSlots ↔ a ∈ s.pending := Impl.mem_liveSlots (h.good none)
  unfold home
  cases d with
  | none =>
    rw [hroot, Impl.pending_fill (fits_root h n)]
    show a ∈ s.liveSlots.filter _ ↔ _
    rw [mem_filter, hlive]
    split_ifs with ho <;> simp <;> omega
  | some k =>
    rw [hlane, Impl.laneOf, Impl.pending_fill (fits_lane h rfl rfl rfl (Nat.le_add_right _ _))]
    show a ∈ s.liveSlots.filter _ ↔ _
    rw [mem_filter, hlive]
    split_ifs with ho
    · simp [Fin.ext_iff]
    · simp
      omega

lemma begin_good (hb : s.beginLaneDomains n = some S) : Good S := by
  obtain ⟨hroot, -, -, -, hdom, hlane⟩ := beginLaneDomains_some hb
  have hfuture : ∀ id, S.Future id → (alone s).Future id := by
    rintro id (⟨d, hf⟩ | ⟨k, -, hf⟩)
    · cases d with
      | none =>
        rw [hdom] at hf
        exact .inl ⟨none, hf⟩
      | some k =>
        rw [hlane] at hf
        exact .inr ⟨k, Nat.zero_le _, hf⟩
    · rw [hdom] at hf
      exact .inr ⟨k, Nat.zero_le _, hf⟩
  exact
    { good := by
        intro d
        cases d with
        | none =>
          rw [hdom]
          exact Impl.fill_good (fits_root h n)
        | some k =>
          rw [hlane]
          exact Impl.fill_good (fits_lane h rfl rfl rfl (Nat.le_add_right _ _))
      root := by
        rw [hdom]
        exact hroot
      lane := by
        intro k
        rw [hlane]
        exact ⟨rfl, rfl, h.absent k (Nat.zero_le _)⟩
      absent := by
        intro k _
        rw [hdom]
        exact h.absent k (Nat.zero_le _)
      given := by
        intro d a ha hf
        exact h.given none a ((begin_pending h hb).mp ha).1 (hfuture _ hf)
      apart := by
        intro d e a ha b hb' he
        obtain ⟨has, rfl⟩ := (begin_pending h hb).mp ha
        obtain ⟨hbs, rfl⟩ := (begin_pending h hb).mp hb'
        rw [(h.good none).sound.one a has b hbs he] }

end

/-! ## Closing a session -/

lemma liveSlots_eq (S : Session κ n) :
    S.liveSlots = (none :: (finRange n).map some).flatMap fun d => (S.domain d).liveSlots := by
  simp [Session.liveSlots, flatMap_map]

lemma mem_liveSlots (h : Good S) {a : Slot κ} :
    a ∈ S.liveSlots ↔ ∃ d, a ∈ (S.domain d).pending := by
  rw [liveSlots_eq, mem_flatMap]
  constructor
  · rintro ⟨d, -, ha⟩
    exact ⟨d, (Impl.mem_liveSlots (h.good d)).mp ha⟩
  · rintro ⟨d, ha⟩
    refine ⟨d, ?_, (Impl.mem_liveSlots (h.good d)).mpr ha⟩
    cases d <;> simp

lemma liveSlots_ids (h : Good S) : (S.liveSlots.map Slot.id).Nodup := by
  rw [liveSlots_eq, map_flatMap, nodup_flatMap]
  refine ⟨fun d _ => Impl.liveSlots_ids (h.good d), ?_⟩
  have hdomains : (none :: (finRange n).map some).Nodup := by
    simpa using (nodup_finRange n).map (Option.some_injective _)
  refine hdomains.imp ?_
  intro d e hne id hd he
  obtain ⟨a, ha, rfl⟩ := mem_map.mp hd
  obtain ⟨b, hb, heq⟩ := mem_map.mp he
  exact hne (h.apart d e a ((Impl.mem_liveSlots (h.good d)).mp ha) b
    ((Impl.mem_liveSlots (h.good e)).mp hb) heq.symm)

lemma fits_merged (h : Good S) (root : Impl κ)
    (hroot : ∀ id, root.Future id → (S.domain none).Future id)
    (hnext : root.nextSequence = S.liveSlots.length) : root.Fits (renumber S.liveSlots) := by
  have hfrom : ∀ b ∈ renumber S.liveSlots, ∃ d, ∃ a ∈ (S.domain d).pending,
      ∃ i, i < S.liveSlots.length ∧ b = a.numbered (Ranking.rank Slot.sequence S.liveSlots i) := by
    intro b hb
    obtain ⟨i, a, ha, rfl⟩ := mem_renumber hb
    obtain ⟨d, hd⟩ := (mem_liveSlots h).mp (mem_of_getElem? ha)
    exact ⟨d, a, hd, i, (List.getElem?_eq_some_iff.mp ha).1, rfl⟩
  refine ⟨?_, ?_, ?_, renumber_sequences _, ?_, ?_⟩
  · intro b hb
    obtain ⟨d, a, ⟨j, hw⟩, -, -, rfl⟩ := hfrom b hb
    exact hw.2
  · intro b hb
    obtain ⟨d, a, ⟨j, hw⟩, -, -, rfl⟩ := hfrom b hb
    exact (h.good d).named j a hw
  · rw [renumber_ids]
    exact liveSlots_ids h
  · intro b hb
    obtain ⟨-, -, -, i, hi, rfl⟩ := hfrom b hb
    rw [hnext]
    exact Ranking.rank_lt hi
  · intro b hb hf
    obtain ⟨d, a, ha, i, -, rfl⟩ := hfrom b hb
    exact h.given d a ha (.inl ⟨none, hroot _ hf⟩)

lemma liveSlots_finish (h : Good S) : S.finishLaneDomains.liveSlots = renumber S.liveSlots :=
  Impl.liveSlots_fill (fits_merged h { S.domain none with
    nextSequence := S.liveSlots.length } (fun _ hf => hf) rfl).queued

lemma finish_rested (h : Good S) : S.finishLaneDomains.Rested := by
  have hgood : S.finishLaneDomains.Good :=
    Impl.fill_good (fits_merged h _ (fun _ hf => hf) rfl)
  have hlanes : ∀ k, S.finishLaneDomains.nextLaneIds k =
      S.ownersView Impl.laneNextId (S.domain none).nextLaneIds k := fun _ => rfl
  exact
    { good := fun _ => hgood
      root := h.root
      lane := fun k => k.elim0
      absent := by
        intro k _
        show S.finishLaneDomains.nextLaneIds k ≤ _
        rw [hlanes]
        unfold ownersView
        split_ifs with hk
        · exact (h.lane ⟨k, hk⟩).2.2
        · exact h.absent k (Nat.not_lt.mp hk)
      given := by
        intro _ b hb
        have hb' : b ∈ renumber S.liveSlots := by
          rw [← liveSlots_finish h]
          exact (Impl.mem_liveSlots hgood).mpr hb
        obtain ⟨i, a, ha, rfl⟩ := mem_renumber hb'
        obtain ⟨d, hd⟩ := (mem_liveSlots h).mp (mem_of_getElem? ha)
        have hnot := h.given d a hd
        rintro (⟨_, hf⟩ | ⟨k, -, hf⟩)
        · exact hnot (.inl ⟨none, hf⟩)
        · change Impl.LaneFuture k (S.finishLaneDomains.nextLaneIds k) a.id at hf
          rw [hlanes] at hf
          unfold ownersView at hf
          split_ifs at hf with hk
          · exact hnot (.inl ⟨some ⟨k, hk⟩, (h.future_lane ⟨k, hk⟩ _).mpr hf⟩)
          · exact hnot (.inr ⟨k, Nat.not_lt.mp hk, hf⟩)
      apart := by
        intro d e
        cases d with
        | none =>
          cases e with
          | none => exact fun _ _ _ _ _ => rfl
          | some k => exact k.elim0
        | some k => exact k.elim0 }

end Session

end Fil.Sim
