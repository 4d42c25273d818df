-- The order in which a windowed run replays bus commands. Every command that a
-- board staged comes up once, by time, board and the order of issue, and finds
-- no shared event before its time still waiting. This holds in runs in which no
-- window stages a command that ties with one of an earlier window the wrong way.
import Fil.WindowReplay

open List

namespace Fil.Sim

variable {σ κ α : Type}

/-! ## Shared events -/

namespace Impl

variable {log : List (Happening κ)} {behave : κ → σ → Program σ κ} {state' : σ}
  {result : EventRunResult}

lemma runOwnedEvents_finished {s s' : Impl κ} (h : Good s)
    {owner deadline : Nat} {state : σ}
    (hrun : s.runOwnedEvents behave owner deadline state = some (result, state', s', log)) :
    Finished (.owner owner) deadline s log result s' := by
  by_cases hlane : s.laneDomain && owner ≠ s.laneOwner
  · rw [runOwnedEvents, if_pos hlane] at hrun
    cases hrun
  by_cases hlate : deadline < s.timeFor owner
  · rw [runOwnedEvents, if_neg hlane, if_pos hlate] at hrun
    cases hrun
  obtain ⟨result₁, state₁, s₁, log₁, heq, hfinished, -⟩ :=
    runOwnedEvents_spec behave h (by simpa using hlane) (Nat.not_lt.mp hlate) state
  rw [hrun] at heq
  cases heq
  exact hfinished

lemma runLoop_clock (behave : κ → σ → Program σ κ) (fuel : Nat) (a : Activation)
    (result : EventRunResult) (state : σ) (s : Impl κ) (done : List (Happening κ))
    {result' : EventRunResult} {s' : Impl κ}
    (hrun : runLoop behave a.scope a.deadline fuel a.countedTime a.eventsAtTime result state s
      done = some (result', state', s', log))
    (hlimit : result'.sameTimeLimitHit = false) :
    ∃ s₀ : Impl κ, s' = s₀.setClock a.scope a.deadline := by
  induction fuel generalizing a result state s done with
  | zero => cases hrun
  | succ fuel ih =>
    rw [runLoop_succ] at hrun
    dsimp only at hrun
    split at hrun
    · cases hrun
      exact ⟨_, rfl⟩
    rename_i entry rest _
    split_ifs at hrun
    · cases hrun
      exact ⟨_, rfl⟩
    · cases hrun
      cases hlimit
    · exact ih { a with countedTime := entry.due, eventsAtTime := countAt a entry.due + 1 }
        _ _ _ _ hrun

/-- A store at a time: no shared event waits before it. -/
structure At (time : Nat) (s : Impl κ) : Prop where
  good : Good s
  clock : s.sharedNow = time
  ahead : SharedAhead s

lemma runSharedEvents_at {s s' : Impl κ} (h : Good s) {time : Nat}
    {state : σ}
    (hrun : s.runSharedEvents behave time state = some (result, state', s', log))
    (hlimit : result.sameTimeLimitHit = false) : At time s' := by
  have hfinished := runOwnedEvents_finished h hrun
  have hclock : s'.sharedNow = time := by
    unfold runSharedEvents runOwnedEvents at hrun
    split_ifs at hrun
    obtain ⟨s₀, rfl⟩ := runLoop_clock behave _ { scope := .owner sharedEventOwner, deadline := time }
      _ _ _ _ hrun hlimit
    have hmoves : Scope.MovesShared (.owner sharedEventOwner) := .inr rfl
    rw [sharedNow_setClock, if_pos hmoves]
  refine ⟨hfinished.progress.good, hclock, ?_⟩
  intro b hb howner
  rw [hclock]
  exact (hfinished.settled hlimit b hb howner).le

lemma At.perform {time : Nat} {s : Impl κ} (h : At time s) (program : Program σ κ) :
    At time (s.perform program).2.1 := by
  have heffect := perform_effect h.good program
  exact ⟨heffect.good, heffect.shared.trans h.clock, heffect.sharedAhead h.good h.ahead⟩

end Impl

namespace Windows

open DeferredCanCommand Impl

/-- A command that came up in time: its time is reached, and no shared event
before it is left. -/
structure Timely (r : Replayed κ α) : Prop where
  reached : r.command.timestamp ≤ r.store.timeFor sharedEventOwner
  settled : ∀ b ∈ r.store.pending, b.owner = sharedEventOwner → r.command.timestamp ≤ b.due

/-! ## One window's replay -/

namespace Session

variable {finish time : Nat} {s s' : Session σ κ α} (b : Behaviour σ κ α)

lemma drainShared_at {b : Behaviour σ κ α} (hgood : s.store.Good)
    (h : s.drainShared b time = some s') :
    ∃ state store, s' = { s with state, store } ∧ At time store := by
  unfold drainShared at h
  split at h
  · cases h
  rename_i result state store log hrun
  split_ifs at h with hlimit
  cases h
  exact ⟨state, store, rfl, runSharedEvents_at hgood hrun (by simpa using hlimit)⟩

lemma foldl_replay {b : Behaviour σ κ α} (cs : List (DeferredCanCommand α)) (s : Session σ κ α)
    (hat : At time s.store) (hdue : ∀ c ∈ cs, c.timestamp ≤ time) :
    ∃ state store rs, cs.foldl (replay b) s = { s with state, store, applied := s.applied ++ rs } ∧
      rs.map Replayed.command = cs ∧ (∀ r ∈ rs, Timely r) ∧ At time store := by
  induction cs generalizing s with
  | nil => exact ⟨s.state, s.store, [], by simp, rfl, by simp, hat⟩
  | cons c cs ih =>
    have hc := hdue c mem_cons_self
    obtain ⟨state, store, rs, heq, hrs, htimely, hat'⟩ :=
      ih (s.replay b c) (hat.perform _) fun d hd => hdue d (mem_cons_of_mem _ hd)
    refine ⟨state, store, ⟨c, s.store⟩ :: rs, ?_, ?_, ?_, hat'⟩
    · rw [foldl_cons, heq]
      simp [replay]
    · rw [map_cons, hrs]
    · intro r hr
      rcases mem_cons.mp hr with rfl | hr
      · refine ⟨?_, ?_⟩
        · exact (hc.trans_eq hat.clock.symm).trans (timeFor_ge_shared _ _)
        · intro e he howner
          exact (hc.trans_eq hat.clock.symm).trans (hat.ahead e he howner)
      · exact htimely r hr

/-- What a replay up to a time does: the commands due are replayed in their order,
and the others stay. -/
structure Replays (finish : Nat) (s s' : Session σ κ α) (rs : List (Replayed κ α)) : Prop where
  now : s'.now = s.now
  staged : s'.staged = s.staged
  applied : s'.applied = s.applied ++ rs
  due : rs.map Replayed.command ++ s'.pending = s.pending
  timely : ∀ r ∈ rs, Timely r
  past : ∀ r ∈ rs, r.command.timestamp ≤ finish
  good : s'.store.Good

lemma Replays.refl (hgood : s.store.Good) : Replays finish s s [] :=
  ⟨rfl, rfl, by simp, rfl, by simp, by simp, hgood⟩

lemma Replays.trans {s₁ s₂ : Session σ κ α} {rs₁ rs₂ : List (Replayed κ α)}
    (h₁ : Replays finish s s₁ rs₁) (h₂ : Replays finish s₁ s₂ rs₂) :
    Replays finish s s₂ (rs₁ ++ rs₂) := by
  refine ⟨h₂.now.trans h₁.now, h₂.staged.trans h₁.staged, ?_, ?_, ?_, ?_, h₂.good⟩
  · rw [h₂.applied, h₁.applied, append_assoc]
  · rw [map_append, append_assoc, h₂.due, h₁.due]
  · exact List.forall_mem_append.mpr ⟨h₁.timely, h₂.timely⟩
  · exact List.forall_mem_append.mpr ⟨h₁.past, h₂.past⟩

lemma drainShared_replays {b : Behaviour σ κ α} (hgood : s.store.Good)
    (h : s.drainShared b time = some s') :
    Replays finish s s' [] ∧ s'.pending = s.pending ∧ At time s'.store := by
  obtain ⟨state, store, rfl, hat⟩ := drainShared_at hgood h
  exact ⟨⟨rfl, rfl, by simp, rfl, by simp, by simp, hat.good⟩, rfl, hat⟩

lemma replayBatch_replays (hat : At time s.store) (hle : time ≤ finish) :
    ∃ rs, Replays finish s (s.replayBatch b time) rs := by
  have hdue : ∀ c ∈ s.pending.takeWhile fun c => c.timestamp ≤ time, c.timestamp ≤ time := by
    intro c hc
    simpa using mem_takeWhile_imp hc
  obtain ⟨state, store, rs, heq, hrs, htimely, hat'⟩ := foldl_replay _ s hat hdue
  unfold replayBatch
  rw [heq]
  refine ⟨rs, rfl, rfl, rfl, ?_, htimely, ?_, hat'.good⟩
  · rw [hrs]
    exact takeWhile_append_dropWhile
  · intro r hr
    have hmem : r.command ∈ rs.map Replayed.command := mem_map_of_mem hr
    rw [hrs] at hmem
    exact (hdue _ hmem).trans hle

lemma length_pending_replayBatch {c : DeferredCanCommand α} {cs : List (DeferredCanCommand α)}
    (hpending : s.pending = c :: cs) (hc : c.timestamp ≤ time) :
    (s.replayBatch b time).pending.length ≤ cs.length := by
  show (s.pending.dropWhile _).length ≤ _
  rw [hpending, dropWhile_cons_of_pos (by simpa using hc)]
  exact (dropWhile_sublist _).length_le

/-- A replay ends when no command at the front is due. The induction is on the
rounds, and every round takes the front. -/
lemma replayDue_replays (fuel : Nat) (hgood : s.store.Good) (hnow : s.now ≤ finish)
    (hfuel : s.pending.length ≤ fuel) (h : s.replayDue b finish fuel = some s') :
    (∃ rs, Replays finish s s' rs) ∧ ∀ c ∈ s'.pending.head?, finish < c.timestamp := by
  induction fuel generalizing s with
  | zero =>
    obtain rfl : s = s' := Option.some.inj h
    have hempty : s.pending = [] := length_eq_zero_iff.mp (Nat.le_zero.mp hfuel)
    exact ⟨⟨[], .refl hgood⟩, by simp [hempty]⟩
  | succ fuel ih =>
    rw [replayDue] at h
    split at h
    · rename_i hempty
      obtain rfl : s = s' := Option.some.inj h
      exact ⟨⟨[], .refl hgood⟩, by simp [hempty]⟩
    rename_i c cs hpending
    split at h
    · rename_i hc
      obtain ⟨s₁, hs₁, h⟩ := Option.bind_eq_some_iff.mp h
      obtain ⟨s₂, hs₂, h⟩ := Option.bind_eq_some_iff.mp h
      obtain ⟨hfirst, hsame, hat⟩ := drainShared_replays hgood hs₁
      have htime : max s.now c.timestamp ≤ finish := max_le hnow hc
      obtain ⟨rs, hbatch⟩ := replayBatch_replays b hat htime
      obtain ⟨hsecond, hsame₂, -⟩ := drainShared_replays hbatch.good hs₂
      have hround := (hfirst.trans hbatch).trans hsecond
      have hshorter : s₂.pending.length ≤ fuel := by
        rw [hsame₂]
        have := length_pending_replayBatch b (hsame.trans hpending) (le_max_right s.now c.timestamp)
        rw [hpending, length_cons] at hfuel
        omega
      obtain ⟨⟨rs', hlast⟩, hhead⟩ := ih hround.good (hround.now ▸ hnow) hshorter h
      exact ⟨⟨_, hround.trans hlast⟩, hhead⟩
    · rename_i hc
      obtain rfl : s = s' := Option.some.inj h
      refine ⟨⟨[], .refl hgood⟩, ?_⟩
      rw [hpending]
      intro d hd
      obtain rfl : c = d := by simpa using hd
      exact Nat.not_le.mp hc

lemma replayWindow_replays (hgood : s.store.Good) (hnow : s.now ≤ finish)
    (hsorted : s.pending.Pairwise SortsBefore) (h : s.replayWindow b finish = some s') :
    (∃ rs, Replays finish s s' rs) ∧ ∀ c ∈ s'.pending, finish < c.timestamp := by
  obtain ⟨s₁, hs₁, hlast⟩ := Option.bind_eq_some_iff.mp h
  obtain ⟨⟨rs, hrs⟩, hhead⟩ := replayDue_replays b _ hgood hnow le_rfl hs₁
  obtain ⟨hdrain, hsame, -⟩ := drainShared_replays hrs.good hlast
  refine ⟨⟨_, hrs.trans hdrain⟩, ?_⟩
  rw [hsame]
  -- what is left is sorted, so all of it is as late as its head
  have hleft : s₁.pending.Pairwise SortsBefore := by
    rw [← hrs.due] at hsorted
    exact (pairwise_append.mp hsorted).2.1
  cases hpending : s₁.pending with
  | nil => simp
  | cons c cs =>
    rw [hpending] at hleft hhead
    have hc : finish < c.timestamp := hhead c rfl
    intro d hd
    rcases mem_cons.mp hd with rfl | hd
    · exact hc
    rcases (List.pairwise_cons.mp hleft).1 d hd with hlt | ⟨heq, -⟩
    · exact hc.trans hlt
    · exact heq ▸ hc

end Session

/-! ## What lanes stage -/

def Numbered (a b : DeferredCanCommand α) : Prop :=
  a.boardIndex = b.boardIndex → a.laneSequence ≤ b.laneSequence

/-- What a scope has staged so far: commands of its board, in order, with numbers
below the next one and times from the start of the window on. -/
structure Staging (now board : Nat) (scope : DeferredCanScope α) : Prop where
  mine : scope.board = board
  board : ∀ c ∈ scope.outbox, c.boardIndex = board
  below : ∀ c ∈ scope.outbox, c.laneSequence < scope.sequence
  order : scope.outbox.Pairwise Numbered
  since : ∀ c ∈ scope.outbox, now ≤ c.timestamp
  bounded : now ≤ simTimeMax → ∀ c ∈ scope.outbox, c.timestamp ≤ simTimeMax

lemma Staging.stage {now board : Nat} {scope : DeferredCanScope α} (h : Staging now board scope)
    (r : Request α) : Staging now board (scope.stage (max r.localTime.toNat now) r.action) := by
  have hmem : ∀ c ∈ (scope.stage (max r.localTime.toNat now) r.action).outbox,
      c ∈ scope.outbox ∨ c = ⟨max r.localTime.toNat now, scope.board, scope.sequence, r.action⟩ := by
    intro c hc
    simpa [DeferredCanScope.stage] using hc
  refine ⟨h.mine, ?_, ?_, ?_, ?_, ?_⟩
  · intro c hc
    rcases hmem c hc with hc | rfl
    · exact h.board c hc
    · exact h.mine
  · intro c hc
    rcases hmem c hc with hc | rfl
    · exact Nat.lt_succ_of_lt (h.below c hc)
    · exact Nat.lt_succ_self _
  · refine pairwise_append.mpr ⟨h.order, pairwise_singleton _ _, ?_⟩
    intro c hc d hd _
    obtain rfl := mem_singleton.mp hd
    exact (h.below c hc).le
  · intro c hc
    rcases hmem c hc with hc | rfl
    · exact h.since c hc
    · exact le_max_right _ _
  · intro hnow c hc
    rcases hmem c hc with hc | rfl
    · exact h.bounded hnow c hc
    · have := r.localTime.toNat_lt
      exact max_le (Nat.le_sub_one_of_lt this) hnow

lemma executeLane_staging (now board : Nat) (requests : List (Request α)) :
    ∃ scope, executeLane now board requests = scope.outbox ∧ Staging now board scope := by
  have hstart : Staging now board ({ board } : DeferredCanScope α) :=
    ⟨rfl, by simp, by simp, .nil, by simp, by simp⟩
  exact ⟨_, rfl, foldlRecOn requests _ hstart fun _ h r _ => h.stage r⟩

variable {c : DeferredCanCommand α}

lemma mem_outboxes {w : Window σ κ α} {now : Nat}
    (hc : c ∈ w.outboxes now) :
    now ≤ c.timestamp ∧ (now ≤ simTimeMax → c.timestamp ≤ simTimeMax) := by
  obtain ⟨outbox, houtbox, hc⟩ := List.mem_flatten.mp hc
  obtain ⟨lane, -, rfl⟩ := mem_map.mp houtbox
  obtain ⟨scope, heq, hstaging⟩ := executeLane_staging now lane.2 lane.1
  rw [heq] at hc
  exact ⟨hstaging.since c hc, fun hnow => hstaging.bounded hnow c hc⟩

/-- Lanes are different boards, so the commands of a board stay in its order. -/
lemma outboxes_numbered (w : Window σ κ α) (now : Nat) : (w.outboxes now).Pairwise Numbered := by
  refine List.pairwise_flatten.mpr ⟨?_, ?_⟩
  · intro outbox houtbox
    obtain ⟨lane, -, rfl⟩ := mem_map.mp houtbox
    obtain ⟨scope, heq, hstaging⟩ := executeLane_staging now lane.2 lane.1
    rw [heq]
    exact hstaging.order
  · refine pairwise_map.mpr ?_
    have hapart : w.lanes.zipIdx.Pairwise fun a b => a.2 ≠ b.2 := by
      have hnodup : (w.lanes.zipIdx.map Prod.snd).Nodup := by
        rw [zipIdx_map_snd]
        exact nodup_range'
      exact pairwise_map.mp hnodup
    refine hapart.imp ?_
    intro a b hne c hc d hd hboard
    obtain ⟨scope, heq, hstaging⟩ := executeLane_staging now a.2 a.1
    obtain ⟨scope', heq', hstaging'⟩ := executeLane_staging now b.2 b.1
    rw [heq] at hc
    rw [heq'] at hd
    exact absurd ((hstaging.board c hc).symm.trans (hboard.trans (hstaging'.board d hd))) hne

/-! ## Sorting a window -/

/-- A window stages nothing that ties with an earlier window the wrong way: no
command at the time of one replayed before, of a lower board, and none that takes
the place of a command left over of the same board and time. -/
def inOrder (s : Session σ κ α) (w : Window σ κ α) : Bool :=
  (w.outboxes s.now).all fun c =>
    (s.applied.all fun r =>
      r.command.timestamp ≠ c.timestamp || decide (r.command.boardIndex ≤ c.boardIndex)) &&
    s.pending.all fun d =>
      d.timestamp ≠ c.timestamp || d.boardIndex ≠ c.boardIndex ||
        decide (d.laneSequence ≤ c.laneSequence)

/-- What is known of a session's commands at any time: those replayed and those
left are all that were staged, in order. -/
structure Kept (s : Session σ κ α) : Prop where
  good : s.store.Good
  order : s.applied.map Replayed.command ++ s.pending = s.staged.insertionSort NotAfter
  sorted : s.pending.Pairwise SortsBefore
  timely : ∀ r ∈ s.applied, Timely r

/-- What is known between two windows: what was replayed is past, and what is left
lies ahead. -/
structure Held (o : Options) (s : Session σ κ α) : Prop extends Kept s where
  past : ∀ r ∈ s.applied, r.command.timestamp ≤ s.now
  ahead : ∀ c ∈ s.pending, s.now < c.timestamp ∧ c.timestamp ≤ simTimeMax
  now : s.now ≤ simTimeMax
  moves : s.pending = [] ∨ 0 < o.crossBoardWindowNs

variable {a : DeferredCanCommand α}

lemma notAfter_of_sortsBefore {b : DeferredCanCommand α} (h : SortsBefore a b) :
    NotAfter a b := by
  unfold SortsBefore at h
  unfold NotAfter
  omega

lemma tied_iff {b : DeferredCanCommand α} :
    NotAfter a b ∧ NotAfter b a ↔ a.timestamp = b.timestamp ∧ a.boardIndex = b.boardIndex := by
  unfold NotAfter
  omega

lemma sortsBefore_of_numbered {b d : DeferredCanCommand α}
    (ha : NotAfter d a ∧ NotAfter a d) (hb : NotAfter d b ∧ NotAfter b d) (h : Numbered a b) :
    SortsBefore a b := by
  obtain ⟨hta, hba⟩ := tied_iff.mp ha
  obtain ⟨htb, hbb⟩ := tied_iff.mp hb
  have hnumber := h (hba.symm.trans hbb)
  unfold SortsBefore
  omega

variable {o : Options} {s : Session σ κ α} {w : Window σ κ α}

lemma inOrder_applied (h : inOrder s w = true) {r : Replayed κ α} (hr : r ∈ s.applied)
    (hc : c ∈ w.outboxes s.now)
    (heq : r.command.timestamp = c.timestamp) : r.command.boardIndex ≤ c.boardIndex := by
  have hall := all_eq_true.mp h c hc
  have := all_eq_true.mp (Bool.and_eq_true_iff.mp hall).1 r hr
  simpa [heq] using this

lemma inOrder_pending (h : inOrder s w = true) {d : DeferredCanCommand α} (hd : d ∈ s.pending)
    (hc : c ∈ w.outboxes s.now) (heq : d.timestamp = c.timestamp)
    (hboard : d.boardIndex = c.boardIndex) : d.laneSequence ≤ c.laneSequence := by
  have hall := all_eq_true.mp h c hc
  have := all_eq_true.mp (Bool.and_eq_true_iff.mp hall).2 d hd
  simpa [heq, hboard] using this

open StableSort

section

variable (h : Held o s) (hin : inOrder s w = true)
include h hin

/-- Of the commands with one time and board, those left over come first and the
new ones follow in their order. -/
lemma ties_sorted_of_inOrder (a : DeferredCanCommand α) :
    (ties NotAfter a (s.pending ++ w.outboxes s.now)).Pairwise SortsBefore := by
  rw [ties_append]
  refine pairwise_append.mpr ⟨h.sorted.sublist filter_sublist, ?_, ?_⟩
  · have hnumbered : (ties NotAfter a (w.outboxes s.now)).Pairwise Numbered :=
      (outboxes_numbered w s.now).sublist filter_sublist
    refine hnumbered.imp_of_mem ?_
    intro c d hc hd hcd
    exact sortsBefore_of_numbered ((mem_ties _).mp hc).2
      ((mem_ties _).mp hd).2 hcd
  · intro d hd c hc
    obtain ⟨hd, htied⟩ := (mem_ties _).mp hd
    obtain ⟨hc, htied'⟩ := (mem_ties _).mp hc
    refine sortsBefore_of_numbered htied htied' ?_
    intro hboard
    have htime := (tied_iff.mp htied).1.symm.trans (tied_iff.mp htied').1
    exact inOrder_pending hin hd hc htime hboard

/-- What was replayed comes before all that is left or staged now. -/
lemma applied_notAfter {r : Replayed κ α}
    (hr : r ∈ s.applied) (hc : c ∈ s.pending ++ w.outboxes s.now) :
    NotAfter r.command c := by
  rcases mem_append.mp hc with hc | hc
  · exact .inl (lt_of_le_of_lt (h.past r hr) (h.ahead c hc).1)
  rcases (h.past r hr).trans (mem_outboxes hc).1 |>.lt_or_eq with hlt | heq
  · exact .inl hlt
  · exact .inr ⟨heq, inOrder_applied hin hr hc heq⟩

/-- **A window keeps the order of the run**: sorted among those left over, the new
commands stand where a sort of all commands so far puts them. -/
lemma collect_kept : Kept (s.collect w) := by
  have hsorted : (s.collect w).pending.Pairwise SortsBefore := pairwise_insertionSort _ _
  refine ⟨w.work.keeps _ _ h.good, ?_, hsorted, h.timely⟩
  have hbefore : (s.applied.map Replayed.command).Pairwise NotAfter := by
    have hall : (s.staged.insertionSort NotAfter).Pairwise NotAfter :=
      pairwise_insertionSort _ _
    rw [← h.order] at hall
    exact (pairwise_append.mp hall).1
  refine eq_of_ties NotAfter ?_ (pairwise_insertionSort _ _) ?_
  · refine pairwise_append.mpr ⟨hbefore, hsorted.imp notAfter_of_sortsBefore, ?_⟩
    intro d hd c hc
    obtain ⟨r, hr, rfl⟩ := mem_map.mp hd
    exact applied_notAfter h hin hr ((mem_insertionSort _).mp hc)
  · intro a
    calc ties NotAfter a (s.applied.map Replayed.command ++ (s.collect w).pending)
        = ties NotAfter a (s.applied.map Replayed.command) ++
            ties NotAfter a (s.pending ++ w.outboxes s.now) := by
          rw [ties_append]
          exact congrArg _ (ties_insertionSort_of_sorted SortsBefore
            (ties_sorted_of_inOrder h hin a))
      _ = ties NotAfter a (s.staged.insertionSort NotAfter) ++
            ties NotAfter a (w.outboxes s.now) := by
          rw [← h.order, ties_append, ties_append, append_assoc]
      _ = ties NotAfter a ((s.collect w).staged.insertionSort NotAfter) := by
          rw [ties_insertionSort, ties_insertionSort]
          exact (ties_append NotAfter a _ _).symm

end

/-! ## Whole runs -/

section

variable (hends : loopEnds o s = none)
include hends

lemma now_lt_deadline (hdeadline : o.deadline ≠ 0) :
    s.now < o.deadline := by
  unfold loopEnds at hends
  split_ifs at hends with hrun hstop hlate
  · simp only [Bool.or_eq_true, decide_eq_true_eq, not_or] at hstop
    exact Nat.not_le.mp hstop.2
  · simp only [Bool.and_eq_true, decide_eq_true_eq, not_and] at hlate
    exact Nat.not_le.mp (hlate hdeadline)

lemma windowEnd_bounds (hnow : s.now ≤ simTimeMax) :
    s.now ≤ windowEnd o s.now ∧ windowEnd o s.now ≤ simTimeMax := by
  have hlate := now_lt_deadline hends
  unfold windowEnd saturatingAdd
  dsimp only
  split_ifs with hdeadline
  · have := hlate hdeadline
    omega
  · omega

/-- A window without length is one without options for it, or the clock is full. -/
lemma windowEnd_eq_now (heq : windowEnd o s.now = s.now) :
    o.crossBoardWindowNs = 0 ∨ simTimeMax ≤ s.now := by
  have hlate := now_lt_deadline hends
  unfold windowEnd saturatingAdd at heq
  dsimp only at heq
  split_ifs at heq with hdeadline
  · have := hlate hdeadline
    omega
  · omega

end

variable {b : Behaviour σ κ α} {ending : Ending} {store : Impl κ}

lemma replayed_held {s' : Session σ κ α} (h : Held o s) (hin : inOrder s w = true)
    (hends : loopEnds o s = none) (hmoves : windowEnd o s.now ≠ s.now)
    (hreplay : (s.collect w).replayWindow b (windowEnd o s.now) = some s') :
    Held o { s' with now := windowEnd o s.now } := by
  have hkept := collect_kept h hin
  obtain ⟨hstart, hend⟩ := windowEnd_bounds hends h.now
  obtain ⟨⟨rs, hrs⟩, hleft⟩ :=
    Session.replayWindow_replays b hkept.good hstart hkept.sorted hreplay
  have hmem : ∀ c ∈ s'.pending, c ∈ s.pending ++ w.outboxes s.now := by
    intro c hc
    refine (mem_insertionSort SortsBefore).mp ?_
    show c ∈ (s.collect w).pending
    rw [← hrs.due]
    exact mem_append_right _ hc
  refine ⟨⟨hrs.good, ?_, ?_, ?_⟩, ?_, ?_, hend, ?_⟩
  · rw [hrs.applied, hrs.staged, map_append, append_assoc, hrs.due]
    exact hkept.order
  · have hall := hkept.sorted
    rw [← hrs.due] at hall
    exact (pairwise_append.mp hall).2.1
  · rw [hrs.applied]
    exact List.forall_mem_append.mpr ⟨h.timely, hrs.timely⟩
  · rw [hrs.applied]
    exact List.forall_mem_append.mpr ⟨fun r hr => (h.past r hr).trans hstart, hrs.past⟩
  · intro c hc
    refine ⟨hleft c hc, ?_⟩
    rcases mem_append.mp (hmem c hc) with hold | hnew
    · exact (h.ahead c hold).2
    · exact (mem_outboxes hnew).2 h.now
  · right
    by_contra hzero
    refine hmoves ?_
    have hlate := now_lt_deadline hends
    unfold windowEnd saturatingAdd
    dsimp only
    split_ifs with hdeadline
    · have := hlate hdeadline
      omega
    · omega

lemma window_held (h : Held o s) (hends : loopEnds o s = none)
    (hin : windowEnd o s.now ≠ s.now → inOrder s w = true) :
    match window o b s w with
    | .again s' => Held o s'
    | .over ending s' =>
      ending ≠ .thrown → Kept s' ∧ (ending = .clockOverflow → s'.pending = []) := by
  unfold window
  by_cases hstill : windowEnd o s.now = s.now
  · rw [if_pos hstill]
    refine fun _ => ⟨h.toKept, fun _ => ?_⟩
    rcases h.moves with hempty | hlong
    · exact hempty
    rcases windowEnd_eq_now hends hstill with hzero | hfull
    · exact absurd hzero hlong.ne'
    refine eq_nil_iff_forall_not_mem.mpr fun c hc => ?_
    obtain ⟨hlt, hle⟩ := h.ahead c hc
    omega
  · rw [if_neg hstill]
    by_cases hthrows : w.throws = true
    · rw [if_pos hthrows]
      exact fun hne => absurd rfl hne
    rw [if_neg hthrows]
    split_ifs
    · exact fun _ => ⟨collect_kept h (hin hstill), nofun⟩
    cases hreplay : (s.collect w).replayWindow b (windowEnd o s.now) with
    | none => exact fun hne => absurd rfl hne
    | some s' =>
      have hheld := replayed_held h (hin hstill) hends hstill hreplay
      unfold afterWindow
      split_ifs
      · exact fun _ => ⟨hheld.toKept, nofun⟩
      · exact fun _ => ⟨hheld.toKept, nofun⟩
      · exact fun _ => ⟨hheld.toKept, nofun⟩
      · exact hheld

/-- Event ids are left for the commands that a run leaves over. -/
def idsLeft (store : Impl κ) (n : Nat) : Bool :=
  n = 0 || (!store.laneDomain && decide (0 < store.nextId ∧ store.nextId + n ≤ laneIdMarker))

def closes (joins : Option (LaneWork σ κ)) (s : Session σ κ α) : Bool :=
  match joins with
  | none => false
  | some work => idsLeft (work.run s.state s.store).2 s.pending.length

/-- A run in which nothing throws and every window stages in order. -/
def orderly (o : Options) (b : Behaviour σ κ α) (joins : Option (LaneWork σ κ)) :
    Session σ κ α → List (Window σ κ α) → Bool
  | s, [] => closes joins s
  | s, w :: ws =>
    match loopEnds o s with
    | some _ => closes joins s
    | none =>
      (windowEnd o s.now = s.now || inOrder s w) &&
        match window o b s w with
        | .over .thrown _ => false
        | .over _ s => closes joins s
        | .again s => orderly o b joins s ws

lemma loopEnds_ending (h : loopEnds o s = some ending) :
    ending ≠ .thrown ∧ ending ≠ .clockOverflow := by
  unfold loopEnds at h
  split_ifs at h <;> cases h <;> exact ⟨nofun, nofun⟩

variable {joins : Option (LaneWork σ κ)}

/-- The loop ends with every command staged so far in its place. -/
lemma windows_kept (ws : List (Window σ κ α)) (h : Held o s)
    (hgood : orderly o b joins s ws = true) {s' : Session σ κ α}
    (hrun : windows o b s ws = some (ending, s')) :
    Kept s' ∧ closes joins s' = true ∧ ending ≠ .thrown ∧
      (ending = .clockOverflow → s'.pending = []) := by
  induction ws generalizing s with
  | nil =>
    obtain ⟨ending', hends, heq⟩ := Option.map_eq_some_iff.mp hrun
    cases heq
    obtain ⟨hthrown, hover⟩ := loopEnds_ending hends
    exact ⟨h.toKept, hgood, hthrown, fun heq => absurd heq hover⟩
  | cons w ws ih =>
    rw [windows] at hrun
    rw [orderly] at hgood
    cases hends : loopEnds o s with
    | some ending' =>
      rw [hends] at hrun hgood
      cases hrun
      obtain ⟨hthrown, hover⟩ := loopEnds_ending hends
      exact ⟨h.toKept, hgood, hthrown, fun heq => absurd heq hover⟩
    | none =>
      rw [hends] at hrun hgood
      obtain ⟨hin, hgood⟩ := Bool.and_eq_true_iff.mp hgood
      have hstep := window_held (w := w) (b := b) h hends fun hne => by simpa [hne] using hin
      cases hturn : window o b s w with
      | again s₁ =>
        rw [hturn] at hrun hgood hstep
        exact ih hstep hgood hrun
      | «over» ending' s₁ =>
        rw [hturn] at hrun hgood hstep
        cases hrun
        have hne : ending ≠ .thrown := by
          rintro rfl
          cases hgood
        obtain ⟨hkept, hover⟩ := hstep hne
        refine ⟨hkept, ?_, hne, hover⟩
        cases ending with
        | thrown => exact absurd rfl hne
        | _ => exact hgood

/-! ## What is left over -/

lemma scheduleAs_shared (hgood : store.Good) (hroot : store.laneDomain = false)
    (hid : 0 < store.nextId) (hroom : store.nextId < laneIdMarker) {due : Nat}
    (hdue : store.timeFor sharedEventOwner ≤ due) (callback : κ) :
    ∃ id store' slot, store.scheduleAs sharedEventOwner due callback false =
        (some id, store', [.issue slot]) ∧ Effect store [.issue slot] store' ∧
      slot.owner = sharedEventOwner ∧ slot.callback = callback ∧ slot.due = due ∧
      slot.sequence = store.nextSequence ∧ store'.nextId = store.nextId + 1 := by
  have heffect := scheduleAs_effect hgood sharedEventOwner due callback false
  unfold scheduleAs schedule at heffect ⊢
  set s₀ : Impl κ := { store with activeOwner := sharedEventOwner }
  have hpast : ¬ due < s₀.timeFor s₀.activeOwner := Nat.not_lt.mpr hdue
  have hallocate : s₀.allocateId = some (store.nextId, { s₀ with nextId := store.nextId + 1 }) := by
    unfold allocateId
    rw [if_neg (by simp [s₀, hroot]), if_neg (by simp [s₀]; omega)]
  rw [if_neg (by simp [s₀, hroot]), if_neg hpast, hallocate] at heffect ⊢
  exact ⟨_, _, _, rfl, heffect, rfl, rfl, rfl, rfl, rfl⟩

/-- What is scheduled for later: the commands in their order, each as a shared
event at its time or as soon as can be. -/
structure Tail (b : Behaviour σ κ α) (cs : List (DeferredCanCommand α))
    (tail : List (Slot κ × DeferredCanCommand α)) (store : Impl κ) : Prop where
  commands : tail.map Prod.snd = cs
  waits : ∀ p ∈ tail, p.1 ∈ store.pending
  shared : ∀ p ∈ tail, p.1.owner = sharedEventOwner
  callback : ∀ p ∈ tail, p.1.callback = b.later p.2
  due : ∀ p ∈ tail, p.2.timestamp ≤ p.1.due
  order : tail.Pairwise fun p q => p.1.Before q.1

lemma scheduleTail_tail (b : Behaviour σ κ α) (cs : List (DeferredCanCommand α))
    (hgood : store.Good) (hids : idsLeft store cs.length = true)
    (hsorted : cs.Pairwise SortsBefore) :
    ∃ tail store', scheduleTail b cs store = some (tail, store') ∧ Tail b cs tail store' ∧
      (∀ e ∈ store.pending, e ∈ store'.pending) ∧
      ∀ p ∈ tail, p.1.due = max (store.timeFor sharedEventOwner) p.2.timestamp ∧
        store.nextSequence ≤ p.1.sequence := by
  induction cs generalizing store with
  | nil =>
    exact ⟨[], store, rfl, ⟨rfl, by simp, by simp, by simp, by simp, .nil⟩, fun _ h => h, by simp⟩
  | cons c cs ih =>
    obtain ⟨hroot, hid, hroom⟩ :
        store.laneDomain = false ∧ 0 < store.nextId ∧
          store.nextId + (cs.length + 1) ≤ laneIdMarker := by
      simpa [idsLeft] using hids
    obtain ⟨hfirst, hsorted⟩ := List.pairwise_cons.mp hsorted
    obtain ⟨id, store₁, slot, hschedule, heffect, howner, hcallback, hdue, hnumber, hnext⟩ :=
      scheduleAs_shared hgood hroot hid (by omega) (le_max_left _ c.timestamp) (b.later c)
    have hids₁ : idsLeft store₁ cs.length = true := by
      have hroot₁ : store₁.laneDomain = false := heffect.grows.domain.trans hroot
      have hroom₁ : 0 < store₁.nextId ∧ store₁.nextId + cs.length ≤ laneIdMarker := by omega
      simp [idsLeft, hroot₁, hroom₁]
    obtain ⟨tail, store', htail, hspec, hkeep, hlate⟩ := ih heffect.good hids₁ hsorted
    have hclock : store₁.timeFor sharedEventOwner = store.timeFor sharedEventOwner :=
      congrFun heffect.clock _
    have hcount : store₁.nextSequence = store.nextSequence + 1 := heffect.grows.next
    have hin : slot ∈ store₁.pending :=
      (heffect.run.out_iff hgood.sound).mpr (by simp)
    have hstay : ∀ e ∈ store.pending, e ∈ store₁.pending := fun e he =>
      (heffect.run.out_iff hgood.sound).mpr ⟨.inl he, by simp, by simp⟩
    refine ⟨(slot, c) :: tail, store', ?_, ⟨?_, ?_, ?_, ?_, ?_, ?_⟩,
      fun e he => hkeep e (hstay e he), ?_⟩
    · rw [scheduleTail, hschedule]
      simp [htail]
    · rw [map_cons, hspec.commands]
    · exact List.forall_mem_cons.mpr ⟨hkeep slot hin, hspec.waits⟩
    · exact List.forall_mem_cons.mpr ⟨howner, hspec.shared⟩
    · exact List.forall_mem_cons.mpr ⟨hcallback, hspec.callback⟩
    · exact List.forall_mem_cons.mpr ⟨hdue ▸ le_max_right _ _, hspec.due⟩
    · refine List.pairwise_cons.mpr ⟨?_, hspec.order⟩
      -- later commands are due no earlier, and have higher numbers
      intro p hp
      obtain ⟨hpdue, hpnumber⟩ := hlate p hp
      have hmem : p.2 ∈ cs := hspec.commands ▸ mem_map_of_mem hp
      have htime : c.timestamp ≤ p.2.timestamp := by
        rcases hfirst p.2 hmem with hlt | ⟨heq, -⟩ <;> omega
      unfold Slot.Before
      dsimp only
      omega
    · refine List.forall_mem_cons.mpr ⟨⟨hdue, hnumber.ge⟩, ?_⟩
      intro p hp
      obtain ⟨hpdue, hpnumber⟩ := hlate p hp
      exact ⟨hclock ▸ hpdue, by omega⟩

/-! ## The law of a run -/

/-- Every command staged in a run comes up exactly once: the run replays them in
the order of a stable sort by time and board, as far as it gets, and schedules
the others as shared events in that order. -/
structure InProgramOrder (b : Behaviour σ κ α) (out : Outcome κ α) : Prop where
  order : out.commands = out.staged.insertionSort NotAfter
  timely : ∀ r ∈ out.applied, Timely r
  later : Tail b (out.tail.map Prod.snd) out.tail out.store
  returns : out.ending ≠ .thrown

lemma held_start (o : Options) (runnable : Bool) (state : σ) (hgood : store.Good)
    (hclock : store.timeFor sharedEventOwner ≤ simTimeMax) :
    Held o (startRun runnable state store : Session σ κ α) := by
  refine ⟨⟨hgood, ?_, .nil, ?_⟩, ?_, ?_, hclock, .inl rfl⟩
  · simp [startRun]
  · simp [startRun]
  · simp [startRun]
  · simp [startRun]

lemma close_inProgramOrder (b : Behaviour σ κ α)
    {s : Session σ κ α} (h : Kept s) (hcloses : closes joins s = true) (hending : ending ≠ .thrown) :
    InProgramOrder b (close b joins ending s) := by
  cases joins with
  | none => cases hcloses
  | some work =>
    obtain ⟨tail, store', htail, hspec, -⟩ :=
      scheduleTail_tail b s.pending (work.keeps s.state s.store h.good) hcloses h.sorted
    unfold close
    dsimp only
    rw [htail]
    refine ⟨?_, h.timely, ?_, hending⟩
    · show s.applied.map _ ++ tail.map _ = _
      rw [hspec.commands]
      exact h.order
    · rw [hspec.commands]
      exact hspec

/-- **A windowed run replays bus commands in program order**, each exactly once
and in its time, whatever ends the run, if nothing throws and no window stages a
command that ties with one of an earlier window the wrong way. -/
theorem deferred_commands_come_up_once_and_in_order (o : Options) (b : Behaviour σ κ α)
    (joins : Option (LaneWork σ κ)) (runnable : Bool) (state : σ) (store : Impl κ)
    (hgood : store.Good) (hclock : store.timeFor sharedEventOwner ≤ simTimeMax)
    (ws : List (Window σ κ α))
    (horderly : orderly o b joins (startRun runnable state store) ws = true) (out : Outcome κ α)
    (hrun : runIndependent o b joins (startRun runnable state store) ws = some out) :
    InProgramOrder b out := by
  obtain ⟨⟨ending, s⟩, hwindows, rfl⟩ := Option.map_eq_some_iff.mp hrun
  obtain ⟨hkept, hcloses, hthrown, hover⟩ :=
    windows_kept ws (held_start o runnable state hgood hclock) horderly hwindows
  cases ending with
  | thrown => exact absurd rfl hthrown
  | clockOverflow =>
    have hempty := hover rfl
    refine ⟨?_, hkept.timely, ⟨rfl, by simp [finishRun], by simp [finishRun], by simp [finishRun],
      by simp [finishRun], .nil⟩, nofun⟩
    show s.applied.map _ ++ [] = _
    rw [← hempty]
    exact hkept.order
  | _ => exact close_inProgramOrder b hkept hcloses nofun

/-! ## Runs of two boards -/

def idleWork : LaneWork σ κ := ⟨fun state store => (state, store), fun _ _ h => h⟩

/-- A bus that notes the commands it gets. -/
def recorder : Behaviour (List Nat) Nat Nat where
  behave action seen := .done (seen ++ [action])
  replay action seen := .done (seen ++ [action])
  later c := c.action

/-- The names of an outcome's commands in the order they come up, and in the order
of a stable sort by time and board. -/
def Outcome.names (out : Outcome κ Nat) : List Nat × List Nat :=
  (out.commands.map DeferredCanCommand.action,
    (out.staged.insertionSort NotAfter).map DeferredCanCommand.action)

def twoWindows (first second : List (List (Request Nat))) : List (Window (List Nat) Nat Nat) :=
  [{ lanes := first, work := idleWork }, { lanes := second, work := idleWork, runnable := false }]

/-- Board 0 leaves a command at 130 over, and both boards stage more in the next
window; the last one is scheduled for later. -/
theorem two_boards_take_turns_on_the_bus :
    let o : Options := { crossBoardWindowNs := 100 }
    let ws := twoWindows [[⟨60, 0⟩, ⟨130, 1⟩], [⟨40, 2⟩]] [[⟨140, 3⟩, ⟨220, 4⟩], [⟨110, 5⟩]]
    let start := startRun true [] { maximumSameTimeEvents := 4 }
    (runIndependent o recorder (some idleWork) start ws).map Outcome.names =
        some ([2, 0, 5, 1, 3, 4], [2, 0, 5, 1, 3, 4]) ∧
      ∀ out, runIndependent o recorder (some idleWork) start ws = some out →
        InProgramOrder recorder out := by
  intro o ws start
  refine ⟨by decide +kernel, fun out hrun => ?_⟩
  exact deferred_commands_come_up_once_and_in_order o recorder (some idleWork) true [] _
    (good_empty 4) (by decide) ws (by decide +kernel) out hrun

/-- Two commands of board 0 at 103 outlast the window that ends at 100. A third,
staged at the same time in the next window, has number 0 again and overtakes the
second. -/
theorem a_command_left_over_is_overtaken :
    let o : Options := { crossBoardWindowNs := 100 }
    let ws := twoWindows [[⟨103, 0⟩, ⟨103, 1⟩], []] [[⟨103, 2⟩], []]
    let start := startRun true [] { maximumSameTimeEvents := 4 }
    (runIndependent o recorder (some idleWork) start ws).map Outcome.names =
        some ([0, 2, 1], [0, 1, 2]) ∧
      ∀ out, runIndependent o recorder (some idleWork) start ws = some out →
        ¬ InProgramOrder recorder out := by
  intro o ws start
  have hnames : (runIndependent o recorder (some idleWork) start ws).map Outcome.names =
      some ([0, 2, 1], [0, 1, 2]) := by
    decide +kernel
  refine ⟨hnames, fun out hrun horder => ?_⟩
  rw [hrun] at hnames
  have hsame : out.names.1 = out.names.2 := congrArg (List.map _) horder.order
  rw [Option.some.inj hnames] at hsame
  exact absurd hsame (by decide)

/-- A command of board 1 at the very end of a window comes up in it, so one of
board 0 at the same time, staged in the next window, comes after it. -/
example : (runIndependent { crossBoardWindowNs := 100 } recorder (some idleWork)
    (startRun true [] { maximumSameTimeEvents := 4 })
    (twoWindows [[], [⟨100, 0⟩]] [[⟨100, 1⟩], []])).map Outcome.names =
      some ([0, 1], [1, 0]) := by
  decide +kernel

end Windows

end Fil.Sim
