-- Tickets that are issued once, and then either withdrawn or used. A log lists
-- what happened to them in order. The log of a run tells which tickets are
-- still out, and that no ticket is used twice or after it was withdrawn.
import Mathlib.Data.Set.Insert
import Mathlib.Data.List.Nodup

open List

namespace Tickets

variable {ι α : Type}

/-- One thing that happens to tickets. A ticket is withdrawn by its key. -/
inductive Act (ι α : Type)
  | issue (ticket : α)
  | withdraw (key : ι)
  | use (ticket : α)

/-- The tickets that are out, and the keys that were given away so far. -/
structure Office (ι α : Type) where
  out : Set α
  given : Set ι

variable (key : α → ι)

/-- What may happen to an office next. -/
inductive Step : Office ι α → Act ι α → Office ι α → Prop
  | issue {o : Office ι α} {a : α} {given : Set ι} (fresh : key a ∉ o.given)
      (keeps : o.given ⊆ given) (gives : key a ∈ given) :
      Step o (.issue a) ⟨insert a o.out, given⟩
  | withdraw {o : Office ι α} {a : α} (isOut : a ∈ o.out) :
      Step o (.withdraw (key a)) ⟨{b ∈ o.out | key b ≠ key a}, o.given⟩
  | use {o : Office ι α} {a : α} (isOut : a ∈ o.out) :
      Step o (.use a) ⟨{b ∈ o.out | key b ≠ key a}, o.given⟩

/-- A whole log. -/
inductive Run : Office ι α → List (Act ι α) → Office ι α → Prop
  | nil {o : Office ι α} : Run o [] o
  | cons {o o₁ o₂ : Office ι α} {act : Act ι α} {acts : List (Act ι α)} (first : Step key o act o₁)
      (rest : Run o₁ acts o₂) : Run o (act :: acts) o₂

/-- Tickets that are out have keys that were given away, each to one ticket. -/
structure Sound (o : Office ι α) : Prop where
  given : ∀ a ∈ o.out, key a ∈ o.given
  one : ∀ a ∈ o.out, ∀ b ∈ o.out, key a = key b → a = b

variable {key} {o o' : Office ι α} {l : List (Act ι α)} {act : Act ι α} {a : α}

lemma Run.single (h : Step key o act o') : Run key o [act] o' :=
  .cons h .nil

lemma Run.eq_of_nil (h : Run key o [] o') : o' = o := by
  cases h
  rfl

lemma Run.append {o o₁ o₂ : Office ι α} {l₁ l₂ : List (Act ι α)} (h₁ : Run key o l₁ o₁)
    (h₂ : Run key o₁ l₂ o₂) : Run key o (l₁ ++ l₂) o₂ := by
  induction h₁ with
  | nil => exact h₂
  | cons first _ ih => exact .cons first (ih h₂)

lemma Step.sound (h : Step key o act o') (hs : Sound key o) : Sound key o' := by
  cases h with
  | @issue a given fresh keeps gives =>
    refine ⟨?_, ?_⟩
    · rintro b (rfl | hb)
      · exact gives
      · exact keeps (hs.given b hb)
    · rintro b (rfl | hb) c (rfl | hc) he
      · rfl
      · exact absurd (he ▸ hs.given c hc) fresh
      · exact absurd (he ▸ hs.given b hb) fresh
      · exact hs.one b hb c hc he
  | withdraw => exact ⟨fun b hb => hs.given b hb.1, fun b hb c hc => hs.one b hb.1 c hc.1⟩
  | use => exact ⟨fun b hb => hs.given b hb.1, fun b hb c hc => hs.one b hb.1 c hc.1⟩

lemma Step.given_mono (h : Step key o act o') : o.given ⊆ o'.given := by
  cases h with
  | issue _ keeps _ => exact keeps
  | withdraw => exact subset_rfl
  | use => exact subset_rfl

lemma Run.sound (h : Run key o l o') (hs : Sound key o) : Sound key o' := by
  induction h with
  | nil => exact hs
  | cons first _ ih => exact ih (first.sound hs)

/-! ## What a log tells -/

/-- The tickets used in a log, in order. -/
def used : List (Act ι α) → List α
  | [] => []
  | .use a :: l => a :: used l
  | _ :: l => used l

lemma used_append (l₁ l₂ : List (Act ι α)) : used (l₁ ++ l₂) = used l₁ ++ used l₂ := by
  induction l₁ with
  | nil => rfl
  | cons act l ih => cases act <;> simp [used, ih]

lemma mem_used : a ∈ used l ↔ .use a ∈ l := by
  induction l with
  | nil => simp [used]
  | cons act l ih => cases act <;> simp [used, ih]

/-- The tickets issued in a log, in order. -/
def issued : List (Act ι α) → List α
  | [] => []
  | .issue a :: l => a :: issued l
  | _ :: l => issued l

lemma issued_append (l₁ l₂ : List (Act ι α)) : issued (l₁ ++ l₂) = issued l₁ ++ issued l₂ := by
  induction l₁ with
  | nil => rfl
  | cons act l ih => cases act <;> simp [issued, ih]

lemma mem_issued : a ∈ issued l ↔ .issue a ∈ l := by
  induction l with
  | nil => simp [issued]
  | cons act l ih => cases act <;> simp [issued, ih]

section

variable (h : Run key o l o')
include h

/-- A key that was given away and is not out any more is never heard of again. -/
lemma Run.gone {k : ι} (hg : k ∈ o.given) (hn : ∀ a ∈ o.out, key a ≠ k) :
    (∀ a, .issue a ∈ l → key a ≠ k) ∧ .withdraw k ∉ l ∧ (∀ a, .use a ∈ l → key a ≠ k) ∧
      ∀ a ∈ o'.out, key a ≠ k := by
  induction h with
  | nil => simpa using hn
  | @cons o o₁ o₂ act acts first _ ih =>
    have hn₁ : ∀ a ∈ o₁.out, key a ≠ k := by
      cases first with
      | issue fresh =>
        rintro b (rfl | hb)
        · rintro rfl
          exact fresh hg
        · exact hn b hb
      | withdraw => exact fun b hb => hn b hb.1
      | use => exact fun b hb => hn b hb.1
    obtain ⟨hi, hw, hu, ho⟩ := ih (first.given_mono hg) hn₁
    cases first with
    | issue fresh =>
      refine ⟨?_, by simpa using hw, by simpa using hu, ho⟩
      rintro b hb rfl
      rcases mem_cons.mp hb with heq | hb
      · cases heq
        exact fresh hg
      · exact hi b hb rfl
    | withdraw isOut =>
      refine ⟨by simpa using hi, ?_, by simpa using hu, ho⟩
      rintro hb
      rcases mem_cons.mp hb with heq | hb
      · cases heq
        exact hn _ isOut rfl
      · exact hw hb
    | use isOut =>
      refine ⟨by simpa using hi, by simpa using hw, ?_, ho⟩
      rintro b hb rfl
      rcases mem_cons.mp hb with heq | hb
      · cases heq
        exact hn _ isOut rfl
      · exact hu b hb rfl

lemma Run.given_mono : o.given ⊆ o'.given := by
  induction h with
  | nil => exact subset_rfl
  | cons first _ ih => exact first.given_mono.trans ih

/-- A ticket is issued under a key that was not given away before, and is from then on. -/
lemma Run.issued_once (ha : .issue a ∈ l) : key a ∉ o.given ∧ key a ∈ o'.given := by
  induction h with
  | nil => cases ha
  | @cons o o₁ o₂ act acts first rest ih =>
    rcases mem_cons.mp ha with heq | ha'
    · subst heq
      cases first with
      | issue fresh _ gives => exact ⟨fresh, rest.given_mono gives⟩
    · exact ⟨fun hg => (ih ha').1 (first.given_mono hg), (ih ha').2⟩

lemma Run.issued_nodup : ((issued l).map key).Nodup := by
  induction h with
  | nil => exact nodup_nil
  | @cons o o₁ o₂ act acts first rest ih =>
    cases first with
    | withdraw => exact ih
    | use => exact ih
    | @issue a given fresh keeps gives =>
      refine nodup_cons.mpr ⟨?_, ih⟩
      intro hmem
      obtain ⟨b, hb, heq⟩ := mem_map.mp hmem
      exact (rest.issued_once (mem_issued.mp hb)).1 (heq ▸ gives)

section

variable (hs : Sound key o)
include hs

/-- The key of a used ticket is on no ticket that is out in the end. -/
lemma Run.used_gone (ha : .use a ∈ l) : ∀ b ∈ o'.out, key b ≠ key a := by
  induction h with
  | nil => cases ha
  | @cons o o₁ o₂ act acts first rest ih =>
    rcases mem_cons.mp ha with heq | ha'
    · subst heq
      cases first with
      | use isOut => exact (rest.gone (k := key a) (hs.given a isOut) fun b hb => hb.2).2.2.2
    · exact ih (first.sound hs) ha'

/-- Everything used was out before or issued on the way, and was not withdrawn. -/
lemma Run.of_used (ha : .use a ∈ l) :
    (a ∈ o.out ∨ .issue a ∈ l) ∧ .withdraw (key a) ∉ l := by
  induction h with
  | nil => cases ha
  | @cons o o₁ o₂ act acts first rest ih =>
    have hs₁ := first.sound hs
    rcases mem_cons.mp ha with heq | ha'
    · subst heq
      cases first with
      | use isOut =>
        refine ⟨.inl isOut, ?_⟩
        have := (rest.gone (k := key a) (hs.given a isOut) fun b hb => hb.2).2.1
        simpa using this
    obtain ⟨hout, hw⟩ := ih hs₁ ha'
    cases first with
    | issue =>
      refine ⟨?_, by simpa using hw⟩
      rcases hout with (rfl | hout) | hout
      · exact .inr (by simp)
      · exact .inl hout
      · exact .inr (by simp [hout])
    | @withdraw b isOut =>
      refine ⟨?_, ?_⟩
      · rcases hout with hout | hout
        · exact .inl hout.1
        · exact .inr (by simp [hout])
      · rintro hb
        rcases mem_cons.mp hb with heq | hb
        · have hkey : key a = key b := by simpa using heq
          exact (rest.gone (k := key b) (hs.given b isOut) fun c hc => hc.2).2.2.1 a ha' hkey
        · exact hw hb
    | use =>
      refine ⟨?_, by simpa using hw⟩
      rcases hout with hout | hout
      · exact .inl hout.1
      · exact .inr (by simp [hout])

/-- What is out at the end: what was out or issued, unless withdrawn by its own
key or used. -/
lemma Run.out_iff :
    a ∈ o'.out ↔ (a ∈ o.out ∨ .issue a ∈ l) ∧ .withdraw (key a) ∉ l ∧ .use a ∉ l := by
  induction h with
  | nil => simp
  | @cons o o₁ o₂ act acts first rest ih =>
    have hs₁ := first.sound hs
    rw [ih hs₁]
    cases first with
    | @issue b given =>
      simp only [Set.mem_insert_iff, mem_cons, Act.issue.injEq, reduceCtorEq, false_or]
      grind
    | @withdraw b isOut =>
      have hi := (rest.gone (k := key b) (hs.given b isOut) fun c hc => hc.2).1 a
      simp only [Set.mem_ofPred_eq, mem_cons, Act.withdraw.injEq, reduceCtorEq, false_or]
      grind
    | @use b isOut =>
      have hi := (rest.gone (k := key b) (hs.given b isOut) fun c hc => hc.2).1 a
      have hone : a ∈ o.out → key a = key b → a = b := fun h => hs.one a h b isOut
      have hkey : a = b → key a = key b := congrArg key
      simp only [Set.mem_ofPred_eq, mem_cons, Act.use.injEq, reduceCtorEq, false_or]
      grind

lemma Run.used_nodup : ((used l).map key).Nodup := by
  induction h with
  | nil => exact nodup_nil
  | @cons o o₁ o₂ act acts first rest ih =>
    have hrest := ih (first.sound hs)
    cases first with
    | issue => exact hrest
    | withdraw => exact hrest
    | @use b isOut =>
      refine nodup_cons.mpr ⟨?_, hrest⟩
      intro hmem
      obtain ⟨c, hc, heq⟩ := mem_map.mp hmem
      have hgone := rest.gone (k := key b) (hs.given b isOut) fun d hd => hd.2
      exact hgone.2.2.1 c (mem_used.mp hc) heq

end

/-! ## One office among others -/

/-- What happens in one office happens in the union with other offices: their
tickets `others` have other keys, and the keys this office may still give are
none of theirs. -/
lemma Run.frame {others : Set α} {elsewhere : Set ι} (hgiven : ∀ b ∈ others, key b ∈ o.given)
    (happart : ∀ a ∈ o.out, ∀ b ∈ others, key a ≠ key b) (hfree : ∀ k ∉ o.given, k ∈ elsewhere) :
    Run key ⟨o.out ∪ others, o.given ∩ elsewhere⟩ l ⟨o'.out ∪ others, o'.given ∩ elsewhere⟩ ∧
      ∀ a ∈ o'.out, ∀ b ∈ others, key a ≠ key b := by
  induction h with
  | nil => exact ⟨.nil, happart⟩
  | @cons o o₁ o₂ act acts first rest ih =>
    have hfree₁ : ∀ k ∉ o₁.given, k ∈ elsewhere := fun k hk =>
      hfree k fun hk' => hk (first.given_mono hk')
    have hgiven₁ : ∀ b ∈ others, key b ∈ o₁.given := fun b hb => first.given_mono (hgiven b hb)
    have hremove : ∀ a : α, a ∈ o.out →
        {b ∈ o.out | key b ≠ key a} ∪ others = {b ∈ o.out ∪ others | key b ≠ key a} := by
      intro a ha
      ext b
      constructor
      · rintro (⟨hb, hne⟩ | hb)
        · exact ⟨.inl hb, hne⟩
        · exact ⟨.inr hb, fun he => happart a ha b hb he.symm⟩
      · rintro ⟨hb | hb, hne⟩
        · exact .inl ⟨hb, hne⟩
        · exact .inr hb
    cases first with
    | @issue a given fresh keeps gives =>
      have happart₁ : ∀ c ∈ insert a o.out, ∀ b ∈ others, key c ≠ key b := by
        rintro c (rfl | hc) b hb
        · exact fun he => fresh (he ▸ hgiven b hb)
        · exact happart c hc b hb
      obtain ⟨hrun, hend⟩ := ih hgiven₁ happart₁ hfree₁
      refine ⟨.cons ?_ hrun, hend⟩
      rw [Set.insert_union]
      exact .issue (fun hk => fresh hk.1) (Set.inter_subset_inter_left _ keeps)
        ⟨gives, hfree _ fresh⟩
    | @withdraw a isOut =>
      obtain ⟨hrun, hend⟩ := ih hgiven₁ (fun c hc => happart c hc.1) hfree₁
      refine ⟨.cons ?_ hrun, hend⟩
      rw [hremove a isOut]
      exact .withdraw (o := ⟨o.out ∪ others, o.given ∩ elsewhere⟩) (.inl isOut)
    | @use a isOut =>
      obtain ⟨hrun, hend⟩ := ih hgiven₁ (fun c hc => happart c hc.1) hfree₁
      refine ⟨.cons ?_ hrun, hend⟩
      rw [hremove a isOut]
      exact .use (o := ⟨o.out ∪ others, o.given ∩ elsewhere⟩) (.inl isOut)

end

end Tickets
