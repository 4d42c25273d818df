-- Self-delimiting codes over a stream. A reader takes messages off the front of
-- what it has; a message is known when its last byte is there, and not before.
-- So it does not matter where a stream is cut: what is taken and what is left
-- depend on the bytes alone.
import Mathlib.Algebra.GroupWithZero.Nat
import Mathlib.Data.List.Basic

open List

namespace Fil.SelfDelimiting

/-- What a reader says of the bytes it has. -/
inductive Answer (α β ε : Type)
  | message (a : α) (rest : List β)
  | more
  | refused (why : ε)

/-- A code whose messages tell their own length. -/
structure Code (α β ε : Type) where
  Valid : α → Prop
  encode : α → List β
  take : List β → Answer α β ε
  take_encode : ∀ a rest, Valid a → take (encode a ++ rest) = .message a rest
  take_start : ∀ a l t, Valid a → l ++ t = encode a → t ≠ [] → take l = .more

variable {α β ε : Type} (code : Code α β ε)

def encodeAll (messages : List α) : List β := messages.flatMap code.encode

/-- The reader takes these messages off and has these bytes left, which start
with no message. -/
inductive Drains : List β → List α → List β → Prop
  | rests {l : List β} (h : ∀ a rest, code.take l ≠ .message a rest) : Drains l [] l
  | takes {l rest r : List β} {a : α} {messages : List α} (h : code.take l = .message a rest)
      (hrest : Drains rest messages r) : Drains l (a :: messages) r

def Inert (tail : List β) : Prop :=
  ∀ p t, p ++ t = tail → ∀ a rest, code.take p ≠ .message a rest

/-- What is left of messages of these lengths when so many bytes came: the lengths
of the messages that are not complete, and the bytes that came of them. -/
def leftover : List Nat → Nat → List Nat × Nat
  | [], n => ([], n)
  | z :: zs, n => if z ≤ n then leftover zs (n - z) else (z :: zs, n)

lemma leftover_le (zs : List Nat) (n : Nat) : (leftover zs n).2 ≤ n := by
  induction zs generalizing n with
  | nil => exact Nat.le_refl n
  | cons z zs ih =>
    rw [leftover]
    split_ifs
    · exact Nat.le_trans (ih (n - z)) (Nat.sub_le n z)
    · exact Nat.le_refl n

def lengths (messages : List α) : List Nat := messages.map fun a => (code.encode a).length

/-- The bytes that came of a stream are drained of the messages that are complete.
What is left is a piece of the next message or of the tail. -/
structure Split (messages : List α) (tail l x : List β) (done left : List α) (r : List β) :
    Prop where
  parts : messages = done ++ left
  drains : Drains code l done r
  stream : r ++ x = encodeAll code left ++ tail
  waits : left ≠ [] → code.take r = .more
  counted : leftover (lengths code messages) l.length = (lengths code left, r.length)

/-- Wherever a stream is cut, the messages before the cut are taken. The induction
is on the messages of the stream. -/
lemma split_of_stream {messages : List α} {tail l x : List β}
    (hvalid : ∀ a ∈ messages, code.Valid a) (htail : Inert code tail)
    (h : l ++ x = encodeAll code messages ++ tail) :
    ∃ done left r, Split code messages tail l x done left r := by
  induction messages generalizing l with
  | nil =>
    refine ⟨[], [], l, rfl, .rests ?_, h, fun hne => absurd rfl hne, rfl⟩
    exact htail l x h
  | cons a messages ih =>
    have ha := hvalid a mem_cons_self
    have hstream : l ++ x = code.encode a ++ (encodeAll code messages ++ tail) := by
      rw [h, encodeAll, flatMap_cons, append_assoc]
      rfl
    have hcut : (∃ t, t ≠ [] ∧ l ++ t = code.encode a) ∨ ∃ l', l = code.encode a ++ l' := by
      rcases List.append_eq_append_iff.mp hstream with ⟨t, ht, -⟩ | ⟨l', hl', -⟩
      · by_cases hnil : t = []
        · exact .inr ⟨[], by rw [ht, hnil, append_nil, append_nil]⟩
        · exact .inl ⟨t, hnil, ht.symm⟩
      · exact .inr ⟨l', hl'⟩
    rcases hcut with ⟨t, hne, ht⟩ | ⟨l', rfl⟩
    · -- the cut is inside the first message
      have hmore : code.take l = .more := code.take_start a l t ha ht hne
      refine ⟨[], a :: messages, l, rfl, .rests ?_, h, fun _ => hmore, ?_⟩
      · intro b rest hb
        rw [hmore] at hb
        cases hb
      · have hshort : l.length < (code.encode a).length := by
          rw [← ht, length_append]
          exact Nat.lt_add_of_pos_right (List.length_pos_iff.mpr hne)
        rw [lengths, map_cons, leftover, if_neg (Nat.not_le.mpr hshort)]
    · -- the first message is complete
      rw [append_assoc] at hstream
      have hrest := append_cancel_left hstream
      obtain ⟨done, left, r, hsplit⟩ :=
        ih (fun b hb => hvalid b (mem_cons_of_mem _ hb)) hrest
      refine ⟨a :: done, left, r, ?_, .takes (code.take_encode a l' ha) hsplit.drains,
        hsplit.stream, hsplit.waits, ?_⟩
      · rw [hsplit.parts, cons_append]
      · have hle : (code.encode a).length ≤ (code.encode a ++ l').length := by simp
        rw [lengths, map_cons, leftover, if_pos hle, length_append, Nat.add_sub_cancel_left]
        exact hsplit.counted

/-! ## A buffer -/

/-- Chunks of these lengths fit one after the other into a buffer that holds `n`
bytes of the messages to come. -/
def fits (capacity : Nat) : List Nat → Nat → List Nat → Bool
  | _, _, [] => true
  | zs, n, c :: cs =>
    n + c ≤ capacity &&
      fits capacity (leftover zs (n + c)).1 (leftover zs (n + c)).2 cs

/-- What is left is less than a message, or a piece of the tail. -/
lemma leftover_lt {bound : Nat} {zs : List Nat} (hzs : ∀ z ∈ zs, z ≤ bound) (n : Nat) :
    (leftover zs n).2 < bound ∨ (leftover zs n).1 = [] := by
  induction zs generalizing n with
  | nil => exact .inr rfl
  | cons z zs ih =>
    rw [leftover]
    split
    · exact ih (fun y hy => hzs y (mem_cons_of_mem _ hy)) (n - z)
    · rename_i hz
      exact .inl (Nat.lt_of_lt_of_le (Nat.not_le.mp hz) (hzs z mem_cons_self))

/-- The bytes that are still to come are not lost from the count. -/
lemma leftover_sum (zs : List Nat) (n : Nat) :
    (leftover zs n).2 + zs.sum = n + (leftover zs n).1.sum := by
  induction zs generalizing n with
  | nil => rfl
  | cons z zs ih =>
    rw [leftover]
    split
    · rw [sum_cons]
      have := ih (n - z)
      omega
    · rfl

lemma mem_of_mem_leftover {zs : List Nat} {n y : Nat} (h : y ∈ (leftover zs n).1) : y ∈ zs := by
  induction zs generalizing n with
  | nil => exact h
  | cons z zs ih =>
    rw [leftover] at h
    split_ifs at h
    · exact mem_cons_of_mem _ (ih h)
    · exact h

/-- Chunks of at most `width` bytes fit into a buffer that has that much room beside
a piece of a message. The stream is messages of at most `bound` bytes and a tail of
less. -/
lemma fits_of_small {capacity bound width tail : Nat} (hcapacity : bound + width ≤ capacity + 1)
    (htail : tail < bound) (cs : List Nat) (hcs : ∀ c ∈ cs, c ≤ width) {zs : List Nat} {n : Nat}
    (hzs : ∀ z ∈ zs, z ≤ bound) (hn : n < bound) (hstream : n + cs.sum ≤ zs.sum + tail) :
    fits capacity zs n cs = true := by
  induction cs generalizing zs n with
  | nil => rfl
  | cons c cs ih =>
    have hc := hcs c mem_cons_self
    have hsum := leftover_sum zs (n + c)
    rw [sum_cons] at hstream
    have hrest : (leftover zs (n + c)).2 + cs.sum ≤ (leftover zs (n + c)).1.sum + tail := by omega
    have hleft : (leftover zs (n + c)).2 < bound := by
      rcases leftover_lt hzs (n + c) with hlt | hnil
      · exact hlt
      · rw [hnil, sum_nil] at hrest
        omega
    rw [fits, Bool.and_eq_true]
    refine ⟨decide_eq_true (by omega), ?_⟩
    exact ih (fun c' hc' => hcs c' (mem_cons_of_mem _ hc'))
      (fun z hz => hzs z (mem_of_mem_leftover hz)) hleft hrest

lemma sum_lengths (messages : List α) :
    (lengths code messages).sum = (encodeAll code messages).length := by
  rw [encodeAll, length_flatMap]
  rfl

end Fil.SelfDelimiting
